import LittleSpammyMailman.Layout
import LittleSpammyMailman.Numeral
import LittleSpammyMailman.Loop
import LittleSpammyMailman.Replay
import LittleSpammyMailman.Runs
import LittleSpammyMailman.Text
import LittleSpammyMailman.Args
import LittleSpammyMailman.Emit
import LittleSpammyMailman.EmitOps
import LittleSpammyMailman.Mmu
import LittleSpammyMailman.Dump
import LittleSpammyMailman.Effects
import LittleSpammyMailman.Mapping
import LittleSpammyMailman.Window
import LittleSpammyMailman.Whitelist
import LittleSpammyMailman.Framing
import LittleSpammyMailman.Lkdump
import LittleSpammyMailman.Fbdump
import LittleSpammyMailman.Autofb
import LittleSpammyMailman.Sysrst
import LittleSpammyMailman.Lklog
import LittleSpammyMailman.Barrier
import LittleSpammyMailman.Bits
import LittleSpammyMailman.Kicker
import LittleSpammyMailman.Hang
import LittleSpammyMailman.Deadline
import LittleSpammyMailman.Rgu
import LittleSpammyMailman.RguConfig
import LittleSpammyMailman.RguRuns
import LittleSpammyMailman.Reboot
import LittleSpammyMailman.Delivery
import LittleSpammyMailman.Cpuinfo
import LittleSpammyMailman.Lkreport
