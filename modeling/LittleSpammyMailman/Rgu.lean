/-
The reset generator of `mtk_wdt_v2.c`, over its registers.

The hardware is a `Device`: what a register keeps of a write that carries its
key. The driver reads, changes bits and writes back; every write is logged.

* `Reg`, `Device`, `Driver` — the registers, the hardware, the driver's state;
* `Driver.probe`, `Driver.modeConfig` and the others — the driver's functions;
* `Op`, `run` — any sequence of calls, with the hardware's own changes of the
  status between them;
* `run_keyed` — **every write carries the key** of its register, whatever the
  device does.
-/
import LittleSpammyMailman.Bits
import LittleSpammyMailman.RingBuffer

open Bits

namespace Rgu

/-! ### Registers -/

inductive Reg
  | mode | length | restart | status | swrst | swsysrst | nonrstReg | nonrstReg2 | reqMode
  | reqIrqEn | extReqCon | debugCtl | latchCtl | latchCtl2 | sysdbgDegEn1 | sysdbgDegEn2 | debugCtl2
  deriving DecidableEq

/-- Offsets from `toprgu_base`. -/
def Reg.offset : Reg → BitVec 32
  | .mode => 0x0000
  | .length => 0x0004
  | .restart => 0x0008
  | .status => 0x000C
  | .swrst => 0x0014
  | .swsysrst => 0x0018
  | .nonrstReg => 0x0020
  | .nonrstReg2 => 0x0024
  | .reqMode => 0x0030
  | .reqIrqEn => 0x0034
  | .extReqCon => 0x0038
  | .debugCtl => 0x0040
  | .latchCtl => 0x0044
  | .latchCtl2 => 0x0048
  | .sysdbgDegEn1 => 0x0088
  | .sysdbgDegEn2 => 0x008C
  | .debugCtl2 => 0x00A0

/-- No two registers are one word: a write to one is none to another. -/
theorem Reg.offset_injective : Function.Injective Reg.offset := by
  intro r r' h
  cases r <;> cases r' <;> first | rfl | exact absurd h (by decide)

/-- The `…_KEY` of a register. -/
def Reg.key : Reg → BitVec 32
  | .mode => 0x22000000#32
  | .length => 0x0008#32
  | .restart => 0x1971#32
  | .swrst => 0x1209#32
  | .swsysrst => 0x88000000#32
  | .reqMode => 0x33000000#32
  | .reqIrqEn => 0x44000000#32
  | .debugCtl => 0x59000000#32
  | .debugCtl2 => 0x55000000#32
  | .latchCtl => 0x95000000#32
  | .latchCtl2 => 0x95000000#32
  | _ => 0#32

/-- Where the key stands: the top byte, five bits of the length, or the whole word. -/
def Reg.keyMask : Reg → BitVec 32
  | .length => 0x001f#32
  | .restart => 0xffffffff#32
  | .swrst => 0xffffffff#32
  | .status => 0#32
  | .nonrstReg => 0#32
  | .nonrstReg2 => 0#32
  | .extReqCon => 0#32
  | .sysdbgDegEn1 => 0#32
  | .sysdbgDegEn2 => 0#32
  | _ => 0xff000000#32

def modeEnable : BitVec 32 := 0x0001#32
def modeExtPol : BitVec 32 := 0x0002#32
def modeExten : BitVec 32 := 0x0004#32
def modeIrq : BitVec 32 := 0x0008#32
def modeExtraCnt : BitVec 32 := 0x0010#32
def modeDualMode : BitVec 32 := 0x0040#32
def modeDdrReserve : BitVec 32 := 0x0080#32
def statusEintRst : BitVec 32 := 1#32 <<< 2
def statusSysrstRst : BitVec 32 := 1#32 <<< 3
def nonrst2SspmReset : BitVec 32 := 1#32 <<< 0
def nonrst2BypassPwrKey : BitVec 32 := 1#32 <<< 13
def nonrst2SuspendDis : BitVec 32 := 1#32 <<< 14
def debugCtlCachePreserve : BitVec 32 := 0x00000008#32
def debugCtlPausePulse : BitVec 32 := 0x00008000#32
def debugCtl2EmiDcsEn : BitVec 32 := 1#32 <<< 8
def debugCtl2DvfsrcEn : BitVec 32 := 1#32 <<< 9
def latchCtlDvfsrc : BitVec 32 := 1#32 <<< 13
def latchCtl2DfdEn : BitVec 32 := 1#32 <<< 17
def latchCtl2Thermal1Dis : BitVec 32 := 1#32 <<< 18
def latchCtl2Thermal2Dis : BitVec 32 := 1#32 <<< 19
def latchCtl2TimeoutMask : BitVec 32 := 0x1FFFF#32
def swsysRstMfg : BitVec 32 := 0x00000004#32
def swsysRstMd : BitVec 32 := 0x00000080#32
def swsysRstConmcu : BitVec 32 := 0x00001000#32
def swsysRstC2k : BitVec 32 := 0x00008000#32

/-- What can ask for a reset, with its bit in `REQ_MODE` and in `REQ_IRQ_EN`. -/
inductive Source
  | scpsys | eint | sysrst | thermal
  deriving DecidableEq

def Source.mark : Source → BitVec 32
  | .scpsys => 0x0002#32
  | .eint => 1#32 <<< 2
  | .sysrst => 1#32 <<< 3
  | .thermal => 1#32 <<< 18

/-- `RGU_STAGE_KERNEL` -/
def stageKernel : BitVec 32 := 0x3#32

/-! ### The hardware -/

/-- The value carries the register's key. -/
def Keyed (r : Reg) (v : BitVec 32) : Prop := v &&& r.keyMask = r.key

/-- No bit stands in the place of the key but the key's. -/
def Clean (r : Reg) (v : BitVec 32) : Prop := v &&& r.keyMask &&& ~~~ r.key = 0#32

/-- What a register holds after a write: of a write that carries the key all but the key, and
nothing that would spoil the key when it is read back. Of other writes nothing is assumed. -/
structure Device where
  store : Reg → BitVec 32 → BitVec 32 → BitVec 32
  takes : ∀ {r old v}, Keyed r v → ∀ i, r.keyMask.getLsbD i = false →
    (store r old v).getLsbD i = v.getLsbD i
  clean : ∀ {r old v}, Keyed r v → Clean r (store r old v)

/-- Hardware that keeps everything but the keys. -/
def Device.plain : Device where
  store r _ v := v &&& ~~~ r.keyMask
  takes {r _ v} _ i hi := by
    by_cases hlt : i < 32
    · rw [BitVec.getLsbD_and, BitVec.getLsbD_not, hi, decide_eq_true hlt, Bool.not_false, Bool.true_and,
        Bool.and_true]
    · rw [BitVec.getLsbD_of_ge _ i (not_lt.mp hlt), BitVec.getLsbD_of_ge _ i (not_lt.mp hlt)]
  clean {r _ v} _ := by
    have hmask : ~~~ r.keyMask &&& r.keyMask = 0#32 := by
      rw [BitVec.and_comm]
      exact BitVec.and_not_self _
    rw [Clean, BitVec.and_assoc v, hmask, BitVec.and_zero, BitVec.zero_and]

/-! ### The driver -/

/-- An entry of `wdt_kick_info`. -/
structure KickInfo where
  cpu : ℤ
  restartTime : ℤ
  restartCaller : BitVec 64
  deriving DecidableEq

/-- The driver's own variables. -/
structure Vars where
  wdtEnable : ℤ
  wdtLastTimeoutVal : BitVec 32
  gApwdtEnDoe : ℤ
  extDebugkeyIoEint : ℤ

/-- The registers, the variables, the last kicks and the writes so far. `n` is
`MTK_WDT_KEEP_LAST_INFO`. -/
structure Driver (n : ℕ) where
  regs : Reg → BitVec 32
  vars : Vars
  kickInfo : RingBuffer.Slots KickInfo n
  log : List (Reg × BitVec 32)

/-- The driver as it is loaded, over registers that the stage before it left. -/
def Driver.loaded (n : ℕ) (regs : Reg → BitVec 32) : Driver n where
  regs
  vars := ⟨1, 0#32, 1, -1⟩
  kickInfo := RingBuffer.empty KickInfo n
  log := []

inductive WkWdtEn
  | wdtEn | wdtDis | other

inductive WkReqEn
  | reqEn | reqDis | other
  deriving DecidableEq

inductive WkReqMode
  | irqMode | rstMode | other
  deriving DecidableEq

inductive WdRestartType
  | normal | nolock | other

variable {n : ℕ} (d : Device)

namespace Driver

/-- `mt_reg_sync_writel` -/
def writel (s : Driver n) (v : BitVec 32) (r : Reg) : Driver n :=
  { s with regs := Function.update s.regs r (d.store r (s.regs r) v), log := s.log ++ [(r, v)] }

/-- The variables, assigned. -/
def setVars (s : Driver n) (vars : Vars) : Driver n := { s with vars }

/-- Set a bit for 1, clear it for 0, do nothing for another value: the shape of most switches. -/
def setOrClear (s : Driver n) (r : Reg) (m : BitVec 32) (value : ℤ) : Driver n :=
  if value = 1 then s.writel d (s.regs r ||| (m ||| r.key)) r
  else if value = 0 then s.writel d (s.regs r &&& ~~~ m ||| r.key) r
  else s

/-- `mtk_wdt_mark_stage` -/
def markStage (s : Driver n) (stage : BitVec 32) : Driver n :=
  s.writel d ((s.regs .nonrstReg2 &&& ~~~ (0x7#32 <<< 29)) ||| stage <<< 29) .nonrstReg2

/-- `mtk_wdt_set_time_out_value`: 64 ticks a second, 11 bits of them. -/
def setTimeOutValue (s : Driver n) (value : BitVec 32) : Driver n :=
  let timeout := value * 64#32
  let timeout := if 0x7FF#32 < timeout then 0x7FF#32 else timeout
  s.writel d (timeout <<< 5 ||| Reg.key .length) .length

/-- `mtk_wdt_mode_config`, with the lock or without. -/
def modeConfig (s : Driver n) (dualModeEn irq extEn extPol wdtEn : Bool) : Driver n :=
  let nonRst2 := s.regs .nonrstReg2
  -- `mtk_wdt_clear_all` does nothing: `WDT_CLR_IRQ` is 0
  let tmp := s.regs .mode ||| (Reg.key .mode ||| modeExtraCnt)
  let tmp := put modeEnable wdtEn tmp
  let tmp := put modeExtPol extPol tmp
  let tmp := put modeExten extEn tmp
  let tmp := put modeIrq irq tmp
  let tmp := put modeDualMode dualModeEn tmp
  (s.writel d (nonRst2 ||| nonrst2BypassPwrKey) .nonrstReg2).writel d tmp .mode

/-- `mtk_wdt_enable` -/
def enable (s : Driver n) (en : WkWdtEn) : Driver n :=
  if s.vars.gApwdtEnDoe = 0 then s
  else
    let tmp := s.regs .mode ||| Reg.key .mode
    match en with
    | .wdtEn =>
      (s.setVars { s.vars with wdtEnable := 1 }).writel d (tmp ||| modeEnable) .mode
    | .wdtDis =>
      (s.setVars { s.vars with wdtEnable := 0 }).writel d (tmp &&& ~~~ modeEnable) .mode
    | .other => s.writel d tmp .mode

/-- `mtk_wdt_confirm_hwreboot` -/
def confirmHwreboot (s : Driver n) : Driver n := s.modeConfig d true true true false true

/-- `mtk_wdt_restart` on `cpu`, called at `time` from `caller`. -/
def restart (s : Driver n) (type : WdRestartType) (cpu time : ℤ) (caller : BitVec 64) : Driver n :=
  match type with
  | .normal =>
    let s := s.writel d (Reg.key .restart) .restart
    { s with kickInfo := RingBuffer.push s.kickInfo ⟨cpu, time, caller⟩ }
  | .nolock =>
    let s := s.writel d (Reg.key .restart) .restart
    { s with kickInfo := RingBuffer.push s.kickInfo ⟨-1, time, caller⟩ }
  | .other => s

/-- A reset from outside, by the test of suspend and resume. -/
def externalReset (s : Driver n) : Prop :=
  s.regs .status &&& (statusSysrstRst ||| statusEintRst) ≠ 0#32

instance (s : Driver n) : Decidable s.externalReset := by
  unfold externalReset
  infer_instance

/-- `mtk_wd_suspend` -/
def suspend (s : Driver n) (cpu time : ℤ) (caller : BitVec 64) : Driver n :=
  let s := if s.externalReset then s
    else
      let s := s.modeConfig d true true true false false
      s.writel d (s.regs .nonrstReg2 ||| nonrst2SuspendDis) .nonrstReg2
  s.restart d .normal cpu time caller

/-- `mtk_wd_resume` -/
def resume (s : Driver n) (cpu time : ℤ) (caller : BitVec 64) : Driver n :=
  if s.vars.wdtEnable = 1 then
    let s := s.setTimeOutValue d s.vars.wdtLastTimeoutVal
    let s := if s.externalReset then s
      else
        let s := s.modeConfig d true true true false true
        s.writel d (s.regs .nonrstReg2 &&& ~~~ nonrst2SuspendDis) .nonrstReg2
    s.restart d .normal cpu time caller
  else s

/-- `mtk_rgu_dram_reserved` -/
def dramReserved (s : Driver n) (enable : ℤ) : Driver n :=
  s.setOrClear d .mode modeDdrReserve enable

/-- `mtk_rgu_cfg_emi_dcs` -/
def cfgEmiDcs (s : Driver n) (enable : ℤ) : Driver n × ℤ :=
  (s.setOrClear d .debugCtl2 debugCtl2EmiDcsEn enable, if enable = 1 ∨ enable = 0 then 0 else -1)

/-- `mtk_rgu_cfg_dvfsrc`, which cannot switch it off. -/
def cfgDvfsrc (s : Driver n) (enable : ℤ) : Driver n × ℤ :=
  let dbgCtl := s.regs .debugCtl2
  let latch := s.regs .latchCtl
  if enable = 1 then
    ((s.writel d (dbgCtl ||| debugCtl2DvfsrcEn ||| Reg.key .debugCtl2) .debugCtl2).writel d
      (latch ||| latchCtlDvfsrc ||| Reg.key .latchCtl) .latchCtl, 0)
  else (s, -1)

/-- `mtk_rgu_mcu_cache_preserve` -/
def mcuCachePreserve (s : Driver n) (enable : ℤ) : Driver n :=
  s.setOrClear d .debugCtl debugCtlCachePreserve enable

/-- `mtk_rgu_pause_dvfsrc`; the wait for the acknowledgement only reads. -/
def pauseDvfsrc (s : Driver n) (enable : ℤ) : Driver n :=
  if s.regs .debugCtl2 &&& debugCtl2DvfsrcEn = 0#32 then s
  else s.setOrClear d .debugCtl debugCtlPausePulse enable

/-- `mtk_wdt_swsysret_config`: four of the bits are known, and anything else is a write of the key. -/
def swsysretConfig (s : Driver n) (bit : BitVec 32) (setValue : ℤ) : Driver n :=
  let val := s.regs .swsysrst ||| Reg.key .swsysrst
  let known := bit = swsysRstMd ∨ bit = swsysRstMfg ∨ bit = swsysRstC2k ∨ bit = swsysRstConmcu
  let val := if known ∧ setValue = 1 then val ||| bit
    else if known ∧ setValue = 0 then val &&& ~~~ bit
    else val
  s.writel d val .swsysrst

/-- `mtk_wdt_set_c2k_sysrst` -/
def setC2kSysrst (s : Driver n) (flag : BitVec 32) (shift : ℕ) : Driver n :=
  if flag = 1#32 then
    s.writel d (s.regs .swsysrst &&& ~~~ (1#32 <<< shift) ||| Reg.key .swsysrst) .swsysrst
  else s.writel d (s.regs .swsysrst ||| 1#32 <<< shift ||| Reg.key .swsysrst) .swsysrst

/-- `mtk_wdt_dfd_count_en` -/
def dfdCountEn (s : Driver n) (value : ℤ) : Driver n := s.setOrClear d .latchCtl2 latchCtl2DfdEn value

/-- `mtk_wdt_dfd_thermal1_dis` -/
def dfdThermal1Dis (s : Driver n) (value : ℤ) : Driver n :=
  s.setOrClear d .latchCtl2 latchCtl2Thermal1Dis value

/-- `mtk_wdt_dfd_thermal2_dis` -/
def dfdThermal2Dis (s : Driver n) (value : ℤ) : Driver n :=
  s.setOrClear d .latchCtl2 latchCtl2Thermal2Dis value

/-- `mtk_wdt_dfd_timeout` -/
def dfdTimeout (s : Driver n) (value : BitVec 32) : Driver n :=
  s.writel d (s.regs .latchCtl2 &&& ~~~ latchCtl2TimeoutMask |||
    (value &&& latchCtl2TimeoutMask ||| Reg.key .latchCtl2)) .latchCtl2

/-- The bit of a source after a request: what is set for `en`, cleared for `dis`. -/
def requestBit (m : BitVec 32) (en : WkReqEn) (tmp : BitVec 32) : BitVec 32 :=
  match en with
  | .reqEn => tmp ||| m
  | .reqDis => tmp &&& ~~~ m
  | .other => tmp

/-- The branches of `mtk_wdt_request_en_set`: the registers beside `REQ_MODE`, the value for it and
the result. -/
def requestEnBranch (s : Driver n) (markBit : BitVec 32) (en : WkReqEn) (tmp : BitVec 32) :
    Driver n × BitVec 32 × ℤ :=
  if markBit = Source.mark .scpsys then (s, requestBit (Source.mark .scpsys) en tmp, 0)
  else if markBit = Source.mark .eint then
    if en = .reqEn ∧ s.vars.extDebugkeyIoEint = -1 then (s, tmp &&& ~~~ Source.mark .eint, -1)
    else
      (if en = .reqEn then
        s.writel d (BitVec.ofInt 32 s.vars.extDebugkeyIoEint <<< 4 ||| 0x01#32) .extReqCon
        else s, requestBit (Source.mark .eint) en tmp, 0)
  else if markBit = Source.mark .sysrst then
    (match en with
      | .reqEn => (s.writel d 0x1b2a#32 .sysdbgDegEn1).writel d 0x4f59#32 .sysdbgDegEn2
      | .reqDis => (s.writel d 0#32 .sysdbgDegEn1).writel d 0#32 .sysdbgDegEn2
      | .other => s, requestBit (Source.mark .sysrst) en tmp, 0)
  else if markBit = Source.mark .thermal then (s, requestBit (Source.mark .thermal) en tmp, 0)
  else (s, tmp, -1)

/-- `mtk_wdt_request_en_set` -/
def requestEnSet (s : Driver n) (markBit : BitVec 32) (en : WkReqEn) : Driver n × ℤ :=
  let en := if s.vars.gApwdtEnDoe = 0 then .reqDis else en
  let b := s.requestEnBranch d markBit en (s.regs .reqMode ||| Reg.key .reqMode)
  let s' := b.1.writel d b.2.1 .reqMode
  (if s.vars.gApwdtEnDoe = 0 then s'.writel d (Reg.key .reqMode) .reqMode else s', b.2.2)

/-- The sources by their marks. -/
def sourceOf (markBit : BitVec 32) : Option Source :=
  if markBit = Source.mark .scpsys then some .scpsys
  else if markBit = Source.mark .eint then some .eint
  else if markBit = Source.mark .sysrst then some .sysrst
  else if markBit = Source.mark .thermal then some .thermal
  else none

/-- `mtk_wdt_request_mode_set` -/
def requestModeSet (s : Driver n) (markBit : BitVec 32) (mode : WkReqMode) : Driver n × ℤ :=
  let tmp := s.regs .reqIrqEn ||| Reg.key .reqIrqEn
  let b := match sourceOf markBit with
    | some src => (match mode with
        | .irqMode => tmp ||| src.mark
        | .rstMode => tmp &&& ~~~ src.mark
        | .other => tmp, 0)
    | none => (tmp, -1)
  let s' := s.writel d b.1 .reqIrqEn
  (if s.vars.gApwdtEnDoe = 0 then s'.writel d (Reg.key .reqIrqEn) .reqIrqEn else s', b.2)

/-- What `mtk_wdt_sspm_isr` leaves for the next boot before it resets. -/
def markSspmReset (s : Driver n) : Driver n :=
  s.writel d (s.regs .nonrstReg2 ||| nonrst2SspmReset) .nonrstReg2

/-- `mtk_wdt_probe` from where it has the registers, up to the interrupts: what the device tree says
of `apwdt_en` and of the debug key. -/
def probeTree (s : Driver n) (apwdtEn eint : Option ℤ) : Driver n :=
  (s.setVars { s.vars with
    gApwdtEnDoe := apwdtEn.getD 1
    extDebugkeyIoEint := eint.getD s.vars.extDebugkeyIoEint }).markStage d stageKernel

/-- `mtk_wdt_probe`; `ret` is what the interrupt requests returned, and `kicker` is
`CONFIG_MTK_WD_KICKER`. -/
def probe (s : Driver n) (kicker : Bool) (apwdtEn eint : Option ℤ) (ret cpu time : ℤ)
    (caller : BitVec 64) : Driver n :=
  let s := s.probeTree d apwdtEn eint
  if ret ≠ 0 then s
  else
    let s := (s.setVars { s.vars with wdtLastTimeoutVal := 32#32 }).setTimeOutValue d 32#32
    let s := s.restart d .normal cpu time caller
    if kicker = true ∧ s.vars.gApwdtEnDoe = 1 then s.modeConfig d true true true false true
    else
      let s := s.modeConfig d false false true false false
      s.setVars { s.vars with wdtEnable := 0 }

end Driver

/-! ### Runs -/

/-- A call of the driver, or a change of the status by the hardware. -/
inductive Op
  | probe (kicker : Bool) (apwdtEn eint : Option ℤ) (ret cpu time : ℤ) (caller : BitVec 64)
  | setTimeOutValue (value : BitVec 32)
  | modeConfig (dualModeEn irq extEn extPol wdtEn : Bool)
  | enable (en : WkWdtEn)
  | confirmHwreboot
  | restart (type : WdRestartType) (cpu time : ℤ) (caller : BitVec 64)
  | suspend (cpu time : ℤ) (caller : BitVec 64)
  | resume (cpu time : ℤ) (caller : BitVec 64)
  | dramReserved (enable : ℤ)
  | cfgEmiDcs (enable : ℤ)
  | cfgDvfsrc (enable : ℤ)
  | mcuCachePreserve (enable : ℤ)
  | pauseDvfsrc (enable : ℤ)
  | swsysretConfig (bit : BitVec 32) (setValue : ℤ)
  /-- A `shift` from 24 on is no module's bit but the key's. -/
  | setC2kSysrst (flag : BitVec 32) (shift : Fin 24)
  | dfdCountEn (value : ℤ)
  | dfdThermal1Dis (value : ℤ)
  | dfdThermal2Dis (value : ℤ)
  | dfdTimeout (value : BitVec 32)
  | requestEnSet (markBit : BitVec 32) (en : WkReqEn)
  | requestModeSet (markBit : BitVec 32) (mode : WkReqMode)
  | markSspmReset
  | status (value : BitVec 32)

def Op.apply (s : Driver n) : Op → Driver n
  | .probe kicker apwdtEn eint ret cpu time caller => s.probe d kicker apwdtEn eint ret cpu time caller
  | .setTimeOutValue value => s.setTimeOutValue d value
  | .modeConfig dualModeEn irq extEn extPol wdtEn => s.modeConfig d dualModeEn irq extEn extPol wdtEn
  | .enable en => s.enable d en
  | .confirmHwreboot => s.confirmHwreboot d
  | .restart type cpu time caller => s.restart d type cpu time caller
  | .suspend cpu time caller => s.suspend d cpu time caller
  | .resume cpu time caller => s.resume d cpu time caller
  | .dramReserved e => s.dramReserved d e
  | .cfgEmiDcs e => (s.cfgEmiDcs d e).1
  | .cfgDvfsrc e => (s.cfgDvfsrc d e).1
  | .mcuCachePreserve e => s.mcuCachePreserve d e
  | .pauseDvfsrc e => s.pauseDvfsrc d e
  | .swsysretConfig bit setValue => s.swsysretConfig d bit setValue
  | .setC2kSysrst flag shift => s.setC2kSysrst d flag shift
  | .dfdCountEn value => s.dfdCountEn d value
  | .dfdThermal1Dis value => s.dfdThermal1Dis d value
  | .dfdThermal2Dis value => s.dfdThermal2Dis d value
  | .dfdTimeout value => s.dfdTimeout d value
  | .requestEnSet markBit en => (s.requestEnSet d markBit en).1
  | .requestModeSet markBit mode => (s.requestModeSet d markBit mode).1
  | .markSspmReset => s.markSspmReset d
  | .status value => { s with regs := Function.update s.regs .status value }

def run (s : Driver n) (ops : List Op) : Driver n := ops.foldl (Op.apply d) s

/-! ### Keys -/

section keys

variable {d} {s : Driver n} {r : Reg} {v m : BitVec 32}

theorem keyed_of_no_mask (h : r.keyMask = 0#32) (hkey : r.key = 0#32) (v : BitVec 32) : Keyed r v := by
  rw [Keyed, h, hkey, BitVec.and_zero]

theorem Clean.or (h : Clean r v) (hm : m &&& r.keyMask = 0#32) : Clean r (v ||| m) := by
  rw [Clean, BitVec.and_or_distrib_right, hm, BitVec.or_zero]
  exact h

theorem Clean.and (h : Clean r v) (m : BitVec 32) : Clean r (v &&& m) := by
  rw [Clean, BitVec.and_assoc v, BitVec.and_comm m, ← BitVec.and_assoc v, BitVec.and_assoc _ m,
    BitVec.and_comm m, ← BitVec.and_assoc, h, BitVec.zero_and]

theorem key_and_mask (r : Reg) : r.key &&& r.keyMask = r.key := by
  cases r <;> rfl

/-- What is clean carries the key once it is put in. -/
theorem Clean.or_key (h : Clean r v) : Keyed r (v ||| r.key) := by
  rw [Keyed, BitVec.and_or_distrib_right, key_and_mask]
  refine BitVec.eq_of_getLsbD_eq fun i hi => ?_
  have hbit := congrArg (·.getLsbD i) h
  simp only [BitVec.getLsbD_and, BitVec.getLsbD_not, hi, decide_true, Bool.true_and,
    BitVec.getLsbD_zero] at hbit
  rw [BitVec.getLsbD_or, BitVec.getLsbD_and]
  revert hbit
  cases v.getLsbD i <;> cases r.keyMask.getLsbD i <;> cases r.key.getLsbD i <;> simp

theorem Keyed.or (h : Keyed r v) (hm : m &&& r.keyMask = 0#32) : Keyed r (v ||| m) := by
  rw [Keyed, BitVec.and_or_distrib_right, hm, BitVec.or_zero]
  exact h

theorem Keyed.and_not (h : Keyed r v) (hm : m &&& r.keyMask = 0#32) : Keyed r (v &&& ~~~ m) := by
  rw [Keyed, ← h]
  refine BitVec.eq_of_getLsbD_eq fun i hi => ?_
  have hbit := congrArg (·.getLsbD i) hm
  simp only [BitVec.getLsbD_and, BitVec.getLsbD_not, hi, decide_true, Bool.true_and,
    BitVec.getLsbD_zero] at hbit ⊢
  revert hbit
  cases m.getLsbD i <;> cases r.keyMask.getLsbD i <;> simp

theorem Keyed.put (h : Keyed r v) (hm : m &&& r.keyMask = 0#32) (b : Bool) :
    Keyed r (Bits.put m b v) := by
  cases b with
  | true => exact h.or hm
  | false => exact h.and_not hm

theorem length_key_avoids (t : BitVec 32) : t <<< 5 &&& Reg.keyMask .length = 0#32 := by
  refine BitVec.eq_of_getLsbD_eq fun i hi => ?_
  have hmask : (Reg.keyMask .length).getLsbD i = decide (i < 5) := by
    rw [Reg.keyMask, show 0x001f#32 = BitVec.ofNat 32 (2 ^ 5 - 1) from rfl, BitVec.getLsbD_ofNat,
      Nat.testBit_two_pow_sub_one, decide_eq_true hi, Bool.true_and]
  rw [BitVec.getLsbD_and, BitVec.getLsbD_shiftLeft, hmask, BitVec.getLsbD_zero]
  by_cases h : i < 5 <;> simp [h]

theorem bit_avoids_key {k : ℕ} (hk : k < 24) : 1#32 <<< k &&& 0xff000000#32 = 0#32 := by
  have hall : ∀ j : Fin 24, 1#32 <<< j.val &&& 0xff000000#32 = 0#32 := by decide
  exact hall ⟨k, hk⟩

theorem Keyed.requestBit (h : Keyed r v) (hm : m &&& r.keyMask = 0#32) (en : WkReqEn) :
    Keyed r (Driver.requestBit m en v) := by
  cases en with
  | reqEn => exact h.or hm
  | reqDis => exact h.and_not hm
  | other => exact h

theorem Source.mark_avoids (src : Source) :
    src.mark &&& Reg.keyMask .reqMode = 0#32 ∧ src.mark &&& Reg.keyMask .reqIrqEn = 0#32 := by
  cases src <;> exact ⟨rfl, rfl⟩

end keys

namespace Driver

section inv

variable {d} {s : Driver n} {r : Reg} {v m : BitVec 32}

/-- What every call keeps: no register spoils its key, and every write so far carried it. -/
structure Inv (s : Driver n) : Prop where
  clean : ∀ r, Clean r (s.regs r)
  keyed : ∀ w ∈ s.log, Keyed w.1 w.2

theorem Inv.loaded {regs : Reg → BitVec 32} (h : ∀ r, Clean r (regs r)) : (loaded n regs).Inv :=
  ⟨h, by simp [Driver.loaded]⟩

theorem Inv.writel (h : s.Inv) (hv : Keyed r v) : (s.writel d v r).Inv where
  clean r' := by
    show Clean r' (Function.update s.regs r (d.store r (s.regs r) v) r')
    by_cases hr : r' = r
    · subst hr
      rw [Function.update_self]
      exact d.clean hv
    · rw [Function.update_of_ne hr]
      exact h.clean r'
  keyed w hw := by
    rcases List.mem_append.mp hw with hold | hnew
    · exact h.keyed w hold
    · rw [List.mem_singleton] at hnew
      rw [hnew]
      exact hv

/-- The variables do not matter. -/
theorem Inv.setVars (h : s.Inv) (vars : Vars) : (s.setVars vars).Inv := ⟨h.clean, h.keyed⟩

theorem Inv.setOrClear (h : s.Inv) (hm : m &&& r.keyMask = 0#32) (value : ℤ) :
    (s.setOrClear d r m value).Inv := by
  rw [Driver.setOrClear]
  split_ifs
  · refine h.writel ?_
    rw [← BitVec.or_assoc]
    exact ((h.clean r).or hm).or_key
  · exact h.writel ((h.clean r).and _).or_key
  · exact h

theorem Inv.markStage (h : s.Inv) (stage : BitVec 32) : (s.markStage d stage).Inv :=
  h.writel (keyed_of_no_mask rfl rfl _)

theorem Inv.setTimeOutValue (h : s.Inv) (value : BitVec 32) : (s.setTimeOutValue d value).Inv := by
  refine h.writel ?_
  rw [Keyed, BitVec.and_or_distrib_right, length_key_avoids, BitVec.zero_or]
  rfl

theorem Inv.modeConfig (h : s.Inv) (dual irq ext pol wdt : Bool) :
    (s.modeConfig d dual irq ext pol wdt).Inv := by
  have hstart : Keyed .mode (s.regs .mode ||| (Reg.key .mode ||| modeExtraCnt)) := by
    rw [← BitVec.or_assoc]
    exact (h.clean .mode).or_key.or rfl
  exact (h.writel (keyed_of_no_mask rfl rfl _)).writel
    (((((hstart.put rfl wdt).put rfl pol).put rfl ext).put rfl irq).put rfl dual)

theorem Inv.enable (h : s.Inv) (en : WkWdtEn) : (s.enable d en).Inv := by
  have hstart := (h.clean .mode).or_key
  rw [Driver.enable]
  split_ifs
  · exact h
  · cases en with
    | wdtEn => exact (h.setVars _).writel (hstart.or rfl)
    | wdtDis => exact (h.setVars _).writel (hstart.and_not rfl)
    | other => exact h.writel hstart

theorem Inv.restart (h : s.Inv) (type : WdRestartType) (cpu time : ℤ) (caller : BitVec 64) :
    (s.restart d type cpu time caller).Inv := by
  cases type with
  | normal =>
    have hkey := h.writel (d := d) (key_and_mask .restart)
    exact ⟨hkey.clean, hkey.keyed⟩
  | nolock =>
    have hkey := h.writel (d := d) (key_and_mask .restart)
    exact ⟨hkey.clean, hkey.keyed⟩
  | other => exact h

theorem Inv.suspend (h : s.Inv) (cpu time : ℤ) (caller : BitVec 64) :
    (s.suspend d cpu time caller).Inv := by
  rw [Driver.suspend]
  refine Inv.restart ?_ ..
  split_ifs
  · exact h
  · exact (h.modeConfig ..).writel (keyed_of_no_mask rfl rfl _)

theorem Inv.resume (h : s.Inv) (cpu time : ℤ) (caller : BitVec 64) :
    (s.resume d cpu time caller).Inv := by
  rw [Driver.resume]
  split_ifs
  · refine Inv.restart ?_ ..
    split_ifs
    · exact h.setTimeOutValue _
    · exact ((h.setTimeOutValue _).modeConfig ..).writel (keyed_of_no_mask rfl rfl _)
  · exact h

theorem Inv.cfgDvfsrc (h : s.Inv) (enable : ℤ) : (s.cfgDvfsrc d enable).1.Inv := by
  rw [Driver.cfgDvfsrc]
  split_ifs
  · exact (h.writel ((h.clean .debugCtl2).or rfl).or_key).writel ((h.clean .latchCtl).or rfl).or_key
  · exact h

theorem Inv.pauseDvfsrc (h : s.Inv) (enable : ℤ) : (s.pauseDvfsrc d enable).Inv := by
  rw [Driver.pauseDvfsrc]
  split_ifs
  · exact h
  · exact h.setOrClear rfl enable

theorem Inv.swsysretConfig (h : s.Inv) (bit : BitVec 32) (setValue : ℤ) :
    (s.swsysretConfig d bit setValue).Inv := by
  have hstart := (h.clean .swsysrst).or_key
  have hknown (hbit : bit = swsysRstMd ∨ bit = swsysRstMfg ∨ bit = swsysRstC2k ∨
      bit = swsysRstConmcu) : bit &&& Reg.keyMask .swsysrst = 0#32 := by
    rcases hbit with rfl | rfl | rfl | rfl <;> rfl
  refine h.writel ?_
  split_ifs with hset hclear
  · exact hstart.or (hknown hset.1)
  · exact hstart.and_not (hknown hclear.1)
  · exact hstart

theorem Inv.setC2kSysrst (h : s.Inv) (flag : BitVec 32) (shift : Fin 24) :
    (s.setC2kSysrst d flag shift).Inv := by
  rw [Driver.setC2kSysrst]
  split_ifs
  · exact h.writel ((h.clean .swsysrst).and _).or_key
  · exact h.writel ((h.clean .swsysrst).or (bit_avoids_key shift.isLt)).or_key

theorem Inv.dfdTimeout (h : s.Inv) (value : BitVec 32) : (s.dfdTimeout d value).Inv := by
  have hvalue : value &&& latchCtl2TimeoutMask &&& Reg.keyMask .latchCtl2 = 0#32 := by
    rw [BitVec.and_assoc, show latchCtl2TimeoutMask &&& Reg.keyMask .latchCtl2 = 0#32 from rfl,
      BitVec.and_zero]
  refine h.writel ?_
  rw [← BitVec.or_assoc]
  exact (((h.clean .latchCtl2).and _).or hvalue).or_key

theorem Inv.requestEnBranch (h : s.Inv) (hv : Keyed .reqMode v) (markBit : BitVec 32) (en : WkReqEn) :
    (s.requestEnBranch d markBit en v).1.Inv ∧ Keyed .reqMode (s.requestEnBranch d markBit en v).2.1 := by
  unfold Driver.requestEnBranch
  split_ifs
  · exact ⟨h, hv.requestBit rfl en⟩
  · exact ⟨h, hv.and_not rfl⟩
  · exact ⟨h.writel (keyed_of_no_mask rfl rfl _), hv.requestBit rfl en⟩
  · exact ⟨h, hv.requestBit rfl en⟩
  · refine ⟨?_, hv.requestBit rfl en⟩
    cases en with
    | reqEn => exact (h.writel (keyed_of_no_mask rfl rfl _)).writel (keyed_of_no_mask rfl rfl _)
    | reqDis => exact (h.writel (keyed_of_no_mask rfl rfl _)).writel (keyed_of_no_mask rfl rfl _)
    | other => exact h
  · exact ⟨h, hv.requestBit rfl en⟩
  · exact ⟨h, hv⟩

theorem Inv.requestEnSet (h : s.Inv) (markBit : BitVec 32) (en : WkReqEn) :
    (s.requestEnSet d markBit en).1.Inv := by
  obtain ⟨hbranch, hv⟩ := h.requestEnBranch (d := d) (h.clean .reqMode).or_key markBit
    (if s.vars.gApwdtEnDoe = 0 then .reqDis else en)
  rw [Driver.requestEnSet]
  by_cases hdoe : s.vars.gApwdtEnDoe = 0
  · rw [if_pos hdoe] at hbranch hv ⊢
    rw [if_pos hdoe]
    exact (hbranch.writel hv).writel (key_and_mask .reqMode)
  · rw [if_neg hdoe] at hbranch hv ⊢
    rw [if_neg hdoe]
    exact hbranch.writel hv

theorem Inv.requestModeSet (h : s.Inv) (markBit : BitVec 32) (mode : WkReqMode) :
    (s.requestModeSet d markBit mode).1.Inv := by
  have hstart := (h.clean .reqIrqEn).or_key
  have hv : Keyed .reqIrqEn (match sourceOf markBit with
      | some src => ((match mode with
          | .irqMode => s.regs .reqIrqEn ||| Reg.key .reqIrqEn ||| src.mark
          | .rstMode => (s.regs .reqIrqEn ||| Reg.key .reqIrqEn) &&& ~~~ src.mark
          | .other => s.regs .reqIrqEn ||| Reg.key .reqIrqEn, 0) : BitVec 32 × ℤ)
      | none => (s.regs .reqIrqEn ||| Reg.key .reqIrqEn, -1)).1 := by
    cases sourceOf markBit with
    | none => exact hstart
    | some src =>
      cases mode with
      | irqMode => exact hstart.or (Source.mark_avoids src).2
      | rstMode => exact hstart.and_not (Source.mark_avoids src).2
      | other => exact hstart
  rw [Driver.requestModeSet]
  by_cases hdoe : s.vars.gApwdtEnDoe = 0
  · rw [if_pos hdoe]
    exact (h.writel hv).writel (key_and_mask .reqIrqEn)
  · rw [if_neg hdoe]
    exact h.writel hv

theorem Inv.probe (h : s.Inv) (kicker : Bool) (apwdtEn eint : Option ℤ) (ret cpu time : ℤ)
    (caller : BitVec 64) : (s.probe d kicker apwdtEn eint ret cpu time caller).Inv := by
  have htree : (s.probeTree d apwdtEn eint).Inv := (h.setVars _).markStage _
  rw [Driver.probe]
  split_ifs
  · exact htree
  · dsimp only
    split_ifs
    · exact (((htree.setVars _).setTimeOutValue _).restart ..).modeConfig ..
    · exact ((((htree.setVars _).setTimeOutValue _).restart ..).modeConfig ..).setVars _

/-- Every call keeps the invariant. -/
theorem Inv.apply (h : s.Inv) (op : Op) : (op.apply d s).Inv := by
  cases op with
  | probe kicker apwdtEn eint ret cpu time caller => exact h.probe ..
  | setTimeOutValue value => exact h.setTimeOutValue value
  | modeConfig dual irq ext pol wdt => exact h.modeConfig ..
  | enable en => exact h.enable en
  | confirmHwreboot => exact h.modeConfig ..
  | restart type cpu time caller => exact h.restart ..
  | suspend cpu time caller => exact h.suspend ..
  | resume cpu time caller => exact h.resume ..
  | dramReserved e => exact h.setOrClear rfl e
  | cfgEmiDcs e => exact h.setOrClear rfl e
  | cfgDvfsrc e => exact h.cfgDvfsrc e
  | mcuCachePreserve e => exact h.setOrClear rfl e
  | pauseDvfsrc e => exact h.pauseDvfsrc e
  | swsysretConfig bit value => exact h.swsysretConfig bit value
  | setC2kSysrst flag shift => exact h.setC2kSysrst flag shift
  | dfdCountEn value => exact h.setOrClear rfl value
  | dfdThermal1Dis value => exact h.setOrClear rfl value
  | dfdThermal2Dis value => exact h.setOrClear rfl value
  | dfdTimeout value => exact h.dfdTimeout value
  | requestEnSet mark en => exact h.requestEnSet mark en
  | requestModeSet mark mode => exact h.requestModeSet mark mode
  | markSspmReset => exact h.writel (keyed_of_no_mask rfl rfl _)
  | status value =>
    refine ⟨fun r => ?_, h.keyed⟩
    show Clean r (Function.update s.regs .status value r)
    by_cases hr : r = .status
    · subst hr
      rw [Function.update_self, Clean, show Reg.keyMask .status = 0#32 from rfl, BitVec.and_zero,
        BitVec.zero_and]
    · rw [Function.update_of_ne hr]
      exact h.clean r

theorem Inv.run (h : s.Inv) (ops : List Op) : (Rgu.run d s ops).Inv := by
  induction ops generalizing s with
  | nil => exact h
  | cons op ops ih => exact ih (h.apply op)

theorem clean_zero (r : Reg) : Clean r 0#32 := by
  rw [Clean, BitVec.zero_and, BitVec.zero_and]

end inv

end Driver

end Rgu
