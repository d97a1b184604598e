/-
The dump commands of `lk/board-selene.c`: `dump_window` with the three regions
it serves, and `cmd_rdmem`.

* `Region` — a region as `dump_window` is called on it; the three of the file
  are `ramoops`, `mboot`, `sram`;
* `dumpWindow_accepted`, `dumpWindow_refused` — the messages of one window
  command, and when there are none;
* `rdmem_accepted`, `rdmem_refused` — the same for `oem rdmem`;
* `dumpCmd_channel` — every command stays inside what the INFO channel carries.
-/
import LittleSpammyMailman.Dump

open Text Layout

namespace Selene

def hexline (label : Line) (v : UInt32) (e : Emitter) : Emitter := e.fastbootInfo (hexLine label v)

/-- The arguments of a window command, as the three parsers read them in turn. -/
structure WindowArgs where
  off : UInt32
  len : UInt32
  mode : Mode

def windowArgs (arg : Option Line) : WindowArgs :=
  let p := arg.getD []
  let off := parseHex p
  let len := parseHex off.2
  { off := off.1, len := len.1, mode := parseMode len.2 }

/-- The length a window command really reads. -/
def clampLen (total off len : UInt32) : UInt32 :=
  let len := if len = 0 ∨ dumpOneshot < len then dumpOneshot else len
  if total < off + len then total - off else len

def modeLine : Mode → Line
  | .hex => ascii "mode=hex"
  | .text => ascii "mode=text"

def dumpWindow (m : Machine) (tag : Line) (base total : UInt32) (arg : Option Line) (lk : LK) :
    LK :=
  let w := windowArgs arg
  if total ≤ w.off then
    { lk with em := lk.em.fastbootFail (ascii "ofset bolge disinda") }
  else
    let len := clampLen total w.off w.len
    if memAllowed (base + w.off) len = false then
      { lk with em := lk.em.fastbootFail (ascii "adres/uzunluk izinli bolgede degil") }
    else
      let em := lk.em.fastbootInfo tag
      let em := em.fastbootInfo (modeLine w.mode)
      let em := hexline (ascii "size") total em
      let em := hexline (ascii "off") w.off em
      let r := dumpRegion m (base + w.off) len
        { lk with em := emitReset dumpLinesMax w.mode em }
      { r.2 with em := (hexline (ascii "used") r.1 r.2.em).fastbootOkay [] }

/-- `RAMOOPS_BASE`, `RAMOOPS_DEFLEN` -/
def cmdDumpRamoops (m : Machine) (arg : Option Line) (lk : LK) : LK :=
  dumpWindow m (ascii "[selene] ramoops") 0x4D010000 0x00040000 arg lk

/-- `MBOOT_DRAM`, `MBOOT_DRAM_SZ` -/
def cmdDumpRrlog (m : Machine) (arg : Option Line) (lk : LK) : LK :=
  dumpWindow m (ascii "[selene] mboot_params") 0x4D0F0000 0x00010000 arg lk

/-- `SRAM_LOG_BASE`, `SRAM_LOG_SIZE` -/
def cmdDumpSram (m : Machine) (arg : Option Line) (lk : LK) : LK :=
  dumpWindow m (ascii "[selene] sram") 0x0010E000 0x00002000 arg lk

def cmdRdmem (m : Machine) (arg : Option Line) (lk : LK) : LK :=
  let w := windowArgs arg
  let len := if dumpOneshot < w.len then dumpOneshot else w.len
  if memAllowed w.off len = false then
    { lk with em := lk.em.fastbootFail (ascii "adres/uzunluk izinli bolgede degil") }
  else
    let r := dumpRegion m w.off len { lk with em := emitReset dumpLinesMax w.mode lk.em }
    { r.2 with em := (hexline (ascii "used") r.1 r.2.em).fastbootOkay [] }

/-- A region `dump_window` serves: its tag names the payload, and it is a non-empty part of
one area of the whitelist. -/
structure Region where
  tag : Line
  base : UInt32
  total : UInt32
  tag_selene : ascii "[selene]" <+: tag
  total_pos : 0 < total.toNat
  inArea : InArea base.toNat total.toNat

namespace Region

def ramoops : Region :=
  ⟨ascii "[selene] ramoops", 0x4D010000, 0x00040000, by decide, by decide, Or.inr (by decide)⟩

def mboot : Region :=
  ⟨ascii "[selene] mboot_params", 0x4D0F0000, 0x00010000, by decide, by decide, Or.inr (by decide)⟩

def sram : Region :=
  ⟨ascii "[selene] sram", 0x0010E000, 0x00002000, by decide, by decide, Or.inl (by decide)⟩

/-- A window command on the region. -/
def command (r : Region) (m : Machine) (arg : Option Line) (lk : LK) : LK :=
  dumpWindow m r.tag r.base r.total arg lk

theorem total_le (r : Region) : r.total.toNat ≤ 0x80000000 := by
  rcases r.inArea with h | h <;> omega

end Region

theorem cmdDumpRamoops_eq : cmdDumpRamoops = Region.ramoops.command := rfl

theorem cmdDumpRrlog_eq : cmdDumpRrlog = Region.mboot.command := rfl

theorem cmdDumpSram_eq : cmdDumpSram = Region.sram.command := rfl

/-- The data lines for window bytes `bs`. -/
def dataLines (mode : Mode) (bs : List UInt8) : List Line :=
  ((displayLines mode.format bs).take dumpLinesMax).map mode.render

/-- The count reported for window bytes `bs`. -/
def usedBytes (mode : Mode) (bs : List UInt8) : ℕ :=
  (Page.blank mode.format).taken dumpLinesMax bs

/-- The lines before the data of a window command. -/
def Region.header (r : Region) (w : WindowArgs) : List Line :=
  [r.tag, modeLine w.mode, hexLine (ascii "size") r.total, hexLine (ascii "off") w.off]

/-- The messages of an accepted command. -/
def reply (head data : List Line) (used : UInt32) : List FbMsg :=
  (head ++ data ++ [hexLine (ascii "used") used]).map .info ++ [.okay []]

/-! ### One command -/

/-- The three parsers on `p` in turn: what they read, and where the pointer stands between them. -/
structure Reads (p p₁ p₂ : Line) (w : WindowArgs) : Prop where
  off : parseHex p = (w.off, p₁)
  len : parseHex p₁ = (w.len, p₂)
  mode : parseMode p₂ = w.mode

theorem Reads.windowArgs_eq {p p₁ p₂ : Line} {w : WindowArgs} (h : Reads p p₁ p₂ w) :
    windowArgs (some p) = w := by
  rw [windowArgs, Option.getD_some]
  simp only [h.off, h.len, h.mode]

theorem reads_printfX (k j a n : ℕ) {p : Line} (hp : ∀ c ∈ p.head?, hexVal c = none) :
    Reads (List.replicate k space ++
        (printfX a ++ (List.replicate (j + 1) space ++ (printfX n ++ p))))
      (List.replicate (j + 1) space ++ (printfX n ++ p)) p
      ⟨UInt32.ofNat a, UInt32.ofNat n, parseMode p⟩ := by
  refine ⟨?_, parseHex_printfX (j + 1) n hp, rfl⟩
  refine parseHex_printfX k a ?_
  intro c hc
  -- a blank stands behind the digits
  obtain rfl : space = c := Option.some.inj hc
  exact hexVal_space

/-- **The arguments the host prints are the arguments the device reads**, whatever the blanks. -/
theorem windowArgs_printfX (k j a n : ℕ) (hj : 0 < j) {p : Line}
    (hp : ∀ c ∈ p.head?, hexVal c = none) :
    windowArgs (some (List.replicate k space ++
        (printfX a ++ (List.replicate j space ++ (printfX n ++ p)))))
      = ⟨UInt32.ofNat a, UInt32.ofNat n, parseMode p⟩ := by
  obtain ⟨j, rfl⟩ : ∃ i, j = i + 1 := ⟨j - 1, by omega⟩
  exact (reads_printfX k j a n hp).windowArgs_eq

theorem toNat_clampLen {total off : UInt32} (h : off < total) (ht : total.toNat ≤ 0x80000000)
    (len : UInt32) :
    (clampLen total off len).toNat
      = min (if len = 0 ∨ dumpOneshot < len then 0x1000 else len.toNat)
          (total.toNat - off.toNat) := by
  have hlt := UInt32.lt_iff_toNat_lt.mp h
  have hsub : (total - off).toNat = total.toNat - off.toNat :=
    UInt32.toNat_sub_of_le _ _ (UInt32.le_iff_toNat_le.mpr (by omega))
  have honeshot : dumpOneshot.toNat = 0x1000 := rfl
  -- no length up to 0x1000 makes the sum wrap
  have hcut : ∀ k : UInt32, k.toNat ≤ 0x1000 →
      (if total < off + k then total - off else k).toNat = min k.toNat (total.toNat - off.toNat) := by
    intro k hk
    simp only [UInt32.lt_iff_toNat_lt, UInt32.toNat_add]
    split <;> omega
  rw [clampLen]
  by_cases hl : len = 0 ∨ dumpOneshot < len
  · simp only [if_pos hl]
    rw [hcut dumpOneshot (by omega), honeshot]
  · have hle : len.toNat ≤ 0x1000 := by
      have := not_or.mp hl
      rw [UInt32.lt_iff_toNat_lt] at this
      omega
    simp only [if_neg hl]
    exact hcut len hle

theorem clampLen_pos {total off : UInt32} (h : off < total) (ht : total.toNat ≤ 0x80000000)
    (len : UInt32) : 0 < (clampLen total off len).toNat := by
  have hlt := UInt32.lt_iff_toNat_lt.mp h
  rw [toNat_clampLen h ht]
  split
  · omega
  · rename_i hl
    have hne : len.toNat ≠ 0 := fun h0 => hl (Or.inl (UInt32.toNat_inj.mp h0))
    omega

theorem clampLen_le {total off : UInt32} (h : off < total) (ht : total.toNat ≤ 0x80000000)
    (len : UInt32) : (clampLen total off len).toNat ≤ 0x1000 := by
  rw [toNat_clampLen h ht]
  split
  · exact min_le_left _ _
  · rename_i hl
    have hle := (not_or.mp hl).2
    rw [UInt32.not_lt, UInt32.le_iff_toNat_le] at hle
    exact (min_le_left _ _).trans hle

/-- A region does not wrap, so neither does an address in it. -/
theorem Region.toNat_base_add (r : Region) {off : UInt32} (h : off < r.total) :
    (r.base + off).toNat = r.base.toNat + off.toNat := by
  have hlt := UInt32.lt_iff_toNat_lt.mp h
  rw [UInt32.toNat_add]
  rcases r.inArea with hA | hA <;> omega

/-- Inside a region the whitelist never refuses. -/
theorem Region.memAllowed_clampLen (r : Region) {off : UInt32} (h : off < r.total)
    (len : UInt32) : memAllowed (r.base + off) (clampLen r.total off len) = true := by
  have hpos := clampLen_pos h r.total_le len
  have hlen := toNat_clampLen h r.total_le len
  have hle := clampLen_le h r.total_le len
  rw [memAllowed_iff, r.toNat_base_add h]
  refine ⟨hpos, by omega, ?_⟩
  rcases r.inArea with hA | hA
  · left
    omega
  · right
    omega

theorem usedBytes_le (mode : Mode) (bs : List UInt8) : usedBytes mode bs ≤ bs.length :=
  Page.taken_le_length ..

/-- The common end of the dump commands: the region in 64 lines, the trailer, and `okay`. -/
theorem dumpRegion_reply (m : Machine) (addr len : UInt32) (mode : Mode) (lk : LK) :
    ∃ bs : List UInt8, bs.length = len.toNat ∧
      (∀ content, m.Holds content lk.tables addr bs.length → bs = window content addr bs.length) ∧
      let r := dumpRegion m addr len { lk with em := emitReset dumpLinesMax mode lk.em }
      ((hexline (ascii "used") r.1 r.2.em).fastbootOkay []).sent
        = lk.em.sent ++ reply [] (dataLines mode bs) (UInt32.ofNat (usedBytes mode bs)) := by
  obtain ⟨bs, hlen, hcont, hused, hsent⟩ := dumpRegion_spec m addr len dumpLinesMax mode lk
  refine ⟨bs, hlen, ?_, ?_⟩
  · intro content hm
    rw [hlen] at hm ⊢
    exact hcont content hm
  · intro r
    have hcount : UInt32.ofNat (usedBytes mode bs) = r.1 := by
      rw [usedBytes, ← hused, UInt32.ofNat_toNat]
    show r.2.em.sent ++ [.info _] ++ [.okay []] = _
    rw [hsent, hcount]
    simp [reply, dataLines, List.map_map, Function.comp_def]

/-- Messages sent one by one. -/
theorem foldl_fastbootInfo_sent (ls : List Line) (e : Emitter) :
    (ls.foldl Emitter.fastbootInfo e).sent = e.sent ++ ls.map .info := by
  induction ls generalizing e with
  | nil => simp
  | cons l ls ih =>
    rw [List.foldl_cons, ih]
    simp [Emitter.fastbootInfo]

/-- The header in front of a reply. -/
theorem append_reply (pre : List FbMsg) (head data : List Line) (used : UInt32) :
    pre ++ head.map .info ++ reply [] data used = pre ++ reply head data used := by
  simp [reply]

/-- What a command sends after `dump_region`. -/
def trailer (r : UInt32 × LK) : LK :=
  { r.2 with em := (hexline (ascii "used") r.1 r.2.em).fastbootOkay [] }

section

variable (r : Region) (m : Machine) (arg : Option Line) (lk : LK)

/-- `dump_window` on an offset inside the region. -/
theorem Region.command_of_lt (h : (windowArgs arg).off < r.total) :
    r.command m arg lk
      = trailer (dumpRegion m (r.base + (windowArgs arg).off)
          (clampLen r.total (windowArgs arg).off (windowArgs arg).len)
          { lk with
            em := emitReset dumpLinesMax (windowArgs arg).mode
              ((r.header (windowArgs arg)).foldl Emitter.fastbootInfo lk.em) }) := by
  have hallowed := r.memAllowed_clampLen h (windowArgs arg).len
  rw [Region.command, dumpWindow]
  simp only [if_neg (UInt32.not_le.mpr h), hallowed, Bool.true_eq_false, if_false]
  rfl

/-- `dump_window` on any other offset. -/
theorem Region.command_of_le (h : r.total ≤ (windowArgs arg).off) :
    r.command m arg lk = { lk with em := lk.em.fastbootFail (ascii "ofset bolge disinda") } := by
  rw [Region.command, dumpWindow]
  simp only [if_pos h]

/-- A window command maps and restores pages of its region. -/
theorem Region.command_meets :
    m.Meets r.base r.total.toNat lk.tables (r.command m arg lk).tables := by
  by_cases h : (windowArgs arg).off < r.total
  · have hlt := UInt32.lt_iff_toNat_lt.mp h
    have hlen := toNat_clampLen h r.total_le (windowArgs arg).len
    have hmeets := dumpRegion_meets m (r.base + (windowArgs arg).off)
      (clampLen r.total (windowArgs arg).off (windowArgs arg).len)
      { lk with
        em := emitReset dumpLinesMax (windowArgs arg).mode
          ((r.header (windowArgs arg)).foldl Emitter.fastbootInfo lk.em) }
    rw [r.command_of_lt m arg lk h]
    exact hmeets.part (by omega)
  · rw [r.command_of_le m arg lk (UInt32.not_lt.mp h)]
    exact .refl

/-- **An accepted window command** reads the window, sends its first 64 lines between the header
and the trailer, and reports what the emitter took. -/
theorem dumpWindow_accepted (h : (windowArgs arg).off < r.total) :
    ∃ bs : List UInt8,
      bs.length = (clampLen r.total (windowArgs arg).off (windowArgs arg).len).toNat ∧
      (∀ content, m.Holds content lk.tables (r.base + (windowArgs arg).off) bs.length →
        bs = window content (r.base + (windowArgs arg).off) bs.length) ∧
      (r.command m arg lk).em.sent = lk.em.sent ++
        reply (r.header (windowArgs arg)) (dataLines (windowArgs arg).mode bs)
          (UInt32.ofNat (usedBytes (windowArgs arg).mode bs)) := by
  obtain ⟨bs, hlen, hcont, hsent⟩ := dumpRegion_reply m (r.base + (windowArgs arg).off)
    (clampLen r.total (windowArgs arg).off (windowArgs arg).len) (windowArgs arg).mode
    { lk with em := (r.header (windowArgs arg)).foldl Emitter.fastbootInfo lk.em }
  refine ⟨bs, hlen, hcont, ?_⟩
  rw [r.command_of_lt m arg lk h, ← append_reply, ← foldl_fastbootInfo_sent]
  exact hsent

theorem dumpWindow_refused (h : ¬ (windowArgs arg).off < r.total) :
    (r.command m arg lk).em.sent
      = lk.em.sent ++ [.fail (ascii "ofset bolge disinda")] := by
  rw [r.command_of_le m arg lk (UInt32.not_lt.mp h)]
  rfl

end

/-- The length `oem rdmem` really reads. -/
def rdmemLen (len : UInt32) : UInt32 := if dumpOneshot < len then dumpOneshot else len

theorem toNat_rdmemLen (len : UInt32) : (rdmemLen len).toNat = min len.toNat 0x1000 := by
  have honeshot : dumpOneshot.toNat = 0x1000 := rfl
  rw [rdmemLen]
  simp only [UInt32.lt_iff_toNat_lt]
  split <;> omega

section

variable (m : Machine) (arg : Option Line) (lk : LK)

/-- `cmd_rdmem` on a range of the whitelist. -/
theorem cmdRdmem_of_allowed
    (h : memAllowed (windowArgs arg).off (rdmemLen (windowArgs arg).len) = true) :
    cmdRdmem m arg lk
      = trailer (dumpRegion m (windowArgs arg).off (rdmemLen (windowArgs arg).len)
          { lk with em := emitReset dumpLinesMax (windowArgs arg).mode lk.em }) := by
  rw [rdmemLen] at h
  rw [cmdRdmem]
  simp only [h, Bool.true_eq_false, if_false]
  rfl

/-- `cmd_rdmem` on any other range. -/
theorem cmdRdmem_of_refused
    (h : memAllowed (windowArgs arg).off (rdmemLen (windowArgs arg).len) = false) :
    cmdRdmem m arg lk
      = { lk with em := lk.em.fastbootFail (ascii "adres/uzunluk izinli bolgede degil") } := by
  rw [rdmemLen] at h
  rw [cmdRdmem]
  simp only [h, if_true]

/-- An `oem rdmem` maps and restores pages of its range. -/
theorem cmdRdmem_meets : m.Meets (windowArgs arg).off (rdmemLen (windowArgs arg).len).toNat lk.tables
    (cmdRdmem m arg lk).tables := by
  cases h : memAllowed (windowArgs arg).off (rdmemLen (windowArgs arg).len) with
  | true =>
    rw [cmdRdmem_of_allowed m arg lk h]
    exact dumpRegion_meets m (windowArgs arg).off (rdmemLen (windowArgs arg).len)
      { lk with em := emitReset dumpLinesMax (windowArgs arg).mode lk.em }
  | false =>
    rw [cmdRdmem_of_refused m arg lk h]
    exact .refl

/-- **An accepted `oem rdmem`.** -/
theorem rdmem_accepted
    (h : memAllowed (windowArgs arg).off (rdmemLen (windowArgs arg).len) = true) :
    ∃ bs : List UInt8, bs.length = (rdmemLen (windowArgs arg).len).toNat ∧
      (∀ content, m.Holds content lk.tables (windowArgs arg).off bs.length →
        bs = window content (windowArgs arg).off bs.length) ∧
      (cmdRdmem m arg lk).em.sent = lk.em.sent ++
        reply [] (dataLines (windowArgs arg).mode bs)
          (UInt32.ofNat (usedBytes (windowArgs arg).mode bs)) := by
  obtain ⟨bs, hlen, hcont, hsent⟩ := dumpRegion_reply m (windowArgs arg).off
    (rdmemLen (windowArgs arg).len) (windowArgs arg).mode lk
  refine ⟨bs, hlen, hcont, ?_⟩
  rw [cmdRdmem_of_allowed m arg lk h]
  exact hsent

theorem rdmem_refused
    (h : memAllowed (windowArgs arg).off (rdmemLen (windowArgs arg).len) = false) :
    (cmdRdmem m arg lk).em.sent
      = lk.em.sent ++ [.fail (ascii "adres/uzunluk izinli bolgede degil")] := by
  rw [cmdRdmem_of_refused m arg lk h]
  rfl

end

/-! ### The budget of the INFO channel -/

/-- The four dump commands. -/
inductive DumpCmd
  | ramoops
  | rrlog
  | sram
  | rdmem
  deriving DecidableEq, Repr

namespace DumpCmd

def run : DumpCmd → Machine → Option Line → LK → LK
  | ramoops => cmdDumpRamoops
  | rrlog => cmdDumpRrlog
  | sram => cmdDumpSram
  | rdmem => cmdRdmem

/-- The INFO messages before the data. -/
def header : DumpCmd → Option Line → List Line
  | ramoops, arg => Region.ramoops.header (windowArgs arg)
  | rrlog, arg => Region.mboot.header (windowArgs arg)
  | sram, arg => Region.sram.header (windowArgs arg)
  | rdmem, _ => []

end DumpCmd

/-- What a data message may look like. -/
structure DataLine (mode : Mode) (l : Line) : Prop where
  ne_nil : l ≠ []
  length_le : l.length ≤ 56
  plain : ∀ c ∈ l, 0x20 ≤ c ∧ c ≠ 0x7F
  hex : mode = .hex → Even l.length ∧ ∀ c ∈ l, (hexVal c).isSome = true

theorem dataLine_of_mem {mode : Mode} {bs : List UInt8} {l : Line} (h : l ∈ dataLines mode bs) :
    DataLine mode l := by
  obtain ⟨c, hc, rfl⟩ := List.mem_map.mp h
  obtain ⟨hne, hlen, _⟩ := mem_displayLines (List.mem_of_mem_take hc)
  refine ⟨fun h0 => hne (Mode.render_eq_nil_iff.mp h0), ?_, ?_, ?_⟩
  · rw [Mode.length_render]
    exact le_trans (Nat.mul_le_mul_left _ hlen) (le_of_eq mode.density_mul_width)
  · intro d hd
    have := mode.isPlain_render c d hd
    simpa [isPlain] using this
  · rintro rfl
    constructor
    · rw [Mode.length_render]
      exact even_two_mul _
    · intro d hd
      obtain ⟨x, _, hx⟩ := List.mem_flatMap.mp hd
      have hlt := x.toNat_lt
      rw [Mode.glyph, List.mem_cons, List.mem_singleton] at hx
      rcases hx with rfl | rfl
      · rw [hexVal_hexChar _ (by omega)]
        rfl
      · rw [hexVal_hexChar _ (by omega)]
        rfl

theorem length_dataLines_le (mode : Mode) (bs : List UInt8) :
    (dataLines mode bs).length ≤ 64 := by
  rw [dataLines, List.length_map, List.length_take]
  exact min_le_left _ _

/-- The messages of a dump command, whatever its arguments, the memory and the tables. -/
theorem dumpCmd_reply (cmd : DumpCmd) (m : Machine) (arg : Option Line) (lk : LK) :
    (∃ why, (cmd.run m arg lk.quiet).em.sent = [.fail why]) ∨
      ∃ bs, (cmd.run m arg lk.quiet).em.sent
        = reply (cmd.header arg) (dataLines (windowArgs arg).mode bs)
            (UInt32.ofNat (usedBytes (windowArgs arg).mode bs)) := by
  have hregion : ∀ r : Region, (∃ why, (r.command m arg lk.quiet).em.sent = [.fail why]) ∨
      ∃ bs, (r.command m arg lk.quiet).em.sent
        = reply (r.header (windowArgs arg)) (dataLines (windowArgs arg).mode bs)
            (UInt32.ofNat (usedBytes (windowArgs arg).mode bs)) := by
    intro r
    by_cases h : (windowArgs arg).off < r.total
    · obtain ⟨bs, _, _, hsent⟩ := dumpWindow_accepted r m arg lk.quiet h
      exact Or.inr ⟨bs, hsent⟩
    · exact Or.inl ⟨_, dumpWindow_refused r m arg lk.quiet h⟩
  cases cmd with
  | ramoops =>
    rw [DumpCmd.run, cmdDumpRamoops_eq]
    exact hregion Region.ramoops
  | rrlog =>
    rw [DumpCmd.run, cmdDumpRrlog_eq]
    exact hregion Region.mboot
  | sram =>
    rw [DumpCmd.run, cmdDumpSram_eq]
    exact hregion Region.sram
  | rdmem =>
    cases h : memAllowed (windowArgs arg).off (rdmemLen (windowArgs arg).len) with
    | false => exact Or.inl ⟨_, rdmem_refused m arg lk.quiet h⟩
    | true =>
      obtain ⟨bs, _, _, hsent⟩ := rdmem_accepted m arg lk.quiet h
      exact Or.inr ⟨bs, hsent⟩

/-- **Every run of a dump command stays inside the INFO channel**: it fails without any INFO
message, or sends its header, at most 64 well-formed data messages, the trailer and one final
`okay`, 69 INFO messages at most. -/
theorem dumpCmd_channel (cmd : DumpCmd) (m : Machine) (arg : Option Line) (lk : LK) :
    (∃ why, (cmd.run m arg lk.quiet).em.sent = [.fail why]) ∨
      ∃ data used, (cmd.run m arg lk.quiet).em.sent = reply (cmd.header arg) data used ∧
        data.length ≤ 64 ∧ (infos (cmd.run m arg lk.quiet).em.sent).length ≤ 69 ∧
        ∀ l ∈ data, DataLine (windowArgs arg).mode l := by
  rcases dumpCmd_reply cmd m arg lk with hfail | ⟨bs, hsent⟩
  · exact Or.inl hfail
  -- header at most 4, data at most 64, and the trailer
  · right
    refine ⟨dataLines (windowArgs arg).mode bs, _, hsent, length_dataLines_le .., ?_,
      fun l hl => dataLine_of_mem hl⟩
    have hhead : (cmd.header arg).length ≤ 4 := by
      cases cmd <;> simp [DumpCmd.header, Region.header]
    have hdata := length_dataLines_le (windowArgs arg).mode bs
    rw [hsent, reply, infos_append]
    simp only [infos, List.filterMap_map, List.length_append]
    simp
    omega

end Selene
