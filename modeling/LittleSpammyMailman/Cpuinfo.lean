/-
`oem cpuinfo` of `lk/board-selene.c`, and what a host can tell from it.

* `cmdCpuinfo` is the command, `cpuinfoLines` what it says;
* `reportedSlot` reads a report: the entry of the third level for an address in
  one of the two ranges of 2 MB that are reported;
* `reportedSlot_cpuinfo` — it is the one `mmu_l3_slot` finds.
-/
import LittleSpammyMailman.Delimited
import LittleSpammyMailman.Framing
import LittleSpammyMailman.Mapping

open Text Numeral Shell

namespace Selene

/-- The registers that only the report reads. -/
structure Registers where
  ttbr1 : UInt32
  dacr : UInt32
  mair0 : UInt32
  mair1 : UInt32

def hexline64 (label : Line) (v : UInt64) (e : Emitter) : Emitter :=
  hexline label v.toUInt32 (hexline label (v >>> 32).toUInt32 e)

def cmdCpuinfo (m : Machine) (r : Registers) (lk : LK) : LK :=
  let e := hexline (ascii "SCTLR") m.sctlr lk.em
  let e := hexline (ascii "TTBCR") m.ttbcr e
  let e := hexline (ascii "TTBR0") m.ttbr0 e
  let e := hexline (ascii "TTBR1") r.ttbr1 e
  let e := hexline (ascii "DACR") r.dacr e
  let e := e.fastbootInfo (if m.mmuOn then ascii "MMU=ON" else ascii "MMU=OFF")
  let e := e.fastbootInfo (if m.mmuLpae then ascii "LPAE=YES" else ascii "LPAE=NO")
  let e := hexline (ascii "MAIR0") r.mair0 e
  let e := hexline (ascii "MAIR1") r.mair1 e
  let e :=
    if m.mmuOn && m.mmuLpae then
      let l1 := m.ttbr0 &&& 0xFFFFFFE0
      let d1 := lk.tables (l1 + 8 * 1)
      let e := hexline64 (ascii "L1[1]") d1 e
      if d1 &&& 3 == 3 then
        let l2 := (d1 &&& 0xFFFFF000).toUInt32
        -- the labels have the index before the mask
        let e := hexline64 (ascii "L2[0x268]") (lk.tables (l2 + 8 * 0x68)) e
        hexline64 (ascii "L2[0x260]") (lk.tables (l2 + 8 * 0x60)) e
      else e
    else e
  { lk with em := e.fastbootOkay [] }

/-! ### What it says -/

/-- The lines of `hexline64`. -/
def hexLines64 (label : Line) (v : UInt64) : List Line :=
  [hexLine label (v >>> 32).toUInt32, hexLine label v.toUInt32]

/-- The first level's entry for both ranges. -/
def reportedL1 (m : Machine) : UInt32 := (m.ttbr0 &&& 0xFFFFFFE0) + 8 * 1

/-- The second level's, by its index. -/
def reportedL2 (d1 : UInt64) (i : UInt32) : UInt32 := (d1 &&& 0xFFFFF000).toUInt32 + 8 * i

/-- The lines about the tables. -/
def tableLines (m : Machine) (t : Tables) : List Line :=
  if m.mmuOn && m.mmuLpae then
    hexLines64 (ascii "L1[1]") (t (reportedL1 m)) ++
      if isTable (t (reportedL1 m)) then
        hexLines64 (ascii "L2[0x268]") (t (reportedL2 (t (reportedL1 m)) 0x68)) ++
          hexLines64 (ascii "L2[0x260]") (t (reportedL2 (t (reportedL1 m)) 0x60))
      else []
  else []

/-- The lines about the registers. -/
def registerLines (m : Machine) (r : Registers) : List Line :=
  [hexLine (ascii "SCTLR") m.sctlr, hexLine (ascii "TTBCR") m.ttbcr,
    hexLine (ascii "TTBR0") m.ttbr0, hexLine (ascii "TTBR1") r.ttbr1,
    hexLine (ascii "DACR") r.dacr, if m.mmuOn then ascii "MMU=ON" else ascii "MMU=OFF",
    if m.mmuLpae then ascii "LPAE=YES" else ascii "LPAE=NO",
    hexLine (ascii "MAIR0") r.mair0, hexLine (ascii "MAIR1") r.mair1]

/-- The whole report. -/
def cpuinfoLines (m : Machine) (r : Registers) (t : Tables) : List Line :=
  registerLines m r ++ tableLines m t

theorem cmdCpuinfo_eq (m : Machine) (r : Registers) (lk : LK) :
    cmdCpuinfo m r lk = { lk with em := { lk.em with
      sent := lk.em.sent ++ ((cpuinfoLines m r lk.tables).map .info ++ [.okay []]) } } := by
  have hsay (e : Emitter) (l : Line) :
      e.fastbootInfo l = { e with sent := e.sent ++ [.info l] } := rfl
  rw [cmdCpuinfo, cpuinfoLines, registerLines, tableLines]
  generalize hd1 : lk.tables (reportedL1 m) = d1
  have hd1' : lk.tables ((m.ttbr0 &&& 0xFFFFFFE0) + 8 * 1) = d1 := hd1
  simp only [hd1', ← isTable.eq_def]
  cases m.mmuOn && m.mmuLpae with
  | false => simp [hsay, hexline, Emitter.fastbootOkay]
  | true =>
    cases isTable d1 with
    | false => simp [hsay, hexline64, hexline, hexLines64, Emitter.fastbootOkay]
    | true => simp [hsay, hexline64, hexline, hexLines64, Emitter.fastbootOkay, reportedL2]

/-! ### Reading a report -/

/-- The labels of the tables. -/
def l1Label : Label := ⟨ascii "L1[1]", by decide, by decide⟩

def l2LabelTarget : Label := ⟨ascii "L2[0x268]", by decide, by decide⟩

def l2LabelOwn : Label := ⟨ascii "L2[0x260]", by decide, by decide⟩

/-- The words of the lines that begin with a key. -/
def words (key : Line) (b : List Line) : List UInt32 :=
  (sedStrip key b).filterMap fun l => (shHex l).map fun z => UInt32.ofNat z.toNat

/-- The doubleword of the two lines with a label, the high half first. -/
def doubleword (l : Label) (b : List Line) : Option UInt64 :=
  match words l.key b with
  | [hi, lo] => some (hi.toUInt64 <<< 32 ||| lo.toUInt64)
  | _ => none

/-- The entry of the third level for `va`, from the two descriptors; 0 if there is none. -/
def slotOf (va : UInt32) (d1 d2 : Option UInt64) : UInt32 :=
  match d1, d2 with
  | some d1, some d2 =>
    if isTable d1 && isTable d2 then
      (d2 &&& 0xFFFFF000).toUInt32 + (8 : UInt32) * ((va >>> 12) &&& 0x1FF)
    else 0
  | _, _ => 0

/-- What a report says about `va`, an address of one of the two ranges. -/
def reportedSlot (b : List Line) (va : UInt32) : UInt32 :=
  if ascii "MMU=ON" ∈ b ∧ ascii "LPAE=YES" ∈ b then
    slotOf va (doubleword l1Label b)
      (doubleword (if va >>> 21 = 0x268 then l2LabelTarget else l2LabelOwn) b)
  else 0

/-- A label is found again in front of its line, and no other is. -/
theorem sedStrip_hexLine {k l : Label} (hk : '='.toUInt8 ∉ k.text) (hl : '='.toUInt8 ∉ l.text)
    (v : UInt32) (ls : List Line) :
    sedStrip k.key (hexLine l.text v :: ls) =
      (if k.text = l.text then [hexDigits v] else []) ++ sedStrip k.key ls := by
  rw [l.hexLine_eq]
  by_cases heq : k.text = l.text
  · rw [if_pos heq, Label.key, Label.key, heq, sedStrip_cons_of_prefix]
    rfl
  · rw [if_neg heq, ← List.singleton_append, sedStrip_append, sedStrip_eq_nil]
    rintro _ hmem ⟨rest, hrest⟩
    rw [List.mem_singleton.mp hmem, Label.key, Label.key, List.append_assoc,
      List.append_assoc] at hrest
    -- both end at their first `=`
    have hends : (k.text ++ ['='.toUInt8]) ++ (ascii "0x" ++ rest)
        = (l.text ++ ['='.toUInt8]) ++ (ascii "0x" ++ hexDigits v) := by
      rw [List.append_assoc, List.append_assoc]
      exact hrest
    exact heq (Delimits.terminated '='.toUInt8 hk hl hends).1

/-- The two halves of a doubleword. -/
theorem high_or_low (v : UInt64) :
    (v >>> 32).toUInt32.toUInt64 <<< 32 ||| v.toUInt32.toUInt64 = v := by
  have hv := v.toNat_lt
  have hshift : (v >>> 32).toNat = v.toNat / 2 ^ 32 := by
    rw [UInt64.toNat_shiftRight, Nat.shiftRight_eq_div_pow]
    rfl
  rw [← UInt64.toNat_inj, UInt64.toNat_or, UInt64.toNat_shiftLeft, UInt32.toNat_toUInt64,
    UInt32.toNat_toUInt64, UInt64.toNat_toUInt32, UInt64.toNat_toUInt32, hshift,
    show (32 : UInt64).toNat % 64 = 32 from rfl, Nat.shiftLeft_eq,
    Nat.mod_eq_of_lt (show v.toNat / 2 ^ 32 < 2 ^ 32 by omega),
    Nat.mod_eq_of_lt (show v.toNat / 2 ^ 32 * 2 ^ 32 < 2 ^ 64 by omega), ← Nat.shiftLeft_eq,
    ← Nat.shiftLeft_add_eq_or_of_lt (Nat.mod_lt _ (by omega)), Nat.shiftLeft_eq]
  exact Nat.div_add_mod' ..

/-- No line about the registers begins like one about the tables. -/
theorem sedStrip_registerLines {k : Label} (hk : k.key.take 2 ∈ [ascii "L1", ascii "L2"]) (m : Machine)
    (r : Registers) (ls : List Line) :
    sedStrip k.key (registerLines m r ++ ls) = sedStrip k.key ls := by
  have hheads : (registerLines m r).map (List.take 2) =
      [ascii "SC", ascii "TT", ascii "TT", ascii "TT", ascii "DA", ascii "MM", ascii "LP", ascii "MA",
        ascii "MA"] := by
    rw [registerLines]
    cases m.mmuOn <;> cases m.mmuLpae <;> rfl
  rw [sedStrip_append, sedStrip_eq_nil, List.nil_append]
  intro l hl hpre
  have hmem := List.mem_map_of_mem (f := List.take 2) hl
  have hlen : (k.key.take 2).length = 2 := by
    rcases List.mem_pair.mp hk with h | h <;> rw [h] <;> rfl
  have hlen' : (l.take 2).length = 2 := by
    rw [List.length_take] at hlen ⊢
    have := hpre.length_le
    omega
  rw [← (hpre.take 2).eq_of_length (hlen.trans hlen'.symm), hheads] at hmem
  rcases List.mem_pair.mp hk with h | h
  · rw [h] at hmem
    exact absurd hmem (by decide)
  · rw [h] at hmem
    exact absurd hmem (by decide)

/-- The two words of a doubleword, as they are printed. -/
def halves (v : UInt64) : List UInt32 := [(v >>> 32).toUInt32, v.toUInt32]

/-- One doubleword in the report. -/
theorem words_hexLines64 {k l : Label} (hk : '='.toUInt8 ∉ k.text) (hl : '='.toUInt8 ∉ l.text)
    (v : UInt64) (ls : List Line) :
    words k.key (hexLines64 l.text v ++ ls) =
      (if k.text = l.text then halves v else []) ++ words k.key ls := by
  have hread (w : UInt32) : (shHex (hexDigits w)).map (fun z => UInt32.ofNat z.toNat) = some w := by
    rw [shHex_hexDigits, Option.map_some, Int.toNat_natCast, UInt32.ofNat_toNat]
  rw [words, hexLines64, List.cons_append, List.cons_append, List.nil_append,
    sedStrip_hexLine hk hl, sedStrip_hexLine hk hl]
  split_ifs
  · simp only [List.singleton_append, List.filterMap_cons, hread]
    rfl
  · rfl

theorem doubleword_eq {k : Label} {b : List Line} {v : UInt64}
    (h : words k.key b = halves v) : doubleword k b = some v := by
  rw [doubleword, h]
  exact congrArg some (high_or_low v)

theorem doubleword_eq_none {k : Label} {b : List Line} (h : words k.key b = []) :
    doubleword k b = none := by
  rw [doubleword, h]

section report

variable {m : Machine} {r : Registers} {t : Tables}

theorem words_report {k : Label} (hk : k.key.take 2 ∈ [ascii "L1", ascii "L2"]) :
    words k.key (cpuinfoLines m r t) = words k.key (tableLines m t) := by
  rw [words, cpuinfoLines, sedStrip_registerLines hk]
  rfl

/-- The words under a label of the tables, while the walk can start. -/
theorem words_tableLines {k : Label} (hk : '='.toUInt8 ∉ k.text) (hon : m.mmuOn = true)
    (hlpae : m.mmuLpae = true) :
    words k.key (tableLines m t) =
      (if k.text = l1Label.text then halves (t (reportedL1 m)) else []) ++
        if isTable (t (reportedL1 m)) then
          (if k.text = l2LabelTarget.text then
              halves (t (reportedL2 (t (reportedL1 m)) 0x68)) else []) ++
            if k.text = l2LabelOwn.text then
              halves (t (reportedL2 (t (reportedL1 m)) 0x60)) else []
        else [] := by
  have hone (l : Label) (hl : '='.toUInt8 ∉ l.text) (v : UInt64) :
      words k.key (hexLines64 l.text v) = if k.text = l.text then halves v else [] := by
    have h := words_hexLines64 hk hl v []
    rwa [List.append_nil, show words k.key [] = [] from rfl, List.append_nil] at h
  rw [tableLines, hon, hlpae, Bool.and_self, if_pos rfl]
  refine (words_hexLines64 (l := l1Label) hk (by decide) ..).trans (congrArg _ ?_)
  cases isTable (t (reportedL1 m)) with
  | false => rfl
  | true =>
    exact (words_hexLines64 (l := l2LabelTarget) hk (by decide) ..).trans
      (congrArg _ (hone l2LabelOwn (by decide) _))

/-- The first level's descriptor. -/
theorem reported_l1 (hon : m.mmuOn = true) (hlpae : m.mmuLpae = true) :
    doubleword l1Label (cpuinfoLines m r t) = some (t (reportedL1 m)) := by
  refine doubleword_eq ((words_report (by decide)).trans ?_)
  rw [words_tableLines (by decide) hon hlpae, if_pos rfl]
  cases isTable (t (reportedL1 m)) with
  | false => rfl
  | true => rfl

/-- The two ranges are those whose entries are printed. -/
theorem reported_entries {va : UInt32} (hva : va >>> 21 = 0x268 ∨ va >>> 21 = 0x260) :
    l1Entry m va = reportedL1 m ∧ l2Entry m t va =
      reportedL2 (t (reportedL1 m)) (if va >>> 21 = 0x268 then 0x68 else 0x60) := by
  have hshift : va >>> 30 = (va >>> 21) >>> 9 := by
    rw [← UInt32.toNat_inj]
    simp only [UInt32.toNat_shiftRight]
    exact Nat.shiftRight_add va.toNat 21 9
  have hfirst : l1Entry m va = reportedL1 m := by
    rw [l1Entry, reportedL1, hshift]
    rcases hva with h | h <;> rw [h] <;> rfl
  refine ⟨hfirst, ?_⟩
  rw [l2Entry, hfirst, reportedL2]
  rcases hva with h | h <;> rw [h] <;> rfl

/-- The second level's, if there is one. -/
theorem reported_l2 {va : UInt32} (hva : va >>> 21 = 0x268 ∨ va >>> 21 = 0x260)
    (hon : m.mmuOn = true) (hlpae : m.mmuLpae = true) :
    doubleword (if va >>> 21 = 0x268 then l2LabelTarget else l2LabelOwn) (cpuinfoLines m r t) =
      if isTable (t (reportedL1 m)) then some (t (l2Entry m t va)) else none := by
  have hread {k : Label} {d : UInt64} (h : words k.key (cpuinfoLines m r t) =
      if isTable (t (reportedL1 m)) then halves d else []) :
      doubleword k (cpuinfoLines m r t) = if isTable (t (reportedL1 m)) then some d else none := by
    cases htable : isTable (t (reportedL1 m)) with
    | false =>
      rw [htable] at h
      exact doubleword_eq_none h
    | true =>
      rw [htable] at h
      exact doubleword_eq h
  rw [(reported_entries hva).2]
  by_cases htarget : va >>> 21 = 0x268
  · rw [if_pos htarget, if_pos htarget]
    exact hread ((words_report (by decide)).trans (words_tableLines (by decide) hon hlpae))
  · rw [if_neg htarget, if_neg htarget]
    exact hread ((words_report (by decide)).trans (words_tableLines (by decide) hon hlpae))

theorem mem_tableLines {l : Line} (h : l ∈ tableLines m t) : ∃ label v, l = hexLine label v := by
  have hpair {label : Line} {v : UInt64} (h : l ∈ hexLines64 label v) :
      ∃ label v, l = hexLine label v := by
    rcases List.mem_pair.mp h with rfl | rfl
    · exact ⟨_, _, rfl⟩
    · exact ⟨_, _, rfl⟩
  rw [tableLines] at h
  split_ifs at h
  · simp only [List.mem_append] at h
    rcases h with h | h | h
    · exact hpair h
    · exact hpair h
    · exact hpair h
  · exact hpair (by simpa using h)
  · exact absurd h List.not_mem_nil

/-- A line too short for a word is one of the two flags. -/
theorem short_mem_iff {l : Line} (hl : l.length < 11) :
    l ∈ cpuinfoLines m r t ↔ l = (if m.mmuOn then ascii "MMU=ON" else ascii "MMU=OFF") ∨
      l = if m.mmuLpae then ascii "LPAE=YES" else ascii "LPAE=NO" := by
  have hlong (label : Line) (v : UInt32) : l ≠ hexLine label v := by
    rintro rfl
    rw [hexLine, List.length_append, List.length_append, length_hexDigits,
      show (ascii "=0x").length = 3 from rfl] at hl
    omega
  have htable : l ∉ tableLines m t := by
    intro h
    obtain ⟨label, v, heq⟩ := mem_tableLines h
    exact hlong label v heq
  simp only [cpuinfoLines, registerLines, List.mem_append, List.mem_cons, List.not_mem_nil, hlong,
    htable, false_or, or_false]

/-- The flags are printed as they are, and by no other line. -/
theorem flag_on : ascii "MMU=ON" ∈ cpuinfoLines m r t ↔ m.mmuOn = true := by
  rw [short_mem_iff (by decide)]
  cases m.mmuOn <;> cases m.mmuLpae <;> decide

theorem flag_lpae : ascii "LPAE=YES" ∈ cpuinfoLines m r t ↔ m.mmuLpae = true := by
  rw [short_mem_iff (by decide)]
  cases m.mmuOn <;> cases m.mmuLpae <;> decide

/-- The reader, on the lines. -/
theorem reportedSlot_lines {va : UInt32} (hva : va >>> 21 = 0x268 ∨ va >>> 21 = 0x260) :
    reportedSlot (cpuinfoLines m r t) va = mmuL3Slot m t va := by
  rw [mmuL3Slot_eq]
  by_cases hstart : m.mmuOn = true ∧ m.mmuLpae = true
  · obtain ⟨hon, hlpae⟩ := hstart
    rw [reportedSlot, if_pos ⟨flag_on.mpr hon, flag_lpae.mpr hlpae⟩, reported_l1 hon hlpae,
      reported_l2 hva hon hlpae]
    have hwalks : Walks m t va ↔
        isTable (t (reportedL1 m)) = true ∧ isTable (t (l2Entry m t va)) = true := by
      rw [← (reported_entries (m := m) (t := t) hva).1]
      exact ⟨fun h => ⟨h.l1, h.l2⟩, fun h => ⟨hon, hlpae, h.1, h.2⟩⟩
    by_cases htable : isTable (t (reportedL1 m)) = true
    · rw [if_pos htable, slotOf]
      simp only [hwalks, htable, Bool.true_and, true_and]
      rfl
    · rw [if_neg htable, if_neg fun hw => htable (hwalks.mp hw).1]
      rfl
  · rw [reportedSlot, if_neg, if_neg fun hw => hstart ⟨hw.on, hw.lpae⟩]
    exact fun h => hstart ⟨flag_on.mp h.1, flag_lpae.mp h.2⟩

end report

/-- **The report settles the walk**: from what the client prints of it, a host tells for every
address of the two ranges which entry `mmu_l3_slot` finds, and whether it finds one. -/
theorem reportedSlot_cpuinfo (tools : Tools) (n : ℕ) (m : Machine) (r : Registers) (lk : LK)
    {va : UInt32} (hva : va >>> 21 = 0x268 ∨ va >>> 21 = 0x260) :
    reportedSlot (body (tools.output n (infos (cmdCpuinfo m r lk.quiet).em.sent))) va =
      mmuL3Slot m lk.tables va := by
  have hinfos : infos (cmdCpuinfo m r lk.quiet).em.sent = cpuinfoLines m r lk.tables := by
    rw [cmdCpuinfo_eq]
    show infos ([] ++ ((cpuinfoLines m r lk.tables).map .info ++ [.okay []])) = _
    rw [List.nil_append, infos_append]
    exact (List.append_nil _).trans
      ((infos_map_info id (cpuinfoLines m r lk.tables)).trans (List.map_id _))
  -- no line is empty, so the client's output is read whole
  have hlast : ∀ l ∈ (cpuinfoLines m r lk.tables).getLast?, l ≠ [] := by
    rintro l hl rfl
    have hmem := (short_mem_iff (by decide)).mp (List.mem_of_getLast? hl)
    revert hmem
    cases m.mmuOn <;> cases m.mmuLpae <;> decide
  rw [hinfos, body_raw tools n hlast, reportedSlot_lines hva]

/-- The walk that was measured: a table at each level. -/
theorem reportedSlot_cpuinfo_measured :
    reportedSlot (body (Tools.usual.output 0 (infos
        (cmdCpuinfo measured ⟨0, 0, 0, 0⟩ (LK.quiet { LK.boot with tables := measuredTables })).em.sent)))
        0x4D010000 = mmuL3Slot measured measuredTables 0x4D010000 ∧
      mmuL3Slot measured measuredTables 0x4D010000 = 0x4C61F080 :=
  ⟨reportedSlot_cpuinfo Tools.usual 0 measured ⟨0, 0, 0, 0⟩ { LK.boot with tables := measuredTables }
    (Or.inl (by decide)), by decide⟩

end Selene
