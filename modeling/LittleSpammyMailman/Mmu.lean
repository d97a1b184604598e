/-
The LPAE table walk of `lk/board-selene.c` and the temporary page mapping:
`mmu_l3_slot`, `mmu_map_page`, `mmu_restore_page`.

The table memory is a function from the address of a doubleword to its value;
all entries the walk touches are 8-byte aligned, so two of them are the same
word or do not overlap.  `mmu_sync` (cache and TLB maintenance) changes no word
and is left out.  What a load returns while given tables are in force is the
hardware's business and a field of `Machine`.

* `Walks`, `l1Entry`, `l2Entry`, `l3Entry` — the walk as the hardware makes it;
  `mmuL3Slot_eq` says that `mmu_l3_slot` finds its last entry;
* `mmuMapPage_mapsTo` — the mapping: a valid descriptor for the same address,
  found by a fresh walk, and nothing else changed;
* `mmuRestorePage_map` — restoring undoes it, provided that the entry written is
  not one the walk goes through.
-/
import Mathlib

namespace Selene

/-- Table memory: the doubleword at an address. -/
abbrev Tables := UInt32 → UInt64

/-- The processor as the dump commands see it. -/
structure Machine where
  sctlr : UInt32
  ttbcr : UInt32
  ttbr0 : UInt32
  /-- The byte a load from an address returns under the given tables. -/
  load : Tables → UInt32 → UInt8

namespace Machine

/-- `MMU_ON()` -/
def mmuOn (m : Machine) : Bool := m.sctlr &&& 1 != 0

/-- `MMU_LPAE()` -/
def mmuLpae (m : Machine) : Bool := m.ttbcr &&& ((1 : UInt32) <<< 31) != 0

end Machine

/-- `L3_DESC_LO(pa)` -/
def l3DescLo (pa : UInt32) : UInt32 :=
  (pa &&& (0xFFFFF000 : UInt32)) ||| ((1 : UInt32) <<< 10) ||| ((1 : UInt32) <<< 2) ||| 3

/-- `L3_DESC_HI`: XN. -/
def l3DescHi : UInt32 := (1 : UInt32) <<< 22

/-- The address of the L3 entry of `va`, or 0 (`NULL`) when there is none. -/
def mmuL3Slot (m : Machine) (t : Tables) (va : UInt32) : UInt32 :=
  if !m.mmuOn || !m.mmuLpae then 0
  else
    let l1 := m.ttbr0 &&& 0xFFFFFFE0
    let d := t (l1 + (8 : UInt32) * ((va >>> 30) &&& 3))
    -- not a table: the walk cannot go on
    if d &&& 3 != 3 then 0
    else
      let l2 := (d &&& 0xFFFFF000).toUInt32
      let d := t (l2 + (8 : UInt32) * ((va >>> 21) &&& 0x1FF))
      -- a 2 MB block, or invalid
      if d &&& 3 != 3 then 0
      else
        let l3 := (d &&& 0xFFFFF000).toUInt32
        l3 + (8 : UInt32) * ((va >>> 12) &&& 0x1FF)

/-- What `mmu_map_page` returns and leaves behind. -/
structure Mapping where
  mapped : Bool
  old : UInt64
  tables : Tables

/-- Map the page one to one; `old` is the descriptor that was there. -/
def mmuMapPage (m : Machine) (t : Tables) (va : UInt32) : Mapping :=
  let slot := mmuL3Slot m t va
  if slot = 0 then ⟨false, 0, t⟩
  else
    ⟨true, t slot, Function.update t slot
      ((l3DescLo va).toUInt64 ||| (l3DescHi.toUInt64 <<< 32))⟩

def mmuRestorePage (m : Machine) (t : Tables) (va : UInt32) (old : UInt64) : Tables :=
  let slot := mmuL3Slot m t va
  if slot = 0 then t else Function.update t slot old

/-! ### The walk -/

/-- A descriptor of the first two levels that points to a table. -/
def isTable (d : UInt64) : Bool := d &&& 3 == 3

/-- The entries of a walk, level by level. -/
def l1Entry (m : Machine) (va : UInt32) : UInt32 :=
  (m.ttbr0 &&& (0xFFFFFFE0 : UInt32)) + (8 : UInt32) * ((va >>> 30) &&& 3)

def l2Entry (m : Machine) (t : Tables) (va : UInt32) : UInt32 :=
  (t (l1Entry m va) &&& 0xFFFFF000).toUInt32 + (8 : UInt32) * ((va >>> 21) &&& 0x1FF)

def l3Entry (m : Machine) (t : Tables) (va : UInt32) : UInt32 :=
  (t (l2Entry m t va) &&& 0xFFFFF000).toUInt32 + (8 : UInt32) * ((va >>> 12) &&& 0x1FF)

/-- The walk of `va` reaches the third level. -/
structure Walks (m : Machine) (t : Tables) (va : UInt32) : Prop where
  on : m.mmuOn = true
  lpae : m.mmuLpae = true
  l1 : isTable (t (l1Entry m va)) = true
  l2 : isTable (t (l2Entry m t va)) = true

instance (m : Machine) (t : Tables) (va : UInt32) : Decidable (Walks m t va) :=
  decidable_of_iff (m.mmuOn = true ∧ m.mmuLpae = true ∧ isTable (t (l1Entry m va)) = true ∧
      isTable (t (l2Entry m t va)) = true)
    ⟨fun h => ⟨h.1, h.2.1, h.2.2.1, h.2.2.2⟩, fun h => ⟨h.on, h.lpae, h.l1, h.l2⟩⟩

/-- **`mmu_l3_slot` finds the entry of the third level**, or nothing. -/
theorem mmuL3Slot_eq (m : Machine) (t : Tables) (va : UInt32) :
    mmuL3Slot m t va = if Walks m t va then l3Entry m t va else 0 := by
  have hshape : mmuL3Slot m t va =
      if (!m.mmuOn || !m.mmuLpae) = true then 0
      else if (!isTable (t (l1Entry m va))) = true then 0
      else if (!isTable (t (l2Entry m t va))) = true then 0
      else l3Entry m t va := rfl
  rw [hshape]
  by_cases hw : Walks m t va
  · simp [hw, hw.on, hw.lpae, hw.l1, hw.l2]
  · rw [if_neg hw]
    split_ifs with hon h1 h2
    · rfl
    · rfl
    · rfl
    · simp only [Bool.or_eq_true, Bool.not_eq_true', not_or, Bool.not_eq_false] at hon h1 h2
      exact absurd ⟨hon.1, hon.2, h1, h2⟩ hw

/-- The entries used by the walk of `va` are three distinct words. -/
def EntriesDistinct (m : Machine) (t : Tables) (va : UInt32) : Prop :=
  Walks m t va → [l1Entry m va, l2Entry m t va, l3Entry m t va].Nodup

section

variable {m : Machine} {t : Tables} {va : UInt32}

/-- A store to the last entry does not change the walk. -/
theorem walk_update (hd : EntriesDistinct m t va) (hw : Walks m t va) (d : UInt64) :
    Walks m (Function.update t (l3Entry m t va) d) va ∧
      l3Entry m (Function.update t (l3Entry m t va) d) va = l3Entry m t va := by
  have hne := hd hw
  simp only [List.nodup_cons, List.mem_cons, List.not_mem_nil, or_false, not_or] at hne
  obtain ⟨⟨_, h13⟩, h23, _⟩ := hne
  have hl1 : Function.update t (l3Entry m t va) d (l1Entry m va) = t (l1Entry m va) :=
    Function.update_of_ne h13 _ _
  have hl2 : l2Entry m (Function.update t (l3Entry m t va) d) va = l2Entry m t va := by
    rw [l2Entry, hl1]
    rfl
  have hd2 : Function.update t (l3Entry m t va) d (l2Entry m t va) = t (l2Entry m t va) :=
    Function.update_of_ne h23 _ _
  refine ⟨⟨hw.on, hw.lpae, ?_, ?_⟩, ?_⟩
  · rw [hl1]
    exact hw.l1
  · rw [hl2, hd2]
    exact hw.l2
  · rw [l3Entry, hl2, hd2]
    rfl

/-- The descriptor `mmu_map_page` writes. -/
def pageDesc (va : UInt32) : UInt64 := (l3DescLo va).toUInt64 ||| (l3DescHi.toUInt64 <<< 32)

/-- When the page is mapped. -/
theorem mmuMapPage_mapped :
    (mmuMapPage m t va).mapped = true ↔ Walks m t va ∧ l3Entry m t va ≠ 0 := by
  rw [mmuMapPage, mmuL3Slot_eq]
  by_cases hw : Walks m t va <;> by_cases hz : l3Entry m t va = 0 <;> simp [hw, hz]

theorem mmuMapPage_of_mapped (h : (mmuMapPage m t va).mapped = true) :
    mmuMapPage m t va
      = ⟨true, t (l3Entry m t va), Function.update t (l3Entry m t va) (pageDesc va)⟩ := by
  obtain ⟨hw, hz⟩ := mmuMapPage_mapped.mp h
  rw [mmuMapPage, mmuL3Slot_eq]
  simp only [if_pos hw, if_neg hz]
  rfl

/-- A walk that fails writes nothing. -/
theorem mmuMapPage_of_not_mapped (h : (mmuMapPage m t va).mapped = false) :
    (mmuMapPage m t va).tables = t := by
  rw [mmuMapPage] at h ⊢
  by_cases hz : mmuL3Slot m t va = 0
  · simp only [if_pos hz]
  · simp [if_neg hz] at h

/-- **Restoring undoes the mapping**: the second walk finds the entry the first one wrote. -/
theorem mmuRestorePage_map (hd : EntriesDistinct m t va) (h : (mmuMapPage m t va).mapped = true) :
    mmuRestorePage m (mmuMapPage m t va).tables va (mmuMapPage m t va).old = t := by
  obtain ⟨hw, hz⟩ := mmuMapPage_mapped.mp h
  obtain ⟨hw', hslot⟩ := walk_update hd hw (pageDesc va)
  rw [mmuMapPage_of_mapped h, mmuRestorePage, mmuL3Slot_eq]
  simp only [if_pos hw', hslot, if_neg hz, Function.update_idem, Function.update_eq_self]

end

/-! ### The descriptor -/

/-- A valid page descriptor, with the access flag set, for the page at `pa`. -/
structure IsPage (d : UInt64) (pa : UInt32) : Prop where
  valid : d &&& 3 = 3
  access : d &&& 0x400 ≠ 0
  address : d &&& 0x0000FFFFFFFFF000 = pa.toUInt64

theorem or_and_distrib (a b c : UInt64) : (a ||| b) &&& c = (a &&& c) ||| (b &&& c) :=
  UInt64.toBitVec_inj.1 BitVec.and_or_distrib_right

/-- The address bits of a page and the attribute bits do not meet. -/
theorem pageDesc_eq (va : UInt32) :
    pageDesc va = (va.toUInt64 &&& 0xFFFFF000) ||| 0x0040000000000407 := by
  rw [pageDesc, l3DescLo, UInt32.toUInt64_or, UInt32.toUInt64_or, UInt32.toUInt64_or,
    UInt32.toUInt64_and, UInt64.or_assoc, UInt64.or_assoc, UInt64.or_assoc]
  rfl

theorem isPage_pageDesc {va : UInt32} (h : va &&& 0xFFFFF000 = va) : IsPage (pageDesc va) va := by
  have haddr : va.toUInt64 &&& 0xFFFFF000 = va.toUInt64 := by
    conv_rhs => rw [← h]
    rfl
  rw [pageDesc_eq]
  refine ⟨?_, ?_, ?_⟩
  · rw [or_and_distrib, UInt64.and_assoc]
    have h0 : (0xFFFFF000 : UInt64) &&& 3 = 0 := rfl
    rw [h0, UInt64.and_zero]
    rfl
  · rw [or_and_distrib, UInt64.and_assoc]
    have h0 : (0xFFFFF000 : UInt64) &&& 0x400 = 0 := rfl
    rw [h0, UInt64.and_zero]
    decide
  · rw [or_and_distrib, UInt64.and_assoc]
    have h0 : (0xFFFFF000 : UInt64) &&& 0x0000FFFFFFFFF000 = 0xFFFFF000 := rfl
    have h1 : (0x0040000000000407 : UInt64) &&& 0x0000FFFFFFFFF000 = 0 := rfl
    rw [h0, h1, UInt64.or_zero, haddr]

/-- The tables `t` map the page `va` to itself, and are `t₀` elsewhere. -/
structure MapsTo (m : Machine) (t₀ t : Tables) (va : UInt32) : Prop where
  walks : Walks m t va
  page : IsPage (t (l3Entry m t va)) va
  others : ∀ x, x ≠ l3Entry m t va → t x = t₀ x

/-- **A page that was mapped** is found by a fresh walk, at its own address. -/
theorem mmuMapPage_mapsTo {m : Machine} {t : Tables} {va : UInt32} (hva : va &&& 0xFFFFF000 = va)
    (hd : EntriesDistinct m t va) (h : (mmuMapPage m t va).mapped = true) :
    MapsTo m t (mmuMapPage m t va).tables va := by
  obtain ⟨hw, hz⟩ := mmuMapPage_mapped.mp h
  obtain ⟨hw', hslot⟩ := walk_update hd hw (pageDesc va)
  rw [mmuMapPage_of_mapped h]
  refine ⟨hw', ?_, ?_⟩
  · show IsPage (Function.update t (l3Entry m t va) (pageDesc va) (l3Entry m _ va)) va
    rw [hslot, Function.update_self]
    exact isPage_pageDesc hva
  · intro x hx
    rw [hslot] at hx
    show Function.update t (l3Entry m t va) (pageDesc va) x = t x
    exact Function.update_of_ne hx _ _

end Selene
