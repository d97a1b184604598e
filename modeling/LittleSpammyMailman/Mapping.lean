/-
The temporary mapping of `dump_region`, over all its effects.

* `pass_undisturbed` — one pass maps its page for its own copies and restores
  the entry before it pushes;
* `dumpRegion_invisible` — so the tables are the old ones whenever a message is
  sent and when the call returns, and where the walk fails nothing is written;
* `Machine.paged`, `dumpRegion_physical` — on a machine that translates by these
  tables, the dump shows the physical memory.
-/
import LittleSpammyMailman.Effects

open Text Layout Replay

namespace Selene

/-- What an effect may meet, `t₀` being the tables before the call. -/
def Undisturbed (m : Machine) (t₀ t : Tables) : Effect → Prop
  | .store _ _ => True
  | .copy _ a => (mmuMapPage m t₀ (pageOf a)).mapped = true → MapsTo m t₀ t (pageOf a)
  | .info _ => t = t₀

theorem pageOf_pageOf (a : UInt32) : pageOf a &&& 0xFFFFF000 = pageOf a := by
  rw [pageOf, UInt32.and_assoc]
  rfl

section

variable {m : Machine} {t : Tables} {va : UInt32}

theorem mapEffects_of_not_mapped (h : ¬ (mmuMapPage m t va).mapped = true) :
    mapEffects m t va = [] := by
  rw [mapEffects]
  exact if_neg h

/-- A page that was mapped is restored. -/
theorem copyChunk_after (hd : EntriesDistinct m t va) (a n : UInt32) :
    (copyChunk m t va a n).after = t := by
  rw [copyChunk]
  by_cases h : (mmuMapPage m t va).mapped = true
  · simp only [if_pos h]
    exact mmuRestorePage_map hd h
  · simp only [if_neg h]
    exact mmuMapPage_of_not_mapped (Bool.not_eq_true _ ▸ h)

end

/-- Stores may meet anything. -/
theorem undisturbed_stores {m : Machine} {t₀ t : Tables} {es : List Effect}
    (h : ∀ e ∈ es, ∃ slot desc, e = .store slot desc) :
    Always Effect.apply (Undisturbed m t₀) t es := by
  refine always_iff.mpr ?_
  rintro pre e post rfl
  obtain ⟨slot, desc, rfl⟩ := h e (by simp)
  trivial

section

variable {m : Machine} {addr len : UInt32} {s : DumpState}

/-- The copies of a pass are made while the page is mapped. -/
theorem undisturbed_copies (hgo : s.done < len)
    (hd : EntriesDistinct m s.lk.tables (pageOf (addr + s.done))) :
    Always Effect.apply (Undisturbed m s.lk.tables)
      (mmuMapPage m s.lk.tables (pageOf (addr + s.done))).tables
      (copyEffects (addr + s.done) (chunkLen addr len s.done)) := by
  obtain ⟨_, _, _, hin⟩ := chunkLen_spec addr hgo
  refine (still (copyEffects_still _ _ _)).2.mpr ?_
  intro e he
  obtain ⟨i, hi, rfl⟩ := List.mem_map.mp he
  have hlt := List.mem_range.mp hi
  have hpage : pageOf (addr + s.done + UInt32.ofNat i) = pageOf (addr + s.done) :=
    pageOf_add (by omega)
  intro hmapped
  rw [hpage] at hmapped ⊢
  exact mmuMapPage_mapsTo (pageOf_pageOf _) hd hmapped

/-- **One pass** disturbs nothing, and leaves the tables as they were. -/
theorem pass_undisturbed (hgo : s.done < len)
    (hd : EntriesDistinct m s.lk.tables (pageOf (addr + s.done))) :
    (dumpPass m addr len s).lk.tables = s.lk.tables ∧
      Always Effect.apply (Undisturbed m s.lk.tables) s.lk.tables (passEffects m addr len s) := by
  have hafter : (passChunk m addr len s).after = s.lk.tables := copyChunk_after hd _ _
  obtain ⟨hm1, _⟩ := mapEffects_spec m s.lk.tables (pageOf (addr + s.done))
  obtain ⟨hr1, _⟩ := restore_spec m addr len s
  refine ⟨hafter, ?_⟩
  rw [passEffects, always_append, always_append, always_append]
  simp only [replay_append, hm1, replay_copyEffects, hr1, hafter]
  refine ⟨⟨⟨?_, undisturbed_copies hgo hd⟩, ?_⟩, ?_⟩
  · refine undisturbed_stores ?_
    intro e he
    rw [mapEffects, List.mem_ite_nil_right, List.mem_singleton] at he
    exact ⟨_, _, he.2⟩
  · refine undisturbed_stores ?_
    intro e he
    rw [List.mem_ite_nil_right, restoreEffects, List.mem_ite_nil_left, List.mem_singleton] at he
    exact ⟨_, _, he.2.2⟩
  · -- the messages of a pass come after the page has been restored
    refine (still (infoEffects_still _ _ _)).2.mpr ?_
    intro e he
    obtain ⟨l, _, rfl⟩ := List.mem_map.mp he
    rfl

/-- Where the walk fails, a pass writes nothing. -/
theorem no_store_of_not_walks (h : ¬ Walks m s.lk.tables (pageOf (addr + s.done)))
    (slot : UInt32) (desc : UInt64) : .store slot desc ∉ passEffects m addr len s := by
  have hmapped : ¬ (mmuMapPage m s.lk.tables (pageOf (addr + s.done))).mapped = true :=
    fun hx => h (mmuMapPage_mapped.mp hx).1
  rw [passEffects]
  simp only [List.mem_append, mapEffects_of_not_mapped hmapped, if_neg hmapped]
  simp [copyEffects, infoEffects]

end

/-! ### A whole call -/

/-- The temporary mapping of a call cannot be seen from outside. -/
structure Invisible (m : Machine) (addr len : UInt32) (lk : LK) : Prop where
  performs : Performs m addr len lk (regionEffects m addr len lk)
  undone : (dumpRegion m addr len lk).2.tables = lk.tables
  at_info : ∀ pre l post, regionEffects m addr len lk = pre ++ .info l :: post →
    replay Effect.apply lk.tables pre = lk.tables
  at_copy : ∀ pre i a post, regionEffects m addr len lk = pre ++ .copy i a :: post →
    (mmuMapPage m lk.tables (pageOf a)).mapped = true →
      MapsTo m lk.tables (replay Effect.apply lk.tables pre) (pageOf a)
  no_store : ∀ s ∈ passes m addr len lk, ¬ Walks m lk.tables (pageOf (addr + s.done)) →
    ∀ slot desc, .store slot desc ∉ passEffects m addr len s

/-- The tables at every pass. -/
theorem tables_of_passes {m : Machine} {addr len : UInt32} {lk : LK}
    (hd : ∀ s ∈ passes m addr len lk, EntriesDistinct m lk.tables (pageOf (addr + s.done))) :
    (∀ s ∈ passes m addr len lk, s.lk.tables = lk.tables ∧ s.done < len ∧ s.stop = false) ∧
      (dumpLoop m addr len ⟨0, false, lk⟩).lk.tables = lk.tables := by
  have hgo : ∀ s ∈ passes m addr len lk, s.lk.tables = lk.tables →
      (dumpPass m addr len s).lk.tables = lk.tables := by
    intro s hs ht
    have hds := hd s hs
    rw [← ht] at hds ⊢
    exact (pass_undisturbed (go_of_mem_passes hs) hds).1
  exact passes_rule hgo rfl

/-- **The temporary mapping is invisible and always undone**, as long as the entries of each
visited page's walk are distinct words. -/
theorem dumpRegion_invisible (m : Machine) (addr len : UInt32) (lk : LK)
    (hd : ∀ s ∈ passes m addr len lk, EntriesDistinct m lk.tables (pageOf (addr + s.done))) :
    Invisible m addr len lk := by
  obtain ⟨hpass, hend⟩ := tables_of_passes hd
  have hall : Always Effect.apply (Undisturbed m lk.tables) lk.tables
      (regionEffects m addr len lk) := by
    have hpasses : ∀ s ∈ passes m addr len lk,
        replay Effect.apply lk.tables (passEffects m addr len s) = lk.tables ∧
          Always Effect.apply (Undisturbed m lk.tables) lk.tables (passEffects m addr len s) := by
      intro s hs
      obtain ⟨ht, hgo, _⟩ := hpass s hs
      have hds := hd s hs
      rw [← ht] at hds ⊢
      obtain ⟨hleft, halways⟩ := pass_undisturbed hgo hds
      exact ⟨(passEffects_spec m addr len s).1.trans hleft, halways⟩
    obtain ⟨hreplay, halways⟩ := Replay.flatMap hpasses
    rw [regionEffects, always_append, hreplay]
    refine ⟨halways, (still (infoEffects_still _ _ _)).2.mpr ?_⟩
    intro e he
    obtain ⟨l, _, rfl⟩ := List.mem_map.mp he
    rfl
  have hmeets := always_iff.mp hall
  refine ⟨performs_region m addr len lk, hend, ?_, ?_, ?_⟩
  · intro pre l post h
    exact hmeets pre (.info l) post h
  · intro pre i a post h
    exact hmeets pre (.copy i a) post h
  · intro s hs hno
    rw [← (hpass s hs).1] at hno
    exact no_store_of_not_walks hno

/-- The tables as the source's comment gives them for `0x4D010000`: a table on either level. -/
def measuredTables : Tables := fun a =>
  if a = 0x4C608008 then 0x4C609003 else if a = 0x4C609340 then 0x4C61F003 else 0

/-- MMU on, long descriptors. -/
def measured : Machine := ⟨1, 0x80000000, 0x4C608000, fun _ _ => 0x41⟩

example : (mmuMapPage measured measuredTables 0x4D010000).mapped = true := by decide

theorem pageOf_of_lt {a : UInt32} (h : a.toNat < 4096) : pageOf (0x4D010000 + a) = 0x4D010000 := by
  have hadd := pageOf_add (a := 0x4D010000) (i := a.toNat) (by
    have h0 : (0x4D010000 : UInt32).toNat % 4096 = 0 := rfl
    omega)
  rw [UInt32.ofNat_toNat] at hadd
  exact hadd

/-- A text dump of a page, with the budget of a command. -/
theorem dumpRegion_invisible_measured : Invisible measured 0x4D010000 0x1000
    ⟨measuredTables, emitReset dumpLinesMax .text LK.boot.em⟩ := by
  refine dumpRegion_invisible _ _ _ _ ?_
  intro s hs
  rw [pageOf_of_lt (UInt32.lt_iff_toNat_lt.mp (go_of_mem_passes hs))]
  exact fun _ => by decide

/-! ### What the dump shows -/

theorem pageOf_shiftRight (a : UInt32) {k : UInt32} (hlo : 12 ≤ k.toNat) (hhi : k.toNat < 32) :
    pageOf a >>> k = a >>> k := by
  have hpow : 2 ^ k.toNat = 4096 * 2 ^ (k.toNat - 12) := by
    rw [show (4096 : ℕ) = 2 ^ 12 from rfl, ← pow_add, Nat.add_sub_cancel' hlo]
  rw [← UInt32.toNat_inj, UInt32.toNat_shiftRight, UInt32.toNat_shiftRight, pageOf, toNat_page,
    Nat.mod_eq_of_lt hhi, Nat.shiftRight_eq_div_pow, Nat.shiftRight_eq_div_pow, hpow,
    ← Nat.div_div_eq_div_mul, ← Nat.div_div_eq_div_mul, Nat.mul_div_cancel _ (by omega)]

/-- The page and the offset into it are the address. -/
theorem pageOf_add_offset (a : UInt32) :
    (pageOf a).toUInt64 + (a &&& 0xFFF).toUInt64 = a.toUInt64 := by
  have ha := a.toNat_lt
  have hoff : (a &&& 0xFFF).toNat = a.toNat % 4096 := by
    rw [UInt32.toNat_and]
    exact Nat.and_two_pow_sub_one_eq_mod a.toNat 12
  rw [← UInt64.toNat_inj, UInt64.toNat_add, UInt32.toNat_toUInt64, UInt32.toNat_toUInt64,
    UInt32.toNat_toUInt64, hoff, pageOf, toNat_page]
  omega

/-- The address the entry of the third level gives for `a`. -/
def translate (m : Machine) (t : Tables) (a : UInt32) : UInt64 :=
  (t (l3Entry m t a) &&& 0x0000FFFFFFFFF000) + (a &&& 0xFFF).toUInt64

/-- `m` with loads from a physical memory, which the tables are no part of: with the MMU off the
address is the physical one, with it on a valid entry of the third level translates it.  What a load
through another descriptor returns is left to `m`. -/
def Machine.paged (m : Machine) (memory : UInt64 → UInt8) : Machine :=
  { m with
    load := fun t a =>
      if m.mmuOn = false then memory a.toUInt64
      else if Walks m t a ∧ t (l3Entry m t a) &&& 3 = 3 then memory (translate m t a)
      else m.load t a }

section

variable {m : Machine} {t t₀ : Tables} {addr : UInt32} {n : ℕ}

/-- The walk of an address is the walk of its page. -/
theorem entries_pageOf (m : Machine) (t : Tables) (a : UInt32) :
    l1Entry m (pageOf a) = l1Entry m a ∧ l2Entry m t (pageOf a) = l2Entry m t a ∧
      l3Entry m t (pageOf a) = l3Entry m t a := by
  have h1 : l1Entry m (pageOf a) = l1Entry m a := by
    rw [l1Entry, l1Entry, pageOf_shiftRight a (by decide) (by decide)]
  have h2 : l2Entry m t (pageOf a) = l2Entry m t a := by
    rw [l2Entry, l2Entry, h1, pageOf_shiftRight a (by decide) (by decide)]
  refine ⟨h1, h2, ?_⟩
  rw [l3Entry, l3Entry, h2, pageOf_shiftRight a (by decide) (by decide)]

theorem Walks.of_pageOf {a : UInt32} (h : Walks m t (pageOf a)) : Walks m t a := by
  obtain ⟨h1, h2, _⟩ := entries_pageOf m t a
  exact ⟨h.on, h.lpae, h1 ▸ h.l1, h2 ▸ h.l2⟩

/-- Tables that map the page of an address to itself translate the address to itself. -/
theorem MapsTo.translate {a : UInt32} (h : MapsTo m t₀ t (pageOf a)) :
    Walks m t a ∧ t (l3Entry m t a) &&& 3 = 3 ∧ translate m t a = a.toUInt64 := by
  have hpage := h.page
  rw [(entries_pageOf m t a).2.2] at hpage
  refine ⟨h.walks.of_pageOf, hpage.valid, ?_⟩
  rw [Selene.translate, hpage.address, pageOf_add_offset]

/-- With distinct entries the tables are the same between any two pages. -/
theorem Machine.Meets.eq
    (hd : ∀ i < n, EntriesDistinct m t₀ (pageOf (addr + UInt32.ofNat i)))
    (h : m.Meets addr n t₀ t) : t = t₀ := by
  induction h with
  | refl => rfl
  | tail _ hi ih =>
    rw [ih]
    exact copyChunk_after (hd _ hi) _ _

/-- Both machines walk the tables alike. -/
theorem EntriesDistinct.paged {va : UInt32} (memory : UInt64 → UInt8)
    (h : EntriesDistinct m t va) : EntriesDistinct (m.paged memory) t va :=
  fun hw => h ⟨hw.on, hw.lpae, hw.l1, hw.l2⟩

/-- **A load while the page is mapped** reads the physical memory at the address itself. -/
theorem Machine.fetch_paged {a : UInt32} (memory : UInt64 → UInt8)
    (hd : EntriesDistinct m t (pageOf a))
    (hmap : m.mmuOn = true → (mmuMapPage m t (pageOf a)).mapped = true) :
    (m.paged memory).fetch t a = memory a.toUInt64 := by
  show (if m.mmuOn = false then _ else _) = _
  cases hon : m.mmuOn with
  | false => rfl
  | true =>
    obtain ⟨hw, hvalid, haddr⟩ :=
      (mmuMapPage_mapsTo (pageOf_pageOf a) hd (hmap hon)).translate
    rw [if_neg (by simp)]
    exact (if_pos ⟨hw, hvalid⟩).trans (congrArg memory haddr)

theorem Machine.paged_holds (memory : UInt64 → UInt8)
    (hd : ∀ i < n, EntriesDistinct m t (pageOf (addr + UInt32.ofNat i)))
    (hmap : m.mmuOn = true →
      ∀ i < n, (mmuMapPage m t (pageOf (addr + UInt32.ofNat i))).mapped = true) :
    (m.paged memory).Holds (fun a => memory a.toUInt64) t addr n := by
  intro u hu i hi
  -- the tables are still the first ones
  obtain rfl : u = t := hu.eq fun j hj => (hd j hj).paged memory
  exact Machine.fetch_paged memory (hd i hi) fun hon => hmap hon i hi

/-- **The dump shows the physical memory**, whatever the entries of the third level were before:
where the temporary mapping succeeds, `dump_region` sends the bytes at the physical addresses of the
window and leaves the tables as they were. -/
theorem dumpRegion_physical (m : Machine) (memory : UInt64 → UInt8) (addr len : UInt32) (lk : LK)
    (hd : ∀ i < len.toNat, EntriesDistinct m lk.tables (pageOf (addr + UInt32.ofNat i)))
    (hmap : m.mmuOn = true → ∀ i < len.toNat,
      (mmuMapPage m lk.tables (pageOf (addr + UInt32.ofNat i))).mapped = true) :
    ((dumpRegion (m.paged memory) addr len lk).1.toNat,
        (dumpRegion (m.paged memory) addr len lk).2.em)
        = singlePass (fun a => memory a.toUInt64) addr len.toNat lk.em ∧
      (dumpRegion (m.paged memory) addr len lk).2.tables = lk.tables := by
  refine ⟨dumpRegion_eq_singlePass (Machine.paged_holds memory hd hmap), ?_⟩
  exact (dumpRegion_meets (m.paged memory) addr len lk).eq fun j hj => (hd j hj).paged memory

end

/-- The page of the source's comment, whose entry of the third level is invalid. -/
theorem dumpRegion_physical_measured :
    let lk : LK := ⟨measuredTables, emitReset dumpLinesMax .text LK.boot.em⟩
    let m := measured.paged fun a => a.toUInt8
    measuredTables (l3Entry measured measuredTables 0x4D010000) = 0 ∧
      ((dumpRegion m 0x4D010000 0x1000 lk).1.toNat, (dumpRegion m 0x4D010000 0x1000 lk).2.em)
        = singlePass (fun a => a.toUInt64.toUInt8) 0x4D010000 0x1000 lk.em ∧
      (dumpRegion m 0x4D010000 0x1000 lk).2.tables = measuredTables := by
  intro lk m
  have hpage : ∀ i < 0x1000, pageOf (0x4D010000 + UInt32.ofNat i) = 0x4D010000 := by
    intro i hi
    exact pageOf_of_lt (by rw [UInt32.toNat_ofNat']; omega)
  refine ⟨by decide, ?_⟩
  refine dumpRegion_physical measured (fun a => a.toUInt8) 0x4D010000 0x1000 lk ?_ ?_
  · intro i hi
    rw [hpage i hi]
    exact fun _ => by decide
  · intro _ i hi
    rw [hpage i hi]
    decide

end Selene
