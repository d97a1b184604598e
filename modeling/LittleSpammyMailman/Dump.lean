/-
`mem_allowed` and `dump_region` of `lk/board-selene.c`.

`dump_region` walks the window in chunks cut at page ends and at the size of
`dump_buf`, mapping the page only while it copies.  The chunks do not show in
what it does to the emitter:

* `chunkLen_spec` — a chunk is never empty, fits `dump_buf`, stays in its page
  and in the window (so the loop of `dumpRegion` terminates);
* `Machine.Holds` — the content of the window is constant as far as a dump can
  see it: in the bytes it loads while their page is mapped;
* `dumpRegion_eq_pushAll` — `dump_region` is one pass of `emit_push` over the
  bytes of the window, then `emit_flush`;
* `dumpRegion_spec` — hence what it consumes and sends is what the typesetter of
  `Layout` takes and sends.
-/
import LittleSpammyMailman.Emit
import LittleSpammyMailman.Loop
import LittleSpammyMailman.Mmu

open Text Layout

namespace Selene

/-- `DUMP_CHUNK`, the size of `dump_buf`. -/
def dumpChunk : UInt32 := 2048

/-- `DUMP_MAXLEN` -/
def dumpMaxlen : UInt32 := 0x00010000

/-- `DUMP_ONESHOT` -/
def dumpOneshot : UInt32 := 0x00001000

/-- The whitelist. -/
def memAllowed (addr len : UInt32) : Bool :=
  let stop := addr + len
  if len = 0 ∨ dumpMaxlen < len then false
  -- overflow
  else if stop < addr then false
  -- SRAM
  else if 0x00100000 ≤ addr ∧ stop ≤ 0x00120000 then true
  -- DRAM
  else if 0x40000000 ≤ addr ∧ stop ≤ 0xC0000000 then true
  else false

/-- The two areas of the whitelist, without wrap-around. -/
def InArea (addr len : ℕ) : Prop :=
  (0x00100000 ≤ addr ∧ addr + len ≤ 0x00120000) ∨
    (0x40000000 ≤ addr ∧ addr + len ≤ 0xC0000000)

theorem memAllowed_iff (addr len : UInt32) :
    memAllowed addr len = true ↔
      0 < len.toNat ∧ len.toNat ≤ 0x10000 ∧ InArea addr.toNat len.toNat := by
  have ha := addr.toNat_lt
  have hl := len.toNat_lt
  have hstop : (addr + len).toNat = (addr.toNat + len.toNat) % 2 ^ 32 := UInt32.toNat_add ..
  rw [memAllowed, InArea]
  simp only [dumpMaxlen, UInt32.lt_iff_toNat_lt, UInt32.le_iff_toNat_le, ← UInt32.toNat_inj,
    UInt32.reduceToNat, hstop]
  split_ifs <;> simp only [false_iff, true_iff] <;> omega

/-- What the commands keep between calls: the table memory and the emitter. -/
structure LK where
  tables : Tables
  em : Emitter

/-- `a & 0xFFFFF000` -/
def pageOf (a : UInt32) : UInt32 := a &&& 0xFFFFF000

/-- The length of the chunk that starts `done` bytes into the window. -/
def chunkLen (addr len done : UInt32) : UInt32 :=
  let a := addr + done
  let page := a &&& 0xFFFFF000
  let n := len - done
  let toPageEnd := (page + 0x1000) - a
  let n := if dumpChunk < n then dumpChunk else n
  -- never across the page end
  if toPageEnd < n then toPageEnd else n

/-- The `n` bytes from `addr` on; addresses wrap at 32 bits. -/
def window (load : UInt32 → UInt8) (addr : UInt32) (n : ℕ) : List UInt8 :=
  (List.range n).map fun i => load (addr + UInt32.ofNat i)

/-- One copy: the bytes, and the tables while it runs and after it. -/
structure Copied where
  bytes : List UInt8
  mapped : Bool
  during : Tables
  after : Tables

/-- Fill `dump_buf[0 .. n)` from address `a`, the page being mapped only meanwhile. -/
def copyChunk (m : Machine) (t : Tables) (page a n : UInt32) : Copied :=
  let r := mmuMapPage m t page
  { bytes := window (m.load r.tables) a n.toNat
    mapped := r.mapped
    during := r.tables
    after := if r.mapped then mmuRestorePage m r.tables page r.old else r.tables }

/-- The variables of the outer loop. -/
structure DumpState where
  done : UInt32
  stop : Bool
  lk : LK

/-- The body of the outer loop. -/
def dumpPass (m : Machine) (addr len : UInt32) (s : DumpState) : DumpState :=
  let a := addr + s.done
  let page := a &&& 0xFFFFF000
  let c := copyChunk m s.lk.tables page a (chunkLen addr len s.done)
  let r := pushAll c.bytes s.lk.em
  { done := s.done + UInt32.ofNat r.1, stop := r.2.1, lk := ⟨c.after, r.2.2⟩ }

/-- `while (done < len && !stop)` -/
def dumpStep (m : Machine) (addr len : UInt32) (s : DumpState) : DumpState ⊕ DumpState :=
  if s.done < len ∧ s.stop = false then .inl (dumpPass m addr len s) else .inr s

/-- The bytes still to come. -/
def dumpMeasure (len : UInt32) (s : DumpState) : ℕ :=
  if s.stop then 0 else len.toNat - s.done.toNat + 1

/-! ### The chunks -/

theorem toNat_page (a : UInt32) : (a &&& 0xFFFFF000).toNat = a.toNat / 4096 * 4096 := by
  have ha := a.toNat_lt
  have hmask : (0xFFFFF000 : UInt32).toNat = (2 ^ 20 - 1) <<< 12 := rfl
  have hdown : a.toNat / 4096 * 4096 = (a.toNat >>> 12) <<< 12 := by
    rw [Nat.shiftLeft_eq, Nat.shiftRight_eq_div_pow]
  rw [UInt32.toNat_and, hmask, hdown]
  refine Nat.eq_of_testBit_eq ?_
  intro i
  rw [Nat.testBit_and, Nat.testBit_shiftLeft, Nat.testBit_shiftLeft, Nat.testBit_shiftRight,
    Nat.testBit_two_pow_sub_one]
  rcases Nat.lt_or_ge i 32 with hlow | hhigh
  · -- the mask has the bits 12 to 31
    have hmem : decide (i - 12 < 20) = true := decide_eq_true (by omega)
    rw [hmem, Bool.and_true]
    rcases Nat.lt_or_ge i 12 with hpage | hpage
    · simp [Nat.not_le_of_lt hpage]
    · simp [hpage]
  · -- above them the address has none
    have hzero : a.toNat.testBit i = false :=
      Nat.testBit_lt_two_pow (lt_of_lt_of_le ha (Nat.pow_le_pow_right (by omega) hhigh))
    rw [hzero, show 12 + (i - 12) = i by omega, hzero, Bool.false_and, Bool.and_false]

/-- The bytes of a chunk lie in one page. -/
theorem pageOf_add {a : UInt32} {i : ℕ} (h : a.toNat % 4096 + i < 4096) :
    pageOf (a + UInt32.ofNat i) = pageOf a := by
  have ha := a.toNat_lt
  rw [← UInt32.toNat_inj, pageOf, pageOf, toNat_page, toNat_page, UInt32.toNat_add,
    UInt32.toNat_ofNat']
  omega

/-- Also on the last page, where the page end wraps to 0. -/
theorem toNat_toPageEnd (a : UInt32) :
    ((a &&& 0xFFFFF000) + 0x1000 - a).toNat = 4096 - a.toNat % 4096 := by
  have ha := a.toNat_lt
  rw [UInt32.toNat_sub, UInt32.toNat_add, toNat_page]
  simp only [UInt32.reduceToNat]
  omega

theorem chunkLen_spec (addr : UInt32) {len done : UInt32} (h : done < len) :
    0 < (chunkLen addr len done).toNat ∧ (chunkLen addr len done).toNat ≤ 2048 ∧
      (chunkLen addr len done).toNat ≤ len.toNat - done.toNat ∧
      (addr + done).toNat % 4096 + (chunkLen addr len done).toNat ≤ 4096 := by
  have hlt := UInt32.lt_iff_toNat_lt.mp h
  have hl := len.toNat_lt
  have hend := toNat_toPageEnd (addr + done)
  have hrest : (len - done).toNat = len.toNat - done.toNat :=
    UInt32.toNat_sub_of_le _ _ (UInt32.le_iff_toNat_le.mpr (by omega))
  rw [chunkLen]
  simp only [dumpChunk, UInt32.lt_iff_toNat_lt, UInt32.reduceToNat]
  have hchunk : (2048 : UInt32).toNat = 2048 := rfl
  split_ifs <;> omega

theorem pushAll_le_length (l : List UInt8) (e : Emitter) : (pushAll l e).1 ≤ l.length := by
  induction l generalizing e with
  | nil => exact le_rfl
  | cons c l ih =>
    cases hp : (emitPush c e).1 with
    | false =>
      rw [pushAll_cons_refused hp]
      exact Nat.zero_le _
    | true =>
      rw [pushAll_cons_accepted hp]
      exact Nat.succ_le_succ (ih _)

theorem pushAll_of_not_stopped {l : List UInt8} {e : Emitter} (h : (pushAll l e).2.1 = false) :
    (pushAll l e).1 = l.length := by
  induction l generalizing e with
  | nil => rfl
  | cons c l ih =>
    cases hp : (emitPush c e).1 with
    | false =>
      rw [pushAll_cons_refused hp] at h
      exact absurd h (by simp)
    | true =>
      rw [pushAll_cons_accepted hp] at h ⊢
      rw [List.length_cons, ih h]

theorem pushAll_append (l₁ l₂ : List UInt8) (e : Emitter) :
    pushAll (l₁ ++ l₂) e =
      if (pushAll l₁ e).2.1 = true then pushAll l₁ e
      else (l₁.length + (pushAll l₂ (pushAll l₁ e).2.2).1, (pushAll l₂ (pushAll l₁ e).2.2).2) := by
  induction l₁ generalizing e with
  | nil => simp [pushAll]
  | cons c l ih =>
    rw [List.cons_append]
    cases hp : (emitPush c e).1 with
    | false =>
      rw [pushAll_cons_refused hp, pushAll_cons_refused hp, if_pos rfl]
    | true =>
      rw [pushAll_cons_accepted hp, pushAll_cons_accepted hp, ih, List.length_cons]
      by_cases hs : (pushAll l (emitPush c e).2).2.1 = true
      · rw [if_pos hs, if_pos hs]
      · rw [if_neg hs, if_neg hs, Nat.add_right_comm]

@[simp] theorem length_window (load : UInt32 → UInt8) (addr : UInt32) (n : ℕ) :
    (window load addr n).length = n := by simp [window]

theorem window_add (load : UInt32 → UInt8) (addr : UInt32) (n k : ℕ) :
    window load addr (n + k)
      = window load addr n ++ window load (addr + UInt32.ofNat n) k := by
  simp only [window, List.range_add, List.map_append, List.map_map]
  congr 1
  refine List.map_congr_left ?_
  intro i _
  rw [Function.comp, UInt32.ofNat_add, UInt32.add_assoc]

theorem window_split (load : UInt32 → UInt8) (addr : UInt32) {n k : ℕ} (h : n ≤ k) :
    window load addr k = window load addr n ++ window load (addr + UInt32.ofNat n) (k - n) := by
  rw [← window_add, Nat.add_sub_cancel' h]

theorem length_copyChunk (m : Machine) (t : Tables) (page a n : UInt32) :
    (copyChunk m t page a n).bytes.length = n.toNat := length_window ..

/-- One pass accepts a whole chunk, or stops. -/
theorem dumpPass_done {m : Machine} {addr len : UInt32} {s : DumpState} (h : s.done < len)
    (hs : (dumpPass m addr len s).stop = false) :
    (dumpPass m addr len s).done.toNat
      = s.done.toNat + (chunkLen addr len s.done).toNat := by
  obtain ⟨_, _, hrest, _⟩ := chunkLen_spec addr h
  have hl := len.toNat_lt
  have hlt := UInt32.lt_iff_toNat_lt.mp h
  have hall := pushAll_of_not_stopped hs
  rw [length_copyChunk] at hall
  show (s.done + UInt32.ofNat _).toNat = _
  rw [hall, UInt32.ofNat_toNat, UInt32.toNat_add]
  omega

theorem dumpStep_decreases (m : Machine) (addr len : UInt32) (s s' : DumpState)
    (h : dumpStep m addr len s = .inl s') : dumpMeasure len s' < dumpMeasure len s := by
  rw [dumpStep] at h
  split at h
  · rename_i hgo
    obtain ⟨hpos, _, hrest, _⟩ := chunkLen_spec addr hgo.1
    have hlt := UInt32.lt_iff_toNat_lt.mp hgo.1
    rw [← Sum.inl.inj h, dumpMeasure, dumpMeasure, hgo.2]
    by_cases hs : (dumpPass m addr len s).stop = true
    · simp [hs]
    · rw [Bool.not_eq_true] at hs
      have hdone := dumpPass_done hgo.1 hs
      simp only [hs, Bool.false_eq_true, if_false]
      omega
  · exact absurd h (by simp)

/-- The outer loop of `dump_region`. -/
def dumpLoop (m : Machine) (addr len : UInt32) : DumpState → DumpState :=
  Loop.iterate (dumpStep m addr len) (dumpMeasure len) (dumpStep_decreases m addr len)

/-- `dump_region`: the bytes consumed, and the state left behind. -/
def dumpRegion (m : Machine) (addr len : UInt32) (lk : LK) : UInt32 × LK :=
  let s := dumpLoop m addr len ⟨0, false, lk⟩
  (s.done, { s.lk with em := emitFlush s.lk.em })

/-! ### The loop, pass by pass -/

section

variable {m : Machine} {addr len : UInt32} {s : DumpState}

theorem dumpStep_of_go (h : s.done < len ∧ s.stop = false) :
    dumpStep m addr len s = .inl (dumpPass m addr len s) := by
  rw [dumpStep, if_pos h]

theorem dumpStep_of_leave (h : ¬ (s.done < len ∧ s.stop = false)) :
    dumpStep m addr len s = .inr s := by
  rw [dumpStep, if_neg h]

theorem dumpLoop_of_go (h : s.done < len ∧ s.stop = false) :
    dumpLoop m addr len s = dumpLoop m addr len (dumpPass m addr len s) :=
  Loop.iterate_of_inl (dumpStep_of_go h)

theorem dumpLoop_of_leave (h : ¬ (s.done < len ∧ s.stop = false)) :
    dumpLoop m addr len s = s := Loop.iterate_of_inr (dumpStep_of_leave h)

end

/-- Induction over the passes still to come. -/
theorem pass_induction (m : Machine) (addr len : UInt32) {P : DumpState → Prop}
    (go : ∀ s, s.done < len ∧ s.stop = false → P (dumpPass m addr len s) → P s)
    (leave : ∀ s, ¬ (s.done < len ∧ s.stop = false) → P s) (s : DumpState) : P s := by
  induction s using Loop.iterate.induct (dumpStep m addr len) (dumpMeasure len)
    (dumpStep_decreases m addr len) with
  | case1 s s' h ih =>
    by_cases hgo : s.done < len ∧ s.stop = false
    · rw [dumpStep_of_go hgo] at h
      rw [← Sum.inl.inj h] at ih
      exact go s hgo ih
    · exact leave s hgo
  | case2 s e h =>
    refine leave s ?_
    intro hgo
    rw [dumpStep_of_go hgo] at h
    exact absurd h (by simp)

/-! ### The chunks do not show -/

namespace Machine

/-- The byte a load from `a` returns while the page of `a` is mapped. -/
def fetch (m : Machine) (t : Tables) (a : UInt32) : UInt8 :=
  m.load (mmuMapPage m t (pageOf a)).tables a

/-- The tables after a page has been mapped and restored. -/
def cycle (m : Machine) (t : Tables) (page : UInt32) : Tables := (copyChunk m t page page 0).after

/-- The tables that dumps of these bytes meet between two pages, the first having met `t₀`. -/
inductive Meets (m : Machine) (addr : UInt32) (n : ℕ) (t₀ : Tables) : Tables → Prop
  | refl : Meets m addr n t₀ t₀
  | tail {t : Tables} {i : ℕ} (h : Meets m addr n t₀ t) (hi : i < n) :
      Meets m addr n t₀ (m.cycle t (pageOf (addr + UInt32.ofNat i)))

/-- The `n` bytes from `addr` on have this content whenever a dump loads them: the content is
constant from the tables `t₀` on. -/
def Holds (m : Machine) (content : UInt32 → UInt8) (t₀ : Tables) (addr : UInt32) (n : ℕ) : Prop :=
  ∀ t, m.Meets addr n t₀ t →
    ∀ i < n, m.fetch t (addr + UInt32.ofNat i) = content (addr + UInt32.ofNat i)

variable {m : Machine} {content : UInt32 → UInt8} {addr : UInt32} {n : ℕ} {t₀ t u : Tables}

theorem Meets.trans (h : m.Meets addr n t₀ t) (h' : m.Meets addr n t u) : m.Meets addr n t₀ u := by
  induction h' with
  | refl => exact h
  | tail _ hi ih => exact .tail ih hi

/-- A part of the bytes. -/
theorem Meets.mono {k j : ℕ} (h : m.Meets (addr + UInt32.ofNat k) j t₀ t) (hj : k + j ≤ n) :
    m.Meets addr n t₀ t := by
  induction h with
  | refl => exact .refl
  | tail _ hi ih =>
    rw [UInt32.add_assoc, ← UInt32.ofNat_add]
    exact .tail ih (by omega)

theorem Meets.part {off : UInt32} {j : ℕ} (h : m.Meets (addr + off) j t₀ t)
    (hj : off.toNat + j ≤ n) : m.Meets addr n t₀ t := by
  rw [← UInt32.ofNat_toNat (x := off)] at h
  exact h.mono hj

/-- Later the content is still the same. -/
theorem Holds.meets (h : m.Holds content t₀ addr n) (ht : m.Meets addr n t₀ t) :
    m.Holds content t addr n := fun _ hu => h _ (ht.trans hu)

theorem Holds.shift {k j : ℕ} (h : m.Holds content t₀ addr n) (hj : k + j ≤ n) :
    m.Holds content t₀ (addr + UInt32.ofNat k) j := by
  intro t ht i hi
  rw [UInt32.add_assoc, ← UInt32.ofNat_add]
  exact h t (ht.mono hj) (k + i) (by omega)

theorem Holds.window_eq {k j : ℕ} (h : m.Holds content t₀ addr n) (hj : k + j ≤ n) :
    window (m.fetch t₀) (addr + UInt32.ofNat k) j = window content (addr + UInt32.ofNat k) j := by
  refine List.map_congr_left ?_
  intro i hi
  have := List.mem_range.mp hi
  rw [UInt32.add_assoc, ← UInt32.ofNat_add]
  exact h t₀ .refl (k + i) (by omega)

end Machine

theorem dumpLoop_of_stop {m : Machine} {addr len : UInt32} {s : DumpState} (h : s.stop = true) :
    dumpLoop m addr len s = s := dumpLoop_of_leave fun hgo => by simp [h] at hgo

/-- A pass loads the bytes of its chunk while their page is mapped. -/
theorem copyChunk_fetch (m : Machine) (t : Tables) {addr len done : UInt32} (h : done < len) :
    (copyChunk m t (pageOf (addr + done)) (addr + done) (chunkLen addr len done)).bytes
      = window (m.fetch t) (addr + done) (chunkLen addr len done).toNat := by
  obtain ⟨_, _, _, hin⟩ := chunkLen_spec addr h
  refine List.map_congr_left ?_
  intro i hi
  have hlt := List.mem_range.mp hi
  rw [Machine.fetch, pageOf_add (by omega)]

/-- Where the content is constant, a pass copies the beginning of what is left of the window. -/
theorem copyChunk_eq {m : Machine} {content : UInt32 → UInt8} {addr len : UInt32} {s : DumpState}
    (hm : m.Holds content s.lk.tables addr len.toNat) (h : s.done < len) :
    (copyChunk m s.lk.tables (pageOf (addr + s.done)) (addr + s.done)
        (chunkLen addr len s.done)).bytes
      = window content (addr + s.done) (chunkLen addr len s.done).toNat := by
  obtain ⟨_, _, hrest, _⟩ := chunkLen_spec addr h
  have hlt := UInt32.lt_iff_toNat_lt.mp h
  have hwin := hm.window_eq
    (show s.done.toNat + (chunkLen addr len s.done).toNat ≤ len.toNat by omega)
  rw [UInt32.ofNat_toNat] at hwin
  rw [copyChunk_fetch m s.lk.tables h, hwin]

/-- A pass maps and restores one page of the window. -/
theorem dumpPass_meets (m : Machine) (addr : UInt32) {len : UInt32} {s : DumpState}
    (h : s.done < len) :
    m.Meets addr len.toNat s.lk.tables (dumpPass m addr len s).lk.tables := by
  have hmeets : m.Meets addr len.toNat s.lk.tables
      (m.cycle s.lk.tables (pageOf (addr + UInt32.ofNat s.done.toNat))) :=
    .tail .refl (UInt32.lt_iff_toNat_lt.mp h)
  rw [UInt32.ofNat_toNat] at hmeets
  exact hmeets

/-- From `s` on, `e` is what pushing the rest of the window in one pass leaves.  The bytes are
whatever the loads returned; where the content is constant, they are it. -/
def PushesRest (m : Machine) (addr len : UInt32) (s e : DumpState) : Prop :=
  ∃ bs : List UInt8, bs.length = len.toNat - s.done.toNat ∧
    (∀ content, m.Holds content s.lk.tables addr len.toNat →
      bs = window content (addr + s.done) (len.toNat - s.done.toNat)) ∧
    e.done.toNat = s.done.toNat + (pushAll bs s.lk.em).1 ∧
    e.lk.em = (pushAll bs s.lk.em).2.2

section

variable {m : Machine} {addr len : UInt32} {s : DumpState}

theorem pushesRest_of_end (h : len.toNat = s.done.toNat) : PushesRest m addr len s s := by
  refine ⟨[], by simp [h], fun content _ => by simp [window, h], ?_, ?_⟩
  · simp [pushAll]
  · simp [pushAll]

/-- The window is this chunk and what comes after it. -/
theorem window_chunk (h : s.done < len) (load : UInt32 → UInt8) :
    window load (addr + s.done) (len.toNat - s.done.toNat)
      = window load (addr + s.done) (chunkLen addr len s.done).toNat
        ++ window load (addr + (s.done + chunkLen addr len s.done))
          (len.toNat - s.done.toNat - (chunkLen addr len s.done).toNat) := by
  obtain ⟨_, _, hrest, _⟩ := chunkLen_spec addr h
  rw [window_split load (addr + s.done) hrest, UInt32.ofNat_toNat, UInt32.add_assoc]

/-- A pass that was refused a byte: whatever follows is not pushed. -/
theorem pushesRest_of_refused (h : s.done < len) (hst : (dumpPass m addr len s).stop = true) :
    PushesRest m addr len s (dumpPass m addr len s) := by
  obtain ⟨_, _, hrest, _⟩ := chunkLen_spec addr h
  have hlen := len.toNat_lt
  have hlt := UInt32.lt_iff_toNat_lt.mp h
  set n := chunkLen addr len s.done
  set c := copyChunk m s.lk.tables (pageOf (addr + s.done)) (addr + s.done) n
  have hcl : c.bytes.length = n.toNat := length_copyChunk ..
  have hst' : (pushAll c.bytes s.lk.em).2.1 = true := hst
  refine ⟨c.bytes ++ window (m.fetch s.lk.tables) (addr + (s.done + n))
    (len.toNat - s.done.toNat - n.toNat), ?_, ?_, ?_, ?_⟩
  · rw [List.length_append, hcl, length_window]
    omega
  · intro content hm
    have hadd : (s.done + n).toNat = s.done.toNat + n.toNat := by
      rw [UInt32.toNat_add]
      omega
    have hafter := hm.window_eq (k := (s.done + n).toNat)
      (show (s.done + n).toNat + (len.toNat - s.done.toNat - n.toNat) ≤ len.toNat by omega)
    rw [UInt32.ofNat_toNat] at hafter
    rw [window_chunk h, copyChunk_eq hm h, hafter]
  · have hle := pushAll_le_length c.bytes s.lk.em
    rw [pushAll_append, if_pos hst']
    show (s.done + UInt32.ofNat (pushAll c.bytes s.lk.em).1).toNat = _
    rw [UInt32.toNat_add, UInt32.toNat_ofNat']
    omega
  · rw [pushAll_append, if_pos hst']
    rfl

/-- A pass whose whole chunk was accepted: the rest is pushed behind it. -/
theorem pushesRest_of_next {e : DumpState} (h : s.done < len)
    (hst : (dumpPass m addr len s).stop = false)
    (hnext : PushesRest m addr len (dumpPass m addr len s) e) : PushesRest m addr len s e := by
  obtain ⟨_, _, hrest, _⟩ := chunkLen_spec addr h
  have hlt := UInt32.lt_iff_toNat_lt.mp h
  have hdone := dumpPass_done h hst
  set n := chunkLen addr len s.done
  set c := copyChunk m s.lk.tables (pageOf (addr + s.done)) (addr + s.done) n
  have hcl : c.bytes.length = n.toNat := length_copyChunk ..
  have hst' : (pushAll c.bytes s.lk.em).2.1 = false := hst
  obtain ⟨bs, hlen, hcont, hused, hem⟩ := hnext
  refine ⟨c.bytes ++ bs, ?_, ?_, ?_, ?_⟩
  · rw [List.length_append, hcl, hlen]
    omega
  · intro content hm
    have hpos : (dumpPass m addr len s).done = s.done + n := by
      rw [← UInt32.toNat_inj, hdone, UInt32.toNat_add]
      have := len.toNat_lt
      omega
    rw [window_chunk h, copyChunk_eq hm h, hcont content (hm.meets (dumpPass_meets m addr h)), hdone,
      Nat.sub_sub, hpos]
  · rw [hused, hdone, pushAll_append, hst', hcl, if_neg Bool.false_ne_true, Nat.add_assoc]
    rfl
  · rw [hem, pushAll_append, hst', if_neg Bool.false_ne_true]
    rfl

end

/-- **What is left of the loop pushes the rest of the window in one pass.** -/
theorem dumpLoop_eq_pushAll (m : Machine) (addr len : UInt32) (s : DumpState)
    (hdone : s.done.toNat ≤ len.toNat) (hstop : s.stop = false) :
    PushesRest m addr len s (dumpLoop m addr len s) := by
  induction s using pass_induction m addr len with
  | go s h ih =>
    rw [dumpLoop_of_go h]
    by_cases hst : (dumpPass m addr len s).stop = true
    · rw [dumpLoop_of_stop hst]
      exact pushesRest_of_refused h.1 hst
    · rw [Bool.not_eq_true] at hst
      obtain ⟨_, _, hrest, _⟩ := chunkLen_spec addr h.1
      have hlt := UInt32.lt_iff_toNat_lt.mp h.1
      have hnext := dumpPass_done h.1 hst
      exact pushesRest_of_next h.1 hst (ih (by omega) hst)
  | leave s h =>
    rw [dumpLoop_of_leave h]
    refine pushesRest_of_end ?_
    have hnot : ¬ s.done < len := fun hlt => h ⟨hlt, hstop⟩
    rw [UInt32.lt_iff_toNat_lt] at hnot
    omega

/-- What the loop leaves of the tables. -/
theorem dumpLoop_meets (m : Machine) (addr len : UInt32) (s : DumpState) :
    m.Meets addr len.toNat s.lk.tables (dumpLoop m addr len s).lk.tables := by
  induction s using pass_induction m addr len with
  | go s h ih =>
    rw [dumpLoop_of_go h]
    exact (dumpPass_meets m addr h.1).trans ih
  | leave s h =>
    rw [dumpLoop_of_leave h]
    exact .refl

theorem dumpRegion_meets (m : Machine) (addr len : UInt32) (lk : LK) :
    m.Meets addr len.toNat lk.tables (dumpRegion m addr len lk).2.tables :=
  dumpLoop_meets m addr len ⟨0, false, lk⟩

/-- **`dump_region` is one pass over the window, then the flush.** -/
theorem dumpRegion_eq_pushAll (m : Machine) (addr len : UInt32) (lk : LK) :
    ∃ bs : List UInt8, bs.length = len.toNat ∧
      (∀ content, m.Holds content lk.tables addr len.toNat → bs = window content addr len.toNat) ∧
      (dumpRegion m addr len lk).1.toNat = (pushAll bs lk.em).1 ∧
      (dumpRegion m addr len lk).2.em = emitFlush (pushAll bs lk.em).2.2 := by
  obtain ⟨bs, hlen, hcont, hused, hem⟩ :=
    dumpLoop_eq_pushAll m addr len ⟨0, false, lk⟩ (Nat.zero_le _) rfl
  simp only [UInt32.toNat_zero, Nat.sub_zero, UInt32.add_zero, Nat.zero_add] at hlen hcont hused
  refine ⟨bs, hlen, hcont, hused, ?_⟩
  rw [dumpRegion, hem]

/-- **What `dump_region` consumes and sends**, from a reset emitter: it takes what the
typesetter takes, and sends the first lines of the window. -/
theorem dumpRegion_spec (m : Machine) (addr len : UInt32) (b : ℕ) (mode : Mode) (lk : LK) :
    ∃ bs : List UInt8, bs.length = len.toNat ∧
      (∀ content, m.Holds content lk.tables addr len.toNat → bs = window content addr len.toNat) ∧
      (dumpRegion m addr len { lk with em := emitReset b mode lk.em }).1.toNat
        = (Page.blank mode.format).taken b bs ∧
      (dumpRegion m addr len { lk with em := emitReset b mode lk.em }).2.em.sent
        = lk.em.sent ++ ((displayLines mode.format bs).take b).map
            fun l => .info (mode.render l) := by
  obtain ⟨bs, hlen, hcont, hused, hem⟩ :=
    dumpRegion_eq_pushAll m addr len { lk with em := emitReset b mode lk.em }
  obtain ⟨htaken, _, hsets⟩ := pushAll_sets (emitReset_sets b mode lk.em) bs
  refine ⟨bs, hlen, hcont, hused.trans htaken, ?_⟩
  rw [hem, emitFlush_sent hsets, Page.sent_eq_take]

/-! ### What the count of text mode says -/

/-- The INFO lines among the messages. -/
def infos (ms : List FbMsg) : List Line :=
  ms.filterMap fun
    | .info l => some l
    | _ => none

/-- The state at the start of a command: nothing said yet. -/
def LK.quiet (lk : LK) : LK := { lk with em := { lk.em with sent := [] } }

/-- A machine with the MMU off and memory of this content. -/
def Machine.plain (content : UInt32 → UInt8) : Machine := ⟨0, 0, 0, fun _ => content⟩

theorem Machine.plain_holds (content : UInt32 → UInt8) (t₀ : Tables) (addr : UInt32) (n : ℕ) :
    (Machine.plain content).Holds content t₀ addr n := fun _ _ _ _ => rfl

/-- The statics as they are loaded. -/
def LK.boot : LK := ⟨fun _ => 0, ⟨fun _ => 0, 0, 0, .text, []⟩⟩

@[simp] theorem infos_append (ms ns : List FbMsg) : infos (ms ++ ns) = infos ms ++ infos ns :=
  List.filterMap_append

@[simp] theorem infos_map_info {β : Type*} (g : β → Line) (ls : List β) :
    infos (ls.map fun l => .info (g l)) = ls.map g := by
  simp [infos, List.filterMap_map]

theorem window_const (c : UInt8) (addr : UInt32) (n : ℕ) :
    window (fun _ => c) addr n = List.replicate n c := by
  simp [window]

theorem window_take (load : UInt32 → UInt8) (addr : UInt32) {k n : ℕ} (h : k ≤ n) :
    (window load addr n).take k = window load addr k := by
  rw [window, window, ← List.map_take, List.take_range, min_eq_left h]

/-- Text mode, 64 lines: the data lines of one `dump_region` spell out the bytes it
reports as consumed, newlines removed and unprintable bytes shown as dots. -/
def TextAccounting (m : Machine) (content : UInt32 → UInt8) (addr len : UInt32) (lk : LK) : Prop :=
  let r := dumpRegion m addr len { lk with em := emitReset dumpLinesMax .text lk.quiet.em }
  (infos r.2.em.sent).flatten
    = ((window content addr r.1.toNat).filter (· != newline)).map shown

theorem textAccounting_bytes {m : Machine} {content : UInt32 → UInt8} {addr len : UInt32}
    {lk : LK} (hm : m.Holds content lk.tables addr len.toNat) :
    TextAccounting m content addr len lk ↔
      (((displayLines Mode.text.format (window content addr len.toNat)).take dumpLinesMax).map
          Mode.text.render).flatten
        = (((window content addr len.toNat).take ((Page.blank Mode.text.format).taken dumpLinesMax
            (window content addr len.toNat))).filter (· != newline)).map shown := by
  obtain ⟨bs, hlen, hcont, hused, hsent⟩ := dumpRegion_spec m addr len dumpLinesMax .text lk.quiet
  have hle := Page.taken_le_length dumpLinesMax (Page.blank Mode.text.format) bs
  rw [← hcont content hm, TextAccounting]
  show (infos (dumpRegion m addr len { lk.quiet with
      em := emitReset dumpLinesMax .text lk.quiet.em }).2.em.sent).flatten
    = ((window content addr (dumpRegion m addr len { lk.quiet with
      em := emitReset dumpLinesMax .text lk.quiet.em }).1.toNat).filter _).map shown ↔ _
  rw [hsent, hused, infos_append, infos_map_info, ← window_take content addr (hlen ▸ hle),
    ← hcont content hm]
  exact Iff.rfl

/-- **When text mode accounts for what it counts**: exactly when the window has no more
display lines than the budget.  Otherwise up to a whole line that was counted on entering the
line buffer is never sent. -/
theorem textAccounting_iff (m : Machine) (content : UInt32 → UInt8) (addr len : UInt32) (lk : LK)
    (hm : m.Holds content lk.tables addr len.toNat) :
    TextAccounting m content addr len lk ↔
      (displayLines Mode.text.format (window content addr len.toNat)).length ≤ dumpLinesMax :=
  (textAccounting_bytes hm).trans (text_accounting dumpLinesMax _)

theorem textAccounting_iff_sram : TextAccounting (Machine.plain fun _ => 0x41)
    (fun _ => 0x41) 0x0010E000 0x1000 LK.boot ↔
      (displayLines Mode.text.format (window (fun _ => 0x41) 0x0010E000 4096)).length ≤ 64 :=
  textAccounting_iff _ _ _ _ _ (Machine.plain_holds _ _ _ _)

/-- 4096 bytes of `A` at the start of the SRAM log: 64 lines go out, 65 are counted. -/
theorem textAccounting_fails : ¬ TextAccounting (Machine.plain fun _ => 0x41)
    (fun _ => 0x41) 0x0010E000 0x1000 LK.boot := by
  rw [textAccounting_bytes (Machine.plain_holds _ _ _ _), text_accounting]
  intro hle
  have hsize : (0x1000 : UInt32).toNat = 4096 := rfl
  rw [hsize, window_const] at hle
  have hneed := le_length_displayLines_replicate (f := Mode.text.format) (a := 0x41) rfl 4096
  have hmul := Nat.mul_le_mul_left Mode.text.format.width hle
  have : Mode.text.format.width * dumpLinesMax = 3584 := rfl
  omega

end Selene
