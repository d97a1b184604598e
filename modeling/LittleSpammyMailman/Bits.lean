/-
Masks as sets of places (general library).

* `places` — the places below `n` that are set in a mask, and `Small` — no
  other place is;
* `places_or_bit`, `places_and_not_bit` — setting and clearing one place;
* `eq_iff_places` — a small mask is its set of places.
-/
import Mathlib

namespace Bits

variable {w n : ℕ}

/-- The places below `n` that are set. -/
def places (n : ℕ) (m : BitVec w) : Finset (Fin n) := Finset.univ.filter fun i => m.getLsbD i

/-- No place from `n` on is set. -/
def Small (n : ℕ) (m : BitVec w) : Prop := ∀ i, n ≤ i → m.getLsbD i = false

/-- The mask of one place. -/
def bit (w : ℕ) (i : Fin n) : BitVec w := 1#w <<< i.val

@[simp] theorem mem_places {m : BitVec w} {i : Fin n} : i ∈ places n m ↔ m.getLsbD i = true := by
  simp [places]

theorem getLsbD_bit (i : Fin n) (j : ℕ) :
    (bit w i).getLsbD j = (decide (j < w) && decide (j = i)) := by
  rw [bit, BitVec.getLsbD_shiftLeft, BitVec.getLsbD_one]
  by_cases hj : j < w <;> by_cases hji : j = i.val <;> simp [hj, hji] <;> omega

@[simp] theorem places_zero : places n (0#w) = ∅ := by
  ext i
  simp

theorem small_zero : Small n (0#w) := fun _ _ => BitVec.getLsbD_zero

theorem places_or_bit (h : n ≤ w) (m : BitVec w) (i : Fin n) :
    places n (m ||| bit w i) = insert i (places n m) := by
  ext j
  have hj : j.val < w := by omega
  rw [mem_places, BitVec.getLsbD_or, getLsbD_bit, Finset.mem_insert, mem_places, Fin.ext_iff]
  simp only [hj, decide_true, Bool.true_and, Bool.or_eq_true, decide_eq_true_eq]
  exact or_comm

theorem places_and_not_bit (h : n ≤ w) (m : BitVec w) (i : Fin n) :
    places n (m &&& ~~~ bit w i) = (places n m).erase i := by
  ext j
  have hj : j.val < w := by omega
  rw [mem_places, BitVec.getLsbD_and, BitVec.getLsbD_not, getLsbD_bit, Finset.mem_erase, mem_places,
    Ne, Fin.ext_iff]
  simp only [hj, decide_true, Bool.true_and, Bool.and_eq_true, Bool.not_eq_true',
    decide_eq_false_iff_not]
  exact and_comm

theorem Small.or_bit {m : BitVec w} (h : Small n m) (i : Fin n) : Small n (m ||| bit w i) := by
  intro j hj
  have hji : j ≠ i.val := by omega
  rw [BitVec.getLsbD_or, h j hj, getLsbD_bit, decide_eq_false hji, Bool.and_false, Bool.or_false]

theorem Small.and {m : BitVec w} (h : Small n m) (k : BitVec w) : Small n (m &&& k) := by
  intro j hj
  rw [BitVec.getLsbD_and, h j hj, Bool.false_and]

/-- A place is clear if the mask of it meets nothing. -/
theorem and_bit_eq_zero_iff (h : n ≤ w) {m : BitVec w} {i : Fin n} :
    m &&& bit w i = 0#w ↔ i ∉ places n m := by
  rw [mem_places, Bool.not_eq_true]
  constructor
  · intro hz
    have hi := congrArg (·.getLsbD i.val) hz
    have hlt : i.val < w := by omega
    simpa only [BitVec.getLsbD_and, getLsbD_bit, hlt, decide_true, Bool.true_and, Bool.and_true,
      BitVec.getLsbD_zero] using hi
  · intro hclear
    refine BitVec.eq_of_getLsbD_eq fun j hj => ?_
    rw [BitVec.getLsbD_and, getLsbD_bit, BitVec.getLsbD_zero, decide_eq_true hj, Bool.true_and]
    by_cases hji : j = i.val
    · rw [hji, hclear, Bool.false_and]
    · rw [decide_eq_false hji, Bool.and_false]

/-- **A small mask is its set of places.** -/
theorem eq_iff_places {m k : BitVec w} (hm : Small n m) (hk : Small n k) :
    m = k ↔ places n m = places n k := by
  constructor
  · rintro rfl
    rfl
  · intro h
    refine BitVec.eq_of_getLsbD_eq fun j _ => ?_
    by_cases hj : j < n
    · have hiff := Finset.ext_iff.mp h ⟨j, hj⟩
      rw [mem_places, mem_places] at hiff
      exact Bool.eq_iff_iff.mpr hiff
    · rw [hm j (not_lt.mp hj), hk j (not_lt.mp hj)]

/-! ### A bit set or cleared in a word -/

/-- Set the bits of `m`, or clear them. -/
def put (m : BitVec w) (b : Bool) (x : BitVec w) : BitVec w := if b then x ||| m else x &&& ~~~ m

/-- The bits of `m` are what was put there; the others stay. -/
theorem getLsbD_put (m : BitVec w) (b : Bool) (x : BitVec w) (i : ℕ) :
    (put m b x).getLsbD i = if m.getLsbD i then b else x.getLsbD i := by
  by_cases hi : i < w
  · cases b with
    | true =>
      rw [put, if_pos rfl, BitVec.getLsbD_or]
      cases m.getLsbD i <;> simp
    | false =>
      rw [put, if_neg Bool.false_ne_true, BitVec.getLsbD_and, BitVec.getLsbD_not, decide_eq_true hi]
      cases m.getLsbD i <;> simp
  · rw [BitVec.getLsbD_of_ge _ i (not_lt.mp hi), BitVec.getLsbD_of_ge m i (not_lt.mp hi),
      BitVec.getLsbD_of_ge x i (not_lt.mp hi), if_neg Bool.false_ne_true]

/-! ### A mask kept in a wider word -/

variable {v : ℕ}

/-- A small mask, sign-extended, reads back. -/
theorem setWidth_signExtend (h : w ≤ v) (m : BitVec w) : (m.signExtend v).setWidth w = m := by
  refine BitVec.eq_of_getLsbD_eq fun i hi => ?_
  have hv : i < v := by omega
  rw [BitVec.getLsbD_setWidth, BitVec.getLsbD_signExtend, if_pos hi, decide_eq_true hi,
    decide_eq_true hv, Bool.true_and, Bool.true_and]

theorem Small.signExtend {m : BitVec w} (h : Small n m) (hn : n < w) :
    Small n (m.signExtend v) := by
  intro i hi
  have hmsb : m.msb = false := by
    rw [BitVec.msb_eq_getLsbD_last]
    exact h _ (by omega)
  rw [BitVec.getLsbD_signExtend]
  split_ifs
  · rw [h i hi, Bool.and_false]
  · rw [hmsb, Bool.and_false]

theorem Small.setWidth {m : BitVec w} (h : Small n m) : Small n (m.setWidth v) := by
  intro i hi
  rw [BitVec.getLsbD_setWidth, h i hi, Bool.and_false]

theorem places_setWidth (h : n ≤ v) (m : BitVec w) : places n (m.setWidth v) = places n m := by
  ext i
  have hi : i.val < v := by omega
  rw [mem_places, mem_places, BitVec.getLsbD_setWidth, decide_eq_true hi, Bool.true_and]

end Bits
