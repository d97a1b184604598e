/-
A ring of the last entries (general library).

`push` stores at a cursor that wraps; `pushAll_slot` says what each slot holds
after any sequence of entries.
-/
import Mathlib

namespace RingBuffer

variable {α : Type*} {n : ℕ}

/-- The slots, and where the next entry goes. -/
structure Slots (α : Type*) (n : ℕ) where
  slots : Fin n → Option α
  idx : ℕ

/-- Nothing stored. -/
def empty (α : Type*) (n : ℕ) : Slots α n := ⟨fun _ => none, 0⟩

/-- Store at the cursor, if it is in the ring, and move on. -/
def push (r : Slots α n) (x : α) : Slots α n where
  slots := if h : r.idx < n then Function.update r.slots ⟨r.idx, h⟩ (some x) else r.slots
  idx := (r.idx + 1) % n

def pushAll (r : Slots α n) (xs : List α) : Slots α n := xs.foldl push r

theorem pushAll_concat (r : Slots α n) (xs : List α) (x : α) :
    pushAll r (xs ++ [x]) = push (pushAll r xs) x := List.foldl_concat ..

theorem pushAll_idx (xs : List α) : (pushAll (empty α n) xs).idx = xs.length % n := by
  induction xs using List.reverseRecOn with
  | nil => exact (Nat.zero_mod n).symm
  | append_singleton xs x ih =>
    rw [pushAll_concat, push, ih, List.length_append, List.length_singleton, Nat.mod_add_mod]

/-- **What a slot holds**: the last entry whose number is the slot's, and none but the last `n`. -/
theorem pushAll_slot (xs : List α) (j : Fin n) (x : α) :
    (pushAll (empty α n) xs).slots j = some x ↔
      ∃ k, xs[k]? = some x ∧ k % n = j ∧ xs.length ≤ k + n := by
  have hn : 0 < n := j.pos
  induction xs using List.reverseRecOn generalizing x with
  | nil => simp [pushAll, empty]
  | append_singleton xs y ih =>
    have hidx : xs.length % n < n := Nat.mod_lt _ hn
    rw [pushAll_concat, push]
    dsimp only
    rw [dif_pos (by rwa [pushAll_idx])]
    by_cases hj : j = ⟨(pushAll (empty α n) xs).idx, by rwa [pushAll_idx]⟩
    · -- the slot of the new entry; an older one of its number is too far back
      have hjn : (j : ℕ) = xs.length % n := (congrArg Fin.val hj).trans (pushAll_idx xs)
      rw [hj, Function.update_self, ← hj, Option.some.injEq]
      constructor
      · rintro rfl
        exact ⟨xs.length, by simp, hjn.symm, by simp; omega⟩
      · rintro ⟨k, hk, hkj, hlen⟩
        rw [List.length_append, List.length_singleton] at hlen
        have hkle : k ≤ xs.length := by
          have := (List.getElem?_eq_some_iff.mp hk).1
          rw [List.length_append, List.length_singleton] at this
          omega
        obtain rfl : k = xs.length := by
          by_contra hne
          have hdvd : n ∣ xs.length - k := (Nat.modEq_iff_dvd' hkle).mp (hkj.trans hjn)
          have := Nat.le_of_dvd (by omega) hdvd
          omega
        simpa using hk
    · rw [Function.update_of_ne hj]
      refine (ih x).trans ?_
      have hjn : (j : ℕ) ≠ xs.length % n := by
        rw [← pushAll_idx]
        exact fun h => hj (Fin.ext h)
      constructor
      · rintro ⟨k, hk, hkj, hlen⟩
        have hlt := (List.getElem?_eq_some_iff.mp hk).1
        refine ⟨k, by rwa [List.getElem?_append_left hlt], hkj, ?_⟩
        rw [List.length_append, List.length_singleton]
        -- the one `n` places back has the number of the new entry
        by_contra hfar
        obtain hback : xs.length = k + n := by omega
        exact hjn (by rw [hback, Nat.add_mod_right, hkj])
      · rintro ⟨k, hk, hkj, hlen⟩
        rw [List.length_append, List.length_singleton] at hlen
        have hlt : k < xs.length := by
          have hle := (List.getElem?_eq_some_iff.mp hk).1
          rw [List.length_append, List.length_singleton] at hle
          refine lt_of_le_of_ne (by omega) ?_
          rintro rfl
          exact hjn hkj.symm
        exact ⟨k, by rwa [List.getElem?_append_left hlt] at hk, hkj, by omega⟩

end RingBuffer
