/-
Positional numerals, written and read most significant digit first (general
library).

* `value` reads a digit list; `numeral` writes a number without leading zeros
  and `padded` with a fixed number of digits;
* `value_numeral`, `value_padded` — what is written reads back;
* `digitSpan` — the longest digit prefix of a text, for any alphabet given by
  a partial digit function; `digitSpan_map_append` says that a printed numeral
  is found again in front of any text that does not go on with a digit.
-/
import Mathlib

namespace Numeral

/-- The value of a digit list in base `b`. -/
def value (b : ℕ) (ds : List ℕ) : ℕ := ds.foldl (fun v d => v * b + d) 0

@[simp] theorem value_nil (b : ℕ) : value b [] = 0 := rfl

theorem foldl_eq_value (b v : ℕ) (ds : List ℕ) :
    ds.foldl (fun v d => v * b + d) v = v * b ^ ds.length + value b ds := by
  induction ds generalizing v with
  | nil => simp
  | cons d ds ih =>
    rw [value, List.foldl_cons, List.foldl_cons, ih, ih (0 * b + d), List.length_cons]
    ring

theorem value_append (b : ℕ) (ds es : List ℕ) :
    value b (ds ++ es) = value b ds * b ^ es.length + value b es := by
  rw [value, List.foldl_append, foldl_eq_value]
  rfl

theorem value_cons (b d : ℕ) (ds : List ℕ) :
    value b (d :: ds) = d * b ^ ds.length + value b ds := by
  rw [← List.singleton_append, value_append]
  simp [value]

theorem value_reverse (b : ℕ) (ds : List ℕ) : value b ds.reverse = Nat.ofDigits b ds := by
  induction ds with
  | nil => simp
  | cons d ds ih =>
    rw [List.reverse_cons, value_append, ih, Nat.ofDigits_cons]
    simp [value]
    ring

/-- The digits of `n`, without leading zeros but never empty. -/
def numeral (b n : ℕ) : List ℕ := if n = 0 then [0] else (Nat.digits b n).reverse

theorem value_numeral (b n : ℕ) : value b (numeral b n) = n := by
  rw [numeral]
  split
  · rename_i h
    simp [value, h]
  · rw [value_reverse, Nat.ofDigits_digits]

theorem numeral_lt {b n : ℕ} (hb : 1 < b) : ∀ d ∈ numeral b n, d < b := by
  intro d hd
  rw [numeral] at hd
  split at hd
  · rw [List.mem_singleton.mp hd]
    omega
  · exact Nat.digits_lt_base hb (List.mem_reverse.mp hd)

theorem numeral_ne_nil (b n : ℕ) : numeral b n ≠ [] := by
  rw [numeral]
  split
  · simp
  · rename_i h
    simpa [Nat.digits_ne_nil_iff_ne_zero] using h

/-- The last `k` digits of `n`, leading zeros included. -/
def padded (b k n : ℕ) : List ℕ := (List.range k).reverse.map fun i => n / b ^ i % b

@[simp] theorem length_padded (b k n : ℕ) : (padded b k n).length = k := by simp [padded]

theorem padded_succ (b k n : ℕ) : padded b (k + 1) n = n / b ^ k % b :: padded b k n := by
  simp [padded, List.range_succ]

theorem value_padded (b k n : ℕ) : value b (padded b k n) = n % b ^ k := by
  induction k with
  | zero => simp [padded, Nat.mod_one]
  | succ k ih =>
    rw [padded_succ, value_cons, ih, length_padded, pow_succ, Nat.mod_mul]
    ring

theorem padded_lt {b : ℕ} (hb : 0 < b) (k n : ℕ) : ∀ d ∈ padded b k n, d < b := by
  intro d hd
  rw [padded, List.mem_map] at hd
  obtain ⟨i, _, rfl⟩ := hd
  exact Nat.mod_lt _ hb

/-! ### Finding a numeral in a text -/

variable {β : Type*}

/-- The digits of the longest prefix made of digits, and what follows it. -/
def digitSpan (val : β → Option ℕ) : List β → List ℕ × List β
  | [] => ([], [])
  | c :: cs =>
    match val c with
    | none => ([], c :: cs)
    | some d => (d :: (digitSpan val cs).1, (digitSpan val cs).2)

theorem digitSpan_of_head {val : β → Option ℕ} {cs : List β} (h : ∀ c ∈ cs.head?, val c = none) :
    digitSpan val cs = ([], cs) := by
  cases cs with
  | nil => rfl
  | cons c cs => rw [digitSpan, h c (by simp)]

/-- **A printed numeral is found again**, provided the text after it does not
begin with a digit. -/
theorem digitSpan_map_append {val : β → Option ℕ} {enc : ℕ → β} {ds : List ℕ}
    (henc : ∀ d ∈ ds, val (enc d) = some d) {cs : List β} (h : ∀ c ∈ cs.head?, val c = none) :
    digitSpan val (ds.map enc ++ cs) = (ds, cs) := by
  induction ds with
  | nil => exact digitSpan_of_head h
  | cons d ds ih =>
    rw [List.map_cons, List.cons_append, digitSpan, henc d (List.mem_cons_self ..)]
    simp only [ih fun e he => henc e (List.mem_cons_of_mem _ he)]

end Numeral
