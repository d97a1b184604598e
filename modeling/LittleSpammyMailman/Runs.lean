/-
Maximal runs of a predicate on the places below a bound (general library).

* `IsRun` — `[s, e)` is a non-empty interval on which the predicate holds and
  that cannot be widened;
* `scan` — one pass that keeps the runs that have ended and the start of the
  open one; `Scanned` is its invariant and `scanned_visit` its step;
* `mem_runs_iff`, `pairwise_runs` — a pass finds every run, from left to right,
  and nothing else.
-/
import Mathlib

namespace Runs

variable {p : ℕ → Bool} {n : ℕ}

/-- `[s, e)` is a maximal non-empty interval of places below `n` where `p` holds. -/
structure IsRun (p : ℕ → Bool) (n s e : ℕ) : Prop where
  lt : s < e
  le : e ≤ n
  inside : ∀ i, s ≤ i → i < e → p i = true
  before : s = 0 ∨ p (s - 1) = false
  after : e = n ∨ p e = false

namespace IsRun

variable {s e s' e' : ℕ}

/-- A run that ends earlier has ended before the other begins. -/
theorem lt_of_lt (h : IsRun p n s e) (h' : IsRun p n s' e') (hlt : e < e') : e < s' := by
  have hle := h'.le
  have hend : p e = false := h.after.resolve_left (by omega)
  by_contra hge
  rw [h'.inside e (by omega) hlt] at hend
  exact absurd hend (by simp)

/-- A run is determined by its end. -/
theorem start_unique (h : IsRun p n s e) (h' : IsRun p n s' e) : s = s' := by
  have key : ∀ {a b : ℕ}, IsRun p n a e → IsRun p n b e → ¬ a < b := by
    intro a b ha hb hab
    have hout : p (b - 1) = false := hb.before.resolve_left (by omega)
    have := hb.lt
    rw [ha.inside (b - 1) (by omega) (by omega)] at hout
    exact absurd hout (by simp)
  have h1 := key h h'
  have h2 := key h' h
  omega

/-- The last place of a run. -/
theorem last (h : IsRun p n s e) : p (e - 1) = true :=
  h.inside _ (by have := h.lt; omega) (by have := h.lt; omega)

/-- A run that has ended is a run of any larger segment, and the other way round. -/
theorem succ_iff (hp : e = n → p n = false) :
    (e < n + 1 ∧ IsRun p (n + 1) s e) ↔ IsRun p n s e := by
  constructor
  · rintro ⟨he, h⟩
    refine ⟨h.lt, by omega, h.inside, h.before, Or.inr ?_⟩
    exact h.after.resolve_left (by omega)
  · intro h
    have hle := h.le
    refine ⟨by omega, h.lt, by omega, h.inside, h.before, Or.inr ?_⟩
    rcases h.after with rfl | hend
    · exact hp rfl
    · exact hend

end IsRun

/-- The runs that have ended, and where the open one began. -/
structure Scan where
  closed : List (ℕ × ℕ)
  start : Option ℕ

/-- All runs, if the scan ends at `n`. -/
def Scan.runs (s : Scan) (n : ℕ) : List (ℕ × ℕ) :=
  s.closed ++ (s.start.map fun b => (b, n)).toList

/-- Place `i`: it opens or lengthens a run, or ends the open one. -/
def visit (p : ℕ → Bool) (s : Scan) (i : ℕ) : Scan :=
  if p i then ⟨s.closed, some (s.start.getD i)⟩ else ⟨s.runs i, none⟩

def scan (p : ℕ → Bool) (n : ℕ) : Scan := (List.range n).foldl (visit p) ⟨[], none⟩

theorem scan_succ (p : ℕ → Bool) (n : ℕ) : scan p (n + 1) = visit p (scan p n) n := by
  rw [scan, List.range_succ, List.foldl_append]
  rfl

/-- What a scan of the places below `n` has found. -/
structure Scanned (p : ℕ → Bool) (n : ℕ) (s : Scan) : Prop where
  closed_iff : ∀ b e, (b, e) ∈ s.closed ↔ e < n ∧ IsRun p n b e
  start_some : ∀ b, s.start = some b → IsRun p n b n
  start_none : s.start = none → n = 0 ∨ p (n - 1) = false
  sorted : s.closed.Pairwise fun x y => x.2 < y.1

namespace Scanned

variable {s : Scan}

theorem mem_runs_iff (h : Scanned p n s) {b e : ℕ} : (b, e) ∈ s.runs n ↔ IsRun p n b e := by
  rw [Scan.runs, List.mem_append, h.closed_iff]
  constructor
  · rintro (⟨_, hrun⟩ | hopen)
    · exact hrun
    · obtain ⟨b', hb', heq⟩ := Option.map_eq_some_iff.mp (Option.mem_toList.mp hopen)
      obtain ⟨rfl, rfl⟩ := Prod.mk.inj heq
      exact h.start_some _ hb'
  · intro hrun
    rcases Nat.lt_or_ge e n with hlt | hge
    · exact Or.inl ⟨hlt, hrun⟩
    · -- a run that reaches the end is the open one
      right
      obtain rfl : e = n := le_antisymm hrun.le hge
      cases hs : s.start with
      | none =>
        have hpos := hrun.lt
        have hlast := hrun.last
        rw [(h.start_none hs).resolve_left (by omega)] at hlast
        exact absurd hlast (by simp)
      | some b' =>
        rw [hrun.start_unique (h.start_some b' hs)]
        simp

theorem pairwise_runs (h : Scanned p n s) : (s.runs n).Pairwise fun x y => x.2 < y.1 := by
  rw [Scan.runs, List.pairwise_append]
  refine ⟨h.sorted, ?_, ?_⟩
  · cases s.start <;> simp
  · rintro ⟨b, e⟩ hx y hy
    obtain ⟨b', hb', rfl⟩ := Option.map_eq_some_iff.mp (Option.mem_toList.mp hy)
    obtain ⟨hlt, hrun⟩ := (h.closed_iff b e).mp hx
    exact hrun.lt_of_lt (h.start_some b' hb') hlt

/-- **One place** keeps the invariant. -/
theorem visit (h : Scanned p n s) : Scanned p (n + 1) (visit p s n) := by
  rw [Runs.visit]
  by_cases hp : p n = true
  · rw [if_pos hp]
    refine ⟨?_, ?_, ?_, h.sorted⟩
    · intro b e
      rw [h.closed_iff]
      constructor
      · rintro ⟨hlt, hrun⟩
        exact (IsRun.succ_iff fun he => absurd he (by omega)).mpr hrun
      · rintro ⟨hlt, hrun⟩
        -- no run ends where `p` holds
        have hne : e ≠ n := by
          rintro rfl
          have hend := hrun.after.resolve_left (by omega)
          rw [hp] at hend
          exact absurd hend (by simp)
        exact ⟨by omega, (IsRun.succ_iff fun he => absurd he hne).mp ⟨hlt, hrun⟩⟩
    · intro b hb
      cases hs : s.start with
      | none =>
        -- a run begins here
        rw [hs, Option.getD_none, Option.some.injEq] at hb
        subst hb
        refine ⟨by omega, le_rfl, ?_, h.start_none hs, Or.inl rfl⟩
        intro i h1 h2
        rwa [show i = n by omega]
      | some b' =>
        -- the open run goes on
        rw [hs, Option.getD_some, Option.some.injEq] at hb
        subst hb
        have hrun := h.start_some b' hs
        have hlt := hrun.lt
        refine ⟨by omega, le_rfl, ?_, hrun.before, Or.inl rfl⟩
        intro i h1 h2
        rcases Nat.lt_or_ge i n with hi | hi
        · exact hrun.inside i h1 hi
        · rwa [show i = n by omega]
    · intro hnone
      exact absurd hnone (by simp)
  · rw [if_neg hp]
    rw [Bool.not_eq_true] at hp
    refine ⟨?_, fun b hb => absurd hb (by simp), fun _ => Or.inr hp, h.pairwise_runs⟩
    intro b e
    rw [IsRun.succ_iff fun _ => hp]
    exact h.mem_runs_iff

end Scanned

theorem scanned_scan (p : ℕ → Bool) (n : ℕ) : Scanned p n (scan p n) := by
  induction n with
  | zero =>
    refine ⟨?_, fun b hb => absurd hb (by simp [scan]), fun _ => Or.inl rfl, by simp [scan]⟩
    intro b e
    simp [scan]
  | succ n ih =>
    rw [scan_succ]
    exact ih.visit

/-- **A pass finds exactly the maximal runs.** -/
theorem mem_runs_iff (p : ℕ → Bool) (n : ℕ) {b e : ℕ} :
    (b, e) ∈ (scan p n).runs n ↔ IsRun p n b e := (scanned_scan p n).mem_runs_iff

/-- **The runs come from left to right**, with a gap in between. -/
theorem pairwise_runs (p : ℕ → Bool) (n : ℕ) :
    ((scan p n).runs n).Pairwise fun x y => x.2 < y.1 := (scanned_scan p n).pairwise_runs

end Runs
