/-
Loops that leave by a result (general library).

One pass of a loop is a function `step : σ → σ ⊕ ε`: go on with a new state,
or leave with a result.

* `iterate` — the total loop, for a step that decreases a measure, and `trace`,
  the states it passes;
* `run` — the loop with fuel, for a step that need not terminate;
* `trace_rule`, `run_rule` — the invariant rules (the second also finds enough
  fuel), and `run_unique` — the result does not depend on the fuel;
* `exists_walk` — how many steps a cursor needs to reach the end when every
  step covers at least `q` places or the whole rest.
-/
import Mathlib

namespace Loop

variable {σ ε : Type*}

/-- The loop whose step decreases `meas` whenever it goes on. -/
def iterate (step : σ → σ ⊕ ε) (meas : σ → ℕ)
    (dec : ∀ s s', step s = .inl s' → meas s' < meas s) (s : σ) : ε :=
  match _h : step s with
  | .inl s' => iterate step meas dec s'
  | .inr e => e
  termination_by meas s
  decreasing_by exact dec s s' _h

/-- The states from which the loop goes on, in order. -/
def trace (step : σ → σ ⊕ ε) (meas : σ → ℕ)
    (dec : ∀ s s', step s = .inl s' → meas s' < meas s) (s : σ) : List σ :=
  match _h : step s with
  | .inl s' => s :: trace step meas dec s'
  | .inr _ => []
  termination_by meas s
  decreasing_by exact dec s s' _h

section

variable {step : σ → σ ⊕ ε} {meas : σ → ℕ}
  {dec : ∀ s s', step s = .inl s' → meas s' < meas s} {s s' : σ} {e : ε}

theorem iterate_of_inl (h : step s = .inl s') :
    iterate step meas dec s = iterate step meas dec s' := by
  rw [iterate]
  split
  · rename_i t ht
    rw [h] at ht
    rw [Sum.inl.inj ht]
  · rename_i e he
    rw [h] at he
    exact absurd he (by simp)

theorem iterate_of_inr (h : step s = .inr e) : iterate step meas dec s = e := by
  rw [iterate]
  split
  · rename_i t ht
    rw [h] at ht
    exact absurd ht (by simp)
  · rename_i e' he
    rw [h] at he
    exact (Sum.inr.inj he).symm

theorem trace_of_inl (h : step s = .inl s') :
    trace step meas dec s = s :: trace step meas dec s' := by
  rw [trace]
  split
  · rename_i t ht
    rw [h] at ht
    rw [Sum.inl.inj ht]
  · rename_i e he
    rw [h] at he
    exact absurd he (by simp)

theorem trace_of_inr (h : step s = .inr e) : trace step meas dec s = [] := by
  rw [trace]
  split
  · rename_i t ht
    rw [h] at ht
    exact absurd ht (by simp)
  · rfl

/-- **Invariant rule for the states passed**, and for the one the loop leaves from. -/
theorem trace_rule {Inv : σ → Prop}
    (hgo : ∀ t ∈ trace step meas dec s, ∀ t', Inv t → step t = .inl t' → Inv t') (hs : Inv s) :
    (∀ t ∈ trace step meas dec s, Inv t ∧ ∃ t', step t = .inl t') ∧
      ∃ u, Inv u ∧ step u = .inr (iterate step meas dec s) := by
  induction s using iterate.induct step meas dec with
  | case1 s s' h ih =>
    rw [trace_of_inl h] at hgo ⊢
    rw [iterate_of_inl h]
    obtain ⟨hall, hlast⟩ := ih (fun t ht => hgo t (List.mem_cons_of_mem _ ht))
      (hgo s (List.mem_cons_self ..) s' hs h)
    refine ⟨?_, hlast⟩
    intro t ht
    rcases List.mem_cons.mp ht with rfl | ht
    · exact ⟨hs, s', h⟩
    · exact hall t ht
  | case2 s e h =>
    rw [trace_of_inr h, iterate_of_inr h]
    exact ⟨fun t ht => absurd ht (by simp), s, hs, h⟩

end

/-- The loop with fuel. -/
def run (step : σ → σ ⊕ ε) : ℕ → σ → Option ε
  | 0, _ => none
  | n + 1, s =>
    match step s with
    | .inl s' => run step n s'
    | .inr e => some e

theorem run_mono {step : σ → σ ⊕ ε} {n m : ℕ} (h : n ≤ m) {s : σ} {e : ε}
    (hrun : run step n s = some e) : run step m s = some e := by
  induction n generalizing m s with
  | zero => simp [run] at hrun
  | succ n ih =>
    obtain ⟨m, rfl⟩ : ∃ m', m = m' + 1 := ⟨m - 1, by omega⟩
    rw [run] at hrun ⊢
    cases hs : step s with
    | inl s' =>
      rw [hs] at hrun
      exact ih (by omega) hrun
    | inr e' =>
      rw [hs] at hrun
      exact hrun

/-- The result of a loop does not depend on the fuel. -/
theorem run_unique {step : σ → σ ⊕ ε} {n m : ℕ} {s : σ} {e e' : ε}
    (h : run step n s = some e) (h' : run step m s = some e') : e = e' := by
  have h1 := run_mono (le_max_left n m) h
  have h2 := run_mono (le_max_right n m) h'
  exact Option.some.inj (h1.symm.trans h2)

/-- The total loop is the loop with as much fuel as the measure says. -/
theorem run_iterate {step : σ → σ ⊕ ε} {meas : σ → ℕ}
    (dec : ∀ s s', step s = .inl s' → meas s' < meas s) (s : σ) :
    run step (meas s + 1) s = some (iterate step meas dec s) := by
  induction s using iterate.induct step meas dec with
  | case1 s s' h ih =>
    rw [iterate_of_inl h, run, h]
    exact run_mono (dec s s' h) ih
  | case2 s e h => rw [iterate_of_inr h, run, h]

/-- **Invariant rule for the loop with fuel**, with a measure that bounds the fuel. -/
theorem run_rule {step : σ → σ ⊕ ε} {meas : σ → ℕ} {Inv : σ → Prop} {Post : ε → Prop}
    (hgo : ∀ s s', Inv s → step s = .inl s' → Inv s' ∧ meas s' < meas s)
    (hleave : ∀ s e, Inv s → step s = .inr e → Post e) {s : σ} (hs : Inv s) :
    ∃ e, run step (meas s + 1) s = some e ∧ Post e := by
  -- by strong induction on the measure, which is also the fuel
  generalize hm : meas s = m
  induction m using Nat.strong_induction_on generalizing s with
  | _ m ih =>
    cases h : step s with
    | inl s' =>
      obtain ⟨hs', hlt⟩ := hgo s s' hs h
      obtain ⟨e, he, hpost⟩ := ih (meas s') (by omega) hs' rfl
      refine ⟨e, ?_, hpost⟩
      rw [run, h]
      exact run_mono (by omega) he
    | inr e => exact ⟨e, by rw [run, h], hleave s e hs h⟩

/-- **A cursor that covers at least `q` places a step, or the whole rest**, moves
forward at every step, never passes the end and arrives in `⌈rest / q⌉` steps. -/
theorem exists_walk {step : σ → σ} {pos : σ → ℕ} {Inv : σ → Prop} {total q : ℕ} (hq : 0 < q)
    (hstep : ∀ s, Inv s → pos s < total →
      Inv (step s) ∧ pos s + min q (total - pos s) ≤ pos (step s) ∧ pos (step s) ≤ total)
    {s : σ} (hs : Inv s) (hpos : pos s ≤ total) :
    ∃ n ≤ (total - pos s + q - 1) / q, pos (step^[n] s) = total ∧
      ∀ i < n, Inv (step^[i] s) ∧ pos (step^[i] s) < pos (step^[i + 1] s) ∧
        pos (step^[i + 1] s) ≤ total := by
  -- by strong induction on the rest
  generalize hr : total - pos s = r
  induction r using Nat.strong_induction_on generalizing s with
  | _ r ih =>
    by_cases hend : pos s = total
    · exact ⟨0, Nat.zero_le _, hend, fun i hi => absurd hi (Nat.not_lt_zero i)⟩
    · obtain ⟨hs', hlo, hhi⟩ := hstep s hs (by omega)
      obtain ⟨n, hn, hlast, hall⟩ := ih (total - pos (step s)) (by omega) hs' hhi rfl
      refine ⟨n + 1, ?_, hlast, fun i hi => ?_⟩
      -- a step takes one off the quotient, except the last, which takes the whole rest
      · have hcount : (total - pos (step s) + q - 1) / q + 1 ≤ (r + q - 1) / q := by
          rcases Nat.lt_or_ge r q with hsmall | hbig
          · have hlast : (total - pos (step s) + q - 1) / q = 0 := Nat.div_eq_of_lt (by omega)
            have hone : 0 < (r + q - 1) / q := Nat.div_pos (by omega) hq
            omega
          · rw [← Nat.add_div_right _ hq]
            exact Nat.div_le_div_right (by omega)
        omega
      · cases i with
        | zero => exact ⟨hs, by simp only [Function.iterate_succ, Function.iterate_zero,
            Function.comp, id]; omega, hhi⟩
        | succ i => exact hall i (by omega)

end Loop
