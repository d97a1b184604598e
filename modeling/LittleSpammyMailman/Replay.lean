/-
Sequences of effects on a state (general library).

* `replay` — the state after a sequence of effects;
* `Always` — a relation between every effect and the state it meets;
  `always_iff` says it with the effects that come before;
* `still`, `flatMap` — the rules for effects that change nothing, and for
  a concatenation of sequences each of which restores the state.
-/
import Mathlib

namespace Replay

variable {σ ε : Type*} {apply : σ → ε → σ} {P : σ → ε → Prop}

/-- The state after the effects. -/
def replay (apply : σ → ε → σ) (s : σ) (es : List ε) : σ := es.foldl apply s

@[simp] theorem replay_nil (s : σ) : replay apply s [] = s := rfl

@[simp] theorem replay_cons (s : σ) (e : ε) (es : List ε) :
    replay apply s (e :: es) = replay apply (apply s e) es := rfl

theorem replay_append (s : σ) (es fs : List ε) :
    replay apply s (es ++ fs) = replay apply (replay apply s es) fs := List.foldl_append

/-- `P` relates every effect to the state it meets. -/
def Always (apply : σ → ε → σ) (P : σ → ε → Prop) : σ → List ε → Prop
  | _, [] => True
  | s, e :: es => P s e ∧ Always apply P (apply s e) es

theorem always_append {s : σ} {es fs : List ε} :
    Always apply P s (es ++ fs) ↔
      Always apply P s es ∧ Always apply P (replay apply s es) fs := by
  induction es generalizing s with
  | nil => simp [Always]
  | cons e es ih =>
    rw [List.cons_append, Always, Always, ih, replay_cons, and_assoc]

/-- **The state an effect meets** is what the effects before it leave. -/
theorem always_iff {s : σ} {es : List ε} :
    Always apply P s es ↔ ∀ pre e post, es = pre ++ e :: post → P (replay apply s pre) e := by
  constructor
  · rintro h pre e post rfl
    exact (always_append.mp h).2.1
  · intro h
    induction es generalizing s with
    | nil => trivial
    | cons e es ih =>
      refine ⟨h [] e es rfl, ih ?_⟩
      intro pre f post hes
      exact h (e :: pre) f post (by rw [hes, List.cons_append])

/-- Effects that change nothing all meet the same state. -/
theorem still {s : σ} {es : List ε} (h : ∀ e ∈ es, apply s e = s) :
    replay apply s es = s ∧ (Always apply P s es ↔ ∀ e ∈ es, P s e) := by
  induction es with
  | nil => exact ⟨rfl, by simp [Always]⟩
  | cons e es ih =>
    obtain ⟨h1, h2⟩ := ih fun f hf => h f (List.mem_cons_of_mem _ hf)
    rw [replay_cons, Always, h e (List.mem_cons_self ..), List.forall_mem_cons]
    exact ⟨h1, and_congr_right fun _ => h2⟩

/-- **Sequences that restore the state**, one after another. -/
theorem flatMap {β : Type*} {s : σ} {f : β → List ε} {xs : List β}
    (h : ∀ x ∈ xs, replay apply s (f x) = s ∧ Always apply P s (f x)) :
    replay apply s (xs.flatMap f) = s ∧ Always apply P s (xs.flatMap f) := by
  induction xs with
  | nil => exact ⟨rfl, trivial⟩
  | cons x xs ih =>
    obtain ⟨h1, h2⟩ := ih fun y hy => h y (List.mem_cons_of_mem _ hy)
    obtain ⟨hx1, hx2⟩ := h x (List.mem_cons_self ..)
    rw [List.flatMap_cons, replay_append, always_append, hx1]
    exact ⟨h1, hx2, h2⟩

end Replay
