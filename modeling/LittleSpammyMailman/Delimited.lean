/-
Encodings that end where they end: what follows one in a text can be told from
it without a mark (general library).

* `Delimits P enc` — no two encodings of things with `P` run into each other;
* `Delimits.terminated`, `Delimits.fixed` — a word with a last letter of its
  own, a word of known length;
* `Delimits.literal`, `Delimits.pair`, `Delimits.comp` — a fixed word in front, one
  encoding after another that depends on it, and a change of what is encoded;
* `Delimits.many`, `Delimits.until_word` — a known number of encodings, and as
  many as come before a closing word.
-/
import Mathlib

variable {α β γ : Type*}

/-- What was encoded, and the rest of the text, can be told from the text. -/
def Delimits (P : α → Prop) (enc : α → List β) : Prop :=
  ∀ ⦃a b : α⦄ ⦃r s : List β⦄, P a → P b → enc a ++ r = enc b ++ s → a = b ∧ r = s

namespace Delimits

variable {P : α → Prop} {enc : α → List β}

/-- Nothing need follow. -/
theorem inj (h : Delimits P enc) {a b : α} (ha : P a) (hb : P b) (heq : enc a = enc b) : a = b :=
  (h ha hb (show enc a ++ [] = enc b ++ [] by rw [heq])).1

theorem mono {Q : α → Prop} (h : Delimits P enc) (hQ : ∀ a, Q a → P a) : Delimits Q enc :=
  fun _ _ _ _ ha hb heq => h (hQ _ ha) (hQ _ hb) heq

theorem congr {enc' : α → List β} (h : Delimits P enc) (heq : ∀ a, P a → enc' a = enc a) :
    Delimits P enc' := by
  intro a b r s ha hb happ
  rw [heq a ha, heq b hb] at happ
  exact h ha hb happ

/-- A word that ends at the first `c`. -/
theorem terminated (c : β) : Delimits (c ∉ ·) fun w : List β => w ++ [c] := by
  intro v w r s hv hw heq
  induction v generalizing w with
  | nil =>
    cases w with
    | nil => exact ⟨rfl, (List.cons.inj heq).2⟩
    | cons d w =>
      obtain ⟨rfl, -⟩ := List.cons.inj heq
      exact absurd (List.mem_cons_self ..) hw
  | cons d v ih =>
    cases w with
    | nil =>
      obtain ⟨rfl, -⟩ := List.cons.inj heq
      exact absurd (List.mem_cons_self ..) hv
    | cons e w =>
      obtain ⟨rfl, htail⟩ := List.cons.inj heq
      obtain ⟨rfl, rfl⟩ := ih (List.not_mem_of_not_mem_cons hv) (List.not_mem_of_not_mem_cons hw) htail
      exact ⟨rfl, rfl⟩

/-- A word of known length. -/
theorem fixed (n : ℕ) : Delimits (fun w : List β => w.length = n) id :=
  fun _ _ _ _ hv hw heq => List.append_inj heq (hv.trans hw.symm)

/-- A word in front. -/
theorem literal (h : Delimits P enc) (w : List β) : Delimits P fun a => w ++ enc a := by
  intro a b r s ha hb heq
  simp only [List.append_assoc] at heq
  exact h ha hb (List.append_cancel_left heq)

/-- A word behind. -/
theorem closed (h : Delimits P enc) (w : List β) : Delimits P fun a => enc a ++ w := by
  intro a b r s ha hb heq
  simp only [List.append_assoc] at heq
  obtain ⟨rfl, hrest⟩ := h ha hb heq
  exact ⟨rfl, List.append_cancel_left hrest⟩

/-- Something else is encoded, and can be told from what is. -/
theorem comp (h : Delimits P enc) {g : γ → α} {Q : γ → Prop} (hQ : ∀ x, Q x → P (g x))
    (hg : ∀ x y, Q x → Q y → g x = g y → x = y) : Delimits Q fun x => enc (g x) := by
  intro x y r s hx hy heq
  obtain ⟨hxy, hrest⟩ := h (hQ x hx) (hQ y hy) heq
  exact ⟨hg x y hx hy hxy, hrest⟩

/-- One after the other; how the second is encoded may depend on the first. -/
theorem pair (h : Delimits P enc) {Q : α → γ → Prop} {f : α → γ → List β}
    (hf : ∀ a, P a → Delimits (Q a) (f a)) :
    Delimits (fun x : α × γ => P x.1 ∧ Q x.1 x.2) fun x => enc x.1 ++ f x.1 x.2 := by
  rintro ⟨a, c⟩ ⟨b, d⟩ r s ⟨ha, hc⟩ ⟨hb, hd⟩ heq
  simp only [List.append_assoc] at heq
  obtain ⟨rfl, hrest⟩ := h ha hb heq
  obtain ⟨rfl, rfl⟩ := hf a ha hc hd hrest
  exact ⟨rfl, rfl⟩

/-- As many as are known to be there. -/
theorem many (h : Delimits P enc) (n : ℕ) :
    Delimits (fun as : List α => as.length = n ∧ ∀ a ∈ as, P a) fun as => as.flatMap enc := by
  rintro as bs r s ⟨hlen, has⟩ ⟨hlen', hbs⟩ heq
  induction as generalizing bs n with
  | nil =>
    obtain rfl := List.length_eq_zero_iff.mp (hlen'.trans hlen.symm)
    exact ⟨rfl, heq⟩
  | cons a as ih =>
    cases bs with
    | nil => exact absurd (hlen.trans hlen'.symm) (Nat.succ_ne_zero _)
    | cons b bs =>
      obtain ⟨ha, hastail⟩ := List.forall_mem_cons.mp has
      obtain ⟨hb, hbstail⟩ := List.forall_mem_cons.mp hbs
      simp only [List.flatMap_cons, List.append_assoc] at heq
      obtain ⟨rfl, hrest⟩ := h ha hb heq
      have hlentail : bs.length = as.length := Nat.succ.inj (hlen'.trans hlen.symm)
      obtain ⟨rfl, rfl⟩ := ih as.length rfl hastail hlentail hbstail hrest
      exact ⟨rfl, rfl⟩

/-- As many as come before the word `w`, with which none of them can begin. -/
theorem until_word (h : Delimits P enc) {w : List β}
    (hw : ∀ a r s, P a → enc a ++ r ≠ w ++ s) :
    Delimits (fun as : List α => ∀ a ∈ as, P a) fun as => as.flatMap enc ++ w := by
  intro as bs r s has hbs heq
  simp only [List.append_assoc] at heq
  induction as generalizing bs with
  | nil =>
    cases bs with
    | nil => exact ⟨rfl, List.append_cancel_left heq⟩
    | cons b bs =>
      rw [List.flatMap_nil, List.nil_append, List.flatMap_cons, List.append_assoc] at heq
      exact absurd heq.symm (hw _ _ _ (hbs b (List.mem_cons_self ..)))
  | cons a as ih =>
    obtain ⟨ha, hastail⟩ := List.forall_mem_cons.mp has
    rw [List.flatMap_cons, List.append_assoc] at heq
    cases bs with
    | nil => exact absurd heq (hw _ _ _ ha)
    | cons b bs =>
      obtain ⟨hb, hbstail⟩ := List.forall_mem_cons.mp hbs
      rw [List.flatMap_cons, List.append_assoc] at heq
      obtain ⟨rfl, hrest⟩ := h ha hb heq
      obtain ⟨rfl, rfl⟩ := ih hastail hbstail hrest
      exact ⟨rfl, rfl⟩

end Delimits
