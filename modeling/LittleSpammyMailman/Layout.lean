/-
Laying a stream out in lines under a line budget (general library).

A `Format` says which items end a line and how many items a line holds.  Two
readings of the same stream are compared:

* `displayLines` — the declarative one: split at the separators, cut every
  piece into columns, drop what is empty;
* `Page.push` — the one-item-at-a-time typesetter, whose open line is shipped
  when it is full or ended.

`Page.feed_closed` says they agree.  A typesetter that may ship at most `b`
lines stops at `Page.taken b`; the rest of the file measures what such a run
keeps and what it loses:

* `sent_eq_take` — the lines it ships are the first `b` display lines;
* `taken_eq_length_iff` — when it takes the whole stream;
* `two_mul_le_taken`, `taken_of_plain` — how much it takes at least;
* `sent_flatten_iff` — it ships every item it took iff the stream has at most
  `b` display lines.
-/
import Mathlib

namespace Layout

variable {α : Type*}

/-- Cut a list into columns of `w` items (for `0 < w`); the last column may be
shorter, and an empty list has no column. -/
def columns (w : ℕ) : List α → List (List α)
  | [] => []
  | a :: l => (a :: l.take (w - 1)) :: columns w (l.drop (w - 1))
  termination_by l => l.length
  decreasing_by simp only [List.length_drop, List.length_cons]; omega

@[simp] theorem columns_nil (w : ℕ) : columns w ([] : List α) = [] := by
  rw [columns]

theorem columns_cons (w : ℕ) (a : α) (l : List α) :
    columns w (a :: l) = (a :: l.take (w - 1)) :: columns w (l.drop (w - 1)) := by
  rw [columns]

theorem columns_of_length_le {w : ℕ} {l : List α} (hl : l ≠ []) (h : l.length ≤ w) :
    columns w l = [l] := by
  obtain ⟨a, l, rfl⟩ := List.exists_cons_of_ne_nil hl
  rw [List.length_cons] at h
  rw [columns_cons, List.take_of_length_le (by omega), List.drop_of_length_le (by omega),
    columns_nil]

/-- A full first column is cut off. -/
theorem columns_append {w : ℕ} {c l : List α} (hw : 0 < w) (hc : c.length = w) :
    columns w (c ++ l) = c :: columns w l := by
  obtain ⟨a, c, rfl⟩ := List.exists_cons_of_ne_nil (l := c) (by rintro rfl; simp at hc; omega)
  rw [List.length_cons] at hc
  rw [List.cons_append, columns_cons, List.take_append_of_le_length (by omega),
    List.take_of_length_le (by omega), List.drop_append_of_le_length (by omega),
    List.drop_of_length_le (by omega), List.nil_append]

/-- How a stream is broken into lines: the items that end a line, and the
number of items a line holds. -/
structure Format (α : Type*) where
  sep : α → Bool
  width : ℕ
  width_pos : 0 < width

/-- The lines a reader sees: the pieces between separators, cut into columns. -/
def displayLines (f : Format α) (l : List α) : List (List α) :=
  (l.splitOnP f.sep).flatMap (columns f.width)

/-- The typesetter: lines already shipped and the open line. -/
@[ext] structure Page (f : Format α) where
  shipped : List (List α)
  cur : List α
  cur_le : cur.length ≤ f.width
  cur_plain : ∀ a ∈ cur, f.sep a = false

namespace Page

variable {f : Format α}

/-- The blank page. -/
def blank (f : Format α) : Page f := ⟨[], [], Nat.zero_le _, by simp⟩

@[simp] theorem blank_shipped : (blank f).shipped = [] := rfl

@[simp] theorem blank_cur : (blank f).cur = [] := rfl

/-- All lines of the page once the open line is closed; an empty one is no line. -/
def closed (p : Page f) : List (List α) :=
  if p.cur = [] then p.shipped else p.shipped ++ [p.cur]

/-- Set one item. -/
def push (p : Page f) (a : α) : Page f :=
  if hs : f.sep a then ⟨p.closed, [], Nat.zero_le _, by simp⟩
  else if hw : p.cur.length = f.width then
    ⟨p.shipped ++ [p.cur], [a], f.width_pos, by simpa using hs⟩
  else
    ⟨p.shipped, p.cur ++ [a], by
      have := p.cur_le
      simp only [List.length_append, List.length_singleton]
      omega, by
      intro b hb
      rcases List.mem_append.mp hb with hb | hb
      · exact p.cur_plain b hb
      · rw [List.mem_singleton.mp hb]
        simpa using hs⟩

/-- Setting `a` ships the open line. -/
def ships (p : Page f) (a : α) : Bool :=
  !p.cur.isEmpty && (f.sep a || p.cur.length == f.width)

def feed (p : Page f) (l : List α) : Page f := l.foldl push p

@[simp] theorem feed_nil (p : Page f) : p.feed [] = p := rfl

@[simp] theorem feed_cons (p : Page f) (a : α) (l : List α) :
    p.feed (a :: l) = (p.push a).feed l := rfl

theorem feed_append (p : Page f) (l₁ l₂ : List α) :
    p.feed (l₁ ++ l₂) = (p.feed l₁).feed l₂ := List.foldl_append

theorem push_of_sep {p : Page f} {a : α} (h : f.sep a = true) :
    (p.push a).shipped = p.closed ∧ (p.push a).cur = [] := by
  rw [push, dif_pos h]
  exact ⟨rfl, rfl⟩

theorem push_of_full {p : Page f} {a : α} (h : f.sep a = false)
    (hw : p.cur.length = f.width) :
    (p.push a).shipped = p.shipped ++ [p.cur] ∧ (p.push a).cur = [a] := by
  rw [push, dif_neg (by simp [h]), dif_pos hw]
  exact ⟨rfl, rfl⟩

theorem push_of_room {p : Page f} {a : α} (h : f.sep a = false)
    (hw : p.cur.length ≠ f.width) :
    (p.push a).shipped = p.shipped ∧ (p.push a).cur = p.cur ++ [a] := by
  rw [push, dif_neg (by simp [h]), dif_neg hw]
  exact ⟨rfl, rfl⟩

/-- What one push can do: close the open line, ship it full, or lengthen it. -/
theorem push_cases (p : Page f) (a : α) :
    (f.sep a = true ∧ (p.push a).shipped = p.closed ∧ (p.push a).cur = []) ∨
    (f.sep a = false ∧ p.cur.length = f.width ∧
      (p.push a).shipped = p.shipped ++ [p.cur] ∧ (p.push a).cur = [a]) ∨
    (f.sep a = false ∧ p.cur.length ≠ f.width ∧
      (p.push a).shipped = p.shipped ∧ (p.push a).cur = p.cur ++ [a]) := by
  by_cases hs : f.sep a = true
  · exact Or.inl ⟨hs, push_of_sep hs⟩
  · rw [Bool.not_eq_true] at hs
    by_cases hw : p.cur.length = f.width
    · exact Or.inr (Or.inl ⟨hs, hw, push_of_full hs hw⟩)
    · exact Or.inr (Or.inr ⟨hs, hw, push_of_room hs hw⟩)

/-- A full line is not empty. -/
theorem cur_ne_nil_of_full {p : Page f} (hw : p.cur.length = f.width) : p.cur ≠ [] := by
  intro h
  have := f.width_pos
  rw [h, List.length_nil] at hw
  omega

/-- Ship the open line as it is. -/
def ship (p : Page f) : Page f := ⟨p.shipped ++ [p.cur], [], Nat.zero_le _, by simp⟩

/-- Drop the open line. -/
def discard (p : Page f) : Page f := ⟨p.shipped, [], Nat.zero_le _, by simp⟩

theorem push_eq_self {p : Page f} {a : α} (h : f.sep a = true) (hc : p.cur = []) :
    p.push a = p := by
  obtain ⟨h1, h2⟩ := push_of_sep h
  rw [closed, if_pos hc] at h1
  exact Page.ext h1 (h2.trans hc.symm)

theorem push_eq_ship {p : Page f} {a : α} (h : f.sep a = true) (hc : p.cur ≠ []) :
    p.push a = p.ship := by
  obtain ⟨h1, h2⟩ := push_of_sep h
  rw [closed, if_neg hc] at h1
  exact Page.ext h1 h2

theorem push_eq_ship_push {p : Page f} {a : α} (h : f.sep a = false)
    (hw : p.cur.length = f.width) : p.push a = p.ship.push a := by
  obtain ⟨h1, h2⟩ := push_of_full h hw
  have hroom : p.ship.cur.length ≠ f.width := ne_of_lt f.width_pos
  obtain ⟨h3, h4⟩ := push_of_room h hroom
  exact Page.ext (h1.trans h3.symm) (h2.trans h4.symm)

/-- What one push does to the number of shipped lines. -/
theorem push_shipped (p : Page f) (a : α) :
    (p.push a).shipped = if p.ships a then p.shipped ++ [p.cur] else p.shipped := by
  rcases push_cases p a with ⟨hs, h1, _⟩ | ⟨hs, hw, h1, _⟩ | ⟨hs, hw, h1, _⟩
  · rw [h1, closed]
    by_cases hc : p.cur = [] <;> simp [ships, hs, hc]
  · rw [h1, ships]
    simp [cur_ne_nil_of_full hw, hw]
  · rw [h1, ships]
    simp [hs, hw]

/-! ### The typesetter agrees with the declarative reading -/

/-- Lines of a stream that begins inside an open line. -/
theorem displayLines_open {cur l : List α} (hcur : ∀ a ∈ cur, f.sep a = false) :
    displayLines f (cur ++ l) = ((l.splitOnP f.sep).modifyHead (cur ++ ·)).flatMap
      (columns f.width) := by
  rw [displayLines]
  congr 1
  induction cur with
  | nil =>
    obtain ⟨x, xs, hx⟩ := List.exists_cons_of_ne_nil (List.splitOnP_ne_nil f.sep l)
    simp [hx]
  | cons c cur ih =>
    have hc : f.sep c = false := hcur c (List.mem_cons_self ..)
    obtain ⟨x, xs, hx⟩ := List.exists_cons_of_ne_nil (List.splitOnP_ne_nil f.sep l)
    rw [List.cons_append, List.splitOnP_cons_eq_if_modifyHead, ih fun a ha => hcur a (List.mem_cons_of_mem _ ha)]
    simp [hc, hx]

theorem feed_closed_open (p : Page f) (l : List α) :
    (p.feed l).closed = p.shipped ++ displayLines f (p.cur ++ l) := by
  induction l generalizing p with
  | nil =>
    rw [feed_nil, List.append_nil, closed, displayLines,
      List.splitOnP_eq_singleton p.cur_plain]
    by_cases hc : p.cur = []
    · simp [hc]
    · simp [hc, columns_of_length_le hc p.cur_le]
  | cons a l ih =>
    rw [feed_cons, ih]
    rcases push_cases p a with ⟨hs, h1, h2⟩ | ⟨hs, hw, h1, h2⟩ | ⟨hs, hw, h1, h2⟩
    · -- the separator closes the open line
      rw [h1, h2, List.nil_append, displayLines, displayLines,
        List.splitOnP_append_cons_of_forall_mem p.cur_plain a hs, closed]
      by_cases hc : p.cur = []
      · simp [hc]
      · simp [hc, columns_of_length_le hc p.cur_le]
    · -- the open line is a whole column of the piece it belongs to
      rw [h1, h2, displayLines_open p.cur_plain]
      obtain ⟨x, xs, hx⟩ :=
        List.exists_cons_of_ne_nil (List.splitOnP_ne_nil f.sep (a :: l))
      rw [List.singleton_append, displayLines, hx]
      simp [columns_append f.width_pos hw]
    · -- the item only moves from the stream to the open line
      rw [h1, h2, List.append_assoc, List.singleton_append]

/-- **The typesetter sets exactly the display lines.** -/
theorem feed_closed (l : List α) : ((blank f).feed l).closed = displayLines f l := by
  simpa [blank] using feed_closed_open (blank f) l

theorem feed_closed_flatten (p : Page f) (l : List α) :
    (p.feed l).closed.flatten = p.closed.flatten ++ l.filter (fun a => !f.sep a) := by
  induction l generalizing p with
  | nil => simp
  | cons a l ih =>
    rw [feed_cons, ih]
    rcases push_cases p a with ⟨hs, h1, h2⟩ | ⟨hs, hw, h1, h2⟩ | ⟨hs, hw, h1, h2⟩
    · rw [closed, if_pos h2, h1]
      simp [hs]
    · rw [closed, closed, h1, h2]
      simp [hs, cur_ne_nil_of_full hw]
    · rw [closed, closed, h1, h2]
      by_cases hc : p.cur = [] <;> simp [hs, hc]

theorem closed_lines {p : Page f} {l : List α}
    (hp : ∀ c ∈ p.closed, c ≠ [] ∧ c.length ≤ f.width ∧ ∀ a ∈ c, f.sep a = false) :
    ∀ c ∈ (p.feed l).closed, c ≠ [] ∧ c.length ≤ f.width ∧ ∀ a ∈ c, f.sep a = false := by
  induction l generalizing p with
  | nil => exact hp
  | cons a l ih =>
    refine ih ?_
    intro c hc
    -- a line is the new open one, which the page keeps well formed, or was closed before
    have hopen : (p.push a).cur ≠ [] → (p.push a).cur ≠ [] ∧ (p.push a).cur.length ≤ f.width ∧
        ∀ x ∈ (p.push a).cur, f.sep x = false :=
      fun hne => ⟨hne, (p.push a).cur_le, (p.push a).cur_plain⟩
    rw [closed] at hc
    rcases push_cases p a with ⟨_, h1, h2⟩ | ⟨_, hw, h1, h2⟩ | ⟨_, _, h1, h2⟩
    · rw [if_pos h2, h1] at hc
      exact hp c hc
    · have hne : (p.push a).cur ≠ [] := by simp [h2]
      rw [if_neg hne, List.mem_append, List.mem_singleton, h1] at hc
      rcases hc with hc | rfl
      · refine hp c ?_
        rwa [closed, if_neg (cur_ne_nil_of_full hw)]
      · exact hopen hne
    · have hne : (p.push a).cur ≠ [] := by simp [h2]
      rw [if_neg hne, List.mem_append, List.mem_singleton, h1] at hc
      rcases hc with hc | rfl
      · refine hp c ?_
        rw [closed]
        split
        · exact hc
        · exact List.mem_append_left _ hc
      · exact hopen hne

end Page

theorem displayLines_flatten (f : Format α) (l : List α) :
    (displayLines f l).flatten = l.filter fun a => !f.sep a := by
  rw [← Page.feed_closed, Page.feed_closed_flatten]
  simp [Page.blank, Page.closed]

/-- A display line is non-empty, fits the width and holds no separator. -/
theorem mem_displayLines {f : Format α} {l c : List α} (hc : c ∈ displayLines f l) :
    c ≠ [] ∧ c.length ≤ f.width ∧ ∀ a ∈ c, f.sep a = false := by
  rw [← Page.feed_closed] at hc
  exact Page.closed_lines (by simp [Page.blank, Page.closed]) c hc

/-- Every item that is no separator needs its place in a display line. -/
theorem length_filter_le (f : Format α) (l : List α) :
    (l.filter fun a => !f.sep a).length ≤ f.width * (displayLines f l).length := by
  have hsum : ∀ ls : List (List α), (∀ c ∈ ls, c.length ≤ f.width) →
      ls.flatten.length ≤ f.width * ls.length := by
    intro ls
    induction ls with
    | nil => simp
    | cons c ls ih =>
      intro h
      have hc := h c (List.mem_cons_self ..)
      have hls := ih fun d hd => h d (List.mem_cons_of_mem _ hd)
      rw [List.flatten_cons, List.length_append, List.length_cons, Nat.mul_succ]
      omega
  rw [← displayLines_flatten]
  exact hsum _ fun c hc => (mem_displayLines hc).2.1

/-- An item repeated `n` times that is no separator. -/
theorem le_length_displayLines_replicate {f : Format α} {a : α} (ha : f.sep a = false) (n : ℕ) :
    n ≤ f.width * (displayLines f (List.replicate n a)).length := by
  have hneed := length_filter_le f (List.replicate n a)
  rwa [List.filter_eq_self.mpr fun c hc => by rw [List.eq_of_mem_replicate hc, ha]; rfl,
    List.length_replicate] at hneed

/-! ### A typesetter with a line budget -/

namespace Page

variable {f : Format α}

/-- How many items of `l` are taken when only `b` lines may be shipped: the
first item that would ship one line too many is refused, and all after it. -/
def taken (b : ℕ) : Page f → List α → ℕ
  | _, [] => 0
  | p, a :: l => if p.ships a ∧ b ≤ p.shipped.length then 0 else taken b (p.push a) l + 1

/-- The page when the typesetter stops. -/
def stopped (b : ℕ) (p : Page f) (l : List α) : Page f := p.feed (l.take (p.taken b l))

/-- What has been shipped once the open line is flushed, if the budget allows it. -/
def sent (b : ℕ) (p : Page f) : List (List α) :=
  if p.shipped.length < b then p.closed else p.shipped

theorem taken_le_length (b : ℕ) (p : Page f) (l : List α) : p.taken b l ≤ l.length := by
  induction l generalizing p with
  | nil => simp [taken]
  | cons a l ih =>
    rw [taken]
    split
    · omega
    · have := ih (p.push a)
      rw [List.length_cons]
      omega

theorem push_shipped_length (p : Page f) (a : α) :
    (p.push a).shipped.length = p.shipped.length + if p.ships a then 1 else 0 := by
  rw [push_shipped]
  split <;> simp

theorem shipped_length_mono (p : Page f) (l : List α) :
    p.shipped.length ≤ (p.feed l).shipped.length := by
  induction l generalizing p with
  | nil => exact le_rfl
  | cons a l ih =>
    have := push_shipped_length p a
    exact le_trans (by omega) (ih (p.push a))

/-- The budget is never exceeded. -/
theorem stopped_shipped_le {b : ℕ} {p : Page f} (h : p.shipped.length ≤ b) (l : List α) :
    (p.stopped b l).shipped.length ≤ b := by
  induction l generalizing p with
  | nil => simpa [stopped] using h
  | cons a l ih =>
    rw [stopped, taken]
    split
    · simpa using h
    · rename_i hns
      rw [List.take_succ_cons, feed_cons]
      refine ih ?_
      rw [push_shipped_length]
      by_cases hsh : p.ships a = true
      · have : ¬ b ≤ p.shipped.length := fun hb => hns ⟨hsh, hb⟩
        rw [if_pos hsh]
        omega
      · rw [if_neg hsh]
        omega

/-- Why the typesetter stopped early: the next item ships, and the budget is spent. -/
theorem stopped_of_taken_ne {b : ℕ} {p : Page f} {l : List α} (h : p.taken b l ≠ l.length) :
    ∃ a, a ∈ l.drop (p.taken b l) ∧ (p.stopped b l).ships a = true ∧
      b ≤ (p.stopped b l).shipped.length ∧
      (p.stopped b l).shipped.length < (p.feed l).shipped.length := by
  induction l generalizing p with
  | nil => exact absurd rfl h
  | cons a l ih =>
    rw [taken] at h
    by_cases hsh : p.ships a ∧ b ≤ p.shipped.length
    · -- refused: the page stays as it is
      have hstop : p.stopped b (a :: l) = p := by
        rw [stopped, taken, if_pos hsh, List.take_zero, feed_nil]
      rw [hstop]
      refine ⟨a, ?_, hsh.1, hsh.2, ?_⟩
      · rw [taken, if_pos hsh]
        exact List.mem_cons_self ..
      · have h1 := push_shipped_length p a
        have h2 := shipped_length_mono (p.push a) l
        rw [if_pos hsh.1] at h1
        rw [feed_cons]
        omega
    · rw [if_neg hsh, List.length_cons] at h
      obtain ⟨c, hc, hcs, hb, hlt⟩ := ih (p := p.push a) (by omega)
      have hstop : p.stopped b (a :: l) = (p.push a).stopped b l := by
        rw [stopped, taken, if_neg hsh, List.take_succ_cons, feed_cons, ← stopped]
      rw [hstop]
      refine ⟨c, ?_, hcs, hb, hlt⟩
      rw [taken, if_neg hsh, List.drop_succ_cons]
      exact hc

theorem ships_cur_ne_nil {p : Page f} {a : α} (h : p.ships a = true) : p.cur ≠ [] := by
  intro hc
  simp [ships, hc] at h

theorem blank_stopped_le (b : ℕ) (l : List α) :
    ((blank f).stopped b l).shipped.length ≤ b :=
  stopped_shipped_le (Nat.zero_le b) l

/-- The display lines begin with what was shipped, and go on with the open line. -/
theorem displayLines_stopped (b : ℕ) (l : List α) :
    displayLines f l = ((blank f).stopped b l).shipped ++
      displayLines f (((blank f).stopped b l).cur ++ l.drop ((blank f).taken b l)) := by
  rw [← feed_closed_open, stopped, ← feed_append, List.take_append_drop, feed_closed]

theorem stopped_of_taken_eq {b : ℕ} {l : List α} (h : (blank f).taken b l = l.length) :
    (blank f).stopped b l = (blank f).feed l := by
  rw [stopped, h, List.take_length]

/-- **The lines sent are the first `b` display lines.** -/
theorem sent_eq_take (b : ℕ) (l : List α) :
    ((blank f).stopped b l).sent b = (displayLines f l).take b := by
  have hle := blank_stopped_le (f := f) b l
  rw [sent]
  by_cases hlt : ((blank f).stopped b l).shipped.length < b
  · -- budget left: the run was not cut short, and the open line is flushed
    rw [if_pos hlt]
    have hall : (blank f).taken b l = l.length := by
      by_contra hne
      obtain ⟨a, _, _, hb, _⟩ := stopped_of_taken_ne hne
      omega
    rw [stopped_of_taken_eq hall] at hlt ⊢
    rw [← feed_closed, List.take_of_length_le]
    rw [closed]
    split
    · omega
    · rw [List.length_append, List.length_singleton]
      omega
  · rw [if_neg hlt, displayLines_stopped b l]
    exact (List.take_left' (by omega)).symm

/-- **When the whole stream is taken**, in terms of the lines completed by it. -/
theorem taken_eq_length_iff_shipped {b : ℕ} {p : Page f} (hp : p.shipped.length ≤ b)
    {l : List α} : p.taken b l = l.length ↔ (p.feed l).shipped.length ≤ b := by
  constructor
  · intro h
    have := stopped_shipped_le hp l
    rwa [stopped, h, List.take_length] at this
  · intro h
    by_contra hne
    obtain ⟨a, _, _, hb, hlt⟩ := stopped_of_taken_ne hne
    omega

theorem feed_cur_eq_nil_iff (l : List α) :
    ((blank f).feed l).cur = [] ↔ ∀ a ∈ l.getLast?, f.sep a = true := by
  rcases List.eq_nil_or_concat l with rfl | ⟨l, a, rfl⟩
  · simp [blank]
  · rw [List.concat_eq_append, feed_append, feed_cons, feed_nil, List.getLast?_concat]
    rcases push_cases ((blank f).feed l) a with ⟨hs, _, h2⟩ | ⟨hs, _, _, h2⟩ | ⟨hs, _, _, h2⟩
    · simp [h2, hs]
    · simp [h2, hs]
    · simp [h2, hs]

/-- **When the whole stream is taken**: at most `b` display lines, or one more
that the stream leaves open. -/
theorem taken_eq_length_iff (b : ℕ) (l : List α) :
    (blank f).taken b l = l.length ↔
      (displayLines f l).length ≤ b ∨
        ((displayLines f l).length = b + 1 ∧ ¬ ∀ a ∈ l.getLast?, f.sep a = true) := by
  rw [taken_eq_length_iff_shipped (Nat.zero_le b), ← feed_cur_eq_nil_iff, ← feed_closed, closed]
  by_cases hc : ((blank f).feed l).cur = []
  · simp [hc]
  · simp only [hc, if_false, List.length_append, List.length_singleton]
    simp only [not_false_eq_true, and_true]
    omega

/-- The items taken that are no separators are those in the lines set so far. -/
theorem filter_taken (b : ℕ) (l : List α) :
    (l.take ((blank f).taken b l)).filter (fun a => !f.sep a)
      = ((blank f).stopped b l).closed.flatten := by
  rw [stopped, feed_closed_flatten]
  simp [blank, closed]

/-- **Every item taken was sent iff the stream has at most `b` display lines.** -/
theorem sent_flatten_iff (b : ℕ) (l : List α) :
    (((blank f).stopped b l).sent b).flatten
        = (l.take ((blank f).taken b l)).filter (fun a => !f.sep a) ↔
      (displayLines f l).length ≤ b := by
  set p := (blank f).stopped b l with hp
  have hle : p.shipped.length ≤ b := blank_stopped_le b l
  rw [filter_taken, ← hp]
  -- only the flush can lose anything, and only the open line
  have hloss : (p.sent b).flatten = p.closed.flatten ↔ p.shipped.length < b ∨ p.cur = [] := by
    rw [sent, closed]
    by_cases hlt : p.shipped.length < b <;> by_cases hc : p.cur = [] <;> simp [hlt, hc]
  rw [hloss]
  constructor
  · intro h
    have hall : (blank f).taken b l = l.length := by
      by_contra hne
      obtain ⟨a, _, hsh, hb, _⟩ := stopped_of_taken_ne hne
      have hcur := ships_cur_ne_nil hsh
      rw [← hp] at hb hcur
      rcases h with h | h
      · omega
      · exact hcur h
    rw [← feed_closed, ← stopped_of_taken_eq hall, ← hp, closed]
    split
    · exact hle
    · rename_i hc
      have := h.resolve_right hc
      simp only [List.length_append, List.length_singleton]
      omega
  · intro h
    by_cases hc : p.cur = []
    · exact Or.inr hc
    · -- the open line begins one more display line
      left
      rw [displayLines_stopped b l, ← hp, List.length_append] at h
      have hne : displayLines f (p.cur ++ l.drop ((blank f).taken b l)) ≠ [] := by
        intro hnil
        have hflat := displayLines_flatten f (p.cur ++ l.drop ((blank f).taken b l))
        rw [hnil, List.flatten_nil, List.filter_append,
          List.filter_eq_self.mpr fun a ha => by simp [p.cur_plain a ha]] at hflat
        exact hc (List.append_eq_nil_iff.mp hflat.symm).1
      have := List.length_pos_of_ne_nil hne
      omega

/-- The same for what the items are shown as. -/
theorem sent_flatten_map_iff {β : Type*} (g : α → β) (b : ℕ) (l : List α) :
    (((blank f).stopped b l).sent b).flatten.map g
        = ((l.take ((blank f).taken b l)).filter (fun a => !f.sep a)).map g ↔
      (displayLines f l).length ≤ b := by
  rw [← sent_flatten_iff]
  constructor
  · intro h
    -- what was sent is a prefix of what was taken, so lengths decide
    have hlen := congrArg List.length h
    rw [List.length_map, List.length_map] at hlen
    refine List.IsPrefix.eq_of_length ?_ hlen
    rw [filter_taken, sent, closed]
    split
    · exact List.prefix_refl _
    · split
      · exact List.prefix_refl _
      · rw [List.flatten_append]
        exact List.prefix_append _ _
  · intro h
    rw [h]

/-! ### How much is taken at least -/

/-- With room for two items a line, every shipped line has used up two items. -/
theorem two_mul_shipped_le (hw : 2 ≤ f.width) (p : Page f) (l : List α) :
    2 * (p.feed l).shipped.length + (p.feed l).cur.length
      ≤ 2 * p.shipped.length + p.cur.length + l.length := by
  induction l generalizing p with
  | nil => simp
  | cons a l ih =>
    have hstep : 2 * (p.push a).shipped.length + (p.push a).cur.length
        ≤ 2 * p.shipped.length + p.cur.length + 1 := by
      rcases push_cases p a with ⟨_, h1, h2⟩ | ⟨_, hf, h1, h2⟩ | ⟨_, _, h1, h2⟩
      · rw [h1, h2, closed]
        by_cases hc : p.cur = []
        · simp [hc]
        · -- a line of one item, and the separator that ends it
          have := List.length_pos_of_ne_nil hc
          rw [if_neg hc, List.length_append, List.length_singleton, List.length_nil]
          omega
      · rw [h1, h2, List.length_append]
        simp only [List.length_singleton]
        omega
      · rw [h1, h2, List.length_append, List.length_singleton]
        omega
    have := ih (p.push a)
    rw [feed_cons, List.length_cons]
    omega

theorem two_mul_le_taken (hw : 2 ≤ f.width) (b : ℕ) (l : List α) :
    min l.length (2 * b) ≤ (blank f).taken b l := by
  by_cases h : (blank f).taken b l = l.length
  · omega
  · -- the budget is spent, at two items a line
    obtain ⟨a, _, _, hb, _⟩ := stopped_of_taken_ne h
    have hlt := lt_of_le_of_ne (taken_le_length b (blank f) l) h
    have hcount := two_mul_shipped_le hw (blank f) (l.take ((blank f).taken b l))
    rw [← stopped, List.length_take] at hcount
    simp only [blank_shipped, blank_cur, List.length_nil] at hcount
    omega

/-- Without separators every item stays in a line, and shipped lines are full. -/
theorem plain_count (hsep : ∀ a, f.sep a = false) (p : Page f) (l : List α) :
    f.width * (p.feed l).shipped.length + (p.feed l).cur.length
      = f.width * p.shipped.length + p.cur.length + l.length := by
  induction l generalizing p with
  | nil => simp
  | cons a l ih =>
    rw [feed_cons, ih, List.length_cons]
    by_cases hw : p.cur.length = f.width
    · rw [(push_of_full (hsep a) hw).1, (push_of_full (hsep a) hw).2, List.length_append, hw]
      simp only [List.length_singleton]
      ring
    · rw [(push_of_room (hsep a) hw).1, (push_of_room (hsep a) hw).2, List.length_append,
        List.length_singleton]
      ring

/-- Without separators the typesetter takes the budgeted lines and one line more,
which stays in its hands. -/
theorem taken_of_plain (hsep : ∀ a, f.sep a = false) (b : ℕ) (l : List α) :
    (blank f).taken b l = min l.length (f.width * b + f.width) := by
  have hcount := plain_count hsep (blank f) (l.take ((blank f).taken b l))
  rw [← stopped, List.length_take, min_eq_left (taken_le_length b (blank f) l)] at hcount
  simp only [blank_shipped, blank_cur, List.length_nil, Nat.mul_zero, Nat.zero_add] at hcount
  have hcur := ((blank f).stopped b l).cur_le
  have hle := blank_stopped_le (f := f) b l
  have hmul := Nat.mul_le_mul_left f.width hle
  by_cases h : (blank f).taken b l = l.length
  · omega
  · -- the item refused found a full line it could not ship
    obtain ⟨a, _, hsh, hb, _⟩ := stopped_of_taken_ne h
    have hlt := lt_of_le_of_ne (taken_le_length b (blank f) l) h
    have hfull : ((blank f).stopped b l).cur.length = f.width := by
      simpa [ships, hsep a, ships_cur_ne_nil hsh] using hsh
    have heq : ((blank f).stopped b l).shipped.length = b := le_antisymm hle hb
    rw [hfull, heq] at hcount
    omega

end Page

theorem columns_take_flatten {w : ℕ} (hw : 0 < w) (b : ℕ) (l : List α) :
    ((columns w l).take b).flatten = l.take (w * b) := by
  induction b generalizing l with
  | zero => simp
  | succ b ih =>
    cases l with
    | nil => simp
    | cons a l =>
      rw [columns_cons, List.take_succ_cons, List.flatten_cons, ih, List.cons_append,
        show w * (b + 1) = (w - 1 + w * b) + 1 by rw [Nat.mul_succ]; omega,
        List.take_succ_cons, List.take_add]

/-- Without separators the first `b` display lines hold the first `b` columns of items. -/
theorem displayLines_take_of_plain {f : Format α} (hsep : ∀ a, f.sep a = false) (b : ℕ)
    (l : List α) : ((displayLines f l).take b).flatten = l.take (f.width * b) := by
  rw [displayLines, List.splitOnP_eq_singleton fun a _ => hsep a, List.flatMap_singleton,
    columns_take_flatten f.width_pos]

end Layout
