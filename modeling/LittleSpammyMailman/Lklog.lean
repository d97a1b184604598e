/-
`sessions` of `tools/lklog.py`: the bootloader logs in a dump.

* `visit` is the body of the scanner, `sessions` the function;
* `scanned` — the scanner keeps the runs of printable bytes that have ended and
  are long enough, as the slices they are;
* `sessions_exact` — it returns exactly the marked maximal runs, in order.
-/
import LittleSpammyMailman.Runs
import LittleSpammyMailman.Text

open Text Runs

namespace Lklog

/-- `LK_MARKERS` -/
def lkMarkers : List Line :=
  [ascii "[PROFILE]", ascii "platform_init", ascii "[LK_ENV]", ascii "mt_boot_init",
    ascii "[autofb]", ascii "boot mode", ascii "mt_boot_init"]

/-- `PRINTABLE` -/
def printable : List UInt8 :=
  (List.range' 32 (127 - 32)).map UInt8.ofNat ++ [newline, '\r'.toUInt8, '\t'.toUInt8]

/-- `_TBL` -/
def tbl : List ℕ := (List.range 256).map fun c => if UInt8.ofNat c ∈ printable then 1 else 0

/-- `data[s:e]` -/
def slice (data : List UInt8) (s e : ℕ) : Line := (data.take e).drop s

/-- `_TBL[data[i]]` -/
def tblAt (data : List UInt8) (i : ℕ) : ℕ := tbl.getD (data.getD i 0).toNat 0

/-- The variables of the scanner. -/
structure State where
  out : List (ℕ × Line)
  start : Option ℕ

/-- `if start is not None and i - start >= min_len: out.append((start, data[start:i]))` -/
def State.emit (data : List UInt8) (minLen : ℤ) (s : State) (i : ℕ) : List (ℕ × Line) :=
  match s.start with
  | some b => if minLen ≤ (i : ℤ) - b then s.out ++ [(b, slice data b i)] else s.out
  | none => s.out

/-- The body of the loop. -/
def visit (data : List UInt8) (minLen : ℤ) (s : State) (i : ℕ) : State :=
  if tblAt data i ≠ 0 then
    if s.start = none then { s with start := some i } else s
  else ⟨s.emit data minLen i, none⟩

def sessions (data : List UInt8) (minLen : ℤ) : List (ℕ × Line) :=
  let n := data.length
  let s := (List.range n).foldl (visit data minLen) ⟨[], none⟩
  (s.emit data minLen n).filter fun o => lkMarkers.any fun m => decide (m <:+: o.2)

/-! ### The table -/

/-- Printable, in the words of `PRINTABLE`. -/
def Printable (c : UInt8) : Prop :=
  (0x20 ≤ c ∧ c ≤ 0x7E) ∨ c = newline ∨ c = '\r'.toUInt8 ∨ c = '\t'.toUInt8

theorem mem_printable_iff (c : UInt8) : c ∈ printable ↔ Printable c := by
  have hc := c.toNat_lt
  rw [printable, Printable, List.mem_append, List.mem_map]
  simp only [List.mem_range'_1, List.mem_cons, List.not_mem_nil, or_false, UInt8.le_iff_toNat_le]
  refine or_congr_left ?_
  constructor
  · rintro ⟨n, ⟨h1, h2⟩, rfl⟩
    rw [UInt8.toNat_ofNat_of_lt' (show n < 2 ^ 8 by omega)]
    simp only [UInt8.reduceToNat]
    omega
  · rintro ⟨h1, h2⟩
    simp only [UInt8.reduceToNat] at h1 h2
    exact ⟨c.toNat, by omega, UInt8.ofNat_toNat⟩

/-- The place `i` holds a printable byte. -/
def isPrintableAt (data : List UInt8) (i : ℕ) : Bool := decide (tblAt data i ≠ 0)

theorem isPrintableAt_iff {data : List UInt8} {i : ℕ} {c : UInt8} (h : data[i]? = some c) :
    isPrintableAt data i = true ↔ Printable c := by
  have hc := c.toNat_lt
  rw [isPrintableAt, decide_eq_true_iff, tblAt, tbl, List.getD_eq_getElem?_getD (l := data), h,
    Option.getD_some, ← mem_printable_iff]
  rw [List.getD_eq_getElem?_getD, List.getElem?_map, List.getElem?_range (by omega),
    Option.map_some, Option.getD_some, UInt8.ofNat_toNat]
  split
  · simp [*]
  · simp [*]

theorem isPrintableAt_eq_false_iff {data : List UInt8} {i : ℕ} (h : i < data.length) :
    isPrintableAt data i = false ↔ ∃ c, data[i]? = some c ∧ ¬ Printable c := by
  have hget : data[i]? = some data[i] := List.getElem?_eq_getElem h
  rw [← Bool.not_eq_true, isPrintableAt_iff hget, hget]
  simp

/-! ### The scanner -/

/-- The runs of at least `minLen` bytes, as slices. -/
def cuts (data : List UInt8) (minLen : ℤ) (rs : List (ℕ × ℕ)) : List (ℕ × Line) :=
  (rs.filter fun r => minLen ≤ (r.2 : ℤ) - r.1).map fun r => (r.1, slice data r.1 r.2)

theorem cuts_append (data : List UInt8) (minLen : ℤ) (rs₁ rs₂ : List (ℕ × ℕ)) :
    cuts data minLen (rs₁ ++ rs₂) = cuts data minLen rs₁ ++ cuts data minLen rs₂ := by
  rw [cuts, List.filter_append, List.map_append]
  rfl

/-- The scanner against the pass over the places: the same open run, and the slices of the runs
that have ended. -/
structure Agrees (data : List UInt8) (minLen : ℤ) (s : State) (r : Scan) : Prop where
  out : s.out = cuts data minLen r.closed
  start : s.start = r.start

section

variable {data : List UInt8} {minLen : ℤ} {s : State} {r : Scan}

/-- Ending the open run at `i`. -/
theorem Agrees.emit (h : Agrees data minLen s r) (i : ℕ) :
    s.emit data minLen i = cuts data minLen (r.runs i) := by
  rw [State.emit, Scan.runs, cuts_append, h.start, h.out]
  cases r.start with
  | none => simp [cuts]
  | some b =>
    by_cases hlong : minLen ≤ (i : ℤ) - b
    · simp [cuts, hlong]
    · simp [cuts, hlong]

/-- **One byte.** -/
theorem Agrees.visit (h : Agrees data minLen s r) (i : ℕ) :
    Agrees data minLen (visit data minLen s i) (Runs.visit (isPrintableAt data) r i) := by
  rw [Lklog.visit, Runs.visit, isPrintableAt]
  by_cases hp : tblAt data i ≠ 0
  · rw [if_pos hp, if_pos (decide_eq_true hp)]
    cases hs : s.start with
    | none =>
      rw [if_pos rfl]
      exact ⟨h.out, by rw [← h.start, hs]; rfl⟩
    | some b =>
      -- inside a run the state stays as it is
      rw [if_neg (by simp)]
      exact ⟨h.out, by rw [← h.start, hs]; rfl⟩
  · rw [if_neg hp, if_neg fun ht => hp (of_decide_eq_true ht)]
    exact ⟨h.emit i, rfl⟩

end

/-- **The scanner is the pass over the printable places.** -/
theorem scanned (data : List UInt8) (minLen : ℤ) (n : ℕ) :
    Agrees data minLen ((List.range n).foldl (visit data minLen) ⟨[], none⟩)
      (scan (isPrintableAt data) n) := by
  induction n with
  | zero => exact ⟨rfl, rfl⟩
  | succ n ih =>
    rw [List.range_succ, List.foldl_append, scan_succ]
    exact ih.visit n

/-- `sessions`, by the runs of printable places. -/
theorem sessions_eq (data : List UInt8) (minLen : ℤ) :
    sessions data minLen =
      (cuts data minLen ((scan (isPrintableAt data) data.length).runs data.length)).filter
        fun o => lkMarkers.any fun m => decide (m <:+: o.2) := by
  rw [sessions, (scanned data minLen data.length).emit]

/-! ### What is returned -/

/-- `[s, e)` is a session: a non-empty interval of printable bytes that cannot be widened, long
enough, and with a marker in it. -/
structure IsSession (data : List UInt8) (minLen : ℤ) (s e : ℕ) : Prop where
  lt : s < e
  le : e ≤ data.length
  inside : ∀ i c, s ≤ i → i < e → data[i]? = some c → Printable c
  before : s = 0 ∨ ∃ c, data[s - 1]? = some c ∧ ¬ Printable c
  after : e = data.length ∨ ∃ c, data[e]? = some c ∧ ¬ Printable c
  long : minLen ≤ (e : ℤ) - s
  marked : ∃ m ∈ lkMarkers, m <:+: slice data s e

theorem isSession_iff {data : List UInt8} {minLen : ℤ} {s e : ℕ} :
    IsSession data minLen s e ↔ IsRun (isPrintableAt data) data.length s e ∧
      minLen ≤ (e : ℤ) - s ∧ ∃ m ∈ lkMarkers, m <:+: slice data s e := by
  constructor
  · intro h
    have hlt := h.lt
    have hle := h.le
    refine ⟨⟨hlt, hle, ?_, ?_, ?_⟩, h.long, h.marked⟩
    · intro i h1 h2
      have hget : data[i]? = some data[i] := List.getElem?_eq_getElem (by omega)
      exact (isPrintableAt_iff hget).mpr (h.inside i _ h1 h2 hget)
    · exact h.before.imp_right (isPrintableAt_eq_false_iff (by omega)).mpr
    · rcases h.after with hend | ⟨c, hc, hout⟩
      · exact Or.inl hend
      · have hin : e < data.length := (List.getElem?_eq_some_iff.mp hc).1
        exact Or.inr ((isPrintableAt_eq_false_iff hin).mpr ⟨c, hc, hout⟩)
  · rintro ⟨h, hlong, hmarked⟩
    have hlt := h.lt
    have hle := h.le
    refine ⟨hlt, hle, ?_, ?_, ?_, hlong, hmarked⟩
    · intro i c h1 h2 hc
      exact (isPrintableAt_iff hc).mp (h.inside i h1 h2)
    · exact h.before.imp_right (isPrintableAt_eq_false_iff (by omega)).mp
    · rcases Nat.eq_or_lt_of_le hle with hend | hin
      · exact Or.inl hend
      · exact Or.inr ((isPrintableAt_eq_false_iff hin).mp (h.after.resolve_left (by omega)))

theorem length_slice {data : List UInt8} {s e : ℕ} (he : e ≤ data.length) :
    (slice data s e).length = e - s := by
  rw [slice, List.length_drop, List.length_take, min_eq_left he]

theorem mem_sessions_iff (data : List UInt8) (minLen : ℤ) (s : ℕ) (blob : Line) :
    (s, blob) ∈ sessions data minLen ↔
      ∃ e, IsSession data minLen s e ∧ blob = slice data s e := by
  rw [sessions_eq, List.mem_filter, cuts, List.mem_map, List.any_eq_true]
  simp only [decide_eq_true_iff, List.mem_filter, mem_runs_iff, isSession_iff, Prod.exists,
    Prod.mk.injEq]
  constructor
  · rintro ⟨⟨s, e, ⟨hrun, hlong⟩, rfl, rfl⟩, hmarked⟩
    exact ⟨e, ⟨hrun, hlong, hmarked⟩, rfl⟩
  · rintro ⟨e, ⟨hrun, hlong, hmarked⟩, rfl⟩
    exact ⟨⟨s, e, ⟨hrun, hlong⟩, rfl, rfl⟩, hmarked⟩

/-- An unprintable byte stands between one slice and the next. -/
theorem pairwise_sessions (data : List UInt8) (minLen : ℤ) :
    (sessions data minLen).Pairwise fun x y =>
      x.1 + x.2.length < y.1 ∧
        ∃ c, data[x.1 + x.2.length]? = some c ∧ ¬ Printable c := by
  rw [sessions_eq]
  refine List.Pairwise.filter _ ?_
  rw [cuts, List.pairwise_map]
  refine List.Pairwise.filter _ ?_
  refine (pairwise_runs (isPrintableAt data) data.length).imp_of_mem ?_
  rintro ⟨s, e⟩ ⟨s', e'⟩ hx hy hlt
  have hrun := (mem_runs_iff _ _).mp hx
  have hrun' := (mem_runs_iff _ _).mp hy
  have hse := hrun.lt
  have hse' := hrun'.lt
  have hle' := hrun'.le
  -- the slice ends where the run ends
  have hend : s + (slice data s e).length = e := by
    rw [length_slice hrun.le]
    exact Nat.add_sub_cancel' hse.le
  simp only [hend]
  simp only at hlt
  refine ⟨hlt, (isPrintableAt_eq_false_iff (by omega)).mp (hrun.after.resolve_left ?_)⟩
  omega

/-- **`sessions` is exact**: it returns the slices of the marked maximal runs of printable bytes
that are long enough, and no others, from left to right, each ended by an unprintable byte before
the next begins. -/
theorem sessions_exact (data : List UInt8) (minLen : ℤ) :
    (∀ s blob, (s, blob) ∈ sessions data minLen ↔
      ∃ e, IsSession data minLen s e ∧ blob = slice data s e) ∧
    (sessions data minLen).Pairwise fun x y =>
      x.1 + x.2.length < y.1 ∧
        ∃ c, data[x.1 + x.2.length]? = some c ∧ ¬ Printable c :=
  ⟨mem_sessions_iff data minLen, pairwise_sessions data minLen⟩

end Lklog
