/-
The emitter's line buffer over any sequence of calls.

`EmitOp` is a call from outside, `EmitRun` the emitter with two facts of its
past: the budget of the last reset and what had been sent before it.
`EmitOp.stores` lists the stores of a call into `emit_line`, in order;
`stores_sound` says that they are what the call does to the array.

* `Held` — after a reset the emitter always holds some page, within the budget;
* `EmitOp.stores_le` — no store passes the end of the array;
* `lineBuffer_run` — the invariant of the buffer, after every sequence of calls.
-/
import LittleSpammyMailman.Emit

open Text Layout

namespace Selene

/-- A call of the emitter. -/
inductive EmitOp
  | push (c : UInt8)
  | flush
  | reset (budget : ℕ) (mode : Mode)
  deriving DecidableEq, Repr

/-- The emitter, the budget of the last reset, and the messages sent before it. -/
structure EmitRun where
  em : Emitter
  budget : ℕ
  before : List FbMsg

/-- A reset of an emitter in any state. -/
def EmitRun.start (budget : ℕ) (mode : Mode) (e : Emitter) : EmitRun :=
  ⟨emitReset budget mode e, budget, e.sent⟩

namespace EmitOp

def apply (s : EmitRun) : EmitOp → EmitRun
  | push c => { s with em := (emitPush c s.em).2 }
  | flush => { s with em := emitFlush s.em }
  | reset budget mode => EmitRun.start budget mode s.em

end EmitOp

/-- The calls in turn. -/
def EmitRun.run (s : EmitRun) (ops : List EmitOp) : EmitRun := ops.foldl EmitOp.apply s

/-! ### The stores -/

/-- The store of `emit_line_out`: the terminator. -/
def lineOutStores (e : Emitter) : List (ℕ × UInt8) :=
  if e.emitLeft ≤ 0 then [] else [(e.emitCol, 0)]

/-- The stores of `emit_push`. -/
def pushStores (c : UInt8) (e : Emitter) : List (ℕ × UInt8) :=
  match e.emitMode with
  | .hex =>
    let r := if dumpHexb * 2 ≤ e.emitCol then emitLineOut e else (true, e)
    (if dumpHexb * 2 ≤ e.emitCol then lineOutStores e else []) ++
      if r.1 = false then []
      else
        [(r.2.emitCol, hexChar ((c >>> 4) &&& 0xF).toNat),
          (r.2.emitCol + 1, hexChar (c &&& 0xF).toNat)]
  | .text =>
    if c = newline ∨ e.emitCol = dumpLine then
      let r := if e.emitCol ≠ 0 then emitLineOut e else (true, e)
      (if e.emitCol ≠ 0 then lineOutStores e else []) ++
        if r.1 = false ∨ c = newline then [] else [(0, shown c)]
    else [(e.emitCol, shown c)]

/-- The stores of `emit_flush`. -/
def flushStores (e : Emitter) : List (ℕ × UInt8) :=
  if e.emitCol ≠ 0 ∧ 0 < e.emitLeft then lineOutStores e else []

def EmitOp.stores (e : Emitter) : EmitOp → List (ℕ × UInt8)
  | push c => pushStores c e
  | flush => flushStores e
  | reset _ _ => []

/-- An array after stores. -/
def writeAll (buf : ℕ → UInt8) (ws : List (ℕ × UInt8)) : ℕ → UInt8 :=
  ws.foldl (fun buf w => Function.update buf w.1 w.2) buf

theorem writeAll_append (buf : ℕ → UInt8) (ws₁ ws₂ : List (ℕ × UInt8)) :
    writeAll buf (ws₁ ++ ws₂) = writeAll (writeAll buf ws₁) ws₂ := List.foldl_append

theorem emitLine_lineOut (e : Emitter) :
    (emitLineOut e).2.emitLine = writeAll e.emitLine (lineOutStores e) := by
  rw [emitLineOut, lineOutStores]
  by_cases h : e.emitLeft ≤ 0
  · rw [if_pos h, if_pos h]
    rfl
  · rw [if_neg h, if_neg h]
    rfl

/-- The line goes out under a condition. -/
theorem emitLine_ite_lineOut (e : Emitter) (q : Prop) [Decidable q] :
    (if q then emitLineOut e else (true, e)).2.emitLine
      = writeAll e.emitLine (if q then lineOutStores e else []) := by
  by_cases h : q
  · rw [if_pos h, if_pos h]
    exact emitLine_lineOut e
  · rw [if_neg h, if_neg h]
    rfl

theorem emitLine_push (c : UInt8) (e : Emitter) :
    (emitPush c e).2.emitLine = writeAll e.emitLine (pushStores c e) := by
  rw [emitPush, pushStores]
  cases e.emitMode with
  | hex =>
    simp only
    rw [writeAll_append, ← emitLine_ite_lineOut]
    by_cases hr : (if dumpHexb * 2 ≤ e.emitCol then emitLineOut e else (true, e)).1 = false
    · rw [if_pos hr, if_pos hr]
      rfl
    · rw [if_neg hr, if_neg hr]
      rfl
  | text =>
    simp only
    by_cases hend : c = newline ∨ e.emitCol = dumpLine
    · rw [if_pos hend, if_pos hend, writeAll_append, ← emitLine_ite_lineOut]
      by_cases hr : (if e.emitCol ≠ 0 then emitLineOut e else (true, e)).1 = false
      · rw [if_pos hr, if_pos (Or.inl hr)]
        rfl
      · rw [if_neg hr]
        by_cases hc : c = newline
        · rw [if_pos hc, if_pos (Or.inr hc)]
          rfl
        · rw [if_neg hc, if_neg (not_or.mpr ⟨hr, hc⟩)]
          rfl
    · rw [if_neg hend, if_neg hend]
      rfl

theorem emitLine_flush (e : Emitter) :
    (emitFlush e).emitLine = writeAll e.emitLine (flushStores e) := by
  rw [emitFlush, flushStores]
  by_cases h : e.emitCol ≠ 0 ∧ 0 < e.emitLeft
  · simp only [if_pos h]
    exact emitLine_lineOut e
  · simp only [if_neg h]
    rfl

/-- **The stores listed are what a call does to the array.** -/
theorem stores_sound (op : EmitOp) (s : EmitRun) :
    (op.apply s).em.emitLine = writeAll s.em.emitLine (op.stores s.em) := by
  cases op with
  | push c => exact emitLine_push c s.em
  | flush => exact emitLine_flush s.em
  | reset b m => rfl

/-! ### The page in the buffer -/

/-- The emitter holds a page that has not used up more lines than its budget. -/
def Held (s : EmitRun) : Prop :=
  ∃ (m : Mode) (p : Page m.format), Sets s.em s.budget s.before m p ∧ p.shipped.length ≤ s.budget

theorem held_start (budget : ℕ) (mode : Mode) (e : Emitter) :
    Held (EmitRun.start budget mode e) :=
  ⟨mode, Page.blank mode.format, emitReset_sets budget mode e, Nat.zero_le _⟩

/-- **The flush** ships the open line, or drops it when the budget is spent. -/
theorem emitFlush_sets {e : Emitter} {b : ℕ} {pre : List FbMsg} {m : Mode} {p : Page m.format}
    (h : Sets e b pre m p) (hle : p.shipped.length ≤ b) :
    ∃ p' : Page m.format, Sets (emitFlush e) b pre m p' ∧ p'.shipped.length ≤ b := by
  have hleft := h.left
  rw [emitFlush]
  by_cases hcur : p.cur = []
  · -- nothing is buffered
    have hzero := h.emitCol_eq_zero_iff.mpr hcur
    rw [if_neg fun hx => hx.1 hzero]
    refine ⟨p, ?_, hle⟩
    rw [e.setCol_zero hzero]
    exact h
  · have hzero := (not_congr h.emitCol_eq_zero_iff).mpr hcur
    by_cases hb : p.shipped.length < b
    · obtain ⟨_, hout⟩ := emitLineOut_sends h hb
      rw [if_pos ⟨hzero, by omega⟩]
      refine ⟨p.ship, ?_, ?_⟩
      · rw [Emitter.setCol_zero _ (hout.emitCol_eq_zero_iff.mpr rfl)]
        exact hout
      · rw [Page.ship, List.length_append, List.length_singleton]
        omega
    · rw [if_neg fun hx => hb (by omega)]
      exact ⟨p.discard, ⟨h.mode, rfl, h.left, h.sent⟩, hle⟩

/-- **One call** leaves a page in the emitter. -/
theorem Held.apply {s : EmitRun} (h : Held s) (op : EmitOp) : Held (op.apply s) := by
  obtain ⟨m, p, hsets, hle⟩ := h
  cases op with
  | push c =>
    have hpush := emitPush_sets hsets c
    by_cases hs : p.ships c ∧ s.budget ≤ p.shipped.length
    · -- refused: the emitter is as it was
      rw [if_pos hs] at hpush
      refine ⟨m, p, ?_, hle⟩
      show Sets (emitPush c s.em).2 _ _ _ _
      rw [hpush]
      exact hsets
    · rw [if_neg hs] at hpush
      refine ⟨m, p.push c, hpush.2, ?_⟩
      have hcount := Page.push_shipped_length p c
      show (p.push c).shipped.length ≤ s.budget
      by_cases hsh : p.ships c = true
      · have hroom : ¬ s.budget ≤ p.shipped.length := fun hb => hs ⟨hsh, hb⟩
        rw [if_pos hsh] at hcount
        omega
      · rw [if_neg hsh] at hcount
        omega
  | flush =>
    obtain ⟨p', hsets', hle'⟩ := emitFlush_sets hsets hle
    exact ⟨m, p', hsets', hle'⟩
  | reset b m => exact held_start b m s.em

theorem held_run (budget : ℕ) (mode : Mode) (e : Emitter) (ops : List EmitOp) :
    Held ((EmitRun.start budget mode e).run ops) := by
  induction ops using List.reverseRecOn with
  | nil => exact held_start budget mode e
  | append_singleton ops op ih =>
    rw [EmitRun.run, List.foldl_append]
    exact ih.apply op

/-! ### The invariant -/

/-- What the statics and the channel look like after a call. -/
structure LineBuffer (s : EmitRun) : Prop where
  col_le : s.em.emitCol ≤ 56
  even : s.em.emitMode = .hex → Even s.em.emitCol
  left_nonneg : 0 ≤ s.em.emitLeft
  left_le : s.em.emitLeft ≤ s.budget
  sent : ∃ ls : List Line, s.em.sent = s.before ++ ls.map .info ∧
    (ls.length : ℤ) = s.budget - s.em.emitLeft

theorem Held.lineBuffer {s : EmitRun} (h : Held s) : LineBuffer s := by
  obtain ⟨m, p, hsets, hle⟩ := h
  have hleft := hsets.left
  refine ⟨hsets.emitCol_le, ?_, by omega, by omega, p.shipped.map m.render, ?_, ?_⟩
  · intro hhex
    rw [hsets.mode] at hhex
    subst hhex
    rw [hsets.emitCol_eq]
    exact even_two_mul _
  · rw [hsets.sent, List.map_map]
    rfl
  · rw [List.length_map]
    omega

section

variable {e : Emitter}

theorem lineOutStores_le (hcol : e.emitCol ≤ 56) : ∀ w ∈ lineOutStores e, w.1 ≤ 56 := by
  intro w hw
  rw [lineOutStores, List.mem_ite_nil_left, List.mem_singleton] at hw
  rw [hw.2]
  exact hcol

/-- Two digits are written only where there is room for two. -/
theorem col_le_of_digits (hcol : e.emitCol ≤ 56) (heven : Even e.emitCol)
    (hok : ¬ (if dumpHexb * 2 ≤ e.emitCol then emitLineOut e else (true, e)).1 = false) :
    (if dumpHexb * 2 ≤ e.emitCol then emitLineOut e else (true, e)).2.emitCol ≤ 54 := by
  have hwidth : dumpHexb * 2 = 56 := rfl
  obtain ⟨k, hk⟩ := heven
  by_cases hfull : dumpHexb * 2 ≤ e.emitCol
  · rw [if_pos hfull, emitLineOut] at hok ⊢
    by_cases hleft : e.emitLeft ≤ 0
    · rw [if_pos hleft] at hok
      exact absurd rfl hok
    · -- the line went out
      rw [if_neg hleft]
      exact Nat.zero_le _
  · rw [if_neg hfull]
    show e.emitCol ≤ 54
    omega

theorem pushStores_le (hcol : e.emitCol ≤ 56) (heven : e.emitMode = .hex → Even e.emitCol)
    (c : UInt8) : ∀ w ∈ pushStores c e, w.1 ≤ 56 := by
  intro w hw
  rw [pushStores] at hw
  cases hmode : e.emitMode with
  | hex =>
    simp only [hmode, List.mem_append] at hw
    rw [List.mem_ite_nil_right, List.mem_ite_nil_left, List.mem_pair] at hw
    rcases hw with ⟨_, hw⟩ | ⟨hok, hw⟩
    · exact lineOutStores_le hcol w hw
    · have hle := col_le_of_digits hcol (heven hmode) hok
      rcases hw with rfl | rfl
      · exact le_trans hle (by omega)
      · exact le_trans (Nat.succ_le_succ hle) (by omega)
  | text =>
    simp only [hmode] at hw
    by_cases hend : c = newline ∨ e.emitCol = dumpLine
    · rw [if_pos hend, List.mem_append, List.mem_ite_nil_right, List.mem_ite_nil_left,
        List.mem_singleton] at hw
      rcases hw with ⟨_, hw⟩ | ⟨_, rfl⟩
      · exact lineOutStores_le hcol w hw
      · exact Nat.zero_le _
    · rw [if_neg hend, List.mem_singleton] at hw
      rw [hw]
      exact hcol

/-- **No store passes the end of the array**, neither of a character nor of the terminator. -/
theorem EmitOp.stores_le (hcol : e.emitCol ≤ 56) (heven : e.emitMode = .hex → Even e.emitCol)
    (op : EmitOp) : ∀ w ∈ op.stores e, w.1 ≤ 56 := by
  intro w hw
  cases op with
  | push c => exact pushStores_le hcol heven c w hw
  | flush =>
    rw [stores, flushStores, List.mem_ite_nil_right] at hw
    exact lineOutStores_le hcol w hw.2
  | reset b m => exact absurd hw (by simp [stores])

end

/-- A refused push leaves the emitter as it was. -/
theorem Held.refused {s : EmitRun} (h : Held s) {c : UInt8} (hno : (emitPush c s.em).1 = false) :
    (emitPush c s.em).2 = s.em := by
  obtain ⟨m, p, hsets, _⟩ := h
  have hpush := emitPush_sets hsets c
  split at hpush
  · rw [hpush]
  · rw [hpush.1] at hno
    exact absurd hno (by simp)

/-- **The line buffer, after any sequence of calls**: the column, the mode and the budget stay in
their ranges, the lines sent are those taken off the budget; and whatever is called next, its
stores are in the array, and a push that is refused changes nothing. -/
theorem lineBuffer_run (budget : ℕ) (mode : Mode) (e : Emitter) (ops : List EmitOp) :
    let s := (EmitRun.start budget mode e).run ops
    LineBuffer s ∧
      (∀ op : EmitOp, (op.apply s).em.emitLine = writeAll s.em.emitLine (op.stores s.em) ∧
        ∀ w ∈ op.stores s.em, w.1 ≤ 56) ∧
      ∀ c, (emitPush c s.em).1 = false → (emitPush c s.em).2 = s.em := by
  intro s
  have hheld : Held s := held_run budget mode e ops
  have hbuf := hheld.lineBuffer
  refine ⟨hbuf, ?_, fun c hno => hheld.refused hno⟩
  intro op
  exact ⟨stores_sound op s, op.stores_le hbuf.col_le hbuf.even⟩

end Selene
