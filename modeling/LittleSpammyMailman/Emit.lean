/-
The line emitter of `lk/board-selene.c`: `emit_reset`, `emit_line_out`,
`emit_push`, `emit_flush`, and the loop that pushes a buffer through them.

The four statics of the file are the fields of `Emitter`; `sent` is the
fastboot channel they write to.  The emitter is a typesetter in the sense of
`Layout`: text mode ends a line at a newline and holds 56 bytes, hex mode never
ends a line early and holds 28 bytes, two characters each (`Mode.format`).

* `Sets` — the emitter holds a given page;
* `emitPush_sets` — one push is one push of the page, or a refusal that leaves
  everything as it was;
* `pushAll_sets` — pushing a buffer is `Layout.Page.stopped`;
* `emitFlush_sent` — what has been sent after the flush.
-/
import LittleSpammyMailman.Args
import LittleSpammyMailman.Layout

open Text Layout

namespace Selene

/-- `DUMP_LINE` -/
def dumpLine : ℕ := 56

/-- `DUMP_HEXB` -/
def dumpHexb : ℕ := dumpLine / 2

/-- `DUMP_LINES_MAX` -/
def dumpLinesMax : ℕ := 64

/-- The emitter's statics and the channel.  `emitLine i` is the byte `i` places
after the start of `emit_line`; from 57 on that is past the array. -/
structure Emitter where
  emitLine : ℕ → UInt8
  emitCol : ℕ
  emitLeft : ℤ
  emitMode : Mode
  sent : List FbMsg

namespace Emitter

def fastbootInfo (e : Emitter) (l : Line) : Emitter := { e with sent := e.sent ++ [.info l] }

def fastbootOkay (e : Emitter) (l : Line) : Emitter := { e with sent := e.sent ++ [.okay l] }

def fastbootFail (e : Emitter) (l : Line) : Emitter := { e with sent := e.sent ++ [.fail l] }

/-- `emit_line[emit_col++] = c` -/
def put (e : Emitter) (c : UInt8) : Emitter :=
  { e with emitLine := Function.update e.emitLine e.emitCol c, emitCol := e.emitCol + 1 }

/-- The buffered characters. -/
def content (e : Emitter) : Line := (List.range e.emitCol).map e.emitLine

end Emitter

/-- The C string in `emit_line[DUMP_LINE + 1]`. -/
def cstr (buf : ℕ → UInt8) : Line := ((List.range (dumpLine + 1)).map buf).takeWhile (· != 0)

def emitReset (budget : ℤ) (mode : Mode) (e : Emitter) : Emitter :=
  { e with emitCol := 0, emitLeft := budget, emitMode := mode }

def emitLineOut (e : Emitter) : Bool × Emitter :=
  if e.emitLeft ≤ 0 then (false, e)
  else
    let line := Function.update e.emitLine e.emitCol 0
    let e := { e with emitLine := line }.fastbootInfo (cstr line)
    (true, { e with emitLeft := e.emitLeft - 1, emitCol := 0 })

/-- The character text mode shows for a byte. -/
def shown (c : UInt8) : UInt8 := if 0x20 ≤ c ∧ c ≠ 0x7F then c else '.'.toUInt8

/-- `true`: accepted; `false`: the line budget is spent and the caller must stop. -/
def emitPush (c : UInt8) (e : Emitter) : Bool × Emitter :=
  match e.emitMode with
  | .hex =>
    let r := if dumpHexb * 2 ≤ e.emitCol then emitLineOut e else (true, e)
    if r.1 = false then (false, r.2)
    else
      (true, (r.2.put (hexChar ((c >>> 4) &&& 0xF).toNat)).put (hexChar (c &&& 0xF).toNat))
  | .text =>
    if c = newline ∨ e.emitCol = dumpLine then
      let r := if e.emitCol ≠ 0 then emitLineOut e else (true, e)
      if r.1 = false then (false, r.2)
      else
        let e := { r.2 with emitCol := 0 }
        if c = newline then (true, e) else (true, e.put (shown c))
    else (true, e.put (shown c))

def emitFlush (e : Emitter) : Emitter :=
  let e := if e.emitCol ≠ 0 ∧ 0 < e.emitLeft then (emitLineOut e).2 else e
  { e with emitCol := 0 }

/-- The inner loop of `dump_region`: how many bytes of the buffer were accepted,
and whether a push was refused. -/
def pushAll : List UInt8 → Emitter → ℕ × Bool × Emitter
  | [], e => (0, false, e)
  | c :: cs, e =>
    let r := emitPush c e
    if r.1 = false then (0, true, r.2)
    else
      let t := pushAll cs r.2
      (t.1 + 1, t.2)

theorem pushAll_cons_refused {c : UInt8} {e : Emitter} (h : (emitPush c e).1 = false)
    (cs : List UInt8) : pushAll (c :: cs) e = (0, true, (emitPush c e).2) := by
  rw [pushAll]
  simp only [h, if_true]

theorem pushAll_cons_accepted {c : UInt8} {e : Emitter} (h : (emitPush c e).1 = true)
    (cs : List UInt8) : pushAll (c :: cs) e
      = ((pushAll cs (emitPush c e).2).1 + 1, (pushAll cs (emitPush c e).2).2) := by
  rw [pushAll]
  simp only [h, Bool.true_eq_false, if_false]

/-! ### The emitter as a typesetter -/

namespace Mode

/-- What ends a line and how many bytes a line holds. -/
def format : Mode → Format UInt8
  | .text => ⟨fun c => c == newline, dumpLine, by decide⟩
  | .hex => ⟨fun _ => false, dumpHexb, by decide⟩

/-- The characters one byte is shown as. -/
def glyph : Mode → UInt8 → Line
  | .text, c => [shown c]
  | .hex, c => [hexChar (c.toNat / 16), hexChar (c.toNat % 16)]

/-- The message that carries the bytes `l`. -/
def render (m : Mode) (l : List UInt8) : Line := l.flatMap m.glyph

@[simp] theorem render_nil (m : Mode) : m.render [] = [] := rfl

theorem render_append (m : Mode) (l₁ l₂ : List UInt8) :
    m.render (l₁ ++ l₂) = m.render l₁ ++ m.render l₂ := List.flatMap_append

theorem render_singleton (m : Mode) (c : UInt8) : m.render [c] = m.glyph c := by
  simp [render]

theorem render_flatten (m : Mode) (ls : List (List UInt8)) :
    m.render ls.flatten = (ls.map m.render).flatten := by
  induction ls with
  | nil => rfl
  | cons l ls ih => rw [List.flatten_cons, render_append, ih, List.map_cons, List.flatten_cons]

/-- Characters per byte. -/
def density : Mode → ℕ
  | .text => 1
  | .hex => 2

theorem length_render (m : Mode) (l : List UInt8) :
    (m.render l).length = m.density * l.length := by
  induction l with
  | nil => simp
  | cons c l ih =>
    rw [← List.singleton_append, render_append, List.length_append, ih, render_singleton,
      List.length_append, Nat.mul_add]
    cases m <;> rfl

/-- A full line fills the 56 columns in either mode. -/
theorem density_mul_width (m : Mode) : m.density * m.format.width = dumpLine := by
  cases m <;> rfl

theorem render_eq_nil_iff {m : Mode} {l : List UInt8} : m.render l = [] ↔ l = [] := by
  rw [← List.length_eq_zero_iff, length_render, ← List.length_eq_zero_iff (l := l)]
  cases m <;> simp [density]

theorem isPlain_shown (c : UInt8) : isPlain (shown c) = true := by
  rw [shown]
  split
  · rename_i h
    simpa [isPlain] using h
  · rfl

/-- Nothing the emitter writes is a control byte or DEL. -/
theorem isPlain_render (m : Mode) (l : List UInt8) : ∀ c ∈ m.render l, isPlain c = true := by
  intro c hc
  obtain ⟨d, _, hd⟩ := List.mem_flatMap.mp hc
  have hlt := d.toNat_lt
  cases m with
  | text =>
    rw [glyph, List.mem_singleton] at hd
    rw [hd]
    exact isPlain_shown d
  | hex =>
    rw [glyph, List.mem_cons, List.mem_singleton] at hd
    rcases hd with rfl | rfl
    · exact isPlain_hexChar _ (by omega)
    · exact isPlain_hexChar _ (by omega)

end Mode

/-- **Text accounting, for any bytes**: the lines sent spell out every byte taken, newlines
apart, iff the bytes have at most `b` display lines. -/
theorem text_accounting (b : ℕ) (bs : List UInt8) :
    (((displayLines Mode.text.format bs).take b).map Mode.text.render).flatten
        = ((bs.take ((Page.blank Mode.text.format).taken b bs)).filter (· != newline)).map shown ↔
      (displayLines Mode.text.format bs).length ≤ b := by
  have hrender : ∀ l : List UInt8, Mode.text.render l = l.map shown := by
    intro l
    rw [Mode.render, List.map_eq_flatMap]
    rfl
  rw [← Page.sent_flatten_map_iff shown b bs, Page.sent_eq_take, ← Mode.render_flatten, hrender]
  rfl

namespace Emitter

/-- A store behind the buffered characters changes none of them. -/
theorem update_content (e : Emitter) (c : UInt8) :
    ∀ i ∈ List.range e.emitCol, Function.update e.emitLine e.emitCol c i = e.emitLine i := by
  intro i hi
  exact Function.update_of_ne (by have := List.mem_range.mp hi; omega) _ _

@[simp] theorem content_put (e : Emitter) (c : UInt8) :
    (e.put c).content = e.content ++ [c] := by
  simp only [content, put]
  rw [List.range_succ, List.map_append, List.map_congr_left (e.update_content c)]
  simp

@[simp] theorem length_content (e : Emitter) : e.content.length = e.emitCol := by
  simp [content]

end Emitter

theorem Emitter.setCol_zero (e : Emitter) (h : e.emitCol = 0) : { e with emitCol := 0 } = e := by
  rw [← h]

theorem cstr_eq {buf : ℕ → UInt8} {n : ℕ} (hn : n ≤ dumpLine) (hz : buf n = 0)
    (hne : ∀ i < n, buf i ≠ 0) : cstr buf = (List.range n).map buf := by
  -- the array is the string, the terminator at `n`, and what is left behind it
  obtain ⟨k, hk⟩ : ∃ k, dumpLine + 1 = n + (k + 1) := ⟨dumpLine - n, by omega⟩
  rw [cstr, hk, List.range_add, List.map_append, List.takeWhile_append_of_pos]
  · rw [List.range_succ_eq_map]
    simp [hz]
  · intro c hc
    obtain ⟨i, hi, rfl⟩ := List.mem_map.mp hc
    simpa using hne i (List.mem_range.mp hi)

/-- The emitter, with budget `b` and after the messages `pre`, holds page `p`. -/
structure Sets (e : Emitter) (b : ℕ) (pre : List FbMsg) (m : Mode) (p : Page m.format) :
    Prop where
  mode : e.emitMode = m
  content : e.content = m.render p.cur
  left : e.emitLeft = (b : ℤ) - p.shipped.length
  sent : e.sent = pre ++ p.shipped.map fun l => .info (m.render l)

theorem emitReset_sets (b : ℕ) (m : Mode) (e : Emitter) :
    Sets (emitReset b m e) b e.sent m (Page.blank m.format) where
  mode := rfl
  content := rfl
  left := by simp [emitReset]
  sent := by simp [emitReset]

section

variable {e : Emitter} {b : ℕ} {pre : List FbMsg} {m : Mode} {p : Page m.format}

theorem Sets.emitCol_eq (h : Sets e b pre m p) : e.emitCol = m.density * p.cur.length := by
  rw [← e.length_content, h.content, m.length_render]

theorem Sets.emitCol_le (h : Sets e b pre m p) : e.emitCol ≤ dumpLine := by
  rw [h.emitCol_eq, ← m.density_mul_width]
  exact Nat.mul_le_mul_left _ p.cur_le

theorem Sets.emitCol_eq_zero_iff (h : Sets e b pre m p) : e.emitCol = 0 ↔ p.cur = [] := by
  rw [h.emitCol_eq, ← List.length_eq_zero_iff]
  cases m <;> simp [Mode.density]

/-- The column reaches 56 exactly when the line of the page is full. -/
theorem Sets.emitCol_full_iff (h : Sets e b pre m p) :
    dumpLine ≤ e.emitCol ↔ p.cur.length = m.format.width := by
  have hle := p.cur_le
  rw [h.emitCol_eq, ← m.density_mul_width]
  cases m <;> simp only [Mode.density] <;> omega

/-- Out of budget, `emit_line_out` refuses. -/
theorem emitLineOut_refuses (h : Sets e b pre m p) (hb : b ≤ p.shipped.length) :
    emitLineOut e = (false, e) := by
  have hleft := h.left
  rw [emitLineOut, if_pos (by omega)]

/-- With budget left, `emit_line_out` sends exactly the open line. -/
theorem emitLineOut_sends (h : Sets e b pre m p) (hb : p.shipped.length < b) :
    (emitLineOut e).1 = true ∧ Sets (emitLineOut e).2 b pre m p.ship := by
  have hleft := h.left
  -- the terminator is the first NUL: nothing buffered is one
  have hline : cstr (Function.update e.emitLine e.emitCol 0) = m.render p.cur := by
    rw [cstr_eq h.emitCol_le (Function.update_self ..), List.map_congr_left (e.update_content 0)]
    · exact h.content
    · intro i hi
      rw [e.update_content 0 i (List.mem_range.mpr hi)]
      refine ne_zero_of_isPlain (m.isPlain_render p.cur _ ?_)
      rw [← h.content, Emitter.content]
      exact List.mem_map_of_mem (List.mem_range.mpr hi)
  rw [emitLineOut, if_neg (by omega)]
  refine ⟨rfl, h.mode, rfl, ?_, ?_⟩
  · show e.emitLeft - 1 = (b : ℤ) - (p.shipped ++ [p.cur]).length
    rw [List.length_append, List.length_singleton]
    omega
  · show e.sent ++ [.info (cstr _)] = pre ++ (p.shipped ++ [p.cur]).map _
    rw [hline, h.sent, List.map_append, List.append_assoc]
    rfl

end

/-- Writing one character into a line with room. -/
theorem Sets.put_text {e : Emitter} {b : ℕ} {pre : List FbMsg} {p : Page Mode.text.format}
    (h : Sets e b pre .text p) {c : UInt8} (hsep : Mode.text.format.sep c = false)
    (hw : p.cur.length ≠ Mode.text.format.width) :
    Sets (e.put (shown c)) b pre .text (p.push c) := by
  obtain ⟨h1, h2⟩ := Page.push_of_room hsep hw
  refine ⟨h.mode, ?_, ?_, ?_⟩
  · rw [Emitter.content_put, h.content, h2, Mode.render_append]
    rfl
  · rw [h1]
    exact h.left
  · rw [h1]
    exact h.sent

/-- Writing the two digits of a byte into a line with room. -/
theorem Sets.put_hex {e : Emitter} {b : ℕ} {pre : List FbMsg} {p : Page Mode.hex.format}
    (h : Sets e b pre .hex p) (c : UInt8) (hw : p.cur.length ≠ Mode.hex.format.width) :
    Sets ((e.put (hexChar ((c >>> 4) &&& 0xF).toNat)).put (hexChar (c &&& 0xF).toNat))
      b pre .hex (p.push c) := by
  obtain ⟨h1, h2⟩ := Page.push_of_room (a := c) rfl hw
  refine ⟨h.mode, ?_, ?_, ?_⟩
  · rw [Emitter.content_put, Emitter.content_put, h.content, h2, Mode.render_append, toNat_high,
      toNat_low, List.append_assoc]
    rfl
  · rw [h1]
    exact h.left
  · rw [h1]
    exact h.sent

/-- **One push**, hex mode. -/
theorem emitPush_sets_hex {e : Emitter} {b : ℕ} {pre : List FbMsg} {p : Page Mode.hex.format}
    (h : Sets e b pre .hex p) (c : UInt8) :
    if p.ships c ∧ b ≤ p.shipped.length then emitPush c e = (false, e)
    else (emitPush c e).1 = true ∧ Sets (emitPush c e).2 b pre .hex (p.push c) := by
  have hsep : Mode.hex.format.sep c = false := rfl
  have hships : p.ships c = true ↔ p.cur.length = Mode.hex.format.width := by
    rw [Page.ships, hsep]
    simp only [Bool.false_or, Bool.and_eq_true, Bool.not_eq_true', List.isEmpty_eq_false_iff,
      beq_iff_eq, and_iff_right_iff_imp]
    exact Page.cur_ne_nil_of_full
  by_cases hw : p.cur.length = Mode.hex.format.width
  · have hcol : dumpHexb * 2 ≤ e.emitCol := h.emitCol_full_iff.mpr hw
    by_cases hb : b ≤ p.shipped.length
    · rw [if_pos ⟨hships.mpr hw, hb⟩, emitPush, h.mode]
      simp only [if_pos hcol, emitLineOut_refuses h hb, if_true]
    · -- the full line goes out and the byte opens the next one
      obtain ⟨hok, hout⟩ := emitLineOut_sends h (Nat.lt_of_not_le hb)
      rw [if_neg fun hx => hb hx.2, emitPush, h.mode, Page.push_eq_ship_push hsep hw]
      simp only [if_pos hcol, hok, Bool.true_eq_false, if_false]
      exact ⟨trivial, hout.put_hex c (ne_of_lt Mode.hex.format.width_pos)⟩
  · have hcol : ¬ dumpHexb * 2 ≤ e.emitCol := fun hx => hw (h.emitCol_full_iff.mp hx)
    rw [if_neg fun hx => hw (hships.mp hx.1), emitPush, h.mode]
    simp only [if_neg hcol, Bool.true_eq_false, if_false]
    exact ⟨trivial, h.put_hex c hw⟩

/-- **One push**, text mode. -/
theorem emitPush_sets_text {e : Emitter} {b : ℕ} {pre : List FbMsg} {p : Page Mode.text.format}
    (h : Sets e b pre .text p) (c : UInt8) :
    if p.ships c ∧ b ≤ p.shipped.length then emitPush c e = (false, e)
    else (emitPush c e).1 = true ∧ Sets (emitPush c e).2 b pre .text (p.push c) := by
  have hfull : e.emitCol = dumpLine ↔ p.cur.length = Mode.text.format.width := by
    rw [← h.emitCol_full_iff]
    have := h.emitCol_le
    omega
  have hsepc : Mode.text.format.sep c = true ↔ c = newline := by simp [Mode.format]
  have hships : p.ships c = true ↔ p.cur ≠ [] ∧ (c = newline ∨ e.emitCol = dumpLine) := by
    rw [Page.ships, hfull, ← hsepc]
    simp only [Bool.and_eq_true, Bool.not_eq_true', List.isEmpty_eq_false_iff, Bool.or_eq_true,
      beq_iff_eq, ne_eq]
  have hzero : e.emitCol ≠ 0 ↔ p.cur ≠ [] := not_congr h.emitCol_eq_zero_iff
  by_cases hend : c = newline ∨ e.emitCol = dumpLine
  · -- a newline or a full column: the line must go out, if there is one
    by_cases hcur : p.cur = []
    · -- an empty line costs nothing; the byte can only be a newline here
      have hc : c = newline := by
        refine hend.resolve_right ?_
        intro hcol
        exact Page.cur_ne_nil_of_full (hfull.mp hcol) hcur
      rw [if_neg fun hx => (hships.mp hx.1).1 hcur, emitPush, h.mode,
        Page.push_eq_self (hsepc.mpr hc) hcur]
      simp only [if_pos hend, if_neg (fun hx => hzero.mp hx hcur), Bool.true_eq_false, if_false,
        if_pos hc]
      rw [e.setCol_zero (h.emitCol_eq_zero_iff.mpr hcur)]
      exact ⟨trivial, h⟩
    · by_cases hb : b ≤ p.shipped.length
      · rw [if_pos ⟨hships.mpr ⟨hcur, hend⟩, hb⟩, emitPush, h.mode]
        simp only [if_pos hend, if_pos (hzero.mpr hcur), emitLineOut_refuses h hb, if_true]
      · obtain ⟨hok, hout⟩ := emitLineOut_sends h (Nat.lt_of_not_le hb)
        rw [if_neg fun hx => hb hx.2, emitPush, h.mode]
        simp only [if_pos hend, if_pos (hzero.mpr hcur), hok, Bool.true_eq_false, if_false]
        -- `emit_line_out` has already reset the column
        rw [Emitter.setCol_zero _ (hout.emitCol_eq_zero_iff.mpr rfl)]
        by_cases hc : c = newline
        · rw [if_pos hc, Page.push_eq_ship (hsepc.mpr hc) hcur]
          exact ⟨rfl, hout⟩
        · have hsep : Mode.text.format.sep c = false := by
            rw [← Bool.not_eq_true, hsepc]
            exact hc
          rw [if_neg hc, Page.push_eq_ship_push hsep (hfull.mp (hend.resolve_left hc))]
          exact ⟨rfl, hout.put_text hsep (ne_of_lt Mode.text.format.width_pos)⟩
  -- room in the line
  · have hsep : Mode.text.format.sep c = false := by
      rw [← Bool.not_eq_true, hsepc]
      exact fun hc => hend (Or.inl hc)
    rw [if_neg fun hx => hend (hships.mp hx.1).2, emitPush, h.mode]
    simp only [if_neg hend]
    exact ⟨trivial, h.put_text hsep fun hw => hend (Or.inr (hfull.mpr hw))⟩

/-- **One push of the emitter is one push of the page**, or a refusal that
leaves the emitter as it was. -/
theorem emitPush_sets {e : Emitter} {b : ℕ} {pre : List FbMsg} {m : Mode} {p : Page m.format}
    (h : Sets e b pre m p) (c : UInt8) :
    if p.ships c ∧ b ≤ p.shipped.length then emitPush c e = (false, e)
    else (emitPush c e).1 = true ∧ Sets (emitPush c e).2 b pre m (p.push c) := by
  cases m with
  | text => exact emitPush_sets_text h c
  | hex => exact emitPush_sets_hex h c

/-- **Pushing a buffer is running the typesetter with the line budget.** -/
theorem pushAll_sets {e : Emitter} {b : ℕ} {pre : List FbMsg} {m : Mode} {p : Page m.format}
    (h : Sets e b pre m p) (l : List UInt8) :
    (pushAll l e).1 = p.taken b l ∧
      ((pushAll l e).2.1 = true ↔ p.taken b l < l.length) ∧
      Sets (pushAll l e).2.2 b pre m (p.stopped b l) := by
  induction l generalizing e p with
  | nil => exact ⟨rfl, by simp [pushAll, Page.taken], h⟩
  | cons c l ih =>
    have hpush := emitPush_sets h c
    by_cases hs : p.ships c ∧ b ≤ p.shipped.length
    · rw [if_pos hs] at hpush
      have hall : pushAll (c :: l) e = (0, true, e) := by
        rw [pushAll_cons_refused (by rw [hpush]), hpush]
      have hstop : p.stopped b (c :: l) = p := by
        rw [Page.stopped, Page.taken, if_pos hs, List.take_zero, Page.feed_nil]
      rw [hall, Page.taken, if_pos hs, hstop]
      exact ⟨rfl, by simp, h⟩
    · rw [if_neg hs] at hpush
      obtain ⟨h1, h2, h3⟩ := ih hpush.2
      have hstop : p.stopped b (c :: l) = (p.push c).stopped b l := by
        rw [Page.stopped, Page.taken, if_neg hs, List.take_succ_cons, Page.feed_cons,
          ← Page.stopped]
      rw [pushAll_cons_accepted hpush.1, Page.taken, if_neg hs, hstop, List.length_cons]
      refine ⟨by rw [h1], ?_, h3⟩
      rw [h2]
      omega

/-- **The flush** sends the open line if the budget allows it, and drops it otherwise. -/
theorem emitFlush_sent {e : Emitter} {b : ℕ} {pre : List FbMsg} {m : Mode} {p : Page m.format}
    (h : Sets e b pre m p) :
    (emitFlush e).sent = pre ++ (p.sent b).map fun l => .info (m.render l) := by
  have hleft := h.left
  rw [emitFlush]
  by_cases hcur : p.cur = []
  · have hzero := h.emitCol_eq_zero_iff.mpr hcur
    rw [if_neg fun hx => hx.1 hzero]
    show e.sent = _
    rw [h.sent, Page.sent, Page.closed, if_pos hcur, ite_self]
  · have hzero := (not_congr h.emitCol_eq_zero_iff).mpr hcur
    by_cases hb : p.shipped.length < b
    · rw [if_pos ⟨hzero, by omega⟩, Page.sent, if_pos hb, Page.closed, if_neg hcur]
      exact (emitLineOut_sends h hb).2.sent
    · rw [if_neg fun hx => hb (by omega), Page.sent, if_neg hb]
      exact h.sent

end Selene
