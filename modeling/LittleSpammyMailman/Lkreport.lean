/-
The report of `tools/lklog.py`: `summarise` and `main`.

Texts are in UTF-8, as they are written; `main` gives the text and where it goes.

* `reportLines`, `text` — the report, and its lines put together;
* `delimits_block` — one session ends where its header says, whatever bytes it
  holds;
* `text_inj` — the text tells which sessions were kept, with every byte.
-/
import LittleSpammyMailman.Delimited
import LittleSpammyMailman.Lklog

open Text Numeral

namespace Lklog

/-! ### `re.findall` under `re.I` -/

/-- Lower case in ASCII. -/
def lower (c : UInt8) : UInt8 := if 'A'.toUInt8 ≤ c ∧ c ≤ 'Z'.toUInt8 then c + 32 else c

/-- A literal at the beginning: what stands behind it. -/
def literal (w b : Line) : Option Line :=
  if (w.map lower).isPrefixOf (b.map lower) then some (b.drop w.length) else none

/-- `w[^\n]*`, or `w[^\n]{0,k}`: the length of the match. -/
def toLineEnd (w : Line) (k : Option ℕ) (b : Line) : Option ℕ :=
  (literal w b).map fun rest =>
    let n := (rest.takeWhile (· != newline)).length
    w.length + k.elim n (min n)

/-- `(?:w|..)[^\n]{0,k}`: the first of the words that is there. -/
def anyToLineEnd (ws : List Line) (k : Option ℕ) (b : Line) : Option ℕ :=
  ws.findSome? fun w => toLineEnd w k b

/-- `w\d+v`. A digit is no beginning of `v`, so only the whole number can match. -/
def numberBetween (w v : Line) (b : Line) : Option ℕ :=
  (literal w b).bind fun rest =>
    let ds := rest.takeWhile fun c => (decVal c).isSome
    if ds = [] then none
    else (literal v (rest.drop ds.length)).map fun _ => w.length + ds.length + v.length

/-- The matches from left to right; the first `skip` bytes belong to the last one. -/
def findall (pat : Line → Option ℕ) : ℕ → Line → List Line
  | _, [] => []
  | skip + 1, _ :: b => findall pat skip b
  | 0, c :: b =>
    match pat (c :: b) with
    | none => findall pat 0 b
    | some n => (c :: b).take n :: findall pat (n - 1) b

/-! ### `summarise` -/

/-- The keys of the summary. -/
inductive Key
  | bootDenemesi | platformInit | bootMode | kernel | cmdline
  deriving DecidableEq

namespace Key

def name : Key → Line
  | .bootDenemesi => ascii "boot denemesi"
  | .platformInit => ascii "platform_init"
  | .bootMode => ascii "boot mode"
  | .kernel => ascii "kernel"
  | .cmdline => ascii "cmdline"

/-- The pattern of a key. -/
def pattern : Key → Line → Option ℕ
  | .bootDenemesi => toLineEnd (ascii "[autofb]") none
  | .platformInit => numberBetween (ascii "platform_init takes ") (ascii " ms")
  | .bootMode => toLineEnd (ascii "boot mode") (some 40)
  | .kernel => anyToLineEnd [ascii "kernel", ascii "zimage", ascii "Image"] (some 60)
  | .cmdline => toLineEnd (ascii "command line") (some 80)

end Key

/-- U+FFFD -/
def replacement : Line := [0xEF, 0xBF, 0xBD]

/-- `.decode('ascii', 'replace')` -/
def decodeAscii (b : Line) : Line := b.flatMap fun c => if c < 0x80 then [c] else replacement

/-- The white space of ASCII, in the words of `str.isspace`. -/
def isSpace (c : UInt8) : Bool := (9 ≤ c && c ≤ 13) || (28 ≤ c && c ≤ 32)

/-- `.strip()` -/
def strip (l : Line) : Line := (l.dropWhile isSpace).rdropWhile isSpace

/-- `got`: a key is there if its pattern was found. -/
def summarise (blob : Line) : List (Key × List Line) :=
  [Key.bootDenemesi, .platformInit, .bootMode, .kernel, .cmdline].filterMap fun key =>
    let m := findall key.pattern 0 blob
    if m = [] then none else some (key, (m.take 4).map fun x => strip (decodeAscii x))

/-! ### The report -/

/-- `"=" * 72` -/
def bar : Line := List.replicate 72 '='.toUInt8

/-- `%08x` -/
def hex08 (n : ℕ) : Line :=
  let ds := numeral 16 n
  (List.replicate (8 - ds.length) 0 ++ ds).map hexChar

/-- `%-14s` -/
def padRight (l : Line) : Line := l ++ List.replicate (14 - l.length) space

/-- `"== oturum @ 0x%08x  (%d bayt)"` -/
def sessionLine (off len : ℕ) : Line :=
  ascii "== oturum @ 0x" ++ (hex08 off ++ (ascii "  (" ++ (decimal len ++ ascii " bayt)")))

/-- The lines of the summary that are printed. -/
def summaryLines (blob : Line) : List Line :=
  let s := summarise blob
  [Key.bootDenemesi, .bootMode, .platformInit, .cmdline].flatMap fun k =>
    ((s.lookup k).getD []).map fun v =>
      ascii "   " ++ (padRight (k.name ++ ascii ":") ++ (ascii " " ++ v))

/-- The lines of one session. -/
def sessionLines (s : ℕ × Line) : List Line :=
  [bar, sessionLine s.1 s.2.length] ++ summaryLines s.2 ++ [bar, decodeAscii s.2, []]

/-- `# LK log -- kaynak: %s (%d bayt)` -/
def sourceLine (expdb : Line) (size : ℕ) : Line :=
  ascii "# LK log -- kaynak: " ++ (expdb ++ (ascii " (" ++ (decimal size ++ ascii " bayt)")))

/-- `# %d oturum bulundu, %d tanesi yaziliyor (en yenisi en altta)` -/
def countLine (found kept : ℕ) : Line :=
  ascii "# " ++ (decimal found ++ (ascii " oturum bulundu, " ++
    (decimal kept ++ ascii " tanesi yaziliyor (en yenisi en altta)")))

/-- `"\n".join(lines)` -/
def joinLines (ls : List Line) : Line := [newline].intercalate ls

/-- `keep` -/
def kept (all : Bool) (ses : List (ℕ × Line)) : List (ℕ × Line) :=
  if all then ses else ses.drop (ses.length - 6)

/-- `lines` -/
def reportLines (expdb : Line) (size found : ℕ) (keep : List (ℕ × Line)) : List Line :=
  [sourceLine expdb size, countLine found keep.length, []] ++ keep.flatMap sessionLines

/-- The arguments; `out` is empty if there is none. -/
structure Args where
  expdb : Line
  out : Line
  all : Bool
  minLen : ℤ

/-- The text of the report. -/
def text (a : Args) (data : List UInt8) : Line :=
  let ses := sessions data a.minLen
  joinLines (reportLines a.expdb data.length ses.length (kept a.all ses))

/-- `len` of a text: the bytes that begin a character. -/
def characters (l : Line) : ℕ := l.countP fun c => c &&& 0xC0 != 0x80

/-- What `main` does: an error and exit status 1, or a text to standard output or to a file,
with a message. -/
inductive Outcome
  | notFound (stderr : Line)
  | stdout (text : Line)
  | file (path text message : Line)

/-- The text, if there is one. -/
def Outcome.written : Outcome → Option Line
  | .notFound _ => none
  | .stdout t => some t
  | .file _ t _ => some t

def main (a : Args) (data : List UInt8) : Outcome :=
  let ses := sessions data a.minLen
  if ses = [] then .notFound (ascii "LK logu bulunamadi (expdb'de LK isareti yok)\n")
  else if a.out = [] then .stdout (text a data)
  else .file a.out (text a data) (ascii "yazildi: " ++ a.out ++ ascii " (" ++
    decimal (characters (text a data)) ++ ascii " bayt, " ++ decimal (kept a.all ses).length ++
    ascii " oturum)\n")

/-! ### What is found holds no newline -/

theorem lower_eq_newline {c : UInt8} (h : lower c = newline) : c = newline := by
  rw [lower] at h
  split_ifs at h with hupper
  · have hc : (c + 32).toNat = 10 := by
      rw [h]
      rfl
    rw [UInt8.toNat_add] at hc
    have hle : c.toNat ≤ 90 := UInt8.le_iff_toNat_le.mp hupper.2
    have h32 : (32 : UInt8).toNat = 32 := rfl
    omega
  · exact h

/-- The bytes matched are those of the literal, up to the case. -/
theorem literal_spec {w b rest : Line} (h : literal w b = some rest) (hw : newline ∉ w) :
    newline ∉ b.take w.length ∧ rest = b.drop w.length := by
  rw [literal] at h
  split_ifs at h with hpre
  refine ⟨?_, (Option.some.inj h).symm⟩
  intro hmem
  obtain ⟨l, hl⟩ := List.isPrefixOf_iff_prefix.mp hpre
  have htake : (b.take w.length).map lower = w.map lower := by
    rw [List.map_take, ← hl, List.take_left' (List.length_map _)]
  have hlow : lower newline ∈ w.map lower := htake ▸ List.mem_map_of_mem hmem
  obtain ⟨c, hc, heq⟩ := List.mem_map.mp hlow
  exact hw (lower_eq_newline heq ▸ hc)

/-- A pattern that matches within a line. -/
def InLine (pat : Line → Option ℕ) : Prop := ∀ b n, pat b = some n → newline ∉ b.take n

/-- No newline is among the first bytes up to the first that fails. -/
theorem not_mem_take {p : UInt8 → Bool} (hp : p newline = false) {b : Line} {n : ℕ}
    (hn : n ≤ (b.takeWhile p).length) : newline ∉ b.take n := by
  intro hmem
  have hall : b.take (b.takeWhile p).length = b.takeWhile p :=
    (List.prefix_iff_eq_take.mp (List.takeWhile_prefix p)).symm
  have hscan : newline ∈ b.takeWhile p := hall ▸ (List.take_prefix_take_left hn).subset hmem
  rw [List.mem_takeWhile_imp hscan] at hp
  cases hp

theorem inLine_toLineEnd {w : Line} (hw : newline ∉ w) (k : Option ℕ) : InLine (toLineEnd w k) := by
  intro b n h
  rw [toLineEnd, Option.map_eq_some_iff] at h
  obtain ⟨rest, hlit, rfl⟩ := h
  obtain ⟨htake, rfl⟩ := literal_spec hlit hw
  dsimp only
  rw [List.take_add, List.mem_append, not_or]
  refine ⟨htake, not_mem_take (p := (· != newline)) (by decide) ?_⟩
  cases k with
  | none => exact le_rfl
  | some k => exact min_le_left _ _

theorem inLine_numberBetween {w v : Line} (hw : newline ∉ w) (hv : newline ∉ v) :
    InLine (numberBetween w v) := by
  intro b n h
  rw [numberBetween, Option.bind_eq_some_iff] at h
  obtain ⟨rest, hlit, h⟩ := h
  obtain ⟨htake, rfl⟩ := literal_spec hlit hw
  dsimp only at h
  split_ifs at h
  rw [Option.map_eq_some_iff] at h
  obtain ⟨rest', hlit', rfl⟩ := h
  have htake' := (literal_spec hlit' hv).1
  rw [Nat.add_assoc, List.take_add, List.take_add, List.mem_append, List.mem_append, not_or, not_or]
  exact ⟨htake, not_mem_take (by decide) le_rfl, htake'⟩

theorem mem_findall {pat : Line → Option ℕ} (hpat : InLine pat) (b : Line) (skip : ℕ) :
    ∀ m ∈ findall pat skip b, newline ∉ m := by
  induction b generalizing skip with
  | nil =>
    intro m hm
    rw [findall] at hm
    exact absurd hm List.not_mem_nil
  | cons c b ih =>
    cases skip with
    | succ skip => exact ih skip
    | zero =>
      rw [findall]
      cases hp : pat (c :: b) with
      | none => exact ih 0
      | some n => exact List.forall_mem_cons.mpr ⟨hpat _ _ hp, ih (n - 1)⟩

/-- The keys that are printed match within a line. -/
theorem Key.inLine {k : Key} (hk : k ≠ .kernel) : InLine k.pattern := by
  cases k with
  | bootDenemesi => exact inLine_toLineEnd (by decide) _
  | platformInit => exact inLine_numberBetween (by decide) (by decide)
  | bootMode => exact inLine_toLineEnd (by decide) _
  | kernel => exact absurd rfl hk
  | cmdline => exact inLine_toLineEnd (by decide) _

theorem newline_mem_decodeAscii {b : Line} (h : newline ∈ decodeAscii b) : newline ∈ b := by
  rw [decodeAscii, List.mem_flatMap] at h
  obtain ⟨c, hc, hmem⟩ := h
  split_ifs at hmem
  · rwa [List.mem_singleton.mp hmem]
  · exact absurd hmem (by decide)

theorem mem_of_mem_strip {c : UInt8} {l : Line} (h : c ∈ strip l) : c ∈ l :=
  (List.dropWhile_suffix _).subset ((List.rdropWhile_prefix _ _).subset h)

/-- A line of the summary is one line, and begins with a blank. -/
theorem summaryLines_spec {blob l : Line} (h : l ∈ summaryLines blob) :
    newline ∉ l ∧ l.head? = some space := by
  rw [summaryLines, List.mem_flatMap] at h
  obtain ⟨k, hk, hl⟩ := h
  obtain ⟨v, hv, rfl⟩ := List.mem_map.mp hl
  refine ⟨?_, rfl⟩
  have hkernel : k ≠ .kernel := by
    rintro rfl
    exact absurd hk (by decide)
  have hname : newline ∉ padRight (k.name ++ ascii ":") := by
    cases k <;> decide
  have hvalue : newline ∉ v := by
    obtain ⟨vs, hvs, hmem⟩ : ∃ vs, (k, vs) ∈ summarise blob ∧ v ∈ vs := by
      cases hlook : (summarise blob).lookup k with
      | none =>
        rw [hlook] at hv
        exact absurd hv List.not_mem_nil
      | some vs =>
        rw [hlook] at hv
        obtain ⟨l₁, l₂, hl, -⟩ := List.lookup_eq_some_iff.mp hlook
        exact ⟨vs, hl ▸ List.mem_append_right _ (List.mem_cons_self ..), hv⟩
    rw [summarise, List.mem_filterMap] at hvs
    obtain ⟨k', -, hfound⟩ := hvs
    dsimp only at hfound
    split_ifs at hfound
    obtain ⟨rfl, rfl⟩ := Prod.mk.inj (Option.some.inj hfound)
    obtain ⟨x, hx, rfl⟩ := List.mem_map.mp hmem
    intro hnl
    exact mem_findall (Key.inLine hkernel) blob 0 x (List.mem_of_mem_take hx)
      (newline_mem_decodeAscii (mem_of_mem_strip hnl))
  simp only [List.mem_append, not_or]
  exact ⟨by decide, hname, by decide, hvalue⟩

/-! ### Where a session ends -/

/-- The end of a line. -/
def ends (l : Line) : Line := l ++ [newline]

theorem joinLines_ends {ls : List Line} (h : ls ≠ []) : ends (joinLines ls) = ls.flatMap ends := by
  induction ls with
  | nil => exact absurd rfl h
  | cons l ls ih =>
    cases ls with
    | nil => simp [joinLines, ends]
    | cons l' ls =>
      have hrest := ih (List.cons_ne_nil _ _)
      rw [List.flatMap_cons, ← hrest]
      simp [joinLines, ends, List.intercalate_cons_cons]

/-- A printed number ends at the blank behind it. -/
theorem delimits_digits {b : ℕ} {f : ℕ → List ℕ} (hlt : ∀ n, ∀ d ∈ f n, d < 16)
    (hval : ∀ n, value b (f n) = n) :
    Delimits (fun _ : ℕ => True) fun n => (f n).map hexChar ++ [space] := by
  have hchar : ∀ d < 16, hexChar d ≠ space := by decide
  have hread (n : ℕ) : ((f n).map hexChar).map hexVal = (f n).map some := by
    rw [List.map_map]
    exact List.map_congr_left fun d hd => hexVal_hexChar d (hlt n d hd)
  refine (Delimits.terminated space).comp (g := fun n => (f n).map hexChar) ?_ ?_
  · intro n _ hmem
    obtain ⟨d, hd, heq⟩ := List.mem_map.mp hmem
    exact hchar d (hlt n d hd) heq
  · intro n n' _ _ h
    have hsome : (f n).map some = (f n').map some := by
      rw [← hread n, ← hread n']
      exact congrArg _ h
    rw [← hval n, ← hval n', List.map_injective_iff.mpr (Option.some_injective ℕ) hsome]

theorem delimits_decimal : Delimits (fun _ : ℕ => True) fun n => decimal n ++ [space] := by
  refine delimits_digits (b := 10) ?_ (value_numeral 10)
  intro n d hd
  exact (numeral_lt (by omega) d hd).trans (by omega)

theorem delimits_hex08 : Delimits (fun _ : ℕ => True) fun n => hex08 n ++ [space] := by
  have hzeros (k : ℕ) : value 16 (List.replicate k 0) = 0 := by
    induction k with
    | zero => rfl
    | succ k ih => rw [List.replicate_succ, value_cons, ih, zero_mul]
  refine delimits_digits (b := 16)
    (f := fun n => List.replicate (8 - (numeral 16 n).length) 0 ++ numeral 16 n) ?_ ?_
  · intro n d hd
    rcases List.mem_append.mp hd with hd | hd
    · rw [List.eq_of_mem_replicate hd]
      omega
    · exact numeral_lt (by omega) d hd
  · intro n
    rw [value_append, hzeros, zero_mul, zero_add, value_numeral]

/-- The header tells the offset and the length. -/
theorem delimits_sessionLine :
    Delimits (fun _ : ℕ × ℕ => True) fun x => ends (sessionLine x.1 x.2) := by
  have hlen : Delimits (fun _ : ℕ => True) fun n =>
      ascii " (" ++ ((decimal n ++ [space]) ++ ends (ascii "bayt)")) :=
    (delimits_decimal.closed _).literal _
  have hboth := (delimits_hex08.pair (f := fun _ n => _) fun _ _ => hlen).literal
    (ascii "== oturum @ 0x")
  refine (hboth.mono fun _ _ => ⟨trivial, trivial⟩).congr ?_
  intro x _
  simp only [ends, sessionLine, List.append_assoc]
  rfl

/-- And so does the line of the counts. -/
theorem delimits_countLine :
    Delimits (fun _ : ℕ × ℕ => True) fun x => ends (countLine x.1 x.2) := by
  have hkept : Delimits (fun _ : ℕ => True) fun n =>
      ascii "oturum bulundu, " ++ ((decimal n ++ [space]) ++
        ends (ascii "tanesi yaziliyor (en yenisi en altta)")) :=
    (delimits_decimal.closed _).literal _
  have hboth := (delimits_decimal.pair (f := fun _ n => _) fun _ _ => hkept).literal (ascii "# ")
  refine (hboth.mono fun _ _ => ⟨trivial, trivial⟩).congr ?_
  intro x _
  simp only [ends, countLine, List.append_assoc]
  rfl

/-- The summary ends at the bar. -/
theorem delimits_summary :
    Delimits (fun ls : List Line => ∀ l ∈ ls, newline ∉ l ∧ l.head? = some space)
      fun ls => ls.flatMap ends ++ ends bar := by
  have hline : Delimits (fun l : Line => newline ∉ l ∧ l.head? = some space) ends :=
    (Delimits.terminated newline).mono fun _ h => h.1
  refine hline.until_word ?_
  rintro l r s ⟨hl, hhead⟩ heq
  obtain ⟨rfl, -⟩ := Delimits.terminated newline hl (show newline ∉ bar by decide) heq
  exact absurd hhead (by decide)

/-- The blob has the length that the header says. -/
def Framed (x : (ℕ × ℕ) × List Line × Line) : Prop :=
  (∀ l ∈ x.2.1, newline ∉ l ∧ l.head? = some space) ∧ x.2.2.length = x.1.2

theorem delimits_framed : Delimits Framed fun x : (ℕ × ℕ) × List Line × Line =>
    ends bar ++ (ends (sessionLine x.1.1 x.1.2) ++
      ((x.2.1.flatMap ends ++ ends bar) ++ (x.2.2 ++ [newline, newline]))) := by
  have hblob (n : ℕ) : Delimits (fun b : Line => b.length = n) fun b => b ++ [newline, newline] :=
    (Delimits.fixed n).closed _
  have hbody (n : ℕ) := delimits_summary.pair (f := fun _ b => _) fun _ _ => hblob n
  have hcode := delimits_sessionLine.pair (f := fun _ y => _) fun x _ => hbody x.2
  exact (hcode.literal (ends bar)).mono fun x hx => ⟨trivial, hx⟩

theorem decodeAscii_eq_self {b : Line} (h : ∀ c ∈ b, c < 0x80) : decodeAscii b = b := by
  induction b with
  | nil => rfl
  | cons c b ih =>
    obtain ⟨hc, hb⟩ := List.forall_mem_cons.mp h
    have hrest : b.flatMap (fun c => if c < 0x80 then [c] else replacement) = b := ih hb
    rw [decodeAscii, List.flatMap_cons, if_pos hc, hrest]
    rfl

/-- **A session ends where its header says**, whatever its bytes. -/
theorem delimits_block : Delimits (fun s : ℕ × Line => ∀ c ∈ s.2, c < 0x80)
    fun s => (sessionLines s).flatMap ends := by
  have hcode := delimits_framed.comp (g := fun s : ℕ × Line =>
      ((s.1, s.2.length), summaryLines s.2, s.2))
    (fun s _ => ⟨fun l hl => summaryLines_spec hl, rfl⟩)
    (fun s s' (_ : ∀ c ∈ s.2, c < 0x80) _ h =>
      Prod.ext (Prod.mk.inj (Prod.mk.inj h).1).1 (Prod.mk.inj (Prod.mk.inj h).2).2)
  refine hcode.congr ?_
  intro s hs
  rw [sessionLines, decodeAscii_eq_self hs]
  simp [ends]

/-! ### What the text tells -/

/-- What `text` writes, with the counts in front. -/
theorem text_ends (a : Args) (data : List UInt8) :
    ends (text a data) = ends (sourceLine a.expdb data.length) ++
      (ends (countLine (sessions data a.minLen).length
          (kept a.all (sessions data a.minLen)).length) ++
        ([newline] ++ (kept a.all (sessions data a.minLen)).flatMap
          fun s => (sessionLines s).flatMap ends)) := by
  rw [text, reportLines, joinLines_ends (by simp)]
  simp [ends, List.flatMap_assoc]

/-- The bytes of a session are ASCII. -/
theorem ascii_of_mem_sessions {data : List UInt8} {minLen : ℤ} {s : ℕ × Line}
    (h : s ∈ sessions data minLen) : ∀ c ∈ s.2, c < 0x80 := by
  obtain ⟨b, blob⟩ := s
  obtain ⟨e, hses, rfl⟩ := (mem_sessions_iff data minLen b blob).mp h
  intro c hc
  obtain ⟨i, hi⟩ := List.mem_iff_getElem?.mp hc
  rw [slice, List.getElem?_drop, List.getElem?_take] at hi
  split_ifs at hi with hlt
  have hprint := hses.inside (b + i) c (Nat.le_add_right b i) hlt hi
  rcases hprint with ⟨-, hle⟩ | rfl | rfl | rfl
  · rw [UInt8.le_iff_toNat_le] at hle
    exact UInt8.lt_iff_toNat_lt.mpr (lt_of_le_of_lt hle (by decide))
  · decide
  · decide
  · decide

theorem newline_not_mem_sourceLine {expdb : Line} (h : newline ∉ expdb) (size : ℕ) :
    newline ∉ sourceLine expdb size := by
  have hchar : ∀ d < 16, hexChar d ≠ newline := by decide
  have hsize : newline ∉ decimal size := by
    intro hmem
    obtain ⟨d, hd, heq⟩ := List.mem_map.mp hmem
    exact hchar d ((numeral_lt (by omega) d hd).trans (by omega)) heq
  simp only [sourceLine, List.mem_append, not_or]
  exact ⟨by decide, h, by decide, hsize, by decide⟩

theorem mem_of_mem_kept {all : Bool} {ses : List (ℕ × Line)} {s : ℕ × Line} (h : s ∈ kept all ses) :
    s ∈ ses := by
  rw [kept] at h
  split_ifs at h
  · exact h
  · exact List.mem_of_mem_drop h

theorem text_inj {a a' : Args} {data data' : List UInt8} (ha : newline ∉ a.expdb)
    (ha' : newline ∉ a'.expdb) (h : text a data = text a' data') :
    kept a.all (sessions data a.minLen) = kept a'.all (sessions data' a'.minLen) ∧
      (sessions data a.minLen).length = (sessions data' a'.minLen).length := by
  have hends := congrArg ends h
  rw [text_ends, text_ends] at hends
  obtain ⟨-, hcounts⟩ := Delimits.terminated newline (newline_not_mem_sourceLine ha _)
    (newline_not_mem_sourceLine ha' _) hends
  obtain ⟨hpair, hblocks⟩ := delimits_countLine (a := (_, _)) (b := (_, _)) trivial trivial hcounts
  obtain ⟨hfound, hkept⟩ := Prod.mk.inj hpair
  refine ⟨?_, hfound⟩
  have hascii (a : Args) (data : List UInt8) :
      ∀ s ∈ kept a.all (sessions data a.minLen), ∀ c ∈ s.2, c < 0x80 :=
    fun s hs => ascii_of_mem_sessions (mem_of_mem_kept hs)
  exact (delimits_block.many _).inj ⟨rfl, hascii a data⟩ ⟨hkept.symm, hascii a' data'⟩
    (List.append_cancel_left hblocks)

theorem main_written (a : Args) (data : List UInt8) :
    (main a data).written =
      if sessions data a.minLen = [] then none else some (text a data) := by
  rw [main]
  split_ifs <;> rfl

/-- **What is written tells which sessions were kept**, where they lay in the dump and every byte of
them, and how many were found: two runs that write the same text have found and kept the same. -/
theorem written_inj {a a' : Args} {data data' : List UInt8} {t : Line} (ha : newline ∉ a.expdb)
    (ha' : newline ∉ a'.expdb) (h : (main a data).written = some t)
    (h' : (main a' data').written = some t) :
    kept a.all (sessions data a.minLen) = kept a'.all (sessions data' a'.minLen) ∧
      (sessions data a.minLen).length = (sessions data' a'.minLen).length := by
  rw [main_written] at h h'
  split_ifs at h h'
  exact text_inj ha ha' ((Option.some.inj h).trans (Option.some.inj h').symm)

/-- A log between two bytes. -/
def between (c : UInt8) : List UInt8 := c :: ascii "boot mode 3" ++ [c]

def usualArgs : Args := ⟨ascii "expdb.bin", [], false, 4⟩

/-- What surrounds a session does not show. -/
theorem written_inj_between :
    kept usualArgs.all (sessions (between 0) usualArgs.minLen) =
        kept usualArgs.all (sessions (between 1) usualArgs.minLen) ∧
      (sessions (between 0) usualArgs.minLen).length =
        (sessions (between 1) usualArgs.minLen).length := by
  have hses : sessions (between 1) usualArgs.minLen = sessions (between 0) usualArgs.minLen := by
    decide +kernel
  have hsome : sessions (between 0) usualArgs.minLen ≠ [] := by decide +kernel
  have htext : text usualArgs (between 1) = text usualArgs (between 0) := by
    rw [text, text, hses]
    rfl
  have hzero : (main usualArgs (between 0)).written = some (text usualArgs (between 0)) :=
    (main_written _ _).trans (if_neg hsome)
  have hone : (main usualArgs (between 1)).written = some (text usualArgs (between 0)) := by
    rw [main_written, htext]
    exact if_neg (hses ▸ hsome)
  exact written_inj (by decide) (by decide) hzero hone

end Lklog
