/-
How the host reads a reply: the field extraction and the data filter of
`tools/flash-session/08-lkdump.sh`, and the fastboot client in between.

Text is a list of lines without terminators; the tools compare bytes (the C
locale).  What is not in the repository is `Tools`: how the client passes the
arguments, what it prints itself, and `xxd`.

* `body_raw` — behind the client's own output, the host sees the INFO lines;
* `hidden_render_text`, `hidden_render_hex` — which data lines the host takes
  for fields: in hex mode none, in text mode those whose bytes begin like one;
* `framingAgrees_iff` — when host and device agree on a reply;
* `exchange_lossless` — numbers and mode survive the way in both directions.
-/
import LittleSpammyMailman.Window

open Text Layout

namespace Shell

/-- `$( … )` drops the empty lines at the end. -/
def capture (ls : List Line) : List Line := ls.rdropWhile List.isEmpty

/-- `printf '%s\n' "$x"` of a captured text; of an empty one it is one empty line. -/
def echoed (ls : List Line) : List Line := if ls = [] then [[]] else ls

/-- `sed -n 's/^key//p'` -/
def sedStrip (key : Line) (ls : List Line) : List Line :=
  (ls.filter fun l => key.isPrefixOf l).map fun l => l.drop key.length

theorem capture_eq_self {ls : List Line} (h : ∀ l ∈ ls.getLast?, l ≠ []) : capture ls = ls := by
  refine List.rdropWhile_eq_self_iff.mpr ?_
  intro hl
  rw [List.isEmpty_iff]
  exact h _ (List.getLast?_eq_some_getLast hl)

theorem sedStrip_append (key : Line) (ls₁ ls₂ : List Line) :
    sedStrip key (ls₁ ++ ls₂) = sedStrip key ls₁ ++ sedStrip key ls₂ := by
  rw [sedStrip, List.filter_append, List.map_append]
  rfl

theorem sedStrip_eq_nil {key : Line} {ls : List Line} (h : ∀ l ∈ ls, ¬ key <+: l) :
    sedStrip key ls = [] := by
  rw [sedStrip, List.filter_eq_nil_iff.mpr fun l hl => ?_, List.map_nil]
  rw [List.isPrefixOf_iff_prefix]
  exact h l hl

theorem sedStrip_map (key : Line) (ls : List Line) :
    sedStrip key (ls.map (key ++ ·)) = ls := by
  rw [sedStrip, List.filter_eq_self.mpr]
  · rw [List.map_map]
    conv_rhs => rw [← List.map_id ls]
    refine List.map_congr_left ?_
    intro l _
    simp
  · intro l hl
    obtain ⟨l, _, rfl⟩ := List.mem_map.mp hl
    rw [List.isPrefixOf_iff_prefix]
    exact List.prefix_append key l

theorem sedStrip_cons_of_prefix (key l : Line) (ls : List Line) :
    sedStrip key ((key ++ l) :: ls) = l :: sedStrip key ls := by
  rw [← List.singleton_append, sedStrip_append]
  exact congrArg (· ++ _) (sedStrip_map key [l])

/-- An empty line matches no key, so capturing and printing changes nothing for `sed`. -/
theorem sedStrip_echoed {key : Line} (hkey : key ≠ []) (ls : List Line) :
    sedStrip key (echoed (capture ls)) = sedStrip key ls := by
  have hempty : ∀ ls : List Line, (∀ l ∈ ls, l.isEmpty = true) → sedStrip key ls = [] := by
    intro ls h
    refine sedStrip_eq_nil ?_
    intro l hl hpre
    rw [List.isEmpty_iff.mp (h l hl)] at hpre
    exact hkey (List.prefix_nil.mp hpre)
  -- what the capture drops is empty lines
  have hls : sedStrip key ls = sedStrip key (capture ls) := by
    conv_lhs => rw [← List.rdropWhile_append_rtakeWhile (p := List.isEmpty) (l := ls)]
    rw [sedStrip_append, hempty _ fun l hl => List.mem_rtakeWhile_imp hl, List.append_nil]
    rfl
  rw [hls, echoed]
  split
  · rename_i hnil
    rw [hnil, hempty [[]] (by simp)]
    rfl
  · rfl

end Shell

open Shell

namespace Selene

/-- What the client puts in front of an INFO line. -/
def bootloader : Line := ascii "(bootloader) "

/-- The programs the scripts call.  `lead` is how many blanks stand before the arguments when
they reach the device; `status n` is what the client prints after the INFO lines of the `n`-th
command, never marked as coming from the bootloader; `xxd` is `xxd -r -p`, which decodes pairs
of digits. -/
structure Tools where
  lead : ℕ
  status : ℕ → List Line
  status_own : ∀ n, ∀ l ∈ status n, ¬ bootloader <+: l
  xxd : Line → List UInt8
  xxd_pairs : ∀ bs, xxd (Mode.hex.render bs) = bs

/-- The digits of `xxd -r -p`, two to a byte. -/
def hexPairs : Line → List UInt8
  | a :: b :: l => UInt8.ofNat ((hexVal a).getD 0 * 16 + (hexVal b).getD 0) :: hexPairs l
  | _ => []

theorem hexPairs_render (bs : List UInt8) : hexPairs (Mode.hex.render bs) = bs := by
  induction bs with
  | nil => rfl
  | cons c bs ih =>
    have hc := c.toNat_lt
    show UInt8.ofNat ((hexVal (hexChar (c.toNat / 16))).getD 0 * 16
      + (hexVal (hexChar (c.toNat % 16))).getD 0) :: hexPairs (Mode.hex.render bs) = c :: bs
    rw [ih, hexVal_hexChar _ (by omega), hexVal_hexChar _ (by omega)]
    simp only [Option.getD_some]
    rw [show c.toNat / 16 * 16 + c.toNat % 16 = c.toNat by omega, UInt8.ofNat_toNat]

/-- The client as it is used on a desk: one blank, one line of status. -/
def Tools.usual : Tools where
  lead := 1
  status := fun _ => [ascii "OKAY [  0.023s]", ascii "Finished. Total time: 0.023s"]
  status_own := fun _ => by decide
  xxd := hexPairs
  xxd_pairs := hexPairs_render

namespace Tools

variable (t : Tools)

/-- What a successful `fastboot oem` prints. -/
def output (n : ℕ) (infos : List Line) : List Line :=
  infos.map (bootloader ++ ·) ++ t.status n

end Tools

/-- `body`, from what the client printed. -/
def body (raw : List Line) : List Line :=
  capture (sedStrip bootloader (echoed (capture raw)))

/-- `sed -n 's/^key//p' | head -1`; empty when there is no such line. -/
def field (key : Line) (body : List Line) : Line := (sedStrip key (echoed body)).headD []

/-- The beginnings that mark a line as header or trailer. -/
def fieldMarks : List Line :=
  [ascii "[selene]", ascii "mode=", ascii "size=", ascii "off=", ascii "used="]

/-- `grep -E '^(\[selene\]|mode=|size=|off=|used=)'`, in the C locale: the script sets no `LC_ALL`,
and where another one is in force `grep` also drops what is no text there. -/
def hidden (l : Line) : Bool := fieldMarks.any fun k => k.isPrefixOf l

/-- `data`, in the C locale as `hidden`. -/
def payload (body : List Line) : List Line := capture ((echoed body).filter fun l => !hidden l)

/-! ### What the host sees -/

theorem body_raw (t : Tools) (n : ℕ) {ls : List Line} (h : ∀ l ∈ ls.getLast?, l ≠ []) :
    body (t.output n ls) = ls := by
  rw [body, sedStrip_echoed (by decide), Tools.output, sedStrip_append, sedStrip_map,
    sedStrip_eq_nil (t.status_own n), List.append_nil, capture_eq_self h]

theorem hidden_iff {l : Line} : hidden l = true ↔ ∃ k ∈ fieldMarks, k <+: l := by
  simp [hidden, List.any_eq_true]

/-- No byte but a dot shows as another. -/
theorem shown_eq_iff {c x : UInt8} (hplain : isPlain c = true) (hdot : c ≠ '.'.toUInt8) :
    shown x = c ↔ x = c := by
  constructor
  · intro h
    rw [shown] at h
    split at h
    · exact h
    · exact absurd h.symm hdot
  · rintro rfl
    rw [shown, if_pos]
    simpa [isPlain] using hplain

theorem prefix_map_shown_iff {k : Line} (hk : ∀ c ∈ k, isPlain c = true ∧ c ≠ '.'.toUInt8)
    (l : Line) : k <+: l.map shown ↔ k <+: l := by
  induction k generalizing l with
  | nil => simp
  | cons c k ih =>
    have hc := hk c (by simp)
    cases l with
    | nil => simp
    | cons x l =>
      rw [List.map_cons, List.cons_prefix_cons, List.cons_prefix_cons,
        ih (fun d hd => hk d (by simp [hd])), eq_comm, shown_eq_iff hc.1 hc.2, eq_comm]

/-- **In text mode** the host hides the lines whose bytes begin like a field. -/
theorem hidden_render_text (l : List UInt8) : hidden (Mode.text.render l) = hidden l := by
  have hall : (fieldMarks.all fun k => k.all fun c => isPlain c && c != '.'.toUInt8) = true := rfl
  have hmarks : ∀ k ∈ fieldMarks, ∀ c ∈ k, isPlain c = true ∧ c ≠ '.'.toUInt8 := by
    simpa only [List.all_eq_true, Bool.and_eq_true, bne_iff_ne] using hall
  have hrender : Mode.text.render l = l.map shown := by
    rw [Mode.render, List.map_eq_flatMap]
    rfl
  rw [Bool.eq_iff_iff, hidden_iff, hidden_iff, hrender]
  refine exists_congr fun k => and_congr_right fun hk => ?_
  exact prefix_map_shown_iff (hmarks k hk) l

/-- **In hex mode** the host hides no line: no field begins with a digit. -/
theorem hidden_render_hex {l : List UInt8} (hl : l ≠ []) : hidden (Mode.hex.render l) = false := by
  have hhead : ∀ d < 16, ∀ k ∈ fieldMarks, ¬ ∃ k', k = hexChar d :: k' := by
    intro d hd k hk h
    obtain ⟨k', rfl⟩ := h
    have : ∀ d < 16, ∀ k ∈ fieldMarks, k.head? ≠ some (hexChar d) := by decide
    exact this d hd _ hk rfl
  -- the first character decides
  obtain ⟨c, l, rfl⟩ := List.exists_cons_of_ne_nil hl
  rw [Bool.eq_false_iff, ne_eq, hidden_iff]
  rintro ⟨k, hk, hpre⟩
  have hc := c.toNat_lt
  change k <+: hexChar (c.toNat / 16) :: _ at hpre
  rcases List.prefix_cons_iff.mp hpre with rfl | ⟨k', rfl, _⟩
  · exact absurd hk (by decide)
  · exact hhead _ (by omega) _ hk ⟨k', rfl⟩

/-! ### One reply -/

theorem not_prefix_of_head {k l : Line} (h : k.head? ≠ l.head?) (hk : k ≠ []) : ¬ k <+: l := by
  rintro ⟨l', rfl⟩
  obtain ⟨c, k, rfl⟩ := List.exists_cons_of_ne_nil hk
  exact h rfl

theorem hexLine_size (v : UInt32) : hexLine (ascii "size") v = ascii "size=0x" ++ hexDigits v := rfl

theorem hexLine_used (v : UInt32) : hexLine (ascii "used") v = ascii "used=0x" ++ hexDigits v := rfl

@[simp] theorem infos_reply (head data : List Line) (used : UInt32) :
    infos (reply head data used) = head ++ data ++ [hexLine (ascii "used") used] := by
  rw [reply, infos_append]
  simp [infos, List.filterMap_map]

theorem body_reply (t : Tools) (n : ℕ) (head data : List Line) (used : UInt32) :
    body (t.output n (infos (reply head data used)))
      = head ++ data ++ [hexLine (ascii "used") used] := by
  rw [infos_reply]
  refine body_raw t n ?_
  intro l hl
  rw [List.getLast?_concat, Option.mem_some_iff] at hl
  rw [← hl, hexLine_used]
  exact List.cons_ne_nil _ _

/-- No field but its own begins a line of the header. -/
theorem header_head (r : Region) (w : WindowArgs) :
    (r.header w).map List.head? = [some '['.toUInt8, some 'm'.toUInt8, some 's'.toUInt8,
      some 'o'.toUInt8] := by
  obtain ⟨rest, hrest⟩ := r.tag_selene
  rw [Region.header, ← hrest]
  cases w.mode <;> rfl

theorem hidden_header (r : Region) (w : WindowArgs) : ∀ l ∈ r.header w, hidden l = true := by
  intro l hl
  rw [Region.header] at hl
  simp only [List.mem_cons, List.not_mem_nil, or_false] at hl
  rw [hidden_iff]
  rcases hl with rfl | rfl | rfl | rfl
  · exact ⟨_, by simp [fieldMarks], r.tag_selene⟩
  · refine ⟨ascii "mode=", by simp [fieldMarks], ?_⟩
    cases w.mode <;> decide
  · exact ⟨ascii "size=", by simp [fieldMarks], List.prefix_append (ascii "size=") _⟩
  · exact ⟨ascii "off=", by simp [fieldMarks], List.prefix_append (ascii "off=") _⟩

theorem hidden_used (v : UInt32) : hidden (hexLine (ascii "used") v) = true := by
  rw [hidden_iff]
  exact ⟨ascii "used=", by simp [fieldMarks], List.prefix_append (ascii "used=") _⟩

theorem field_size (r : Region) (w : WindowArgs) (ls : List Line) :
    field (ascii "size=0x") (r.header w ++ ls) = hexDigits r.total := by
  obtain ⟨rest, hrest⟩ := r.tag_selene
  have htag : ¬ ascii "size=0x" <+: r.tag := by
    have hhead : r.tag.head? = some '['.toUInt8 := by
      rw [← hrest]
      rfl
    refine not_prefix_of_head ?_ (by decide)
    rw [hhead]
    decide
  have hmode : ¬ ascii "size=0x" <+: modeLine w.mode := by
    cases w.mode <;> exact not_prefix_of_head (by decide) (by decide)
  rw [field, echoed, if_neg (by simp [Region.header])]
  show (sedStrip _ ([r.tag, modeLine w.mode] ++ (hexLine (ascii "size") r.total :: _))).headD [] = _
  rw [sedStrip_append, sedStrip_eq_nil, List.nil_append, hexLine_size, sedStrip_cons_of_prefix]
  · rfl
  · intro l hl
    rcases List.mem_pair.mp hl with rfl | rfl
    · exact htag
    · exact hmode

/-- The count is read from the trailer, unless a data line is taken for it. -/
theorem field_used (r : Region) (w : WindowArgs) {data : List Line}
    (hdata : ∀ l ∈ data, hidden l = false) (v : UInt32) :
    field (ascii "used=0x") (r.header w ++ data ++ [hexLine (ascii "used") v])
      = hexDigits v := by
  have hhead : ∀ l ∈ r.header w, ¬ ascii "used=0x" <+: l := by
    intro l hl
    have hmem : l.head? ∈ (r.header w).map List.head? := List.mem_map_of_mem hl
    rw [header_head] at hmem
    refine not_prefix_of_head ?_ (by decide)
    intro heq
    rw [← heq] at hmem
    exact absurd hmem (by decide)
  -- a data line that passed for the trailer would be hidden
  have hbody : ∀ l ∈ data, ¬ ascii "used=0x" <+: l := by
    intro l hl hpre
    have hmark : ascii "used=" <+: l :=
      (List.prefix_append (ascii "used=") (ascii "0x")).trans hpre
    have hhid : hidden l = true := hidden_iff.mpr ⟨_, by simp [fieldMarks], hmark⟩
    rw [hdata l hl] at hhid
    exact absurd hhid (by simp)
  rw [field, echoed, if_neg (by simp), sedStrip_append, sedStrip_append, sedStrip_eq_nil hhead,
    sedStrip_eq_nil hbody, hexLine_used, sedStrip_cons_of_prefix]
  rfl

/-- The host gets the data lines that it does not hide. -/
theorem payload_reply (r : Region) (w : WindowArgs) {data : List Line}
    (hne : ∀ l ∈ data, l ≠ []) (v : UInt32) :
    payload (r.header w ++ data ++ [hexLine (ascii "used") v])
      = data.filter fun l => !hidden l := by
  have hhead : (r.header w).filter (fun l => !hidden l) = [] := by
    refine List.filter_eq_nil_iff.mpr ?_
    intro l hl
    simp [hidden_header r w l hl]
  have htail : [hexLine (ascii "used") v].filter (fun l => !hidden l) = [] := by
    simp [hidden_used v]
  rw [payload, echoed, if_neg (by simp), List.filter_append, List.filter_append, hhead, htail,
    List.nil_append, List.append_nil]
  refine capture_eq_self fun l hl => hne l ?_
  exact List.mem_of_mem_filter (List.mem_of_getLast? hl)

/-- The host reads the size, the count and the data lines the device sent. -/
structure Agrees (b : List Line) (total used : UInt32) (data : List Line) : Prop where
  size : shHex (field (ascii "size=0x") b) = some (total.toNat : ℤ)
  used : shHex (field (ascii "used=0x") b) = some (used.toNat : ℤ)
  data : payload b = data

/-- **Host and device agree on a reply** exactly when no data line is hidden. -/
theorem agrees_iff (r : Region) (w : WindowArgs) {data : List Line} (hne : ∀ l ∈ data, l ≠ [])
    (v : UInt32) :
    Agrees (r.header w ++ data ++ [hexLine (ascii "used") v]) r.total v data ↔
      ∀ l ∈ data, hidden l = false := by
  constructor
  · intro h l hl
    have hdata := h.data
    rw [payload_reply r w hne, List.filter_eq_self] at hdata
    simpa using hdata l hl
  · intro h
    refine ⟨?_, ?_, ?_⟩
    · rw [List.append_assoc, field_size, shHex_hexDigits]
    · rw [field_used r w h, shHex_hexDigits]
    · rw [payload_reply r w hne, List.filter_eq_self]
      intro l hl
      rw [h l hl]
      rfl

theorem dataLines_ne_nil {mode : Mode} {bs : List UInt8} : ∀ l ∈ dataLines mode bs, l ≠ [] :=
  fun _ hl => (dataLine_of_mem hl).ne_nil

theorem hidden_dataLines_hex (bs : List UInt8) :
    ∀ l ∈ dataLines .hex bs, hidden l = false := by
  intro l hl
  have hne := dataLines_ne_nil l hl
  obtain ⟨c, _, rfl⟩ := List.mem_map.mp hl
  exact hidden_render_hex fun h => hne (Mode.render_eq_nil_iff.mpr h)

/-- No line of the window's text begins like a field. -/
def Unmarked (bs : List UInt8) : Prop :=
  ∀ l ∈ (displayLines Mode.text.format bs).take dumpLinesMax, ∀ k ∈ fieldMarks, ¬ k <+: l

theorem hidden_dataLines_text (bs : List UInt8) :
    (∀ l ∈ dataLines .text bs, hidden l = false) ↔ Unmarked bs := by
  rw [dataLines, Unmarked, List.forall_mem_map]
  refine forall_congr' fun l => imp_congr_right fun _ => ?_
  rw [hidden_render_text, Bool.eq_false_iff, ne_eq, hidden_iff]
  push Not
  exact Iff.rfl

/-- The bytes an accepted window command reads. -/
def Region.bytes (r : Region) (content : UInt32 → UInt8) (w : WindowArgs) : List UInt8 :=
  window content (r.base + w.off) (clampLen r.total w.off w.len).toNat

/-- The reply to a window command, as the host parses it, gives the size, the count and the
data lines the device sent. -/
def FramingAgrees (t : Tools) (n : ℕ) (r : Region) (m : Machine) (arg : Option Line) (lk : LK) :
    Prop :=
  ∃ data used, (r.command m arg lk.quiet).em.sent = reply (r.header (windowArgs arg)) data used ∧
    Agrees (body (t.output n (infos (r.command m arg lk.quiet).em.sent))) r.total used data

theorem reply_inj {head data data' : List Line} {v v' : UInt32}
    (h : reply head data v = reply head data' v') :
    data = data' ∧ hexLine (ascii "used") v = hexLine (ascii "used") v' := by
  have hinfos := congrArg infos h
  rw [infos_reply, infos_reply] at hinfos
  obtain ⟨hleft, hright⟩ := List.append_inj' hinfos rfl
  exact ⟨List.append_cancel_left hleft, List.singleton_inj.mp hright⟩

/-- Agreement, in terms of the lines sent. -/
theorem framingAgrees_of_sent (t : Tools) (n : ℕ) {r : Region} {m : Machine} {arg : Option Line}
    {lk : LK} {data : List Line} {v : UInt32} (hne : ∀ l ∈ data, l ≠ [])
    (hsent : (r.command m arg lk.quiet).em.sent = reply (r.header (windowArgs arg)) data v) :
    FramingAgrees t n r m arg lk ↔ ∀ l ∈ data, hidden l = false := by
  rw [FramingAgrees, hsent]
  constructor
  · rintro ⟨data', v', heq, hagrees⟩
    -- the messages determine the data lines
    obtain ⟨rfl, hused⟩ := reply_inj heq
    rw [body_reply, hused] at hagrees
    exact (agrees_iff r _ hne v').mp hagrees
  · intro h
    refine ⟨data, v, rfl, ?_⟩
    rw [body_reply]
    exact (agrees_iff r _ hne v).mpr h

/-- What an accepted command makes the host believe, by the bytes of the window. -/
theorem framingAgrees_bytes (t : Tools) (n : ℕ) {r : Region} {m : Machine} {arg : Option Line}
    {content : UInt32 → UInt8} (lk : LK) (hacc : (windowArgs arg).off < r.total)
    (hm : m.Holds content lk.tables (r.base + (windowArgs arg).off)
      (clampLen r.total (windowArgs arg).off (windowArgs arg).len).toNat) :
    FramingAgrees t n r m arg lk ↔
      ∀ l ∈ dataLines (windowArgs arg).mode (r.bytes content (windowArgs arg)),
        hidden l = false := by
  obtain ⟨bs, hlen, hcont, hsent⟩ := dumpWindow_accepted r m arg lk.quiet hacc
  have hbs : bs = r.bytes content (windowArgs arg) := by
    rw [Region.bytes, ← hlen]
    exact hcont content (hlen ▸ hm)
  rw [← hbs]
  exact framingAgrees_of_sent t n dataLines_ne_nil hsent

/-- **When host and device agree on an accepted window command**: in hex mode always, in text
mode exactly when none of the lines shown begins like a header or trailer field. -/
theorem framingAgrees_iff (t : Tools) (n : ℕ) (r : Region) (m : Machine) (arg : Option Line)
    (content : UInt32 → UInt8) (lk : LK) (hacc : (windowArgs arg).off < r.total)
    (hm : m.Holds content lk.tables (r.base + (windowArgs arg).off)
      (clampLen r.total (windowArgs arg).off (windowArgs arg).len).toNat) :
    FramingAgrees t n r m arg lk ↔
      (windowArgs arg).mode = .hex ∨ Unmarked (r.bytes content (windowArgs arg)) := by
  rw [framingAgrees_bytes t n lk hacc hm]
  cases hmode : (windowArgs arg).mode with
  | hex => simpa using hidden_dataLines_hex _
  | text => simpa using hidden_dataLines_text _

/-- A log that says `used=0x0` at the start of the SRAM log. -/
def forgedLog : UInt32 → UInt8 := fun a => (ascii "used=0x0").getD (a - 0x0010E000).toNat 0

theorem framingAgrees_iff_forged :
    FramingAgrees Tools.usual 0 Region.sram (Machine.plain forgedLog) (some (ascii "0 8")) LK.boot ↔
      (windowArgs (some (ascii "0 8"))).mode = .hex ∨
        Unmarked (Region.sram.bytes forgedLog (windowArgs (some (ascii "0 8")))) :=
  framingAgrees_iff _ _ _ _ _ _ _ (by decide) (Machine.plain_holds _ _ _ _)

/-- The log line passes for the trailer: it is hidden from the output and moves the host by 0. -/
theorem framingAgrees_fails : ¬ FramingAgrees Tools.usual 0 Region.sram (Machine.plain forgedLog)
    (some (ascii "0 8")) LK.boot := by
  have hbytes : Region.sram.bytes forgedLog (windowArgs (some (ascii "0 8")))
      = ascii "used=0x0" := by decide
  have hmode : (windowArgs (some (ascii "0 8"))).mode = .text := by decide
  rw [framingAgrees_bytes _ _ _ (by decide) (Machine.plain_holds _ _ _ _), hbytes, hmode,
    hidden_dataLines_text]
  intro h
  -- eight bytes without a newline are one line
  have hline : displayLines Mode.text.format (ascii "used=0x0") = [ascii "used=0x0"] := by
    rw [displayLines, List.splitOnP_eq_singleton (by decide +kernel), List.flatMap_singleton,
      columns_of_length_le (by decide) (by decide)]
  rw [Unmarked, hline] at h
  exact h (ascii "used=0x0") (by simp [dumpLinesMax]) (ascii "used=") (by decide) (by decide)

/-! ### Numbers and mode, in both directions -/

/-- A label as the callers of `hexline` pass it: a C string, short enough not to be cut. -/
structure Label where
  text : Line
  no_nul : 0 ∉ text
  length_le : text.length ≤ 24

/-- The key the host strips. -/
def Label.key (l : Label) : Line := l.text ++ ascii "=0x"

theorem Label.hexLine_eq (l : Label) (v : UInt32) : hexLine l.text v = l.key ++ hexDigits v := by
  have hwhole : l.text.takeWhile (· != 0) = l.text := by
    refine List.takeWhile_eq_self_iff.mpr ?_
    intro c hc
    rw [bne_iff_ne]
    rintro rfl
    exact l.no_nul hc
  rw [hexLine, hwhole, List.take_of_length_le l.length_le, Label.key]

/-- The device reads what the host writes: both numbers, the offset alone, or neither. -/
structure ArgumentsRead (off len : UInt32) (mode : Mode) (k j i : ℕ) : Prop where
  both : Reads
    (List.replicate k space ++ (shPrintfX off.toNat ++
      (List.replicate (j + 1) space ++ (shPrintfX len.toNat ++ mode.suffix i))))
    (List.replicate (j + 1) space ++ (shPrintfX len.toNat ++ mode.suffix i))
    (mode.suffix i) ⟨off, len, mode⟩
  no_len : Reads (List.replicate k space ++ (shPrintfX off.toNat ++ mode.suffix i))
    (mode.suffix i) mode.word ⟨off, 0, mode⟩
  neither : Reads (List.replicate k space ++ mode.word) mode.word mode.word ⟨0, 0, mode⟩

theorem argumentsRead (off len : UInt32) (mode : Mode) (k j i : ℕ) :
    ArgumentsRead off len mode k j i := by
  have hprint : ∀ v : UInt32, shPrintfX v.toNat = printfX v.toNat := by
    intro v
    have hv := v.toNat_lt
    exact shPrintfX_natCast (by omega)
  have hword : parseHex mode.word = (0, mode.word) := parseHex_spaces 0 mode.word_head
  constructor
  · have h := reads_printfX k j off.toNat len.toNat (mode.suffix_head i)
    rw [UInt32.ofNat_toNat, UInt32.ofNat_toNat, parseMode_suffix] at h
    rw [hprint, hprint]
    exact h
  · have h := parseHex_printfX k off.toNat (mode.suffix_head i)
    rw [UInt32.ofNat_toNat] at h
    rw [hprint]
    exact ⟨h, parseHex_suffix i mode, parseMode_word 0 mode⟩
  · exact ⟨parseHex_spaces k mode.word_head, hword, parseMode_word 0 mode⟩

/-- The host reads what `hexline` writes, and the line fits `b[48]` with its terminator. -/
structure FieldRead (l : Label) (v : UInt32) : Prop where
  value : shHex (field l.key [hexLine l.text v]) = some (v.toNat : ℤ)
  fits : (hexLine l.text v).length + 1 ≤ 48

theorem fieldRead (l : Label) (v : UInt32) : FieldRead l v := by
  constructor
  · rw [field, echoed, if_neg (List.cons_ne_nil _ _), l.hexLine_eq, sedStrip_cons_of_prefix]
    exact shHex_hexDigits v
  · have hlen := l.length_le
    have htail : (ascii "=0x").length = 3 := rfl
    rw [l.hexLine_eq, Label.key, List.length_append, List.length_append, length_hexDigits]
    omega

/-- **Numbers and mode pass between host and device without loss**, in both directions, whatever
the blanks, the numbers and the label. -/
theorem exchange_lossless :
    (∀ (off len : UInt32) (mode : Mode) (k j i : ℕ), ArgumentsRead off len mode k j i) ∧
      ∀ (l : Label) (v : UInt32), FieldRead l v :=
  ⟨argumentsRead, fieldRead⟩

end Selene
