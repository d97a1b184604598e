/-
The collection loop of `tools/flash-session/08-lkdump.sh` against the device.

`pass` is the body of the loop once the command has returned, `sysStep` the
whole iteration with the device and the client in it.

* `pass_reply` — what one reply does to the host;
* `Collected` — the invariant of a hex run: what the file holds of the bytes
  counted so far;
* `roundTrips_iff` — when the collected file is the region;
* `lossDetected` — a run that does not warn has lost nothing, even if commands
  fail;
* `offset_progress` — the offsets grow and reach the end.
-/
import LittleSpammyMailman.Framing
import LittleSpammyMailman.Loop

open Text Layout Shell

namespace Selene

/-- The variables of the script and its two files. -/
structure Host where
  off : ℤ
  size : ℤ
  total : ℤ
  stall : ℤ
  rawhex : Line
  dest : Line

/-- How the loop is left. -/
inductive Exit
  | failed
  | noUsed
  | badNumber
  | stalled
  | complete
  deriving DecidableEq, Repr

namespace Host

def start : Host := ⟨0, 0, 0, 0, [], []⟩

/-- Append the data lines: in hex mode without blanks and line ends. -/
def append (mode : Mode) (data : List Line) (h : Host) : Host :=
  match mode with
  | .hex =>
    { h with rawhex := h.rawhex ++ (echoed data).flatten.filter fun c =>
        c != space && c != '\r'.toUInt8 && c != newline }
  | .text => { h with dest := h.dest ++ (echoed data).flatMap fun l => l ++ [newline] }

/-- `total`, `off` and `stall` after a reply. -/
def advance (used : ℤ) (h : Host) : Host :=
  { h with
    total := wrap64 (h.total + used)
    off := wrap64 (h.off + used)
    stall := if used = 0 then h.stall + 1 else 0 }

end Host

/-- The body of the loop, from the command's exit on; `none` is a failed command.  A field that is
no numeral ends the modelled run (`badNumber`): the shell stops with an error there, or goes on
with the value of an expression. -/
def pass (mode : Mode) (h : Host) : Option (List Line) → Host ⊕ (Exit × Host)
  | none => .inr (.failed, h)
  | some raw =>
    let b := body raw
    let s := field (ascii "size=0x") b
    let u := field (ascii "used=0x") b
    match if s = [] then some h.size else shHex s with
    | none => .inr (.badNumber, h)
    | some size =>
      let h := { h with size := size }
      if u = [] then .inr (.noUsed, h)
      else
        match shHex u with
        | none => .inr (.badNumber, h)
        | some used =>
          let h := (h.append mode (payload b)).advance used
          if used = 0 ∧ 2 ≤ h.stall then .inr (.stalled, h)
          else if 0 < h.size ∧ h.size ≤ h.off then .inr (.complete, h)
          else .inl h

/-- The word behind the length. -/
def modeWord : Mode → Line
  | .hex => ascii " hex"
  | .text => []

/-- `args` -/
def args (mode : Mode) (off : ℤ) : Line := shPrintfX off ++ ascii " 0" ++ modeWord mode

namespace Tools

variable (t : Tools)

/-- What reaches the device behind the command's name. -/
def argument (mode : Mode) (off : ℤ) : Line := List.replicate t.lead space ++ args mode off

/-- `$DEST` when the script ends. -/
def file (mode : Mode) (h : Host) : List UInt8 :=
  match mode with
  | .hex => t.xxd h.rawhex
  | .text => h.dest

/-- The script ends with the size warning. -/
def warned (mode : Mode) (h : Host) : Bool :=
  match mode with
  | .hex => ((t.file .hex h).length : ℤ) != h.total
  | .text => false

end Tools

/-- The client's exit status: the last message decides. -/
def succeeded (ms : List FbMsg) : Bool :=
  match ms.getLast? with
  | some (.okay _) => true
  | _ => false

/-- Host and device, and the number of commands issued. -/
structure Sys where
  host : Host
  lk : LK
  issued : ℕ

def Sys.start (lk : LK) : Sys := ⟨Host.start, lk, 0⟩

/-- One iteration; `fault n` makes the `n`-th command fail on its way. -/
def sysStep (t : Tools) (r : Region) (m : Machine) (mode : Mode) (fault : ℕ → Bool) (s : Sys) :
    Sys ⊕ (Exit × Sys) :=
  let lk := r.command m (some (t.argument mode s.host.off)) s.lk.quiet
  let reply :=
    if fault s.issued ∨ succeeded lk.em.sent = false then none
    else some (t.output s.issued (infos lk.em.sent))
  match pass mode s.host reply with
  | .inl h => .inl ⟨h, lk, s.issued + 1⟩
  | .inr (e, h) => .inr (e, ⟨h, lk, s.issued + 1⟩)

/-! ### One iteration -/

/-- The device reads the arguments the script gives. -/
theorem windowArgs_argument (t : Tools) (mode : Mode) {o : ℕ} (ho : o < 2 ^ 64) :
    windowArgs (some (t.argument mode o)) = ⟨UInt32.ofNat o, 0, mode⟩ := by
  have harg : t.argument mode o = List.replicate t.lead space ++
      (printfX o ++ (List.replicate 1 space ++ (printfX 0 ++ modeWord mode))) := by
    rw [Tools.argument, args, shPrintfX_natCast ho, List.append_assoc]
    rfl
  have hword : modeWord mode = mode.suffix 0 := by
    cases mode <;> rfl
  rw [harg, hword, windowArgs_printfX _ _ _ _ Nat.one_pos (mode.suffix_head 0), parseMode_suffix]
  rfl

theorem succeeded_reply (head data : List Line) (v : UInt32) :
    succeeded (reply head data v) = true := by
  rw [succeeded, reply, List.getLast?_concat]

theorem hexDigits_ne_nil (v : UInt32) : hexDigits v ≠ [] := List.cons_ne_nil _ _

/-- **What one reply does to the host**, when none of its data lines is hidden. -/
theorem pass_reply (t : Tools) (n : ℕ) (mode : Mode) (h : Host) (r : Region) (w : WindowArgs)
    {data : List Line} (hne : ∀ l ∈ data, l ≠ []) (hid : ∀ l ∈ data, hidden l = false)
    (v : UInt32) :
    pass mode h (some (t.output n (infos (reply (r.header w) data v)))) =
      let h' := ({ h with size := (r.total.toNat : ℤ) }.append mode data).advance (v.toNat : ℤ)
      if (v.toNat : ℤ) = 0 ∧ 2 ≤ h'.stall then .inr (.stalled, h')
      else if 0 < h'.size ∧ h'.size ≤ h'.off then .inr (.complete, h')
      else .inl h' := by
  have hsize : field (ascii "size=0x") (r.header w ++ data ++ [hexLine (ascii "used") v])
      = hexDigits r.total := by rw [List.append_assoc, field_size]
  have hdata : payload (r.header w ++ data ++ [hexLine (ascii "used") v]) = data :=
    ((agrees_iff r w hne v).mpr hid).data
  rw [pass, body_reply]
  simp only [hsize, field_used r w hid v, if_neg (hexDigits_ne_nil _), shHex_hexDigits, hdata]

/-! ### Progress -/

/-- How far one command reaches from offset `o` on. -/
def reach (r : Region) (o : ℕ) : ℕ := min 0x1000 (r.total.toNat - o)

/-- What a command consumes at least. -/
def quota : Mode → ℕ
  | .text => 128
  | .hex => 1792

theorem quota_le_usedBytes (mode : Mode) (bs : List UInt8) :
    min bs.length (quota mode) ≤ usedBytes mode bs := by
  cases mode with
  | text =>
    -- a line costs the budget at least two bytes: one to fill it, one to end it
    exact Page.two_mul_le_taken (by simp [Mode.format, dumpLine]) dumpLinesMax bs
  | hex =>
    rw [usedBytes, Page.taken_of_plain fun _ => rfl]
    exact min_le_min_left _ (by decide)

/-- A command with length 0 inside the region. -/
theorem command_at (r : Region) (m : Machine) (lk : LK) {arg : Option Line} {off : UInt32}
    {mode : Mode} (harg : windowArgs arg = ⟨off, 0, mode⟩) (h : off < r.total) :
    ∃ bs : List UInt8, bs.length = reach r off.toNat ∧
      (∀ content, m.Holds content lk.tables r.base r.total.toNat →
        bs = window content (r.base + off) (reach r off.toNat)) ∧
      (UInt32.ofNat (usedBytes mode bs)).toNat = usedBytes mode bs ∧
      (r.command m arg lk.quiet).em.sent
        = reply (r.header ⟨off, 0, mode⟩) (dataLines mode bs)
            (UInt32.ofNat (usedBytes mode bs)) := by
  have hlt := UInt32.lt_iff_toNat_lt.mp h
  have hacc : (windowArgs arg).off < r.total := by rwa [harg]
  obtain ⟨bs, hlen, hcont, hsent⟩ := dumpWindow_accepted r m arg lk.quiet hacc
  rw [harg] at hlen hcont hsent
  have hreach : (clampLen r.total off 0).toNat = reach r off.toNat :=
    toNat_clampLen h r.total_le 0
  rw [hreach] at hlen
  refine ⟨bs, hlen, ?_, ?_, hsent⟩
  · intro content hm
    have hwin := hm.shift (k := off.toNat) (j := bs.length) (by rw [hlen, reach]; omega)
    rw [UInt32.ofNat_toNat] at hwin
    rw [← hlen]
    exact hcont content hwin
  · have hle := usedBytes_le mode bs
    rw [hlen, reach] at hle
    exact UInt32.toNat_ofNat_of_lt' (show usedBytes mode bs < 2 ^ 32 by omega)

/-- The count in the trailer of the device's messages. -/
def reportedUsed (ms : List FbMsg) : ℕ :=
  ((shHex (((infos ms).getLast?.getD []).drop (ascii "used=0x").length)).getD 0).toNat

theorem reportedUsed_reply (head data : List Line) (v : UInt32) :
    reportedUsed (reply head data v) = v.toNat := by
  rw [reportedUsed, infos_reply, List.getLast?_concat, Option.getD_some, hexLine_used,
    List.drop_left, shHex_hexDigits]
  rfl

/-- A host that advances by what the device reports. -/
structure Cursor where
  off : ℕ
  lk : LK

def Tools.follow (t : Tools) (r : Region) (m : Machine) (mode : Mode) (c : Cursor) : Cursor :=
  let lk := r.command m (some (t.argument mode c.off)) c.lk.quiet
  { off := c.off + reportedUsed lk.em.sent, lk := lk }

/-- One command moves the cursor by its quota or to the end. -/
theorem follow_step (t : Tools) (r : Region) (m : Machine) (mode : Mode) (c : Cursor)
    (h : c.off < r.total.toNat) :
    c.off + min (quota mode) (r.total.toNat - c.off) ≤ (t.follow r m mode c).off ∧
      (t.follow r m mode c).off ≤ r.total.toNat := by
  have htotal := r.total_le
  have hoff : (UInt32.ofNat c.off).toNat = c.off :=
    UInt32.toNat_ofNat_of_lt' (show c.off < 2 ^ 32 by omega)
  obtain ⟨bs, hlen, _, hv, hsent⟩ := command_at r m c.lk
    (windowArgs_argument t mode (o := c.off) (by omega))
    (UInt32.lt_iff_toNat_lt.mpr (by rw [hoff]; exact h))
  rw [hoff, reach] at hlen
  have hlo := quota_le_usedBytes mode bs
  have hhi := usedBytes_le mode bs
  have hquota : quota mode ≤ 4096 := by cases mode <;> decide
  have hnext : (t.follow r m mode c).off = c.off + usedBytes mode bs := by
    rw [Tools.follow]
    show c.off + reportedUsed _ = _
    rw [hsent, reportedUsed_reply, hv]
  rw [hnext]
  constructor <;> omega

/-- **The offsets make progress.**  A window command with length 0 inside the region is accepted
and consumes at least 128 bytes in text mode, 1792 in hex mode, or the whole rest; so a host that
follows the reported counts reaches the end of the region in as many commands as the quota fits
into it, rounded up. -/
theorem offset_progress (t : Tools) (r : Region) (m : Machine) (mode : Mode) (lk : LK) :
    (∀ (arg : Option Line) (off : UInt32), windowArgs arg = ⟨off, 0, mode⟩ → off < r.total →
      ∃ data used,
        (r.command m arg lk.quiet).em.sent = reply (r.header ⟨off, 0, mode⟩) data used ∧
        min (min 0x1000 (r.total.toNat - off.toNat)) (quota mode) ≤ used.toNat ∧
        used.toNat ≤ min 0x1000 (r.total.toNat - off.toNat)) ∧
    ∃ n ≤ (r.total.toNat + quota mode - 1) / quota mode,
      ((t.follow r m mode)^[n] ⟨0, lk⟩).off = r.total.toNat ∧
      ∀ i < n, ((t.follow r m mode)^[i] ⟨0, lk⟩).off < ((t.follow r m mode)^[i + 1] ⟨0, lk⟩).off ∧
        ((t.follow r m mode)^[i + 1] ⟨0, lk⟩).off ≤ r.total.toNat := by
  constructor
  · intro arg off harg h
    obtain ⟨bs, hlen, _, hv, hsent⟩ := command_at r m lk harg h
    refine ⟨_, _, hsent, ?_, ?_⟩
    · rw [hv, ← reach, ← hlen]
      exact quota_le_usedBytes mode bs
    · rw [hv, ← reach, ← hlen]
      exact usedBytes_le mode bs
  · have hq : 0 < quota mode := by cases mode <;> decide
    have hstep : ∀ c : Cursor, True → c.off < r.total.toNat → True ∧
        c.off + min (quota mode) (r.total.toNat - c.off) ≤ (t.follow r m mode c).off ∧
        (t.follow r m mode c).off ≤ r.total.toNat :=
      fun c _ hc => ⟨trivial, follow_step t r m mode c hc⟩
    obtain ⟨n, hn, hlast, hall⟩ :=
      Loop.exists_walk hq hstep (s := ⟨0, lk⟩) trivial (Nat.zero_le _)
    exact ⟨n, hn, hlast, fun i hi => (hall i hi).2⟩

/-! ### A hex run -/

/-- The bytes of hex mode's 64 lines, and those counted: one line more is buffered. -/
theorem usedBytes_hex (bs : List UInt8) : usedBytes .hex bs = min bs.length 1820 :=
  Page.taken_of_plain (fun _ => rfl) dumpLinesMax bs

theorem dataLines_hex_flatten (bs : List UInt8) :
    (dataLines .hex bs).flatten = Mode.hex.render (bs.take 1792) := by
  rw [dataLines, ← Mode.render_flatten]
  exact congrArg _ (displayLines_take_of_plain (f := Mode.hex.format) (fun _ => rfl) _ bs)

theorem hexVal_isSome_ne {c x : UInt8} (h : (hexVal c).isSome = true) (hx : hexVal x = none) :
    c ≠ x := by
  rintro rfl
  rw [hx] at h
  exact absurd h (by simp)

/-- Hex lines hold no blank and no line end. -/
theorem append_hex (h : Host) (bs : List UInt8) :
    (h.append .hex (dataLines .hex bs)).rawhex = h.rawhex ++ Mode.hex.render (bs.take 1792) := by
  have hflat : (echoed (dataLines .hex bs)).flatten = (dataLines .hex bs).flatten := by
    rw [echoed]
    split
    · rename_i hnil
      rw [hnil]
      rfl
    · rfl
  show h.rawhex ++ List.filter _ (echoed _).flatten = _
  rw [hflat, List.filter_eq_self.mpr, dataLines_hex_flatten]
  intro c hc
  obtain ⟨l, hl, hcl⟩ := List.mem_flatten.mp hc
  have hdigit := ((dataLine_of_mem hl).hex rfl).2 c hcl
  have h1 : c ≠ space := hexVal_isSome_ne hdigit rfl
  have h2 : c ≠ '\r'.toUInt8 := hexVal_isSome_ne hdigit rfl
  have h3 : c ≠ newline := hexVal_isSome_ne hdigit rfl
  simp [h1, h2, h3]

/-- The file of a hex run after `o` bytes have been counted: it holds the bytes `f`, never more
than were counted; where none is missing it is the beginning of the region; one command is enough
to miss some of a region that one command cannot send. -/
structure Collected (r : Region) (content : UInt32 → UInt8) (h : Host) (o : ℕ) (f : List UInt8) :
    Prop where
  off : h.off = o
  total : h.total = o
  stall : h.stall = 0
  le : o ≤ r.total.toNat
  rawhex : h.rawhex = Mode.hex.render f
  length_le : f.length ≤ o
  faithful : f.length = o → f = window content r.base o
  short : 1792 < r.total.toNat → 0 < o → f.length < o
  whole : r.total.toNat ≤ 1792 → f.length = o

theorem collected_start (r : Region) (content : UInt32 → UInt8) :
    Collected r content Host.start 0 [] where
  off := rfl
  total := rfl
  stall := rfl
  le := Nat.zero_le _
  rawhex := rfl
  length_le := le_rfl
  faithful := fun _ => rfl
  short := fun _ h => absurd h (lt_irrefl 0)
  whole := fun _ => rfl

section

variable {r : Region} {content : UInt32 → UInt8} {h : Host} {o : ℕ} {f : List UInt8}

/-- **One reply of a hex run** keeps the invariant. -/
theorem Collected.step (hc : Collected r content h o f) (ho : o < r.total.toNat) :
    let bs := window content (r.base + UInt32.ofNat o) (reach r o)
    Collected r content
      (({ h with size := (r.total.toNat : ℤ) }.append .hex (dataLines .hex bs)).advance
        (usedBytes .hex bs : ℤ))
      (o + usedBytes .hex bs) (f ++ bs.take 1792) := by
  intro bs
  have htotal := r.total_le
  have hlen : bs.length = reach r o := length_window ..
  have hused : usedBytes .hex bs = min (reach r o) 1820 := by rw [usedBytes_hex, hlen]
  have hreach : 0 < reach r o ∧ reach r o ≤ r.total.toNat - o ∧ reach r o ≤ 4096 := by
    rw [reach]
    omega
  have hfull : 4096 ≤ reach r o ∨ reach r o = r.total.toNat - o := by
    rw [reach]
    omega
  -- the numbers of the shell are far from wrapping
  have hadd : wrap64 ((o : ℤ) + (usedBytes .hex bs : ℤ)) = ((o + usedBytes .hex bs : ℕ) : ℤ) := by
    rw [wrap64_of_lt (by omega) (by omega)]
    omega
  have htaken : (bs.take 1792).length = min (reach r o) 1792 := by
    rw [List.length_take, hlen, min_comm]
  have hle := hc.length_le
  have hflen : (f ++ bs.take 1792).length = f.length + min (reach r o) 1792 := by
    rw [List.length_append, htaken]
  refine ⟨?_, ?_, ?_, by omega, ?_, by omega, ?_, ?_, ?_⟩
  · show wrap64 (h.off + _) = _
    rw [hc.off, hadd]
  · show wrap64 (h.total + _) = _
    rw [hc.total, hadd]
  · exact if_neg (by omega)
  · show (({ h with size := (r.total.toNat : ℤ) } : Host).append .hex (dataLines .hex bs)).rawhex = _
    rw [append_hex, Mode.render_append]
    exact congrArg (· ++ _) hc.rawhex
  · -- nothing missing so far and nothing in this command: the command reached the end
    intro heq
    have hall : reach r o ≤ 1792 := by omega
    rw [hc.faithful (by omega), List.take_of_length_le (by omega), hused,
      min_eq_left (by omega), window_add]
  -- the first command of a large region drops bytes, and none comes back
  · intro hbig _
    have hshort := hc.short hbig
    omega
  · intro hsmall
    have hwhole := hc.whole hsmall
    omega

end

/-- The states of a run that goes on. -/
def Going (r : Region) (m : Machine) (content : UInt32 → UInt8) (s : Sys) : Prop :=
  m.Holds content s.lk.tables r.base r.total.toNat ∧
    ∃ o f, Collected r content s.host o f ∧ o < r.total.toNat

/-- How a run ends: after a failed command, or with everything counted. -/
def Ended (r : Region) (content : UInt32 → UInt8) (faulty : Prop) (e : Exit) (s : Sys) : Prop :=
  ∃ o f, Collected r content s.host o f ∧
    ((e = .failed ∧ faulty) ∨ (e = .complete ∧ o = r.total.toNat))

/-- **One iteration of a hex run.** -/
theorem sysStep_hex (t : Tools) (r : Region) (m : Machine) (content : UInt32 → UInt8)
    (fault : ℕ → Bool) (s : Sys) (hs : Going r m content s) :
    match sysStep t r m .hex fault s with
    | .inl s' => Going r m content s' ∧ s.host.off < s'.host.off
    | .inr (e, s') => Ended r content (fault s.issued = true) e s' := by
  obtain ⟨hm, o, f, hc, ho⟩ := hs
  have hnext := hm.meets (r.command_meets m (some (t.argument .hex (o : ℤ))) s.lk.quiet)
  have htotal := r.total_le
  have hoff : (UInt32.ofNat o).toNat = o :=
    UInt32.toNat_ofNat_of_lt' (show o < 2 ^ 32 by omega)
  obtain ⟨bs, hlen, hcont, hv, hsent⟩ := command_at r m s.lk
    (windowArgs_argument t .hex (o := o) (by omega))
    (UInt32.lt_iff_toNat_lt.mpr (by rw [hoff]; exact ho))
  have hbs := hcont content hm
  rw [hoff] at hlen hbs
  rw [sysStep, hc.off]
  simp only [hsent, succeeded_reply, Bool.true_eq_false, or_false]
  by_cases hf : fault s.issued = true
  · -- the command failed on its way: its output is dropped and the loop left
    rw [if_pos hf]
    exact ⟨o, f, hc, Or.inl ⟨rfl, hf⟩⟩
  · have hstep := hc.step ho
    rw [← hbs] at hstep
    -- something is counted, so the loop neither stalls nor stands still
    have hpos : 0 < usedBytes .hex bs := by
      rw [usedBytes_hex, hlen, reach]
      omega
    rw [if_neg hf, pass_reply t s.issued .hex s.host r _ dataLines_ne_nil
      (hidden_dataLines_hex bs) _, hv]
    obtain ⟨h', hh', hsize⟩ : ∃ h', h' = ({ s.host with size := (r.total.toNat : ℤ) }.append .hex
        (dataLines .hex bs)).advance (usedBytes .hex bs : ℤ) ∧
        h'.size = (r.total.toNat : ℤ) :=
      ⟨_, rfl, rfl⟩
    simp only [← hh'] at hstep ⊢
    rw [if_neg fun hx => by omega, hsize, hstep.off]
    by_cases hend : o + usedBytes .hex bs = r.total.toNat
    · rw [if_pos ⟨Int.natCast_pos.mpr r.total_pos, by exact_mod_cast hend.ge⟩]
      exact ⟨_, _, hstep, Or.inr ⟨rfl, hend⟩⟩
    · have hle := hstep.le
      rw [if_neg fun hx => hend (le_antisymm hle (by exact_mod_cast hx.2))]
      refine ⟨⟨hnext, _, _, hstep, by omega⟩, ?_⟩
      show (o : ℤ) < h'.off
      rw [hstep.off]
      omega

/-- **A hex run ends**, and how. -/
theorem hexRun_ends (t : Tools) (r : Region) (m : Machine) (content : UInt32 → UInt8) (lk : LK)
    (hm : m.Holds content lk.tables r.base r.total.toNat) (fault : ℕ → Bool) :
    ∃ fuel e s, Loop.run (sysStep t r m .hex fault) fuel (Sys.start lk) = some (e, s) ∧
      Ended r content (∃ n, fault n = true) e s := by
  have hgoing : Going r m content (Sys.start lk) :=
    ⟨hm, 0, [], collected_start r content, r.total_pos⟩
  have hgo : ∀ s s' : Sys, Going r m content s → sysStep t r m .hex fault s = .inl s' →
      Going r m content s' ∧
        (r.total.toNat - s'.host.off).toNat < (r.total.toNat - s.host.off).toNat := by
    intro s s' hs hstep
    have h := sysStep_hex t r m content fault s hs
    rw [hstep] at h
    obtain ⟨-, o, f, hc, ho⟩ := hs
    have hoff := hc.off
    refine ⟨h.1, ?_⟩
    have := h.2
    omega
  have hleave : ∀ (s : Sys) (es : Exit × Sys), Going r m content s →
      sysStep t r m .hex fault s = .inr es →
      Ended r content (∃ n, fault n = true) es.1 es.2 := by
    rintro s ⟨e, s'⟩ hs hstep
    have h := sysStep_hex t r m content fault s hs
    rw [hstep] at h
    obtain ⟨o, f, hc, hend⟩ := h
    exact ⟨o, f, hc, hend.imp_left fun hx => ⟨hx.1, _, hx.2⟩⟩
  obtain ⟨⟨e, s⟩, hrun, hpost⟩ := Loop.run_rule hgo hleave hgoing
  exact ⟨_, e, s, hrun, hpost⟩

theorem file_of_collected (t : Tools) {r : Region} {content : UInt32 → UInt8} {h : Host} {o : ℕ}
    {f : List UInt8} (hc : Collected r content h o f) : t.file .hex h = f := by
  rw [Tools.file]
  show t.xxd h.rawhex = f
  rw [hc.rawhex, t.xxd_pairs]

/-- A run of `08-lkdump.sh <region> hex` in which every command succeeds ends with the region in
the file. -/
def RoundTrips (t : Tools) (r : Region) (m : Machine) (content : UInt32 → UInt8) (lk : LK) : Prop :=
  ∃ fuel e s, Loop.run (sysStep t r m .hex fun _ => false) fuel (Sys.start lk) = some (e, s) ∧
    t.file .hex s.host = window content r.base r.total.toNat

/-- How a run without failing commands ends: with everything counted. -/
theorem hexRun_complete (t : Tools) {r : Region} {m : Machine} {content : UInt32 → UInt8} (lk : LK)
    (hm : m.Holds content lk.tables r.base r.total.toNat) :
    ∃ fuel s f, Loop.run (sysStep t r m .hex fun _ => false) fuel (Sys.start lk)
        = some (.complete, s) ∧ Collected r content s.host r.total.toNat f := by
  obtain ⟨fuel, e, s, hrun, o, f, hc, hend⟩ := hexRun_ends t r m content lk hm fun _ => false
  rcases hend with ⟨_, _, hf⟩ | ⟨rfl, rfl⟩
  · exact absurd hf (by simp)
  · exact ⟨fuel, s, f, hrun, hc⟩

theorem roundTrips_of_small (t : Tools) {r : Region} {m : Machine} {content : UInt32 → UInt8}
    (lk : LK) (hm : m.Holds content lk.tables r.base r.total.toNat) (hsmall : r.total.toNat ≤ 1792) :
    RoundTrips t r m content lk := by
  obtain ⟨fuel, s, f, hrun, hc⟩ := hexRun_complete t lk hm
  refine ⟨fuel, .complete, s, hrun, ?_⟩
  rw [file_of_collected t hc]
  exact hc.faithful (hc.whole hsmall)

/-- The file of a large region is too short. -/
theorem not_roundTrips_of_large (t : Tools) {r : Region} {m : Machine} {content : UInt32 → UInt8}
    (lk : LK) (hm : m.Holds content lk.tables r.base r.total.toNat) (hlarge : 1792 < r.total.toNat) :
    ¬ RoundTrips t r m content lk := by
  rintro ⟨fuel', e', s', hrun', hfile⟩
  obtain ⟨fuel, s, f, hrun, hc⟩ := hexRun_complete t lk hm
  obtain ⟨rfl, rfl⟩ := Prod.mk.inj (Loop.run_unique hrun hrun')
  have hshort := hc.short hlarge r.total_pos
  rw [file_of_collected t hc] at hfile
  rw [hfile, length_window] at hshort
  exact absurd hshort (lt_irrefl _)

/-- **When a hex run round-trips**: exactly for a region one command can send in full, 64 lines of
28 bytes.  Of a larger one every command counts a 65th line it does not send. -/
theorem roundTrips_iff (t : Tools) (r : Region) (m : Machine) (content : UInt32 → UInt8) (lk : LK)
    (hm : m.Holds content lk.tables r.base r.total.toNat) :
    RoundTrips t r m content lk ↔ r.total.toNat ≤ 1792 := by
  constructor
  · intro h
    by_contra hlarge
    exact not_roundTrips_of_large t lk hm (by omega) h
  · exact roundTrips_of_small t lk hm

theorem roundTrips_iff_sram : RoundTrips Tools.usual Region.sram (Machine.plain fun _ => 0x41)
    (fun _ => 0x41) LK.boot ↔ Region.sram.total.toNat ≤ 1792 :=
  roundTrips_iff _ _ _ _ _ (Machine.plain_holds _ _ _ _)

/-- No region of the device is that small. -/
theorem roundTrips_fails : ¬ RoundTrips Tools.usual Region.sram (Machine.plain fun _ => 0x41)
    (fun _ => 0x41) LK.boot :=
  not_roundTrips_of_large _ _ (Machine.plain_holds _ _ _ _) (by decide)

/-- **A run that does not warn has lost nothing**: whichever commands fail, the script ends, and if
the decoded size is the accumulated one, the file is the beginning of the region. -/
theorem lossDetected (t : Tools) (r : Region) (m : Machine) (content : UInt32 → UInt8) (lk : LK)
    (hm : m.Holds content lk.tables r.base r.total.toNat) (fault : ℕ → Bool) :
    (∃ fuel, (Loop.run (sysStep t r m .hex fault) fuel (Sys.start lk)).isSome = true) ∧
    ∀ fuel e s, Loop.run (sysStep t r m .hex fault) fuel (Sys.start lk) = some (e, s) →
      t.warned .hex s.host = false →
      0 ≤ s.host.total ∧ s.host.total ≤ r.total.toNat ∧
        t.file .hex s.host = window content r.base s.host.total.toNat := by
  obtain ⟨fuel, e, s, hrun, o, f, hc, -⟩ := hexRun_ends t r m content lk hm fault
  refine ⟨⟨fuel, by rw [hrun]; rfl⟩, ?_⟩
  intro fuel' e' s' hrun' hquiet
  -- any run that ends is this one, whatever the fuel
  obtain ⟨rfl, rfl⟩ := Prod.mk.inj (Loop.run_unique hrun hrun')
  have hle := hc.le
  rw [Tools.warned, bne_eq_false_iff_eq, file_of_collected t hc, hc.total] at hquiet
  rw [file_of_collected t hc, hc.total, Int.toNat_natCast]
  exact ⟨by omega, by omega, hc.faithful (by exact_mod_cast hquiet)⟩

/-- The beginning of the SRAM log, as far as one command can send it. -/
def Region.sramStart : Region :=
  { Region.sram with total := 0x700, total_pos := by decide, inArea := Or.inl (by decide) }

/-- A run over 1792 bytes that does not warn, and has them all. -/
theorem lossDetected_sram : ∃ fuel s,
    Loop.run (sysStep Tools.usual Region.sramStart (Machine.plain fun a => a.toUInt8) .hex
      fun _ => false) fuel (Sys.start LK.boot) = some (.complete, s) ∧
    Tools.usual.warned .hex s.host = false ∧ s.host.total = 1792 ∧
    Tools.usual.file .hex s.host
      = window (fun a => a.toUInt8) Region.sramStart.base s.host.total.toNat := by
  have hm := Machine.plain_holds (fun a => a.toUInt8) LK.boot.tables Region.sramStart.base
    Region.sramStart.total.toNat
  obtain ⟨fuel, s, f, hrun, hc⟩ := hexRun_complete Tools.usual LK.boot hm
  have hwhole : f.length = 1792 := hc.whole (by decide)
  have hquiet : Tools.usual.warned .hex s.host = false := by
    rw [Tools.warned, bne_eq_false_iff_eq, file_of_collected _ hc, hc.total, hwhole]
    rfl
  obtain ⟨-, hall⟩ := lossDetected Tools.usual Region.sramStart _ _ LK.boot hm fun _ => false
  obtain ⟨-, -, hfile⟩ := hall fuel .complete s hrun hquiet
  exact ⟨fuel, s, hrun, hquiet, hc.total, hfile⟩

end Selene
