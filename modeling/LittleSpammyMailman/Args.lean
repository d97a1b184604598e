/-
Numbers, the mode word and the messages that pass between host and device.

* device: `parse_hex`, `parse_mode` and the line of `hexline` in
  `lk/board-selene.c`;
* host: `printf %x` and the `16#` numerals of the shell.

A pointer into a C string is what is left of it; reading at its end gives the
NUL, which is no digit, no blank and no letter.

* `parseHex_printfX` — a number printed by the host is parsed by the device,
  which stops right behind its digits;
* `shHex_hexDigits` — the digits `hexline` writes are read back by the host.
-/
import LittleSpammyMailman.Text

open Text Numeral

namespace Selene

/-- `emit_mode`: 0 is text, 1 is hex. -/
inductive Mode
  | text
  | hex
  deriving DecidableEq, Repr

/-- A message of the device on the fastboot channel. -/
inductive FbMsg
  | info (l : Line)
  | okay (l : Line)
  | fail (l : Line)
  deriving DecidableEq, Repr

/-- The digit loop of `parse_hex`. -/
def parseDigits (v : UInt32) : Line → UInt32 × Line
  | [] => (v, [])
  | c :: p =>
    match hexVal c with
    | some d => parseDigits ((v <<< 4) ||| UInt32.ofNat d) p
    | none => (v, c :: p)

/-- `parse_hex`: the value, and where the pointer stops. -/
def parseHex (p : Line) : UInt32 × Line := parseDigits 0 (p.dropWhile (· == space))

/-- `parse_mode`: the word `hex` asks for hex mode, anything else is text. -/
def parseMode (p : Line) : Mode :=
  if (p.dropWhile (· == space)).take 3 = ascii "hex" then .hex else .text

/-- `h[(v >> k) & 0xF]` for `k = 28, 24, .. 0`. -/
def hexDigits (v : UInt32) : Line :=
  ([28, 24, 20, 16, 12, 8, 4, 0] : List UInt32).map fun k => hexChar ((v >>> k) &&& (0xF : UInt32)).toNat

/-- The line `hexline` sends; a label is cut at 24 characters. -/
def hexLine (label : Line) (v : UInt32) : Line :=
  (label.takeWhile (· != 0)).take 24 ++ ascii "=0x" ++ hexDigits v

/-- `printf %x` on the host. -/
def printfX (n : ℕ) : Line := (numeral 16 n).map hexChar

/-- `printf %x` of a shell number; a negative one shows as its two's complement. -/
def shPrintfX (z : ℤ) : Line := printfX (z % 2 ^ 64).toNat

/-- Reduction modulo 2^64 into the range of a shell number. -/
def wrap64 (z : ℤ) : ℤ := z.bmod (2 ^ 64)

/-- `$((16#s))` for a numeral; `none` for anything else.  On the empty string, and on most others,
the shell stops with an arithmetic error; an expression such as `10+10` it would evaluate, which
is not modelled: what the device sends and what the user is to give are numerals. -/
def shHex (s : Line) : Option ℤ :=
  if s ≠ [] ∧ (digitSpan hexVal s).2 = [] then some (wrap64 (value 16 (digitSpan hexVal s).1))
  else none

/-! ### Reading back -/

theorem hexVal_lt {c : UInt8} {d : ℕ} (h : hexVal c = some d) : d < 16 := by
  have hc := c.toNat_lt
  rw [hexVal] at h
  simp only [UInt8.le_iff_toNat_le] at h
  split_ifs at h with h1 h2 h3
  · obtain rfl := Option.some.inj h
    have : '9'.toUInt8.toNat = 57 := rfl
    have : '0'.toNat = 48 := rfl
    omega
  · obtain rfl := Option.some.inj h
    have : 'f'.toUInt8.toNat = 102 := rfl
    have : 'a'.toNat = 97 := rfl
    omega
  · obtain rfl := Option.some.inj h
    have : 'F'.toUInt8.toNat = 70 := rfl
    have : 'A'.toNat = 65 := rfl
    omega

/-- Shifting a digit in is multiplying by 16 and adding it, modulo 2^32. -/
theorem shift_or_digit (v : ℕ) {d : ℕ} (hd : d < 16) :
    (UInt32.ofNat v <<< 4) ||| UInt32.ofNat d = UInt32.ofNat (v * 16 + d) := by
  rw [← UInt32.toNat_inj, UInt32.toNat_or, UInt32.toNat_shiftLeft, UInt32.toNat_ofNat',
    UInt32.toNat_ofNat', UInt32.toNat_ofNat']
  -- the digit pushed out at the top is lost on both sides
  have hw : (v % 2 ^ 32) <<< ((4 : UInt32).toNat % 32) % 2 ^ 32 = (v % 2 ^ 28) <<< 4 := by
    have h4 : (4 : UInt32).toNat % 32 = 4 := rfl
    rw [h4, Nat.shiftLeft_eq, Nat.shiftLeft_eq]
    omega
  rw [hw, Nat.mod_eq_of_lt (show d < 2 ^ 32 by omega),
    ← Nat.shiftLeft_add_eq_or_of_lt (show d < 2 ^ 4 by omega), Nat.shiftLeft_eq]
  omega

/-- The digit loop computes the value of the longest digit prefix, modulo 2^32. -/
theorem parseDigits_eq (v : ℕ) (p : Line) :
    parseDigits (UInt32.ofNat v) p =
      (UInt32.ofNat ((digitSpan hexVal p).1.foldl (fun v d => v * 16 + d) v),
        (digitSpan hexVal p).2) := by
  induction p generalizing v with
  | nil => rfl
  | cons c p ih =>
    rw [parseDigits, digitSpan]
    cases h : hexVal c with
    -- the loop leaves the pointer at the first character that is no digit
    | none => rfl
    | some d =>
      simp only [shift_or_digit v (hexVal_lt h), ih]
      rfl

theorem parseHex_eq (p : Line) :
    parseHex p = (UInt32.ofNat (value 16 (digitSpan hexVal (p.dropWhile (· == space))).1),
      (digitSpan hexVal (p.dropWhile (· == space))).2) :=
  parseDigits_eq 0 _

theorem hexChar_ne_space : ∀ d < 16, (hexChar d == space) = false := by decide

theorem dropWhile_spaces (k : ℕ) {p : Line} (h : ∀ c ∈ p.head?, (c == space) = false) :
    (List.replicate k space ++ p).dropWhile (· == space) = p := by
  induction k with
  | zero =>
    cases p with
    | nil => rfl
    | cons c p =>
      rw [List.replicate_zero, List.nil_append, List.dropWhile_cons_of_neg]
      simpa using h c rfl
  | succ k ih =>
    rw [List.replicate_succ, List.cons_append, List.dropWhile_cons_of_pos (by simp), ih]

theorem digitSpan_printfX (n : ℕ) {p : Line} (h : ∀ c ∈ p.head?, hexVal c = none) :
    digitSpan hexVal (printfX n ++ p) = (numeral 16 n, p) := by
  refine digitSpan_map_append ?_ h
  intro d hd
  exact hexVal_hexChar d (numeral_lt (by omega) d hd)

/-- **A number printed by the host is parsed by the device**, modulo 2^32, and
the pointer stops right behind its digits. -/
theorem parseHex_printfX (k n : ℕ) {p : Line} (h : ∀ c ∈ p.head?, hexVal c = none) :
    parseHex (List.replicate k space ++ (printfX n ++ p)) = (UInt32.ofNat n, p) := by
  -- a numeral begins with a digit, so the blanks skipped are only those in front of it
  have hhead : ∀ c ∈ (printfX n ++ p).head?, (c == space) = false := by
    intro c hc
    obtain ⟨d, ds, hd⟩ := List.exists_cons_of_ne_nil (numeral_ne_nil 16 n)
    have hlt := numeral_lt (b := 16) (n := n) (by omega) d (by rw [hd]; simp)
    rw [printfX, hd, List.map_cons, List.cons_append, List.head?_cons, Option.mem_some_iff] at hc
    rw [← hc]
    exact hexChar_ne_space d hlt
  rw [parseHex_eq, dropWhile_spaces k hhead, digitSpan_printfX n h, value_numeral]

theorem parseHex_spaces (k : ℕ) {p : Line}
    (h : ∀ c ∈ p.head?, (c == space) = false ∧ hexVal c = none) :
    parseHex (List.replicate k space ++ p) = (0, p) := by
  rw [parseHex_eq, dropWhile_spaces k fun c hc => (h c hc).1,
    digitSpan_of_head fun c hc => (h c hc).2]
  rfl

theorem parseMode_spaces (k : ℕ) {p : Line} (h : ∀ c ∈ p.head?, (c == space) = false) :
    parseMode (List.replicate k space ++ p) = if p.take 3 = ascii "hex" then .hex else .text := by
  rw [parseMode, dropWhile_spaces k h]

/-- The word that asks for a mode. -/
def Mode.word : Mode → Line
  | .hex => ascii "hex"
  | .text => []

/-- The word behind a number: one blank or more stand between them. -/
def Mode.suffix (i : ℕ) : Mode → Line
  | .hex => List.replicate (i + 1) space ++ Mode.hex.word
  | .text => []

/-- `h` is no digit, so the word is never taken for a number. -/
theorem Mode.word_head (mode : Mode) :
    ∀ c ∈ mode.word.head?, (c == space) = false ∧ hexVal c = none := by
  intro c hc
  cases mode with
  | hex =>
    obtain rfl : 'h'.toUInt8 = c := Option.some.inj hc
    exact ⟨rfl, rfl⟩
  | text => exact absurd hc (by simp [Mode.word])

theorem parseMode_word (k : ℕ) (mode : Mode) :
    parseMode (List.replicate k space ++ mode.word) = mode := by
  rw [parseMode_spaces k fun c hc => (mode.word_head c hc).1]
  cases mode with
  | hex => exact if_pos rfl
  | text => exact if_neg (List.cons_ne_nil _ _).symm

theorem Mode.suffix_eq (i : ℕ) (mode : Mode) :
    ∃ k, mode.suffix i = List.replicate k space ++ mode.word := by
  cases mode with
  | hex => exact ⟨i + 1, rfl⟩
  | text => exact ⟨0, rfl⟩

theorem Mode.suffix_head (i : ℕ) (mode : Mode) : ∀ c ∈ (mode.suffix i).head?, hexVal c = none := by
  intro c hc
  cases mode with
  | hex =>
    obtain rfl : space = c := Option.some.inj hc
    exact hexVal_space
  | text => exact absurd hc (by simp [Mode.suffix])

theorem parseMode_suffix (i : ℕ) (mode : Mode) : parseMode (mode.suffix i) = mode := by
  obtain ⟨k, hk⟩ := mode.suffix_eq i
  rw [hk, parseMode_word]

/-- A number that is not there is 0, and the pointer stops at the word. -/
theorem parseHex_suffix (i : ℕ) (mode : Mode) : parseHex (mode.suffix i) = (0, mode.word) := by
  obtain ⟨k, hk⟩ := mode.suffix_eq i
  rw [hk, parseHex_spaces k mode.word_head]

theorem shPrintfX_natCast {n : ℕ} (h : n < 2 ^ 64) : shPrintfX n = printfX n := by
  have hmod : ((n : ℤ) % 2 ^ 64).toNat = n := by omega
  rw [shPrintfX, hmod]

theorem wrap64_of_lt {z : ℤ} (h0 : 0 ≤ z) (h : z < 2 ^ 63) : wrap64 z = z := by
  rw [wrap64, Int.bmod_eq_of_le] <;> omega

/-- The digits of `hexline` are the eight last hexadecimal digits. -/
theorem hexDigits_eq (v : UInt32) : hexDigits v = (padded 16 8 v.toNat).map hexChar := by
  have hand : ∀ n : ℕ, n &&& 15 = n % 16 := fun n => Nat.and_two_pow_sub_one_eq_mod n 4
  -- one nibble of the word is one digit of the number
  have hdigit : ∀ k : UInt32, ((v >>> k) &&& (0xF : UInt32)).toNat
      = v.toNat / 2 ^ (k.toNat % 32) % 16 := by
    intro k
    rw [UInt32.toNat_and, UInt32.toNat_shiftRight, Nat.shiftRight_eq_div_pow]
    exact hand _
  simp only [hexDigits, hdigit, List.map_cons, List.map_nil, padded, List.range, List.range.loop,
    List.reverse_cons, List.reverse_nil, List.nil_append, List.cons_append, UInt32.reduceToNat,
    Nat.reduceMod, Nat.reducePow]

@[simp] theorem length_hexDigits (v : UInt32) : (hexDigits v).length = 8 := rfl

theorem digitSpan_hexDigits (v : UInt32) :
    digitSpan hexVal (hexDigits v) = (padded 16 8 v.toNat, []) := by
  have h : digitSpan hexVal ((padded 16 8 v.toNat).map hexChar ++ []) = (padded 16 8 v.toNat, []) :=
    digitSpan_map_append
      (fun d hd => hexVal_hexChar d (padded_lt (by omega) 8 v.toNat d hd)) (by simp)
  rwa [List.append_nil, ← hexDigits_eq] at h

/-- **The digits `hexline` writes are read back by the shell.** -/
theorem shHex_hexDigits (v : UInt32) : shHex (hexDigits v) = some (v.toNat : ℤ) := by
  have hv := v.toNat_lt
  rw [shHex, digitSpan_hexDigits, if_pos ⟨List.cons_ne_nil _ _, rfl⟩, value_padded, Nat.mod_eq_of_lt (by omega),
    wrap64_of_lt (by omega) (by omega)]

end Selene
