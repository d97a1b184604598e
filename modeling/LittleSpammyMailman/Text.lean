/-
Bytes, lines and digits shared by the device and the host.

A line is the byte string of a message without its terminator.  `hexChar` and
`hexVal` are the alphabet of every hexadecimal writer and reader of the
repository; `isPlain` is what a line may hold so that the channel can neither
cut it at a NUL nor break it in two.
-/
import LittleSpammyMailman.Numeral

namespace Text

abbrev Line := List UInt8

/-- The bytes of an ASCII literal. -/
def ascii (s : String) : List UInt8 := s.toList.map fun c => c.toNat.toUInt8

def newline : UInt8 := '\n'.toUInt8

def space : UInt8 := ' '.toUInt8

/-- `"0123456789abcdef"[d]` -/
def hexChar (d : ℕ) : UInt8 := (ascii "0123456789abcdef").getD d 0

/-- The value of a hexadecimal digit of either case. -/
def hexVal (c : UInt8) : Option ℕ :=
  if '0'.toUInt8 ≤ c ∧ c ≤ '9'.toUInt8 then some (c.toNat - '0'.toNat)
  else if 'a'.toUInt8 ≤ c ∧ c ≤ 'f'.toUInt8 then some (c.toNat - 'a'.toNat + 10)
  else if 'A'.toUInt8 ≤ c ∧ c ≤ 'F'.toUInt8 then some (c.toNat - 'A'.toNat + 10)
  else none

/-- The value of a decimal digit. -/
def decVal (c : UInt8) : Option ℕ :=
  if '0'.toUInt8 ≤ c ∧ c ≤ '9'.toUInt8 then some (c.toNat - '0'.toNat) else none

/-- `%d` or `%u` of a number that is not negative. -/
def decimal (n : ℕ) : Line := (Numeral.numeral 10 n).map hexChar

/-- Neither a control byte nor DEL; bytes from `0x80` on are plain. -/
def isPlain (c : UInt8) : Bool := 0x20 ≤ c && c != 0x7F

theorem hexVal_hexChar : ∀ d < 16, hexVal (hexChar d) = some d := by decide

theorem isPlain_hexChar : ∀ d < 16, isPlain (hexChar d) = true := by decide

theorem ne_zero_of_isPlain {c : UInt8} (h : isPlain c = true) : c ≠ 0 := by
  rintro rfl
  exact absurd h (by decide)

theorem hexVal_space : hexVal space = none := rfl

/-- The high and the low half of a byte. -/
theorem toNat_high (c : UInt8) : ((c >>> 4) &&& 0xF).toNat = c.toNat / 16 := by
  have hc := c.toNat_lt
  have hand : ∀ n : ℕ, n &&& 15 = n % 16 := fun n => Nat.and_two_pow_sub_one_eq_mod n 4
  rw [UInt8.toNat_and, UInt8.toNat_shiftRight]
  simp only [UInt8.reduceToNat, Nat.reduceMod, Nat.shiftRight_eq_div_pow, Nat.reducePow, hand]
  omega

theorem toNat_low (c : UInt8) : (c &&& 0xF).toNat = c.toNat % 16 := by
  rw [UInt8.toNat_and]
  exact Nat.and_two_pow_sub_one_eq_mod c.toNat 4

end Text
