/-
Numbers as hexadecimal text of a fixed width.

Writing a number and reading it back is the number within the width; reading a text
and writing the number is the text in lower case.
-/

import KlaayGuard.Library.RustText
import Mathlib.Data.List.Induction
import Mathlib.Tactic.IntervalCases

set_option autoImplicit false

namespace HexText

open RustText

def digit (value : Nat) : Char :=
  if value < 10 then Char.ofNat (48 + value) else Char.ofNat (87 + value)

/-- `char::to_digit(16)`, where there is a digit. -/
def digitValue (c : Char) : Nat :=
  let n := c.toNat
  if n ≤ 57 then n - 48 else if n ≤ 70 then n - 55 else n - 87

def value (text : List Char) : Nat :=
  text.foldl (fun total c => 16 * total + digitValue c) 0

/-- The lowest digits of a number, as many as the width has places. -/
def write : Nat → Nat → List Char
  | 0, _ => []
  | width + 1, number => write width (number / 16) ++ [digit (number % 16)]

theorem digitValue_digit {number : Nat} (small : number < 16) :
    digitValue (digit number) = number := by
  interval_cases number <;> rfl

theorem isAsciiHexdigit_digit {number : Nat} (small : number < 16) :
    isAsciiHexdigit (digit number) = true := by
  interval_cases number <;> rfl

theorem isAscii_of_isAsciiHexdigit {c : Char} (hex : isAsciiHexdigit c = true) :
    isAscii c = true := by
  simp only [isAsciiHexdigit, isAsciiDigit, isAscii, Bool.or_eq_true, Bool.and_eq_true,
    decide_eq_true_eq] at hex ⊢
  omega

private theorem hexdigit_cases {c : Char} (hex : isAsciiHexdigit c = true) :
    (48 ≤ c.toNat ∧ c.toNat ≤ 57) ∨ (65 ≤ c.toNat ∧ c.toNat ≤ 70) ∨
      (97 ≤ c.toNat ∧ c.toNat ≤ 102) := by
  simp only [isAsciiHexdigit, isAsciiDigit, Bool.or_eq_true, Bool.and_eq_true,
    decide_eq_true_eq] at hex
  omega

theorem digitValue_lt {c : Char} (hex : isAsciiHexdigit c = true) : digitValue c < 16 := by
  rcases hexdigit_cases hex with range | range | range <;>
    · dsimp only [digitValue]
      split_ifs <;> omega

private theorem toNat_digit {number : Nat} (small : number < 16) :
    (digit number).toNat = if number < 10 then 48 + number else 87 + number := by
  interval_cases number <;> rfl

private theorem char_eq {c d : Char} (same : c.toNat = d.toNat) : c = d :=
  Char.ext (UInt32.toNat_inj.mp same)

theorem digit_digitValue {c : Char} (hex : isAsciiHexdigit c = true) :
    digit (digitValue c) = c.toLower := by
  apply char_eq
  rw [toNat_digit (digitValue_lt hex)]
  rcases hexdigit_cases hex with range | range | range
  · rw [toLower_eq_self (by omega)]
    dsimp only [digitValue]
    split_ifs <;> omega
  · rw [toNat_toLower (by omega)]
    dsimp only [digitValue]
    split_ifs <;> omega
  · rw [toLower_eq_self (by omega)]
    dsimp only [digitValue]
    split_ifs <;> omega

theorem isAsciiHexdigit_toLower {c : Char} :
    isAsciiHexdigit c.toLower = isAsciiHexdigit c := by
  by_cases upper : 65 ≤ c.toNat ∧ c.toNat ≤ 90
  · have shifted := toNat_toLower upper
    rw [Bool.eq_iff_iff]
    simp only [isAsciiHexdigit, isAsciiDigit, shifted, Bool.or_eq_true, Bool.and_eq_true,
      decide_eq_true_eq]
    omega
  · rw [toLower_eq_self upper]

@[simp] theorem length_write (width number : Nat) : (write width number).length = width := by
  induction width generalizing number with
  | zero => rfl
  | succ width ih => rw [write, List.length_append, ih, List.length_singleton]

theorem hexdigits_write (width number : Nat) :
    ∀ c ∈ write width number, isAsciiHexdigit c = true := by
  induction width generalizing number with
  | zero => simp [write]
  | succ width ih =>
      intro c member
      rcases List.mem_append.mp member with higher | lowest
      · exact ih _ c higher
      · rw [List.mem_singleton.mp lowest]
        exact isAsciiHexdigit_digit (Nat.mod_lt _ (by decide))

theorem value_concat (text : List Char) (c : Char) :
    value (text ++ [c]) = 16 * value text + digitValue c := by
  rw [value, List.foldl_append]
  rfl

theorem value_write (width number : Nat) : value (write width number) = number % 16 ^ width := by
  induction width generalizing number with
  | zero => rw [Nat.pow_zero, Nat.mod_one]; rfl
  | succ width ih =>
      have low := digitValue_digit (Nat.mod_lt number (show 0 < 16 by decide))
      have higher : 16 * (number / 16 % 16 ^ width) + number % 16 = number % 16 ^ (width + 1) := by
        rw [Nat.pow_succ', Nat.mod_mul, Nat.add_comm]
      rw [write, value_concat, ih, low, higher]

theorem value_lt {text : List Char} (hex : ∀ c ∈ text, isAsciiHexdigit c = true) :
    value text < 16 ^ text.length := by
  induction text using List.reverseRecOn with
  | nil => decide
  | append_singleton text c ih =>
      have before := ih fun other member => hex other (List.mem_append_left _ member)
      have last := digitValue_lt (hex c (by simp))
      rw [value_concat, List.length_append, List.length_singleton, Nat.pow_succ]
      omega

theorem write_value {text : List Char} (hex : ∀ c ∈ text, isAsciiHexdigit c = true) :
    write text.length (value text) = toAsciiLowercase text := by
  induction text using List.reverseRecOn with
  | nil => rfl
  | append_singleton text c ih =>
      have before := ih fun other member => hex other (List.mem_append_left _ member)
      have here := hex c (by simp)
      have small := digitValue_lt here
      have quotient : (16 * value text + digitValue c) / 16 = value text := by omega
      have remainder : (16 * value text + digitValue c) % 16 = digitValue c := by omega
      rw [List.length_append, List.length_singleton, write, value_concat, quotient, remainder,
        before, digit_digitValue here, toAsciiLowercase, toAsciiLowercase, List.map_append]
      rfl

theorem write_inj {width number other : Nat} (fits : number < 16 ^ width)
    (otherFits : other < 16 ^ width) (same : write width number = write width other) :
    number = other := by
  have values := congrArg value same
  rwa [value_write, value_write, Nat.mod_eq_of_lt fits, Nat.mod_eq_of_lt otherFits] at values

/-- `from_str_radix(_, 16)` of an unsigned type: an optional `+`, then at least one
digit, with a value below the bound of the type. -/
def fromStrRadix16 (bound : Nat) (text : List Char) : Option Nat :=
  let digits := if text.head? = some '+' then text.tail else text
  if digits ≠ [] ∧ digits.all isAsciiHexdigit = true ∧ value digits < bound then
    some (value digits)
  else none

theorem fromStrRadix16_of_hexdigits {bound : Nat} {text : List Char} (nonempty : text ≠ [])
    (hex : ∀ c ∈ text, isAsciiHexdigit c = true) (fits : 16 ^ text.length ≤ bound) :
    fromStrRadix16 bound text = some (value text) := by
  have unsigned : text.head? ≠ some '+' := by
    intro signed
    have plus := hex '+' (List.mem_of_head? signed)
    cases plus
  rw [fromStrRadix16, if_neg unsigned]
  exact if_pos ⟨nonempty, List.all_eq_true.mpr hex, Nat.lt_of_lt_of_le (value_lt hex) fits⟩

end HexText
