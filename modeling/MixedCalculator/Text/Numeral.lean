namespace MixedCalculator
namespace Numeral

/-!
# Decimal numerals

Numbers are written in base ten without leading zeros, and read digit by digit.  Texts are
lists of characters here and in every other module that writes or reads, so that writing and
reading are ordinary list recursions; `String` appears only where a finished text is shown.
-/

/-- The digits of a natural number, without leading zeros. -/
def ofNat (n : Nat) : List Char :=
  Nat.toDigits 10 n

/-- The digits of an integer, behind a hyphen if it is negative. -/
def ofInt (n : Int) : List Char :=
  if n < 0 then '-' :: ofNat n.natAbs else ofNat n.natAbs

def natText (n : Nat) : String := String.ofList (ofNat n)

def intText (n : Int) : String := String.ofList (ofInt n)

/-- The value of a decimal digit. -/
def digitValue (c : Char) : Nat :=
  c.toNat - '0'.toNat

/-- The value of a run of digits that continues a run of the given value. -/
def extend (value : Nat) (digits : List Char) : Nat :=
  digits.foldl (fun soFar c => 10 * soFar + digitValue c) value

/-- A written number is read back, whatever zeros stand before it. -/
theorem extend_ofNat (n : Nat) : extend 0 (ofNat n) = n :=
  Nat.ofDigitChars_ten_toDigits

theorem extend_append (value : Nat) (first second : List Char) :
    extend value (first ++ second) = extend (extend value first) second := by
  simp only [extend, List.foldl_append]

/-- More digits never make a number smaller. -/
theorem le_extend (value : Nat) (digits : List Char) : value ≤ extend value digits := by
  induction digits generalizing value with
  | nil => exact Nat.le_refl value
  | cons c rest ih =>
      have step : value ≤ 10 * value + digitValue c := by omega
      exact Nat.le_trans step (ih (10 * value + digitValue c))

theorem ofNat_ne_nil (n : Nat) : ofNat n ≠ [] :=
  Nat.toDigits_ne_nil

theorem isDigit_of_mem_ofNat {n : Nat} {c : Char} (member : c ∈ ofNat n) : c.isDigit = true :=
  Nat.isDigit_of_mem_toDigits (by decide) (by decide) member

end Numeral
end MixedCalculator
