import MixedCalculator.Sign
import MixedCalculator.Text.Numeral

namespace MixedCalculator

/-!
# Mixed numbers

A mixed number is the displayed form of a fraction: a whole part beside a numerator and a
denominator, as in `5 3/4`.  One sign governs all three parts, which are magnitudes, so a
number whose whole part and numerator are both negative cannot be expressed.  Nothing else is
required of the parts: the fraction may be improper, unreduced, or have a zero denominator,
because these are what a person may type and an evaluation has to answer for.

The read-only mark belongs to the display alone.  It says that a number is a result rather
than an operand, and takes no part in what the number is.
-/

/-- A sign over a whole part and a fraction, with a display mark. -/
structure MixedNumber where
  sign : Sign
  whole : UInt32
  num : UInt32
  den : UInt32
  readOnly : Bool := false
  deriving DecidableEq, Repr

namespace MixedNumber

/-- An editable number with the given parts.  Zero has no sign, so a negative zero comes out
positive. -/
def ofMagnitudes (sign : Sign) (whole num den : UInt32) : MixedNumber where
  sign := if whole = 0 ∧ num = 0 then .positive else sign
  whole := whole
  num := num
  den := den

/-- A positive number, the only kind that can be typed: a minus sign is an operator. -/
def positive (whole num den : UInt32) : MixedNumber :=
  ofMagnitudes .positive whole num den

/-- The editable zero `0 0/1`. -/
def zero : MixedNumber := positive 0 0 1

instance : Inhabited MixedNumber := ⟨zero⟩

/-- A positive number is stored exactly as given. -/
theorem positive_eq (whole num den : UInt32) :
    positive whole num den = ⟨.positive, whole, num, den, false⟩ := by
  simp [positive, ofMagnitudes]

/-- The same number, marked as a result. -/
def asReadOnly (m : MixedNumber) : MixedNumber :=
  { m with readOnly := true }

/-- The number without its display mark.  Two numbers have the same form when this agrees:
the same sign over the same three parts. -/
def form (m : MixedNumber) : MixedNumber :=
  { m with readOnly := false }

@[simp] theorem form_asReadOnly (m : MixedNumber) : m.asReadOnly.form = m.form := rfl

def isZero (m : MixedNumber) : Bool :=
  m.whole == 0 && m.num == 0

/-! ## The signed parts

The usual way to show a negative mixed number puts the sign on the whole part, or on the
numerator when there is no whole part.
-/

/-- The whole part with the sign of the number. -/
def signedWhole (m : MixedNumber) : Int :=
  m.sign.apply m.whole.toNat

/-- The numerator, with the sign of the number if no whole part carries it. -/
def signedNum (m : MixedNumber) : Int :=
  if m.whole = 0 then m.sign.apply m.num.toNat else m.num.toNat

/-- At most one of the two signed parts is negative. -/
theorem not_both_signed_parts_negative (m : MixedNumber) :
    ¬ (m.signedWhole < 0 ∧ m.signedNum < 0) := by
  intro both
  by_cases no_whole : m.whole = 0
  · have vanishing : m.signedWhole = 0 := by
      cases sign_m : m.sign <;> simp [signedWhole, sign_m, no_whole, Sign.apply]
    omega
  · have unsigned_num : m.signedNum = m.num.toNat := if_neg no_whole
    omega

/-! ## The written form -/

/-- The hyphen of a negative number. -/
def signChars : Sign -> List Char
  | .positive => []
  | .negative => ['-']

/-- A numerator and a denominator with a slash between them. -/
def quotientChars (num den : UInt32) : List Char :=
  Numeral.ofNat num.toNat ++ '/' :: Numeral.ofNat den.toNat

/-- The parts that are worth writing.  A zero numerator is left out, and so is a zero whole
part, except that a zero denominator is always shown: leaving it out would turn a number that
has no value into one that has. -/
def unsignedChars (m : MixedNumber) : List Char :=
  if m.num = 0 ∧ m.den ≠ 0 then Numeral.ofNat m.whole.toNat
  else if m.whole = 0 then quotientChars m.num m.den
  else Numeral.ofNat m.whole.toNat ++ ' ' :: quotientChars m.num m.den

/-- The written form of a number, such as `0`, `7`, `3/4`, `5 3/4`, `-11/12` or `-1 1/12`.
A zero with a denominator is written without a sign, whatever sign is stored. -/
def chars (m : MixedNumber) : List Char :=
  if m.isZero = true ∧ m.den ≠ 0 then ['0'] else signChars m.sign ++ m.unsignedChars

def text (m : MixedNumber) : String := String.ofList m.chars

end MixedNumber

end MixedCalculator
