namespace MixedCalculator

/-!
# Signs

Magnitudes are kept apart from their sign throughout: in a mixed number, where one sign
governs three parts, and in a sum, where it governs a whole term.
-/

/-- The sign of a magnitude. -/
inductive Sign where
  | positive
  | negative
  deriving DecidableEq, Repr, Inhabited

namespace Sign

/-- The integer with this sign and the given magnitude.  A zero magnitude gives zero under
either sign. -/
def apply : Sign -> Nat -> Int
  | positive, magnitude => magnitude
  | negative, magnitude => -(magnitude : Int)

/-- The sign of an integer, zero counting as positive. -/
def ofInt (n : Int) : Sign :=
  if n < 0 then negative else positive

/-- An integer is recovered from its sign and its magnitude. -/
theorem apply_ofInt_natAbs (n : Int) : (ofInt n).apply n.natAbs = n := by
  unfold ofInt
  split
  · next negative_n =>
      simp only [apply]
      omega
  · next nonnegative_n =>
      simp only [apply]
      omega

@[simp] theorem natAbs_apply (sign : Sign) (magnitude : Nat) :
    (sign.apply magnitude).natAbs = magnitude := by
  cases sign <;> simp [apply]

end Sign

end MixedCalculator
