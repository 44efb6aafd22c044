import Mathlib.Tactic.TFAE
import MixedCalculator.Proofs.Evaluation.TypedBack

namespace MixedCalculator

/-!
# The mixed form is canonical

A fraction keeps the terms that an operation has left it with, and many fractions have the same
value.  Their mixed form is one and the same, and so is its text.  Conversely the form gives back
the fraction in lowest terms, whatever its sign, also at the least number, whose magnitude no
positive fraction holds.

That a text belongs to one form only is not shown on its characters.  What is read from it tells
the sign and the parts.
-/

namespace MixedNumber

theorem form_eq_of_unsigned_eq {m n : MixedNumber} (signs : m.sign = n.sign)
    (magnitudes : m.unsigned = n.unsigned) : m.form = n.form := by
  rw [unsigned, unsigned, positive_eq, positive_eq, MixedNumber.mk.injEq] at magnitudes
  rcases magnitudes with ⟨-, whole, num, den, -⟩
  simp only [form, signs, whole, num, den]

/-- The members that are typed for a number tell its sign and its parts. -/
theorem form_eq_of_typedSum_eq {m n : MixedNumber}
    (same : m.typedSum.members = n.typedSum.members) : m.form = n.form := by
  cases sign_m : m.sign with
  | positive =>
      cases sign_n : n.sign with
      | positive =>
          simp only [typedSum, sign_m, sign_n] at same
          exact form_eq_of_unsigned_eq (sign_m.trans sign_n.symm)
            (Member.number.inj (List.cons.inj same).1)
      | negative =>
          simp only [typedSum, sign_m, sign_n] at same
          cases same
  | negative =>
      cases sign_n : n.sign with
      | positive =>
          simp only [typedSum, sign_m, sign_n] at same
          cases same
      | negative =>
          simp only [typedSum, sign_m, sign_n] at same
          exact form_eq_of_unsigned_eq (sign_m.trans sign_n.symm)
            (Member.number.inj (List.cons.inj (List.cons.inj same).2).1)

/-- Numbers in normal form are written alike only if they are alike. -/
theorem Normal.form_eq_of_text_eq {m n : MixedNumber} (normal : m.Normal)
    (otherNormal : n.Normal) (same : m.text = n.text) : m.form = n.form := by
  apply form_eq_of_typedSum_eq
  have read := ofText_text_of_normal normal
  rw [same, ofText_text_of_normal otherNormal] at read
  exact (Except.ok.inj read).symm

/-- The form converts to the lowest terms that it was made from. -/
theorem toFraction_ofRat {q : Rat} (holdable : Holdable q) :
    (ofRat q).toFraction = .ok ⟨q.num, q.den, holdable⟩ := by
  rw [toFraction_eq_narrow _ (normal_ofRat holdable).den_ne_zero, wide_ofRat holdable]
  exact WideFraction.narrow_of_fits ⟨q.num, q.den⟩ holdable

theorem sign_ofRat_eq_negative_iff {q : Rat} (holdable : Holdable q) :
    (ofRat q).sign = .negative ↔ q < 0 := by
  rw [sign_ofRat holdable, ← Rat.num_neg, Sign.ofInt]
  split
  · next negative => exact iff_of_true rfl negative
  · next nonnegative => exact iff_of_false (fun impossible => by cases impossible) nonnegative

end MixedNumber

namespace Fraction

theorem toFraction_toMixed (a : Fraction) : a.toMixed.toFraction = .ok a.reduce :=
  MixedNumber.toFraction_ofRat a.holdable_value

theorem toMixed_reduce (a : Fraction) : a.reduce.toMixed = a.toMixed := by
  rw [toMixed, reduce_value, toMixed]

/-- The mixed form has the value of the fraction, a proper fraction in lowest terms, and a sign
exactly if that value is negative.  It gives back the lowest terms, whose mixed form it is again.
Two fractions have the same value if and only if they have the same form, or the same text. -/
theorem toMixed_canonical (a : Fraction) :
    a.toMixed.value = a.value ∧ 1 ≤ a.toMixed.den.toNat ∧
      a.toMixed.num.toNat < a.toMixed.den.toNat ∧
      Nat.gcd a.toMixed.num.toNat a.toMixed.den.toNat = 1 ∧
      (a.toMixed.sign = .negative ↔ a.value < 0) ∧
      (∃ back : Fraction, a.toMixed.toFraction = .ok back ∧ back.SameValue a ∧
        Nat.gcd back.num.natAbs back.den = 1 ∧ back.toMixed = a.toMixed) ∧
      ∀ b : Fraction, [a.SameValue b, a.value = b.value, a.toMixed.form = b.toMixed.form,
        a.toMixed.text = b.toMixed.text].TFAE := by
  refine ⟨a.toMixed_value, a.normal_toMixed.den_pos, a.normal_toMixed.proper,
    a.normal_toMixed.reduced, MixedNumber.sign_ofRat_eq_negative_iff a.holdable_value, ?_, ?_⟩
  · exact ⟨a.reduce, a.toFraction_toMixed, (sameValue_iff _ _).mpr a.reduce_value,
      a.value.reduced, a.toMixed_reduce⟩
  · intro b
    tfae_have 1 ↔ 2 := sameValue_iff a b
    tfae_have 2 → 3 := by
      intro same
      rw [toMixed, same, toMixed]
    tfae_have 3 → 4 := fun same => congrArg MixedNumber.text same
    tfae_have 4 → 2 := by
      intro same
      have forms := a.normal_toMixed.form_eq_of_text_eq b.normal_toMixed same
      have values := congrArg MixedNumber.value forms
      exact a.toMixed_value.symm.trans (values.trans b.toMixed_value)
    tfae_finish

end Fraction

end MixedCalculator
