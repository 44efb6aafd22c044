import MixedCalculator.Proofs.Evaluation.Exactness
import MixedCalculator.Proofs.Expression.Rereading
import MixedCalculator.Proofs.MixedNumber.Normal

namespace MixedCalculator

/-!
# Typing a result back

The sign of a result belongs to the number, whereas a typed hyphen is an operator before a
positive number.  The magnitude has therefore to be held by itself before it is given its sign.
That fails at one end of the range only, where the least numerator has no positive counterpart.
Every other result is evaluated back to a fraction of its own value.
-/

theorem Sign.scale_scale (sign : Sign) (q : Rat) : sign.scale (sign.scale q) = q := by
  cases sign with
  | positive => rfl
  | negative => exact neg_neg q

/-- Only the least numerator cannot change its sign. -/
theorem holdable_neg_iff {q : Rat} (holdable : Holdable q) :
    Holdable (-q) ↔ q.num ≠ -2147483648 := by
  rcases holdable with ⟨lower, upper, den_pos, den_le⟩
  unfold Holdable Fits
  rw [Rat.neg_num, Rat.neg_den]
  omega

namespace MixedNumber

/-- The number without its sign and mark. -/
def unsigned (m : MixedNumber) : MixedNumber :=
  .positive m.whole m.num m.den

theorem scale_unsigned_value (m : MixedNumber) : m.sign.scale m.unsigned.value = m.value := by
  rw [unsigned, positive_eq]
  rfl

theorem unsigned_value (m : MixedNumber) : m.unsigned.value = m.sign.scale m.value := by
  rw [← m.scale_unsigned_value, Sign.scale_scale]

/-- What is typed for a number: its sign, if it has one, goes before the term. -/
def typedSum (m : MixedNumber) : SignedSum :=
  match m.sign with
  | .positive => .single (.number m.unsigned)
  | .negative => .signed .negative (.number m.unsigned)

/-! ## Reading -/

theorem ofLexemes_unsignedLexemes {m : MixedNumber} (normal : m.Normal) :
    Expression.ofLexemes m.unsignedLexemes = [.number m.unsigned] := by
  unfold unsignedLexemes unsigned
  split
  · next no_fraction =>
      rw [no_fraction.1, normal.den_eq_one no_fraction.1]
      rfl
  · split
    · next no_whole =>
        rw [no_whole]
        rfl
    · rfl

/-- A negative number is not zero, so its hyphen is always written. -/
theorem lexemes_of_negative {m : MixedNumber} (normal : m.Normal)
    (negative : m.sign = .negative) : m.lexemes = .operator .minus :: m.unsignedLexemes := by
  have nonzero : ¬ (m.isZero = true ∧ m.den ≠ 0) := by
    intro zero
    have positive := normal.zero_unsigned zero.1
    rw [negative] at positive
    cases positive
  rw [lexemes, if_neg nonzero, negative]
  rfl

theorem text_number (m : MixedNumber) : Expression.text [.number m] = m.text := by
  rw [Expression.text, Expression.chars_cons, List.flatMap_nil, List.append_nil]
  rfl

theorem ofText_text_of_normal {m : MixedNumber} (normal : m.Normal) :
    Expression.ofText m.text = .ok m.typedSum.members := by
  rw [← text_number, Expression.ofText_text]
  change Except.ok (Expression.ofLexemes (.blank :: (m.lexemes ++ []))) = _
  rw [List.append_nil]
  apply congrArg Except.ok
  cases sign_m : m.sign with
  | positive =>
      rw [lexemes_of_positive sign_m, typedSum, sign_m]
      exact ofLexemes_unsignedLexemes normal
  | negative =>
      rw [lexemes_of_negative normal sign_m, typedSum, sign_m]
      exact congrArg (Member.operator .minus :: ·) (ofLexemes_unsignedLexemes normal)

/-! ## Evaluation -/

/-- The magnitude is held first, and the signed number after it. -/
theorem evaluateBounded_typedSum (m : MixedNumber) (nonzero : m.den ≠ 0) :
    Expression.evaluateBounded m.typedSum.members =
      (hold m.unsigned.value).bind fun q => hold (m.sign.scale q) := by
  have converted : Arithmetic.bounded.ofMixed m.unsigned = hold m.unsigned.value :=
    Arithmetic.bounded_ofMixed m.unsigned nonzero
  have added : ∀ sign : Sign, Arithmetic.bounded.apply (.ofSign sign) 0 =
      fun q => hold (sign.scale q) := by
    intro sign
    funext q
    rw [Arithmetic.bounded_ofSign, zero_add]
  rw [Expression.evaluateBounded, Evaluation.outcome_run_members, typedSum]
  cases m.sign with
  | positive => exact congrArg₂ Except.bind converted (added .positive)
  | negative => exact congrArg₂ Except.bind converted (added .negative)

theorem holdable_unsigned_ofRat_iff {q : Rat} (holdable : Holdable q) :
    Holdable (ofRat q).unsigned.value ↔ q.num ≠ -2147483648 := by
  rw [unsigned_value, value_ofRat holdable, sign_ofRat holdable, Sign.ofInt]
  by_cases negative : q.num < 0
  · rw [if_pos negative]
    exact holdable_neg_iff holdable
  · rw [if_neg negative]
    exact iff_of_true holdable (by omega)

theorem evaluateBounded_typedSum_ofRat {q : Rat} (holdable : Holdable q) :
    Expression.evaluateBounded (ofRat q).typedSum.members =
      if q.num = -2147483648 then .error .overflow else .ok q := by
  rw [evaluateBounded_typedSum _ (normal_ofRat holdable).den_ne_zero]
  by_cases least : q.num = -2147483648
  · have excessive : ¬ Holdable (ofRat q).unsigned.value := by
      rw [holdable_unsigned_ofRat_iff holdable]
      exact not_not.mpr least
    rw [if_pos least, hold_of_not_holdable excessive]
    rfl
  · rw [if_neg least, hold_of_holdable ((holdable_unsigned_ofRat_iff holdable).mpr least)]
    change hold ((ofRat q).sign.scale (ofRat q).unsigned.value) = _
    rw [scale_unsigned_value, value_ofRat holdable, hold_of_holdable holdable]

end MixedNumber

namespace Fraction

/-- The text of a result can always be read.  It evaluates to the value of the result, except
that a numerator which is the least one in lowest terms is refused as an overflow. -/
theorem evaluates_back_unless_least (a : Fraction) :
    ∃ read, Expression.ofText a.toMixed.text = .ok read ∧
      (a.value.num ≠ -2147483648 -> ∃ total, read.evaluate = .ok total ∧ total.SameValue a) ∧
      (a.value.num = -2147483648 -> read.evaluate = .error .overflow) := by
  have evaluated := MixedNumber.evaluateBounded_typedSum_ofRat a.holdable_value
  refine ⟨a.toMixed.typedSum.members, MixedNumber.ofText_text_of_normal a.normal_toMixed, ?_, ?_⟩
  · intro not_least
    rw [if_neg not_least] at evaluated
    rcases Expression.exists_evaluate_of_evaluateBounded evaluated with ⟨total, found, value⟩
    exact ⟨total, found, (sameValue_iff total a).mpr value⟩
  · intro least
    rw [if_pos least] at evaluated
    exact (Expression.evaluate_eq_error_iff _ _).mpr evaluated

/-- The unreduced `-26/8` is shown as `-3 1/4`, and `-2147483648/3` as `-715827882 2/3`. -/
theorem evaluates_back_negative_mixed :
    (Fraction.toMixed ⟨-26, 8, by decide⟩).text = "-3 1/4" ∧
      (∃ read, Expression.ofText "-3 1/4" = .ok read ∧
        ∃ total, read.evaluate = .ok total ∧ total.SameValue ⟨-26, 8, by decide⟩) ∧
      (∃ read, Expression.ofText "-715827882 2/3" = .ok read ∧
        read.evaluate = .error .overflow) := by
  refine ⟨by decide, ?_, ?_⟩
  · rcases evaluates_back_unless_least ⟨-26, 8, by decide⟩ with ⟨read, isRead, back, -⟩
    exact ⟨read, isRead, back (by decide)⟩
  · rcases evaluates_back_unless_least ⟨-2147483648, 3, by decide⟩ with ⟨read, isRead, -, refused⟩
    exact ⟨read, isRead, refused (by decide)⟩

/-- The least whole number is a result, but what is read from its text has no value. -/
theorem least_whole_not_evaluated_back :
    (Fraction.toMixed ⟨-2147483648, 1, by decide⟩).text = "-2147483648" ∧
      ¬ ∃ read total, Expression.ofText "-2147483648" = .ok read ∧
        read.evaluate = .ok total ∧ total.SameValue ⟨-2147483648, 1, by decide⟩ := by
  refine ⟨by decide, ?_⟩
  rintro ⟨read, total, isRead, evaluated, -⟩
  have members : Expression.ofText "-2147483648" =
      .ok [.operator .minus, .number (.positive 2147483648 0 1)] := by decide
  cases isRead.symm.trans members
  cases evaluated

end Fraction

end MixedCalculator
