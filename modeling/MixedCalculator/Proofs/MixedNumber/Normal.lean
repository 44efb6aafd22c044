import MixedCalculator.Proofs.MixedNumber.Value

namespace MixedCalculator
namespace MixedNumber

/-!
# Normal mixed numbers

A result is shown as a whole part and a proper fraction in lowest terms.  Whatever can be held
has such a form, and the form denotes the number that it was made from: all three parts are
small enough, also at the lower end of the range, where the magnitude is larger than any
positive number that can be held.
-/

/-- A proper fraction in lowest terms beside the whole part, and no sign on zero. -/
structure Normal (m : MixedNumber) : Prop where
  den_pos : 1 ≤ m.den.toNat
  proper : m.num.toNat < m.den.toNat
  reduced : Nat.Coprime m.num.toNat m.den.toNat
  zero_unsigned : m.isZero = true -> m.sign = .positive

theorem Normal.asReadOnly {m : MixedNumber} (normal : m.Normal) : m.asReadOnly.Normal :=
  ⟨normal.den_pos, normal.proper, normal.reduced, normal.zero_unsigned⟩

theorem Normal.den_ne_zero {m : MixedNumber} (normal : m.Normal) : m.den ≠ 0 := by
  intro zero
  have positive := normal.den_pos
  rw [zero] at positive
  exact absurd positive (by decide)

/-- Only the denominator one is in lowest terms with the numerator zero. -/
theorem Normal.den_eq_one {m : MixedNumber} (normal : m.Normal) (no_num : m.num = 0) :
    m.den = 1 := by
  have reduced := normal.reduced
  rw [no_num, UInt32.toNat_zero, Nat.coprime_zero_left] at reduced
  exact UInt32.toNat_inj.mp reduced

/-! ## The parts of the mixed form -/

section

variable {q : Rat}

theorem natAbs_num_lt_of_holdable (holdable : Holdable q) : q.num.natAbs < UInt32.size := by
  rcases holdable with ⟨lower, upper, -, -⟩
  have bounded : q.num.natAbs ≤ 2147483648 := by omega
  exact Nat.lt_of_le_of_lt bounded (by decide)

theorem toNat_whole_ofRat (holdable : Holdable q) :
    (ofRat q).whole.toNat = q.num.natAbs / q.den :=
  UInt32.toNat_ofNat_of_lt'
    (Nat.lt_of_le_of_lt (Nat.div_le_self _ _) (natAbs_num_lt_of_holdable holdable))

theorem toNat_num_ofRat (holdable : Holdable q) :
    (ofRat q).num.toNat = q.num.natAbs % q.den :=
  UInt32.toNat_ofNat_of_lt'
    (Nat.lt_of_le_of_lt (Nat.mod_le _ _) (natAbs_num_lt_of_holdable holdable))

theorem toNat_den_ofRat (holdable : Holdable q) : (ofRat q).den.toNat = q.den :=
  UInt32.toNat_ofNat_of_lt' (Nat.lt_of_le_of_lt holdable.2.2.2 (by decide))

/-- Division with remainder takes the magnitude apart, and this puts it together again. -/
theorem magnitude_ofRat (holdable : Holdable q) : (ofRat q).magnitude = q.num.natAbs := by
  rw [magnitude, toNat_whole_ofRat holdable, toNat_num_ofRat holdable, toNat_den_ofRat holdable]
  exact Nat.div_add_mod' _ _

/-- Nothing is lost by leaving the sign of zero out. -/
theorem sign_ofRat (holdable : Holdable q) : (ofRat q).sign = Sign.ofInt q.num := by
  by_cases vanishing : (ofRat q).whole = 0 ∧ (ofRat q).num = 0
  · have zero : q.num = 0 := by
      rw [← Int.natAbs_eq_zero, ← magnitude_ofRat holdable, magnitude, vanishing.1, vanishing.2]
      simp only [UInt32.toNat_zero, Nat.zero_mul, Nat.add_zero]
    rw [zero]
    exact if_pos vanishing
  · exact if_neg vanishing

/-- Over its own denominator, the mixed form is the pair of lowest terms that it was made from. -/
theorem wide_ofRat (holdable : Holdable q) : (ofRat q).wide = ⟨q.num, q.den⟩ := by
  rw [wide, sign_ofRat holdable, magnitude_ofRat holdable, toNat_den_ofRat holdable,
    Sign.apply_ofInt_natAbs]

theorem normal_ofRat (holdable : Holdable q) : (ofRat q).Normal where
  den_pos := by
    rw [toNat_den_ofRat holdable]
    exact q.den_pos
  proper := by
    rw [toNat_num_ofRat holdable, toNat_den_ofRat holdable]
    exact Nat.mod_lt _ q.den_pos
  reduced := by
    rw [toNat_num_ofRat holdable, toNat_den_ofRat holdable, Nat.coprime_iff_gcd_eq_one,
      ← Nat.gcd_rec, Nat.gcd_comm]
    exact q.reduced
  zero_unsigned := by
    intro zero
    simp only [isZero, Bool.and_eq_true, beq_iff_eq] at zero
    exact if_pos zero

/-- The mixed form denotes the number that it was made from. -/
theorem value_ofRat (holdable : Holdable q) : (ofRat q).value = q := by
  rw [← wide_value _ (normal_ofRat holdable).den_ne_zero, wide_ofRat holdable]
  exact Rat.mkRat_self q

end

end MixedNumber

theorem Fraction.normal_toMixed (a : Fraction) : a.toMixed.Normal :=
  MixedNumber.normal_ofRat a.holdable_value

theorem Fraction.toMixed_value (a : Fraction) : a.toMixed.value = a.value :=
  MixedNumber.value_ofRat a.holdable_value

end MixedCalculator
