import Mathlib.Tactic.Linarith
import MixedCalculator.Fraction.Arithmetic

namespace MixedCalculator

/-!
# Numbers that can be held

A rational number can be held when its lowest terms fit.  Keeping a pair as it stands while it
fits, and reducing it only otherwise, refuses nothing more than reducing it at once: the lowest
terms of a pair that fits fit as well.  Seen through its value, every operation on fractions is
therefore the operation on rational numbers, refused exactly when its result cannot be held.
-/

/-- The rational numbers whose lowest terms fit. -/
def Holdable (q : Rat) : Prop :=
  Fits q.num q.den

instance (q : Rat) : Decidable (Holdable q) := by
  unfold Holdable
  infer_instance

/-- A rational number, unless it cannot be held. -/
def hold (q : Rat) : Except Fault Rat :=
  if Holdable q then .ok q else .error .overflow

theorem hold_of_holdable {q : Rat} (holdable : Holdable q) : hold q = .ok q := if_pos holdable

theorem hold_of_not_holdable {q : Rat} (excessive : ¬ Holdable q) :
    hold q = .error .overflow := if_neg excessive

theorem overflow_of_hold {q : Rat} {fault : Fault} (refused : hold q = .error fault) :
    fault = .overflow := by
  by_cases holdable : Holdable q
  · rw [hold_of_holdable holdable] at refused
    cases refused
  · rw [hold_of_not_holdable holdable] at refused
    cases refused
    rfl

/-- Holding a number never changes it. -/
theorem hold_eq_ok_iff (q result : Rat) : hold q = .ok result ↔ Holdable q ∧ q = result := by
  by_cases holdable : Holdable q
  · rw [hold_of_holdable holdable, Except.ok.injEq]
    exact ⟨fun same => ⟨holdable, same⟩, fun both => both.2⟩
  · rw [hold_of_not_holdable holdable]
    constructor
    · intro impossible
      cases impossible
    · intro both
      exact absurd both.1 holdable

/-- A pair is its lowest terms multiplied by a common factor. -/
theorem exists_common_factor (num : Int) {den : Nat} (nonzero : den ≠ 0) :
    ∃ factor : Nat, 0 < factor ∧ num = (mkRat num den).num * factor ∧
      den = (mkRat num den).den * factor := by
  rcases Rat.mkRat_num_den nonzero (rfl : mkRat num den = ⟨_, _, _, (mkRat num den).reduced⟩)
    with ⟨factor, factor_nonzero, num_eq, den_eq⟩
  exact ⟨factor, Nat.pos_of_ne_zero factor_nonzero, num_eq, den_eq⟩

/-- Reduction brings nothing out of bounds. -/
theorem holdable_of_fits {num : Int} {den : Nat} (fits : Fits num den) :
    Holdable (mkRat num den) := by
  rcases fits with ⟨lower, upper, den_pos, den_le⟩
  rcases exists_common_factor num (Nat.ne_of_gt den_pos) with ⟨factor, factor_pos, num_eq, den_eq⟩
  have at_least_one : (1 : Int) ≤ factor := by exact_mod_cast factor_pos
  refine ⟨?_, ?_, (mkRat num den).den_pos, ?_⟩
  · by_contra below
    have : (mkRat num den).num * factor ≤ (mkRat num den).num * 1 :=
      Int.mul_le_mul_of_nonpos_left (by omega) at_least_one
    omega
  · by_contra above
    have : (mkRat num den).num * 1 ≤ (mkRat num den).num * factor :=
      Int.mul_le_mul_of_nonneg_left at_least_one (by omega)
    omega
  · calc (mkRat num den).den = (mkRat num den).den * 1 := (Nat.mul_one _).symm
      _ ≤ (mkRat num den).den * factor := Nat.mul_le_mul_left _ factor_pos
      _ = den := den_eq.symm
      _ ≤ 2147483647 := den_le

namespace Fraction

/-- What a fraction denotes can be held. -/
theorem holdable_value (a : Fraction) : Holdable a.value := holdable_of_fits a.fits

/-- The fraction of the same value in lowest terms. -/
def reduce (a : Fraction) : Fraction := ⟨a.value.num, a.value.den, a.holdable_value⟩

theorem reduce_value (a : Fraction) : a.reduce.value = a.value := Rat.mkRat_self a.value

theorem ofRat_of_holdable {q : Rat} (holdable : Holdable q) :
    ofRat q = .ok ⟨q.num, q.den, holdable⟩ := dif_pos holdable

theorem ofRat_of_not_holdable {q : Rat} (excessive : ¬ Holdable q) :
    ofRat q = .error .overflow := dif_neg excessive

theorem ofRat_value (q : Rat) : (ofRat q).map value = hold q := by
  by_cases holdable : Holdable q
  · rw [ofRat_of_holdable holdable, hold_of_holdable holdable]
    exact congrArg Except.ok (Rat.mkRat_self q)
  · rw [ofRat_of_not_holdable holdable, hold_of_not_holdable holdable]
    rfl

theorem zero_value : zero.value = 0 := Rat.zero_mkRat 1

/-- A fraction is zero exactly when the number that it denotes is. -/
theorem value_eq_zero_iff (a : Fraction) : a.value = 0 ↔ a.num = 0 :=
  Rat.mkRat_eq_zero a.den_ne_zero

end Fraction

/-- Making a pair fit keeps its value, and fails only if that value cannot be held. -/
theorem WideFraction.narrow_value (w : WideFraction) :
    w.narrow.map Fraction.value = hold w.value := by
  by_cases fits : Fits w.num w.den
  · rw [w.narrow_of_fits fits]
    exact (hold_of_holdable (holdable_of_fits fits)).symm
  · rw [w.narrow_of_not_fits fits]
    exact Fraction.ofRat_value w.value

/-- Neither the pair nor its lowest terms fit if its value cannot be held. -/
theorem WideFraction.narrow_of_not_holdable {w : WideFraction} (excessive : ¬ Holdable w.value) :
    w.narrow = .error .overflow := by
  rw [w.narrow_of_not_fits fun fits => excessive (holdable_of_fits fits)]
  exact Fraction.ofRat_of_not_holdable excessive

/-- Nothing but an overflow keeps a pair from being made to fit. -/
theorem WideFraction.overflow_of_narrow {w : WideFraction} {fault : Fault}
    (refused : w.narrow = .error fault) : fault = .overflow := by
  have held := w.narrow_value
  rw [refused] at held
  exact overflow_of_hold held.symm

namespace Fraction

/-! ## The operations through their values -/

theorem add_value (a b : Fraction) : (a.add b).map value = hold (a.value + b.value) := by
  rw [add, WideFraction.narrow_value, crossSum_value]

theorem sub_value (a b : Fraction) : (a.sub b).map value = hold (a.value - b.value) := by
  rw [sub, WideFraction.narrow_value, crossDifference_value]

theorem mul_value (a b : Fraction) : (a.mul b).map value = hold (a.value * b.value) := by
  rw [mul, WideFraction.narrow_value, crossProduct_value]

theorem div_value (a b : Fraction) (nonzero : b.value ≠ 0) :
    (a.div b).map value = hold (a.value / b.value) := by
  have num_nonzero : b.num ≠ 0 := fun zero => nonzero ((value_eq_zero_iff b).mpr zero)
  rw [div, if_neg num_nonzero, WideFraction.narrow_value, crossQuotient_value]

theorem div_of_value_eq_zero (a b : Fraction) (zero : b.value = 0) :
    a.div b = .error .divisionByZero :=
  if_pos ((value_eq_zero_iff b).mp zero)

end Fraction

end MixedCalculator
