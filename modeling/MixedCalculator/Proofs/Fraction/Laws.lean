import MixedCalculator.Proofs.Fraction.Holding

namespace MixedCalculator
namespace Fraction

/-!
# Laws of the arithmetic, up to the overflow

The two sides of a law go through different fractions: different terms, some reduced and some not,
and different values in between.  If everything in between has been computed, none of this shows in
the end.  Each side is the exact result as far as that can be held, so both are fractions of its
value, or both overflow.

Where something in between overflows there is nothing to compare, and the other side may well have
a value.  The inverse operations are the exception.  They lead back to a fraction, whose value can
be held, so they always succeed.
-/

/-- Two outcomes that are fractions of one value, or two overflows. -/
inductive Concur : Except Fault Fraction -> Except Fault Fraction -> Prop
  | value {first second : Fraction} : first.SameValue second -> Concur (.ok first) (.ok second)
  | overflow : Concur (.error .overflow) (.error .overflow)

section

variable {first second : Except Fault Fraction} {q : Rat}

/-- A result that was computed has the exact value. -/
theorem value_of_computed {a : Fraction} (held : first.map value = hold q)
    (computed : first = .ok a) : a.value = q := by
  subst computed
  exact ((hold_eq_ok_iff q a.value).mp held.symm).2.symm

/-- Outcomes with one exact result concur, also where that cannot be held. -/
theorem concur_of_held (held : first.map value = hold q) (alsoHeld : second.map value = hold q) :
    Concur first second := by
  by_cases holdable : Holdable q
  · rw [hold_of_holdable holdable] at held alsoHeld
    cases first with
    | error fault => cases held
    | ok a =>
        cases second with
        | error fault => cases alsoHeld
        | ok b =>
            have same := (Except.ok.inj held).trans (Except.ok.inj alsoHeld).symm
            exact .value ((sameValue_iff a b).mpr same)
  · rw [hold_of_not_holdable holdable] at held alsoHeld
    cases first with
    | ok a => cases held
    | error fault =>
        cases second with
        | ok b => cases alsoHeld
        | error other =>
            cases held
            cases alsoHeld
            exact .overflow

/-- The value of a fraction can be held, so an operation that leads back to it succeeds. -/
theorem exists_sameValue_of_held {a : Fraction} (held : first.map value = hold a.value) :
    ∃ back, first = .ok back ∧ back.SameValue a := by
  rw [hold_of_holdable a.holdable_value] at held
  cases first with
  | error fault => cases held
  | ok back => exact ⟨back, rfl, (sameValue_iff back a).mpr (Except.ok.inj held)⟩

end

/-! ## Order and grouping -/

theorem crossSum_comm (a b : Fraction) : crossSum a b = crossSum b a := by
  simp only [crossSum, Int.add_comm (a.num * b.den), Nat.mul_comm a.den]

theorem crossProduct_comm (a b : Fraction) : crossProduct a b = crossProduct b a := by
  simp only [crossProduct, Int.mul_comm a.num, Nat.mul_comm a.den]

section

variable {a b c : Fraction}

theorem add_add_concur {s t : Fraction} (left : a.add b = .ok s) (right : b.add c = .ok t) :
    Concur (s.add c) (a.add t) := by
  have s_value := value_of_computed (a.add_value b) left
  have t_value := value_of_computed (b.add_value c) right
  apply concur_of_held (s.add_value c)
  rw [add_value, s_value, t_value, Rat.add_assoc]

theorem mul_mul_concur {p q : Fraction} (left : a.mul b = .ok p) (right : b.mul c = .ok q) :
    Concur (p.mul c) (a.mul q) := by
  have p_value := value_of_computed (a.mul_value b) left
  have q_value := value_of_computed (b.mul_value c) right
  apply concur_of_held (p.mul_value c)
  rw [mul_value, p_value, q_value, Rat.mul_assoc]

theorem mul_add_concur {s p q : Fraction} (sum : b.add c = .ok s) (left : a.mul b = .ok p)
    (right : a.mul c = .ok q) : Concur (a.mul s) (p.add q) := by
  have s_value := value_of_computed (b.add_value c) sum
  have p_value := value_of_computed (a.mul_value b) left
  have q_value := value_of_computed (a.mul_value c) right
  apply concur_of_held (a.mul_value s)
  rw [add_value, s_value, p_value, q_value, Rat.mul_add]

/-! ## Inverse operations -/

theorem exists_sub_of_add {s : Fraction} (sum : a.add b = .ok s) :
    ∃ back, s.sub b = .ok back ∧ back.SameValue a := by
  have s_value := value_of_computed (a.add_value b) sum
  apply exists_sameValue_of_held
  rw [sub_value, s_value, add_sub_cancel_right]

theorem exists_add_of_sub {s : Fraction} (difference : a.sub b = .ok s) :
    ∃ back, s.add b = .ok back ∧ back.SameValue a := by
  have s_value := value_of_computed (a.sub_value b) difference
  apply exists_sameValue_of_held
  rw [add_value, s_value, sub_add_cancel]

theorem exists_mul_of_div {q : Fraction} (nonzero : b.num ≠ 0) (quotient : a.div b = .ok q) :
    ∃ back, q.mul b = .ok back ∧ back.SameValue a := by
  have value_nonzero : b.value ≠ 0 := mt (value_eq_zero_iff b).mp nonzero
  have q_value := value_of_computed (a.div_value b value_nonzero) quotient
  apply exists_sameValue_of_held
  rw [mul_value, q_value, div_mul_cancel₀ a.value value_nonzero]

theorem exists_div_of_mul {p : Fraction} (nonzero : b.num ≠ 0) (product : a.mul b = .ok p) :
    ∃ back, p.div b = .ok back ∧ back.SameValue a := by
  have value_nonzero : b.value ≠ 0 := mt (value_eq_zero_iff b).mp nonzero
  have p_value := value_of_computed (a.mul_value b) product
  apply exists_sameValue_of_held
  rw [div_value _ _ value_nonzero, p_value, mul_div_cancel_right₀ a.value value_nonzero]

end

/-- Sums and products do not depend on the order of their operands, terms included.  They do not
depend on the grouping, and products distribute over sums, up to the terms and including the
overflow, as long as the inner operations succeed.  What an operation has done, its inverse
undoes without an overflow. -/
theorem laws_up_to_overflow (a b c : Fraction) :
    a.add b = b.add a ∧ a.mul b = b.mul a ∧
      (∀ s t, a.add b = .ok s -> b.add c = .ok t -> Concur (s.add c) (a.add t)) ∧
      (∀ p q, a.mul b = .ok p -> b.mul c = .ok q -> Concur (p.mul c) (a.mul q)) ∧
      (∀ s p q, b.add c = .ok s -> a.mul b = .ok p -> a.mul c = .ok q ->
        Concur (a.mul s) (p.add q)) ∧
      (∀ s, a.add b = .ok s -> ∃ back, s.sub b = .ok back ∧ back.SameValue a) ∧
      (∀ s, a.sub b = .ok s -> ∃ back, s.add b = .ok back ∧ back.SameValue a) ∧
      (∀ q, b.num ≠ 0 -> a.div b = .ok q -> ∃ back, q.mul b = .ok back ∧ back.SameValue a) ∧
      ∀ p, b.num ≠ 0 -> a.mul b = .ok p -> ∃ back, p.div b = .ok back ∧ back.SameValue a :=
  ⟨congrArg WideFraction.narrow (crossSum_comm a b),
    congrArg WideFraction.narrow (crossProduct_comm a b),
    fun _ _ => add_add_concur, fun _ _ => mul_mul_concur, fun _ _ _ => mul_add_concur,
    fun _ => exists_sub_of_add, fun _ => exists_add_of_sub, fun _ => exists_mul_of_div,
    fun _ => exists_div_of_mul⟩

/-- The greatest whole number. -/
def greatest : Fraction := ofInt 2147483647 (by decide)

/-- The least whole number. -/
def least : Fraction := ofInt (-2147483648) (by decide)

/-- At the upper bound both groupings of `2147483647 + -1 + 2` overflow.  The two groupings of
`65536/65537 * 65537/65536 * 2/4` give `2/4` and `1/2`.  At the lower bound a sum, a difference and
a quotient are undone. -/
theorem laws_at_the_bounds :
    (∃ s t, greatest.add ⟨-1, 1, by decide⟩ = .ok s ∧
      add ⟨-1, 1, by decide⟩ ⟨2, 1, by decide⟩ = .ok t ∧
      Concur (s.add ⟨2, 1, by decide⟩) (greatest.add t) ∧ greatest.add t = .error .overflow) ∧
    (∃ p q, mul ⟨65536, 65537, by decide⟩ ⟨65537, 65536, by decide⟩ = .ok p ∧
      mul ⟨65537, 65536, by decide⟩ ⟨2, 4, by decide⟩ = .ok q ∧
      Concur (p.mul ⟨2, 4, by decide⟩) (mul ⟨65536, 65537, by decide⟩ q) ∧
      p.mul ⟨2, 4, by decide⟩ = .ok ⟨2, 4, by decide⟩ ∧
      mul ⟨65536, 65537, by decide⟩ q = .ok ⟨1, 2, by decide⟩) ∧
    (∃ s back, least.add greatest = .ok s ∧ s.sub greatest = .ok back ∧ back.SameValue least) ∧
    (∃ s back, least.sub least = .ok s ∧ s.add least = .ok back ∧ back.SameValue least) ∧
    ∃ q back, least.div least = .ok q ∧ q.mul least = .ok back ∧ back.SameValue least := by
  have grouped := (laws_up_to_overflow greatest ⟨-1, 1, by decide⟩ ⟨2, 1, by decide⟩).2.2.1
    ⟨2147483646, 1, by decide⟩ ⟨1, 1, by decide⟩ rfl rfl
  have left : mul ⟨65536, 65537, by decide⟩ ⟨65537, 65536, by decide⟩ =
      .ok ⟨1, 1, by decide⟩ := rfl
  have right : mul ⟨65537, 65536, by decide⟩ ⟨2, 4, by decide⟩ =
      .ok ⟨131074, 262144, by decide⟩ := rfl
  have chained := (laws_up_to_overflow ⟨65536, 65537, by decide⟩ ⟨65537, 65536, by decide⟩
    ⟨2, 4, by decide⟩).2.2.2.1 _ _ left right
  rcases laws_up_to_overflow least greatest zero with ⟨-, -, -, -, -, subtracted, -, -, -⟩
  rcases laws_up_to_overflow least least zero with ⟨-, -, -, -, -, -, added, multiplied, -⟩
  rcases subtracted ⟨-1, 1, by decide⟩ rfl with ⟨difference, undoneSum⟩
  rcases added zero rfl with ⟨sum, undoneDifference⟩
  rcases multiplied ⟨1, 1, by decide⟩ (by decide) rfl with ⟨product, undoneQuotient⟩
  exact ⟨⟨_, _, rfl, rfl, grouped, rfl⟩, ⟨_, _, left, right, chained, rfl, rfl⟩,
    ⟨_, difference, rfl, undoneSum⟩, ⟨_, sum, rfl, undoneDifference⟩,
    ⟨_, product, rfl, undoneQuotient⟩⟩

/-- From the left `2147483647 + 1 + -1` overflows on the way, grouped to the right it does not. -/
example : add ⟨2147483647, 1, by decide⟩ ⟨1, 1, by decide⟩ = .error .overflow ∧
    (add ⟨1, 1, by decide⟩ ⟨-1, 1, by decide⟩).bind (add ⟨2147483647, 1, by decide⟩) =
      .ok ⟨2147483647, 1, by decide⟩ := by decide

end Fraction
end MixedCalculator
