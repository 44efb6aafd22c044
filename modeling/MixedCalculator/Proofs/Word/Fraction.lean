import MixedCalculator.Proofs.Fraction.Holding
import MixedCalculator.Proofs.Word.Checked

namespace MixedCalculator

/-!
# Fractions in machine words

Fractions are stored in half words and multiplied out in words.  The operations are stated here once
more on the words themselves, step by step, and each step may be refused: as out of bounds, or because
a denominator that is to be made to fit is not positive.  On fractions no step ever is.  The outcome is
in each case that of the operation on exact integers, in half words.

How a pair of words is put in lowest terms is left open.  All that is relied on is that it is, if the
denominator is positive and the numerator is not the least word.
-/

/-- A numerator and a denominator in half words.  Nothing is required of them. -/
structure WordFraction where
  num : Int32
  den : Int32
  deriving DecidableEq, Repr

/-- The lowest terms of the integers that the words stand for. -/
def exactReduction (num den : Int64) : Option (Int64 × Int64) :=
  some (.ofInt (mkRat num.toInt den.toInt.toNat).num,
    .ofInt (mkRat num.toInt den.toInt.toNat).den)

/-- The reduction gives lowest terms, at least where the denominator is positive and the numerator has
a negation. -/
def Reduces (reduce : Int64 -> Int64 -> Option (Int64 × Int64)) : Prop :=
  ∀ num den : Int64, num ≠ Int64.minValue -> 0 < den -> reduce num den = exactReduction num den

theorem reduces_exactReduction : Reduces exactReduction :=
  fun _ _ _ _ => rfl

/-- Lowest terms are no longer than the terms that are reduced. -/
theorem inWord_lowest {num : Int} {den : Nat} (positive : 0 < den) (numInWord : InWord num)
    (denInWord : InWord den) : InWord (mkRat num den).num ∧ InWord (mkRat num den).den := by
  rcases exists_common_factor num (Nat.ne_of_gt positive) with
    ⟨factor, factor_pos, num_eq, den_eq⟩
  have shorter : ∀ n : Int, n.natAbs ≤ (n * factor).natAbs := by
    intro n
    rw [Int.natAbs_mul, Int.natAbs_natCast]
    exact Nat.le_mul_of_pos_right _ factor_pos
  constructor
  · exact (shorter _).trans (num_eq ▸ numInWord)
  · refine (shorter _).trans ?_
    rw [← Int.natCast_mul, ← den_eq]
    exact denInWord

namespace Fraction

/-- The half words that a fraction is stored in. -/
def words (a : Fraction) : WordFraction := ⟨.ofInt a.num, .ofInt a.den⟩

theorem toInt_words_num (a : Fraction) : a.words.num.toInt = a.num :=
  Int32.toInt_ofInt_of_le a.fits.1 (Int.lt_add_one_of_le a.fits.2.1)

theorem toInt_words_den (a : Fraction) : a.words.den.toInt = a.den := by
  have den_le := a.fits.2.2.2
  exact Int32.toInt_ofInt_of_le (by omega) (by omega)

theorem toInt64_words_num (a : Fraction) : a.words.num.toInt64 = .ofInt a.num := by
  rw [← Int64.ofInt_int32ToInt, toInt_words_num]

theorem toInt64_words_den (a : Fraction) : a.words.den.toInt64 = .ofInt a.den := by
  rw [← Int64.ofInt_int32ToInt, toInt_words_den]

theorem words_num_eq_zero_iff (a : Fraction) : a.words.num = 0 ↔ a.num = 0 := by
  rw [← Int32.toInt_inj, toInt_words_num, Int32.toInt_zero]

theorem inHalf_num (a : Fraction) : InHalf a.num := by
  rw [← toInt_words_num]
  exact inHalf_toInt a.words.num

theorem inHalf_den (a : Fraction) : InHalf a.den := by
  rw [← toInt_words_den]
  exact inHalf_toInt a.words.den

theorem inWord_den_mul_den (a b : Fraction) : InWord (a.den * b.den : Nat) := by
  rw [Int.natCast_mul]
  exact a.inHalf_den.mul b.inHalf_den

/-- A denominator is not as large as the least numerator, so that two such products can be added. -/
theorem natAbs_num_mul_den_le (a b : Fraction) :
    (a.num * b.den).natAbs ≤ 2147483648 * 2147483647 :=
  natAbs_mul_le_mul a.inHalf_num b.fits.2.2.2

end Fraction

namespace WordFraction

variable (reduce : Int64 -> Int64 -> Option (Int64 × Int64))

/-! ## Making a pair of words fit -/

/-- The pair in half words, if both of its words fit. -/
def fit (num den : Int64) (otherwise : Option (Except Fault WordFraction)) :
    Option (Except Fault WordFraction) :=
  match Word.toHalf? num, Word.toHalf? den with
  | some num, some den => some (.ok ⟨num, den⟩)
  | _, _ => otherwise

/-- Make a pair of words fit: as it stands if possible, otherwise in lowest terms, otherwise not at
all.  That its denominator is positive is asserted. -/
def narrow (num den : Int64) : Option (Except Fault WordFraction) :=
  if 0 < den then fit num den (do
    let lowest ← reduce num den
    fit lowest.1 lowest.2 (some (.error .overflow)))
  else none

variable {reduce}

theorem fit_ofInt {num : Int} {den : Nat} (numInWord : InWord num) (denInWord : InWord den)
    (positive : 0 < den) (otherwise : Option (Except Fault WordFraction)) :
    fit (.ofInt num) (.ofInt den) otherwise =
      if fits : Fits num den then some (.ok (Fraction.words ⟨num, den, fits⟩)) else otherwise := by
  rw [fit, Word.toHalf?_ofInt numInWord, Word.toHalf?_ofInt denInWord]
  by_cases fits : Fits num den
  · have denBounds : -2147483648 ≤ (den : Int) ∧ (den : Int) ≤ 2147483647 := by
      have den_le := fits.2.2.2
      omega
    rw [dif_pos fits, if_pos ⟨fits.1, fits.2.1⟩, if_pos denBounds]
    rfl
  · rw [dif_neg fits]
    by_cases numBounds : -2147483648 ≤ num ∧ num ≤ 2147483647
    · have denExceeds : ¬ (-2147483648 ≤ (den : Int) ∧ (den : Int) ≤ 2147483647) := by
        intro denBounds
        exact fits ⟨numBounds.1, numBounds.2, positive, by omega⟩
      rw [if_pos numBounds, if_neg denExceeds]
    · rw [if_neg numBounds]

/-- Words that stand for a pair with a positive denominator are made to fit like the pair. -/
theorem narrow_ofInt (reduces : Reduces reduce) {num : Int} {den : Nat} (numInWord : InWord num)
    (denInWord : InWord den) (positive : 0 < den) :
    narrow reduce (.ofInt num) (.ofInt den) =
      some ((WideFraction.narrow ⟨num, den⟩).map Fraction.words) := by
  have denPositive : 0 < Int64.ofInt den :=
    (Word.zero_lt_ofInt_iff denInWord).mpr (Int.natCast_pos.mpr positive)
  rw [narrow, if_pos denPositive, fit_ofInt numInWord denInWord positive]
  by_cases fits : Fits num den
  · rw [dif_pos fits, WideFraction.narrow_of_fits ⟨num, den⟩ fits]
    rfl
  · have notLeast : Int64.ofInt num ≠ Int64.minValue := Word.ofInt_ne_minValue numInWord
    have reduced : reduce (.ofInt num) (.ofInt den) =
        some (.ofInt (mkRat num den).num, .ofInt (mkRat num den).den) := by
      have lowest := reduces _ _ notLeast denPositive
      rwa [exactReduction, Word.toInt_ofInt numInWord, Word.toInt_ofInt denInWord,
        Int.toNat_natCast] at lowest
    have inWord := inWord_lowest positive numInWord denInWord
    rw [dif_neg fits, WideFraction.narrow_of_not_fits ⟨num, den⟩ fits, reduced,
      Option.bind_eq_bind, Option.bind_some, fit_ofInt inWord.1 inWord.2 (mkRat num den).den_pos]
    change _ = some ((Fraction.ofRat (mkRat num den)).map Fraction.words)
    by_cases holdable : Holdable (mkRat num den)
    · rw [Fraction.ofRat_of_holdable holdable]
      exact dif_pos holdable
    · rw [Fraction.ofRat_of_not_holdable holdable]
      exact dif_neg holdable

/-! ## The operations -/

variable (reduce)

/-- Two cross products that are combined, over the product of the denominators. -/
def crossed (combine : Int64 -> Int64 -> Option Int64) (a b : WordFraction) :
    Option (Except Fault WordFraction) := do
  let first ← Word.mul a.num.toInt64 b.den.toInt64
  let second ← Word.mul b.num.toInt64 a.den.toInt64
  let num ← combine first second
  let den ← Word.mul a.den.toInt64 b.den.toInt64
  narrow reduce num den

def add (a b : WordFraction) : Option (Except Fault WordFraction) := crossed reduce Word.add a b

def sub (a b : WordFraction) : Option (Except Fault WordFraction) := crossed reduce Word.sub a b

def mul (a b : WordFraction) : Option (Except Fault WordFraction) := do
  let num ← Word.mul a.num.toInt64 b.num.toInt64
  let den ← Word.mul a.den.toInt64 b.den.toInt64
  narrow reduce num den

/-- A denominator that comes out negative gives its sign to the numerator. -/
def div (a b : WordFraction) : Option (Except Fault WordFraction) :=
  if b.num = 0 then some (.error .divisionByZero)
  else do
    let num ← Word.mul a.num.toInt64 b.den.toInt64
    let den ← Word.mul a.den.toInt64 b.num.toInt64
    if den < 0 then
      let num ← Word.neg num
      let den ← Word.neg den
      narrow reduce num den
    else narrow reduce num den

/-- Apply an operator to two pairs of half words. -/
def apply : Operator -> WordFraction -> WordFraction -> Option (Except Fault WordFraction)
  | .plus => add reduce
  | .minus => sub reduce
  | .times => mul reduce
  | .dividedBy => div reduce

/-- The cross products agree. -/
def sameValue (a b : WordFraction) : Option Bool := do
  let first ← Word.mul a.num.toInt64 b.den.toInt64
  let second ← Word.mul b.num.toInt64 a.den.toInt64
  return first == second

variable {reduce}

/-! ## On fractions no step is refused -/

theorem mul_num_den (a b : Fraction) :
    Word.mul a.words.num.toInt64 b.words.den.toInt64 = some (.ofInt (a.num * b.den)) := by
  rw [a.toInt64_words_num, b.toInt64_words_den]
  exact Word.mul_ofInt_half a.inHalf_num b.inHalf_den

theorem mul_den_den (a b : Fraction) :
    Word.mul a.words.den.toInt64 b.words.den.toInt64 = some (.ofInt (a.den * b.den : Nat)) := by
  rw [a.toInt64_words_den, b.toInt64_words_den, Int.natCast_mul]
  exact Word.mul_ofInt_half a.inHalf_den b.inHalf_den

theorem crossed_words (reduces : Reduces reduce) {combine : Int64 -> Int64 -> Option Int64}
    (a b : Fraction) {num : Int} (inWord : InWord num)
    (combined : combine (.ofInt (a.num * b.den)) (.ofInt (b.num * a.den)) = some (.ofInt num)) :
    crossed reduce combine a.words b.words =
      some ((WideFraction.narrow ⟨num, a.den * b.den⟩).map Fraction.words) := by
  rw [crossed, mul_num_den a b, mul_num_den b a, mul_den_den a b]
  simp only [Option.bind_eq_bind, Option.bind_some, combined]
  exact narrow_ofInt reduces inWord (a.inWord_den_mul_den b) (Nat.mul_pos a.den_pos b.den_pos)

theorem add_words (reduces : Reduces reduce) (a b : Fraction) :
    add reduce a.words b.words = some ((a.add b).map Fraction.words) := by
  have inWord : InWord (a.num * b.den + b.num * a.den) := by
    have first := a.natAbs_num_mul_den_le b
    have second := b.natAbs_num_mul_den_le a
    unfold InWord
    omega
  exact crossed_words reduces a b inWord
    (Word.add_ofInt (a.inHalf_num.mul b.inHalf_den) (b.inHalf_num.mul a.inHalf_den) inWord)

theorem sub_words (reduces : Reduces reduce) (a b : Fraction) :
    sub reduce a.words b.words = some ((a.sub b).map Fraction.words) := by
  have inWord : InWord (a.num * b.den - b.num * a.den) := by
    have first := a.natAbs_num_mul_den_le b
    have second := b.natAbs_num_mul_den_le a
    unfold InWord
    omega
  exact crossed_words reduces a b inWord
    (Word.sub_ofInt (a.inHalf_num.mul b.inHalf_den) (b.inHalf_num.mul a.inHalf_den) inWord)

theorem mul_words (reduces : Reduces reduce) (a b : Fraction) :
    mul reduce a.words b.words = some ((a.mul b).map Fraction.words) := by
  rw [mul, mul_den_den a b, a.toInt64_words_num, b.toInt64_words_num,
    Word.mul_ofInt_half a.inHalf_num b.inHalf_num]
  simp only [Option.bind_eq_bind, Option.bind_some]
  exact narrow_ofInt reduces (a.inHalf_num.mul b.inHalf_num) (a.inWord_den_mul_den b)
    (Nat.mul_pos a.den_pos b.den_pos)

/-- The sign of the divisor decides whether the pair is negated before it is made to fit. -/
theorem div_words (reduces : Reduces reduce) (a b : Fraction) :
    div reduce a.words b.words = some ((a.div b).map Fraction.words) := by
  by_cases zero : b.num = 0
  · rw [div, if_pos (b.words_num_eq_zero_iff.mpr zero), Fraction.div, if_pos zero]
    rfl
  have numInWord : InWord (a.num * b.den) := a.inHalf_num.mul b.inHalf_den
  have denInWord : InWord (a.den * b.num) := a.inHalf_den.mul b.inHalf_num
  have den : Word.mul a.words.den.toInt64 b.words.num.toInt64 = some (.ofInt (a.den * b.num)) := by
    rw [a.toInt64_words_den, b.toInt64_words_num]
    exact Word.mul_ofInt_half a.inHalf_den b.inHalf_num
  have a_den : (0 : Int) < a.den := Int.natCast_pos.mpr a.den_pos
  rw [div, if_neg (mt b.words_num_eq_zero_iff.mp zero), mul_num_den a b, den, Fraction.div,
    if_neg zero, Fraction.crossQuotient]
  simp only [Option.bind_eq_bind, Option.bind_some, Word.ofInt_lt_zero_iff denInWord]
  rcases lt_or_gt_of_ne zero with negative | positive
  · have magnitude : ((a.den * b.num.natAbs : Nat) : Int) = -(a.den * b.num) := by
      rw [Int.natCast_mul, Int.ofNat_natAbs_of_nonpos negative.le, Int.mul_neg]
    rw [if_pos (Int.mul_neg_of_pos_of_neg a_den negative), Word.neg_ofInt numInWord,
      Word.neg_ofInt denInWord, Int.sign_eq_neg_one_of_neg negative, Int.mul_neg, Int.mul_one,
      ← magnitude]
    refine narrow_ofInt reduces (inWord_neg.mpr numInWord) ?_
      (Fraction.crossQuotient_den_pos a b zero)
    rwa [magnitude, inWord_neg]
  · have magnitude : ((a.den * b.num.natAbs : Nat) : Int) = a.den * b.num := by
      rw [Int.natCast_mul, Int.natAbs_of_nonneg positive.le]
    rw [if_neg (Int.not_lt.mpr (Int.mul_pos a_den positive).le), Int.sign_eq_one_of_pos positive,
      Int.mul_one, ← magnitude]
    refine narrow_ofInt reduces numInWord ?_ (Fraction.crossQuotient_den_pos a b zero)
    rwa [magnitude]

theorem apply_words (reduces : Reduces reduce) (op : Operator) (a b : Fraction) :
    apply reduce op a.words b.words = some ((Fraction.apply op a b).map Fraction.words) := by
  cases op with
  | plus => exact add_words reduces a b
  | minus => exact sub_words reduces a b
  | times => exact mul_words reduces a b
  | dividedBy => exact div_words reduces a b

theorem sameValue_words (a b : Fraction) :
    sameValue a.words b.words = some (decide (Fraction.SameValue a b)) := by
  have first : InWord (a.num * b.den) := a.inHalf_num.mul b.inHalf_den
  have second : InWord (b.num * a.den) := b.inHalf_num.mul a.inHalf_den
  rw [sameValue, mul_num_den a b, mul_num_den b a]
  simp only [Option.bind_eq_bind, Option.bind_some, Option.pure_def, Option.some.injEq,
    Fraction.SameValue, ← Word.ofInt_inj first second]
  rfl

end WordFraction

end MixedCalculator
