import MixedCalculator.Proofs.Word.Construction

namespace MixedCalculator

/-!
# Whole computations in machine words

Fractions are constructed and then computed with, in any order and to any depth.  Every operation
relies on the denominators of its operands being positive, and keeps its own positive in turn.  By
induction a whole computation on words therefore never has a step refused, and its outcome is that of
the computation on exact integers.
-/

/-- A way to come by a fraction: from a whole number, from parts, from a mixed number, or by an
operation on two fractions.  A plain quotient is constructed from parts, with a whole part of zero. -/
inductive Computation where
  | ofInt (n : Int32)
  | ofParts (whole num den : Int32)
  | ofMixed (m : MixedNumber)
  | apply (op : Operator) (first second : Computation)

theorem fits_toInt (n : Int32) : Fits n.toInt 1 := by
  have lower := n.le_toInt
  have upper := n.toInt_lt
  exact ⟨lower, by omega, by decide, by decide⟩

namespace Computation

/-- The fraction that comes out, computed on exact integers. -/
def result : Computation -> Except Fault Fraction
  | ofInt n => .ok (.ofInt n.toInt (fits_toInt n))
  | ofParts whole num den => Fraction.ofParts whole.toInt num.toInt den.toInt
  | ofMixed m => m.toFraction
  | apply op first second => do
      let a ← first.result
      let b ← second.result
      Fraction.apply op a b

/-- The pair of half words that comes out, computed on words. -/
def inWords (reduce : Int64 -> Int64 -> Option (Int64 × Int64)) :
    Computation -> Option (Except Fault WordFraction)
  | ofInt n => some (.ok ⟨n, 1⟩)
  | ofParts whole num den => WordFraction.ofParts reduce whole num den
  | ofMixed m => WordFraction.ofMixed reduce m
  | apply op first second => do
      match ← first.inWords reduce, ← second.inWords reduce with
      | .ok a, .ok b => WordFraction.apply reduce op a b
      | .error fault, _ => some (.error fault)
      | .ok _, .error fault => some (.error fault)

variable {reduce : Int64 -> Int64 -> Option (Int64 × Int64)}

/-- Nothing is refused on the way, and the words stand for the exact result. -/
theorem inWords_eq (reduces : Reduces reduce) (computation : Computation) :
    computation.inWords reduce = some (computation.result.map Fraction.words) := by
  induction computation with
  | ofInt n =>
      have same : Fraction.words (.ofInt n.toInt (fits_toInt n)) = ⟨n, 1⟩ := by
        rw [Fraction.words, Fraction.ofInt, Int32.ofInt_toInt]
        rfl
      exact congrArg (fun a => some (Except.ok a)) same.symm
  | ofParts whole num den => exact WordFraction.ofParts_eq reduces whole num den
  | ofMixed m => exact WordFraction.ofMixed_eq reduces m
  | apply op first second firstHypothesis secondHypothesis =>
      rw [inWords, firstHypothesis, secondHypothesis, result]
      cases first.result with
      | error fault => rfl
      | ok a =>
          cases second.result with
          | error fault => rfl
          | ok b => exact WordFraction.apply_words reduces op a b

theorem exists_words (reduces : Reduces reduce) {computation : Computation} {a : WordFraction}
    (computed : computation.inWords reduce = some (.ok a)) : ∃ exact : Fraction, a = exact.words := by
  rw [inWords_eq reduces, Option.some.injEq] at computed
  cases outcome : computation.result with
  | error fault =>
      rw [outcome] at computed
      cases computed
  | ok exact =>
      rw [outcome] at computed
      cases computed
      exact ⟨exact, rfl⟩

/-- However a fraction is computed on words, no step is refused, so that none exceeds its bounds, none
meets the least word, and no denominator to be made to fit fails to be positive.  The outcome is that
of the computation on exact integers, and a denominator in it is positive.  Whatever fractions come out,
they can be computed with further and be compared, and they compare equal when their cross products
agree. -/
theorem inWords_never_refused (reduces : Reduces reduce) :
    (∀ computation : Computation,
      computation.inWords reduce = some (computation.result.map Fraction.words)) ∧
    (∀ (computation : Computation) (a : WordFraction), computation.inWords reduce = some (.ok a) ->
      1 ≤ a.den.toInt ∧ a.den.toInt ≤ 2147483647) ∧
    ∀ (first second : Computation) (a b : WordFraction),
      first.inWords reduce = some (.ok a) -> second.inWords reduce = some (.ok b) ->
        (∀ op, ∃ outcome, WordFraction.apply reduce op a b = some outcome) ∧
          ∃ same, WordFraction.sameValue a b = some same ∧
            (same = true ↔ a.num.toInt * b.den.toInt = b.num.toInt * a.den.toInt) := by
  refine ⟨inWords_eq reduces, ?_, ?_⟩
  · intro computation a computed
    rcases exists_words reduces computed with ⟨exact, rfl⟩
    have den_pos := exact.den_pos
    have den_le := exact.fits.2.2.2
    rw [exact.toInt_words_den]
    omega
  · intro first second a b computedFirst computedSecond
    rcases exists_words reduces computedFirst with ⟨exactFirst, rfl⟩
    rcases exists_words reduces computedSecond with ⟨exactSecond, rfl⟩
    refine ⟨fun op => ⟨_, WordFraction.apply_words reduces op exactFirst exactSecond⟩, _,
      WordFraction.sameValue_words exactFirst exactSecond, ?_⟩
    rw [decide_eq_true_iff, exactFirst.toInt_words_num, exactFirst.toInt_words_den,
      exactSecond.toInt_words_num, exactSecond.toInt_words_den]
    rfl

/-- Its numerator is `-9223372028264841218` before it is reduced. -/
def sumAtTheBounds : Computation :=
  .apply .plus (.ofParts 0 (-2147483648) 2147483647) (.ofParts 0 (-2147483646) 2147483647)

/-- The sum of `-2147483648/2147483647` and `-2147483646/2147483647` is `-2`, which can be divided by
the least half word and compared with it. -/
theorem inWords_of_sumAtTheBounds :
    Reduces exactReduction ∧ sumAtTheBounds.inWords exactReduction = some (.ok ⟨-2, 1⟩) ∧
      1 ≤ (1 : Int32).toInt ∧
      (∃ outcome, WordFraction.apply exactReduction .dividedBy ⟨-2, 1⟩ ⟨-2147483648, 1⟩ =
        some outcome) ∧
      WordFraction.sameValue ⟨-2, 1⟩ ⟨-2147483648, 1⟩ = some false := by
  have sum : sumAtTheBounds.inWords exactReduction = some (.ok ⟨-2, 1⟩) := by rfl
  have least : (ofInt (-2147483648)).inWords exactReduction = some (.ok ⟨-2147483648, 1⟩) := by rfl
  rcases inWords_never_refused reduces_exactReduction with ⟨-, positive, further⟩
  rcases further _ _ _ _ sum least with ⟨computes, same, compares, agree⟩
  refine ⟨reduces_exactReduction, sum, (positive _ _ sum).1, computes .dividedBy, ?_⟩
  rw [compares, Option.some.injEq, Bool.eq_false_iff, Ne, agree]
  decide

end Computation

end MixedCalculator
