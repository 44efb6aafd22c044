import Mathlib.Data.List.Chain
import MixedCalculator.Expression.Basic
import MixedCalculator.Proofs.MixedNumber.Value

namespace MixedCalculator

/-!
# The grammar of expressions

A well-formed expression is a number, possibly behind a sign, followed by any number of
operators with a number each.  Its structure is a sum of signed terms, each a chain of
multiplications and divisions.  Both nest to the left, so the parts of a sum are exactly the
partial sums, and the parts of a term its partial products.

The grammar knows nothing of values.  Whether a sum has a value, and whether everything on the
way to it can be held, is said on the structure.
-/

/-- One sign at most, a number, then operators and numbers in turn. -/
inductive WellFormed : Expression -> Prop
  | number (number : MixedNumber) : WellFormed [.number number]
  | signed (sign : Sign) (number : MixedNumber) :
      WellFormed [.operator (.ofSign sign), .number number]
  | link {before : Expression} (op : Operator) (number : MixedNumber) :
      WellFormed before -> WellFormed (before ++ [.operator op, .number number])

/-- A chain of multiplications and divisions. -/
inductive Term where
  | number (number : MixedNumber)
  | times (chain : Term) (number : MixedNumber)
  | dividedBy (chain : Term) (number : MixedNumber)

/-- A sum of signed terms, of which the first may go without a sign. -/
inductive SignedSum where
  | single (term : Term)
  | signed (sign : Sign) (term : Term)
  | add (sum : SignedSum) (sign : Sign) (term : Term)

namespace Term

def members : Term -> Expression
  | number n => [.number n]
  | times chain n => chain.members ++ [.operator .times, .number n]
  | dividedBy chain n => chain.members ++ [.operator .dividedBy, .number n]

/-- The exact value of a chain, computed from the left. -/
def value : Term -> Rat
  | number n => n.value
  | times chain n => chain.value * n.value
  | dividedBy chain n => chain.value / n.value

/-- Every number has a value, and no divisor is zero. -/
def Defined : Term -> Prop
  | number n => n.den ≠ 0
  | times chain n => chain.Defined ∧ n.den ≠ 0
  | dividedBy chain n => chain.Defined ∧ n.den ≠ 0 ∧ n.value ≠ 0

/-- Every operand and every partial product can be held. -/
def Bounded : Term -> Prop
  | number n => Holdable n.value
  | times chain n => chain.Bounded ∧ Holdable n.value ∧ Holdable (times chain n).value
  | dividedBy chain n => chain.Bounded ∧ Holdable n.value ∧ Holdable (dividedBy chain n).value

end Term

namespace SignedSum

def members : SignedSum -> Expression
  | single term => term.members
  | signed sign term => .operator (.ofSign sign) :: term.members
  | add sum sign term => sum.members ++ .operator (.ofSign sign) :: term.members

/-- The exact sum of the signed terms. -/
def value : SignedSum -> Rat
  | single term => term.value
  | signed sign term => sign.scale term.value
  | add sum sign term => sum.value + sign.scale term.value

def Defined : SignedSum -> Prop
  | single term => term.Defined
  | signed _ term => term.Defined
  | add sum _ term => sum.Defined ∧ term.Defined

/-- Every operand, every partial product of every term and every partial sum can be held. -/
def Bounded : SignedSum -> Prop
  | single term => term.Bounded ∧ Holdable (single term).value
  | signed sign term => term.Bounded ∧ Holdable (signed sign term).value
  | add sum sign term => sum.Bounded ∧ term.Bounded ∧ Holdable (add sum sign term).value

/-- Continue the last term of a sum. -/
def continueWith (extend : Term -> Term) : SignedSum -> SignedSum
  | single term => single (extend term)
  | signed sign term => signed sign (extend term)
  | add sum sign term => add sum sign (extend term)

theorem members_continueWith (sum : SignedSum) (extend : Term -> Term) (more : Expression)
    (extended : ∀ term, (extend term).members = term.members ++ more) :
    (sum.continueWith extend).members = sum.members ++ more := by
  cases sum with
  | single term => exact extended term
  | signed sign term => simp only [continueWith, members, extended, List.cons_append]
  | add sum sign term =>
      simp only [continueWith, members, extended, List.cons_append, List.append_assoc]

end SignedSum

namespace WellFormed

/-- A chain of factors continues any expression behind a sign, and so does its beginning. -/
theorem append_term {before : Expression} (wellFormed : WellFormed before) (sign : Sign)
    (term : Term) : WellFormed (before ++ .operator (.ofSign sign) :: term.members) := by
  induction term with
  | number n => exact link (.ofSign sign) n wellFormed
  | times chain n inductionHypothesis =>
      have longer := link .times n inductionHypothesis
      simpa only [Term.members, List.append_assoc, List.cons_append] using longer
  | dividedBy chain n inductionHypothesis =>
      have longer := link .dividedBy n inductionHypothesis
      simpa only [Term.members, List.append_assoc, List.cons_append] using longer

theorem term_members (term : Term) : WellFormed term.members := by
  induction term with
  | number n => exact number n
  | times chain n inductionHypothesis => exact link .times n inductionHypothesis
  | dividedBy chain n inductionHypothesis => exact link .dividedBy n inductionHypothesis

theorem signed_members (sign : Sign) (term : Term) :
    WellFormed (.operator (.ofSign sign) :: term.members) := by
  induction term with
  | number n => exact signed sign n
  | times chain n inductionHypothesis => exact link .times n inductionHypothesis
  | dividedBy chain n inductionHypothesis => exact link .dividedBy n inductionHypothesis

theorem members (sum : SignedSum) : WellFormed sum.members := by
  induction sum with
  | single term => exact term_members term
  | signed sign term => exact signed_members sign term
  | add sum sign term inductionHypothesis => exact append_term inductionHypothesis sign term

/-- Every well-formed expression is a sum of signed terms: a sign begins a new term, and any
other operator continues the last one. -/
theorem exists_signedSum {expression : Expression} (wellFormed : WellFormed expression) :
    ∃ sum : SignedSum, sum.members = expression := by
  induction wellFormed with
  | number n => exact ⟨.single (.number n), rfl⟩
  | signed sign n => exact ⟨.signed sign (.number n), rfl⟩
  | link op n _ inductionHypothesis =>
      rcases inductionHypothesis with ⟨sum, rfl⟩
      cases op with
      | plus => exact ⟨.add sum .positive (.number n), rfl⟩
      | minus => exact ⟨.add sum .negative (.number n), rfl⟩
      | times =>
          exact ⟨sum.continueWith (.times · n), sum.members_continueWith _ _ (fun _ => rfl)⟩
      | dividedBy =>
          exact ⟨sum.continueWith (.dividedBy · n), sum.members_continueWith _ _ (fun _ => rfl)⟩

end WellFormed

namespace Expression

/-- Every number has a denominator, and every number that follows a division is not zero. -/
def Defined (members : Expression) : Prop :=
  (∀ number, .number number ∈ members -> number.den ≠ 0) ∧
    ∀ number, [.operator .dividedBy, .number number] <:+: members -> number.value ≠ 0

/-- A part of an expression has no more numbers and no more divisors. -/
theorem Defined.of_infix {part members : Expression} (isPart : part <:+: members)
    (defined : Defined members) : Defined part :=
  ⟨fun number member => defined.1 number (isPart.subset member),
    fun number divisor => defined.2 number (divisor.trans isPart)⟩

theorem Defined.last_factor {before : Expression} {op : Operator} {number : MixedNumber}
    (defined : Defined (before ++ [.operator op, .number number])) :
    number.den ≠ 0 ∧ (op = .dividedBy -> number.value ≠ 0) := by
  constructor
  · exact defined.1 number (by simp)
  · rintro rfl
    exact defined.2 number (List.suffix_append _ _).isInfix

/-- On a chain of factors and on a sum, the condition can be read off the structure. -/
theorem Defined.term {term : Term} (defined : Defined term.members) : term.Defined := by
  induction term with
  | number n => exact defined.1 n List.mem_cons_self
  | times chain n inductionHypothesis =>
      exact ⟨inductionHypothesis (defined.of_infix (List.prefix_append _ _).isInfix),
        defined.last_factor.1⟩
  | dividedBy chain n inductionHypothesis =>
      exact ⟨inductionHypothesis (defined.of_infix (List.prefix_append _ _).isInfix),
        defined.last_factor.1, defined.last_factor.2 rfl⟩

theorem Defined.signedSum {sum : SignedSum} (defined : Defined sum.members) : sum.Defined := by
  induction sum with
  | single term => exact Defined.term defined
  | signed sign term =>
      exact Defined.term (defined.of_infix (List.suffix_cons _ _).isInfix)
  | add sum sign term inductionHypothesis =>
      have last : term.members <:+: sum.members ++ .operator (.ofSign sign) :: term.members :=
        ((List.suffix_cons _ _).trans (List.suffix_append _ _)).isInfix
      exact ⟨inductionHypothesis (defined.of_infix (List.prefix_append _ _).isInfix),
        Defined.term (defined.of_infix last)⟩

end Expression

end MixedCalculator
