import MixedCalculator.Evaluation.Arithmetic
import MixedCalculator.Evaluation.Event
import MixedCalculator.Evaluation.Traced
import MixedCalculator.Expression.Basic

namespace MixedCalculator

/-!
# Evaluation

An expression is a sum of signed terms, and a term is a chain of factors joined by
multiplications and divisions.  The first term may go without a sign.  Chains are computed
from left to right, and so is the sum.

The members are read once.  What has been read is summed up in a running sum and a phase,
which says what may follow.  A term is added to the sum only when the member after it shows
that its chain has ended.  Hence a fault in a chain, or a sum that does not fit, is found
before the member that ended the chain is judged.
-/

/-- What has just been read, as far as it is not yet part of the running sum. -/
inductive Phase (Value : Type) where
  /-- Nothing at all. -/
  | opening
  /-- A sign, whose term has yet to begin. -/
  | signed (sign : Sign)
  /-- A chain of factors, which may end here or go on. -/
  | term (sign : Sign) (product : Value)
  /-- A chain of factors and an operator that continues it. -/
  | factor (sign : Sign) (product : Value) (op : Operator)
  deriving DecidableEq, Repr

/-- How far an evaluation has come. -/
structure Progress (Value : Type) where
  position : Nat
  sum : Value
  phase : Phase Value
  deriving DecidableEq, Repr

namespace Evaluation

variable {Value : Type}

/-- Before the first member. -/
def start (arithmetic : Arithmetic Value) : Progress Value :=
  ⟨0, arithmetic.zero, .opening⟩

/-- Add a finished term to the running sum. -/
def addTerm (arithmetic : Arithmetic Value) (sum : Value) (sign : Sign) (product : Value) :
    Traced (Event Value) Value := do
  let total ← .silently (arithmetic.apply (.ofSign sign) sum product)
  .emit (.termAdded sign product total)
  return total

/-- Multiply or divide a chain of factors by one more number. -/
def applyFactor (arithmetic : Arithmetic Value) (product : Value) (op : Operator)
    (number : MixedNumber) : Traced (Event Value) Value := do
  let operand ← .silently (arithmetic.ofMixed number)
  let result ← .silently (arithmetic.apply op product operand)
  .emit (.factorApplied op operand result)
  return result

/-- Read one member. -/
def step (arithmetic : Arithmetic Value) (progress : Progress Value) (member : Member) :
    Traced (Event Value) (Progress Value) :=
  let next := progress.position + 1
  match progress.phase, member with
  | .opening, .number number => do
      let product ← .silently (arithmetic.ofMixed number)
      return ⟨next, progress.sum, .term .positive product⟩
  | .opening, .operator op =>
      match op.sign? with
      | some sign => return ⟨next, progress.sum, .signed sign⟩
      | none => .fail (.unexpectedOperator progress.position op)
  | .signed sign, .number number => do
      let product ← .silently (arithmetic.ofMixed number)
      return ⟨next, progress.sum, .term sign product⟩
  | .signed _, .operator _ => .fail (.numberExpected progress.position)
  | .term sign product, .number _ => do
      let _ ← addTerm arithmetic progress.sum sign product
      .fail (.operatorExpected progress.position)
  | .term sign product, .operator op =>
      match op.sign? with
      | some following => do
          let total ← addTerm arithmetic progress.sum sign product
          return ⟨next, total, .signed following⟩
      | none => return ⟨next, progress.sum, .factor sign product op⟩
  | .factor sign product op, .number number => do
      let result ← applyFactor arithmetic product op number
      return ⟨next, progress.sum, .term sign result⟩
  | .factor _ _ _, .operator _ => .fail (.numberExpected progress.position)

/-- Read members one after the other. -/
def advance (arithmetic : Arithmetic Value) (progress : Progress Value)
    (members : Expression) : Traced (Event Value) (Progress Value) :=
  members.foldlM (step arithmetic) progress

/-- The members are read once, so what comes later is read from where the earlier members
have led. -/
theorem advance_append (arithmetic : Arithmetic Value) (progress : Progress Value)
    (earlier later : Expression) :
    advance arithmetic progress (earlier ++ later) =
      advance arithmetic progress earlier >>= fun reached =>
        advance arithmetic reached later :=
  List.foldlM_append

/-- Conclude after the last member. -/
def finish (arithmetic : Arithmetic Value) (progress : Progress Value) :
    Traced (Event Value) Value :=
  match progress.phase with
  | .opening => .fail .emptyExpression
  | .signed _ => .fail (.numberExpected progress.position)
  | .term sign product => do
      let total ← addTerm arithmetic progress.sum sign product
      .emit (.evaluated total progress.position)
      return total
  | .factor _ _ _ => .fail (.numberExpected progress.position)

/-- Evaluate an expression over the given arithmetic. -/
def run (arithmetic : Arithmetic Value) (members : Expression) :
    Traced (Event Value) Value := do
  let progress ← advance arithmetic (start arithmetic) members
  finish arithmetic progress

end Evaluation

namespace Expression

/-- The evaluation of an expression over fractions, with its trace. -/
def evaluation (members : Expression) : Traced (Event Fraction) Fraction :=
  Evaluation.run .fractions members

/-- The value of an expression, or the first fault in it. -/
def evaluate (members : Expression) : Except Fault Fraction :=
  (evaluation members).outcome

end Expression

end MixedCalculator
