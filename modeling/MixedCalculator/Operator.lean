import MixedCalculator.Sign

namespace MixedCalculator

/-!
# Operators

The four operators of an expression.  Two of them can also stand before a term as its sign,
which is the only difference in binding strength that the calculator knows: an operator that
is not a sign continues the chain of factors that precedes it.
-/

/-- The operators of an expression. -/
inductive Operator where
  | plus
  | minus
  | times
  | dividedBy
  deriving DecidableEq, Repr, Inhabited

namespace Operator

/-- Every operator, in the order in which they are offered for choice. -/
def all : List Operator := [plus, minus, times, dividedBy]

/-- No operator is missing from the choice. -/
theorem mem_all (op : Operator) : op ∈ all := by
  cases op <;> decide

/-- The one character that writes an operator. -/
def symbol : Operator -> Char
  | plus => '+'
  | minus => '-'
  | times => '*'
  | dividedBy => '/'

/-- The operator that a character denotes.  Besides the written symbols, the typographic
minus, multiplication and division signs are understood. -/
def ofSymbol? : Char -> Option Operator
  | '+' => some plus
  | '-' => some minus
  | '−' => some minus
  | '*' => some times
  | '×' => some times
  | '/' => some dividedBy
  | '÷' => some dividedBy
  | _ => none

/-- What is written can be read back. -/
@[simp] theorem ofSymbol?_symbol (op : Operator) : ofSymbol? op.symbol = some op := by
  cases op <;> rfl

/-- The sign that an operator gives to the term after it, if it is a sign at all. -/
def sign? : Operator -> Option Sign
  | plus => some .positive
  | minus => some .negative
  | times => none
  | dividedBy => none

/-- The operator that a sign stands for between two terms. -/
def ofSign : Sign -> Operator
  | .positive => plus
  | .negative => minus

@[simp] theorem sign?_ofSign (sign : Sign) : (ofSign sign).sign? = some sign := by
  cases sign <;> rfl

/-- Multiplication and division bind more tightly than the signs. -/
def isMultiplicative (op : Operator) : Bool :=
  op.sign?.isNone

end Operator

end MixedCalculator
