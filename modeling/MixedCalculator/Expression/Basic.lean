import MixedCalculator.Operator
import MixedCalculator.MixedNumber.Basic

namespace MixedCalculator

/-!
# Expressions

An expression is a list of members, each a number or an operator, in any order whatever.  It
is edited member by member, so it passes through ill-formed stages all the time; whether it
means anything is for the evaluation to say.
-/

/-- A number or an operator. -/
inductive Member where
  | number (value : MixedNumber)
  | operator (op : Operator)
  deriving DecidableEq, Repr, Inhabited

/-- The members of an expression, from left to right. -/
abbrev Expression := List Member

namespace Member

/-- The member without display marks. -/
def form : Member -> Member
  | number value => number value.form
  | operator op => operator op

def chars : Member -> List Char
  | number value => value.chars
  | operator op => [op.symbol]

def text (member : Member) : String := String.ofList member.chars

end Member

namespace Expression

/-- The expression without display marks.  Two expressions have the same form when this
agrees. -/
def form (members : Expression) : Expression :=
  members.map Member.form

/-- The written form of an expression: its members, with one space between neighbours. -/
def chars (members : Expression) : List Char :=
  [' '].intercalate (members.map Member.chars)

def text (members : Expression) : String := String.ofList (chars members)

end Expression

end MixedCalculator
