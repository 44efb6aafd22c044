import MixedCalculator.Operator
import MixedCalculator.Text.Numeral

namespace MixedCalculator

/-!
# Faults

Every way in which reading or evaluating can be refused, with the message shown for it.
Positions are kept as indices from zero.  A message counts members from one, as a reader of
the expression does, and characters from zero.
-/

/-- Why a whole part, a numerator and a denominator do not make a fraction. -/
inductive PartsFault where
  | zeroDenominator
  | negativeDenominator
  | twoNegativeParts
  deriving DecidableEq, Repr, Inhabited

/-- The rule that a text or an expression breaks. -/
inductive Fault where
  | invalidParts (reason : PartsFault)
  | emptyExpression
  | operatorExpected (position : Nat)
  | numberExpected (position : Nat)
  | unexpectedOperator (position : Nat) (op : Operator)
  | divisionByZero
  | overflow
  | unexpectedCharacter (position : Nat) (character : Char)
  deriving DecidableEq, Repr, Inhabited

/-- The message for parts that do not make a fraction. -/
def PartsFault.message : PartsFault -> String
  | zeroDenominator => "le dénominateur ne doit pas être nul"
  | negativeDenominator => "le dénominateur doit être positif"
  | twoNegativeParts =>
      "la partie entière et le numérateur ne peuvent pas être négatifs tous les deux"

/-- The parenthesis that tells which member a message is about. -/
def memberNote (position : Nat) : String :=
  " (membre " ++ Numeral.natText (position + 1) ++ ")"

/-- The message shown for a fault. -/
def Fault.message : Fault -> String
  | invalidParts reason => reason.message
  | emptyExpression => "l'expression ne doit pas être vide"
  | operatorExpected position => "un plus ou un moins est attendu" ++ memberNote position
  | numberExpected position =>
      "l'expression se termine de façon inattendue : nombre attendu" ++ memberNote position
  | unexpectedOperator position op =>
      "seuls l'addition et la soustraction sont admises ici, pas '" ++ op.symbol.toString ++ "'" ++
        memberNote position
  | divisionByZero => "division par zéro"
  | overflow => "dépassement : le résultat sort de la plage représentable"
  | unexpectedCharacter position character =>
      "caractère inattendu: '" ++ character.toString ++ "' (position " ++
        Numeral.natText position ++ ")"

end MixedCalculator
