import MixedCalculator.Fraction.Basic

namespace MixedCalculator

/-!
# Events of an evaluation

An evaluation reports every step of a chain of factors, every term added to the sum, and the
sum it ends with.  A calculation that fails reports the refusal.  Each event has a level, a
message and named fields, all of them texts.
-/

/-- How much detail an event adds for somebody who follows the evaluation. -/
inductive Level where
  | trace
  | debug
  | warn
  deriving DecidableEq, Repr

def Level.label : Level -> String
  | trace => "TRACE"
  | debug => "DEBUG"
  | warn => "WARN"

/-- What an evaluation over the given values reports. -/
inductive Event (Value : Type) where
  | factorApplied (op : Operator) (operand product : Value)
  | termAdded (sign : Sign) (product sum : Value)
  | evaluated (sum : Value) (members : Nat)
  | refused (fault : Fault) (members : Nat)
  deriving DecidableEq, Repr

namespace Event

def level {Value : Type} : Event Value -> Level
  | factorApplied _ _ _ => .trace
  | termAdded _ _ _ => .debug
  | evaluated _ _ => .debug
  | refused _ _ => .warn

def message {Value : Type} : Event Value -> String
  | factorApplied _ _ _ => "pas multiplicatif"
  | termAdded _ _ _ => "terme accumulé"
  | evaluated _ _ => "expression évaluée"
  | refused _ _ => "évaluation refusée"

/-- The named fields of an event over fractions. -/
def fields : Event Fraction -> List (String × String)
  | factorApplied op operand product =>
      [("op", op.symbol.toString), ("operande", operand.text), ("produit", product.text)]
  | termAdded sign product sum =>
      [("negatif", if sign = .negative then "true" else "false"), ("produit", product.text),
        ("somme", sum.text)]
  | evaluated sum members => [("somme", sum.text), ("membres", Numeral.natText members)]
  | refused fault members => [("erreur", fault.message), ("membres", Numeral.natText members)]

end Event

end MixedCalculator
