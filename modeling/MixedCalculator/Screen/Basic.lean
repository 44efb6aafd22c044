import MixedCalculator.Expression.Basic

namespace MixedCalculator
namespace Screen

/-!
# Acts and widgets

A screen is drawn frame by frame.  During a frame a person may act on several widgets at once,
and an act says nothing about the order: it names a widget and what was done to it.  What a
frame shows is a list of widgets from top to bottom.
-/

/-- The buttons below the members. -/
inductive Button where
  | operation (op : Operator)
  | equals
  | allClear
  | read
  | clear
  deriving DecidableEq, Repr

def Button.label : Button -> String
  | operation op => op.symbol.toString
  | equals => "="
  | allClear => "AC"
  | read => "Lire"
  | clear => "C"

/-- The three number fields of a mixed number. -/
inductive Part where
  | whole
  | num
  | den
  deriving DecidableEq, Repr

inductive Key where
  | enter
  | escape
  deriving DecidableEq, Repr

/-- Something done during a frame.  Members are numbered as they stand before the frame. -/
inductive Act where
  | press (button : Button)
  | delete (index : Nat)
  | choose (index : Nat) (op : Operator)
  | set (index : Nat) (part : Part) (value : Int)
  | key (key : Key)
  deriving DecidableEq, Repr

/-- Something shown.  A number field that belongs to a result is fixed. -/
inductive Widget where
  | label (text : String)
  | button (text : String)
  | field (value : UInt32)
  | fixed (value : UInt32)
  | entry (text : String)
  deriving DecidableEq, Repr

end Screen
end MixedCalculator
