import MixedCalculator.Screen.Basic

namespace MixedCalculator
namespace Screen

/-!
# Drawing a member

A number is shown in three number fields and an operator in four buttons.  Drawing a number
field does two things to the number: it takes over what was entered into the field, and it
brings the part back into the range of the field.  The second happens whether or not anything
was entered, and to a fixed field too.

The fields of a read-only number are fixed: they are not enabled, so no one can enter anything
into them.  It is the field that sees to this, by giving rise to no such act.  Drawing relies on it
and does not check it again: an act that names a field has its value taken over, and the mark of
the number is not asked for.  The members that an editor comes to hold are never read-only, so
there the question does not arise.
-/

/-- The largest number that a field holds. -/
def fieldLimit : Nat := 2147483647

/-- The nearest number that a field can hold. -/
def clamp (value : Int) : UInt32 :=
  UInt32.ofNat (min value.toNat fieldLimit)

/-- The value entered into one field of one member by an act, if it is such an act. -/
def entered? (index : Nat) (part : Part) : Act -> Option Int
  | .set actIndex actPart value =>
      if actIndex = index ∧ actPart = part then some value else none
  | _ => none

/-- A part of a number once its field is drawn: the value entered last, or else the value it
had, within the range of the field. -/
def drawPart (acts : List Act) (index : Nat) (part : Part) (stored : UInt32) : UInt32 :=
  clamp (((acts.filterMap (entered? index part)).getLast?).getD stored.toNat)

/-- A number once its fields are drawn.  Its sign and its mark stay as they are, and the mark makes
no difference, since no act comes from a field that is not enabled. -/
def drawNumber (acts : List Act) (index : Nat) (number : MixedNumber) : MixedNumber :=
  { number with
    whole := drawPart acts index .whole number.whole
    num := drawPart acts index .num number.num
    den := drawPart acts index .den number.den }

/-- An operator once its buttons are drawn.  They are drawn in the order of choice, so of
several operators chosen at once the last in that order remains. -/
def drawOperator (acts : List Act) (index : Nat) (op : Operator) : Operator :=
  ((Operator.all.filter (fun candidate => Act.choose index candidate ∈ acts)).getLast?).getD op

/-- A member once it is drawn. -/
def drawMember (acts : List Act) (index : Nat) : Member -> Member
  | .number number => .number (drawNumber acts index number)
  | .operator op => .operator (drawOperator acts index op)

/-- The members once they are all drawn, none of them removed yet. -/
def drawMembers (acts : List Act) (members : Expression) : Expression :=
  members.mapIdx (drawMember acts)

/-- The member to remove after drawing: of several whose removal is asked for, the last. -/
def deletion? (acts : List Act) (members : Expression) : Option Nat :=
  ((List.range members.length).filter (fun index => Act.delete index ∈ acts)).getLast?

def numberWidget (readOnly : Bool) (value : UInt32) : Widget :=
  if readOnly then .fixed value else .field value

/-- The widgets of a member, as it is once drawn. -/
def memberWidgets : Member -> List Widget
  | .number number =>
      [numberWidget number.readOnly number.whole, numberWidget number.readOnly number.num,
        .label "/", numberWidget number.readOnly number.den, .button "Suppr"]
  | .operator _ =>
      Operator.all.map (fun op => Widget.button op.symbol.toString) ++ [.button "Suppr"]

end Screen
end MixedCalculator
