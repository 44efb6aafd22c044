import MixedCalculator.Calculation
import MixedCalculator.Expression.Reading

namespace MixedCalculator

/-!
# The editor

The editor holds the expression being worked on, the last result, a notice if something went
wrong, a line of text, and the wish to have the keyboard on that line.  A fault leaves the last
result in place.  An expression is limited in length both when operations are added to it and
when it is read from the line of text.
-/

/-- Why the editor last refused something. -/
inductive Notice where
  | fault (cause : Fault)
  | tooLong
  deriving DecidableEq, Repr

/-- The most members that an expression under edition may have. -/
def memberLimit : Nat := 256

def Notice.message : Notice -> String
  | .fault cause => cause.message
  | .tooLong => "expression trop longue (" ++ Numeral.natText memberLimit ++ " membres max)"

/-- The state of the editor. -/
structure Editor where
  members : Expression
  result : MixedNumber
  notice : Option Notice
  entry : String
  focused : Bool
  deriving DecidableEq, Repr

namespace Editor

/-- The editor as it is first shown, with a subtraction and its result. -/
def initial : Editor where
  members :=
    [.number (.positive 5 3 4), .operator .minus, .number (.positive 6 2 3)]
  result := (MixedNumber.ofMagnitudes .negative 0 11 12).asReadOnly
  notice := none
  entry := ""
  focused := false

instance : Inhabited Editor := ⟨initial⟩

/-- The text of the notice, empty if there is none. -/
def noticeText (editor : Editor) : String :=
  match editor.notice with
  | none => ""
  | some notice => notice.message

/-- Give notice of a refusal and move to the line of text. -/
def refuse (editor : Editor) (notice : Notice) : Editor :=
  { editor with notice := some notice, focused := true }

/-- Take over a result, withdraw any notice and move to the line of text. -/
def present (editor : Editor) (result : MixedNumber) : Editor :=
  { editor with notice := none, result := result.asReadOnly, focused := true }

instance : Host Editor where
  members editor := editor.members
  refuse editor fault := editor.refuse (.fault fault)
  present := Editor.present

/-- The operand that an operation starts out with, chosen so as to change no value: zero
after a sign, one in a chain of factors. -/
def neutralOperand (op : Operator) : MixedNumber :=
  if op.isMultiplicative then .positive 1 0 1 else .positive 0 0 1

/-- Append an operator and its neutral operand, unless the expression would become too long.
Tells whether it did. -/
def addOperation (editor : Editor) (op : Operator) : Bool × Editor :=
  if memberLimit < editor.members.length + 2 then (false, editor.refuse .tooLong)
  else
    (true, { editor with
      members := editor.members ++ [.operator op, .number (neutralOperand op)] })

/-- Remove the member at an index, if there is one. -/
def delete (editor : Editor) (index : Nat) : Editor :=
  { editor with members := editor.members.eraseIdx index }

/-- Start afresh: no members, a result of zero, no notice and no text. -/
def reset (editor : Editor) : Editor :=
  { editor with
    members := []
    result := MixedNumber.zero.asReadOnly
    notice := none
    entry := ""
    focused := true }

/-- Clear the line of text alone. -/
def clearEntry (editor : Editor) : Editor :=
  { editor with entry := "", focused := true }

/-- Replace the members by the reading of the line of text, blanks at its ends apart.  A line
that cannot be read, or is too long, leaves the members as they are.  Tells whether they were
replaced. -/
def importEntry (editor : Editor) : Bool × Editor :=
  match Expression.ofChars (Text.trim editor.entry.toList) with
  | .error fault => (false, editor.refuse (.fault fault))
  | .ok members =>
      if memberLimit < members.length then (false, editor.refuse .tooLong)
      else (true, { editor with members := members, notice := none })

/-- Calculate on behalf of the editor, which takes over whatever comes of it. -/
def evaluate (editor : Editor) : Editor :=
  (calculate editor).host

theorem evaluate_of_ok {editor : Editor} {total : Fraction}
    (evaluated : editor.members.evaluate = .ok total) :
    editor.evaluate = editor.present total.toMixed.asReadOnly :=
  congrArg Calculation.host (calculate_of_ok evaluated)

theorem evaluate_of_error {editor : Editor} {fault : Fault}
    (evaluated : editor.members.evaluate = .error fault) :
    editor.evaluate = editor.refuse (.fault fault) :=
  congrArg Calculation.host (calculate_of_error evaluated)

end Editor

end MixedCalculator
