import MixedCalculator.Editor
import MixedCalculator.Screen.Member

namespace MixedCalculator
namespace Screen

/-!
# Frames

A frame is drawn once, from top to bottom, and every widget takes effect when it is drawn.
Each band of the screen therefore turns the acts of the frame and the editor as the bands
above have left it into widgets and a new editor.  What has been drawn is not drawn again, so
a band may show what a band below it then changes.
-/

/-- What is shown, and the editor after it has been shown. -/
structure Drawing where
  widgets : List Widget
  editor : Editor
  deriving DecidableEq, Repr

/-- A band of the screen. -/
abbrev Band := List Act -> Editor -> Drawing

/-- Draw bands one below the other. -/
def stack : List Band -> Band
  | [], _, editor => ⟨[], editor⟩
  | band :: below, acts, editor =>
      let upper := band acts editor
      let lower := stack below acts upper.editor
      ⟨upper.widgets ++ lower.widgets, lower.editor⟩

/-- A band that shows widgets and changes nothing. -/
def constant (widgets : Editor -> List Widget) : Band :=
  fun _ editor => ⟨widgets editor, editor⟩

/-- A band of one button, with its effect when it is pressed. -/
def button (which : Button) (effect : Editor -> Editor) : Band :=
  fun acts editor =>
    ⟨[.button which.label], if .press which ∈ acts then effect editor else editor⟩

/-- The escape key clears the line of text before anything is drawn. -/
def escape : Band :=
  fun acts editor => ⟨[], if .key .escape ∈ acts then editor.clearEntry else editor⟩

/-- The members, each with the means of changing and removing it. -/
def members : Band :=
  fun acts editor =>
    if editor.members.isEmpty then ⟨[.label "(vide)"], editor⟩
    else
      let drawn := { editor with members := drawMembers acts editor.members }
      ⟨drawn.members.flatMap memberWidgets,
        match deletion? acts drawn.members with
        | some index => drawn.delete index
        | none => drawn⟩

/-- The buttons that add an operation, then those that evaluate and start afresh. -/
def operations : Band :=
  stack (Operator.all.map (fun op => button (.operation op) (fun editor =>
      (editor.addOperation op).2)) ++
    [button .equals Editor.evaluate, button .allClear Editor.reset])

/-- The line of text.  If the keyboard is wished for, the line takes it, and the wish is
fulfilled.  Only a line that has just taken the keyboard listens to the enter key: then the
text is read, and what was read is evaluated. -/
def entryLine : Band :=
  fun acts editor =>
    ⟨[.label "Saisie :", .entry editor.entry],
      if editor.focused then
        let listening := { editor with focused := false }
        if .key .enter ∈ acts then
          match listening.importEntry with
          | (true, imported) => imported.evaluate
          | (false, refused) => refused
        else listening
      else editor⟩

/-- The buttons of the line of text. -/
def entryButtons : Band :=
  stack [button .read (fun editor => editor.importEntry.2), button .clear Editor.clearEntry]

/-- The signed parts of a result. -/
def partsText (m : MixedNumber) : String :=
  Numeral.intText m.signedWhole ++ " | " ++ Numeral.intText m.signedNum ++ " / " ++
    Numeral.natText m.den.toNat

/-- The expression as a text, the result, and the notice if there is one. -/
def outputs (editor : Editor) : List Widget :=
  [.label "Texte :", .label (Expression.text editor.members), .label "Résultat :",
    .label editor.result.text, .label (partsText editor.result)] ++
  match editor.notice with
  | none => []
  | some notice => [.label notice.message]

/-- One frame of the screen. -/
def frame : Band :=
  stack [escape, constant (fun _ => [.label "Calculatrice mixte", .label "Expression :"]), members,
    operations, entryLine, entryButtons, constant outputs]

end Screen
end MixedCalculator
