import Mathlib.Data.List.Forall2
import MixedCalculator.Screen.Frame

namespace MixedCalculator

/-!
# The effects of a frame

A frame is drawn once, and whatever is done during it takes effect where it is drawn.  To the
editor a frame is therefore a list of effects, one after the other.  Which effects these are is
not a matter of the acts alone.  The enter key, for instance, leads to a reading only if the
line of text takes the keyboard, and to an evaluation only if the reading succeeds; both depend
on what the bands above have done.
-/

/-- One effect on an editor. -/
inductive Effect where
  | clear
  | draw (acts : List Screen.Act)
  | delete (index : Nat)
  | add (op : Operator)
  | evaluate
  | reset
  | unfocus
  | importEntry
  deriving DecidableEq, Repr

namespace Editor

/-- The editor after an effect. -/
def undergo (editor : Editor) : Effect -> Editor
  | .clear => editor.clearEntry
  | .draw acts => { editor with members := Screen.drawMembers acts editor.members }
  | .delete index => editor.delete index
  | .add op => (editor.addOperation op).2
  | .evaluate => editor.evaluate
  | .reset => editor.reset
  | .unfocus => { editor with focused := false }
  | .importEntry => editor.importEntry.2

/-- The editor after several effects, in their order. -/
def undergoAll (editor : Editor) (effects : List Effect) : Editor :=
  effects.foldl undergo editor

theorem undergoAll_append (editor : Editor) (first second : List Effect) :
    editor.undergoAll (first ++ second) = (editor.undergoAll first).undergoAll second :=
  List.foldl_append

end Editor

namespace Screen

/-- What a band does to the editor that it finds, under the acts of a frame. -/
abbrev Course := List Act -> Editor -> List Effect

/-- The band has no other effects than those of the course. -/
def Band.Follows (band : Band) (course : Course) : Prop :=
  ∀ acts editor, (band acts editor).editor = editor.undergoAll (course acts editor)

/-- One course after the other, each with the editor that the one before has left. -/
def inTurn : List Course -> Course
  | [], _, _ => []
  | course :: below, acts, editor =>
      let effects := course acts editor
      effects ++ inTurn below acts (editor.undergoAll effects)

theorem follows_stack {bands : List Band} {courses : List Course}
    (each : List.Forall₂ Band.Follows bands courses) : (stack bands).Follows (inTurn courses) := by
  intro acts editor
  induction each generalizing editor with
  | nil => rfl
  | cons first _ inductionHypothesis =>
      simp only [stack, inTurn, Editor.undergoAll_append]
      rw [inductionHypothesis, first]

/-! ## The courses of the bands -/

def noEffect : Course :=
  fun _ _ => []

def onPress (which : Button) (effect : Effect) : Course :=
  fun acts _ => if .press which ∈ acts then [effect] else []

def onEscape : Course :=
  fun acts _ => if .key .escape ∈ acts then [.clear] else []

/-- All members are drawn before one is removed. -/
def onMembers : Course :=
  fun acts editor =>
    .draw acts :: ((deletion? acts (drawMembers acts editor.members)).map Effect.delete).toList

def onOperations : Course :=
  inTurn (Operator.all.map (fun op => onPress (.operation op) (.add op)) ++
    [onPress .equals .evaluate, onPress .allClear .reset])

/-- The line takes the keyboard if that is wished for, and only then reads the enter key. -/
def onEntryLine : Course :=
  fun acts editor =>
    if editor.focused then
      if .key .enter ∈ acts then
        if (editor.undergo .unfocus).importEntry.1 then [.unfocus, .importEntry, .evaluate]
        else [.unfocus, .importEntry]
      else [.unfocus]
    else []

def onEntryButtons : Course :=
  inTurn [onPress .read .importEntry, onPress .clear .clear]

/-- The effects of a whole frame, from top to bottom. -/
def effects : Course :=
  inTurn [onEscape, noEffect, onMembers, onOperations, onEntryLine, onEntryButtons, noEffect]

theorem follows_constant (widgets : Editor -> List Widget) : (constant widgets).Follows noEffect :=
  fun _ _ => rfl

theorem follows_button (which : Button) {action : Editor -> Editor} {effect : Effect}
    (same : ∀ editor, action editor = editor.undergo effect) :
    (button which action).Follows (onPress which effect) := by
  intro acts editor
  unfold button onPress
  split
  · exact same editor
  · rfl

theorem follows_escape : escape.Follows onEscape := by
  intro acts editor
  unfold escape onEscape
  split
  · rfl
  · rfl

theorem follows_members : members.Follows onMembers := by
  intro acts editor
  unfold members onMembers
  split
  · next none_there =>
      rw [List.isEmpty_iff] at none_there
      rcases editor with ⟨members, result, notice, entry, focused⟩
      cases none_there
      rfl
  · cases removed : deletion? acts (drawMembers acts editor.members) with
    | none => simp only [removed]; rfl
    | some index => simp only [removed]; rfl

theorem follows_operations : operations.Follows onOperations := by
  apply follows_stack
  apply List.rel_append
  · rw [List.forall₂_map_left_iff, List.forall₂_map_right_iff, List.forall₂_same]
    exact fun op _ => follows_button _ (fun _ => rfl)
  · exact .cons (follows_button _ (fun _ => rfl)) (.cons (follows_button _ (fun _ => rfl)) .nil)

theorem follows_entryLine : entryLine.Follows onEntryLine := by
  intro acts editor
  rcases read : ({ editor with focused := false } : Editor).importEntry with ⟨accepted, after⟩
  have listening : (editor.undergo .unfocus).importEntry = (accepted, after) := read
  unfold entryLine onEntryLine
  by_cases focused : editor.focused = true
  · rw [if_pos focused, if_pos focused]
    by_cases entered : Act.key .enter ∈ acts
    · simp only [if_pos entered, read, listening]
      have imported : (editor.undergo .unfocus).undergo .importEntry = after :=
        congrArg Prod.snd listening
      cases accepted with
      | true =>
          change after.evaluate = ((editor.undergo .unfocus).undergo .importEntry).evaluate
          rw [imported]
      | false => exact imported.symm
    · simp only [if_neg entered]
      rfl
  · rw [if_neg focused, if_neg focused]
    rfl

theorem follows_entryButtons : entryButtons.Follows onEntryButtons :=
  follows_stack
    (.cons (follows_button _ (fun _ => rfl)) (.cons (follows_button _ (fun _ => rfl)) .nil))

/-- A frame has no other effects than these. -/
theorem follows_frame : frame.Follows effects :=
  follows_stack (.cons follows_escape (.cons (follows_constant _) (.cons follows_members
    (.cons follows_operations (.cons follows_entryLine (.cons follows_entryButtons
      (.cons (follows_constant _) .nil)))))))

end Screen

end MixedCalculator
