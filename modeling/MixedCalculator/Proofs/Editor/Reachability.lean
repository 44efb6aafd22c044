import MixedCalculator.Proofs.Screen.Effect

namespace MixedCalculator

/-!
# Reachable editors

An editor is reached from the initial one by requests, each an operation of the editor, a change
of the line of text or a whole frame of the screen.  A frame is no more than the operations that
its bands carry out, with the drawing of the members and the fulfilled wish for the keyboard
besides.  A property that all of these keep is therefore kept by frames as well, whatever the
acts, and it holds of every editor that can be reached once it holds of the initial one.
-/

/-- What can be done to an editor. -/
inductive Request where
  | add (op : Operator)
  | delete (index : Nat)
  | reset
  | clear
  | type (text : String)
  | importEntry
  | evaluate
  | frame (acts : List Screen.Act)

namespace Editor

/-- The editor after a request. -/
def perform (editor : Editor) : Request -> Editor
  | .add op => (editor.addOperation op).2
  | .delete index => editor.delete index
  | .reset => editor.reset
  | .clear => editor.clearEntry
  | .type text => { editor with entry := text }
  | .importEntry => editor.importEntry.2
  | .evaluate => editor.evaluate
  | .frame acts => (Screen.frame acts editor).editor

/-- An editor that requests lead to. -/
inductive Reachable : Editor -> Prop
  | initial : Reachable initial
  | perform {editor : Editor} (request : Request) :
      Reachable editor -> Reachable (editor.perform request)

/-- A property that every operation keeps. -/
structure Kept (property : Editor -> Prop) : Prop where
  add : ∀ editor op, property editor -> property (editor.addOperation op).2
  delete : ∀ editor index, property editor -> property (editor.delete index)
  reset : ∀ editor, property editor -> property editor.reset
  clear : ∀ editor, property editor -> property editor.clearEntry
  type : ∀ editor text, property editor -> property { editor with entry := text }
  importEntry : ∀ editor, property editor -> property editor.importEntry.2
  evaluate : ∀ editor, property editor -> property editor.evaluate
  draw : ∀ editor acts, property editor ->
    property { editor with members := Screen.drawMembers acts editor.members }
  unfocus : ∀ editor, property editor -> property { editor with focused := false }

variable {property : Editor -> Prop}

theorem Kept.undergo (kept : Kept property) {editor : Editor} (effect : Effect)
    (holds : property editor) : property (editor.undergo effect) := by
  cases effect with
  | clear => exact kept.clear editor holds
  | draw acts => exact kept.draw editor acts holds
  | delete index => exact kept.delete editor index holds
  | add op => exact kept.add editor op holds
  | evaluate => exact kept.evaluate editor holds
  | reset => exact kept.reset editor holds
  | unfocus => exact kept.unfocus editor holds
  | importEntry => exact kept.importEntry editor holds

theorem Kept.undergoAll (kept : Kept property) {editor : Editor} (effects : List Effect)
    (holds : property editor) : property (editor.undergoAll effects) := by
  induction effects generalizing editor with
  | nil => exact holds
  | cons effect rest inductionHypothesis => exact inductionHypothesis (kept.undergo effect holds)

end Editor

/-! ## Frames -/

namespace Screen

/-- A band that keeps a property, whatever the acts. -/
def Band.Keeps (band : Band) (property : Editor -> Prop) : Prop :=
  ∀ acts editor, property editor -> property (band acts editor).editor

/-- A frame does nothing to the editor but operations, drawing, and giving the keyboard to the
line of text. -/
theorem keeps_frame {property : Editor -> Prop} (kept : Editor.Kept property) :
    frame.Keeps property := by
  intro acts editor holds
  rw [follows_frame]
  exact kept.undergoAll (effects acts editor) holds

end Screen

namespace Editor

variable {property : Editor -> Prop}

/-- Every request keeps what the operations keep. -/
theorem Kept.perform (kept : Kept property) {editor : Editor} (request : Request)
    (holds : property editor) : property (editor.perform request) := by
  cases request with
  | add op => exact kept.add editor op holds
  | delete index => exact kept.delete editor index holds
  | reset => exact kept.reset editor holds
  | clear => exact kept.clear editor holds
  | type text => exact kept.type editor text holds
  | importEntry => exact kept.importEntry editor holds
  | evaluate => exact kept.evaluate editor holds
  | frame acts => exact Screen.keeps_frame kept acts editor holds

/-- What holds at first and is kept by every operation holds of every reachable editor. -/
theorem Reachable.of_kept (kept : Kept property)
    (holds_initially : property Editor.initial) {editor : Editor} (reachable : Reachable editor) :
    property editor := by
  induction reachable with
  | initial => exact holds_initially
  | perform request _ inductionHypothesis => exact kept.perform request inductionHypothesis

end Editor

end MixedCalculator
