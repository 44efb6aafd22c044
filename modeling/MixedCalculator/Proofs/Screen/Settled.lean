import Mathlib.Data.List.Nodup
import MixedCalculator.Proofs.Screen.Confinement
import MixedCalculator.Proofs.Screen.Effect

namespace MixedCalculator

/-!
# Frames whose effects are settled by the acts

Most of what a frame does can be told from its acts alone.  The bands of buttons carry out what is
pressed, in the order of the buttons.  The members are drawn, whatever they are, and a removal that
finds no member removes nothing.  Only the enter key waits for what has become of the editor, so the
effects of a frame without it are settled beforehand.
-/

namespace Screen

/-- What a button does when it is pressed. -/
def Button.effect : Button -> Effect
  | operation op => .add op
  | equals => .evaluate
  | allClear => .reset
  | read => .importEntry
  | clear => .clear

/-- The buttons below the members, as they are drawn. -/
def operationRow : List Button :=
  Operator.all.map .operation ++ [.equals, .allClear]

/-- The buttons of the line of text. -/
def entryRow : List Button :=
  [.read, .clear]

/-- What comes of the buttons that are pressed, in the order in which the buttons are drawn. -/
def pressed (buttons : List Button) (acts : List Act) : List Effect :=
  (buttons.filter (fun button => Act.press button ∈ acts)).map Button.effect

theorem inTurn_onPress (buttons : List Button) (acts : List Act) (editor : Editor) :
    inTurn (buttons.map (fun button => onPress button button.effect)) acts editor =
      pressed buttons acts := by
  induction buttons generalizing editor with
  | nil => rfl
  | cons button below inductionHypothesis =>
      simp only [List.map_cons, inTurn, inductionHypothesis, pressed, List.filter_cons, onPress]
      by_cases isPressed : Act.press button ∈ acts
      · simp only [if_pos isPressed, decide_eq_true isPressed, if_true, List.map_cons]
        rfl
      · simp only [if_neg isPressed, decide_eq_false isPressed, Bool.false_eq_true, if_false,
          List.nil_append]

theorem onOperations_eq (acts : List Act) (editor : Editor) :
    onOperations acts editor = pressed operationRow acts :=
  inTurn_onPress operationRow acts editor

theorem onEntryButtons_eq (acts : List Act) (editor : Editor) :
    onEntryButtons acts editor = pressed entryRow acts :=
  inTurn_onPress entryRow acts editor

/-! ## Members -/

/-- What the acts of a frame have to say of the members: which values are entered into a field, in
their order, and which operators are chosen. -/
structure DrawnAlike (acts others : List Act) : Prop where
  entered : ∀ index part,
    acts.filterMap (entered? index part) = others.filterMap (entered? index part)
  chosen : ∀ index op, Act.choose index op ∈ acts ↔ Act.choose index op ∈ others

theorem DrawnAlike.drawMembers {acts others : List Act} (alike : DrawnAlike acts others) :
    drawMembers acts = drawMembers others := by
  have each : drawMember acts = drawMember others := by
    funext index member
    cases member with
    | number value => simp only [drawMember, drawNumber, drawPart, alike.entered]
    | operator op => simp only [drawMember, drawOperator, alike.chosen]
  unfold Screen.drawMembers
  rw [each]

/-- Acts that are not about the fields or the operators of a member. -/
theorem drawMembers_of_elsewhere {acts : List Act}
    (elsewhere : ∀ act ∈ acts, (∀ index part, entered? index part act = none) ∧
      ∀ index op, act ≠ .choose index op) (members : Expression) :
    drawMembers acts members = members.confine := by
  have alike : DrawnAlike acts [] := by
    constructor
    · intro index part
      exact List.filterMap_eq_nil_iff.mpr fun act member => (elsewhere act member).1 index part
    · intro index op
      refine ⟨fun member => ?_, fun member => absurd member List.not_mem_nil⟩
      exact absurd rfl ((elsewhere _ member).2 index op)
  rw [alike.drawMembers, drawMembers_nil]

/-- The member that an act removes, if it removes one. -/
def Act.removed? : Act -> Option Nat
  | delete index => some index
  | _ => none

theorem Act.removed?_eq_some {act : Act} {index : Nat} (removes : act.removed? = some index) :
    act = .delete index := by
  cases act with
  | delete other =>
      cases removes
      rfl
  | _ => cases removes

def removals (acts : List Act) : List Effect :=
  (acts.filterMap Act.removed?).map .delete

/-- One removal at most is carried out as it is asked for, and one without a member does nothing. -/
theorem undergoAll_deletion {acts : List Act} (oneRemoval : (acts.filterMap Act.removed?).length ≤ 1)
    (editor : Editor) :
    editor.undergoAll ((deletion? acts editor.members).map Effect.delete).toList =
      editor.undergoAll (removals acts) := by
  have asked : ∀ index, Act.delete index ∈ acts ↔ index ∈ acts.filterMap Act.removed? := by
    intro index
    rw [List.mem_filterMap]
    constructor
    · exact fun member => ⟨.delete index, member, rfl⟩
    · rintro ⟨act, member, removes⟩
      rwa [Act.removed?_eq_some removes] at member
  unfold deletion? removals
  simp only [asked]
  cases removed : acts.filterMap Act.removed? with
  | nil => simp
  | cons index more =>
      rw [removed, List.length_cons] at oneRemoval
      have alone : more = [] := List.eq_nil_of_length_eq_zero (by omega)
      subst alone
      simp only [List.mem_singleton, List.filter_eq, List.getLast?_replicate]
      by_cases inside : index < editor.members.length
      · rw [List.count_eq_one_of_mem List.nodup_range (List.mem_range.mpr inside),
          if_neg Nat.one_ne_zero]
        rfl
      · rw [List.count_eq_zero_of_not_mem fun member => inside (List.mem_range.mp member), if_pos rfl]
        have kept := List.eraseIdx_of_length_le (Nat.le_of_not_lt inside)
        rcases editor with ⟨members, result, notice, entry, focused⟩
        exact (congrArg (fun rest => Editor.mk rest result notice entry focused) kept).symm

/-! ## Whole frames -/

def escapes (acts : List Act) : List Effect :=
  if .key .escape ∈ acts then [.clear] else []

/-- What a frame does above the line of text. -/
def aboveLine (acts : List Act) : List Effect :=
  escapes acts ++ .draw acts :: removals acts ++ pressed operationRow acts

/-- What a frame does if the enter key is not pressed. -/
def settled (acts : List Act) : List Effect :=
  aboveLine acts ++ .unfocus :: pressed entryRow acts

theorem effect_mem_pressed {row : List Button} {acts : List Act} {button : Button} :
    button.effect ∈ pressed row acts ↔ button ∈ row ∧ Act.press button ∈ acts := by
  have same : ∀ other : Button, other.effect = button.effect -> other = button := by
    intro other equal
    cases other <;> cases button <;> cases equal <;> rfl
  simp only [pressed, List.mem_map, List.mem_filter, decide_eq_true_eq]
  constructor
  · rintro ⟨other, isPressed, equal⟩
    cases same other equal
    exact isPressed
  · exact fun isPressed => ⟨button, isPressed, rfl⟩

/-- What a button does happens if it is pressed.  The escape key does what one of them does. -/
theorem effect_mem_settled (button : Button) (acts : List Act) :
    button.effect ∈ settled acts ↔
      Act.press button ∈ acts ∨ button = .clear ∧ Act.key .escape ∈ acts := by
  have somewhere : button ∈ operationRow ∨ button ∈ entryRow := by
    cases button with
    | operation op => cases op <;> decide
    | _ => decide
  have notDrawn : button.effect ≠ .draw acts := by
    cases button <;> exact fun impossible => by cases impossible
  have notUnfocused : button.effect ≠ .unfocus := by
    cases button <;> exact fun impossible => by cases impossible
  have notRemoved : button.effect ∉ removals acts := by
    intro removed
    rcases List.mem_map.mp removed with ⟨index, -, same⟩
    cases button <;> cases same
  have escaped : button.effect ∈ escapes acts ↔ button = .clear ∧ Act.key .escape ∈ acts := by
    unfold escapes
    split
    · next escape =>
        cases button <;> simp [Button.effect, escape]
    · next notEscape =>
        simp only [List.not_mem_nil, notEscape, and_false]
  simp only [settled, aboveLine, List.mem_append, List.mem_cons, escaped, notDrawn, notRemoved, notUnfocused,
    effect_mem_pressed, or_false, false_or]
  tauto

end Screen

namespace Editor

open Screen

/-- Without a wish for the keyboard there is none to fulfil. -/
theorem undergo_unfocus_of_not_focused {editor : Editor} (notFocused : ¬ editor.focused = true) :
    editor.undergo .unfocus = editor := by
  rcases editor with ⟨members, result, notice, entry, focused⟩
  cases focused with
  | false => rfl
  | true => exact absurd rfl notFocused

theorem undergoAll_inTurn_cons (course : Course) (below : List Course) (acts : List Act)
    (editor : Editor) :
    editor.undergoAll (inTurn (course :: below) acts editor) =
      (editor.undergoAll (course acts editor)).undergoAll
        (inTurn below acts (editor.undergoAll (course acts editor))) :=
  editor.undergoAll_append _ _

theorem undergoAll_settled (acts : List Act) (editor : Editor) :
    editor.undergoAll (settled acts) =
      (((((editor.undergoAll (escapes acts)).undergo (.draw acts)).undergoAll
        (removals acts)).undergoAll (pressed operationRow acts)).undergo .unfocus).undergoAll
          (pressed entryRow acts) := by
  simp only [settled, aboveLine, undergoAll_append]
  rfl

/-- With one removal at most, only the line of text looks at what has become of the editor. -/
theorem frame_eq_around_line {acts : List Act}
    (oneRemoval : (acts.filterMap Act.removed?).length ≤ 1) (editor : Editor) :
    (frame acts editor).editor =
      ((editor.undergoAll (aboveLine acts)).undergoAll
        (onEntryLine acts (editor.undergoAll (aboveLine acts)))).undergoAll
          (pressed entryRow acts) := by
  have drawn : ∀ reached : Editor, reached.undergoAll (onMembers acts reached) =
      reached.undergoAll (.draw acts :: removals acts) := by
    intro reached
    exact undergoAll_deletion oneRemoval (reached.undergo (.draw acts))
  rw [follows_frame]
  simp only [effects, undergoAll_inTurn_cons, drawn, onOperations_eq, onEntryButtons_eq, aboveLine,
    undergoAll_append]
  rfl

/-- Without the enter key and with one removal at most, a frame does what its acts settle. -/
theorem frame_eq_settled {acts : List Act} (noEnter : Act.key .enter ∉ acts)
    (oneRemoval : (acts.filterMap Act.removed?).length ≤ 1) (editor : Editor) :
    (frame acts editor).editor = editor.undergoAll (settled acts) := by
  have line : ∀ reached : Editor, reached.undergoAll (onEntryLine acts reached) =
      reached.undergo .unfocus := by
    intro reached
    unfold onEntryLine
    by_cases focused : reached.focused = true
    · rw [if_pos focused, if_neg noEnter]
      rfl
    · rw [if_neg focused, undergo_unfocus_of_not_focused focused]
      rfl
  rw [frame_eq_around_line oneRemoval, line, settled, undergoAll_append]
  rfl

end Editor

end MixedCalculator
