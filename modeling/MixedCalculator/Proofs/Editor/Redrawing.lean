import MixedCalculator.Proofs.Editor.Operations
import MixedCalculator.Proofs.Screen.DrawingOrder

namespace MixedCalculator

/-!
# Drawing once more

A frame in between does two things that nobody asks for.  It draws the members again, and it fulfils
a wish for the keyboard.  The first makes no difference to members that have been drawn before, and
the second none to the effects that follow.  The text stays as it is until it is cleared.
-/

open Screen

/-- Every number of the expression lies within its fields. -/
def Expression.WithinFields (members : Expression) : Prop :=
  ∀ number, .number number ∈ members -> number.WithinFields

namespace Editor

/-! ## The wish for the keyboard -/

/-- No effect depends on the wish for the keyboard. -/
theorem unfocus_undergo (editor : Editor) (effect : Effect) :
    ((editor.undergo .unfocus).undergo effect).undergo .unfocus =
      (editor.undergo effect).undergo .unfocus := by
  cases effect with
  | add op =>
      change ((editor.undergo .unfocus).addOperation op).2.undergo .unfocus =
        (editor.addOperation op).2.undergo .unfocus
      by_cases tooLong : memberLimit < editor.members.length + 2
      · have refused : editor.addOperation op = _ := if_pos tooLong
        have refusedToo : (editor.undergo .unfocus).addOperation op = _ := if_pos tooLong
        rw [refused, refusedToo]
        rfl
      · have added : editor.addOperation op = _ := if_neg tooLong
        have addedToo : (editor.undergo .unfocus).addOperation op = _ := if_neg tooLong
        rw [added, addedToo]
        rfl
  | importEntry =>
      change (editor.undergo .unfocus).importEntry.2.undergo .unfocus =
        editor.importEntry.2.undergo .unfocus
      cases read : Expression.ofChars (Text.trim editor.entry.toList) with
      | error fault =>
          have readToo : Expression.ofChars (Text.trim (editor.undergo .unfocus).entry.toList) =
            .error fault := read
          simp only [importEntry, read, readToo]
          rfl
      | ok members =>
          have readToo : Expression.ofChars (Text.trim (editor.undergo .unfocus).entry.toList) =
            .ok members := read
          by_cases tooLong : memberLimit < members.length
          · simp only [importEntry, read, readToo, if_pos tooLong]
            rfl
          · simp only [importEntry, read, readToo, if_neg tooLong]
            rfl
  | evaluate =>
      change (editor.undergo .unfocus).evaluate.undergo .unfocus =
        editor.evaluate.undergo .unfocus
      cases evaluated : editor.members.evaluate with
      | ok total =>
          have presented : (editor.undergo .unfocus).evaluate = _ := evaluate_of_ok evaluated
          rw [evaluate_of_ok evaluated, presented]
          rfl
      | error fault =>
          have refused : (editor.undergo .unfocus).evaluate = _ := evaluate_of_error evaluated
          rw [evaluate_of_error evaluated, refused]
          rfl
  | _ => rfl

theorem unfocus_undergoAll (effects : List Effect) (editor : Editor) :
    ((editor.undergo .unfocus).undergoAll effects).undergo .unfocus =
      (editor.undergoAll effects).undergo .unfocus := by
  induction effects generalizing editor with
  | nil => rfl
  | cons effect rest inductionHypothesis =>
      change (((editor.undergo .unfocus).undergo effect).undergoAll rest).undergo .unfocus =
        ((editor.undergo effect).undergoAll rest).undergo .unfocus
      rw [← inductionHypothesis, unfocus_undergo, inductionHypothesis]

/-- A frame does not depend on the wish for the keyboard that it finds. -/
theorem undergoAll_settled_unfocus (acts : List Act) (editor : Editor) :
    (editor.undergo .unfocus).undergoAll (settled acts) = editor.undergoAll (settled acts) := by
  have whole : ∀ reached : Editor, reached.undergoAll (settled acts) =
      ((reached.undergoAll (aboveLine acts)).undergo .unfocus).undergoAll (pressed entryRow acts) :=
    fun reached => reached.undergoAll_append _ _
  rw [whole, whole, unfocus_undergoAll]

/-! ## Drawing again -/

theorem undergo_draw_nil {editor : Editor} (within : editor.members.WithinFields) :
    editor.undergo (.draw []) = editor := by
  have kept := (drawMembers_nil editor.members).trans
    ((Expression.confine_eq_iff editor.members).mpr within)
  rcases editor with ⟨members, result, notice, entry, focused⟩
  exact congrArg (fun drawn => Editor.mk drawn result notice entry focused) kept

theorem withinFields_draw_nil (editor : Editor) :
    (editor.undergo (.draw [])).members.WithinFields := by
  have settledThen := Expression.confine_confine editor.members
  rw [← drawMembers_nil editor.members, Expression.confine_eq_iff] at settledThen
  exact settledThen

theorem withinFields_neutralOperand (op : Operator) : (neutralOperand op).WithinFields := by
  cases op <;> decide

/-- Only reading brings in numbers that may lie beyond their fields. -/
theorem withinFields_undergo {editor : Editor} (within : editor.members.WithinFields)
    {button : Button} (notRead : button ≠ .read) :
    (editor.undergo button.effect).members.WithinFields := by
  cases button with
  | operation op =>
      rcases editor.addOperation_cases op with ⟨-, added⟩ | refused
      · simp only [Button.effect, undergo, added]
        intro number member
        rcases List.mem_append.mp member with old | new
        · exact within number old
        · rcases List.mem_pair.mp new with impossible | same
          · cases impossible
          · cases same
            exact withinFields_neutralOperand op
      · simp only [Button.effect, undergo, refused]
        exact within
  | equals =>
      simp only [Button.effect, undergo, members_evaluate]
      exact within
  | allClear =>
      intro number member
      cases member
  | read => exact absurd rfl notRead
  | clear => exact within

/-! ## The upper part of a frame -/

/-- The editor once the escape key has been looked at and the members have been drawn. -/
def drawn (editor : Editor) (acts : List Act) : Editor :=
  (editor.undergoAll (escapes acts)).undergo (.draw acts)

theorem drawn_eq (editor : Editor) (acts : List Act) :
    editor.drawn acts = { editor with
      members := drawMembers acts editor.members
      entry := if Act.key .escape ∈ acts then "" else editor.entry
      focused := if Act.key .escape ∈ acts then true else editor.focused } := by
  unfold drawn escapes
  split <;> rfl

variable {first : Act} {later : List Act}

theorem drawn_cons (inOrder : ∀ act ∈ later, first.DrawnBefore act) (editor : Editor) :
    editor.drawn (first :: later) = (editor.drawn [first]).drawn later := by
  simp only [drawn_eq, drawMembers_cons inOrder, List.mem_cons, List.not_mem_nil, or_false]
  by_cases escapedToo : Act.key .escape ∈ later
  · simp only [if_pos escapedToo, if_pos (Or.inr escapedToo)]
  · simp only [if_neg escapedToo, or_iff_left escapedToo]

/-- What happens below the members does not change how they are drawn. -/
theorem drawn_of_below {acts : List Act} (areBelow : ∀ act ∈ acts, 2 ≤ act.band) (editor : Editor) :
    editor.drawn acts = editor.undergo (.draw []) := by
  have notEscaped : Act.key .escape ∉ acts := fun member => absurd (areBelow _ member) (by decide)
  have elsewhere : ∀ act ∈ acts, (∀ index part, entered? index part act = none) ∧
      ∀ index op, act ≠ .choose index op := by
    intro act member
    have isBelow := areBelow act member
    refine ⟨fun index part => ?_, ?_⟩
    · cases act with
      | set _ _ _ => exact absurd isBelow (Nat.not_succ_le_self 1)
      | _ => rfl
    · rintro index op rfl
      exact absurd isBelow (Nat.not_succ_le_self 1)
  rw [drawn_eq, drawMembers_of_elsewhere elsewhere, if_neg notEscaped, if_neg notEscaped,
    ← drawMembers_nil]
  rfl

/-- What a frame does once the members have been drawn. -/
def below (acts : List Act) : List Effect :=
  removals acts ++ pressed operationRow acts ++ .unfocus :: pressed entryRow acts

theorem undergoAll_settled_eq_below (acts : List Act) (editor : Editor) :
    editor.undergoAll (settled acts) = (editor.drawn acts).undergoAll (below acts) := by
  rw [undergoAll_settled, below, undergoAll_append, undergoAll_append]
  rfl

/-! ## The text -/

theorem entry_undergo (editor : Editor) (effect : Effect) :
    (editor.undergo effect).entry =
      if effect = .clear ∨ effect = .reset then "" else editor.entry := by
  cases effect with
  | add op =>
      rcases editor.addOperation_cases op with ⟨-, added⟩ | refused
      · simp only [undergo, added]
        rfl
      · simp only [undergo, refused]
        rfl
  | evaluate =>
      rcases editor.evaluate_cases with ⟨total, -, presented⟩ | ⟨fault, -, refused⟩
      · simp only [undergo, presented]
        rfl
      · simp only [undergo, refused]
        rfl
  | importEntry =>
      rcases editor.importEntry_cases with ⟨members, -, -, imported⟩ | ⟨notice, refused⟩
      · simp only [undergo, imported]
        rfl
      · simp only [undergo, refused]
        rfl
  | _ => rfl

/-- The text stays as it is until it is cleared. -/
theorem entry_undergoAll (effects : List Effect) (editor : Editor) :
    (editor.undergoAll effects).entry =
      if .clear ∈ effects ∨ .reset ∈ effects then "" else editor.entry := by
  induction effects generalizing editor with
  | nil => rfl
  | cons effect rest inductionHypothesis =>
      change ((editor.undergo effect).undergoAll rest).entry = _
      rw [inductionHypothesis, entry_undergo]
      by_cases cleared : Effect.clear ∈ rest ∨ Effect.reset ∈ rest
      · rw [if_pos cleared, if_pos (cleared.imp (List.mem_cons_of_mem effect)
          (List.mem_cons_of_mem effect))]
      · rw [if_neg cleared]
        rw [not_or] at cleared
        simp only [List.mem_cons, cleared.1, cleared.2, or_false, eq_comm]

end Editor

end MixedCalculator
