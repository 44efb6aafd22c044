import MixedCalculator.Proofs.Editor.History
import MixedCalculator.Proofs.Screen.Confinement

namespace MixedCalculator
namespace Screen

/-!
# What a frame shows of what it has done

A frame is drawn while it takes effect, so its upper bands may show what the lower ones then
change.  From the text of the expression on, no band changes anything any more.  This last part of
the picture shows the very editor that the frame leaves behind, whatever was done during the frame,
and nothing further up can be taken for its beginning.

If nothing is done during a frame, all of its picture is current.  It then has nothing left to
change, and the next frame in which nothing is done draws the same picture.
-/

theorem stack_append (upper lower : List Band) (acts : List Act) (editor : Editor) :
    stack (upper ++ lower) acts editor =
      ⟨(stack upper acts editor).widgets ++
          (stack lower acts (stack upper acts editor).editor).widgets,
        (stack lower acts (stack upper acts editor).editor).editor⟩ := by
  induction upper generalizing editor with
  | nil => rfl
  | cons band below inductionHypothesis =>
      simp only [List.cons_append, stack, inductionHypothesis, List.append_assoc]

/-- The bands of a frame above the text of the expression. -/
def inputs : Band :=
  stack [escape, constant (fun _ => [.label "Calculatrice mixte", .label "Expression :"]), members,
    operations, entryLine, entryButtons]

/-- The text of the expression and all below it are those of the editor after the frame. -/
theorem frame_eq (acts : List Act) (editor : Editor) :
    frame acts editor =
      ⟨(inputs acts editor).widgets ++ outputs (inputs acts editor).editor,
        (inputs acts editor).editor⟩ := by
  change stack ([escape, constant _, members, operations, entryLine, entryButtons] ++
    [constant outputs]) acts editor = _
  rw [stack_append]
  simp only [stack, constant, List.append_nil]
  rfl

/-! ## Above the text -/

/-- What may be seen above the text: number fields within their range, and any label but the one
that the text begins with. -/
def Widget.IsInput : Widget -> Prop
  | label text => text ≠ "Texte :"
  | field value => value.toNat ≤ fieldLimit
  | fixed value => value.toNat ≤ fieldLimit
  | button _ => True
  | entry _ => True

instance : DecidablePred Widget.IsInput
  | .label text => inferInstanceAs (Decidable (text ≠ "Texte :"))
  | .field value => inferInstanceAs (Decidable (value.toNat ≤ fieldLimit))
  | .fixed value => inferInstanceAs (Decidable (value.toNat ≤ fieldLimit))
  | .button _ => inferInstanceAs (Decidable True)
  | .entry _ => inferInstanceAs (Decidable True)

/-- A band shows nothing but input. -/
def Band.ShowsInput (band : Band) : Prop :=
  ∀ acts editor, ∀ widget ∈ (band acts editor).widgets, widget.IsInput

theorem showsInput_stack {bands : List Band} (each : ∀ band ∈ bands, band.ShowsInput) :
    (stack bands).ShowsInput := by
  intro acts editor
  induction bands generalizing editor with
  | nil =>
      intro widget member
      cases member
  | cons band below inductionHypothesis =>
      intro widget member
      rcases List.mem_append.mp member with upper | lower
      · exact each band List.mem_cons_self acts editor widget upper
      · exact inductionHypothesis (fun other isBelow => each other (List.mem_cons_of_mem band isBelow))
          _ widget lower

theorem showsInput_button (which : Button) (effect : Editor -> Editor) :
    (button which effect).ShowsInput := by
  intro acts editor widget member
  cases List.mem_singleton.mp member
  trivial

theorem isInput_numberWidget (readOnly : Bool) {value : UInt32} (small : value.toNat ≤ fieldLimit) :
    (numberWidget readOnly value).IsInput := by
  cases readOnly <;> exact small

/-- Every field is brought into its range before it is shown. -/
theorem isInput_memberWidgets_drawMember (acts : List Act) (index : Nat) (member : Member) :
    ∀ widget ∈ memberWidgets (drawMember acts index member), widget.IsInput := by
  cases member with
  | number value =>
      simp only [drawMember, memberWidgets, List.forall_mem_cons, List.not_mem_nil, false_implies,
        implies_true, and_true]
      exact ⟨isInput_numberWidget _ (toNat_clamp_le _), isInput_numberWidget _ (toNat_clamp_le _),
        by decide, isInput_numberWidget _ (toNat_clamp_le _), trivial⟩
  | operator op =>
      intro widget shown
      simp only [drawMember, memberWidgets, List.mem_append, List.mem_map, List.mem_singleton] at shown
      rcases shown with ⟨other, -, rfl⟩ | rfl
      · trivial
      · trivial

theorem showsInput_members : members.ShowsInput := by
  intro acts editor widget shown
  unfold members at shown
  split at shown
  · cases List.mem_singleton.mp shown
    decide
  · rcases List.mem_flatMap.mp shown with ⟨drawn, isDrawn, isShown⟩
    rcases List.mem_mapIdx.mp isDrawn with ⟨index, inside, rfl⟩
    exact isInput_memberWidgets_drawMember acts index _ widget isShown

theorem showsInput_operations : operations.ShowsInput := by
  apply showsInput_stack
  intro band isDrawn
  rcases List.mem_append.mp isDrawn with operation | other
  · rcases List.mem_map.mp operation with ⟨op, -, rfl⟩
    exact showsInput_button _ _
  · rcases List.mem_pair.mp other with rfl | rfl
    · exact showsInput_button _ _
    · exact showsInput_button _ _

theorem showsInput_entryLine : entryLine.ShowsInput := by
  intro acts editor widget shown
  rcases List.mem_pair.mp shown with rfl | rfl
  · decide
  · trivial

theorem showsInput_entryButtons : entryButtons.ShowsInput := by
  apply showsInput_stack
  intro band isDrawn
  rcases List.mem_pair.mp isDrawn with rfl | rfl
  · exact showsInput_button _ _
  · exact showsInput_button _ _

theorem showsInput_inputs : inputs.ShowsInput := by
  apply showsInput_stack
  simp only [List.forall_mem_cons, List.not_mem_nil, false_implies, implies_true, and_true]
  refine ⟨?_, ?_, showsInput_members, showsInput_operations, showsInput_entryLine,
    showsInput_entryButtons⟩
  · intro acts editor widget shown
    cases shown
  · intro acts editor widget shown
    rcases List.mem_pair.mp shown with rfl | rfl
    · decide
    · decide

/-- The part of a picture from the text of the expression on. -/
def Drawing.bottom (drawing : Drawing) : List Widget :=
  drawing.widgets.dropWhile (fun widget => decide (widget ≠ .label "Texte :"))

theorem bottom_frame (acts : List Act) (editor : Editor) :
    (frame acts editor).bottom = outputs (frame acts editor).editor := by
  have above : ∀ widget ∈ (inputs acts editor).widgets,
      decide (widget ≠ .label "Texte :") = true := by
    intro widget shown
    rw [decide_eq_true_eq]
    rintro rfl
    exact showsInput_inputs acts editor _ shown rfl
  rw [frame_eq, Drawing.bottom, List.dropWhile_append_of_pos above]
  rfl

/-- A notice is shown exactly if there is one to show. -/
theorem outputs_eq (editor : Editor) :
    outputs editor =
      [.label "Texte :", .label (Expression.text editor.members), .label "Résultat :",
        .label editor.result.text,
        .label (Numeral.intText editor.result.signedWhole ++ " | " ++
          Numeral.intText editor.result.signedNum ++ " / " ++
            Numeral.natText editor.result.den.toNat)] ++
      if editor.noticeText = "" then [] else [.label editor.noticeText] := by
  rcases editor with ⟨members, result, notice, entry, focused⟩
  cases notice with
  | none => rfl
  | some notice =>
      have shown : Editor.noticeText ⟨members, result, some notice, entry, focused⟩ ≠ "" :=
        notice.message_ne_empty
      rw [if_neg shown]
      rfl

/-! ## Frames in which nothing is done -/

theorem deletion?_nil (members : Expression) : deletion? [] members = none := by
  simp only [deletion?, List.not_mem_nil, decide_false, List.filter_false, List.getLast?_nil]

/-- The members are shown as they are after the frame. -/
theorem members_nil (editor : Editor) :
    members [] editor =
      ⟨if editor.members.confine.isEmpty then [.label "(vide)"]
        else editor.members.confine.flatMap memberWidgets,
        { editor with members := editor.members.confine }⟩ := by
  rcases editor with ⟨drawn, result, notice, entry, focused⟩
  cases drawn with
  | nil => rfl
  | cons member rest =>
      simp only [members, List.isEmpty_cons, Bool.false_eq_true, if_false, drawMembers_nil,
        deletion?_nil]
      rfl

/-- The bands below the members. -/
def belowMembers : Band :=
  stack [operations, entryLine, entryButtons, constant outputs]

/-- They fulfil a wish for the keyboard, but whether there was one is not shown. -/
theorem belowMembers_nil (editor : Editor) (focused : Bool) :
    belowMembers [] { editor with focused := focused } =
      ⟨(belowMembers [] editor).widgets, { editor with focused := false }⟩ := by
  rcases editor with ⟨members, result, notice, entry, before⟩
  cases focused <;> cases before <;> rfl

theorem frame_nil (editor : Editor) :
    frame [] editor =
      ⟨[.label "Calculatrice mixte", .label "Expression :"] ++ ((members [] editor).widgets ++
          (belowMembers [] { editor with members := editor.members.confine }).widgets),
        { editor with members := editor.members.confine, focused := false }⟩ := by
  have upper : stack [escape,
      constant (fun _ => [.label "Calculatrice mixte", .label "Expression :"]), members] [] editor =
        ⟨[.label "Calculatrice mixte", .label "Expression :"] ++ (members [] editor).widgets,
          { editor with members := editor.members.confine }⟩ := by
    simp only [stack, escape, constant, List.not_mem_nil, if_false, List.nil_append,
      List.append_nil, members_nil]
  have lower := belowMembers_nil { editor with members := editor.members.confine } editor.focused
  change stack ([escape, constant _, members] ++
    [operations, entryLine, entryButtons, constant outputs]) [] editor = _
  rw [stack_append, upper, ← belowMembers, lower, List.append_assoc]

/-- A frame leaves nothing for the next one to change, if nothing is done in either. -/
theorem frame_nil_frame_nil (editor : Editor) :
    frame [] (frame [] editor).editor = frame [] editor := by
  have lower := congrArg Drawing.widgets
    (belowMembers_nil { editor with members := editor.members.confine } false)
  simp only [frame_nil, members_nil, Expression.confine_confine, lower]

/-- From the text of the expression on, there is nothing but labels. -/
theorem exists_label_of_mem_outputs {editor : Editor} {widget : Widget}
    (shown : widget ∈ outputs editor) : ∃ text, widget = .label text := by
  rcases List.mem_append.mp shown with always | notice
  · simp only [List.mem_cons, List.not_mem_nil, or_false] at always
    rcases always with rfl | rfl | rfl | rfl | rfl <;> exact ⟨_, rfl⟩
  · cases given : editor.notice with
    | none =>
        rw [given] at notice
        cases notice
    | some refusal =>
        rw [given] at notice
        exact ⟨refusal.message, List.mem_singleton.mp notice⟩

/-- All fields of a picture are drawn above the text, within their range. -/
theorem field_le_of_mem_frame {acts : List Act} {editor : Editor} {value : UInt32}
    (shown : .field value ∈ (frame acts editor).widgets ∨
      .fixed value ∈ (frame acts editor).widgets) : value.toNat ≤ fieldLimit := by
  rw [frame_eq] at shown
  simp only [List.mem_append] at shown
  rcases shown with (above | below) | (above | below)
  · exact showsInput_inputs acts editor _ above
  · rcases exists_label_of_mem_outputs below with ⟨text, impossible⟩
    cases impossible
  · exact showsInput_inputs acts editor _ above
  · rcases exists_label_of_mem_outputs below with ⟨text, impossible⟩
    cases impossible

/-- A frame in which nothing is done settles the screen: the next such frame gives the same editor
and the same picture, in which every field holds what it shows and nothing waits for the
keyboard.  After any frame the picture ends, from the text of the expression on, with the members,
the result and the notice of the editor after that frame. -/
theorem frame_settles_and_bottom_is_current (editor : Editor) :
    frame [] (frame [] editor).editor = frame [] editor ∧
      (∀ number, .number number ∈ (frame [] editor).editor.members ->
        number.whole.toNat ≤ 2147483647 ∧ number.num.toNat ≤ 2147483647 ∧
          number.den.toNat ≤ 2147483647) ∧
      (frame [] editor).editor.focused = false ∧
      ∀ acts,
        (∀ value, .field value ∈ (frame acts editor).widgets ∨
          .fixed value ∈ (frame acts editor).widgets -> value.toNat ≤ 2147483647) ∧
        (frame acts editor).bottom =
          [.label "Texte :", .label (Expression.text (frame acts editor).editor.members),
            .label "Résultat :", .label (frame acts editor).editor.result.text,
            .label (Numeral.intText (frame acts editor).editor.result.signedWhole ++ " | " ++
              Numeral.intText (frame acts editor).editor.result.signedNum ++ " / " ++
                Numeral.natText (frame acts editor).editor.result.den.toNat)] ++
          if (frame acts editor).editor.noticeText = "" then []
          else [.label (frame acts editor).editor.noticeText] := by
  have settled := congrArg Drawing.editor (frame_nil editor)
  refine ⟨frame_nil_frame_nil editor, ?_, ?_, ?_⟩
  · intro number member
    rw [settled] at member
    exact (Expression.confine_eq_iff _).mp (Expression.confine_confine _) number member
  · rw [settled]
  · intro acts
    exact ⟨fun value shown => field_le_of_mem_frame shown,
      (bottom_frame acts editor).trans (outputs_eq _)⟩

/-- The number `0 4294967294/2` alone, whose numerator is beyond its field. -/
def oneNumberBeyond : Editor :=
  (Editor.initial.perform (.type "4294967294/2")).perform .importEntry

/-- Its denominator is set to zero, and then the evaluation is refused.  The text is that of the
number drawn, and the result and the notice are those of the refusal. -/
theorem picture_of_refused_evaluation :
    (frame [] oneNumberBeyond).editor.members = [.number (.positive 0 2147483647 2)] ∧
      (MixedNumber.positive 0 2147483647 2).num.toNat ≤ 2147483647 ∧
      .field 2147483647 ∈ (frame [.press .equals, .set 0 .den 0] oneNumberBeyond).widgets ∧
      (2147483647 : UInt32).toNat ≤ 2147483647 ∧
      (frame [.press .equals, .set 0 .den 0] oneNumberBeyond).bottom =
        [.label "Texte :", .label "2147483647/0", .label "Résultat :", .label "-11/12",
          .label "0 | -11 / 12", .label "le dénominateur ne doit pas être nul"] := by
  rcases frame_settles_and_bottom_is_current oneNumberBeyond with ⟨-, within, -, shown⟩
  rcases shown [.press .equals, .set 0 .den 0] with ⟨fields, bottom⟩
  have members : (frame [] oneNumberBeyond).editor.members =
      [.number (.positive 0 2147483647 2)] := by decide
  have drawn : .field 2147483647 ∈
      (frame [.press .equals, .set 0 .den 0] oneNumberBeyond).widgets := by decide
  refine ⟨members, (within _ ?_).2.1, drawn, fields _ (Or.inl drawn), bottom.trans (by decide)⟩
  rw [members]
  exact List.mem_cons_self

end Screen
end MixedCalculator
