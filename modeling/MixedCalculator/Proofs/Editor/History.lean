import MixedCalculator.Proofs.Editor.Operations
import MixedCalculator.Proofs.Editor.Reachability

namespace MixedCalculator

/-!
# The history of the result

The result that an editor shows need not be that of its present members.  It goes back to the
latest calculation that succeeded, or to a fresh start if there was one later.  A single frame
may calculate several times and start afresh in between, so the history that is kept here
consists of single deeds, each with the editor that it found, and leaves no gap between them.

How the members come about is of no concern to it.  Besides requests, the history may hence hold
members put at the end without regard to the limit, and wishes for the keyboard.
-/

/-- What may be done to an editor: a request, a member put at the end, or a change of the wish
for the keyboard. -/
inductive Turn where
  | request (request : Request)
  | push (member : Member)
  | focus (wished : Bool)

/-- A single deed: an effect of the kind that frames have, or what no frame does. -/
inductive Deed where
  | effect (effect : Effect)
  | type (text : String)
  | push (member : Member)
  | focus (wished : Bool)
  deriving DecidableEq, Repr

namespace Editor

/-- The editor after a turn. -/
def take (editor : Editor) : Turn -> Editor
  | .request request => editor.perform request
  | .push member => { editor with members := editor.members ++ [member] }
  | .focus wished => { editor with focused := wished }

/-- The editor after several turns, in their order. -/
def takeAll (editor : Editor) (turns : List Turn) : Editor :=
  turns.foldl take editor

/-- The editor after a deed. -/
def undertake (editor : Editor) : Deed -> Editor
  | .effect effect => editor.undergo effect
  | .type text => { editor with entry := text }
  | .push member => { editor with members := editor.members ++ [member] }
  | .focus wished => { editor with focused := wished }

/-- The deeds that a turn comes to. -/
def deeds (editor : Editor) : Turn -> List Deed
  | .request (.add op) => [.effect (.add op)]
  | .request (.delete index) => [.effect (.delete index)]
  | .request .reset => [.effect .reset]
  | .request .clear => [.effect .clear]
  | .request (.type text) => [.type text]
  | .request .importEntry => [.effect .importEntry]
  | .request .evaluate => [.effect .evaluate]
  | .request (.frame acts) => (Screen.effects acts editor).map .effect
  | .push member => [.push member]
  | .focus wished => [.focus wished]

/-- A turn does nothing but its deeds. -/
theorem undertake_deeds (editor : Editor) (turn : Turn) :
    (editor.deeds turn).foldl undertake editor = editor.take turn := by
  cases turn with
  | push member => rfl
  | focus wished => rfl
  | request request =>
      cases request with
      | frame acts =>
          change ((Screen.effects acts editor).map Deed.effect).foldl undertake editor = _
          rw [List.foldl_map]
          exact (Screen.follows_frame acts editor).symm
      | _ => rfl

end Editor

/-- A deed and the editor that it found. -/
structure Moment where
  before : Editor
  deed : Deed
  deriving DecidableEq, Repr

namespace Moment

/-- The editor that the deed has left. -/
def after (moment : Moment) : Editor :=
  moment.before.undertake moment.deed

/-- The result that a deed puts in place of the last one: that of the members if they have a
value, or zero for a fresh start. -/
def result? (moment : Moment) : Option MixedNumber :=
  match moment.deed with
  | .effect .evaluate =>
      match moment.before.members.evaluate with
      | .ok total => some total.toMixed.asReadOnly
      | .error _ => none
  | .effect .reset => some MixedNumber.zero.asReadOnly
  | _ => none

/-- The deed is an operation that was refused, a reading that failed or a calculation that
failed. -/
inductive Refused : Moment -> Prop
  | add (editor : Editor) (op : Operator) :
      (editor.addOperation op).1 = false -> Refused ⟨editor, .effect (.add op)⟩
  | importEntry (editor : Editor) :
      editor.importEntry.1 = false -> Refused ⟨editor, .effect .importEntry⟩
  | evaluate (editor : Editor) (fault : Fault) :
      editor.members.evaluate = .error fault -> Refused ⟨editor, .effect .evaluate⟩

/-- The deed is a reading or a calculation that succeeded, or a fresh start. -/
inductive Fulfilled : Moment -> Prop
  | importEntry (editor : Editor) :
      editor.importEntry.1 = true -> Fulfilled ⟨editor, .effect .importEntry⟩
  | evaluate (editor : Editor) (total : Fraction) :
      editor.members.evaluate = .ok total -> Fulfilled ⟨editor, .effect .evaluate⟩
  | reset (editor : Editor) : Fulfilled ⟨editor, .effect .reset⟩

end Moment

/-! ## Histories without gaps -/

/-- Each deed finds what the one before it has left, from the first editor to the last. -/
inductive Leads : Editor -> List Moment -> Editor -> Prop
  | nil (editor : Editor) : Leads editor [] editor
  | cons (moment : Moment) {later : List Moment} {last : Editor} :
      Leads moment.after later last -> Leads moment.before (moment :: later) last

theorem Leads.append {first middle last : Editor} {earlier later : List Moment}
    (leads : Leads first earlier middle) (on : Leads middle later last) :
    Leads first (earlier ++ later) last := by
  induction leads with
  | nil editor => exact on
  | cons moment _ inductionHypothesis => exact .cons moment (inductionHypothesis on)

namespace Editor

/-- The moments of several deeds. -/
def account (editor : Editor) : List Deed -> List Moment
  | [] => []
  | deed :: later => ⟨editor, deed⟩ :: account (editor.undertake deed) later

/-- The moments of several turns. -/
def history (editor : Editor) : List Turn -> List Moment
  | [] => []
  | turn :: later => editor.account (editor.deeds turn) ++ history (editor.take turn) later

theorem leads_account (editor : Editor) (deeds : List Deed) :
    Leads editor (editor.account deeds) (deeds.foldl undertake editor) := by
  induction deeds generalizing editor with
  | nil => exact .nil editor
  | cons deed later inductionHypothesis =>
      exact .cons ⟨editor, deed⟩ (inductionHypothesis (editor.undertake deed))

theorem leads_history (editor : Editor) (turns : List Turn) :
    Leads editor (editor.history turns) (editor.takeAll turns) := by
  induction turns generalizing editor with
  | nil => exact .nil editor
  | cons turn later inductionHypothesis =>
      have first := editor.leads_account (editor.deeds turn)
      rw [undertake_deeds] at first
      exact first.append (inductionHypothesis (editor.take turn))

end Editor

/-! ## What a deed does to the result and to the notice -/

namespace Moment

/-- No deed touches the result but those that put another in its place. -/
theorem result_after (moment : Moment) :
    moment.after.result = moment.result?.getD moment.before.result := by
  rcases moment with ⟨editor, deed⟩
  cases deed with
  | type text => rfl
  | push member => rfl
  | focus wished => rfl
  | effect effect =>
      cases effect with
      | add op =>
          change (editor.addOperation op).2.result = editor.result
          rcases editor.addOperation_cases op with ⟨-, added⟩ | refused
          · rw [added]
          · rw [refused]
            rfl
      | importEntry =>
          change editor.importEntry.2.result = editor.result
          rcases editor.importEntry_cases with ⟨members, -, -, imported⟩ | ⟨notice, refused⟩
          · rw [imported]
          · rw [refused]
            rfl
      | evaluate =>
          change editor.evaluate.result = _
          rcases editor.evaluate_cases with
            ⟨total, evaluated, presented⟩ | ⟨fault, failed, refused⟩
          · rw [presented]
            simp only [result?, evaluated]
            rfl
          · rw [refused]
            simp only [result?, failed]
            rfl
      | clear => rfl
      | draw acts => rfl
      | delete index => rfl
      | reset => rfl
      | unfocus => rfl

/-- Whatever is refused, nothing comes of it but a notice. -/
theorem Refused.exists_after_eq {moment : Moment} (refused : moment.Refused) :
    ∃ notice, moment.after = moment.before.refuse notice := by
  cases refused with
  | add editor op answer =>
      rcases editor.addOperation_cases op with ⟨-, added⟩ | same
      · rw [added] at answer
        cases answer
      · exact ⟨.tooLong, congrArg Prod.snd same⟩
  | importEntry editor answer =>
      rcases editor.importEntry_cases with ⟨members, -, -, imported⟩ | ⟨notice, same⟩
      · rw [imported] at answer
        cases answer
      · exact ⟨notice, congrArg Prod.snd same⟩
  | evaluate editor fault failed => exact ⟨.fault fault, Editor.evaluate_of_error failed⟩

/-- Whatever is fulfilled withdraws the notice. -/
theorem Fulfilled.notice_after {moment : Moment} (fulfilled : moment.Fulfilled) :
    moment.after.notice = none := by
  cases fulfilled with
  | reset editor => rfl
  | importEntry editor answer =>
      rcases editor.importEntry_cases with ⟨members, -, -, imported⟩ | ⟨notice, same⟩
      · exact congrArg (fun answered : Bool × Editor => answered.2.notice) imported
      · rw [same] at answer
        cases answer
  | evaluate editor total evaluated =>
      exact congrArg Editor.notice (Editor.evaluate_of_ok evaluated)

end Moment

/-- The result is the latest that the history has put in place, or else the one at first. -/
theorem Leads.result_eq {first last : Editor} {moments : List Moment}
    (leads : Leads first moments last) :
    last.result = (moments.filterMap Moment.result?).getLastD first.result := by
  induction leads with
  | nil editor => rfl
  | cons moment _ inductionHypothesis =>
      rw [inductionHypothesis, moment.result_after]
      cases put : moment.result? with
      | none => rw [List.filterMap_cons_none put, Option.getD_none]
      | some result => rw [List.filterMap_cons_some put, Option.getD_some, List.getLastD_cons]

/-! ## Messages -/

theorem append_ne_empty_left {first : String} (second : String) (nonempty : first ≠ "") :
    first ++ second ≠ "" :=
  fun empty => nonempty (String.append_eq_empty_iff.mp empty).1

theorem PartsFault.message_ne_empty (reason : PartsFault) : reason.message ≠ "" := by
  cases reason <;> decide

theorem Fault.message_ne_empty (fault : Fault) : fault.message ≠ "" := by
  cases fault with
  | invalidParts reason => exact reason.message_ne_empty
  | emptyExpression => decide
  | divisionByZero => decide
  | overflow => decide
  | operatorExpected position => exact append_ne_empty_left _ (by decide)
  | numberExpected position => exact append_ne_empty_left _ (by decide)
  | unexpectedOperator position op =>
      apply append_ne_empty_left
      apply append_ne_empty_left
      apply append_ne_empty_left
      decide
  | unexpectedCharacter position character =>
      apply append_ne_empty_left
      apply append_ne_empty_left
      apply append_ne_empty_left
      apply append_ne_empty_left
      decide

theorem Notice.message_ne_empty (notice : Notice) : notice.message ≠ "" := by
  cases notice with
  | fault cause => exact cause.message_ne_empty
  | tooLong => decide

namespace Editor

/-- Over a whole run from the initial editor, the result is that of the latest calculation that
succeeded, unless a fresh start came later, and that of the initial editor if there was neither.
Whatever is refused leaves members, result and line of text alone and gives a message, which is
withdrawn by whatever is fulfilled. -/
theorem result_is_latest_in_history (turns : List Turn) :
    Leads initial (initial.history turns) (initial.takeAll turns) ∧
      (initial.takeAll turns).result =
        ((initial.history turns).filterMap Moment.result?).getLastD
          (MixedNumber.ofMagnitudes .negative 0 11 12).asReadOnly ∧
      (∀ moment : Moment, moment.Refused ->
        moment.after.members = moment.before.members ∧
          moment.after.result = moment.before.result ∧
          moment.after.entry = moment.before.entry ∧ moment.after.noticeText ≠ "") ∧
      ∀ moment : Moment, moment.Fulfilled -> moment.after.noticeText = "" := by
  have leads := initial.leads_history turns
  refine ⟨leads, leads.result_eq, ?_, ?_⟩
  · intro moment refused
    rcases refused.exists_after_eq with ⟨notice, after⟩
    rw [after]
    exact ⟨rfl, rfl, rfl, notice.message_ne_empty⟩
  · intro moment fulfilled
    rw [noticeText, fulfilled.notice_after]

/-- A member too many, which is deleted after a calculation has failed.  In the frame thereafter
the members are calculated, and then the line of text is read and calculated too.  The next line
that is read has no value. -/
def severalCalculations : List Turn :=
  [.push (.number .zero), .request .evaluate, .request (.delete 3), .request (.type "1/2 + 1/3"),
    .request (.frame [.key .enter, .press .equals]), .request (.type "1/0"),
    .request .importEntry, .request .evaluate]

/-- The first calculation of that run. -/
def failedCalculation : Moment :=
  ⟨initial.take (.push (.number .zero)), .effect .evaluate⟩

/-- The second calculation, which the button pressed in the frame asks for. -/
def frameCalculation : Moment :=
  ⟨initial.takeAll (severalCalculations.take 4), .effect .evaluate⟩

/-- Two of the four calculations succeed, and the result is that of the second. -/
theorem latest_of_several_calculations :
    (initial.history severalCalculations).filterMap Moment.result? =
        [⟨.negative, 0, 11, 12, true⟩, ⟨.positive, 0, 5, 6, true⟩] ∧
      (initial.takeAll severalCalculations).result = ⟨.positive, 0, 5, 6, true⟩ ∧
      failedCalculation ∈ initial.history severalCalculations ∧
      failedCalculation.Refused ∧ failedCalculation.after.members.length = 4 ∧
      failedCalculation.after.noticeText ≠ "" ∧
      frameCalculation ∈ initial.history severalCalculations ∧
      frameCalculation.Fulfilled ∧ frameCalculation.after.noticeText = "" := by
  rcases result_is_latest_in_history severalCalculations with ⟨-, latest, refusal, fulfilment⟩
  have results : (initial.history severalCalculations).filterMap Moment.result? =
      [⟨.negative, 0, 11, 12, true⟩, ⟨.positive, 0, 5, 6, true⟩] := by decide
  have refused : failedCalculation.Refused := .evaluate _ (.operatorExpected 3) rfl
  have fulfilled : frameCalculation.Fulfilled := .evaluate _ ⟨-11, 12, by decide⟩ rfl
  rw [results] at latest
  rcases refusal failedCalculation refused with ⟨members, -, -, message⟩
  refine ⟨results, latest, by decide, refused, ?_, message, by decide, fulfilled,
    fulfilment frameCalculation fulfilled⟩
  rw [members]
  decide

end Editor

end MixedCalculator
