import MixedCalculator.Calculation
import MixedCalculator.Proofs.Evaluation.Events

namespace MixedCalculator

/-!
# What an evaluation reports

The events of an evaluation are an account of the members that it reads: every step keeps the
events up to it an account of the members before it.  Since it reports every account first, it
reports the longest one.  Behind that stands the result, if there is one, and a calculation that is
refused adds its warning.
-/

variable {Value : Type} {arithmetic : Arithmetic Value}

namespace Evaluation

variable {position : Nat} {sum product operand result total : Value} {sign : Sign}

/-- How the events up to some member account for the members before it. -/
inductive Reported (arithmetic : Arithmetic Value) :
    Expression -> List (Event Value) -> Progress Value -> Prop
  | opening : Reported arithmetic [] [] (start arithmetic)
  | signed {before : Expression} {events : List (Event Value)} {position : Nat} {sum : Value}
      {sign : Sign} :
      Completed arithmetic before events sum ->
      Reported arithmetic (before ++ [.operator (.ofSign sign)]) events
        ⟨position, sum, .signed sign⟩
  | term {before : Expression} {term : Term} {events steps : List (Event Value)} {position : Nat}
      {sum product : Value} {sign : Sign} :
      Begun arithmetic before events sum sign -> term.Reports arithmetic steps product ->
      Reported arithmetic (before ++ term.members) (events ++ steps)
        ⟨position, sum, .term sign product⟩
  | factor {before : Expression} {term : Term} {events steps : List (Event Value)} {position : Nat}
      {sum product : Value} {sign : Sign} {op : Operator} :
      Begun arithmetic before events sum sign -> term.Reports arithmetic steps product ->
      op.sign? = none ->
      Reported arithmetic (before ++ term.members ++ [.operator op]) (events ++ steps)
        ⟨position, sum, .factor sign product op⟩

/-- Whatever comes next, the events so far are an account. -/
theorem Reported.account {before : Expression} {events : List (Event Value)}
    {progress : Progress Value} (reported : Reported arithmetic before events progress)
    (after : Expression) : Account arithmetic (before ++ after) events := by
  cases reported with
  | opening => exact .complete .none rfl (fun nonempty => absurd rfl nonempty)
  | signed completed =>
      exact .complete completed (List.append_assoc _ _ _)
        (fun _ => Expression.endsTerm_sign _ after)
  | term begun reports => exact .unfinished begun reports rfl
  | factor begun reports _ => exact .unfinished begun reports (List.append_assoc _ _ _)

/-- A chain of factors that is added makes the terms before it complete. -/
theorem Reported.completed {members : Expression} {events : List (Event Value)}
    (reported : Reported arithmetic members events ⟨position, sum, .term sign product⟩)
    (added : arithmetic.apply (.ofSign sign) sum product = .ok total) :
    Completed arithmetic members (events ++ [.termAdded sign product total]) total := by
  cases reported with
  | @term _ _ events _ _ _ _ _ begun reports =>
      rw [List.append_assoc events]
      exact begun.completed reports added

/-- A further factor is one more step of its chain. -/
theorem exists_reports_factor {term : Term} {steps : List (Event Value)} {op : Operator}
    {number : MixedNumber} (reports : term.Reports arithmetic steps product)
    (tight : op.sign? = none) (converted : arithmetic.ofMixed number = .ok operand)
    (computed : arithmetic.apply op product operand = .ok result) :
    ∃ longer : Term, longer.members = term.members ++ [.operator op, .number number] ∧
      longer.Reports arithmetic (steps ++ [.factorApplied op operand result]) result := by
  cases op with
  | plus => cases tight
  | minus => cases tight
  | times => exact ⟨.times term number, rfl, .times reports converted computed⟩
  | dividedBy => exact ⟨.dividedBy term number, rfl, .dividedBy reports converted computed⟩

/-- Every step that reads a member keeps the account.  A factor makes its chain longer.  A sign
shows that the chain before it has ended, so all terms up to there are complete. -/
theorem Reported.step {before : Expression} {events : List (Event Value)}
    {progress next : Progress Value} {member : Member}
    (reported : Reported arithmetic before events progress)
    (reads : Reads arithmetic progress member next) :
    ∃ more, Evaluation.step arithmetic progress member = ⟨more, .ok next⟩ ∧
      Reported arithmetic (before ++ [member]) (events ++ more) next := by
  cases reads with
  | first converted =>
      cases reported
      exact ⟨[], step_number rfl converted, .term .unsigned (.number converted)⟩
  | leading sign =>
      cases reported
      exact ⟨[], step_leading sign, .signed .none⟩
  | begun converted =>
      cases reported with
      | signed completed =>
          exact ⟨[], step_number rfl converted, .term (.signed _ completed) (.number converted)⟩
  | added next added =>
      exact ⟨_, step_added added next, .signed (reported.completed added)⟩
  | continued tight =>
      cases reported with
      | term begun reports =>
          refine ⟨[], step_continued tight, ?_⟩
          rw [List.append_nil]
          exact .factor begun reports tight
  | applied converted computed =>
      cases reported with
      | @factor earlier chain events _ _ _ _ _ op begun reports tight =>
          rcases exists_reports_factor reports tight converted computed with
            ⟨longer, members, longerReports⟩
          refine ⟨_, step_applied converted computed, ?_⟩
          rw [List.append_assoc (earlier ++ chain.members), List.append_assoc earlier,
            List.singleton_append, ← members, List.append_assoc events]
          exact .term begun longerReports

/-- A step that refuses a member reports nothing, unless it has added the term that the member
ends. -/
theorem step_of_error {progress : Progress Value} {member : Member} {fault : Fault}
    (refused : (step arithmetic progress member).outcome = .error fault) :
    (step arithmetic progress member).events = [] ∨
      ∃ position sum sign product total number,
        progress = ⟨position, sum, .term sign product⟩ ∧ member = .number number ∧
        arithmetic.apply (.ofSign sign) sum product = .ok total := by
  cases refuses_of_step refused with
  | unsigned tight =>
      left
      simp only [step, tight]
      rfl
  | afterSign => exact Or.inl rfl
  | afterOperator => exact Or.inl rfl
  | afterNumber added => exact Or.inr ⟨_, _, _, _, _, _, rfl, rfl, added⟩
  | @total _ _ _ _ member _ failed =>
      left
      cases member with
      | number number =>
          simp only [step, addTerm_of_error failed]
          rfl
      | operator op =>
          cases isSign : op.sign? with
          | none =>
              simp only [step, isSign]
              rfl
          | some next =>
              simp only [step, isSign, addTerm_of_error failed]
              rfl
  | first failed =>
      left
      simp only [step, failed]
      rfl
  | begun failed =>
      left
      simp only [step, failed]
      rfl
  | operand failed =>
      left
      simp only [step, applyFactor_of_error (Except.bind_eq_error_iff.mpr (Or.inl failed))]
      rfl
  | applied converted failed =>
      left
      simp only [step,
        applyFactor_of_error (Except.bind_eq_error_iff.mpr (Or.inr ⟨_, converted, failed⟩))]
      rfl

/-- Where a member is refused, the events are an account of the members before it. -/
theorem Reported.refused {before : Expression} {events : List (Event Value)}
    {progress : Progress Value} {member : Member} {fault : Fault}
    (reported : Reported arithmetic before events progress)
    (refused : (Evaluation.step arithmetic progress member).outcome = .error fault)
    (after : Expression) :
    Account arithmetic (before ++ member :: after)
      (events ++ (Evaluation.step arithmetic progress member).events) := by
  rcases step_of_error refused with
    silent | ⟨position, sum, sign, product, total, number, rfl, rfl, added⟩
  · rw [silent, List.append_nil]
    exact reported.account _
  · rw [step_afterNumber added]
    exact .complete (reported.completed added) rfl
      (fun _ => Expression.endsTerm_number number after)

/-- A run of steps keeps the account, and where it is refused its events are one.  This holds from
wherever the run sets out, since each member that it reads becomes one of those accounted for. -/
theorem Reported.advance {before : Expression} {events : List (Event Value)}
    {progress : Progress Value} (reported : Reported arithmetic before events progress)
    (members : Expression) :
    (∀ reached, (Evaluation.advance arithmetic progress members).outcome = .ok reached ->
      Reported arithmetic (before ++ members)
        (events ++ (Evaluation.advance arithmetic progress members).events) reached) ∧
    (∀ fault, (Evaluation.advance arithmetic progress members).outcome = .error fault ->
      Account arithmetic (before ++ members)
        (events ++ (Evaluation.advance arithmetic progress members).events)) := by
  induction members generalizing before events progress with
  | nil =>
      refine ⟨?_, ?_⟩
      · rintro reached same
        cases same
        rw [List.append_nil]
        change Reported arithmetic before (events ++ []) progress
        rw [List.append_nil]
        exact reported
      · rintro fault impossible
        cases impossible
  | cons member rest inductionHypothesis =>
      cases read : (Evaluation.step arithmetic progress member).outcome with
      | error fault =>
          rw [advance_cons, Traced.bind_of_error read]
          refine ⟨?_, ?_⟩
          · rintro reached impossible
            cases impossible
          · rintro other -
            exact reported.refused read rest
      | ok next =>
          rcases reported.step (reads_of_step read) with ⟨more, stepped, extended⟩
          rw [advance_of_step stepped, ← List.append_assoc, List.append_cons before]
          exact inductionHypothesis extended

/-- An evaluation that succeeds has reported its result behind an account of complete terms. -/
theorem exists_completed_of_run {members : Expression}
    (evaluated : (run arithmetic members).outcome = .ok total) :
    ∃ reports, Completed arithmetic members reports total ∧
      (run arithmetic members).events = reports ++ [.evaluated total members.length] := by
  have outcome := evaluated
  rw [outcome_run] at outcome
  rcases Except.bind_eq_ok_iff.mp outcome with ⟨reached, advanced, finished⟩
  have reported := (Reported.opening.advance members).1 reached advanced
  have counted := (advance_follows (start_follows arithmetic) advanced).position
  rw [List.nil_append] at reported counted
  rcases reached with ⟨position, sum, phase⟩
  cases phase with
  | opening => cases finished
  | signed sign => cases finished
  | factor sign product op => cases finished
  | term sign product =>
      rw [outcome_finish_term] at finished
      refine ⟨_, reported.completed finished, ?_⟩
      rw [run, Traced.bind_of_ok advanced, finish_of_ok finished, ← counted, List.nil_append,
        List.append_assoc]
      rfl

/-- An evaluation that is refused has reported an account, and nothing else. -/
theorem account_of_run_error {members : Expression} {fault : Fault}
    (refused : (run arithmetic members).outcome = .error fault) :
    Account arithmetic members (run arithmetic members).events := by
  have outcome := refused
  rw [outcome_run] at outcome
  rcases Except.bind_eq_error_iff.mp outcome with failed | ⟨reached, advanced, finished⟩
  · rw [run, Traced.bind_of_error failed]
    exact (Reported.opening.advance members).2 fault failed
  · have silent : (finish arithmetic reached).events = [] := by
      rcases reached with ⟨position, sum, phase⟩
      cases phase with
      | opening => rfl
      | signed sign => rfl
      | factor sign product op => rfl
      | term sign product =>
          rw [outcome_finish_term] at finished
          simp only [finish, addTerm_of_error finished]
          rfl
    have reported := (Reported.opening.advance members).1 reached advanced
    rw [run, Traced.bind_of_ok advanced, silent, List.append_nil]
    have account := reported.account []
    rwa [List.append_nil] at account

end Evaluation

/-- The longest account of an expression is what its evaluation reports before the result. -/
theorem Evaluation.exists_longest_account (arithmetic : Arithmetic Value) (members : Expression) :
    ∃ reports, Account arithmetic members reports ∧
      (∀ other, Account arithmetic members other -> other <+: reports) ∧
      (∀ total, (run arithmetic members).outcome = .ok total ->
        Completed arithmetic members reports total ∧
        (run arithmetic members).events = reports ++ [.evaluated total members.length]) ∧
      (∀ fault, (run arithmetic members).outcome = .error fault ->
        (run arithmetic members).events = reports) := by
  cases outcome : (run arithmetic members).outcome with
  | error fault =>
      refine ⟨_, account_of_run_error outcome, fun other => account_prefix_run, ?_, ?_⟩
      · rintro total impossible
        cases impossible
      · rintro other -
        rfl
  | ok total =>
      rcases exists_completed_of_run outcome with ⟨reports, completed, events⟩
      refine ⟨reports, completed.account, ?_, ?_, ?_⟩
      · intro other account
        have noResult : Event.evaluated total members.length ∉ other :=
          fun inside => account.isStep _ inside
        have first := account_prefix_run account
        rw [events, List.prefix_concat_iff] at first
        rcases first with whole | shorter
        · rw [whole] at noResult
          exact absurd (List.mem_append_right _ (List.mem_singleton_self _)) noResult
        · exact shorter
      · rintro result same
        cases same
        exact ⟨completed, events⟩
      · rintro fault impossible
        cases impossible

namespace Expression

/-- The events of an evaluation are the longest account of its members, which holds neither a result
nor a warning.  If there is a value, the account is complete and the result stands behind it, once:
there is one step for every multiplication and division and one addition for every term.  If there
is a fault, the account is all.

A calculation reports the same, and warns once more exactly if it is refused.  Its host is handed
either the result, marked read-only, or the fault. -/
theorem events_account_for_evaluation (members : Expression) :
    (∃ reports : List (Event Fraction),
      Account .fractions members reports ∧
      (∀ other, Account .fractions members other -> other <+: reports) ∧
      (∀ event ∈ reports, event.message ≠ "expression évaluée" ∧ event.level ≠ .warn) ∧
      (∀ total, members.evaluate = .ok total ->
        Completed .fractions members reports total ∧
        members.evaluation.events = reports ++ [.evaluated total members.length] ∧
        members.evaluation.events.countP (fun event => event.level = .trace) =
          members.countP Member.isMultiplicative ∧
        (∃ sum : SignedSum, sum.members = members) ∧
        ∀ sum : SignedSum, sum.members = members ->
          members.evaluation.events.countP (fun event => event.message = "terme accumulé") =
            sum.size) ∧
      (∀ fault, members.evaluate = .error fault -> members.evaluation.events = reports)) ∧
    ∀ (σ : Type) [Host σ] (host : σ), Host.members host = members ->
      (∀ total, members.evaluate = .ok total ->
        calculate host = ⟨members.evaluation.events, .ok total.toMixed.asReadOnly,
          Host.present host total.toMixed.asReadOnly⟩) ∧
      (∀ fault, members.evaluate = .error fault ->
        ∃ warning : Event Fraction, warning.level = .warn ∧
          warning.fields =
            [("erreur", fault.message), ("membres", Numeral.natText members.length)] ∧
          calculate host = ⟨members.evaluation.events ++ [warning], .error fault,
            Host.refuse host fault⟩) := by
  refine ⟨?_, ?_⟩
  · rcases Evaluation.exists_longest_account .fractions members with
      ⟨reports, account, longest, succeeds, fails⟩
    refine ⟨reports, account, longest, ?_, ?_, fails⟩
    · intro event reported
      have isStep := account.isStep event reported
      exact ⟨isStep.message_ne, isStep.level_ne⟩
    · intro total evaluated
      rcases succeeds total evaluated with ⟨completed, events⟩
      have events' : members.evaluation.events = reports ++ [.evaluated total members.length] :=
        events
      refine ⟨completed, events, ?_,
        (Evaluation.wellFormed_of_run evaluated).exists_signedSum, ?_⟩
      · rw [events', List.countP_append, completed.countP_trace]
        rfl
      · rintro sum rfl
        have counted := completed.countP_added
        rw [sum.countP_isNumber] at counted
        rw [events', List.countP_append, ← Nat.add_left_cancel counted]
        simp [Event.message]
  · rintro σ _ host rfl
    exact ⟨fun total evaluated => calculate_of_ok evaluated,
      fun fault refused => ⟨.refused fault (Host.members host).length, rfl, rfl,
        calculate_of_error refused⟩⟩

/-- The sum `2 * 3 - 1`. -/
def productLessOne : SignedSum :=
  .add (.single (.times (.number (.positive 2 0 1)) (.positive 3 0 1))) .negative
    (.number (.positive 1 0 1))

/-- The sum `1 + 2 * 3 / 0`. -/
def brokenOff : SignedSum :=
  .add (.single (.number (.positive 1 0 1))) .positive
    (.dividedBy (.times (.number (.positive 2 0 1)) (.positive 3 0 1)) (.positive 0 0 1))

/-- The evaluation of `2 * 3 - 1` reports one step and two additions before its result.  That of
`1 + 2 * 3 / 0` breaks off within its second term, of which it has reported a step, and the host is
handed the fault alone. -/
theorem account_breaks_off_within_term :
    (productLessOne.members.evaluation.events.countP (fun event => event.level = .trace) = 1 ∧
      productLessOne.members.evaluation.events.countP
        (fun event => event.message = "terme accumulé") = 2 ∧
      productLessOne.members.evaluation.events.getLast? =
        some (.evaluated ⟨5, 1, by decide⟩ 5)) ∧
    brokenOff.members.evaluation.events =
      [.termAdded .positive ⟨1, 1, by decide⟩ ⟨1, 1, by decide⟩,
        .factorApplied .times ⟨3, 1, by decide⟩ ⟨6, 1, by decide⟩] ∧
    Account .fractions brokenOff.members brokenOff.members.evaluation.events ∧
    ∃ warning : Event Fraction, warning.level = .warn ∧
      warning.fields = [("erreur", "division par zéro"), ("membres", "7")] ∧
      calculate (⟨brokenOff.members, [], []⟩ : Transcript) =
        ⟨brokenOff.members.evaluation.events ++ [warning], .error .divisionByZero,
          ⟨brokenOff.members, [.divisionByZero], []⟩⟩ := by
  have evaluated : productLessOne.members.evaluate = .ok ⟨5, 1, by decide⟩ := rfl
  have refused : brokenOff.members.evaluate = .error .divisionByZero := rfl
  rcases (events_account_for_evaluation productLessOne.members).1 with
    ⟨reports, -, -, -, succeeds, -⟩
  rcases succeeds _ evaluated with ⟨-, events, steps, -, additions⟩
  rcases events_account_for_evaluation brokenOff.members with
    ⟨⟨others, account, -, -, -, fails⟩, calculates⟩
  refine ⟨⟨steps, additions productLessOne rfl, ?_⟩, rfl, ?_, ?_⟩
  · rw [events]
    exact List.getLast?_concat
  · rw [fails _ refused]
    exact account
  · exact (calculates Transcript ⟨brokenOff.members, [], []⟩ rfl).2 _ refused

end Expression

end MixedCalculator
