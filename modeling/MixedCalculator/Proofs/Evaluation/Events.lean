import MixedCalculator.Proofs.Evaluation.Account
import MixedCalculator.Proofs.Evaluation.Structure

namespace MixedCalculator

/-!
# The events of an evaluation

What a single step reports, and what an evaluation reports that reads the members of an account.
The events of a term follow from those of its steps, and the events of a sum from those of its
terms.  Whatever an evaluation meets later, it has reported every account of its members first.
-/

variable {Value : Type} {arithmetic : Arithmetic Value}

theorem Traced.bind_of_ok {Event α β : Type} {first : Traced Event α} {a : α}
    (succeeds : first.outcome = .ok a) (next : α -> Traced Event β) :
    first >>= next = ⟨first.events ++ (next a).events, (next a).outcome⟩ := by
  rcases first with ⟨events, outcome⟩
  cases succeeds
  rfl

theorem Traced.bind_of_error {Event α β : Type} {first : Traced Event α} {fault : Fault}
    (fails : first.outcome = .error fault) (next : α -> Traced Event β) :
    first >>= next = ⟨first.events, .error fault⟩ := by
  rcases first with ⟨events, outcome⟩
  cases fails
  rfl

/-- Whatever comes later, what has been reported stays reported. -/
theorem Traced.events_prefix_bind {Event α β : Type} (first : Traced Event α)
    (next : α -> Traced Event β) : first.events <+: (first >>= next).events := by
  cases outcome : first.outcome with
  | ok a =>
      rw [bind_of_ok outcome]
      exact List.prefix_append _ _
  | error fault => exact ⟨[], by rw [bind_of_error outcome, List.append_nil]⟩

namespace Evaluation

/-! ## The events of single steps -/

variable {position : Nat} {sum product operand result total : Value} {sign : Sign}

theorem addTerm_of_ok (added : arithmetic.apply (.ofSign sign) sum product = .ok total) :
    addTerm arithmetic sum sign product = ⟨[.termAdded sign product total], .ok total⟩ := by
  simp only [addTerm, added]
  rfl

theorem addTerm_of_error {fault : Fault}
    (failed : arithmetic.apply (.ofSign sign) sum product = .error fault) :
    addTerm arithmetic sum sign product = ⟨[], .error fault⟩ := by
  simp only [addTerm, failed]
  rfl

theorem applyFactor_of_ok {op : Operator} {number : MixedNumber}
    (converted : arithmetic.ofMixed number = .ok operand)
    (computed : arithmetic.apply op product operand = .ok result) :
    applyFactor arithmetic product op number = ⟨[.factorApplied op operand result], .ok result⟩ := by
  rw [applyFactor, converted, Traced.bind_of_ok (Traced.outcome_silently _)]
  simp only [computed]
  rfl

theorem applyFactor_of_error {op : Operator} {number : MixedNumber} {fault : Fault}
    (failed : (arithmetic.ofMixed number).bind (arithmetic.apply op product) = .error fault) :
    applyFactor arithmetic product op number = ⟨[], .error fault⟩ := by
  rcases Except.bind_eq_error_iff.mp failed with refused | ⟨operand, converted, refused⟩
  · simp only [applyFactor, refused]
    rfl
  · rw [applyFactor, converted, Traced.bind_of_ok (Traced.outcome_silently _)]
    simp only [refused]
    rfl

theorem step_number {phase : Phase Value} {number : MixedNumber} (begins : Begins phase sign)
    (converted : arithmetic.ofMixed number = .ok product) :
    step arithmetic ⟨position, sum, phase⟩ (.number number) =
      ⟨[], .ok ⟨position + 1, sum, .term sign product⟩⟩ := by
  cases phase with
  | opening =>
      cases begins
      simp only [step, converted]
      rfl
  | signed stated =>
      cases begins
      simp only [step, converted]
      rfl
  | term stated reached => exact False.elim begins
  | factor stated reached op => exact False.elim begins

theorem step_leading (sign : Sign) :
    step arithmetic ⟨position, sum, .opening⟩ (.operator (.ofSign sign)) =
      ⟨[], .ok ⟨position + 1, sum, .signed sign⟩⟩ := by
  cases sign <;> rfl

theorem step_added (added : arithmetic.apply (.ofSign sign) sum product = .ok total)
    (next : Sign) :
    step arithmetic ⟨position, sum, .term sign product⟩ (.operator (.ofSign next)) =
      ⟨[.termAdded sign product total], .ok ⟨position + 1, total, .signed next⟩⟩ := by
  simp only [step, Operator.sign?_ofSign, addTerm_of_ok added]
  rfl

theorem step_afterNumber (added : arithmetic.apply (.ofSign sign) sum product = .ok total)
    (number : MixedNumber) :
    step arithmetic ⟨position, sum, .term sign product⟩ (.number number) =
      ⟨[.termAdded sign product total], .error (.operatorExpected position)⟩ := by
  simp only [step, addTerm_of_ok added]
  rfl

theorem step_continued {op : Operator} (tight : op.sign? = none) :
    step arithmetic ⟨position, sum, .term sign product⟩ (.operator op) =
      ⟨[], .ok ⟨position + 1, sum, .factor sign product op⟩⟩ := by
  simp only [step, tight]
  rfl

theorem step_applied {op : Operator} {number : MixedNumber}
    (converted : arithmetic.ofMixed number = .ok operand)
    (computed : arithmetic.apply op product operand = .ok result) :
    step arithmetic ⟨position, sum, .factor sign product op⟩ (.number number) =
      ⟨[.factorApplied op operand result], .ok ⟨position + 1, sum, .term sign result⟩⟩ := by
  simp only [step, applyFactor_of_ok converted computed]
  rfl

theorem finish_of_ok (added : arithmetic.apply (.ofSign sign) sum product = .ok total) :
    finish arithmetic ⟨position, sum, .term sign product⟩ =
      ⟨[.termAdded sign product total, .evaluated total position], .ok total⟩ := by
  simp only [finish, addTerm_of_ok added]
  rfl

/-! ## The events of terms and sums -/

theorem advance_cons (arithmetic : Arithmetic Value) (progress : Progress Value) (member : Member)
    (rest : Expression) :
    advance arithmetic progress (member :: rest) =
      step arithmetic progress member >>= fun next => advance arithmetic next rest :=
  List.foldlM_cons

theorem advance_of_step {progress next : Progress Value} {member : Member}
    {events : List (Event Value)}
    (stepped : step arithmetic progress member = ⟨events, .ok next⟩) (rest : Expression) :
    advance arithmetic progress (member :: rest) =
      ⟨events ++ (advance arithmetic next rest).events,
        (advance arithmetic next rest).outcome⟩ := by
  rw [advance_cons, stepped]
  rfl

theorem advance_of_append {progress reached : Progress Value} {earlier : Expression}
    {events : List (Event Value)}
    (advanced : advance arithmetic progress earlier = ⟨events, .ok reached⟩) (later : Expression) :
    advance arithmetic progress (earlier ++ later) =
      ⟨events ++ (advance arithmetic reached later).events,
        (advance arithmetic reached later).outcome⟩ := by
  rw [advance_append, advanced]
  rfl

theorem events_advance_singleton (progress : Progress Value) (member : Member) :
    (advance arithmetic progress [member]).events = (step arithmetic progress member).events := by
  rw [advance_cons]
  exact congrArg Traced.events (bind_pure _)

/-- What the members of a beginning report is reported first. -/
theorem events_advance_prefix (arithmetic : Arithmetic Value) (before after : Expression) :
    (advance arithmetic (start arithmetic) before).events <+:
      (run arithmetic (before ++ after)).events := by
  rw [run, advance_append, bind_assoc]
  exact Traced.events_prefix_bind _ _

theorem advance_factor {op : Operator} {number : MixedNumber} (tight : op.sign? = none)
    (converted : arithmetic.ofMixed number = .ok operand)
    (computed : arithmetic.apply op product operand = .ok result) :
    advance arithmetic ⟨position, sum, .term sign product⟩ [.operator op, .number number] =
      ⟨[.factorApplied op operand result], .ok ⟨position + 2, sum, .term sign result⟩⟩ := by
  rw [advance_of_step (step_continued tight), advance_of_step (step_applied converted computed)]
  rfl

/-- A chain of factors that is read reports its steps. -/
theorem advance_term {term : Term} {steps : List (Event Value)} {phase : Phase Value}
    (begins : Begins phase sign) (reports : term.Reports arithmetic steps product) :
    advance arithmetic ⟨position, sum, phase⟩ term.members =
      ⟨steps, .ok ⟨position + term.members.length, sum, .term sign product⟩⟩ := by
  induction reports with
  | number converted =>
      rw [Term.members, advance_of_step (step_number begins converted)]
      rfl
  | times _ converted computed inductionHypothesis =>
      rw [Term.members, advance_of_append inductionHypothesis,
        advance_factor rfl converted computed, List.length_append]
      rfl
  | dividedBy _ converted computed inductionHypothesis =>
      rw [Term.members, advance_of_append inductionHypothesis,
        advance_factor rfl converted computed, List.length_append]
      rfl

/-- The sign after a chain of factors has it added. -/
theorem advance_term_sign {term : Term} {steps : List (Event Value)} {phase : Phase Value}
    (begins : Begins phase sign) (reports : term.Reports arithmetic steps product)
    (added : arithmetic.apply (.ofSign sign) sum product = .ok total) (next : Sign) :
    advance arithmetic ⟨position, sum, phase⟩ (term.members ++ [.operator (.ofSign next)]) =
      ⟨steps ++ [.termAdded sign product total],
        .ok ⟨position + term.members.length + 1, total, .signed next⟩⟩ := by
  rw [advance_of_append (advance_term begins reports), advance_of_step (step_added added next)]
  rfl

/-- Complete terms that are read report their events, the last of them when a sign follows. -/
theorem advance_completed {members : Expression} {events : List (Event Value)}
    (completed : Completed arithmetic members events total) (next : Sign) :
    advance arithmetic (start arithmetic) (members ++ [.operator (.ofSign next)]) =
      ⟨events, .ok ⟨members.length + 1, total, .signed next⟩⟩ := by
  induction completed generalizing next with
  | none =>
      rw [List.nil_append, start, advance_of_step (step_leading next)]
      rfl
  | unsigned reports added =>
      have begins : Begins (.opening : Phase Value) .positive := rfl
      rw [start, advance_term_sign begins reports added next, Nat.zero_add]
  | @signed before events steps sum product total sign term _ reports added inductionHypothesis =>
      have begins : Begins (.signed sign : Phase Value) sign := rfl
      have split : before ++ .operator (.ofSign sign) :: term.members ++ [.operator (.ofSign next)] =
          (before ++ [.operator (.ofSign sign)]) ++
            (term.members ++ [.operator (.ofSign next)]) := by
        simp only [List.append_assoc, List.cons_append, List.nil_append]
      rw [split, advance_of_append (inductionHypothesis sign),
        advance_term_sign begins reports added next, List.length_append, List.length_cons]
      simp only [Traced.mk.injEq, true_and, Except.ok.injEq, Progress.mk.injEq, and_true]
      omega

/-- Where a term begins, the complete terms before it have been reported. -/
theorem advance_begun {before : Expression} {events : List (Event Value)}
    (begun : Begun arithmetic before events sum sign) :
    ∃ phase, Begins phase sign ∧ advance arithmetic (start arithmetic) before =
      ⟨events, .ok ⟨before.length, sum, phase⟩⟩ := by
  cases begun with
  | unsigned => exact ⟨.opening, rfl, rfl⟩
  | signed sign completed =>
      refine ⟨.signed sign, rfl, ?_⟩
      rw [advance_completed completed sign, List.length_append, List.length_singleton]

theorem advance_begun_term {before : Expression} {term : Term} {events steps : List (Event Value)}
    (begun : Begun arithmetic before events sum sign)
    (reports : term.Reports arithmetic steps product) :
    advance arithmetic (start arithmetic) (before ++ term.members) =
      ⟨events ++ steps, .ok ⟨(before ++ term.members).length, sum, .term sign product⟩⟩ := by
  rcases advance_begun begun with ⟨phase, begins, advanced⟩
  rw [advance_of_append advanced, advance_term begins reports, List.length_append]

/-- A chain of factors that ends is added, by what comes after it or at the end.  A member that
comes after it is judged only once the chain has been added. -/
theorem added_prefix_run {before after : Expression} {term : Term}
    {events steps : List (Event Value)} (begun : Begun arithmetic before events sum sign)
    (reports : term.Reports arithmetic steps product)
    (added : arithmetic.apply (.ofSign sign) sum product = .ok total) (ends : after.EndsTerm) :
    events ++ (steps ++ [.termAdded sign product total]) <+:
      (run arithmetic (before ++ term.members ++ after)).events := by
  have advanced := advance_begun_term begun reports
  rw [← List.append_assoc]
  have addedFirst : ∀ member rest, (step arithmetic
        ⟨(before ++ term.members).length, sum, .term sign product⟩ member).events =
          [.termAdded sign product total] ->
      events ++ steps ++ [.termAdded sign product total] <+:
        (run arithmetic (before ++ term.members ++ member :: rest)).events := by
    intro member rest stepped
    have reported := events_advance_prefix arithmetic (before ++ term.members ++ [member]) rest
    rw [advance_of_append advanced, events_advance_singleton, stepped, List.append_assoc _ [member]]
      at reported
    exact reported
  cases after with
  | nil =>
      rw [List.append_nil, run, advanced, Traced.bind_of_ok rfl, finish_of_ok added]
      exact ⟨[.evaluated total (before ++ term.members).length], List.append_assoc _ _ _⟩
  | cons member rest =>
      cases member with
      | number number =>
          exact addedFirst _ rest (congrArg Traced.events (step_afterNumber added number))
      | operator op =>
          have isSign : op.sign?.isNone = false := ends op rest rfl
          rcases Option.isSome_iff_exists.mp (Option.isNone_eq_false_iff.mp isSign) with ⟨sign', found⟩
          rw [Operator.eq_ofSign found]
          exact addedFirst _ rest (congrArg Traced.events (step_added added sign'))

/-- Every account of an expression is reported first. -/
theorem account_prefix_run {members : Expression} {events : List (Event Value)}
    (account : Account arithmetic members events) : events <+: (run arithmetic members).events := by
  cases account with
  | complete completed same ends =>
      subst same
      cases completed with
      | none => exact List.nil_prefix
      | @unsigned term _ _ _ reports added =>
          exact added_prefix_run .unsigned reports added (ends term.members_ne_nil)
      | @signed before _ _ _ _ _ sign term completed reports added =>
          have reported := added_prefix_run (.signed sign completed) reports added
            (ends (List.append_ne_nil_of_right_ne_nil _ (List.cons_ne_nil _ _)))
          rwa [List.append_assoc _ [_]] at reported
  | @unfinished before after term _ _ _ _ _ begun reports same =>
      subst same
      have reported := events_advance_prefix arithmetic (before ++ term.members) after
      rwa [advance_begun_term begun reports] at reported

end Evaluation

end MixedCalculator
