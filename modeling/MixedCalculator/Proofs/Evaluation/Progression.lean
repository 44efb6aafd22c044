import MixedCalculator.Proofs.Evaluation.Step
import MixedCalculator.Proofs.Expression.Offence

namespace MixedCalculator

/-!
# How far an evaluation has come

The invariant of a whole evaluation is that its phase tells exactly how the members read so far
begin a well-formed expression.  Every step keeps it, and only a well-formed expression lets an
evaluation finish, so an expression that has a value is well formed, over any arithmetic.
-/

variable {Value : Type} {arithmetic : Arithmetic Value}

/-- How the members read so far begin a well-formed expression. -/
def Phase.Follows : Phase Value -> Expression -> Prop
  | opening, members => members = []
  | signed sign, members => ∃ before : Expression, (before = [] ∨ WellFormed before) ∧
      members = before ++ [.operator (.ofSign sign)]
  | term _ _, members => WellFormed members
  | factor _ _ op, members => ∃ before : Expression, WellFormed before ∧ op.sign? = none ∧
      members = before ++ [.operator op]

/-- A number may come next: there is no finished term before it. -/
def Phase.AwaitsNumber : Phase Value -> Prop
  | term _ _ => False
  | _ => True

/-- The position counts the members read so far, and the phase fits them. -/
structure Progress.Follows (progress : Progress Value) (members : Expression) : Prop where
  position : progress.position = members.length
  phase : progress.phase.Follows members

namespace Evaluation

theorem start_follows (arithmetic : Arithmetic Value) : (start arithmetic).Follows [] :=
  ⟨rfl, rfl⟩

/-- A number completes whatever awaits one. -/
theorem wellFormed_append_number {phase : Phase Value} {before : Expression}
    (follows : phase.Follows before) (awaits : phase.AwaitsNumber)
    (number : MixedNumber) : WellFormed (before ++ [.number number]) := by
  cases phase with
  | opening =>
      cases follows
      exact .number number
  | signed sign =>
      rcases follows with ⟨earlier, rfl | wellFormed, rfl⟩
      · exact .signed sign number
      · rw [List.append_assoc]
        exact .link (.ofSign sign) number wellFormed
  | term sign product => exact False.elim awaits
  | factor sign product op =>
      rcases follows with ⟨earlier, wellFormed, -, rfl⟩
      rw [List.append_assoc]
      exact .link op number wellFormed

theorem Reads.position {progress next : Progress Value} {member : Member}
    (reads : Reads arithmetic progress member next) : next.position = progress.position + 1 := by
  cases reads <;> rfl

/-- Every step keeps the invariant. -/
theorem Reads.follows {progress next : Progress Value} {member : Member}
    {before : Expression} (reads : Reads arithmetic progress member next)
    (follows : progress.Follows before) : next.Follows (before ++ [member]) := by
  refine ⟨?_, ?_⟩
  · rw [reads.position, follows.position, List.length_append, List.length_singleton]
  · have phase := follows.phase
    cases reads with
    | first _ => exact wellFormed_append_number phase trivial _
    | leading sign =>
        cases phase
        exact ⟨[], Or.inl rfl, rfl⟩
    | begun _ => exact wellFormed_append_number phase trivial _
    | added next _ => exact ⟨before, Or.inr phase, rfl⟩
    | continued tight => exact ⟨before, phase, tight, rfl⟩
    | applied _ _ => exact wellFormed_append_number phase trivial _

theorem outcome_advance_cons (arithmetic : Arithmetic Value) (progress : Progress Value)
    (member : Member) (rest : Expression) :
    (advance arithmetic progress (member :: rest)).outcome =
      (step arithmetic progress member).outcome.bind
        (fun next => (advance arithmetic next rest).outcome) := by
  simp only [advance, List.foldlM_cons, Traced.outcome_bind]

theorem outcome_advance_append (arithmetic : Arithmetic Value) (progress : Progress Value)
    (earlier later : Expression) :
    (advance arithmetic progress (earlier ++ later)).outcome =
      (advance arithmetic progress earlier).outcome.bind
        (fun reached => (advance arithmetic reached later).outcome) := by
  rw [advance_append, Traced.outcome_bind]

theorem outcome_run (arithmetic : Arithmetic Value) (members : Expression) :
    (run arithmetic members).outcome =
      (advance arithmetic (start arithmetic) members).outcome.bind
        (fun reached => (finish arithmetic reached).outcome) := by
  rw [run, Traced.outcome_bind]

/-- What comes of the members before the last part of an expression decides, with that part,
about the whole. -/
theorem outcome_run_append (arithmetic : Arithmetic Value) (before after : Expression) :
    (run arithmetic (before ++ after)).outcome =
      (advance arithmetic (start arithmetic) before).outcome.bind fun reached =>
        (advance arithmetic reached after).outcome.bind fun last =>
          (finish arithmetic last).outcome := by
  rw [outcome_run, outcome_advance_append]
  cases (advance arithmetic (start arithmetic) before).outcome <;> rfl

/-- Every run of steps keeps the invariant. -/
theorem advance_follows {progress reached : Progress Value} {before members : Expression}
    (follows : progress.Follows before)
    (advanced : (advance arithmetic progress members).outcome = .ok reached) :
    reached.Follows (before ++ members) := by
  induction members generalizing progress before with
  | nil =>
      cases advanced
      rw [List.append_nil]
      exact follows
  | cons member rest inductionHypothesis =>
      rw [outcome_advance_cons] at advanced
      rcases Except.bind_eq_ok_iff.mp advanced with ⟨next, read, later⟩
      have extended := inductionHypothesis ((reads_of_step read).follows follows) later
      rwa [List.append_assoc] at extended

/-- A run of steps that fails does so at one member. -/
theorem exists_refuses_of_advance {progress : Progress Value} {members : Expression}
    {fault : Fault} (failed : (advance arithmetic progress members).outcome = .error fault) :
    ∃ before member after reached, members = before ++ member :: after ∧
      (advance arithmetic progress before).outcome = .ok reached ∧
      (step arithmetic reached member).outcome = .error fault := by
  induction members generalizing progress with
  | nil => cases failed
  | cons member rest inductionHypothesis =>
      rw [outcome_advance_cons] at failed
      rcases Except.bind_eq_error_iff.mp failed with refused | ⟨next, read, later⟩
      · exact ⟨[], member, rest, progress, rfl, rfl, refused⟩
      · rcases inductionHypothesis later with ⟨before, offender, after, reached, rfl, moved, refused⟩
        refine ⟨member :: before, offender, after, reached, rfl, ?_, refused⟩
        rw [outcome_advance_cons, read]
        exact moved

/-- A finished term is added to the sum, and that is the value of the expression. -/
theorem outcome_finish_term (arithmetic : Arithmetic Value) (position : Nat) (sum : Value)
    (sign : Sign) (product : Value) :
    (finish arithmetic ⟨position, sum, .term sign product⟩).outcome =
      arithmetic.apply (.ofSign sign) sum product := by
  simp only [finish, Traced.outcome_bind, outcome_addTerm, Traced.outcome_emit]
  cases arithmetic.apply (.ofSign sign) sum product <;> rfl

/-- Only a well-formed expression has a value. -/
theorem wellFormed_of_run {members : Expression} {result : Value}
    (evaluated : (run arithmetic members).outcome = .ok result) : WellFormed members := by
  rw [outcome_run] at evaluated
  rcases Except.bind_eq_ok_iff.mp evaluated with ⟨⟨position, sum, phase⟩, advanced, finished⟩
  have follows := (advance_follows (start_follows arithmetic) advanced).phase
  cases phase with
  | opening => cases finished
  | signed sign => cases finished
  | term sign product => exact follows
  | factor sign product op => cases finished

end Evaluation

end MixedCalculator
