import MixedCalculator.Proofs.Evaluation.Bounded
import MixedCalculator.Proofs.Evaluation.Progression

namespace MixedCalculator

/-!
# The fault of an evaluation is the first broken rule

An evaluation that fails reports one of two things: the first offence of the expression against
the grammar, or a fault of its values.  The latter is already the fault of a well-formed
beginning of the expression, which therefore ends before the first offence.

The grammar part holds over any arithmetic.  Over one that never fails it says that the
expressions without an offence are exactly the well-formed ones.
-/

variable {Value : Type} {arithmetic : Arithmetic Value}

/-- The faults of an arithmetic itself. -/
def Arithmetic.Fails (arithmetic : Arithmetic Value) (fault : Fault) : Prop :=
  (∃ number, arithmetic.ofMixed number = .error fault) ∨
    ∃ op a b, arithmetic.apply op a b = .error fault

namespace Evaluation

/-- What has been read contains no offence, whatever comes later. -/
theorem not_offence_of_follows {phase : Phase Value} {before : Expression}
    (follows : phase.Follows before) (after : Expression) {position : Nat}
    (inside : position < before.length) (fault : Fault) :
    ¬ Offence (before ++ after) position fault := by
  cases phase with
  | opening =>
      cases follows
      exact absurd inside (Nat.not_lt_zero position)
  | signed sign =>
      rcases follows with ⟨earlier, rfl | wellFormed, rfl⟩
      · refine not_offence_of_isChain (List.IsChain.singleton _) ?_ after inside fault
        intro op head
        cases head
        rw [Operator.sign?_ofSign]
        exact Option.some_ne_none sign
      · exact wellFormed.not_offence_append_operator _ after inside fault
  | term sign product => exact WellFormed.not_offence follows after inside fault
  | factor sign product op =>
      rcases follows with ⟨earlier, wellFormed, -, rfl⟩
      exact wellFormed.not_offence_append_operator _ after inside fault

/-- A member that is refused is an offence, or a value of a well-formed beginning fails.  A number
that is refused for its value belongs to that beginning and completes it. -/
theorem offence_or_fails_of_step {before after : Expression} {member : Member}
    {reached : Progress Value} {fault : Fault}
    (advanced : (advance arithmetic (start arithmetic) before).outcome = .ok reached)
    (refused : (step arithmetic reached member).outcome = .error fault) :
    Offence (before ++ member :: after) before.length fault ∨
      arithmetic.Fails fault ∧ ∃ part, part <+: before ++ member :: after ∧
        WellFormed part ∧ (run arithmetic part).outcome = .error fault := by
  have follows := advance_follows (start_follows arithmetic) advanced
  have counted := follows.position
  have phase := follows.phase
  rw [List.nil_append] at counted phase
  have completed : ∀ number, member = .number number -> reached.phase.AwaitsNumber ->
      ∃ part, part <+: before ++ member :: after ∧
        WellFormed part ∧ (run arithmetic part).outcome = .error fault := by
    rintro number rfl awaits
    refine ⟨before ++ [.number number], ⟨after, by simp⟩,
      wellFormed_append_number phase awaits number, ?_⟩
    rw [outcome_run, outcome_advance_append, advanced]
    simp only [Except.bind, outcome_advance_cons, refused]
  have here : (before ++ member :: after)[before.length]? = some member := by simp
  cases refuses_of_step refused with
  | unsigned unsigned =>
      cases counted
      cases phase
      exact Or.inl (.unsigned rfl unsigned)
  | afterSign =>
      cases counted
      rcases phase with ⟨earlier, -, rfl⟩
      exact Or.inl (offence_operators_of_append earlier _ _ after)
  | afterOperator =>
      cases counted
      rcases phase with ⟨earlier, -, -, rfl⟩
      exact Or.inl (offence_operators_of_append earlier _ _ after)
  | afterNumber _ =>
      cases counted
      rcases WellFormed.exists_last phase with ⟨earlier, number, rfl⟩
      exact Or.inl (offence_numbers_of_append earlier _ _ after)
  | total failed =>
      refine Or.inr ⟨Or.inr ⟨_, _, _, failed⟩, before, List.prefix_append _ _, phase, ?_⟩
      rw [outcome_run, advanced]
      exact (outcome_finish_term arithmetic _ _ _ _).trans failed
  | first failed =>
      exact Or.inr ⟨Or.inl ⟨_, failed⟩, completed _ rfl trivial⟩
  | begun failed =>
      exact Or.inr ⟨Or.inl ⟨_, failed⟩, completed _ rfl trivial⟩
  | operand failed =>
      exact Or.inr ⟨Or.inl ⟨_, failed⟩, completed _ rfl trivial⟩
  | applied _ failed =>
      exact Or.inr ⟨Or.inr ⟨_, _, _, failed⟩, completed _ rfl trivial⟩

/-- An evaluation that fails has met the first offence, or its values fail earlier. -/
theorem offence_or_fails_of_run {members : Expression} {fault : Fault} (nonempty : members ≠ [])
    (failed : (run arithmetic members).outcome = .error fault) :
    (∃ position, Offence members position fault ∧
      ∀ earlier < position, ∀ other, ¬ Offence members earlier other) ∨
    arithmetic.Fails fault ∧ ∃ part, part <+: members ∧
      WellFormed part ∧ (run arithmetic part).outcome = .error fault := by
  have whole := failed
  rw [outcome_run] at failed
  rcases Except.bind_eq_error_iff.mp failed with stopped | ⟨reached, advanced, finished⟩
  · rcases exists_refuses_of_advance stopped with
      ⟨before, member, after, reached, rfl, advanced, refused⟩
    have follows := (advance_follows (start_follows arithmetic) advanced).phase
    rcases offence_or_fails_of_step advanced refused with offence | fails
    · exact Or.inl ⟨before.length, offence, fun earlier inside other =>
        not_offence_of_follows follows _ inside other⟩
    · exact Or.inr fails
  · have follows := advance_follows (start_follows arithmetic) advanced
    have counted := follows.position
    have phase := follows.phase
    rw [List.nil_append] at counted phase
    have none_before : ∀ earlier < members.length, ∀ other, ¬ Offence members earlier other := by
      intro earlier inside other
      simpa only [List.append_nil] using not_offence_of_follows phase [] inside other
    rcases reached with ⟨position, sum, reachedPhase⟩
    cases reachedPhase with
    | opening => exact absurd phase nonempty
    | signed sign =>
        rcases phase with ⟨earlier, -, rfl⟩
        cases finished
        cases counted
        exact Or.inl ⟨_, .ending List.getLast?_concat, none_before⟩
    | factor sign product op =>
        rcases phase with ⟨earlier, -, -, rfl⟩
        cases finished
        cases counted
        exact Or.inl ⟨_, .ending List.getLast?_concat, none_before⟩
    | term sign product =>
        rw [outcome_finish_term] at finished
        exact Or.inr ⟨Or.inr ⟨_, _, _, finished⟩, members, List.prefix_refl _, phase, whole⟩

/-- Nothing but the empty expression is refused as empty. -/
theorem run_eq_empty_iff (arithmetic : Arithmetic Value)
    (sound : ¬ arithmetic.Fails .emptyExpression) (members : Expression) :
    (run arithmetic members).outcome = .error .emptyExpression ↔ members = [] := by
  constructor
  · intro failed
    by_contra nonempty
    rcases offence_or_fails_of_run nonempty failed with ⟨position, offence, -⟩ | ⟨fails, -⟩
    · cases offence
    · exact sound fails
  · rintro rfl
    rfl

end Evaluation

/-- The arithmetic that has no values and never fails. -/
def Arithmetic.unvalued : Arithmetic Unit where
  zero := ()
  ofMixed _ := .ok ()
  apply _ _ _ := .ok ()

/-- The well-formed expressions are those without an offence, the empty one apart. -/
theorem wellFormed_iff (members : Expression) :
    WellFormed members ↔ members ≠ [] ∧ ∀ position fault, ¬ Offence members position fault := by
  constructor
  · intro wellFormed
    refine ⟨?_, wellFormed.no_offence⟩
    rintro rfl
    rcases wellFormed.exists_last with ⟨before, number, impossible⟩
    exact absurd impossible (by simp)
  · rintro ⟨nonempty, no_offence⟩
    cases evaluated : (Evaluation.run .unvalued members).outcome with
    | ok value => exact Evaluation.wellFormed_of_run evaluated
    | error fault =>
        rcases Evaluation.offence_or_fails_of_run nonempty evaluated with
          ⟨position, offence, -⟩ | ⟨fails, -⟩
        · exact absurd offence (no_offence position fault)
        · rcases fails with ⟨number, impossible⟩ | ⟨op, a, b, impossible⟩
          · cases impossible
          · cases impossible

/-! ## Faults of fractions -/

/-- The faults that numbers and operations on them can have. -/
def Fault.IsOfValue (fault : Fault) : Prop :=
  fault = .invalidParts .zeroDenominator ∨ fault = .divisionByZero ∨ fault = .overflow

theorem Fault.not_isOfValue_operatorExpected (position : Nat) :
    ¬ (Fault.operatorExpected position).IsOfValue := by
  simp only [Fault.IsOfValue, reduceCtorEq, or_self, not_false_eq_true]

theorem isOfValue_of_hold {q : Rat} {fault : Fault} (failed : hold q = .error fault) :
    fault.IsOfValue :=
  Or.inr (Or.inr (overflow_of_hold failed))

theorem Arithmetic.isOfValue_of_bounded_fails {fault : Fault} (fails : bounded.Fails fault) :
    fault.IsOfValue := by
  rcases fails with ⟨number, failed⟩ | ⟨op, a, b, failed⟩
  · by_cases zero : number.den = 0
    · rw [bounded_ofMixed_of_den_eq_zero number zero] at failed
      cases failed
      exact Or.inl rfl
    · rw [bounded_ofMixed number zero] at failed
      exact isOfValue_of_hold failed
  · cases op with
    | plus => exact isOfValue_of_hold failed
    | minus => exact isOfValue_of_hold failed
    | times => exact isOfValue_of_hold failed
    | dividedBy =>
        by_cases zero : b = 0
        · rw [zero, bounded_dividedBy_zero] at failed
          cases failed
          exact Or.inr (Or.inl rfl)
        · rw [bounded_dividedBy a b zero] at failed
          exact isOfValue_of_hold failed

namespace Expression

/-- A well-formed expression fails for its values alone. -/
theorem isOfValue_of_wellFormed {members : Expression} (wellFormed : WellFormed members)
    {fault : Fault} (failed : evaluateBounded members = .error fault) : fault.IsOfValue := by
  have nonempty := ((wellFormed_iff members).mp wellFormed).1
  rcases Evaluation.offence_or_fails_of_run nonempty failed with ⟨position, offence, -⟩ | ⟨fails, -⟩
  · exact absurd offence (wellFormed.no_offence position fault)
  · exact Arithmetic.isOfValue_of_bounded_fails fails

/-- Only the empty expression is refused as empty, and no ill-formed one is accepted.  Any
other fault is the first offence of the expression, or else a fault of its values, and then of
a well-formed beginning that ends before the first offence. -/
theorem evaluate_reports_first_offence (members : Expression) :
    (members.evaluate = .error .emptyExpression ↔ members = []) ∧
    ((∃ total, members.evaluate = .ok total) ->
      WellFormed members ∧ ∀ position fault, ¬ Offence members position fault) ∧
    (members ≠ [] -> ∃ position, FirstOffence members position ∧
      ∀ fault, members.evaluate = .error fault ->
        Offence members position fault ∨
          fault.IsOfValue ∧ ∃ part : Expression, part <+: members ∧ part.length ≤ position ∧
            WellFormed part ∧ part.evaluate = .error fault) := by
  refine ⟨?_, ?_, ?_⟩
  · rw [evaluate_eq_error_iff]
    apply Evaluation.run_eq_empty_iff
    intro fails
    rcases Arithmetic.isOfValue_of_bounded_fails fails with impossible | impossible | impossible
    all_goals cases impossible
  · intro accepted
    rcases (exists_evaluate_iff members).mp accepted with ⟨q, evaluated⟩
    have wellFormed := Evaluation.wellFormed_of_run evaluated
    exact ⟨wellFormed, wellFormed.no_offence⟩
  · intro nonempty
    rcases exists_firstOffence members with ⟨position, isFirst⟩
    refine ⟨position, isFirst, ?_⟩
    intro fault failed
    rw [evaluate_eq_error_iff] at failed
    rcases Evaluation.offence_or_fails_of_run nonempty failed with
      ⟨first, offence, none_before⟩ | ⟨fails, part, isPrefix, wellFormed, partFailed⟩
    · rw [isFirst.eq_of_offence offence none_before]
      exact Or.inl offence
    · refine Or.inr ⟨Arithmetic.isOfValue_of_bounded_fails fails, part, isPrefix,
        isFirst.length_le wellFormed isPrefix, wellFormed, ?_⟩
      rw [evaluate_eq_error_iff]
      exact partFailed

/-- In `1 / 0 4` the division by zero is found before the two neighbouring numbers, and it is
the fault of `1 / 0` already.  In `- 4` nothing is found. -/
theorem first_offence_behind_division_by_zero :
    (evaluate [.number (.positive 1 0 1), .operator .dividedBy, .number (.positive 0 0 1),
        .number (.positive 4 0 1)] = .error .divisionByZero ∧
      ∃ part : Expression, part <+: [.number (.positive 1 0 1), .operator .dividedBy,
        .number (.positive 0 0 1), .number (.positive 4 0 1)] ∧ part.length ≤ 3 ∧
        WellFormed part ∧ part.evaluate = .error .divisionByZero) ∧
    WellFormed [.operator .minus, .number (.positive 4 0 1)] := by
  have failed : evaluate [.number (.positive 1 0 1), .operator .dividedBy,
      .number (.positive 0 0 1), .number (.positive 4 0 1)] = .error .divisionByZero := rfl
  refine ⟨⟨failed, ?_⟩, ?_⟩
  · rcases (evaluate_reports_first_offence _).2.2 (List.cons_ne_nil _ _) with
      ⟨position, isFirst, reported⟩
    rcases reported _ failed with offence | ⟨-, part, isPrefix, shorter, wellFormed, partFailed⟩
    · cases offence
    · have third : position ≤ 3 := by
        by_contra beyond
        exact isFirst.none_before 3 (Nat.lt_of_not_le beyond) _ (.numbers rfl rfl)
      exact ⟨part, isPrefix, Nat.le_trans shorter third, wellFormed, partFailed⟩
  · exact ((evaluate_reports_first_offence _).2.1 ⟨⟨-4, 1, by decide⟩, rfl⟩).1

end Expression

end MixedCalculator
