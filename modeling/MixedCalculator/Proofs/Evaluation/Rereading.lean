import MixedCalculator.Proofs.Evaluation.Extension
import MixedCalculator.Proofs.Evaluation.FirstFault
import MixedCalculator.Proofs.Evaluation.Likeness
import MixedCalculator.Proofs.Expression.Rereading

namespace MixedCalculator

/-!
# Evaluating what was read back

An expression that was written and read back differs from the original at the pairs that join.
It is evaluated alike up to the first of these, since a denominator that is not written has no
influence on a value.  If the grammar is broken no later than at the first number of the pair,
evaluation stops there in both, without looking at that number.  Only a pair that is itself
the first offence is exposed: there the original always fails, and what was read need not.
-/

variable {Value : Type} {arithmetic : Arithmetic Value}

/-! ## The numbers of an expression -/

theorem Arithmetic.bounded_ofMixed_standard (number : MixedNumber) :
    bounded.ofMixed number.standard.form = bounded.ofMixed number := by
  by_cases isWhole : number.IsWhole
  · have standard_eq : number.standard = { number with den := 1 } := if_pos isWhole
    have nonzero : number.standard.form.den ≠ 0 := by
      rw [standard_eq]
      change (1 : UInt32) ≠ 0
      decide
    rw [bounded_ofMixed _ nonzero, bounded_ofMixed _ isWhole.2]
    congr 1
    simp only [standard_eq, MixedNumber.value, MixedNumber.form, isWhole.1, UInt32.toNat_zero,
      Nat.cast_zero, zero_div]
  · rw [MixedNumber.standard, if_neg isWhole]
    rfl

namespace Evaluation

theorem outcome_advance_standard (progress : Progress Rat) (members : Expression) :
    (advance .bounded progress (Expression.form (members.map Member.standard))).outcome =
      (advance .bounded progress members).outcome := by
  rw [Expression.form, List.map_map]
  refine outcome_advance_of_alike (Expression.alike_map ?_) progress
  intro member _
  cases member with
  | number value => exact .number (Arithmetic.bounded_ofMixed_standard value)
  | operator op => exact .operator op

/-- If a number cannot complete a well-formed expression, then neither it nor anything after it
matters. -/
theorem outcome_run_of_not_wellFormed {before : Expression} {first : MixedNumber}
    (broken : ¬ WellFormed (before ++ [.number first])) (second : MixedNumber)
    (after other : Expression) :
    (run arithmetic (before ++ .number first :: after)).outcome =
      (run arithmetic (before ++ .number second :: other)).outcome := by
  rw [outcome_run_append, outcome_run_append]
  cases advanced : (advance arithmetic (start arithmetic) before).outcome with
  | error fault => rfl
  | ok reached =>
      have phase := (advance_follows (start_follows arithmetic) advanced).phase
      rw [List.nil_append] at phase
      rcases reached with ⟨position, sum, reachedPhase⟩
      cases reachedPhase with
      | term sign product =>
          change (advance arithmetic _ (.number first :: after)).outcome.bind _ =
            (advance arithmetic _ (.number second :: other)).outcome.bind _
          rw [outcome_rest_of_term, outcome_rest_of_term]
      | opening => exact absurd (wellFormed_append_number phase trivial first) broken
      | signed sign => exact absurd (wellFormed_append_number phase trivial first) broken
      | factor sign product op => exact absurd (wellFormed_append_number phase trivial first) broken

end Evaluation

/-! ## The first pair that joins -/

/-- What comes before the number does not depend on it. -/
theorem WellFormed.replace_last {before : Expression} {first : MixedNumber}
    (wellFormed : WellFormed (before ++ [.number first])) (second : MixedNumber) :
    WellFormed (before ++ [.number second]) := by
  generalize whole : before ++ [Member.number first] = members at wellFormed
  cases wellFormed with
  | number n =>
      have split : before ++ [Member.number first] = [] ++ [.number n] := whole
      rw [List.append_inj_left' split rfl]
      exact .number second
  | signed sign n =>
      have split : before ++ [Member.number first] =
          [.operator (.ofSign sign)] ++ [.number n] := whole
      rw [List.append_inj_left' split rfl]
      exact .signed sign second
  | @link earlier op n wellFormed =>
      have split : before ++ [Member.number first] =
          (earlier ++ [.operator op]) ++ [.number n] := by
        rw [whole, List.append_assoc]
        rfl
      rw [List.append_inj_left' split rfl, List.append_assoc]
      exact .link op second wellFormed

namespace Expression

theorem unjoined_of_wellFormed {members : Expression} (wellFormed : WellFormed members) :
    Unjoined members := by
  intro first second inside
  have alternate := wellFormed.isChain.infix inside
  exact False.elim (List.isChain_pair.mp alternate)

theorem joinsNext_append_iff (member : Member) (before : Expression) (first : Member)
    (after : Expression) :
    JoinsNext member (before ++ first :: after) ↔ JoinsNext member (before ++ [first]) := by
  cases before with
  | nil => cases member <;> cases first <;> exact Iff.rfl
  | cons next rest => cases member <;> cases next <;> exact Iff.rfl

/-- The first pair that joins is read as one number, and every member before it by itself. -/
theorem reread_append_join {before : Expression} {first second : MixedNumber}
    (unjoined : Unjoined (before ++ [.number first])) (joins : first.Joins second)
    (after : Expression) :
    reread (before ++ .number first :: .number second :: after) =
      form (before.map Member.standard) ++ .number (first.join second) :: reread after := by
  induction before with
  | nil => exact reread_join joins after
  | cons member rest inductionHypothesis =>
      rw [List.cons_append, unjoined_cons_iff] at unjoined
      have apart : ¬ JoinsNext member (rest ++ .number first :: .number second :: after) := by
        rw [joinsNext_append_iff]
        exact unjoined.1
      rw [List.cons_append, reread_apart apart, inductionHypothesis unjoined.2]
      rfl

/-- Either no two neighbours join, or there is a first pair that does. -/
theorem unjoined_or_exists_first (members : Expression) :
    Unjoined members ∨ ∃ before first second after,
      members = before ++ .number first :: .number second :: after ∧
        first.Joins second ∧ Unjoined (before ++ [.number first]) := by
  have single : ∀ member, Unjoined [member] := by
    intro member first second inside
    have short := inside.length_le
    simp only [List.length_cons, List.length_nil] at short
    omega
  induction members using reread_induction with
  | nil => exact Or.inl (fun first second inside => by cases List.infix_nil.mp inside)
  | join first second rest joins _ =>
      exact Or.inr ⟨[], first, second, rest, rfl, joins, single _⟩
  | apart member rest apart inductionHypothesis =>
      rcases inductionHypothesis with unjoined | ⟨before, first, second, after, rfl, joins, unjoined⟩
      · exact Or.inl (unjoined_cons_iff.mpr ⟨apart, unjoined⟩)
      · refine Or.inr ⟨member :: before, first, second, after, rfl, joins, ?_⟩
        rw [joinsNext_append_iff] at apart
        exact unjoined_cons_iff.mpr ⟨apart, unjoined⟩

theorem exists_number_of_reread {members : Expression} {third : MixedNumber} {later : Expression}
    (head : reread members = .number third :: later) :
    ∃ number rest, members = .number number :: rest := by
  cases members with
  | nil => cases head
  | cons member rest =>
      cases member with
      | number number => exact ⟨number, rest, rfl⟩
      | operator op => cases head

theorem exists_reread_number (number : MixedNumber) (rest : Expression) :
    ∃ third later, reread (.number number :: rest) = .number third :: later := by
  by_cases joins : JoinsNext (.number number) rest
  · cases rest with
    | nil => exact False.elim joins
    | cons next later =>
        cases next with
        | operator op => exact False.elim joins
        | number second => exact ⟨_, _, reread_join joins later⟩
  · exact ⟨_, _, reread_apart joins⟩

/-- Two neighbouring numbers miss an operator if the first ends a well-formed beginning, unless
the beginning fails for its values. -/
theorem evaluateBounded_neighbours {before : Expression} {first : MixedNumber}
    (wellFormed : WellFormed (before ++ [.number first])) (second : MixedNumber)
    (after : Expression) :
    evaluateBounded (before ++ .number first :: .number second :: after) =
      (evaluateBounded (before ++ [.number first])).bind
        fun _ => .error (.operatorExpected (before.length + 1)) := by
  have refused := Evaluation.outcome_run_append_number .bounded wellFormed second after
  rw [List.append_assoc, List.length_append] at refused
  exact refused

/-- Conversely, an operator is missed only where a number follows. -/
theorem exists_number_of_operatorExpected {before rest : Expression} {first : MixedNumber}
    (failed : evaluateBounded (before ++ .number first :: rest) =
      .error (.operatorExpected (before.length + 1))) :
    ∃ third later, rest = .number third :: later := by
  have nonempty : before ++ .number first :: rest ≠ [] := by simp
  rcases Evaluation.offence_or_fails_of_run nonempty failed with ⟨position, offence, -⟩ | ⟨fails, -⟩
  · cases offence with
    | numbers _ next =>
        rw [List.getElem?_append_right (Nat.le_add_right _ 1), Nat.add_sub_cancel_left] at next
        cases rest with
        | nil => cases next
        | cons third later =>
            cases next
            exact ⟨_, later, rfl⟩
  · exact absurd (Arithmetic.isOfValue_of_bounded_fails fails) (Fault.not_isOfValue_operatorExpected _)

/-- The pair of two numbers behind `before` joins, and it is the first offence. -/
structure ExposedPair (members before : Expression) (first second : MixedNumber)
    (after : Expression) : Prop where
  split : members = before ++ .number first :: .number second :: after
  joins : first.Joins second
  wellFormed : WellFormed (before ++ [.number first])

theorem evaluateBounded_standard (before after : Expression) :
    evaluateBounded (form (before.map Member.standard) ++ after) =
      evaluateBounded (before ++ after) := by
  rw [evaluateBounded, evaluateBounded, Evaluation.outcome_run_append,
    Evaluation.outcome_run_append, Evaluation.outcome_advance_standard]

/-- Without an exposed pair, what is read back is evaluated like the original. -/
theorem evaluateBounded_reread {members : Expression}
    (hidden : ∀ before first second after, ¬ ExposedPair members before first second after) :
    evaluateBounded (reread members) = evaluateBounded members := by
  rcases unjoined_or_exists_first members with
    unjoined | ⟨before, first, second, after, rfl, joins, unjoined⟩
  · rw [(reread_eq_standard_iff members).mpr unjoined]
    simpa only [List.append_nil] using evaluateBounded_standard members []
  · have broken : ¬ WellFormed (before ++ [.number first]) :=
      fun wellFormed => hidden before first second after ⟨rfl, joins, wellFormed⟩
    rw [reread_append_join unjoined joins, evaluateBounded_standard]
    exact (Evaluation.outcome_run_of_not_wellFormed broken _ _ _).symm

namespace ExposedPair

variable {members before after : Expression} {first second : MixedNumber}

/-- The original never has a value. -/
theorem evaluateBounded_members (exposed : ExposedPair members before first second after) :
    evaluateBounded members = (evaluateBounded (before ++ [.number first])).bind
      fun _ => .error (.operatorExpected (before.length + 1)) := by
  rcases exposed with ⟨rfl, -, wellFormed⟩
  exact evaluateBounded_neighbours wellFormed second after

theorem evaluateBounded_reread (exposed : ExposedPair members before first second after) :
    evaluateBounded (reread members) =
      evaluateBounded (before ++ .number (first.join second) :: reread after) := by
  rcases exposed with ⟨rfl, joins, wellFormed⟩
  rw [reread_append_join (unjoined_of_wellFormed wellFormed) joins, evaluateBounded_standard]

/-- What is read back misses the same operator only if it gets as far as a further number. -/
theorem evaluateBounded_reread_eq_iff (exposed : ExposedPair members before first second after) :
    evaluateBounded (reread members) = .error (.operatorExpected (before.length + 1)) ↔
      (∃ q, evaluateBounded (before ++ [.number (first.join second)]) = .ok q) ∧
        ∃ third later, after = .number third :: later := by
  have wellFormed := exposed.wellFormed.replace_last (first.join second)
  rw [exposed.evaluateBounded_reread]
  constructor
  · intro failed
    rcases exists_number_of_operatorExpected failed with ⟨third, later, head⟩
    rw [head, evaluateBounded_neighbours wellFormed] at failed
    refine ⟨?_, exists_number_of_reread head⟩
    rcases Except.bind_eq_error_iff.mp failed with earlier | ⟨q, evaluated, -⟩
    · exact absurd (isOfValue_of_wellFormed wellFormed earlier) (Fault.not_isOfValue_operatorExpected _)
    · exact ⟨q, evaluated⟩
  · intro sides
    rcases sides with ⟨⟨q, evaluated⟩, third, later, rfl⟩
    rcases exists_reread_number third later with ⟨number, rest, head⟩
    rw [head, evaluateBounded_neighbours wellFormed, evaluated]
    rfl

end ExposedPair

/-- An expression evaluates like what is read back from its text exactly when, at an exposed
pair, both fail alike: because the members up to the first number of the pair fail as the text
does, or because a third number follows a pair whose two readings both have values. -/
theorem sameOutcome_reread_iff (members : Expression) :
    SameOutcome (reread members).evaluate members.evaluate ↔
      ∀ before first second after, ExposedPair members before first second after ->
        (∃ fault, evaluate (before ++ [.number first]) = .error fault ∧
          (reread members).evaluate = .error fault) ∨
        (∃ total, evaluate (before ++ [.number first]) = .ok total) ∧
          (∃ total, evaluate (before ++ [.number (first.join second)]) = .ok total) ∧
            ∃ third later, after = .number third :: later := by
  simp only [sameOutcome_evaluate_iff, evaluate_eq_error_iff, exists_evaluate_iff]
  constructor
  · intro same before first second after exposed
    rw [exposed.evaluateBounded_members] at same
    cases evaluated : evaluateBounded (before ++ [.number first]) with
    | error fault =>
        rw [evaluated] at same
        exact Or.inl ⟨fault, rfl, same⟩
    | ok q =>
        rw [evaluated] at same
        exact Or.inr ⟨⟨q, rfl⟩, exposed.evaluateBounded_reread_eq_iff.mp same⟩
  · intro alike
    by_cases hidden : ∀ before first second after,
        ¬ ExposedPair members before first second after
    · exact evaluateBounded_reread hidden
    · simp only [not_forall, not_not] at hidden
      rcases hidden with ⟨before, first, second, after, exposed⟩
      rw [exposed.evaluateBounded_members]
      rcases alike before first second after exposed with
        ⟨fault, evaluated, failed⟩ | ⟨⟨q, evaluated⟩, sides⟩
      · rw [evaluated]
        exact failed
      · rw [evaluated]
        exact exposed.evaluateBounded_reread_eq_iff.mpr sides

end Expression

end MixedCalculator
