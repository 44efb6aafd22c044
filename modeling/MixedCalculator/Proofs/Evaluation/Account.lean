import MixedCalculator.Proofs.Expression.Grammar
import MixedCalculator.Evaluation.Basic

namespace MixedCalculator

/-!
# The account of an evaluation

An evaluation reports one step for every operator of a chain of factors, and one addition for every
term once it is complete.  What it has to report is said here on the structure of an expression,
without regard to the order in which the members are read.  A chain that is not complete has its
steps reported all the same, so the account of an expression that is refused may break off within a
term.
-/

variable {Value : Type} (arithmetic : Arithmetic Value)

/-- The steps of a chain of factors, and the product that they come to.  A step holds its operator,
the operand that it converts, and the product after it. -/
inductive Term.Reports : Term -> List (Event Value) -> Value -> Prop
  | number {number : MixedNumber} {product : Value} :
      arithmetic.ofMixed number = .ok product -> Reports (.number number) [] product
  | times {chain : Term} {steps : List (Event Value)} {product operand result : Value}
      {number : MixedNumber} :
      Reports chain steps product -> arithmetic.ofMixed number = .ok operand ->
      arithmetic.apply .times product operand = .ok result ->
      Reports (.times chain number) (steps ++ [.factorApplied .times operand result]) result
  | dividedBy {chain : Term} {steps : List (Event Value)} {product operand result : Value}
      {number : MixedNumber} :
      Reports chain steps product -> arithmetic.ofMixed number = .ok operand ->
      arithmetic.apply .dividedBy product operand = .ok result ->
      Reports (.dividedBy chain number) (steps ++ [.factorApplied .dividedBy operand result]) result

/-- Complete terms with their events, and the sum that they come to.  Behind the steps of a term
stands its addition to the sum before it, which is zero at first. -/
inductive Completed : Expression -> List (Event Value) -> Value -> Prop
  | none : Completed [] [] arithmetic.zero
  | unsigned {term : Term} {steps : List (Event Value)} {product total : Value} :
      term.Reports arithmetic steps product ->
      arithmetic.apply .plus arithmetic.zero product = .ok total ->
      Completed term.members (steps ++ [.termAdded .positive product total]) total
  | signed {before : Expression} {events steps : List (Event Value)} {sum product total : Value}
      {sign : Sign} {term : Term} :
      Completed before events sum -> term.Reports arithmetic steps product ->
      arithmetic.apply (.ofSign sign) sum product = .ok total ->
      Completed (before ++ .operator (.ofSign sign) :: term.members)
        (events ++ (steps ++ [.termAdded sign product total])) total

/-- Complete terms up to where another one begins, with the sign of that one.  Only the first may
begin without a sign. -/
inductive Begun : Expression -> List (Event Value) -> Value -> Sign -> Prop
  | unsigned : Begun [] [] arithmetic.zero .positive
  | signed {before : Expression} {events : List (Event Value)} {sum : Value} (sign : Sign) :
      Completed arithmetic before events sum ->
      Begun (before ++ [.operator (.ofSign sign)]) events sum sign

/-- The chain of factors before these members ends here: none of them continues it. -/
def Expression.EndsTerm (after : Expression) : Prop :=
  ∀ op rest, after = .operator op :: rest -> op.isMultiplicative = false

/-- An account of an expression up to some point: complete terms with their events, and then perhaps
the steps of a term that is not complete. -/
inductive Account (members : Expression) : List (Event Value) -> Prop
  | complete {before after : Expression} {events : List (Event Value)} {total : Value} :
      Completed arithmetic before events total -> members = before ++ after ->
      (before ≠ [] -> after.EndsTerm) -> Account members events
  | unfinished {before after : Expression} {term : Term} {events steps : List (Event Value)}
      {sum product : Value} {sign : Sign} :
      Begun arithmetic before events sum sign -> term.Reports arithmetic steps product ->
      members = before ++ term.members ++ after -> Account members (events ++ steps)

variable {arithmetic}

/-- A term that is begun and computed is complete once it is added. -/
theorem Begun.completed {before : Expression} {events steps : List (Event Value)}
    {sum product total : Value} {sign : Sign} {term : Term}
    (begun : Begun arithmetic before events sum sign)
    (reports : term.Reports arithmetic steps product)
    (added : arithmetic.apply (.ofSign sign) sum product = .ok total) :
    Completed arithmetic (before ++ term.members)
      (events ++ (steps ++ [.termAdded sign product total])) total := by
  cases begun with
  | unsigned => exact .unsigned reports added
  | signed sign completed =>
      rw [List.append_assoc]
      exact .signed completed reports added

theorem Term.members_ne_nil (term : Term) : term.members ≠ [] := by
  cases term with
  | number n => exact List.cons_ne_nil _ _
  | times chain n => exact List.append_ne_nil_of_right_ne_nil _ (List.cons_ne_nil _ _)
  | dividedBy chain n => exact List.append_ne_nil_of_right_ne_nil _ (List.cons_ne_nil _ _)

/-- Complete terms are an account if there is nothing more. -/
theorem Completed.account {members : Expression} {events : List (Event Value)} {total : Value}
    (completed : Completed arithmetic members events total) : Account arithmetic members events := by
  refine .complete completed (List.append_nil members).symm ?_
  rintro - op rest impossible
  cases impossible

/-- A member that is not a multiplication or a division ends a chain of factors. -/
theorem Expression.endsTerm_number (number : MixedNumber) (rest : Expression) :
    Expression.EndsTerm (.number number :: rest) := by
  intro op later same
  cases same

theorem Expression.endsTerm_sign (sign : Sign) (rest : Expression) :
    Expression.EndsTerm (.operator (.ofSign sign) :: rest) := by
  intro op later same
  cases same
  cases sign <;> rfl

/-! ## No account goes beyond the terms -/

/-- The event reports a step on the way, neither a result nor a refusal. -/
def Event.IsStep : Event Value -> Prop
  | factorApplied _ _ _ => True
  | termAdded _ _ _ => True
  | evaluated _ _ => False
  | refused _ _ => False

theorem Event.IsStep.message_ne {event : Event Value} (isStep : event.IsStep) :
    event.message ≠ "expression évaluée" := by
  cases event with
  | factorApplied op operand product => simp [message]
  | termAdded sign product sum => simp [message]
  | evaluated sum members => exact False.elim isStep
  | refused fault members => exact False.elim isStep

theorem Event.IsStep.level_ne {event : Event Value} (isStep : event.IsStep) :
    event.level ≠ .warn := by
  cases event with
  | factorApplied op operand product => exact Level.noConfusion
  | termAdded sign product sum => exact Level.noConfusion
  | evaluated sum members => exact False.elim isStep
  | refused fault members => exact False.elim isStep

theorem Term.Reports.isStep {term : Term} {steps : List (Event Value)} {product : Value}
    (reports : term.Reports arithmetic steps product) : ∀ event ∈ steps, event.IsStep := by
  induction reports with
  | number _ => exact List.forall_mem_nil _
  | times _ _ _ inductionHypothesis =>
      exact List.forall_mem_append.mpr ⟨inductionHypothesis, List.forall_mem_singleton.mpr trivial⟩
  | dividedBy _ _ _ inductionHypothesis =>
      exact List.forall_mem_append.mpr ⟨inductionHypothesis, List.forall_mem_singleton.mpr trivial⟩

theorem Completed.isStep {members : Expression} {events : List (Event Value)} {total : Value}
    (completed : Completed arithmetic members events total) : ∀ event ∈ events, event.IsStep := by
  induction completed with
  | none => exact List.forall_mem_nil _
  | unsigned reports _ =>
      exact List.forall_mem_append.mpr ⟨reports.isStep, List.forall_mem_singleton.mpr trivial⟩
  | signed _ reports _ inductionHypothesis =>
      exact List.forall_mem_append.mpr ⟨inductionHypothesis,
        List.forall_mem_append.mpr ⟨reports.isStep, List.forall_mem_singleton.mpr trivial⟩⟩

theorem Account.isStep {members : Expression} {events : List (Event Value)}
    (account : Account arithmetic members events) : ∀ event ∈ events, event.IsStep := by
  cases account with
  | complete completed _ _ => exact completed.isStep
  | unfinished begun reports _ =>
      cases begun with
      | unsigned => exact reports.isStep
      | signed sign completed =>
          exact List.forall_mem_append.mpr ⟨completed.isStep, reports.isStep⟩

/-! ## Counting

Every operator of a chain stands between two of its numbers.  So a sum has as many terms as it has
numbers more than multiplications and divisions.
-/

/-- The member is an operator that continues a chain of factors. -/
def Member.isMultiplicative : Member -> Bool
  | number _ => false
  | operator op => op.isMultiplicative

def Member.isNumber : Member -> Bool
  | number _ => true
  | operator _ => false

/-- The sign of a term counts for neither. -/
theorem Member.countP_isMultiplicative_sign (sign : Sign) (rest : Expression) :
    (Member.operator (.ofSign sign) :: rest).countP isMultiplicative =
      rest.countP isMultiplicative := by
  cases sign <;> rfl

theorem Member.countP_isNumber_sign (sign : Sign) (rest : Expression) :
    (Member.operator (.ofSign sign) :: rest).countP isNumber = rest.countP isNumber := rfl

/-- How many terms a sum has. -/
def SignedSum.size : SignedSum -> Nat
  | single _ => 1
  | signed _ _ => 1
  | add sum _ _ => sum.size + 1

theorem Term.countP_isNumber (term : Term) :
    term.members.countP Member.isNumber = term.members.countP Member.isMultiplicative + 1 := by
  induction term with
  | number n => rfl
  | times chain n inductionHypothesis =>
      simp only [members, List.countP_append, inductionHypothesis]
      rfl
  | dividedBy chain n inductionHypothesis =>
      simp only [members, List.countP_append, inductionHypothesis]
      rfl

theorem SignedSum.countP_isNumber (sum : SignedSum) :
    sum.members.countP Member.isNumber =
      sum.members.countP Member.isMultiplicative + sum.size := by
  induction sum with
  | single term => exact term.countP_isNumber
  | signed sign term =>
      rw [members, Member.countP_isNumber_sign, Member.countP_isMultiplicative_sign]
      exact term.countP_isNumber
  | add sum sign term inductionHypothesis =>
      rw [members, List.countP_append, List.countP_append, Member.countP_isNumber_sign,
        Member.countP_isMultiplicative_sign, inductionHypothesis, term.countP_isNumber, size]
      omega

/-- One step for every operator of a chain. -/
theorem Term.Reports.countP_trace {term : Term} {steps : List (Event Value)} {product : Value}
    (reports : term.Reports arithmetic steps product) :
    steps.countP (fun event => event.level = .trace) =
      term.members.countP Member.isMultiplicative := by
  induction reports with
  | number _ => rfl
  | times _ _ _ inductionHypothesis =>
      simp only [Term.members, List.countP_append, inductionHypothesis]
      rfl
  | dividedBy _ _ _ inductionHypothesis =>
      simp only [Term.members, List.countP_append, inductionHypothesis]
      rfl

/-- No step of a chain is an addition. -/
theorem Term.Reports.countP_steps_added {term : Term} {steps : List (Event Value)} {product : Value}
    (reports : term.Reports arithmetic steps product) :
    steps.countP (fun event => event.message = "terme accumulé") = 0 := by
  induction reports with
  | number _ => rfl
  | times _ _ _ inductionHypothesis =>
      rw [List.countP_append, inductionHypothesis]
      simp [Event.message]
  | dividedBy _ _ _ inductionHypothesis =>
      rw [List.countP_append, inductionHypothesis]
      simp [Event.message]

/-- A complete term has one addition. -/
theorem Term.Reports.countP_added {term : Term} {steps : List (Event Value)} {product : Value}
    (reports : term.Reports arithmetic steps product) (sign : Sign) (total : Value) :
    (steps ++ [Event.termAdded sign product total]).countP
      (fun event => event.message = "terme accumulé") = 1 := by
  rw [List.countP_append, reports.countP_steps_added]
  simp [Event.message]

theorem Completed.countP_trace {members : Expression} {events : List (Event Value)} {total : Value}
    (completed : Completed arithmetic members events total) :
    events.countP (fun event => event.level = .trace) =
      members.countP Member.isMultiplicative := by
  induction completed with
  | none => rfl
  | unsigned reports _ =>
      rw [List.countP_append, reports.countP_trace]
      rfl
  | signed _ reports _ inductionHypothesis =>
      rw [List.countP_append, List.countP_append, List.countP_append, inductionHypothesis,
        reports.countP_trace, Member.countP_isMultiplicative_sign]
      rfl

/-- Complete terms have one addition each, and every one of them has a number more than
multiplications and divisions. -/
theorem Completed.countP_added {members : Expression} {events : List (Event Value)} {total : Value}
    (completed : Completed arithmetic members events total) :
    members.countP Member.isNumber = members.countP Member.isMultiplicative +
      events.countP (fun event => event.message = "terme accumulé") := by
  induction completed with
  | none => rfl
  | unsigned reports _ => rw [Term.countP_isNumber, reports.countP_added]
  | signed _ reports _ inductionHypothesis =>
      rw [List.countP_append, List.countP_append, List.countP_append,
        Member.countP_isNumber_sign, Member.countP_isMultiplicative_sign, inductionHypothesis,
        Term.countP_isNumber, reports.countP_added]
      omega

end MixedCalculator
