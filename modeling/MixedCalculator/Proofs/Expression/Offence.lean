import MixedCalculator.Fault
import MixedCalculator.Proofs.Expression.Grammar

namespace MixedCalculator

/-!
# Offences against the grammar

An offence is a position in an expression at which the grammar is broken, with the fault that
names it: an operator in front that is no sign, two numbers or two operators next to each
other, or an operator at the end.  The position is that of the second of two neighbours, and of
the missing number at the end.

Nothing up to the end of a well-formed beginning is an offence.  That is shown by the
alternation of numbers and operators.
-/

/-- A position at which an expression breaks the grammar. -/
inductive Offence (members : Expression) : Nat -> Fault -> Prop
  | unsigned {op : Operator} :
      members[0]? = some (.operator op) -> op.sign? = none ->
      Offence members 0 (.unexpectedOperator 0 op)
  | numbers {position : Nat} {first second : MixedNumber} :
      members[position]? = some (.number first) ->
      members[position + 1]? = some (.number second) ->
      Offence members (position + 1) (.operatorExpected (position + 1))
  | operators {position : Nat} {first second : Operator} :
      members[position]? = some (.operator first) ->
      members[position + 1]? = some (.operator second) ->
      Offence members (position + 1) (.numberExpected (position + 1))
  | ending {op : Operator} :
      members.getLast? = some (.operator op) ->
      Offence members members.length (.numberExpected members.length)

/-- The least position of an offence, or the length of an expression without any. -/
structure FirstOffence (members : Expression) (position : Nat) : Prop where
  none_before : ∀ earlier < position, ∀ fault, ¬ Offence members earlier fault
  here : (∃ fault, Offence members position fault) ∨ position = members.length

theorem Offence.position_le {members : Expression} {position : Nat} {fault : Fault}
    (offence : Offence members position fault) : position ≤ members.length := by
  cases offence with
  | unsigned _ _ => exact Nat.zero_le _
  | numbers _ second => exact Nat.le_of_lt (List.getElem?_eq_some_iff.mp second).1
  | operators _ second => exact Nat.le_of_lt (List.getElem?_eq_some_iff.mp second).1
  | ending _ => exact Nat.le_refl _

theorem exists_firstOffence (members : Expression) :
    ∃ position, FirstOffence members position := by
  classical
  have stops : ∃ position,
      (∃ fault, Offence members position fault) ∨ position = members.length :=
    ⟨members.length, Or.inr rfl⟩
  refine ⟨Nat.find stops, ?_, Nat.find_spec stops⟩
  intro earlier before fault offence
  exact Nat.find_min stops before (Or.inl ⟨fault, offence⟩)

/-- An offence with none before it is the first one. -/
theorem FirstOffence.eq_of_offence {members : Expression} {position first : Nat} {fault : Fault}
    (isFirst : FirstOffence members position) (offence : Offence members first fault)
    (none_before : ∀ earlier < first, ∀ other, ¬ Offence members earlier other) :
    position = first := by
  rcases Nat.lt_trichotomy position first with before | same | after
  · rcases isFirst.here with ⟨other, here⟩ | atEnd
    · exact absurd here (none_before position before other)
    · have := offence.position_le
      omega
  · exact same
  · exact absurd offence (isFirst.none_before first after fault)

/-! ## Alternation -/

/-- A number next to an operator, or an operator next to a number. -/
def Alternate : Member -> Member -> Prop
  | .number _, .operator _ => True
  | .operator _, .number _ => True
  | _, _ => False

namespace WellFormed

theorem exists_last {members : Expression} (wellFormed : WellFormed members) :
    ∃ before number, members = before ++ [.number number] := by
  cases wellFormed with
  | number n => exact ⟨[], n, rfl⟩
  | signed sign n => exact ⟨[.operator (.ofSign sign)], n, rfl⟩
  | link op n _ => exact ⟨_ ++ [.operator op], n, by rw [List.append_assoc]; rfl⟩

theorem ne_append_operator {members before : Expression} {op : Operator}
    (wellFormed : WellFormed members) : members ≠ before ++ [.operator op] := by
  intro ends
  rcases wellFormed.exists_last with ⟨earlier, number, rfl⟩
  have same := List.append_inj_right' ends rfl
  cases same

theorem isChain_append_operator {members : Expression} (wellFormed : WellFormed members)
    (alternate : members.IsChain Alternate) (op : Operator) :
    (members ++ [Member.operator op]).IsChain Alternate := by
  rcases wellFormed.exists_last with ⟨before, number, rfl⟩
  rw [List.append_assoc, List.singleton_append, List.isChain_append_cons_cons]
  exact ⟨alternate, trivial, List.IsChain.singleton _⟩

theorem isChain {members : Expression} (wellFormed : WellFormed members) :
    members.IsChain Alternate := by
  induction wellFormed with
  | number n => exact List.IsChain.singleton _
  | signed sign n => exact List.isChain_pair.mpr trivial
  | link op n wellFormed inductionHypothesis =>
      rw [List.isChain_append_cons_cons]
      exact ⟨wellFormed.isChain_append_operator inductionHypothesis op, trivial,
        List.IsChain.singleton _⟩

theorem sign_of_head {members : Expression} (wellFormed : WellFormed members) {op : Operator}
    (head : members[0]? = some (.operator op)) : op.sign? ≠ none := by
  induction wellFormed with
  | number n => cases head
  | signed sign n =>
      cases head
      rw [Operator.sign?_ofSign]
      exact Option.some_ne_none sign
  | link last n wellFormed inductionHypothesis =>
      rcases wellFormed.exists_last with ⟨before, number, rfl⟩
      apply inductionHypothesis
      rwa [List.getElem?_append_left (by simp)] at head

end WellFormed

/-- Two neighbours in an alternating expression are not of one kind. -/
theorem alternate_of_getElem? {members : Expression} (alternate : members.IsChain Alternate)
    {position : Nat} {first second : Member} (here : members[position]? = some first)
    (next : members[position + 1]? = some second) : Alternate first second := by
  rcases List.getElem?_eq_some_iff.mp here with ⟨_, rfl⟩
  rcases List.getElem?_eq_some_iff.mp next with ⟨inside, rfl⟩
  exact alternate.getElem position inside

/-- An alternating beginning behind a sign or a number contains no offence. -/
theorem not_offence_of_isChain {before : Expression} (alternate : before.IsChain Alternate)
    (opens : ∀ op, before[0]? = some (.operator op) -> op.sign? ≠ none) (after : Expression)
    {position : Nat} (inside : position < before.length) (fault : Fault) :
    ¬ Offence (before ++ after) position fault := by
  intro offence
  cases offence with
  | unsigned head unsigned =>
      rw [List.getElem?_append_left inside] at head
      exact opens _ head unsigned
  | numbers first second =>
      rw [List.getElem?_append_left (Nat.lt_of_succ_lt inside)] at first
      rw [List.getElem?_append_left inside] at second
      exact alternate_of_getElem? alternate first second
  | operators first second =>
      rw [List.getElem?_append_left (Nat.lt_of_succ_lt inside)] at first
      rw [List.getElem?_append_left inside] at second
      exact alternate_of_getElem? alternate first second
  | ending _ =>
      rw [List.length_append] at inside
      omega

theorem WellFormed.not_offence {before : Expression} (wellFormed : WellFormed before)
    (after : Expression) {position : Nat} (inside : position < before.length) (fault : Fault) :
    ¬ Offence (before ++ after) position fault :=
  not_offence_of_isChain wellFormed.isChain (fun _ => wellFormed.sign_of_head) after inside fault

/-- The same with one operator more, which may still be waiting for its number. -/
theorem WellFormed.not_offence_append_operator {before : Expression}
    (wellFormed : WellFormed before) (op : Operator) (after : Expression) {position : Nat}
    (inside : position < (before ++ [Member.operator op]).length) (fault : Fault) :
    ¬ Offence (before ++ [.operator op] ++ after) position fault := by
  refine not_offence_of_isChain (wellFormed.isChain_append_operator wellFormed.isChain op) ?_
    after inside fault
  intro first head
  rcases wellFormed.exists_last with ⟨earlier, number, rfl⟩
  rw [List.getElem?_append_left (by simp)] at head
  exact wellFormed.sign_of_head head

theorem offence_operators_of_append (before : Expression) (first second : Operator)
    (after : Expression) :
    Offence (before ++ [.operator first] ++ .operator second :: after)
      (before ++ [Member.operator first]).length
      (.numberExpected (before ++ [Member.operator first]).length) := by
  rw [List.length_append, List.length_singleton]
  have here : (before ++ [.operator first] ++ .operator second :: after)[before.length]? =
      some (.operator first) := by simp
  have next : (before ++ [.operator first] ++ .operator second :: after)[before.length + 1]? =
      some (.operator second) := by simp
  exact .operators here next

theorem offence_numbers_of_append (before : Expression) (first second : MixedNumber)
    (after : Expression) :
    Offence (before ++ [.number first] ++ .number second :: after)
      (before ++ [Member.number first]).length
      (.operatorExpected (before ++ [Member.number first]).length) := by
  rw [List.length_append, List.length_singleton]
  have here : (before ++ [.number first] ++ .number second :: after)[before.length]? =
      some (.number first) := by simp
  have next : (before ++ [.number first] ++ .number second :: after)[before.length + 1]? =
      some (.number second) := by simp
  exact .numbers here next

theorem WellFormed.no_offence {members : Expression} (wellFormed : WellFormed members)
    (position : Nat) (fault : Fault) : ¬ Offence members position fault := by
  intro offence
  cases offence with
  | unsigned head unsigned => exact wellFormed.sign_of_head head unsigned
  | numbers first second => exact alternate_of_getElem? wellFormed.isChain first second
  | operators first second => exact alternate_of_getElem? wellFormed.isChain first second
  | ending last =>
      rcases List.getLast?_eq_some_iff.mp last with ⟨before, ends⟩
      exact wellFormed.ne_append_operator ends

/-- The first offence lies beyond every well-formed beginning. -/
theorem FirstOffence.length_le {part members : Expression} {position : Nat}
    (isFirst : FirstOffence members position) (wellFormed : WellFormed part)
    (isPrefix : part <+: members) : part.length ≤ position := by
  rcases isPrefix with ⟨after, rfl⟩
  by_contra shorter
  rcases isFirst.here with ⟨fault, offence⟩ | atEnd
  · exact wellFormed.not_offence after (Nat.lt_of_not_le shorter) fault offence
  · rw [List.length_append] at atEnd
    omega

end MixedCalculator
