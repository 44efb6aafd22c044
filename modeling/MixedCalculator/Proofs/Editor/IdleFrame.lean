import MixedCalculator.Proofs.Editor.Reachability
import MixedCalculator.Proofs.Evaluation.Exactness
import MixedCalculator.Proofs.Evaluation.Likeness
import MixedCalculator.Proofs.Screen.Settled

namespace MixedCalculator

/-!
# Frames in which nothing is done

The fields of a number hold no more than half of what can be read from a text.  Whether an
expression still means the same once it has been drawn depends on what its numbers convert to.
A number that is out of bounds can become one that is not.  A fraction such as `4294967294/2`
can be held although its numerator lies beyond its field, and it becomes another one.
-/

namespace MixedNumber

/-- Conversions come to the same exactly when the values that can be held do. -/
theorem sameOutcome_toFraction_iff (first second : MixedNumber) :
    SameOutcome first.toFraction second.toFraction ↔
      Arithmetic.bounded.ofMixed first = Arithmetic.bounded.ofMixed second := by
  rw [sameOutcome_iff, ← Arithmetic.fractions_bounded.ofMixed first,
    ← Arithmetic.fractions_bounded.ofMixed second]
  rfl

end MixedNumber

namespace Expression

/-- An expression means the same once it is drawn, if each number beyond its fields does. -/
theorem sameOutcome_confine {members : Expression}
    (alike : ∀ number, .number number ∈ members -> ¬ number.WithinFields ->
      SameOutcome number.confine.toFraction number.toFraction) :
    SameOutcome members.confine.evaluate members.evaluate := by
  rw [sameOutcome_evaluate_iff]
  apply Evaluation.outcome_run_of_alike
  apply alike_map
  intro member isMember
  cases member with
  | operator op => exact .operator op
  | number value =>
      by_cases within : value.WithinFields
      · rw [Member.confine, (MixedNumber.confine_eq_iff value).mpr within]
        exact .number rfl
      · exact .number ((MixedNumber.sameOutcome_toFraction_iff _ _).mp (alike value isMember within))

/-- An expression of one number has the value of that number. -/
theorem evaluateBounded_number (number : MixedNumber) :
    evaluateBounded [.number number] = Arithmetic.bounded.ofMixed number := by
  change (Evaluation.run .bounded (SignedSum.single (.number number)).members).outcome = _
  rw [Evaluation.outcome_run_members]
  change (Arithmetic.bounded.ofMixed number).bind
    (Arithmetic.bounded.apply (.ofSign .positive) 0) = _
  cases converted : Arithmetic.bounded.ofMixed number with
  | error fault => rfl
  | ok q =>
      have nonzero := Arithmetic.den_ne_zero_of_bounded converted
      rcases (Arithmetic.bounded_ofMixed_eq_ok_iff nonzero q).mp converted with ⟨holdable, rfl⟩
      change Arithmetic.bounded.apply (.ofSign .positive) 0 number.value = _
      rw [Arithmetic.bounded_ofSign, zero_add]
      exact hold_of_holdable holdable

end Expression

namespace Editor

/-- The editor after a frame in which nothing is done. -/
def idle (editor : Editor) : Editor :=
  (Screen.frame [] editor).editor

theorem idle_eq (editor : Editor) :
    editor.idle = { editor with members := editor.members.confine, focused := false } := by
  have settled := Screen.drawMembers_nil editor.members
  rw [idle, frame_eq_settled List.not_mem_nil (Nat.zero_le 1)]
  exact congrArg (fun after => Editor.mk after editor.result editor.notice editor.entry false) settled

/-- A frame in which nothing is done leaves the result, the notice and the line of text alone.
It leaves the members alone exactly when their fields can hold them, and what they evaluate to
whenever each number beyond its fields converts as it does once drawn.  For a single number
there is no other way.  A second such frame changes nothing at all. -/
theorem idle_changes_only_beyond_fields (editor : Editor) :
    editor.idle.result = editor.result ∧ editor.idle.notice = editor.notice ∧
      editor.idle.entry = editor.entry ∧
      (editor.idle.members = editor.members ↔
        ∀ number, .number number ∈ editor.members -> number.WithinFields) ∧
      ((∀ number, .number number ∈ editor.members -> ¬ number.WithinFields ->
          SameOutcome number.confine.toFraction number.toFraction) ->
        SameOutcome editor.idle.members.evaluate editor.members.evaluate) ∧
      (∀ number, editor.members = [.number number] ->
        (SameOutcome editor.idle.members.evaluate editor.members.evaluate ↔
          SameOutcome number.confine.toFraction number.toFraction)) ∧
      editor.idle.idle = editor.idle := by
  rw [idle_eq editor.idle, idle_eq editor]
  refine ⟨rfl, rfl, rfl, editor.members.confine_eq_iff, Expression.sameOutcome_confine, ?_, ?_⟩
  · intro number alone
    rw [alone, Expression.sameOutcome_evaluate_iff, MixedNumber.sameOutcome_toFraction_iff]
    exact iff_of_eq (congrArg₂ Eq (Expression.evaluateBounded_number number.confine)
      (Expression.evaluateBounded_number number))
  · rw [Expression.confine_confine]

/-- The zero `0/4294967295`, whose denominator is beyond its field. -/
def zeroBeyond : Editor :=
  (initial.perform (.type "0/4294967295")).perform .importEntry

/-- Drawn as `0/2147483647`, it is another number that evaluates to the same. -/
theorem idle_keeps_zero_beyond :
    zeroBeyond.Reachable ∧
      zeroBeyond.members = [.number (.positive 0 0 4294967295)] ∧
      zeroBeyond.idle.members ≠ zeroBeyond.members ∧
      SameOutcome zeroBeyond.idle.members.evaluate zeroBeyond.members.evaluate ∧
      (SameOutcome zeroBeyond.idle.members.evaluate zeroBeyond.members.evaluate ↔
        SameOutcome (MixedNumber.positive 0 0 4294967295).confine.toFraction
          (MixedNumber.positive 0 0 4294967295).toFraction) ∧
      zeroBeyond.idle.idle = zeroBeyond.idle := by
  have members : zeroBeyond.members = [.number (.positive 0 0 4294967295)] := by decide
  have converts : SameOutcome (MixedNumber.positive 0 0 4294967295).confine.toFraction
      (MixedNumber.positive 0 0 4294967295).toFraction := by decide
  rcases idle_changes_only_beyond_fields zeroBeyond with
    ⟨-, -, -, unchanged, kept, alone, settled⟩
  refine ⟨.perform _ (.perform _ .initial), members, ?_, kept ?_, alone _ members, settled⟩
  · intro same
    have within := unchanged.mp same (.positive 0 0 4294967295)
    rw [members] at within
    exact absurd (within List.mem_cons_self) (by decide)
  · intro number member _
    rw [members] at member
    cases List.mem_singleton.mp member
    exact converts

/-- The fraction `4294967294/2`, whose numerator is beyond its field. -/
def evenBeyond : Editor :=
  (initial.perform (.type "4294967294/2")).perform .importEntry

/-- The fraction is the whole number `2147483647`, but it is drawn as half of that. -/
theorem idle_halves_even_beyond :
    evenBeyond.Reachable ∧
      evenBeyond.members.evaluate = .ok ⟨2147483647, 1, by decide⟩ ∧
      evenBeyond.idle.members.evaluate = .ok ⟨2147483647, 2, by decide⟩ ∧
      ¬ SameOutcome evenBeyond.idle.members.evaluate evenBeyond.members.evaluate := by
  have whole : evenBeyond.members.evaluate = .ok ⟨2147483647, 1, by decide⟩ := rfl
  have half : evenBeyond.idle.members.evaluate = .ok ⟨2147483647, 2, by decide⟩ := rfl
  refine ⟨.perform _ (.perform _ .initial), whole, half, ?_⟩
  rw [whole, half]
  decide

end Editor

end MixedCalculator
