import Mathlib.Data.List.TakeWhile

namespace MixedCalculator
namespace Text

/-!
# Runs of characters

A reader of digits or blanks goes on as long as there are any.  What it takes is a run: it is not
empty, all of it is of one kind, and the text ends behind it or goes on with another kind.  Where
a text begins with a run, these facts leave no choice of how far the run extends.
-/

/-- At least one character, and no character of another kind. -/
structure Run (kind : Char -> Bool) (run : List Char) : Prop where
  nonempty : run ≠ []
  all : ∀ c ∈ run, kind c = true

/-- A run of the kind does not go on into this text. -/
def Ends (kind : Char -> Bool) (rest : List Char) : Prop :=
  ∀ c later, rest = c :: later -> kind c = false

variable {kind : Char -> Bool}

theorem ends_nil : Ends kind [] := by
  intro c later begins
  cases begins

theorem ends_cons {c : Char} (rest : List Char) (other : kind c = false) :
    Ends kind (c :: rest) := by
  intro d later begins
  cases begins
  exact other

theorem Run.single {c : Char} (isKind : kind c = true) : Run kind [c] where
  nonempty := List.cons_ne_nil c []
  all := by
    intro d member
    cases List.mem_singleton.mp member
    exact isKind

theorem Run.exists_cons {run : List Char} (isRun : Run kind run) :
    ∃ c more, run = c :: more ∧ kind c = true := by
  rcases List.exists_cons_of_ne_nil isRun.nonempty with ⟨c, more, rfl⟩
  exact ⟨c, more, rfl, isRun.all c List.mem_cons_self⟩

/-- Where a run begins, none has ended. -/
theorem Run.not_ends {run : List Char} (isRun : Run kind run) (rest : List Char) :
    ¬ Ends kind (run ++ rest) := by
  intro ends
  rcases isRun.exists_cons with ⟨c, more, rfl, isKind⟩
  exact absurd isKind (Bool.eq_false_iff.mp (ends c (more ++ rest) rfl))

theorem Run.reverse {run : List Char} (isRun : Run kind run) : Run kind run.reverse where
  nonempty := fun empty => isRun.nonempty (List.reverse_eq_nil_iff.mp empty)
  all := fun c member => isRun.all c (List.mem_reverse.mp member)

theorem Run.left_of_append {first second : List Char} (isRun : Run kind (first ++ second))
    (nonempty : first ≠ []) : Run kind first where
  nonempty := nonempty
  all := fun c member => isRun.all c (List.mem_append_left second member)

/-- One more character of the kind makes a longer run. -/
theorem Run.snoc {run : List Char} (isRun : Run kind run) {c : Char} (isKind : kind c = true) :
    Run kind (run ++ [c]) where
  nonempty := List.append_ne_nil_of_left_ne_nil isRun.nonempty [c]
  all := by
    intro d member
    rcases List.mem_append.mp member with inRun | last
    · exact isRun.all d inRun
    · exact (Run.single isKind).all d last

theorem Run.takeWhile_append {run rest : List Char} (isRun : Run kind run)
    (ends : Ends kind rest) : (run ++ rest).takeWhile kind = run := by
  rw [List.takeWhile_append_of_pos isRun.all]
  cases rest with
  | nil => exact List.append_nil run
  | cons c later =>
      rw [List.takeWhile_cons_of_neg (Bool.eq_false_iff.mp (ends c later rfl)), List.append_nil]

/-- A text begins with one run of a kind at most. -/
theorem Run.eq_of_append_eq {first second rest later : List Char} (isRun : Run kind first)
    (isRunToo : Run kind second) (ends : Ends kind rest) (endsToo : Ends kind later)
    (same : first ++ rest = second ++ later) : first = second ∧ rest = later := by
  have runs : first = second := by
    rw [← isRun.takeWhile_append ends, same, isRunToo.takeWhile_append endsToo]
  subst runs
  exact ⟨rfl, List.append_cancel_left same⟩

/-- The run that a text begins with. -/
theorem exists_run_append {c : Char} (isKind : kind c = true) (rest : List Char) :
    ∃ run later, c :: rest = run ++ later ∧ Run kind run ∧ Ends kind later := by
  refine ⟨c :: rest.takeWhile kind, rest.dropWhile kind, ?_, ⟨List.cons_ne_nil _ _, ?_⟩, ?_⟩
  · rw [List.cons_append, List.takeWhile_append_dropWhile]
  · intro d member
    rcases List.mem_cons.mp member with rfl | inRun
    · exact isKind
    · exact List.mem_takeWhile_imp inRun
  · intro d later begins
    have stopped := List.head?_dropWhile_not kind rest
    rw [begins] at stopped
    exact stopped

/-- From the left, either a character of another kind is left behind or a whole run. -/
theorem run_induction (kind : Char -> Bool) {motive : List Char -> Prop} (nil : motive [])
    (other : ∀ c rest, kind c = false -> motive rest -> motive (c :: rest))
    (run : ∀ run rest, Run kind run -> Ends kind rest -> motive rest -> motive (run ++ rest))
    (text : List Char) : motive text := by
  induction length : text.length using Nat.strong_induction_on generalizing text with
  | _ bound inductionHypothesis =>
      cases text with
      | nil => exact nil
      | cons c rest =>
          cases isKind : kind c with
          | false =>
              exact other c rest isKind (inductionHypothesis rest.length (length ▸ Nat.lt_succ_self _)
                rest rfl)
          | true =>
              rcases exists_run_append isKind rest with ⟨begun, later, split, isRun, ends⟩
              have positive := List.length_pos_iff.mpr isRun.nonempty
              rw [split] at length ⊢
              rw [List.length_append] at length
              exact run begun later isRun ends
                (inductionHypothesis later.length (by omega) later rfl)

end Text
end MixedCalculator
