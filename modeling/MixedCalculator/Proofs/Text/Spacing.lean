import MixedCalculator.Proofs.Outcome
import MixedCalculator.Proofs.Text.Flaw

namespace MixedCalculator

/-!
# Other blanks

A run of blanks is one lexeme, whatever blanks there are and however many.  So the lexemes of a text
stay the same if its runs of blanks are replaced by others.  The positions of faults do not, since
they count characters.
-/

namespace Text

/-- The same text, but for what runs of blanks it has. -/
inductive Respaced : List Char -> List Char -> Prop
  | nil : Respaced [] []
  | other {c : Char} {rest later : List Char} :
      isBlank c = false -> Respaced rest later -> Respaced (c :: rest) (c :: later)
  | blanks {blanks others rest later : List Char} :
      Run isBlank blanks -> Run isBlank others -> Ends isBlank rest -> Respaced rest later ->
      Respaced (blanks ++ rest) (others ++ later)

end Text

namespace Lexeme

/-- Blanks are absorbed by a blank before them, whatever and how many they are. -/
theorem scan_more_blanks (position : Nat) {blanks : List Char} (rest : List Char)
    (areBlank : ∀ c ∈ blanks, Text.isBlank c = true) :
    scan position blank (blanks ++ rest) = scan (position + blanks.length) blank rest := by
  induction blanks generalizing position with
  | nil => rfl
  | cons c more inductionHypothesis =>
      have others := inductionHypothesis (position + 1)
        fun d member => areBlank d (List.mem_cons_of_mem c member)
      have begins : ofChar? c = some blank := by
        rw [ofChar?, if_pos (areBlank c List.mem_cons_self)]
      rw [List.cons_append, scan_blank position _ begins, others, List.length_cons,
        Nat.add_right_comm, Nat.add_assoc]

/-- A run of blanks closes what is before it, unless that is a blank. -/
theorem scan_blanks (position : Nat) (current : Lexeme) {blanks : List Char} (rest : List Char)
    (isRun : Text.Run Text.isBlank blanks) :
    scan position current (blanks ++ rest) = (scan (position + blanks.length) blank rest).map
      (if current = blank then id else (current :: ·)) := by
  by_cases open_blank : current = blank
  · rw [open_blank, if_pos rfl, scan_more_blanks position rest isRun.all]
    cases scan (position + blanks.length) blank rest <;> rfl
  · rcases isRun.exists_cons with ⟨c, more, rfl, isBlank⟩
    have begins : ofChar? c = some blank := by rw [ofChar?, if_pos isBlank]
    have apart : Apart current blank := by
      cases current with
      | blank => exact absurd rfl open_blank
      | numeral value => trivial
      | slash => trivial
      | operator op => trivial
    rw [if_neg open_blank, List.cons_append, scan_cons_of_apart position _ begins apart,
      scan_more_blanks (position + 1) rest
        (fun d member => isRun.all d (List.mem_cons_of_mem c member)),
      List.length_cons, Nat.add_right_comm, Nat.add_assoc]

/-- The lexemes of a text do not depend on the runs of blanks that it has.  Only the positions of
its faults do.  Two blanks run together only within a run, and a run is replaced as a whole. -/
theorem scan_respaced {text respaced : List Char} (isRespaced : Text.Respaced text respaced)
    (position place : Nat) (current : Lexeme) :
    (scan place current respaced).toOption = (scan position current text).toOption := by
  induction isRespaced generalizing position place current with
  | nil => rfl
  | @other c rest later notBlank _ inductionHypothesis =>
      cases begins : ofChar? c with
      | none =>
          simp only [scan, begins]
          rfl
      | some next =>
          by_cases apart : Apart current next
          · rw [scan_cons_of_apart _ _ begins apart, scan_cons_of_apart _ _ begins apart,
              Except.toOption_map, Except.toOption_map,
              inductionHypothesis (position + 1) (place + 1) next]
          · rcases not_apart_cases apart with ⟨-, rfl⟩ | ⟨value, digit, rfl, rfl⟩
            · rcases ofChar?_cases begins with ⟨-, isBlank⟩ | ⟨impossible, -⟩ | ⟨impossible, -⟩ |
                ⟨op, impossible, -⟩
              · rw [notBlank] at isBlank
                cases isBlank
              · cases impossible
              · cases impossible
              · cases impossible
            · simp only [scan, begins]
              split
              · exact inductionHypothesis (position + 1) (place + 1) _
              · rfl
  | blanks isRun isRunToo _ _ inductionHypothesis =>
      rw [scan_blanks place current _ isRunToo, scan_blanks position current _ isRun,
        Except.toOption_map, Except.toOption_map, inductionHypothesis]

end Lexeme

end MixedCalculator
