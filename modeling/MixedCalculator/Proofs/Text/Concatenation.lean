import MixedCalculator.Proofs.Text.Spacing

namespace MixedCalculator
namespace Lexeme

/-!
# Texts put together

A scan goes from left to right and never looks ahead.  What it makes of a text is therefore settled by
the text alone, whatever comes behind it, except that the last lexeme may still grow.  Nor does it
matter how much stands in front, except for the positions of faults.

A blank between two texts lets nothing grow.  Either text is then cut as it would be by itself.
-/

/-- The place where a scan begins shows in the positions of faults only. -/
theorem scan_behind (distance position : Nat) (current : Lexeme) (text : List Char) :
    scan (distance + position) current text =
      (scan position current text).mapError (Fault.behind distance) := by
  induction text generalizing position current with
  | nil => rfl
  | cons c rest inductionHypothesis =>
      cases begins : ofChar? c with
      | none =>
          simp only [scan, begins]
          rfl
      | some next =>
          by_cases apart : Apart current next
          · rw [scan_cons_of_apart _ _ begins apart, scan_cons_of_apart _ _ begins apart,
              Nat.add_assoc, inductionHypothesis, Except.map_mapError]
          · rcases not_apart_cases apart with ⟨rfl, rfl⟩ | ⟨value, digit, rfl, rfl⟩
            · rw [scan_blank _ _ begins, scan_blank _ _ begins, Nat.add_assoc,
                inductionHypothesis]
            · simp only [scan, begins]
              split
              · exact inductionHypothesis (position + 1) _
              · rfl

/-- What is refused in the first text is refused, whatever text comes behind it.  If nothing is,
the scan goes on from the last lexeme of the first text. -/
theorem scan_append_cases (position : Nat) (current : Lexeme) (first second : List Char) :
    (∃ fault, scan position current first = .error fault ∧
        scan position current (first ++ second) = .error fault) ∨
      ∃ before last, scan position current first = .ok (before ++ [last]) ∧
        scan position current (first ++ second) =
          (scan (position + first.length) last second).map (before ++ ·) := by
  induction first generalizing position current with
  | nil =>
      refine Or.inr ⟨[], current, rfl, ?_⟩
      rw [List.nil_append, List.length_nil, Nat.add_zero]
      cases scan position current second <;> rfl
  | cons c rest inductionHypothesis =>
      cases begins : ofChar? c with
      | none => exact Or.inl ⟨.unexpectedCharacter position c, by simp only [scan, begins],
          by simp only [List.cons_append, scan, begins]⟩
      | some next =>
          have further : position + (c :: rest).length = position + 1 + rest.length := by
            rw [List.length_cons, Nat.add_right_comm, Nat.add_assoc]
          rw [List.cons_append, further]
          by_cases apart : Apart current next
          · rw [scan_cons_of_apart _ _ begins apart, scan_cons_of_apart _ _ begins apart]
            rcases inductionHypothesis (position + 1) next with
              ⟨fault, refused, refusedToo⟩ | ⟨before, last, cut, goesOn⟩
            · exact Or.inl ⟨fault, by rw [refused]; rfl, by rw [refusedToo]; rfl⟩
            · refine Or.inr ⟨current :: before, last, by rw [cut]; rfl, ?_⟩
              rw [goesOn]
              cases scan (position + 1 + rest.length) last second <;> rfl
          · rcases not_apart_cases apart with ⟨rfl, rfl⟩ | ⟨value, digit, rfl, rfl⟩
            · rw [scan_blank _ _ begins, scan_blank _ _ begins]
              exact inductionHypothesis (position + 1) blank
            · simp only [scan, begins]
              split
              · exact inductionHypothesis (position + 1) _
              · exact Or.inl ⟨.overflow, rfl, rfl⟩

/-- A text behind blanks is cut by itself.  The blanks close the text in front of them, and they are
one lexeme with a blank at its end. -/
theorem ofText_append_blanks_cases {blanks : List Char} (first rest : List Char)
    (isRun : Text.Run Text.isBlank blanks) :
    (∃ fault, ofText first = .error fault ∧ ofText (first ++ (blanks ++ rest)) = .error fault) ∨
      ∃ lexemes closed, ofText first = .ok lexemes ∧ (lexemes = closed ∨ lexemes = closed ++ [blank]) ∧
        ofText (first ++ (blanks ++ rest)) =
          ((ofText rest).mapError (Fault.behind (first.length + blanks.length))).map
            (closed ++ ·) := by
  rcases scan_append_cases 0 blank first (blanks ++ rest) with refused | ⟨before, last, cut, goesOn⟩
  · exact Or.inl refused
  · have behind := scan_behind (first.length + blanks.length) 0 blank rest
    rw [Nat.add_zero] at behind
    rw [Nat.zero_add, scan_blanks _ _ _ isRun, behind] at goesOn
    refine Or.inr ⟨before ++ [last], if last = blank then before else before ++ [last], cut, ?_, ?_⟩
    · split
      · next isBlank => exact Or.inr (by rw [isBlank])
      · exact Or.inl rfl
    · unfold ofText
      rw [goesOn]
      split
      · cases scan 0 blank rest <;> rfl
      · cases scan 0 blank rest with
        | error fault => rfl
        | ok later => exact congrArg Except.ok (List.append_cons before last later)

end Lexeme
end MixedCalculator
