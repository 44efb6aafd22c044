import MixedCalculator.Expression.Reading
import MixedCalculator.Proofs.Text.Flaw

namespace MixedCalculator

/-!
# Texts that are refused

A text is read exactly if it has no flaw, and otherwise the fault is that of the first one.  The
text is cut only once, but a fraction or a mixed number is found by looking at digits that lie
ahead.  This does not move a fault forward: between the first digits and those ahead there are
blanks and a slash at most, and they are no flaws.
-/

namespace Text

variable {first rest : List Char} {position : Nat} {fault : Fault}

/-- Lexemes if the rest of a text has no flaw, or else its first one, at its place in the text. -/
def Verdict (rest : List Char) (position : Nat) (outcome : Except Fault (List Lexeme)) : Prop :=
  (Flawless rest ∧ ∃ lexemes, outcome = .ok lexemes) ∨
    ∃ place fault, FirstFlaw rest place fault ∧ outcome = .error (fault.behind position)

/-- What is judged of the rest is judged of the whole, if the beginning has no flaws to add. -/
theorem Verdict.behind {outcome : Except Fault (List Lexeme)}
    (verdict : Verdict rest (position + first.length) outcome)
    (parted : Ends Char.isDigit first.reverse ∨ Ends Char.isDigit rest)
    (in_rest : ∀ place fault, Flaw (first ++ rest) place fault ->
      ∃ other reason, Flaw rest other reason ∧ place = first.length + other ∧
        fault = reason.behind first.length) : Verdict (first ++ rest) position outcome := by
  rcases verdict with ⟨flawless, lexemes, cut⟩ | ⟨place, fault, isFirst, refused⟩
  · refine Or.inl ⟨?_, lexemes, cut⟩
    intro place fault flaw
    rcases in_rest place fault flaw with ⟨other, reason, inRest, -, -⟩
    exact flawless other reason inRest
  · refine Or.inr ⟨_, _, ⟨isFirst.flaw.behind parted, ?_⟩, ?_⟩
    · intro later reason flaw
      rcases in_rest later reason flaw with ⟨other, moved, inRest, rfl, -⟩
      exact Nat.add_le_add_left (isFirst.first other moved inRest) _
    · rw [refused, Fault.behind_behind]

/-- Another lexeme in front makes no difference to what is judged. -/
theorem Verdict.map {outcome : Except Fault (List Lexeme)} (verdict : Verdict rest position outcome)
    (change : List Lexeme -> List Lexeme) : Verdict rest position (outcome.map change) := by
  rcases verdict with ⟨flawless, lexemes, rfl⟩ | ⟨place, fault, isFirst, rfl⟩
  · exact Or.inl ⟨flawless, change lexemes, rfl⟩
  · exact Or.inr ⟨place, fault, isFirst, rfl⟩

end Text

namespace Lexeme

/-- The scan of a text that does not go on with the digits before it. -/
theorem verdict_scan (text : List Char) : ∀ (position : Nat) (current : Lexeme),
    (∀ value, Apart current (numeral value)) ∨ Text.Ends Char.isDigit text ->
      Text.Verdict text position (scan position current text) := by
  induction text using Text.run_induction Char.isDigit with
  | nil =>
      intro position current _
      exact Or.inl ⟨Text.flawless_nil, [current], rfl⟩
  | other c rest notDigit inductionHypothesis =>
      intro position current _
      cases begins : ofChar? c with
      | none =>
          have refused : ¬ Text.Admitted c := by
            rw [← exists_ofChar?_iff, begins]
            rintro ⟨lexeme, none_is_some⟩
            cases none_is_some
          refine Or.inr ⟨0, .unexpectedCharacter 0 c, ⟨.character [] c rest rfl refused, ?_⟩, ?_⟩
          · exact fun _ _ _ => Nat.zero_le _
          · simp only [scan, begins]
            rfl
      | some next =>
          have admitted : Text.Admitted c := (exists_ofChar?_iff c).mp ⟨next, begins⟩
          have notNumeral : ∀ value, Apart next (numeral value) := by
            intro value
            rcases ofChar?_cases begins with
              ⟨rfl, -⟩ | ⟨-, digit⟩ | ⟨rfl, -⟩ | ⟨op, rfl, -, -⟩
            · trivial
            · rw [notDigit] at digit
              cases digit
            · trivial
            · trivial
          have judged := inductionHypothesis (position + 1) next (Or.inl notNumeral)
          have whole : ∀ outcome, Text.Verdict rest (position + 1) outcome ->
              Text.Verdict (c :: rest) position outcome := by
            intro outcome verdict
            change Text.Verdict ([c] ++ rest) position outcome
            refine verdict.behind (Or.inl (Text.ends_cons [] notDigit)) ?_
            intro place fault flaw
            rcases Text.flaw_cons_cases notDigit flaw with ⟨-, -, refused⟩ | inRest
            · exact absurd admitted refused
            · exact inRest
          by_cases apart : Apart current next
          · rw [scan_cons_of_apart position rest begins apart]
            exact whole _ (judged.map (current :: ·))
          · rcases not_apart_cases apart with ⟨rfl, rfl⟩ | ⟨value, digit, -, rfl⟩
            · rw [scan_blank position rest begins]
              exact whole _ judged
            · exact (notNumeral value).elim
  | run run rest isRun ends inductionHypothesis =>
      intro position current open_or_ends
      have apart : ∀ value, Apart current (numeral value) :=
        open_or_ends.resolve_right (isRun.not_ends rest)
      by_cases small : Numeral.extend 0 run < UInt32.size
      · rw [scan_run position rest isRun apart small]
        apply Text.Verdict.map
        refine (inductionHypothesis _ _ (Or.inr ends)).behind (Or.inr ends) ?_
        intro place fault flaw
        rcases Text.flaw_run_cases isRun ends flaw with ⟨-, -, large⟩ | inRest
        · exact absurd small (Nat.not_lt.mpr large)
        · exact inRest
      · have large := Nat.le_of_not_lt small
        rw [scan_run_large position rest isRun apart large]
        refine Or.inr ⟨0, .overflow, ⟨?_, fun _ _ _ => Nat.zero_le _⟩, rfl⟩
        exact .numeral [] run rest rfl ⟨isRun, Text.ends_nil, ends⟩ large

end Lexeme

namespace Text

/-- Without a flaw are the texts whose characters are admitted and whose numerals are small. -/
theorem flawless_iff (text : List Char) :
    Flawless text ↔
      (∀ c ∈ text, Admitted c) ∧
        ∀ before digits after, text = before ++ digits ++ after -> DigitRun before digits after ->
          Numeral.extend 0 digits ≤ 4294967295 := by
  constructor
  · intro flawless
    refine ⟨fun c member => ?_, fun before digits after split isRun => ?_⟩
    · by_contra refused
      rcases List.append_of_mem member with ⟨before, after, split⟩
      exact flawless _ _ (.character before c after split refused)
    · by_contra large
      exact flawless _ _ (.numeral before digits after split isRun (Nat.lt_of_not_le large))
  · rintro ⟨admitted, small⟩ position fault flaw
    cases flaw with
    | character before c after split refused =>
        exact refused (admitted c (by rw [split]; simp))
    | numeral before digits after split isRun large =>
        exact absurd large (Nat.not_le.mpr (Nat.lt_succ_of_le (small before digits after split isRun)))

/-- A run of digits and a character that is not admitted begin at different positions. -/
theorem not_digits_of_refused {before digits after earlier later : List Char} {c : Char}
    (refused : ¬ Admitted c) (isRun : Run Char.isDigit digits)
    (same : before ++ digits ++ after = earlier ++ c :: later)
    (place : before.length = earlier.length) : False := by
  rw [List.append_assoc] at same
  have here := (List.append_inj same place).2
  rcases isRun.exists_cons with ⟨d, more, rfl, digit⟩
  cases here
  exact refused (Or.inr (Or.inl digit))

/-- One position has one flaw at most. -/
theorem Flaw.fault_eq {text : List Char} {position : Nat} {fault other : Fault}
    (flaw : Flaw text position fault) (flawToo : Flaw text position other) : fault = other := by
  cases flaw with
  | character before c after split refused =>
      generalize place : before.length = position at flawToo
      cases flawToo with
      | character earlier d later splitToo _ =>
          have here := (List.append_inj (split.symm.trans splitToo) place).2
          cases here
          rfl
      | numeral earlier digits later splitToo isRun _ =>
          exact (not_digits_of_refused refused isRun.run (splitToo.symm.trans split)
            place.symm).elim
  | numeral before digits after split isRun _ =>
      generalize place : before.length = position at flawToo
      cases flawToo with
      | character earlier d later splitToo refused =>
          exact (not_digits_of_refused refused isRun.run (split.symm.trans splitToo) place).elim
      | numeral earlier digitsToo later splitToo _ _ => rfl

theorem FirstFlaw.fault_eq {text : List Char} {position place : Nat} {fault other : Fault}
    (isFirst : FirstFlaw text position fault) (isFirstToo : FirstFlaw text place other) :
    fault = other := by
  have same := Nat.le_antisymm (isFirst.first _ _ isFirstToo.flaw)
    (isFirstToo.first _ _ isFirst.flaw)
  subst same
  exact isFirst.flaw.fault_eq isFirstToo.flaw

end Text

namespace Expression

theorem ofText_verdict (text : String) :
    (Text.Flawless text.toList ∧ ∃ members, ofText text = .ok members) ∨
      ∃ position fault, Text.FirstFlaw text.toList position fault ∧ ofText text = .error fault := by
  rcases Lexeme.verdict_scan text.toList 0 .blank (Or.inl fun _ => trivial) with
    ⟨flawless, lexemes, cut⟩ | ⟨position, fault, isFirst, refused⟩
  · refine Or.inl ⟨flawless, ofLexemes lexemes, ?_⟩
    rw [ofText, ofChars, Lexeme.ofText, cut]
    rfl
  · refine Or.inr ⟨position, fault, isFirst, ?_⟩
    rw [ofText, ofChars, Lexeme.ofText, refused, fault.behind_zero]
    rfl

/-- A text is read exactly if all of its characters are admitted and all of its runs of digits are
small enough.  Otherwise the fault is that of the flaw that begins first: of the character, with
its position, or of the numeral. -/
theorem read_unless_first_flaw (text : String) :
    ((∃ members, ofText text = .ok members) ↔
        (∀ c ∈ text.toList, Text.Admitted c) ∧
        ∀ before digits after, text.toList = before ++ digits ++ after ->
          Text.DigitRun before digits after -> Numeral.extend 0 digits ≤ 4294967295) ∧
      ∀ fault, ofText text = .error fault ↔ ∃ position, Text.FirstFlaw text.toList position fault := by
  have flawless_iff := Text.flawless_iff text.toList
  rcases ofText_verdict text with ⟨flawless, members, isRead⟩ | ⟨position, fault, isFirst, refused⟩
  · refine ⟨⟨fun _ => flawless_iff.mp flawless, fun _ => ⟨members, isRead⟩⟩, ?_⟩
    intro fault
    rw [isRead]
    constructor
    · intro impossible
      cases impossible
    · rintro ⟨position, isFirst⟩
      exact absurd isFirst.flaw (flawless position fault)
  · constructor
    · constructor
      · rintro ⟨members, isRead⟩
        rw [refused] at isRead
        cases isRead
      · intro small
        exact absurd isFirst.flaw (flawless_iff.mpr small position fault)
    · intro other
      rw [refused]
      constructor
      · intro same
        cases same
        exact ⟨position, isFirst⟩
      · rintro ⟨place, isFirstToo⟩
        rw [isFirst.fault_eq isFirstToo]

/-- The numeral is beyond the bounds, but it comes too late. -/
example : ofText "7 ? 4294967296" = .error (.unexpectedCharacter 2 '?') := by decide

end Expression

end MixedCalculator
