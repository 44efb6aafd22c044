import MixedCalculator.Expression.Reading
import MixedCalculator.Proofs.Text.Concatenation

namespace MixedCalculator
namespace Expression

/-!
# Reading texts put together

Lexemes are grouped by looking ahead, past a blank if need be, so two texts do not simply add up: digits
at the end of the first one may become a whole part in front of a fraction in the second.  A blank
closes the first text for good as soon as no digits follow it.  This is so in front of an operator, and
behind the operator another blank keeps its slash from being the slash of a fraction.
-/

open Lexeme

/-- Lexemes in front of a blank are grouped by themselves, unless digits follow it.  What a numeral
lacks for a fraction or a mixed number, the blank does not supply. -/
theorem ofLexemes_append_blank (earlier : List Lexeme) {later : List Lexeme}
    (noDigits : ∀ value rest, later ≠ .numeral value :: rest) :
    ofLexemes (earlier ++ .blank :: later) = ofLexemes earlier ++ ofLexemes later := by
  induction earlier using ofLexemes.induct with
  | case1 => rfl
  | case2 whole num den rest inductionHypothesis =>
      exact congrArg (.number (.positive whole num den) :: ·) inductionHypothesis
  | case3 num den rest inductionHypothesis =>
      exact congrArg (.number (.positive 0 num den) :: ·) inductionHypothesis
  | case4 whole rest noMixed noFraction inductionHypothesis =>
      have stillNoFraction : ∀ den more,
          rest ++ .blank :: later = .slash :: .numeral den :: more -> False := by
        intro den more same
        rcases rest with _ | ⟨_, _ | ⟨_, rest⟩⟩
        · cases same
        · cases same
        · cases same
          exact noFraction den _ rfl
      have stillNoMixed : ∀ num den more,
          rest ++ .blank :: later = .blank :: .numeral num :: .slash :: .numeral den :: more ->
            False := by
        intro num den more same
        rcases rest with _ | ⟨_, _ | ⟨_, _ | ⟨_, _ | ⟨_, rest⟩⟩⟩⟩
        · exact noDigits num _ (List.cons.inj same).2
        · cases same
        · cases same
        · cases same
        · cases same
          exact noMixed num den _ rfl
      rw [List.cons_append, ofLexemes.eq_4 whole _ stillNoMixed stillNoFraction,
        ofLexemes.eq_4 whole rest noMixed noFraction, inductionHypothesis, List.cons_append]
  | case5 rest inductionHypothesis => exact inductionHypothesis
  | case6 rest inductionHypothesis =>
      exact congrArg (.operator .dividedBy :: ·) inductionHypothesis
  | case7 op rest inductionHypothesis => exact congrArg (.operator op :: ·) inductionHypothesis

/-- A blank at the end of the lexemes stands for nothing. -/
theorem ofLexemes_append_singleton_blank (lexemes : List Lexeme) :
    ofLexemes (lexemes ++ [.blank]) = ofLexemes lexemes := by
  have noDigits : ∀ value rest, ([] : List Lexeme) ≠ .numeral value :: rest :=
    fun _ _ impossible => by cases impossible
  rw [ofLexemes_append_blank lexemes noDigits, ofLexemes, List.append_nil]

/-- The members that a text is closed with do not depend on blanks at its end. -/
theorem ofLexemes_closed {lexemes closed : List Lexeme}
    (ends : lexemes = closed ∨ lexemes = closed ++ [.blank]) :
    ofLexemes closed = ofLexemes lexemes := by
  rcases ends with rfl | rfl
  · rfl
  · exact (ofLexemes_append_singleton_blank closed).symm

/-! ## Blanks at the ends of a text -/

/-- Blanks in front of a text only move its characters. -/
theorem ofChars_blanks_append {blanks : List Char} (text : List Char)
    (areBlank : ∀ c ∈ blanks, Text.isBlank c = true) :
    ofChars (blanks ++ text) = (ofChars text).mapError (Fault.behind blanks.length) := by
  have moved := scan_behind blanks.length 0 .blank text
  rw [ofChars, Lexeme.ofText, scan_more_blanks 0 text areBlank, Nat.zero_add,
    ← Nat.add_zero blanks.length, moved, Except.map_mapError]
  rfl

/-- Blanks behind a text change nothing. -/
theorem ofChars_append_blanks {blanks : List Char} (text : List Char)
    (areBlank : ∀ c ∈ blanks, Text.isBlank c = true) :
    ofChars (text ++ blanks) = ofChars text := by
  by_cases none_there : blanks = []
  · rw [none_there, List.append_nil]
  · have closes := ofText_append_blanks_cases text [] (Text.Run.mk none_there areBlank)
    rw [List.append_nil] at closes
    unfold ofChars
    rcases closes with ⟨fault, refused, refusedToo⟩ | ⟨lexemes, closed, cut, ends, cutToo⟩
    · rw [refused, refusedToo]
    · rw [cut, cutToo]
      change Except.ok (ofLexemes (closed ++ [.blank])) = Except.ok (ofLexemes lexemes)
      rw [ofLexemes_append_singleton_blank, ofLexemes_closed ends]

/-! ## An operator between two texts -/

/-- An operator by itself is cut into one lexeme behind the supposed blank, and this lexeme is grouped
with nothing that follows it. -/
theorem exists_ofText_operator {c : Char} {op : Operator}
    (denotes : Operator.ofSymbol? c = some op) :
    ∃ lexeme, Lexeme.ofText [c] = .ok [.blank, lexeme] ∧ lexeme ≠ .blank ∧
      (∀ value, lexeme ≠ .numeral value) ∧
      ∀ later, ofLexemes (lexeme :: later) = .operator op :: ofLexemes later := by
  rcases not_kind_of_ofSymbol? denotes with ⟨notDigit, notBlank⟩
  rcases (exists_ofChar?_iff c).mpr (Or.inr (Or.inr ⟨op, denotes⟩)) with ⟨lexeme, begins⟩
  rcases ofChar?_cases begins with ⟨-, blank⟩ | ⟨-, digit⟩ | ⟨rfl, rfl⟩ | ⟨other, rfl, -, denotesToo⟩
  · rw [notBlank] at blank
    cases blank
  · rw [notDigit] at digit
    cases digit
  · cases denotes
    exact ⟨.slash, rfl, Lexeme.noConfusion, fun _ => Lexeme.noConfusion, fun _ => rfl⟩
  · cases Option.some.inj (denotes.symm.trans denotesToo)
    refine ⟨.operator op, ?_, Lexeme.noConfusion, fun _ => Lexeme.noConfusion, fun _ => rfl⟩
    have apart : Apart .blank (.operator op) := trivial
    rw [Lexeme.ofText, scan_cons_of_apart 0 [] begins apart]
    rfl

/-- Blanks around an operator keep it apart from what is in front of it and behind it.  It is a text
of its own between the two, cut off on both sides. -/
theorem ofText_around_operator_cases {c : Char} {op : Operator} (first second : List Char)
    (denotes : Operator.ofSymbol? c = some op) :
    (∃ fault, Lexeme.ofText first = .error fault ∧
        Lexeme.ofText (first ++ ([' '] ++ ([c] ++ ([' '] ++ second)))) = .error fault) ∨
      ∃ earlier together, Lexeme.ofText first = .ok earlier ∧
        Lexeme.ofText (first ++ ([' '] ++ ([c] ++ ([' '] ++ second)))) =
          ((Lexeme.ofText second).mapError (Fault.behind (first.length + 3))).map together ∧
        ∀ later, ofLexemes (together later) =
          ofLexemes earlier ++ .operator op :: ofLexemes later := by
  have isBlank : Text.Run Text.isBlank [' '] := .single (by decide)
  rcases exists_ofText_operator denotes with ⟨lexeme, isCut, notBlank, notNumeral, grouped⟩
  rcases ofText_append_blanks_cases [c] second isBlank with
    ⟨fault, refused, -⟩ | ⟨lexemes, closed, cut, ends, behindOperator⟩
  · rw [isCut] at refused
    cases refused
  have closed_eq : closed = [.blank, lexeme] := by
    rw [isCut] at cut
    cases cut
    rcases ends with rfl | longer
    · rfl
    · have last := congrArg List.getLast? longer
      rw [List.getLast?_concat] at last
      exact absurd (Option.some.inj last) notBlank
  subst closed_eq
  rcases ofText_append_blanks_cases first ([c] ++ ([' '] ++ second)) isBlank with
    refused | ⟨earlier, closed, cutFirst, ends, behindFirst⟩
  · exact Or.inl refused
  refine Or.inr ⟨earlier, fun later => closed ++ [.blank, lexeme] ++ later, cutFirst, ?_, ?_⟩
  · rw [behindFirst, behindOperator]
    cases Lexeme.ofText second with
    | error fault =>
        exact congrArg Except.error (Fault.behind_behind (first.length + 1) 2 fault)
    | ok later => exact congrArg Except.ok (List.append_assoc closed [.blank, lexeme] later).symm
  · intro later
    have noDigits : ∀ value rest, lexeme :: later ≠ .numeral value :: rest :=
      fun value rest same => notNumeral value (List.cons.inj same).1
    change ofLexemes (closed ++ [.blank, lexeme] ++ later) = _
    rw [List.append_assoc, List.cons_append, List.singleton_append,
      ofLexemes_append_blank closed noDigits, grouped, ofLexemes_closed ends]

/-- A text in front of an operator with a space on either side, and a text behind it, are read as they
would be by themselves.  If both can be read, the operator stands between their members.  The fault
of the first text precedes that of the second one, whose characters are counted from the beginning
of the first. -/
theorem ofText_around_operator (first second : String) {c : Char} {op : Operator}
    (denotes : Operator.ofSymbol? c = some op) :
    ofText (first ++ " " ++ c.toString ++ " " ++ second) = do
      let earlier ← ofText first
      let later ← (ofText second).mapError (Fault.behind (first.length + 3))
      return earlier ++ .operator op :: later := by
  have chars : (first ++ " " ++ c.toString ++ " " ++ second).toList =
      first.toList ++ ([' '] ++ ([c] ++ ([' '] ++ second.toList))) := by
    simp [Char.toString]
  unfold ofText ofChars
  rw [chars]
  rcases ofText_around_operator_cases first.toList second.toList denotes with
    ⟨fault, refused, refusedToo⟩ | ⟨earlier, together, cut, goesOn, grouped⟩
  · rw [refused, refusedToo]
    rfl
  · rw [cut, goesOn, String.length_toList]
    cases Lexeme.ofText second.toList with
    | error fault => rfl
    | ok later => exact congrArg Except.ok (grouped later)

/-- Although the `5` stands in front of `3/4`, and the slash between digits, two numbers are divided.  The
question mark has the position 2 in `3 ?`, and the position 9 in the whole text. -/
theorem ofText_around_operator_division :
    Operator.ofSymbol? '/' = some .dividedBy ∧ Operator.ofSymbol? '÷' = some .dividedBy ∧
      ofText ("5" ++ " " ++ '/'.toString ++ " " ++ "3/4") =
        .ok [.number (.positive 5 0 1), .operator .dividedBy, .number (.positive 0 3 4)] ∧
      ofText ("1 2 " ++ " " ++ '÷'.toString ++ " " ++ "3 ?") = .error (.unexpectedCharacter 9 '?') :=
  ⟨rfl, rfl, (ofText_around_operator "5" "3/4" rfl).trans (by decide),
    (ofText_around_operator "1 2 " "3 ?" rfl).trans (by decide)⟩

/-- Without the spaces the slash joins the digits on both sides of it. -/
example : ofText "5/3/4" =
    .ok [.number (.positive 0 5 3), .operator .dividedBy, .number (.positive 4 0 1)] := by decide

end Expression
end MixedCalculator
