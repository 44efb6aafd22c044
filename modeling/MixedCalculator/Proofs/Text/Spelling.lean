import MixedCalculator.Proofs.Text.Flaw

namespace MixedCalculator
namespace Lexeme

/-!
# What lexemes stand for in a text

The lexemes of a text are spelled by its characters, each character belonging to one of them.
Blanks and numerals are spelled by whole runs, since no two neighbours of either kind are left
apart.  So a text that begins with a run begins with the lexeme of that run.
-/

/-- The characters stand for the lexeme. -/
inductive SpelledBy : Lexeme -> List Char -> Prop
  | blank {blanks : List Char} : Text.Run Text.isBlank blanks -> SpelledBy .blank blanks
  | numeral {digits : List Char} :
      Text.Run Char.isDigit digits -> Numeral.extend 0 digits < UInt32.size ->
      SpelledBy (.numeral (UInt32.ofNat (Numeral.extend 0 digits))) digits
  | slash : SpelledBy .slash ['/']
  | operator {c : Char} {op : Operator} :
      c ≠ '/' -> Operator.ofSymbol? c = some op -> SpelledBy (.operator op) [c]

/-- The characters of a text stand for the lexemes, no two of which run together. -/
inductive Spelled : List Char -> List Lexeme -> Prop
  | nil : Spelled [] []
  | cons {lexeme : Lexeme} {chars rest : List Char} {later : List Lexeme} :
      lexeme.SpelledBy chars -> (∀ next ∈ later.head?, lexeme.Apart next) -> Spelled rest later ->
      Spelled (chars ++ rest) (lexeme :: later)

/-! ## What a scan cuts off -/

/-- A character by itself stands for the lexeme that it begins. -/
theorem spelledBy_of_ofChar? {c : Char} {lexeme : Lexeme} (begins : ofChar? c = some lexeme) :
    lexeme.SpelledBy [c] := by
  rcases ofChar?_cases begins with ⟨rfl, isBlank⟩ | ⟨rfl, digit⟩ | ⟨rfl, rfl⟩ | ⟨op, rfl, other, denotes⟩
  · exact .blank (.single isBlank)
  · have value : Numeral.digitValue c = Numeral.extend 0 [c] := (Nat.zero_add _).symm
    have small := (UInt32.ofNat (Numeral.digitValue c)).toNat_lt
    rw [toNat_ofNat_digitValue digit] at small
    rw [value] at small ⊢
    exact .numeral (.single digit) small
  · exact .slash
  · exact .operator other denotes

/-- One more digit, and the numeral that it extends. -/
theorem scan_digit (position : Nat) {digits : List Char} {c : Char} (rest : List Char)
    (small : Numeral.extend 0 digits < UInt32.size) (digit : c.isDigit = true) :
    scan position (.numeral (UInt32.ofNat (Numeral.extend 0 digits))) (c :: rest) =
      if Numeral.extend 0 (digits ++ [c]) < UInt32.size then
        scan (position + 1) (.numeral (UInt32.ofNat (Numeral.extend 0 (digits ++ [c])))) rest
      else .error .overflow := by
  rw [scan, ofChar?_digit digit]
  simp only [toNat_ofNat_digitValue digit, UInt32.toNat_ofNat_of_lt' small, Numeral.extend_append]
  rfl

/-- A scan cuts a text into lexemes that its characters stand for.  The first of them has grown
from the current one, so it runs together with nothing else than that. -/
theorem spelled_of_scan {position : Nat} {current : Lexeme} {chars text : List Char}
    {lexemes : List Lexeme} (scanned : scan position current text = .ok lexemes)
    (spelled : current.SpelledBy chars) :
    Spelled (chars ++ text) lexemes ∧
      ∃ first later, lexemes = first :: later ∧ ∀ before, Apart before current -> Apart before first := by
  induction text generalizing position current chars lexemes with
  | nil =>
      cases scanned
      refine ⟨.cons spelled ?_ .nil, current, [], rfl, fun _ apart => apart⟩
      intro next none_there
      cases none_there
  | cons c rest inductionHypothesis =>
      cases begins : ofChar? c with
      | none =>
          rw [scan, begins] at scanned
          cases scanned
      | some next =>
          by_cases apart : Apart current next
          · rw [scan_cons_of_apart position rest begins apart] at scanned
            cases continued : scan (position + 1) next rest with
            | error fault =>
                rw [continued] at scanned
                cases scanned
            | ok later =>
                rw [continued] at scanned
                cases scanned
                rcases inductionHypothesis continued (spelledBy_of_ofChar? begins) with
                  ⟨spelledLater, first, others, rfl, like⟩
                refine ⟨.cons spelled ?_ spelledLater, current, _, rfl, fun _ before => before⟩
                intro following isFirst
                cases isFirst
                exact like current apart
          · rcases not_apart_cases apart with ⟨rfl, rfl⟩ | ⟨value, digitValue, rfl, rfl⟩
            · rw [scan_blank position rest begins] at scanned
              cases spelled with
              | blank isRun =>
                  cases spelledBy_of_ofChar? begins with
                  | blank isBlank =>
                      have longer := isRun.snoc (isBlank.all c List.mem_cons_self)
                      rw [List.append_cons]
                      exact inductionHypothesis scanned (.blank longer)
            · rcases ofChar?_cases begins with ⟨impossible, -⟩ | ⟨-, digit⟩ | ⟨impossible, -⟩ |
                ⟨op, impossible, -, -⟩
              · cases impossible
              · cases spelled with
                | numeral isRun small =>
                    rw [scan_digit position rest small digit] at scanned
                    split at scanned
                    · next longer_small =>
                        have longer := SpelledBy.numeral (isRun.snoc digit) longer_small
                        rcases inductionHypothesis scanned longer with
                          ⟨spelledLonger, first, later, shape, like⟩
                        rw [List.append_cons]
                        exact ⟨spelledLonger, first, later, shape,
                          fun before apart => like before (apart.numeral _)⟩
                    · cases scanned
              · cases impossible
              · cases impossible

/-! ## What lexemes begin with -/

/-- The first character for a lexeme tells which kind of lexeme it is. -/
theorem SpelledBy.exists_cons {lexeme : Lexeme} {chars : List Char}
    (spelled : lexeme.SpelledBy chars) :
    ∃ c more, chars = c :: more ∧ (c.isDigit = true -> ∃ value, lexeme = .numeral value) ∧
      (Text.isBlank c = true -> lexeme = .blank) := by
  cases spelled with
  | blank isRun =>
      rcases isRun.exists_cons with ⟨c, more, rfl, isBlank⟩
      refine ⟨c, more, rfl, fun digit => ?_, fun _ => rfl⟩
      rw [Text.isBlank_of_isDigit digit] at isBlank
      cases isBlank
  | numeral isRun _ =>
      rcases isRun.exists_cons with ⟨c, more, rfl, digit⟩
      refine ⟨c, more, rfl, fun _ => ⟨_, rfl⟩, fun isBlank => ?_⟩
      rw [Text.isBlank_of_isDigit digit] at isBlank
      cases isBlank
  | slash =>
      exact ⟨'/', [], rfl, fun digit => absurd digit (by decide),
        fun isBlank => absurd isBlank (by decide)⟩
  | @operator c op _ denotes =>
      rcases not_kind_of_ofSymbol? denotes with ⟨notDigit, notBlank⟩
      refine ⟨c, [], rfl, fun digit => ?_, fun isBlank => ?_⟩
      · rw [notDigit] at digit
        cases digit
      · rw [notBlank] at isBlank
        cases isBlank

variable {rest : List Char} {later : List Lexeme}

/-- Nothing that stands apart from a numeral begins with a digit. -/
theorem Spelled.ends_digits (spelled : Spelled rest later) {value : UInt32}
    (apart : ∀ next ∈ later.head?, Apart (.numeral value) next) : Text.Ends Char.isDigit rest := by
  cases spelled with
  | nil => exact Text.ends_nil
  | cons first _ _ =>
      rcases first.exists_cons with ⟨c, more, rfl, numeral, -⟩
      refine Text.ends_cons _ (Bool.eq_false_iff.mpr fun digit => ?_)
      rcases numeral digit with ⟨other, rfl⟩
      exact apart _ rfl

/-- Nothing that stands apart from a blank begins with one. -/
theorem Spelled.ends_blanks (spelled : Spelled rest later)
    (apart : ∀ next ∈ later.head?, Apart .blank next) : Text.Ends Text.isBlank rest := by
  cases spelled with
  | nil => exact Text.ends_nil
  | cons first _ _ =>
      rcases first.exists_cons with ⟨c, more, rfl, -, blank⟩
      refine Text.ends_cons _ (Bool.eq_false_iff.mpr fun isBlank => ?_)
      cases blank isBlank
      exact apart _ rfl

/-! ## What the first lexeme stands for -/

theorem Spelled.of_numeral {text : List Char} {value : UInt32}
    (spelled : Spelled text (.numeral value :: later)) :
    ∃ digits rest, text = digits ++ rest ∧ value = UInt32.ofNat (Numeral.extend 0 digits) ∧
      Text.Run Char.isDigit digits ∧ Numeral.extend 0 digits < UInt32.size ∧
      Text.Ends Char.isDigit rest ∧ Spelled rest later := by
  cases spelled with
  | cons first apart others =>
      cases first with
      | numeral isRun small =>
          exact ⟨_, _, rfl, rfl, isRun, small, others.ends_digits apart, others⟩

theorem Spelled.of_blank {text : List Char} (spelled : Spelled text (.blank :: later)) :
    ∃ blanks rest, text = blanks ++ rest ∧ Text.Run Text.isBlank blanks ∧ Spelled rest later := by
  cases spelled with
  | cons first _ others =>
      cases first with
      | blank isRun => exact ⟨_, _, rfl, isRun, others⟩

theorem Spelled.of_slash {text : List Char} (spelled : Spelled text (.slash :: later)) :
    ∃ rest, text = '/' :: rest ∧ Spelled rest later := by
  cases spelled with
  | cons first _ others =>
      cases first with
      | slash => exact ⟨_, rfl, others⟩

theorem Spelled.of_operator {text : List Char} {op : Operator}
    (spelled : Spelled text (.operator op :: later)) :
    ∃ c rest, text = c :: rest ∧ Operator.ofSymbol? c = some op ∧ Spelled rest later := by
  cases spelled with
  | cons first _ others =>
      cases first with
      | operator _ denotes => exact ⟨_, _, rfl, denotes, others⟩

/-! ## What a text begins with -/

/-- A text that begins with a run of digits begins with the numeral that they spell. -/
theorem Spelled.begins_numeral {run : List Char} {lexemes : List Lexeme}
    (spelled : Spelled (run ++ rest) lexemes) (isRun : Text.Run Char.isDigit run)
    (ends : Text.Ends Char.isDigit rest) :
    ∃ later, lexemes = .numeral (UInt32.ofNat (Numeral.extend 0 run)) :: later ∧
      Spelled rest later := by
  generalize same : run ++ rest = text at spelled
  cases spelled with
  | nil => exact absurd (List.append_eq_nil_iff.mp same).1 isRun.nonempty
  | cons first apart others =>
      rcases isRun.exists_cons with ⟨d, tail, rfl, digit⟩
      have numeral := first.exists_cons
      rcases numeral with ⟨c, more, rfl, numeral, -⟩
      have head : d = c := (List.cons.inj same).1
      subst head
      rcases numeral digit with ⟨value, rfl⟩
      cases first with
      | numeral isRunToo _ =>
          rcases isRun.eq_of_append_eq isRunToo ends (others.ends_digits apart) same with
            ⟨runs, rfl⟩
          rw [runs]
          exact ⟨_, rfl, others⟩

/-- A text that begins with a run of blanks begins with a blank. -/
theorem Spelled.begins_blank {run : List Char} {lexemes : List Lexeme}
    (spelled : Spelled (run ++ rest) lexemes) (isRun : Text.Run Text.isBlank run)
    (ends : Text.Ends Text.isBlank rest) : ∃ later, lexemes = .blank :: later ∧ Spelled rest later := by
  generalize same : run ++ rest = text at spelled
  cases spelled with
  | nil => exact absurd (List.append_eq_nil_iff.mp same).1 isRun.nonempty
  | cons first apart others =>
      rcases isRun.exists_cons with ⟨d, tail, rfl, isBlank⟩
      rcases first.exists_cons with ⟨c, more, rfl, -, blank⟩
      have head : d = c := (List.cons.inj same).1
      subst head
      cases blank isBlank
      cases first with
      | blank isRunToo =>
          rcases isRun.eq_of_append_eq isRunToo ends (others.ends_blanks apart) same with ⟨-, rfl⟩
          exact ⟨_, rfl, others⟩

/-- A text that begins with a slash begins with the lexeme of it. -/
theorem Spelled.begins_slash {lexemes : List Lexeme} (spelled : Spelled ('/' :: rest) lexemes) :
    ∃ later, lexemes = .slash :: later ∧ Spelled rest later := by
  generalize same : '/' :: rest = text at spelled
  cases spelled with
  | nil => cases same
  | cons first apart others =>
      cases first with
      | blank isRun =>
          rcases isRun.exists_cons with ⟨c, more, rfl, isBlank⟩
          cases same
          exact absurd isBlank (by decide)
      | numeral isRun _ =>
          rcases isRun.exists_cons with ⟨c, more, rfl, digit⟩
          cases same
          exact absurd digit (by decide)
      | slash =>
          cases same
          exact ⟨_, rfl, others⟩
      | operator other _ =>
          cases same
          exact absurd rfl other

end Lexeme
end MixedCalculator
