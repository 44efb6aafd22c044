import MixedCalculator.Proofs.Text.Piece
import MixedCalculator.Proofs.Text.Refusal
import MixedCalculator.Proofs.Text.Spacing
import MixedCalculator.Proofs.Text.Spelling

namespace MixedCalculator

/-!
# Reading takes the longest literals

A text is read in two passes, neither of which knows literals as they are written: the first one
cuts out lexemes, and the second one groups them.  What comes of it is described here by the pieces
of the text alone.  A text is read exactly if it is cut into pieces whose numerals are small enough,
and its members are those that the pieces stand for.

Blanks only part the pieces or belong to a mixed number, so it does not matter which blanks they
are, nor how many.
-/

namespace Piece

/-- The numerals of the piece are small enough to be stored. -/
def Small (piece : Piece) : Prop :=
  ∀ digits ∈ piece.numerals, Numeral.extend 0 digits ≤ 4294967295

end Piece

namespace Expression

/-- The text is cut into pieces with small numerals, which stand for the members. -/
def IsReading (text : List Char) (members : Expression) : Prop :=
  ∃ pieces, Cut text pieces ∧ (∀ piece ∈ pieces, piece.Small) ∧
    members = pieces.flatMap Piece.members

theorem isReading_nil : IsReading [] [] :=
  ⟨[], .nil, fun _ member => absurd member List.not_mem_nil, rfl⟩

theorem IsReading.cons (piece : Piece) {rest : List Char} {members : Expression}
    (isReading : IsReading rest members) (taken : piece.Taken rest) (small : piece.Small) :
    IsReading (piece.chars ++ rest) (piece.members ++ members) := by
  rcases isReading with ⟨pieces, cut, allSmall, rfl⟩
  refine ⟨piece :: pieces, .cons taken cut, ?_, rfl⟩
  intro other member
  rcases List.mem_cons.mp member with rfl | inRest
  · exact small
  · exact allSmall other inRest

/-- Blanks in front stand for nothing. -/
theorem IsReading.blanks {blanks rest : List Char} {members : Expression}
    (isReading : IsReading rest members) (areBlank : ∀ c ∈ blanks, Text.isBlank c = true) :
    IsReading (blanks ++ rest) members := by
  induction blanks with
  | nil => exact isReading
  | cons c more inductionHypothesis =>
      have others := inductionHypothesis fun d member => areBlank d (List.mem_cons_of_mem c member)
      exact others.cons (.blank c) (areBlank c List.mem_cons_self)
        fun digits none_there => absurd none_there List.not_mem_nil

theorem IsReading.operator {c : Char} {op : Operator} {rest : List Char} {members : Expression}
    (isReading : IsReading rest members) (denotes : Operator.ofSymbol? c = some op) :
    IsReading (c :: rest) (.operator op :: members) :=
  isReading.cons (.operator c op) denotes
    fun _ none_there => absurd none_there List.not_mem_nil

theorem IsReading.literal {literal : Literal} {rest : List Char} {members : Expression}
    (isReading : IsReading rest members) (taken : literal.Taken rest)
    (small : ∀ digits ∈ literal.numerals, Numeral.extend 0 digits < UInt32.size) :
    IsReading (literal.lead ++ literal.trail rest) (.number literal.value :: members) := by
  rw [← literal.chars_append]
  exact isReading.cons (.number literal) taken
    fun digits member => Nat.le_of_lt_succ (small digits member)

/-! ## What lexemes are grouped into -/

section Grouping

open Lexeme

variable {rest : List Char} {later : List Lexeme}

/-- Digits are taken by themselves, if the lexemes that follow make no fraction of them. -/
theorem taken_integer {digits : List Char} (isRun : Text.Run Char.isDigit digits)
    (ends : Text.Ends Char.isDigit rest) (spelled : Spelled rest later)
    (noMixed : ∀ num den others,
      later = .blank :: .numeral num :: .slash :: .numeral den :: others -> False)
    (noFraction : ∀ den others, later = .slash :: .numeral den :: others -> False) :
    (Literal.integer digits).Taken rest := by
  refine Literal.Stands.taken ⟨isRun, ends⟩ ?_
  intro other after stands same begins
  rw [other.chars_append] at same
  cases begins with
  | fraction num den =>
      have follows := List.append_cancel_left same
      rw [← follows] at spelled
      rcases spelled.begins_slash with ⟨fromDen, rfl, spelledDen⟩
      rcases spelledDen.begins_numeral stands.2.1 stands.2.2 with ⟨others, rfl, -⟩
      exact noFraction _ _ rfl
  | mixed whole blanks num den =>
      rcases stands with ⟨-, isBlanks, isNum, isDen, endsToo⟩
      have follows := List.append_cancel_left same
      rw [← follows] at spelled
      rcases spelled.begins_blank isBlanks (Literal.ends_blanks_of_digits isNum _) with
        ⟨fromNum, rfl, spelledNum⟩
      rcases spelledNum.begins_numeral isNum (Literal.ends_slash _) with ⟨fromSlash, rfl, spelledSlash⟩
      rcases spelledSlash.begins_slash with ⟨fromDen, rfl, spelledDen⟩
      rcases spelledDen.begins_numeral isDen endsToo with ⟨others, rfl, -⟩
      exact noMixed _ _ _ rfl

/-- Grouped lexemes are a reading of the text that they stand for. -/
theorem isReading_of_spelled {text : List Char} {lexemes : List Lexeme}
    (spelled : Spelled text lexemes) : IsReading text (ofLexemes lexemes) := by
  induction lexemes using ofLexemes.induct generalizing text with
  | case1 =>
      cases spelled with
      | nil => exact isReading_nil
  | case2 whole num den later inductionHypothesis =>
      rcases spelled.of_numeral with ⟨wholes, _, rfl, rfl, isWhole, smallWhole, -, spelled⟩
      rcases spelled.of_blank with ⟨blanks, _, rfl, isBlanks, spelled⟩
      rcases spelled.of_numeral with ⟨nums, _, rfl, rfl, isNum, smallNum, -, spelled⟩
      rcases spelled.of_slash with ⟨_, rfl, spelledDen⟩
      rcases spelledDen.of_numeral with ⟨dens, rest, rfl, rfl, isDen, smallDen, ends, spelledRest⟩
      have stands : (Literal.mixed wholes blanks nums dens).Stands rest :=
        ⟨isWhole, isBlanks, isNum, isDen, ends⟩
      have taken := stands.taken (fun other after _ _ begins => by cases begins)
      exact (inductionHypothesis spelledRest).literal taken
        (List.forall_mem_cons.mpr ⟨smallWhole, List.forall_mem_cons.mpr ⟨smallNum,
          List.forall_mem_singleton.mpr smallDen⟩⟩)
  | case3 num den later inductionHypothesis =>
      rcases spelled.of_numeral with ⟨nums, _, rfl, rfl, isNum, smallNum, -, spelled⟩
      rcases spelled.of_slash with ⟨_, rfl, spelledDen⟩
      rcases spelledDen.of_numeral with ⟨dens, rest, rfl, rfl, isDen, smallDen, ends, spelledRest⟩
      have stands : (Literal.fraction nums dens).Stands rest := ⟨isNum, isDen, ends⟩
      have taken := stands.taken (fun other after _ _ begins => by cases begins)
      exact (inductionHypothesis spelledRest).literal taken
        (List.forall_mem_cons.mpr ⟨smallNum, List.forall_mem_singleton.mpr smallDen⟩)
  | case4 whole later noMixed noFraction inductionHypothesis =>
      rcases spelled.of_numeral with ⟨digits, rest, rfl, rfl, isRun, small, ends, spelled⟩
      rw [ofLexemes]
      · exact (inductionHypothesis spelled).literal
          (taken_integer isRun ends spelled noMixed noFraction)
          (List.forall_mem_singleton.mpr small)
      · exact noMixed
      · exact noFraction
  | case5 later inductionHypothesis =>
      rcases spelled.of_blank with ⟨blanks, rest, rfl, isBlanks, spelled⟩
      exact (inductionHypothesis spelled).blanks isBlanks.all
  | case6 later inductionHypothesis =>
      rcases spelled.of_slash with ⟨rest, rfl, spelledRest⟩
      exact (inductionHypothesis spelledRest).operator rfl
  | case7 op later inductionHypothesis =>
      rcases spelled.of_operator with ⟨c, rest, rfl, denotes, spelled⟩
      exact (inductionHypothesis spelled).operator denotes

/-- What is read from a text is a reading of it.  The blank that is supposed in front of the text
is a piece by itself. -/
theorem isReading_of_ofChars {text : List Char} {members : Expression}
    (isRead : ofChars text = .ok members) : IsReading text members := by
  unfold ofChars Lexeme.ofText at isRead
  cases cut : Lexeme.scan 0 .blank text with
  | error fault =>
      rw [cut] at isRead
      cases isRead
  | ok lexemes =>
      rw [cut] at isRead
      cases isRead
      have supposed : SpelledBy .blank [' '] := .blank (.single (by decide))
      have spelled := (spelled_of_scan cut supposed).1
      rcases isReading_of_spelled spelled with ⟨pieces, pieced, small, same⟩
      have blankTaken : (Piece.blank ' ').Taken text := show Text.isBlank ' ' = true by decide
      rcases pieced.of_taken blankTaken with ⟨later, rfl, piecedRest⟩
      exact ⟨later, piecedRest, fun piece member => small piece (List.mem_cons_of_mem _ member), same⟩

end Grouping

end Expression

/-! ## What pieces are read as -/

namespace Text

variable {rest : List Char}

theorem Flawless.blanks {blanks : List Char} (flawless : Flawless rest)
    (areBlank : ∀ c ∈ blanks, isBlank c = true) : Flawless (blanks ++ rest) := by
  induction blanks with
  | nil => exact flawless
  | cons c more inductionHypothesis =>
      have first := areBlank c List.mem_cons_self
      have others := inductionHypothesis fun d member => areBlank d (List.mem_cons_of_mem c member)
      exact others.cons (Or.inl first) (isDigit_of_isBlank first)

/-- A slash and small digits behind it, which a fraction ends with. -/
theorem Flawless.slash_digits {digits : List Char} (flawless : Flawless rest)
    (isRun : Run Char.isDigit digits) (ends : Ends Char.isDigit rest)
    (small : Numeral.extend 0 digits ≤ 4294967295) : Flawless ('/' :: (digits ++ rest)) :=
  (flawless.digits isRun ends small).cons (Or.inr (Or.inr ⟨.dividedBy, rfl⟩)) (by decide)

/-- A literal with small numerals adds no flaw. -/
theorem Flawless.literal {literal : Literal} (flawless : Flawless rest)
    (stands : literal.Stands rest)
    (small : ∀ digits ∈ literal.numerals, Numeral.extend 0 digits ≤ 4294967295) :
    Flawless (literal.chars ++ rest) := by
  rw [literal.chars_append]
  cases literal with
  | fraction num den =>
      rcases stands with ⟨isNum, isDen, ends⟩
      exact (flawless.slash_digits isDen ends (small den (by simp [Literal.numerals]))).digits isNum
        (Literal.ends_slash _) (small num (by simp [Literal.numerals]))
  | mixed whole blanks num den =>
      rcases stands with ⟨isWhole, isBlanks, isNum, isDen, ends⟩
      have fraction := (flawless.slash_digits isDen ends
        (small den (by simp [Literal.numerals]))).digits isNum (Literal.ends_slash _)
        (small num (by simp [Literal.numerals]))
      exact (fraction.blanks isBlanks.all).digits isWhole
        (Literal.ends_digits_of_blanks isBlanks _) (small whole (by simp [Literal.numerals]))
  | integer digits =>
      exact flawless.digits stands.1 stands.2 (small digits (by simp [Literal.numerals]))

end Text

/-- Pieces with small numerals make up a text without flaws. -/
theorem Cut.flawless {text : List Char} {pieces : List Piece} (cut : Cut text pieces)
    (small : ∀ piece ∈ pieces, piece.Small) : Text.Flawless text := by
  induction cut with
  | nil => exact Text.flawless_nil
  | @cons piece rest later taken cut inductionHypothesis =>
      have flawless := inductionHypothesis fun other member =>
        small other (List.mem_cons_of_mem piece member)
      cases piece with
      | blank c =>
          change Text.Flawless ([c] ++ rest)
          refine flawless.blanks ?_
          intro d member
          cases List.mem_singleton.mp member
          exact taken
      | operator c op =>
          exact flawless.cons (Or.inr (Or.inr ⟨op, taken⟩)) (Lexeme.not_kind_of_ofSymbol? taken).1
      | number literal => exact flawless.literal taken.1 (small _ List.mem_cons_self)

namespace Expression

theorem ofText_eq_ok_iff (text : String) (members : Expression) :
    ofText text = .ok members ↔ IsReading text.toList members := by
  refine ⟨isReading_of_ofChars, ?_⟩
  rintro ⟨pieces, cut, small, rfl⟩
  rcases ofText_verdict text with ⟨-, members, isRead⟩ | ⟨position, fault, isFirst, -⟩
  · rcases isReading_of_ofChars isRead with ⟨others, cutToo, -, rfl⟩
    rw [isRead, cut.unique cutToo]
  · exact absurd isFirst.flaw (cut.flawless small position fault)

theorem ofText_respaced {text respaced : String}
    (isRespaced : Text.Respaced text.toList respaced.toList) :
    (ofText respaced).toOption = (ofText text).toOption := by
  unfold ofText ofChars Lexeme.ofText
  rw [Except.toOption_map, Except.toOption_map, Lexeme.scan_respaced isRespaced]

/-- Reading takes the longest literals.  The members read are those of the pieces that the text is
cut into, in the only way in which it can be cut.  All characters belong to the pieces, and no other
literal in the place of one of them is longer.  Other runs of blanks make no difference. -/
theorem read_iff_longest_match (text : String) :
    (∀ members, ofText text = .ok members ↔ IsReading text.toList members) ∧
      (∀ pieces, Cut text.toList pieces ->
        pieces.flatMap Piece.chars = text.toList ∧
        (∀ others, Cut text.toList others -> others = pieces) ∧
        ∀ before literal after, pieces = before ++ .number literal :: after ->
          ∀ (other : Literal) (rest : List Char), other.Stands rest ->
            other.chars ++ rest = literal.chars ++ after.flatMap Piece.chars ->
              other.chars.length ≤ literal.chars.length) ∧
      ∀ respaced : String, Text.Respaced text.toList respaced.toList ->
        ∀ members, ofText text = .ok members -> ofText respaced = .ok members := by
  refine ⟨ofText_eq_ok_iff text, ?_, ?_⟩
  · intro pieces cut
    refine ⟨cut.flatMap_chars, fun others cutToo => cutToo.unique cut, ?_⟩
    rintro before literal after rfl other rest stands same
    exact Literal.Taken.length_le cut.taken_of_append stands same
  · intro respaced isRespaced members isRead
    have same := ofText_respaced isRespaced
    rw [isRead] at same
    cases outcome : ofText respaced with
    | error fault =>
        rw [outcome] at same
        cases same
    | ok others =>
        rw [outcome] at same
        cases same
        rfl

/-- The numbers begin as soon as they can, and the second slash finds no digits left to join. -/
example : ofText "1 2 3/4/5" = .ok [.number (.positive 1 0 1), .number (.positive 2 3 4),
    .operator .dividedBy, .number (.positive 5 0 1)] := by decide

end Expression

end MixedCalculator
