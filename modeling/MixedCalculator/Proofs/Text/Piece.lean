import MixedCalculator.Expression.Basic
import MixedCalculator.Proofs.Text.Flaw

namespace MixedCalculator

/-!
# Pieces of a text

A text is a row of blanks, operators and literals.  A literal is a whole number, a fraction, or a
mixed number, and where one of them stands another one may stand too: the digits in front of a
fraction or of a mixed number are a whole number by themselves.  A fraction is preferred to a mixed
number, and either of them to a whole number.

Said in this way the preference hides that it never has to choose between the first two, and that
it always comes down to the longest literal.  Both are shown here, and so is that a text has one
row of pieces at most.  None of this refers to the way in which a text is read.
-/

namespace Numeral

/-- The number that a run of digits denotes, if it is small enough to be stored. -/
def word (digits : List Char) : UInt32 :=
  UInt32.ofNat (extend 0 digits)

end Numeral

/-- The digits and blanks of a number as it is written. -/
inductive Literal where
  | fraction (num den : List Char)
  | mixed (whole blanks num den : List Char)
  | integer (digits : List Char)
  deriving DecidableEq, Repr

namespace Literal

def chars : Literal -> List Char
  | fraction num den => num ++ '/' :: den
  | mixed whole blanks num den => whole ++ (blanks ++ (num ++ '/' :: den))
  | integer digits => digits

def value : Literal -> MixedNumber
  | fraction num den => .positive 0 (Numeral.word num) (Numeral.word den)
  | mixed whole _ num den => .positive (Numeral.word whole) (Numeral.word num) (Numeral.word den)
  | integer digits => .positive (Numeral.word digits) 0 1

def numerals : Literal -> List (List Char)
  | fraction num den => [num, den]
  | mixed whole _ num den => [whole, num, den]
  | integer digits => [digits]

/-- The literal is written in front of the rest of a text, and all its runs are whole ones. -/
def Stands : Literal -> List Char -> Prop
  | fraction num den, rest =>
      Text.Run Char.isDigit num ∧ Text.Run Char.isDigit den ∧ Text.Ends Char.isDigit rest
  | mixed whole blanks num den, rest =>
      Text.Run Char.isDigit whole ∧ Text.Run Text.isBlank blanks ∧ Text.Run Char.isDigit num ∧
        Text.Run Char.isDigit den ∧ Text.Ends Char.isDigit rest
  | integer digits, rest => Text.Run Char.isDigit digits ∧ Text.Ends Char.isDigit rest

/-- The order in which the forms of a literal are considered. -/
def rank : Literal -> Nat
  | fraction _ _ => 0
  | mixed _ _ _ _ => 1
  | integer _ => 2

/-- The literal that is taken where it stands: none of a preferred form stands there too. -/
def Taken (literal : Literal) (rest : List Char) : Prop :=
  literal.Stands rest ∧ ∀ (other : Literal) (later : List Char), other.Stands later ->
    other.chars ++ later = literal.chars ++ rest -> literal.rank ≤ other.rank

/-- The digits in front. -/
def lead : Literal -> List Char
  | fraction num _ => num
  | mixed whole _ _ _ => whole
  | integer digits => digits

/-- What follows the digits in front. -/
def trail : Literal -> List Char -> List Char
  | fraction _ den, rest => '/' :: (den ++ rest)
  | mixed _ blanks num den, rest => blanks ++ (num ++ '/' :: (den ++ rest))
  | integer _, rest => rest

theorem chars_append (literal : Literal) (rest : List Char) :
    literal.chars ++ rest = literal.lead ++ literal.trail rest := by
  cases literal <;> simp only [chars, lead, trail, List.append_assoc, List.cons_append]

theorem ends_slash (rest : List Char) : Text.Ends Char.isDigit ('/' :: rest) :=
  Text.ends_cons rest (by decide)

theorem ends_digits_of_blanks {blanks : List Char} (isRun : Text.Run Text.isBlank blanks)
    (rest : List Char) : Text.Ends Char.isDigit (blanks ++ rest) := by
  rcases isRun.exists_cons with ⟨c, more, rfl, isBlank⟩
  exact Text.ends_cons _ (Text.isDigit_of_isBlank isBlank)

theorem ends_blanks_of_digits {digits : List Char} (isRun : Text.Run Char.isDigit digits)
    (rest : List Char) : Text.Ends Text.isBlank (digits ++ rest) := by
  rcases isRun.exists_cons with ⟨c, more, rfl, digit⟩
  exact Text.ends_cons _ (Text.isBlank_of_isDigit digit)

theorem Stands.run_lead {literal : Literal} {rest : List Char} (stands : literal.Stands rest) :
    Text.Run Char.isDigit literal.lead := by
  cases literal with
  | fraction num den => exact stands.1
  | mixed whole blanks num den => exact stands.1
  | integer digits => exact stands.1

theorem Stands.ends_trail {literal : Literal} {rest : List Char} (stands : literal.Stands rest) :
    Text.Ends Char.isDigit (literal.trail rest) := by
  cases literal with
  | fraction num den => exact ends_slash _
  | mixed whole blanks num den => exact ends_digits_of_blanks stands.2.1 _
  | integer digits => exact stands.2

/-! ## Two literals in one place -/

/-- The first literal is the whole number in front of the second one. -/
inductive Begins : Literal -> Literal -> Prop
  | fraction (num den : List Char) : Begins (integer num) (fraction num den)
  | mixed (digits blanks num den : List Char) : Begins (integer digits) (mixed digits blanks num den)

theorem Begins.rank_lt {first second : Literal} (begins : first.Begins second) :
    second.rank < first.rank := by
  cases begins with
  | fraction num den => exact Nat.succ_pos 1
  | mixed digits blanks num den => exact Nat.lt_succ_self 1

theorem Begins.length_le {first second : Literal} (begins : first.Begins second) :
    first.chars.length ≤ second.chars.length := by
  cases begins with
  | fraction num den => exact (List.prefix_append num _).length_le
  | mixed digits blanks num den => exact (List.prefix_append digits _).length_le

/-- A slash that follows digits is no blank. -/
theorem slash_ne_blanks {blanks rest later : List Char} (isRun : Text.Run Text.isBlank blanks) :
    '/' :: rest ≠ blanks ++ later := by
  intro same
  rcases isRun.exists_cons with ⟨c, more, rfl, isBlank⟩
  cases same
  exact absurd isBlank (by decide)

/-- Two literals that stand in one place are the same, or one is the whole number in front of the
other.  The digits in front are the same in any case, and what follows them decides. -/
theorem eq_or_begins {first second : Literal} {rest later : List Char}
    (stands : first.Stands rest) (standsToo : second.Stands later)
    (same : first.chars ++ rest = second.chars ++ later) :
    first = second ∧ rest = later ∨ first.Begins second ∨ second.Begins first := by
  rw [chars_append, chars_append] at same
  rcases stands.run_lead.eq_of_append_eq standsToo.run_lead stands.ends_trail standsToo.ends_trail
    same with ⟨leads, trails⟩
  cases first with
  | fraction num den =>
      cases second with
      | fraction numToo denToo =>
          rcases stands.2.1.eq_of_append_eq standsToo.2.1 stands.2.2 standsToo.2.2
            (List.cons.inj trails).2 with ⟨dens, rests⟩
          cases leads
          cases dens
          exact Or.inl ⟨rfl, rests⟩
      | mixed whole blanks numToo denToo => exact absurd trails (slash_ne_blanks standsToo.2.1)
      | integer digits =>
          cases leads
          exact Or.inr (Or.inr (.fraction num den))
  | mixed whole blanks num den =>
      cases second with
      | fraction numToo denToo => exact absurd trails.symm (slash_ne_blanks stands.2.1)
      | mixed wholeToo blanksToo numToo denToo =>
          rcases stands with ⟨-, isBlanks, isNum, isDen, ends⟩
          rcases standsToo with ⟨-, isBlanksToo, isNumToo, isDenToo, endsToo⟩
          rcases isBlanks.eq_of_append_eq isBlanksToo (ends_blanks_of_digits isNum _)
            (ends_blanks_of_digits isNumToo _) trails with ⟨blanksSame, fractions⟩
          rcases isNum.eq_of_append_eq isNumToo (ends_slash _) (ends_slash _) fractions with
            ⟨nums, slashes⟩
          rcases isDen.eq_of_append_eq isDenToo ends endsToo (List.cons.inj slashes).2 with
            ⟨dens, rests⟩
          cases leads
          cases blanksSame
          cases nums
          cases dens
          exact Or.inl ⟨rfl, rests⟩
      | integer digits =>
          cases leads
          exact Or.inr (Or.inr (.mixed whole blanks num den))
  | integer digits =>
      cases second with
      | fraction num den =>
          cases leads
          exact Or.inr (Or.inl (.fraction digits den))
      | mixed whole blanks num den =>
          cases leads
          exact Or.inr (Or.inl (.mixed digits blanks num den))
      | integer digitsToo =>
          cases leads
          exact Or.inl ⟨rfl, trails⟩

/-- To be taken, it is enough not to be the whole number in front of another literal. -/
theorem Stands.taken {literal : Literal} {rest : List Char} (stands : literal.Stands rest)
    (alone : ∀ other later, other.Stands later ->
      other.chars ++ later = literal.chars ++ rest -> ¬ literal.Begins other) :
    literal.Taken rest := by
  refine ⟨stands, fun other later standsToo same => ?_⟩
  rcases eq_or_begins stands standsToo same.symm with ⟨rfl, -⟩ | begins | begins
  · exact Nat.le_refl _
  · exact absurd begins (alone other later standsToo same)
  · exact Nat.le_of_lt begins.rank_lt

theorem Taken.not_begins {literal other : Literal} {rest later : List Char}
    (taken : literal.Taken rest) (standsToo : other.Stands later)
    (same : other.chars ++ later = literal.chars ++ rest) : ¬ literal.Begins other :=
  fun begins => absurd begins.rank_lt (Nat.not_lt.mpr (taken.2 other later standsToo same))

/-- No literal that stands in the place of the one that is taken is longer. -/
theorem Taken.length_le {literal other : Literal} {rest later : List Char}
    (taken : literal.Taken rest) (standsToo : other.Stands later)
    (same : other.chars ++ later = literal.chars ++ rest) :
    other.chars.length ≤ literal.chars.length := by
  rcases eq_or_begins taken.1 standsToo same.symm with ⟨rfl, -⟩ | begins | begins
  · exact Nat.le_refl _
  · exact absurd begins (taken.not_begins standsToo same)
  · exact begins.length_le

/-- Only one literal is taken in one place. -/
theorem Taken.eq {first second : Literal} {rest later : List Char} (taken : first.Taken rest)
    (takenToo : second.Taken later) (same : first.chars ++ rest = second.chars ++ later) :
    first = second ∧ rest = later := by
  rcases eq_or_begins taken.1 takenToo.1 same with equal | begins | begins
  · exact equal
  · exact absurd begins (taken.not_begins takenToo.1 same.symm)
  · exact absurd begins (takenToo.not_begins taken.1 same)

end Literal

/-! ## Rows of pieces -/

/-- A character by itself, or a literal. -/
inductive Piece where
  | blank (c : Char)
  | operator (c : Char) (op : Operator)
  | number (literal : Literal)
  deriving DecidableEq, Repr

namespace Piece

def chars : Piece -> List Char
  | blank c => [c]
  | operator c _ => [c]
  | number literal => literal.chars

/-- The member that a piece stands for.  Blanks stand for none. -/
def members : Piece -> Expression
  | blank _ => []
  | operator _ op => [.operator op]
  | number literal => [.number literal.value]

def numerals : Piece -> List (List Char)
  | number literal => literal.numerals
  | _ => []

/-- The piece that is taken where it stands. -/
def Taken : Piece -> List Char -> Prop
  | blank c, _ => Text.isBlank c = true
  | operator c op, _ => Operator.ofSymbol? c = some op
  | number literal, rest => literal.Taken rest

end Piece

/-- The text is cut into the pieces, each of which is taken where it stands. -/
inductive Cut : List Char -> List Piece -> Prop
  | nil : Cut [] []
  | cons {piece : Piece} {rest : List Char} {later : List Piece} :
      piece.Taken rest -> Cut rest later -> Cut (piece.chars ++ rest) (piece :: later)

/-- Every character of the text belongs to one piece. -/
theorem Cut.flatMap_chars {text : List Char} {pieces : List Piece} (cut : Cut text pieces) :
    pieces.flatMap Piece.chars = text := by
  induction cut with
  | nil => rfl
  | cons taken cut inductionHypothesis => rw [List.flatMap_cons, inductionHypothesis]

namespace Piece

/-- The class of the first character tells a piece from pieces of other kinds. -/
inductive Headed : Piece -> Char -> Prop
  | blank {c : Char} : Text.isBlank c = true -> Headed (blank c) c
  | operator {c : Char} {op : Operator} :
      Operator.ofSymbol? c = some op -> Headed (operator c op) c
  | number {literal : Literal} {c : Char} : c.isDigit = true -> Headed (number literal) c

theorem Taken.exists_head {piece : Piece} {rest : List Char} (taken : piece.Taken rest) :
    ∃ c more, piece.chars ++ rest = c :: more ∧ piece.Headed c := by
  cases piece with
  | blank c => exact ⟨c, rest, rfl, .blank taken⟩
  | operator c op => exact ⟨c, rest, rfl, .operator taken⟩
  | number literal =>
      rcases taken.1.run_lead.exists_cons with ⟨c, more, isLead, digit⟩
      refine ⟨c, more ++ literal.trail rest, ?_, .number digit⟩
      change literal.chars ++ rest = _
      rw [literal.chars_append, isLead, List.cons_append]

/-- Only one piece is taken in one place. -/
theorem Taken.eq {first second : Piece} {rest later : List Char} (taken : first.Taken rest)
    (takenToo : second.Taken later) (same : first.chars ++ rest = second.chars ++ later) :
    first = second ∧ rest = later := by
  rcases taken.exists_head with ⟨c, more, begins, headed⟩
  rcases takenToo.exists_head with ⟨d, others, beginsToo, headedToo⟩
  have heads : c = d := (List.cons.inj (begins.symm.trans (same.trans beginsToo))).1
  subst heads
  cases headed with
  | blank isBlank =>
      cases headedToo with
      | blank _ => exact ⟨rfl, (List.cons.inj same).2⟩
      | operator denotes =>
          rw [(Lexeme.not_kind_of_ofSymbol? denotes).2] at isBlank
          cases isBlank
      | number digit =>
          rw [Text.isBlank_of_isDigit digit] at isBlank
          cases isBlank
  | operator denotes =>
      cases headedToo with
      | blank isBlank =>
          rw [(Lexeme.not_kind_of_ofSymbol? denotes).2] at isBlank
          cases isBlank
      | operator denotesToo =>
          cases Option.some.inj (denotes.symm.trans denotesToo)
          exact ⟨rfl, (List.cons.inj same).2⟩
      | number digit =>
          rw [(Lexeme.not_kind_of_ofSymbol? denotes).1] at digit
          cases digit
  | number digit =>
      cases headedToo with
      | blank isBlank =>
          rw [Text.isBlank_of_isDigit digit] at isBlank
          cases isBlank
      | operator denotes =>
          rw [(Lexeme.not_kind_of_ofSymbol? denotes).1] at digit
          cases digit
      | number _ =>
          rcases Literal.Taken.eq taken takenToo same with ⟨rfl, rests⟩
          exact ⟨rfl, rests⟩

end Piece

namespace Cut

/-- What is taken first in a text that is cut, the pieces begin with, and the rest is cut too. -/
theorem of_taken {piece : Piece} {rest : List Char} {pieces : List Piece}
    (cut : Cut (piece.chars ++ rest) pieces) (taken : piece.Taken rest) :
    ∃ later, pieces = piece :: later ∧ Cut rest later := by
  generalize same : piece.chars ++ rest = text at cut
  cases cut with
  | nil =>
      rcases taken.exists_head with ⟨c, more, begins, -⟩
      rw [same] at begins
      cases begins
  | cons takenToo cutRest =>
      rcases taken.eq takenToo same with ⟨rfl, rfl⟩
      exact ⟨_, rfl, cutRest⟩

/-- A text is cut into pieces in one way. -/
theorem unique {text : List Char} {pieces others : List Piece} (cut : Cut text pieces)
    (cutToo : Cut text others) : pieces = others := by
  induction cut generalizing others with
  | nil =>
      generalize same : ([] : List Char) = text at cutToo
      cases cutToo with
      | nil => rfl
      | cons taken _ =>
          rcases taken.exists_head with ⟨c, more, begins, -⟩
          rw [← same] at begins
          cases begins
  | cons taken cut inductionHypothesis =>
      rcases cutToo.of_taken taken with ⟨later, rfl, cutRest⟩
      rw [inductionHypothesis cutRest]

/-- Each piece of a text that is cut is taken where it stands. -/
theorem taken_of_append {text : List Char} {before after : List Piece} {piece : Piece}
    (cut : Cut text (before ++ piece :: after)) : piece.Taken (after.flatMap Piece.chars) := by
  induction before generalizing text with
  | nil =>
      cases cut with
      | cons taken cutRest =>
          rw [cutRest.flatMap_chars]
          exact taken
  | cons first between inductionHypothesis =>
      cases cut with
      | cons _ cutRest => exact inductionHypothesis cutRest

end Cut

end MixedCalculator
