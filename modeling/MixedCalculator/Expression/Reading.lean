import MixedCalculator.Expression.Basic
import MixedCalculator.Text.Lexeme

namespace MixedCalculator

/-!
# Reading expressions

The members of a text are found by looking at neighbouring lexemes.  Digits on both sides of
a slash, with nothing between them, are a fraction.  Digits, blanks and such a fraction are a
mixed number.  Any other digits are a whole number, and any other slash is a division: `3/4`
is one number, `3 / 4` divides two, and `5 3/4` is one number again.

Two numbers may follow each other.  Reading accepts them, and evaluation will object.
-/

namespace Expression

/-- Group lexemes into members.  The longest number that begins at a numeral is taken. -/
def ofLexemes : List Lexeme -> Expression
  | [] => []
  | .numeral whole :: .blank :: .numeral num :: .slash :: .numeral den :: rest =>
      .number (.positive whole num den) :: ofLexemes rest
  | .numeral num :: .slash :: .numeral den :: rest =>
      .number (.positive 0 num den) :: ofLexemes rest
  | .numeral whole :: rest => .number (.positive whole 0 1) :: ofLexemes rest
  | .blank :: rest => ofLexemes rest
  | .slash :: rest => .operator .dividedBy :: ofLexemes rest
  | .operator op :: rest => .operator op :: ofLexemes rest

/-- Read an expression from its characters. -/
def ofChars (text : List Char) : Except Fault Expression :=
  (Lexeme.ofText text).map ofLexemes

/-- Read an expression from a text. -/
def ofText (text : String) : Except Fault Expression :=
  ofChars text.toList

end Expression

end MixedCalculator
