import MixedCalculator.Fault
import MixedCalculator.Text.Blank
import MixedCalculator.Text.Numeral

namespace MixedCalculator

/-!
# Lexemes

A text is cut into runs of blanks, runs of digits and single operator characters.  Blanks are
kept, because they decide whether digits on both sides of a slash form one fraction.  For the
same reason the slash stays apart from the other operator characters, the typographic
division sign among them, which never join digits.

The cut proceeds from left to right and stops at the first character or numeral that cannot
be admitted, so that the fault reported is always that of the leftmost offence.
-/

/-- A piece of a text. -/
inductive Lexeme where
  | blank
  | numeral (value : UInt32)
  | slash
  | operator (op : Operator)
  deriving DecidableEq, Repr, Inhabited

namespace Lexeme

/-- The lexeme that a single character makes, if the character is admitted at all. -/
def ofChar? (c : Char) : Option Lexeme :=
  if Text.isBlank c then some .blank
  else if c.isDigit then some (.numeral (UInt32.ofNat (Numeral.digitValue c)))
  else if c = '/' then some .slash
  else (Operator.ofSymbol? c).map .operator

/-- Cut the rest of a text, of which the lexeme before it may still grow.  Blanks absorb
blanks and digits extend a numeral; every other neighbour begins a lexeme of its own. -/
def scan (position : Nat) (current : Lexeme) : List Char -> Except Fault (List Lexeme)
  | [] => .ok [current]
  | c :: rest =>
      match ofChar? c with
      | none => .error (.unexpectedCharacter position c)
      | some next =>
          match current, next with
          | blank, blank => scan (position + 1) blank rest
          | numeral value, numeral digit =>
              let longer := 10 * value.toNat + digit.toNat
              if longer < UInt32.size then
                scan (position + 1) (numeral (UInt32.ofNat longer)) rest
              else .error .overflow
          | _, _ => (scan (position + 1) next rest).map (current :: ·)

/-- The lexemes of a text.  A blank is supposed before the first character: it absorbs the
blanks there, and otherwise separates nothing. -/
def ofText (text : List Char) : Except Fault (List Lexeme) :=
  scan 0 blank text

end Lexeme

end MixedCalculator
