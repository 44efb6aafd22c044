import MixedCalculator.Expression.Reading
import MixedCalculator.Proofs.Text.Cutting

namespace MixedCalculator

/-!
# The lexemes of a written expression

A written expression is cut into the lexemes that its members were spelled with, and a blank
before each of them.  This holds whatever the members are: it takes only that a number neither
begins nor ends with a blank.  What the lexemes are then grouped into is another matter.
-/

namespace MixedNumber

/-- The hyphen of a negative number is read as an operator. -/
def signLexemes : Sign -> List Lexeme
  | .positive => []
  | .negative => [.operator .minus]

def unsignedLexemes (m : MixedNumber) : List Lexeme :=
  if m.num = 0 ∧ m.den ≠ 0 then [.numeral m.whole]
  else if m.whole = 0 then [.numeral m.num, .slash, .numeral m.den]
  else [.numeral m.whole, .blank, .numeral m.num, .slash, .numeral m.den]

/-- What a written number is cut into. -/
def lexemes (m : MixedNumber) : List Lexeme :=
  if m.isZero = true ∧ m.den ≠ 0 then [.numeral 0] else signLexemes m.sign ++ m.unsignedLexemes

theorem spelling_unsignedLexemes (m : MixedNumber) :
    m.unsignedLexemes.flatMap Lexeme.spelling = m.unsignedChars := by
  unfold unsignedLexemes unsignedChars
  split
  · exact List.append_nil _
  · split
    · simp only [List.flatMap_cons, List.flatMap_nil, List.append_nil, Lexeme.spelling,
        quotientChars, List.singleton_append]
    · simp only [List.flatMap_cons, List.flatMap_nil, List.append_nil, Lexeme.spelling,
        quotientChars, List.singleton_append]

theorem spelling_lexemes (m : MixedNumber) : m.lexemes.flatMap Lexeme.spelling = m.chars := by
  unfold lexemes chars
  split
  · decide
  · rw [List.flatMap_append, spelling_unsignedLexemes]
    cases m.sign <;> rfl

theorem isChain_unsignedLexemes (m : MixedNumber) (before : Lexeme)
    (apart : ∀ value, before.Apart (.numeral value)) :
    (before :: m.unsignedLexemes ++ [Lexeme.blank]).IsChain Lexeme.Apart := by
  have ending : ∀ value, [.numeral value, Lexeme.blank].IsChain Lexeme.Apart :=
    fun _ => List.isChain_pair.mpr trivial
  have quotient : [.numeral m.num, .slash, .numeral m.den, Lexeme.blank].IsChain Lexeme.Apart :=
    .cons_cons trivial (.cons_cons trivial (ending m.den))
  unfold unsignedLexemes
  split
  · exact .cons_cons (apart m.whole) (ending m.whole)
  · split
    · exact .cons_cons (apart m.num) quotient
    · exact .cons_cons (apart m.whole) (.cons_cons trivial (.cons_cons trivial quotient))

theorem isChain_lexemes (m : MixedNumber) :
    (Lexeme.blank :: m.lexemes ++ [Lexeme.blank]).IsChain Lexeme.Apart := by
  unfold lexemes
  split
  · exact .cons_cons trivial (.cons_cons trivial (.singleton _))
  · cases m.sign with
    | positive => exact m.isChain_unsignedLexemes .blank (fun _ => trivial)
    | negative =>
        have rest := m.isChain_unsignedLexemes (.operator .minus) (fun _ => trivial)
        exact .cons_cons trivial rest

end MixedNumber

namespace Member

/-- What a written member is cut into.  A written division is a slash. -/
def lexemes : Member -> List Lexeme
  | number value => value.lexemes
  | operator .dividedBy => [.slash]
  | operator op => [.operator op]

theorem spelling_lexemes (member : Member) :
    member.lexemes.flatMap Lexeme.spelling = member.chars := by
  cases member with
  | number value => exact value.spelling_lexemes
  | operator op => cases op <;> rfl

theorem isChain_lexemes (member : Member) :
    (Lexeme.blank :: member.lexemes ++ [Lexeme.blank]).IsChain Lexeme.Apart := by
  cases member with
  | number value => exact value.isChain_lexemes
  | operator op =>
      cases op <;> exact .cons_cons trivial (.cons_cons trivial (.singleton _))

end Member

namespace Expression

/-- A blank before every member, and the lexemes of the member. -/
def lexemes (members : Expression) : List Lexeme :=
  members.flatMap (fun member => .blank :: member.lexemes)

theorem lexemes_eq_nil_or_blank (members : Expression) :
    members.lexemes = [] ∨ ∃ rest, members.lexemes = .blank :: rest := by
  cases members with
  | nil => exact Or.inl rfl
  | cons member rest => exact Or.inr ⟨member.lexemes ++ lexemes rest, rfl⟩

theorem isChain_lexemes (members : Expression) : members.lexemes.IsChain Lexeme.Apart := by
  induction members with
  | nil => exact List.IsChain.nil
  | cons member rest inductionHypothesis =>
      change (Lexeme.blank :: member.lexemes ++ lexemes rest).IsChain Lexeme.Apart
      rcases lexemes_eq_nil_or_blank rest with ends | ⟨later, continues⟩
      · rw [ends]
        exact member.isChain_lexemes.prefix (by simp only [List.append_nil, List.prefix_append])
      · rw [continues, List.isChain_split]
        rw [continues] at inductionHypothesis
        exact ⟨member.isChain_lexemes, inductionHypothesis⟩

theorem chars_cons (member : Member) (rest : Expression) :
    chars (member :: rest) = member.chars ++ rest.flatMap (fun next => ' ' :: next.chars) := by
  induction rest generalizing member with
  | nil => simp [chars, List.intercalate]
  | cons next rest inductionHypothesis =>
      have separated : chars (member :: next :: rest) = member.chars ++ ' ' :: chars (next :: rest) := by
        simp [chars, List.intercalate]
      rw [separated, inductionHypothesis, List.flatMap_cons, List.cons_append]

theorem spelling_lexemes (members : Expression) :
    members.lexemes.flatMap Lexeme.spelling = members.flatMap (fun next => ' ' :: next.chars) := by
  induction members with
  | nil => rfl
  | cons member rest inductionHypothesis =>
      change ' ' :: (member.lexemes ++ lexemes rest).flatMap Lexeme.spelling = _
      rw [List.flatMap_append, member.spelling_lexemes, inductionHypothesis]
      rfl

/-- Reading a written expression cuts it into the lexemes of its members. -/
theorem ofText_text (members : Expression) :
    ofText (text members) = .ok (ofLexemes members.lexemes) := by
  rw [ofText, text, String.toList_ofList]
  cases members with
  | nil => rfl
  | cons member rest =>
      have spelled : chars (member :: rest) =
          (member.lexemes ++ lexemes rest).flatMap Lexeme.spelling := by
        rw [chars_cons, List.flatMap_append, member.spelling_lexemes, spelling_lexemes]
      have cut : Lexeme.ofText (chars (member :: rest)) = .ok (lexemes (member :: rest)) := by
        rw [spelled]
        exact Lexeme.scan_spellings 0 (isChain_lexemes (member :: rest))
      rw [ofChars, cut]
      rfl

end Expression

end MixedCalculator
