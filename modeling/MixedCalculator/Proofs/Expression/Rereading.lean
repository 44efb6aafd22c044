import MixedCalculator.Proofs.Expression.Writing

namespace MixedCalculator

/-!
# Reading back what was written

Spaces separate members, and they separate the parts of a mixed number too.  A whole number
before a bare fraction is therefore read back as one number, and no other pair of neighbours
is.  `Expression.reread` says directly on the members what comes of reading them back, for
numbers that could have been typed.  Besides joining such pairs it only replaces the
denominator of a number without a fraction, which is not written.
-/

namespace MixedNumber

/-- The number is written without a fraction. -/
def IsWhole (m : MixedNumber) : Prop := m.num = 0 ∧ m.den ≠ 0

/-- The number is written as a fraction alone. -/
def IsBare (m : MixedNumber) : Prop := m.whole = 0 ∧ (m.num ≠ 0 ∨ m.den = 0)

/-- Written one after the other, the two are one number. -/
def Joins (first second : MixedNumber) : Prop := first.IsWhole ∧ second.IsBare

instance (m : MixedNumber) : Decidable m.IsWhole := inferInstanceAs (Decidable (_ ∧ _))

instance (m : MixedNumber) : Decidable m.IsBare := inferInstanceAs (Decidable (_ ∧ _))

instance (first second : MixedNumber) : Decidable (first.Joins second) :=
  inferInstanceAs (Decidable (_ ∧ _))

/-- The number that a whole number and a bare fraction make. -/
def join (first second : MixedNumber) : MixedNumber :=
  .positive first.whole second.num second.den

/-- The same number, over the denominator one if it has no fraction. -/
def standard (m : MixedNumber) : MixedNumber :=
  if m.IsWhole then { m with den := 1 } else m

theorem standard_form_of_isWhole {m : MixedNumber} (positive : m.sign = .positive)
    (isWhole : m.IsWhole) : m.standard.form = .positive m.whole 0 1 := by
  rw [standard, if_pos isWhole, ← isWhole.1, positive_eq, ← positive]
  rfl

theorem standard_form_of_not_isWhole {m : MixedNumber} (positive : m.sign = .positive)
    (notWhole : ¬ m.IsWhole) : m.standard.form = .positive m.whole m.num m.den := by
  rw [standard, if_neg notWhole, positive_eq, ← positive]
  rfl

theorem not_isWhole_of_isBare {m : MixedNumber} (isBare : m.IsBare) : ¬ m.IsWhole := by
  rintro ⟨noNum, nonzero⟩
  rcases isBare.2 with num | noDen
  · exact num noNum
  · exact nonzero noDen

theorem lexemes_of_positive {m : MixedNumber} (positive : m.sign = .positive) :
    m.lexemes = m.unsignedLexemes := by
  unfold lexemes
  split
  · next zero =>
      rcases zero with ⟨no_parts, nonzero⟩
      simp only [isZero, Bool.and_eq_true, beq_iff_eq] at no_parts
      rw [unsignedLexemes, if_pos ⟨no_parts.2, nonzero⟩, no_parts.1]
  · rw [positive]
    rfl

theorem lexemes_of_isWhole {m : MixedNumber} (positive : m.sign = .positive)
    (isWhole : m.IsWhole) : m.lexemes = [.numeral m.whole] :=
  (lexemes_of_positive positive).trans (if_pos isWhole)

theorem lexemes_of_isBare {m : MixedNumber} (positive : m.sign = .positive)
    (isBare : m.IsBare) : m.lexemes = [.numeral m.num, .slash, .numeral m.den] :=
  (lexemes_of_positive positive).trans
    ((if_neg (not_isWhole_of_isBare isBare)).trans (if_pos isBare.1))

/-- Any other positive number shows all of its parts. -/
theorem lexemes_of_mixed {m : MixedNumber} (positive : m.sign = .positive)
    (notWhole : ¬ m.IsWhole) (notBare : ¬ m.IsBare) :
    m.lexemes = [.numeral m.whole, .blank, .numeral m.num, .slash, .numeral m.den] := by
  have whole_nonzero : m.whole ≠ 0 := by
    intro zero
    refine notBare ⟨zero, ?_⟩
    by_cases noNum : m.num = 0
    · exact Or.inr (not_not.mp (fun nonzero => notWhole ⟨noNum, nonzero⟩))
    · exact Or.inl noNum
  exact (lexemes_of_positive positive).trans ((if_neg notWhole).trans (if_neg whole_nonzero))

end MixedNumber

/-- The member, over the denominator one if it is a number without a fraction. -/
def Member.standard : Member -> Member
  | number value => number value.standard
  | operator op => operator op

namespace Expression

/-- No number is negative. -/
def Plain (members : Expression) : Prop :=
  ∀ number, .number number ∈ members -> number.sign = .positive

theorem Plain.tail {member : Member} {rest : Expression} (plain : Plain (member :: rest)) :
    Plain rest :=
  fun number inRest => plain number (List.mem_cons_of_mem member inRest)

/-- A member joins the first of the members after it. -/
def JoinsNext : Member -> Expression -> Prop
  | .number first, .number second :: _ => first.Joins second
  | _, _ => False

/-- What is read where the members were written. -/
def reread : Expression -> Expression
  | .number first :: .number second :: rest =>
      if first.Joins second then .number (first.join second) :: reread rest
      else .number first.standard.form :: reread (.number second :: rest)
  | member :: rest => member.standard.form :: reread rest
  | [] => []

theorem reread_join {first second : MixedNumber} (joins : first.Joins second)
    (rest : Expression) :
    reread (.number first :: .number second :: rest) =
      .number (first.join second) :: reread rest := by
  rw [reread, if_pos joins]

example : reread [.number (.positive 1 0 1), .number (.positive 0 3 4)] =
    [.number (.positive 1 3 4)] := by decide

theorem reread_apart {member : Member} {rest : Expression} (apart : ¬ JoinsNext member rest) :
    reread (member :: rest) = member.standard.form :: reread rest := by
  cases member with
  | operator op => rfl
  | number first =>
      cases rest with
      | nil => rfl
      | cons next later =>
          cases next with
          | operator op => rfl
          | number second => exact if_neg apart

/-- From the left, either a pair joins and is left behind, or a member by itself. -/
theorem reread_induction {motive : Expression -> Prop} (nil : motive [])
    (join : ∀ first second rest, first.Joins second -> motive rest ->
      motive (.number first :: .number second :: rest))
    (apart : ∀ member rest, ¬ JoinsNext member rest -> motive rest -> motive (member :: rest))
    (members : Expression) : motive members := by
  induction members using reread.induct with
  | case1 first second rest joins inductionHypothesis =>
      exact join first second rest joins inductionHypothesis
  | case2 first second rest notJoined inductionHypothesis =>
      exact apart (.number first) (.number second :: rest) notJoined inductionHypothesis
  | case3 member rest notPair inductionHypothesis =>
      refine apart member rest ?_ inductionHypothesis
      intro joins
      cases member with
      | operator op => exact joins
      | number first =>
          cases rest with
          | nil => exact joins
          | cons next later =>
              cases next with
              | operator op => exact joins
              | number second => exact notPair first second later rfl rfl
  | case4 => exact nil

/-- A number that joins nothing after it is read back by itself: what comes next does not supply the
fraction that a whole number lacks. -/
theorem ofLexemes_number {number : MixedNumber} {rest : Expression}
    (plain : Plain (.number number :: rest)) (apart : ¬ JoinsNext (.number number) rest) :
    ofLexemes (number.lexemes ++ lexemes rest) =
      .number number.standard.form :: ofLexemes (lexemes rest) := by
  have positive := plain number List.mem_cons_self
  by_cases isBare : number.IsBare
  · rw [MixedNumber.lexemes_of_isBare positive isBare, MixedNumber.standard_form_of_not_isWhole
      positive (MixedNumber.not_isWhole_of_isBare isBare), isBare.1]
    rfl
  by_cases notWhole : ¬ number.IsWhole
  · rw [MixedNumber.lexemes_of_mixed positive notWhole isBare,
      MixedNumber.standard_form_of_not_isWhole positive notWhole]
    rfl
  have isWhole := not_not.mp notWhole
  rw [MixedNumber.lexemes_of_isWhole positive isWhole,
    MixedNumber.standard_form_of_isWhole positive isWhole]
  cases rest with
  | nil => rfl
  | cons member later =>
      cases member with
      | operator op => cases op <;> rfl
      | number second =>
          have positive_second := plain second (List.mem_cons_of_mem _ List.mem_cons_self)
          have notBare : ¬ second.IsBare := fun bare => apart ⟨isWhole, bare⟩
          change ofLexemes (.numeral number.whole :: .blank :: (second.lexemes ++ lexemes later)) =
            _ :: ofLexemes (second.lexemes ++ lexemes later)
          by_cases secondWhole : second.IsWhole
          · rw [MixedNumber.lexemes_of_isWhole positive_second secondWhole]
            rcases lexemes_eq_nil_or_blank later with ends | ⟨more, continues⟩
            · rw [ends]
              rfl
            · rw [continues]
              rfl
          · rw [MixedNumber.lexemes_of_mixed positive_second secondWhole notBare]
            rfl

theorem ofLexemes_join {first second : MixedNumber} {rest : Expression}
    (plain : Plain (.number first :: .number second :: rest)) (joins : first.Joins second) :
    ofLexemes (lexemes (.number first :: .number second :: rest)) =
      .number (first.join second) :: ofLexemes (lexemes rest) := by
  have positive := plain first List.mem_cons_self
  have positive_second := plain second (List.mem_cons_of_mem _ List.mem_cons_self)
  change ofLexemes (first.lexemes ++ .blank :: (second.lexemes ++ lexemes rest)) = _
  rw [MixedNumber.lexemes_of_isWhole positive joins.1,
    MixedNumber.lexemes_of_isBare positive_second joins.2]
  rfl

theorem ofLexemes_lexemes {members : Expression} (plain : Plain members) :
    ofLexemes members.lexemes = members.reread := by
  induction members using reread_induction with
  | nil => rfl
  | join first second rest joins inductionHypothesis =>
      rw [ofLexemes_join plain joins, inductionHypothesis plain.tail.tail, reread_join joins]
  | apart member rest apart inductionHypothesis =>
      rw [reread_apart apart, ← inductionHypothesis plain.tail]
      cases member with
      | operator op => cases op <;> rfl
      | number value => exact ofLexemes_number plain apart

/-- Plain members can be read back from their text. -/
theorem ofText_text_of_plain {members : Expression} (plain : Plain members) :
    ofText (text members) = .ok members.reread := by
  rw [ofText_text, ofLexemes_lexemes plain]

/-! ## Pairs that join -/

/-- No two neighbours join. -/
def Unjoined (members : Expression) : Prop :=
  ∀ first second, [.number first, .number second] <:+: members -> ¬ first.Joins second

theorem unjoined_cons_iff {member : Member} {rest : Expression} :
    Unjoined (member :: rest) ↔ ¬ JoinsNext member rest ∧ Unjoined rest := by
  constructor
  · intro unjoined
    refine ⟨?_, fun first second inside => unjoined first second (List.infix_cons inside)⟩
    intro joins
    cases member with
    | operator op => exact joins
    | number first =>
        cases rest with
        | nil => exact joins
        | cons next later =>
            cases next with
            | operator op => exact joins
            | number second => exact unjoined first second ⟨[], later, rfl⟩ joins
  · rintro ⟨head, tail⟩ first second inside
    rcases List.infix_cons_iff.mp inside with ⟨later, atHead⟩ | inTail
    · cases atHead
      exact head
    · exact tail first second inTail

theorem length_reread_le (members : Expression) : (reread members).length ≤ members.length := by
  induction members using reread_induction with
  | nil => exact Nat.le_refl 0
  | join first second rest joins inductionHypothesis =>
      rw [reread_join joins]
      exact Nat.succ_le_succ (Nat.le_succ_of_le inductionHypothesis)
  | apart member rest apart inductionHypothesis =>
      rw [reread_apart apart]
      exact Nat.succ_le_succ inductionHypothesis

/-- A number with a display mark is never read. -/
theorem form_reread (members : Expression) : form (reread members) = reread members := by
  induction members using reread_induction with
  | nil => rfl
  | join first second rest joins inductionHypothesis =>
      rw [reread_join joins]
      exact congrArg₂ List.cons rfl inductionHypothesis
  | apart member rest apart inductionHypothesis =>
      rw [reread_apart apart]
      cases member <;> exact congrArg₂ List.cons rfl inductionHypothesis

/-- Each pair that joins costs a member, so all members are kept only where none does. -/
theorem reread_eq_standard_iff (members : Expression) :
    reread members = form (members.map Member.standard) ↔ Unjoined members := by
  induction members using reread_induction with
  | nil =>
      refine ⟨fun _ first second inside => ?_, fun _ => rfl⟩
      rw [List.infix_nil] at inside
      cases inside
  | join first second rest joins _ =>
      constructor
      · intro kept
        have shorter := length_reread_le rest
        have same := congrArg List.length kept
        rw [reread_join joins] at same
        simp only [form, List.length_cons, List.length_map] at same
        omega
      · intro unjoined
        exact absurd joins (unjoined first second ⟨[], rest, rfl⟩)
  | apart member rest apart inductionHypothesis =>
      rw [reread_apart apart, unjoined_cons_iff, ← inductionHypothesis]
      simp only [form, List.map_cons, List.cons.injEq, true_and]
      exact ⟨fun same => ⟨apart, same⟩, And.right⟩

/-- Reading back a written expression always succeeds if no number in it is negative.  Up to
the denominators of numbers without a fraction, the members are the same again exactly when no
whole number stands before a bare fraction. -/
theorem ofText_text_standard_iff {members : Expression} (plain : Plain members) :
    ∃ read, ofText (text members) = .ok read ∧
      (read.form = form (members.map Member.standard) ↔
        ∀ first second, [.number first, .number second] <:+: members ->
          ¬ (first.num = 0 ∧ first.den ≠ 0 ∧ second.whole = 0 ∧
            (second.num ≠ 0 ∨ second.den = 0))) := by
  refine ⟨members.reread, ofText_text_of_plain plain, ?_⟩
  rw [form_reread, reread_eq_standard_iff]
  simp only [Unjoined, MixedNumber.Joins, MixedNumber.IsWhole, MixedNumber.IsBare, and_assoc]

/-- `5 0/7` and `6 2/3` are written `5 6 2/3`, which is read as `5 0/1` and `6 2/3`. -/
theorem ofText_text_standard_two_numbers :
    Plain [.number (.positive 5 0 7), .number (.positive 6 2 3)] ∧
      ∃ read, ofText (text [.number (.positive 5 0 7), .number (.positive 6 2 3)]) = .ok read ∧
        read.form = [.number (.positive 5 0 1), .number (.positive 6 2 3)] := by
  have plain : Plain [.number (.positive 5 0 7), .number (.positive 6 2 3)] := by
    intro number member
    simp only [List.mem_cons, Member.number.injEq, List.not_mem_nil, or_false] at member
    rcases member with rfl | rfl <;> rfl
  rcases ofText_text_standard_iff plain with ⟨read, isRead, same⟩
  refine ⟨plain, read, isRead, same.mpr ?_⟩
  intro first second inside
  cases inside.eq_of_length rfl
  decide

end Expression

end MixedCalculator
