import MixedCalculator.Proofs.Expression.Rereading

namespace MixedCalculator

/-!
# Showing again what was read back

Two members that are read back as one number are mostly shown again as the two of them were.  A mixed
number has a space between its parts, and members have one between them.  The exception is a zero before
a bare fraction.  It is read as a whole part, and a whole part of zero is not written.  So what was read
back is shown like the expression without such zeros, and without them not a character changes.
-/

namespace MixedNumber

theorem sign_positive (whole num den : UInt32) : (positive whole num den).sign = .positive := by
  rw [positive_eq]

/-- The denominator of a number without a fraction is not written. -/
theorem lexemes_standard_form {m : MixedNumber} (positive : m.sign = .positive) :
    m.standard.form.lexemes = m.lexemes := by
  by_cases isWhole : m.IsWhole
  · have stillWhole : (MixedNumber.positive m.whole 0 1).IsWhole := by
      rw [positive_eq]
      exact ⟨rfl, (by decide : (1 : UInt32) ≠ 0)⟩
    rw [standard_form_of_isWhole positive isWhole, lexemes_of_isWhole positive isWhole,
      lexemes_of_isWhole (sign_positive _ _ _) stillWhole, positive_eq]
  · rw [standard, if_neg isWhole]
    rfl

theorem lexemes_join {first second : MixedNumber} (positive : first.sign = .positive)
    (positiveToo : second.sign = .positive) (joins : first.Joins second) :
    (first.join second).lexemes =
      if first.whole = 0 then second.lexemes else first.lexemes ++ .blank :: second.lexemes := by
  rw [lexemes_of_isWhole positive joins.1, lexemes_of_isBare positiveToo joins.2, join, positive_eq]
  split
  · next zero => exact lexemes_of_isBare rfl ⟨zero, joins.2.2⟩
  · next nonzero =>
      refine lexemes_of_mixed rfl ?_ (fun isBare => nonzero isBare.1)
      rintro ⟨noNum, hasDen⟩
      exact not_isWhole_of_isBare joins.2 ⟨noNum, hasDen⟩

end MixedNumber

/-- The member is a zero before a bare fraction. -/
def Member.LostBefore : Member -> Member -> Prop
  | number first, number second => first.whole = 0 ∧ first.Joins second
  | _, _ => False

instance : (first second : Member) -> Decidable (first.LostBefore second)
  | .number first, .number second =>
      inferInstanceAs (Decidable (first.whole = 0 ∧ first.Joins second))
  | .number _, .operator _ => .isFalse not_false
  | .operator _, _ => .isFalse not_false

namespace Expression

/-- The expression without the zeros before bare fractions. -/
def withoutLostZeros : Expression -> Expression
  | first :: second :: rest =>
      if first.LostBefore second then withoutLostZeros (second :: rest)
      else first :: withoutLostZeros (second :: rest)
  | members => members

theorem withoutLostZeros_lost {first second : Member} (lost : first.LostBefore second)
    (rest : Expression) :
    withoutLostZeros (first :: second :: rest) = withoutLostZeros (second :: rest) := by
  rw [withoutLostZeros, if_pos lost]

theorem withoutLostZeros_kept {member : Member} {rest : Expression}
    (kept : ∀ next ∈ rest.head?, ¬ member.LostBefore next) :
    withoutLostZeros (member :: rest) = member :: withoutLostZeros rest := by
  cases rest with
  | nil => rfl
  | cons next later => rw [withoutLostZeros, if_neg (kept next rfl)]

theorem kept_of_not_joinsNext {member : Member} {rest : Expression}
    (apart : ¬ JoinsNext member rest) : ∀ next ∈ rest.head?, ¬ member.LostBefore next := by
  intro next isNext lost
  cases rest with
  | nil => cases isNext
  | cons next later =>
      cases isNext
      cases member with
      | operator op => exact lost
      | number first =>
          cases next with
          | operator op => exact lost
          | number second => exact apart lost.2

/-- A bare fraction is no whole number, so it joins nothing after it. -/
theorem not_joinsNext_of_isBare {number : MixedNumber} (isBare : number.IsBare)
    (rest : Expression) : ¬ JoinsNext (.number number) rest := by
  intro joins
  cases rest with
  | nil => exact joins
  | cons next later =>
      cases next with
      | operator op => exact joins
      | number second => exact MixedNumber.not_isWhole_of_isBare isBare joins.1

/-- What is read back is spelled like the expression without the zeros that get lost. -/
theorem lexemes_reread {members : Expression} (plain : Plain members) :
    (reread members).lexemes = members.withoutLostZeros.lexemes := by
  induction members using reread_induction with
  | nil => rfl
  | join first second rest joins inductionHypothesis =>
      have positive := plain first List.mem_cons_self
      have positiveToo := plain second (List.mem_cons_of_mem _ List.mem_cons_self)
      have afterwards : withoutLostZeros (.number second :: rest) =
          .number second :: withoutLostZeros rest :=
        withoutLostZeros_kept (kept_of_not_joinsNext (not_joinsNext_of_isBare joins.2 rest))
      rw [reread_join joins]
      change .blank :: (first.join second).lexemes ++ (reread rest).lexemes = _
      rw [MixedNumber.lexemes_join positive positiveToo joins,
        inductionHypothesis plain.tail.tail]
      by_cases zero : first.whole = 0
      · have lost : (Member.number first).LostBefore (.number second) := ⟨zero, joins⟩
        rw [if_pos zero, withoutLostZeros_lost lost, afterwards]
        rfl
      · have kept : ∀ next ∈ (Member.number second :: rest).head?,
            ¬ (Member.number first).LostBefore next := by
          intro next isNext lost
          cases isNext
          exact zero lost.1
        rw [if_neg zero, withoutLostZeros_kept kept, afterwards]
        simp only [lexemes, Member.lexemes, List.flatMap_cons, List.cons_append, List.append_assoc]
  | apart member rest apart inductionHypothesis =>
      rw [reread_apart apart, withoutLostZeros_kept (kept_of_not_joinsNext apart)]
      have alike : member.standard.form.lexemes = member.lexemes := by
        cases member with
        | operator op => rfl
        | number value => exact MixedNumber.lexemes_standard_form (plain value List.mem_cons_self)
      change .blank :: member.standard.form.lexemes ++ (reread rest).lexemes =
        .blank :: member.lexemes ++ rest.withoutLostZeros.lexemes
      rw [alike, inductionHypothesis plain.tail]

theorem chars_eq_tail (members : Expression) :
    chars members = (members.lexemes.flatMap Lexeme.spelling).tail := by
  rw [spelling_lexemes]
  cases members with
  | nil => rfl
  | cons member rest => exact chars_cons member rest

theorem text_reread {members : Expression} (plain : Plain members) :
    text (reread members) = text members.withoutLostZeros := by
  rw [text, text, chars_eq_tail, lexemes_reread plain, ← chars_eq_tail]

/-! ## Expressions that lose no zero -/

theorem withoutLostZeros_ne_nil {members : Expression} (nonempty : members ≠ []) :
    members.withoutLostZeros ≠ [] := by
  induction members using withoutLostZeros.induct with
  | case1 first second rest lost inductionHypothesis =>
      rw [withoutLostZeros_lost lost]
      exact inductionHypothesis (List.cons_ne_nil _ _)
  | case2 first second rest kept _ =>
      rw [withoutLostZeros, if_neg kept]
      exact List.cons_ne_nil _ _
  | case3 members noPair =>
      rwa [withoutLostZeros.eq_2 members noPair]

theorem length_chars_cons (member : Member) {rest : Expression} (nonempty : rest ≠ []) :
    (chars (member :: rest)).length = member.chars.length + ((chars rest).length + 1) := by
  cases rest with
  | nil => exact absurd rfl nonempty
  | cons next later =>
      simp only [chars_cons, List.flatMap_cons, List.length_append, List.length_cons]
      omega

/-- Every zero that gets lost was shown. -/
theorem length_chars_withoutLostZeros (members : Expression) :
    members.withoutLostZeros = members ∨
      (chars members.withoutLostZeros).length < (chars members).length := by
  induction members using withoutLostZeros.induct with
  | case1 first second rest lost inductionHypothesis =>
      right
      have notLonger : (chars (withoutLostZeros (second :: rest))).length ≤
          (chars (second :: rest)).length := by
        rcases inductionHypothesis with same | shorter
        · rw [same]
        · exact shorter.le
      rw [withoutLostZeros_lost lost, length_chars_cons first (List.cons_ne_nil second rest)]
      omega
  | case2 first second rest kept inductionHypothesis =>
      rw [withoutLostZeros, if_neg kept]
      rcases inductionHypothesis with same | shorter
      · left
        rw [same]
      · right
        have nonempty := List.cons_ne_nil second rest
        rw [length_chars_cons first nonempty,
          length_chars_cons first (withoutLostZeros_ne_nil nonempty)]
        omega
  | case3 members noPair => exact Or.inl (withoutLostZeros.eq_2 members noPair)

theorem text_withoutLostZeros_eq_iff (members : Expression) :
    text members.withoutLostZeros = text members ↔ members.withoutLostZeros = members := by
  constructor
  · intro same
    rcases length_chars_withoutLostZeros members with kept | shorter
    · exact kept
    · rw [String.ofList_injective same] at shorter
      exact absurd shorter (lt_irrefl _)
  · intro kept
    rw [kept]

theorem length_withoutLostZeros_le (members : Expression) :
    members.withoutLostZeros.length ≤ members.length := by
  induction members using withoutLostZeros.induct with
  | case1 first second rest lost inductionHypothesis =>
      rw [withoutLostZeros_lost lost]
      exact Nat.le_succ_of_le inductionHypothesis
  | case2 first second rest kept inductionHypothesis =>
      rw [withoutLostZeros, if_neg kept]
      exact Nat.succ_le_succ inductionHypothesis
  | case3 members noPair => rw [withoutLostZeros.eq_2 members noPair]

theorem withoutLostZeros_eq_iff_isChain (members : Expression) :
    members.withoutLostZeros = members ↔
      members.IsChain (fun first second => ¬ first.LostBefore second) := by
  induction members using withoutLostZeros.induct with
  | case1 first second rest lost _ =>
      constructor
      · intro kept
        have shorter := length_withoutLostZeros_le (second :: rest)
        rw [← withoutLostZeros_lost lost, kept] at shorter
        exact absurd shorter (Nat.not_succ_le_self _)
      · intro chain
        exact absurd lost (List.isChain_cons_cons.mp chain).1
  | case2 first second rest kept inductionHypothesis =>
      rw [withoutLostZeros, if_neg kept, List.isChain_cons_cons, ← inductionHypothesis,
        List.cons.injEq]
      exact ⟨fun same => ⟨kept, same.2⟩, fun chain => ⟨rfl, chain.2⟩⟩
  | case3 members noPair =>
      refine iff_of_true (withoutLostZeros.eq_2 members noPair) ?_
      cases members with
      | nil => exact List.IsChain.nil
      | cons first rest =>
          cases rest with
          | nil => exact List.IsChain.singleton _
          | cons second later => exact absurd rfl (noPair first second later)

/-- No zero gets lost exactly when no zero stands before a bare fraction. -/
theorem withoutLostZeros_eq_iff (members : Expression) :
    members.withoutLostZeros = members ↔
      ∀ first second, [.number first, .number second] <:+: members ->
        ¬ (first.whole = 0 ∧ first.Joins second) := by
  rw [withoutLostZeros_eq_iff_isChain]
  constructor
  · intro chain first second inside
    have pair := List.IsChain.infix chain inside
    exact List.isChain_pair.mp pair
  · intro apart
    refine List.isChain_iff_forall_rel_of_append_cons_cons.mpr ?_
    rintro (first | _) (second | _) before after rfl lost
    · exact apart first second ⟨before, after, by simp⟩ lost
    all_goals exact lost

/-- Reading the text of plain members back always succeeds, and showing what was read shows the
members without the zeros that stand before bare fractions.  Not a character changes exactly when
there are no such zeros. -/
theorem text_read_back_iff {members : Expression} (plain : Plain members) :
    ∃ read, ofText (text members) = .ok read ∧
      text read = text members.withoutLostZeros ∧
      (text read = text members ↔
        ∀ first second, [.number first, .number second] <:+: members ->
          ¬ (first.whole = 0 ∧ first.num = 0 ∧ first.den ≠ 0 ∧ second.whole = 0 ∧
            (second.num ≠ 0 ∨ second.den = 0))) := by
  refine ⟨members.reread, ofText_text_of_plain plain, text_reread plain, ?_⟩
  rw [text_reread plain, text_withoutLostZeros_eq_iff, withoutLostZeros_eq_iff]
  simp only [MixedNumber.Joins, MixedNumber.IsWhole, MixedNumber.IsBare, and_assoc]

theorem plain_pair (whole num den whole' num' den' : UInt32) :
    Plain [.number (.positive whole num den), .number (.positive whole' num' den')] := by
  intro number member
  simp only [List.mem_cons, Member.number.injEq, List.not_mem_nil, or_false] at member
  rcases member with rfl | rfl <;> exact MixedNumber.sign_positive _ _ _

/-- `5 0/7` and `3/4` are read back as the one number `5 3/4`, and nothing shows. -/
theorem text_read_back_of_joined :
    Plain [.number (.positive 5 0 7), .number (.positive 0 3 4)] ∧
      ∃ read, ofText (text [.number (.positive 5 0 7), .number (.positive 0 3 4)]) = .ok read ∧
        text read = text [.number (.positive 5 0 7), .number (.positive 0 3 4)] := by
  have plain := plain_pair 5 0 7 0 3 4
  rcases text_read_back_iff plain with ⟨read, isRead, -, unchanged⟩
  refine ⟨plain, read, isRead, unchanged.mpr ?_⟩
  intro first second inside
  cases inside.eq_of_length rfl
  decide

/-- `0` and `3/4` are shown as `0 3/4`, and what is read there is shown as `3/4`. -/
theorem text_read_back_of_lost_zero :
    Plain [.number (.positive 0 0 1), .number (.positive 0 3 4)] ∧
      ∃ read, ofText (text [.number (.positive 0 0 1), .number (.positive 0 3 4)]) = .ok read ∧
        text read ≠ text [.number (.positive 0 0 1), .number (.positive 0 3 4)] := by
  have plain := plain_pair 0 0 1 0 3 4
  refine ⟨plain, _, ofText_text_of_plain plain, ?_⟩
  decide

end Expression

end MixedCalculator
