import MixedCalculator.Proofs.Text.Cutting

namespace MixedCalculator

/-!
# What keeps a text from being read

Two things do: a character that belongs to no lexeme, and a run of digits whose value is too large.
Each begins at a position of the text, and reading reports the one that begins first.  Nothing
else is ever refused, and a numeral that is too large gives no position of its own away.

Flaws are found from the left, by runs: a run of digits hides no flaw behind it, but a part of a run
would have to be judged together with the rest.
-/

/-- The fault as it is reported when so many characters stand before the text. -/
def Fault.behind (distance : Nat) : Fault -> Fault
  | .unexpectedCharacter position c => .unexpectedCharacter (distance + position) c
  | fault => fault

theorem Fault.behind_behind (first second : Nat) (fault : Fault) :
    (fault.behind second).behind first = fault.behind (first + second) := by
  cases fault with
  | unexpectedCharacter position c =>
      exact congrArg (Fault.unexpectedCharacter · c) (Nat.add_assoc first second position).symm
  | _ => rfl

theorem Fault.behind_zero (fault : Fault) : fault.behind 0 = fault := by
  cases fault with
  | unexpectedCharacter position c =>
      exact congrArg (Fault.unexpectedCharacter · c) (Nat.zero_add position)
  | _ => rfl

/-! ## Characters -/

namespace Text

/-- Blanks, digits and operators are all that may occur in a text. -/
def Admitted (c : Char) : Prop :=
  isBlank c = true ∨ c.isDigit = true ∨ ∃ op, Operator.ofSymbol? c = some op

theorem isDigit_of_isBlank {c : Char} (blank : isBlank c = true) : c.isDigit = false := by
  refine Bool.eq_false_iff.mpr fun digit => ?_
  rw [isBlank_of_isDigit digit] at blank
  cases blank

end Text

/-- The seven characters that denote an operator. -/
theorem Operator.mem_of_ofSymbol? {c : Char} {op : Operator} (denotes : ofSymbol? c = some op) :
    c ∈ ['+', '-', '−', '*', '×', '/', '÷'] := by
  unfold ofSymbol? at denotes
  split at denotes
  all_goals first | decide | cases denotes

namespace Lexeme

/-- An operator is neither a digit nor a blank. -/
theorem not_kind_of_ofSymbol? {c : Char} {op : Operator} (denotes : Operator.ofSymbol? c = some op) :
    c.isDigit = false ∧ Text.isBlank c = false := by
  have symbol := Operator.mem_of_ofSymbol? denotes
  simp only [List.mem_cons, List.not_mem_nil, or_false] at symbol
  rcases symbol with rfl | rfl | rfl | rfl | rfl | rfl | rfl
  all_goals exact ⟨by decide, by decide⟩

/-- What makes a character begin which lexeme. -/
theorem ofChar?_cases {c : Char} {lexeme : Lexeme} (begins : ofChar? c = some lexeme) :
    lexeme = .blank ∧ Text.isBlank c = true ∨
      lexeme = .numeral (UInt32.ofNat (Numeral.digitValue c)) ∧ c.isDigit = true ∨
      lexeme = .slash ∧ c = '/' ∨
      ∃ op, lexeme = .operator op ∧ c ≠ '/' ∧ Operator.ofSymbol? c = some op := by
  unfold ofChar? at begins
  split at begins
  · next blank => exact Or.inl ⟨(Option.some.inj begins).symm, blank⟩
  · split at begins
    · next digit => exact Or.inr (Or.inl ⟨(Option.some.inj begins).symm, digit⟩)
    · split at begins
      · next slash => exact Or.inr (Or.inr (Or.inl ⟨(Option.some.inj begins).symm, slash⟩))
      · next other =>
          rcases Option.map_eq_some_iff.mp begins with ⟨op, denotes, rfl⟩
          exact Or.inr (Or.inr (Or.inr ⟨op, rfl, other, denotes⟩))

theorem exists_ofChar?_iff (c : Char) : (∃ lexeme, ofChar? c = some lexeme) ↔ Text.Admitted c := by
  constructor
  · rintro ⟨lexeme, begins⟩
    rcases ofChar?_cases begins with ⟨-, blank⟩ | ⟨-, digit⟩ | ⟨-, rfl⟩ | ⟨op, -, -, denotes⟩
    · exact Or.inl blank
    · exact Or.inr (Or.inl digit)
    · exact Or.inr (Or.inr ⟨.dividedBy, rfl⟩)
    · exact Or.inr (Or.inr ⟨op, denotes⟩)
  · intro admitted
    unfold ofChar?
    split
    · exact ⟨.blank, rfl⟩
    · next notBlank =>
        split
        · exact ⟨_, rfl⟩
        · next notDigit =>
            split
            · exact ⟨.slash, rfl⟩
            · rcases admitted with blank | digit | ⟨op, denotes⟩
              · exact absurd blank notBlank
              · exact absurd digit notDigit
              · exact ⟨.operator op, by rw [denotes]; rfl⟩

end Lexeme

/-! ## Flaws and where they begin -/

namespace Text

/-- All the digits between what stands before and after them. -/
structure DigitRun (before digits after : List Char) : Prop where
  run : Run Char.isDigit digits
  starts : Ends Char.isDigit before.reverse
  ends : Ends Char.isDigit after

/-- What makes a text unreadable, the position at which it begins, and the fault that it is. -/
inductive Flaw (text : List Char) : Nat -> Fault -> Prop
  | character (before : List Char) (c : Char) (after : List Char) :
      text = before ++ c :: after -> ¬ Admitted c ->
      Flaw text before.length (.unexpectedCharacter before.length c)
  | numeral (before digits after : List Char) :
      text = before ++ digits ++ after -> DigitRun before digits after ->
      UInt32.size ≤ Numeral.extend 0 digits -> Flaw text before.length .overflow

/-- A flaw before which no other begins. -/
structure FirstFlaw (text : List Char) (position : Nat) (fault : Fault) : Prop where
  flaw : Flaw text position fault
  first : ∀ other reason, Flaw text other reason -> position ≤ other

/-- Nothing keeps the text from being read. -/
def Flawless (text : List Char) : Prop :=
  ∀ position fault, ¬ Flaw text position fault

theorem flawless_nil : Flawless [] := by
  intro position fault flaw
  cases flaw with
  | character before c after split _ =>
      exact List.append_ne_nil_of_right_ne_nil before (List.cons_ne_nil c after) split.symm
  | numeral before digits after split isRun _ =>
      have noDigits := (List.append_eq_nil_iff.mp (List.append_eq_nil_iff.mp split.symm).1).2
      exact isRun.run.nonempty noDigits

theorem ends_reverse_append {kind : Char -> Bool} (first : List Char) {second : List Char}
    (ends : Ends kind (first ++ second).reverse) : Ends kind second.reverse := by
  intro c later begins
  refine ends c (later ++ first.reverse) ?_
  rw [List.reverse_append, begins, List.cons_append]

/-- A flaw of the rest of a text is a flaw of the text, if the rest does not begin within a run. -/
theorem Flaw.behind {first rest : List Char} {position : Nat} {fault : Fault}
    (flaw : Flaw rest position fault)
    (parted : Ends Char.isDigit first.reverse ∨ Ends Char.isDigit rest) :
    Flaw (first ++ rest) (first.length + position) (fault.behind first.length) := by
  cases flaw with
  | character before c after split refused =>
      have flaw : Flaw (first ++ rest) _ _ :=
        .character (first ++ before) c after (by rw [split, List.append_assoc]) refused
      rw [List.length_append] at flaw
      exact flaw
  | numeral before digits after split isRun large =>
      have starts : Ends Char.isDigit (first ++ before).reverse := by
        intro c later begins
        rw [List.reverse_append] at begins
        cases reversed : before.reverse with
        | cons d more =>
            rw [reversed] at begins
            cases begins
            exact isRun.starts c more reversed
        | nil =>
            rcases parted with firstEnds | restEnds
            · rw [reversed] at begins
              exact firstEnds c later begins
            · rw [List.reverse_eq_nil_iff.mp reversed, List.nil_append] at split
              rw [split] at restEnds
              exact absurd restEnds (isRun.run.not_ends after)
      have flaw : Flaw (first ++ rest) _ _ := .numeral (first ++ before) digits after
        (by rw [split]; simp only [List.append_assoc]) ⟨isRun.run, starts, isRun.ends⟩ large
      rw [List.length_append] at flaw
      exact flaw

/-- The flaws of a text that begins with another character than a digit. -/
theorem flaw_cons_cases {c : Char} {rest : List Char} {position : Nat} {fault : Fault}
    (notDigit : c.isDigit = false) (flaw : Flaw (c :: rest) position fault) :
    position = 0 ∧ fault = .unexpectedCharacter 0 c ∧ ¬ Admitted c ∨
      ∃ other reason, Flaw rest other reason ∧ position = 1 + other ∧ fault = reason.behind 1 := by
  cases flaw with
  | character before d after split refused =>
      cases before with
      | nil =>
          cases split
          exact Or.inl ⟨rfl, rfl, refused⟩
      | cons e earlier =>
          cases split
          refine Or.inr ⟨_, _, .character earlier d after rfl refused, ?_, ?_⟩
          · exact Nat.add_comm _ _
          · exact congrArg (Fault.unexpectedCharacter · d) (Nat.add_comm _ _)
  | numeral before digits after split isRun large =>
      cases before with
      | nil =>
          rcases isRun.run.exists_cons with ⟨d, more, rfl, digit⟩
          cases split
          rw [notDigit] at digit
          cases digit
      | cons e earlier =>
          cases split
          refine Or.inr ⟨_, _, .numeral earlier digits after rfl ?_ large, Nat.add_comm _ _, rfl⟩
          exact ⟨isRun.run, ends_reverse_append [c] isRun.starts, isRun.ends⟩

/-- The flaws of a text that begins with a run of digits.  No other numeral begins within that run,
since its digits would continue one that has begun before them. -/
theorem flaw_run_cases {run rest : List Char} {position : Nat} {fault : Fault}
    (isRun : Run Char.isDigit run) (ends : Ends Char.isDigit rest)
    (flaw : Flaw (run ++ rest) position fault) :
    position = 0 ∧ fault = .overflow ∧ UInt32.size ≤ Numeral.extend 0 run ∨
      ∃ other reason, Flaw rest other reason ∧ position = run.length + other ∧
        fault = reason.behind run.length := by
  cases flaw with
  | character before c after split refused =>
      rcases List.append_eq_append_iff.mp split with ⟨later, rfl, inRest⟩ | ⟨inside, same, inRun⟩
      · refine Or.inr ⟨_, _, .character later c after inRest refused, List.length_append, ?_⟩
        exact congrArg (Fault.unexpectedCharacter · c) List.length_append
      · cases inside with
        | nil =>
            rw [List.append_nil] at same
            subst same
            exact Or.inr ⟨_, _, .character [] c after inRun.symm refused, rfl, rfl⟩
        | cons d more =>
            cases inRun
            have digit := isRun.all c (by rw [same]; exact List.mem_append_right _ List.mem_cons_self)
            exact absurd (Or.inr (Or.inl digit)) refused
  | numeral before digits after split isRunToo large =>
      rw [List.append_assoc] at split
      by_cases atFront : before = []
      · subst atFront
        rcases isRun.eq_of_append_eq isRunToo.run ends isRunToo.ends split with ⟨rfl, -⟩
        exact Or.inl ⟨rfl, rfl, large⟩
      · rcases List.append_eq_append_iff.mp split with ⟨later, rfl, inRest⟩ | ⟨inside, rfl, -⟩
        · refine Or.inr ⟨_, _, .numeral later digits after (by rw [inRest, List.append_assoc])
            ⟨isRunToo.run, ends_reverse_append run isRunToo.starts, isRunToo.ends⟩ large, ?_, rfl⟩
          exact List.length_append
        · have begun := (isRun.left_of_append atFront).reverse.not_ends []
          rw [List.append_nil] at begun
          exact absurd isRunToo.starts begun

variable {rest : List Char}

theorem Flawless.cons {c : Char} (flawless : Flawless rest) (admitted : Admitted c)
    (notDigit : c.isDigit = false) : Flawless (c :: rest) := by
  intro position fault flaw
  rcases flaw_cons_cases notDigit flaw with ⟨-, -, refused⟩ | ⟨other, reason, inRest, -, -⟩
  · exact refused admitted
  · exact flawless other reason inRest

theorem Flawless.digits {digits : List Char} (flawless : Flawless rest)
    (isRun : Run Char.isDigit digits) (ends : Ends Char.isDigit rest)
    (small : Numeral.extend 0 digits ≤ 4294967295) : Flawless (digits ++ rest) := by
  intro position fault flaw
  rcases flaw_run_cases isRun ends flaw with ⟨-, -, large⟩ | ⟨other, reason, inRest, -, -⟩
  · exact absurd large (Nat.not_le.mpr (Nat.lt_succ_of_le small))
  · exact flawless other reason inRest

end Text
end MixedCalculator
