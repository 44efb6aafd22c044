import Mathlib.Data.List.DropRight
import MixedCalculator.Proofs.Editor.Reachability
import MixedCalculator.Proofs.Expression.Concatenation
import MixedCalculator.Proofs.Text.Refusal

namespace MixedCalculator

/-!
# Taking over the line of text

The blanks at both ends of the line are taken off before it is read.  They stand for nothing, so the
same members are read with and without them, or the same fault is found.  But a fault may have a
position, and then it does make a difference: what is counted is the line from its first character
that is not blank.  The message tells the place of the character in the line itself only if no blanks
stand in front.
-/

namespace Text

/-- How many blanks a text begins with. -/
def indent (text : List Char) : Nat :=
  (text.takeWhile isBlank).length

/-- What is taken off a text are blanks, and as many in front as it begins with. -/
theorem exists_eq_trim (text : List Char) :
    ∃ front back, text = front ++ (trim text ++ back) ∧ front.length = indent text ∧
      (∀ c ∈ front, isBlank c = true) ∧ ∀ c ∈ back, isBlank c = true := by
  refine ⟨text.takeWhile isBlank, (text.dropWhile isBlank).rtakeWhile isBlank, ?_, rfl,
    fun _ => List.mem_takeWhile_imp, fun _ => List.mem_rtakeWhile_imp⟩
  have apart : trim text ++ (text.dropWhile isBlank).rtakeWhile isBlank =
      text.dropWhile isBlank := by
    rw [trim, List.rtakeWhile, ← List.reverse_append, List.takeWhile_append_dropWhile,
      List.reverse_reverse]
  rw [apart, List.takeWhile_append_dropWhile]

end Text

/-! ## What reading finds wrong -/

/-- The characters of an unsigned number tell the number. -/
theorem Numeral.natText_inj {m n : Nat} (same : natText m = natText n) : m = n := by
  have digits := congrArg String.toList same
  rw [natText, natText, String.toList_ofList, String.toList_ofList] at digits
  rw [← extend_ofNat m, digits, extend_ofNat]

/-- A message tells the position of a character. -/
theorem Fault.message_unexpectedCharacter_inj {first second : Nat} {c : Char}
    (same : message (.unexpectedCharacter first c) = message (.unexpectedCharacter second c)) :
    first = second := by
  have chars : ("caractère inattendu: '" ++ c.toString ++ "' (position " ++
        Numeral.natText first ++ ")").toList =
      ("caractère inattendu: '" ++ c.toString ++ "' (position " ++
        Numeral.natText second ++ ")").toList := congrArg String.toList same
  simp only [String.toList_append, List.append_assoc] at chars
  have tails := List.append_cancel_left (List.append_cancel_left (List.append_cancel_left chars))
  exact Numeral.natText_inj (String.toList_injective (List.append_cancel_right tails))

namespace Expression

theorem ofText_eq_ofChars_trim (text : String) :
    ofText text =
      (ofChars (Text.trim text.toList)).mapError (Fault.behind (Text.indent text.toList)) := by
  rcases Text.exists_eq_trim text.toList with ⟨front, back, split, length, inFront, inBack⟩
  have untrimmed := ofChars_blanks_append (Text.trim text.toList ++ back) inFront
  rw [← split, length, ofChars_append_blanks _ inBack] at untrimmed
  exact untrimmed

/-- Reading finds either a numeral too large, or a character at the position that it tells. -/
theorem fault_of_ofText {text : String} {fault : Fault} (refused : ofText text = .error fault) :
    fault = .overflow ∨
      ∃ position c, fault = .unexpectedCharacter position c ∧ text.toList[position]? = some c := by
  rcases ofText_verdict text with ⟨-, members, isRead⟩ | ⟨place, found, isFirst, refusedToo⟩
  · rw [isRead] at refused
    cases refused
  · cases refused.symm.trans refusedToo
    cases isFirst.flaw with
    | character before c after split _ =>
        refine Or.inr ⟨before.length, c, rfl, ?_⟩
        rw [split, List.getElem?_append_right (Nat.le_refl _), Nat.sub_self]
        rfl
    | numeral before digits after split isRun large => exact Or.inl rfl

end Expression

namespace Editor

theorem importEntry_of_ok {editor : Editor} {members : Expression}
    (isRead : Expression.ofText editor.entry = .ok members) :
    editor.importEntry =
      if memberLimit < members.length then (false, editor.refuse .tooLong)
      else (true, { editor with members := members, notice := none }) := by
  rw [Expression.ofText_eq_ofChars_trim] at isRead
  cases trimmed : Expression.ofChars (Text.trim editor.entry.toList) with
  | error fault =>
      rw [trimmed] at isRead
      cases isRead
  | ok others =>
      rw [trimmed] at isRead
      cases isRead
      simp only [importEntry, trimmed]

/-- The fault that is shown lacks the blanks in front. -/
theorem importEntry_of_error {editor : Editor} {fault : Fault}
    (refused : Expression.ofText editor.entry = .error fault) :
    ∃ shown : Fault, editor.importEntry = (false, editor.refuse (.fault shown)) ∧
      shown.behind (Text.indent editor.entry.toList) = fault := by
  rw [Expression.ofText_eq_ofChars_trim] at refused
  cases trimmed : Expression.ofChars (Text.trim editor.entry.toList) with
  | ok members =>
      rw [trimmed] at refused
      cases refused
  | error shown =>
      rw [trimmed] at refused
      cases refused
      exact ⟨shown, by simp only [importEntry, trimmed], rfl⟩

/-- The line of text is taken over exactly if it can be read as it is and is not too long, and then
its members are those of the line as it is.  A fault is shown for the line from its first character
that is not blank.  So the message is that of the fault in the line itself for a numeral too large,
but for an unexpected character only if no blanks stand in front. -/
theorem import_counts_from_first_nonblank (editor : Editor) :
    (editor.importEntry.1 = true ↔
        ∃ members, Expression.ofText editor.entry = .ok members ∧ members.length ≤ memberLimit) ∧
      (∀ members, Expression.ofText editor.entry = .ok members ->
        editor.importEntry =
          if memberLimit < members.length then (false, editor.refuse .tooLong)
          else (true, { editor with members := members, notice := none })) ∧
      ∀ fault, Expression.ofText editor.entry = .error fault ->
        ∃ shown : Fault, editor.importEntry = (false, editor.refuse (.fault shown)) ∧
          editor.importEntry.2.noticeText = shown.message ∧
          shown.behind (Text.indent editor.entry.toList) = fault ∧
          (∀ position c, fault = .unexpectedCharacter position c ->
            editor.entry.toList[position]? = some c) ∧
          (editor.importEntry.2.noticeText = fault.message ↔
            Text.indent editor.entry.toList = 0 ∨ fault = .overflow) := by
  refine ⟨?_, fun _ => importEntry_of_ok, ?_⟩
  · constructor
    · intro imported
      cases outcome : Expression.ofText editor.entry with
      | error fault =>
          rcases importEntry_of_error outcome with ⟨shown, refused, -⟩
          rw [refused] at imported
          cases imported
      | ok members =>
          rw [importEntry_of_ok outcome] at imported
          split at imported
          · cases imported
          · next short => exact ⟨members, rfl, Nat.le_of_not_lt short⟩
    · rintro ⟨members, isRead, short⟩
      rw [importEntry_of_ok isRead, if_neg (Nat.not_lt.mpr short)]
  · intro fault refused
    rcases importEntry_of_error refused with ⟨shown, notImported, moved⟩
    have noticed : editor.importEntry.2.noticeText = shown.message := by
      rw [notImported]
      rfl
    refine ⟨shown, notImported, noticed, moved, ?_, ?_⟩
    · rintro position c rfl
      rcases Expression.fault_of_ofText refused with impossible | ⟨place, d, same, isThere⟩
      · cases impossible
      · cases same
        exact isThere
    · rw [noticed, ← moved]
      cases shown with
      | unexpectedCharacter position c =>
          constructor
          · intro same
            have places := Fault.message_unexpectedCharacter_inj same
            exact Or.inl (by omega)
          · rintro (noBlanks | impossible)
            · rw [noBlanks, Fault.behind_zero]
            · cases impossible
      | overflow => exact iff_of_true rfl (Or.inr rfl)
      | _ =>
          subst moved
          rcases Expression.fault_of_ofText refused with impossible | ⟨place, d, impossible, -⟩
          · cases impossible
          · cases impossible

/-- Three lines with a blank in front: one that is taken over, one with a numeral too large, whose
message is right in spite of the blank, and one with a character whose position is told one too low. -/
theorem import_of_indented_lines :
    (∃ editor : Editor, editor.entry = " 1 2/3 " ∧
      Expression.ofText editor.entry = .ok [.number (.positive 1 2 3)] ∧
      editor.importEntry =
        (true, { editor with members := [.number (.positive 1 2 3)], notice := none })) ∧
    (∃ editor : Editor, editor.entry = " 4294967296 ?" ∧
      Expression.ofText editor.entry = .error .overflow ∧
      editor.importEntry.2.noticeText = Fault.overflow.message) ∧
    ∃ editor : Editor, editor.entry = " 7 ?" ∧
      Expression.ofText editor.entry = .error (.unexpectedCharacter 3 '?') ∧
      editor.importEntry = (false, editor.refuse (.fault (.unexpectedCharacter 2 '?'))) ∧
      editor.importEntry.2.noticeText ≠ (Fault.unexpectedCharacter 3 '?').message := by
  refine ⟨⟨initial.perform (.type " 1 2/3 "), rfl, by decide, ?_⟩,
    ⟨initial.perform (.type " 4294967296 ?"), rfl, by decide, ?_⟩,
    ⟨initial.perform (.type " 7 ?"), rfl, by decide, ?_⟩⟩
  · exact (import_counts_from_first_nonblank _).2.1 [.number (.positive 1 2 3)] (by decide)
  · rcases (import_counts_from_first_nonblank (initial.perform (.type " 4294967296 ?"))).2.2
      .overflow (by decide) with ⟨shown, -, -, -, -, told⟩
    exact told.mpr (Or.inr rfl)
  · rcases (import_counts_from_first_nonblank (initial.perform (.type " 7 ?"))).2.2
      (.unexpectedCharacter 3 '?') (by decide) with ⟨shown, refused, -, -, -, told⟩
    refine ⟨by decide, fun same => ?_⟩
    rcases told.mp same with impossible | impossible
    · exact absurd impossible (by decide)
    · cases impossible

/-- A line with two blanks in front of what is wrong with it. -/
def indented : Editor :=
  initial.perform (.type "  1 + ?")

/-- The sixth character, counted from zero, is the one that cannot be read, but the message tells that
of the plus sign. -/
theorem import_of_indented_miscounts :
    indented.Reachable ∧
      Expression.ofText indented.entry = .error (.unexpectedCharacter 6 '?') ∧
      indented.entry.toList[6]? = some '?' ∧ indented.entry.toList[4]? = some '+' ∧
      indented.importEntry.1 = false ∧
      indented.importEntry.2.noticeText = "caractère inattendu: '?' (position 4)" ∧
      indented.importEntry.2.noticeText ≠ (Fault.unexpectedCharacter 6 '?').message :=
  ⟨.perform _ .initial, by decide, by decide, by decide, by decide, by decide, by decide⟩

end Editor
end MixedCalculator
