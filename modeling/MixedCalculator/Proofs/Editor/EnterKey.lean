import MixedCalculator.Proofs.Editor.IdleFrame
import MixedCalculator.Proofs.Editor.Operations
import MixedCalculator.Proofs.Screen.Settled

namespace MixedCalculator

/-!
# The enter key

The line of text listens to the enter key only in a frame in which it takes the keyboard.  A wish for
the keyboard is fulfilled by the first frame that comes, and a text is typed only after that.  So the
key comes too late.  It reads and evaluates what is typed as long as there is a wish, and it does
nothing once the wish has been fulfilled.
-/

open Screen

namespace Editor

/-- The enter key does not change how the members are drawn. -/
theorem undergoAll_aboveLine_enter (editor : Editor) :
    editor.undergoAll (aboveLine [.key .enter]) =
      { editor with members := editor.members.confine } := by
  have elsewhere : ∀ act ∈ [Act.key .enter], (∀ index part, entered? index part act = none) ∧
      ∀ index op, act ≠ .choose index op := by
    refine List.forall_mem_singleton.mpr ⟨fun _ _ => rfl, ?_⟩
    intro index op same
    cases same
  have drawn := drawMembers_of_elsewhere elsewhere editor.members
  exact congrArg (fun members => { editor with members := members }) drawn

/-- Without a wish for the keyboard, the enter key is not listened to. -/
theorem perform_enter_of_not_focused (editor : Editor) (notFocused : editor.focused = false) :
    editor.perform (.frame [.key .enter]) = { editor with members := editor.members.confine } := by
  change (frame [.key .enter] editor).editor = _
  rw [frame_eq_around_line (by decide), undergoAll_aboveLine_enter, onEntryLine,
    if_neg (Bool.eq_false_iff.mp notFocused)]
  rfl

/-- While there is a wish for the keyboard, the enter key reads the text and evaluates it. -/
theorem perform_enter_of_focused (editor : Editor) (focused : editor.focused = true)
    {members : Expression}
    (isRead : Expression.ofChars (Text.trim editor.entry.toList) = .ok members)
    (short : members.length ≤ memberLimit) :
    editor.perform (.frame [.key .enter]) =
      ({ editor with members := members, notice := none, focused := false } : Editor).evaluate := by
  have imported : (({ editor with members := editor.members.confine } : Editor).undergo
      .unfocus).importEntry =
        (true, { editor with members := members, notice := none, focused := false }) := by
    simp only [undergo, importEntry, isRead, if_neg (Nat.not_lt.mpr short)]
  change (frame [.key .enter] editor).editor = _
  rw [frame_eq_around_line (by decide), undergoAll_aboveLine_enter, onEntryLine, if_pos focused,
    if_pos List.mem_cons_self, if_pos (congrArg Prod.fst imported)]
  exact congrArg (fun outcome : Bool × Editor => outcome.2.evaluate) imported

/-- A text that could be read is not, once the wish for the keyboard has been fulfilled: then the
enter key does nothing that the frame would not do by itself.  The text is read and evaluated only if
the key is pressed while the wish is still there. -/
theorem enter_heard_only_with_wish {text : String} {members : Expression}
    (isRead : Expression.ofChars (Text.trim text.toList) = .ok members)
    (short : members.length ≤ memberLimit) (editor : Editor) :
    (editor.idle.perform (.type text)).perform (.frame [.key .enter]) =
        { editor with members := editor.members.confine, entry := text, focused := false } ∧
      (editor.focused = false ->
        (editor.perform (.type text)).perform (.frame [.key .enter]) =
          (editor.perform (.type text)).idle) ∧
      (editor.focused = true ->
        (∀ total, members.evaluate = .ok total ->
          (editor.perform (.type text)).perform (.frame [.key .enter]) =
            ⟨members, total.toMixed.asReadOnly, none, text, true⟩) ∧
        ∀ fault, members.evaluate = .error fault ->
          (editor.perform (.type text)).perform (.frame [.key .enter]) =
            ⟨members, editor.result, some (.fault fault), text, true⟩) := by
  refine ⟨?_, ?_, ?_⟩
  · rw [idle_eq]
    have unheard := perform_enter_of_not_focused
      { editor with members := editor.members.confine, entry := text, focused := false } rfl
    rw [Expression.confine_confine] at unheard
    exact unheard
  · intro notFocused
    rcases editor with ⟨before, result, notice, entry, focused⟩
    cases notFocused
    rw [idle_eq]
    exact perform_enter_of_not_focused ⟨before, result, notice, text, false⟩ rfl
  · intro focused
    have heard : (editor.perform (.type text)).perform (.frame [.key .enter]) =
        (⟨members, editor.result, none, text, false⟩ : Editor).evaluate :=
      perform_enter_of_focused (editor.perform (.type text)) focused isRead short
    rw [heard]
    exact ⟨fun _ evaluated => evaluate_of_ok evaluated, fun _ evaluated => evaluate_of_error evaluated⟩

/-- An editor whose line of text has just been cleared, and wishes for the keyboard. -/
def cleared : Editor :=
  initial.perform .clear

/-- The key is heard before the first frame, but not after it. -/
theorem enter_heard_before_idle :
    cleared.focused = true ∧
      Expression.ofChars (Text.trim "1/2 + 1/3".toList) =
        .ok [.number (.positive 0 1 2), .operator .plus, .number (.positive 0 1 3)] ∧
      (cleared.perform (.type "1/2 + 1/3")).perform (.frame [.key .enter]) =
        ⟨[.number (.positive 0 1 2), .operator .plus, .number (.positive 0 1 3)],
          (MixedNumber.positive 0 5 6).asReadOnly, none, "1/2 + 1/3", true⟩ ∧
      (cleared.idle.perform (.type "1/2 + 1/3")).perform (.frame [.key .enter]) =
        { cleared with members := cleared.members.confine, entry := "1/2 + 1/3", focused := false } := by
  have isRead : Expression.ofChars (Text.trim "1/2 + 1/3".toList) =
      .ok [.number (.positive 0 1 2), .operator .plus, .number (.positive 0 1 3)] := by decide
  have written : (⟨5, 6, by decide⟩ : Fraction).toMixed = .positive 0 5 6 := by decide
  rcases enter_heard_only_with_wish isRead (by decide) cleared with ⟨after, -, before⟩
  have heard := (before rfl).1 ⟨5, 6, by decide⟩ rfl
  rw [written] at heard
  exact ⟨rfl, isRead, heard, after⟩

/-- A text that could be read and evaluated is ignored, since a frame has come in between. -/
theorem enter_ignored_after_idle :
    cleared.Reachable ∧ cleared.focused = true ∧
      ∃ members total, Expression.ofChars (Text.trim "1/2 + 1/3".toList) = .ok members ∧
        members.length ≤ memberLimit ∧ members.evaluate = .ok total ∧
        ((cleared.idle.perform (.type "1/2 + 1/3")).perform (.frame [.key .enter])).members ≠ members ∧
        ((cleared.idle.perform (.type "1/2 + 1/3")).perform (.frame [.key .enter])).result ≠
          total.toMixed.asReadOnly := by
  refine ⟨.perform _ .initial, rfl,
    [.number (.positive 0 1 2), .operator .plus, .number (.positive 0 1 3)], ⟨5, 6, by decide⟩,
    by decide, by decide, rfl, ?_, ?_⟩
  · decide
  · decide

end Editor

end MixedCalculator
