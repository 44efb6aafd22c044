import MixedCalculator.Proofs.Editor.Reachability
import MixedCalculator.Proofs.Editor.Redrawing

namespace MixedCalculator

/-!
# One frame or several

What is done during one frame could as well be done in as many frames as there are acts, one act in
each.  The acts must then be taken in the order of drawing, since the bands below find what the bands
above have left.  The frames in between draw the members again and fulfil a wish for the keyboard.
Neither makes a difference: members that have been drawn stay as they are, and no effect depends on
whether there is a wish.

A number that is read from the text has not been drawn.  So it must lie within its fields already, or
the frame of a later act would change it.
-/

open Screen

/-- Acts of a frame that could be done one by one.  The enter key is not among them, since it acts
on a line of text that has just taken the keyboard.  No button is pressed twice, and one member is
removed at most, since in one frame the second time would not count. -/
structure Screen.Separable (acts : List Act) : Prop where
  noEnter : Act.key .enter ∉ acts
  pressedOnce : ∀ button, acts.count (.press button) ≤ 1
  oneRemoval : (acts.filterMap Act.removed?).length ≤ 1

namespace Editor

/-- The text that the button for reading finds, if it is pressed. -/
def textRead (editor : Editor) (acts : List Act) : String :=
  if Act.key .escape ∈ acts ∨ Act.press .allClear ∈ acts then "" else editor.entry

/-- If a text is read, its numbers lie within their fields. -/
def ReadsWithin (editor : Editor) (acts : List Act) : Prop :=
  Act.press .read ∈ acts -> ∀ members,
    Expression.ofChars (Text.trim (editor.textRead acts).toList) = .ok members -> members.WithinFields

/-! ## Taking out the first act -/

variable {first : Act} {later : List Act}

/-- An act that is done before or while the members are drawn. -/
theorem settled_cons_of_drawing (notRemoval : first.removed? = none)
    (notPress : ∀ button, first ≠ .press button) (inOrder : ∀ act ∈ later, first.DrawnBefore act)
    (editor : Editor) :
    editor.undergoAll (settled (first :: later)) =
      (editor.undergoAll (settled [first])).undergoAll (settled later) := by
  have same : ∀ acts, below (first :: acts) = below acts := by
    intro acts
    simp only [below, removals, List.filterMap_cons, notRemoval,
      pressed_cons_of_ne fun button _ => notPress button]
  have alone : editor.undergoAll (settled [first]) = (editor.drawn [first]).undergo .unfocus := by
    rw [undergoAll_settled_eq_below, same]
    rfl
  rw [alone, undergoAll_settled_unfocus, undergoAll_settled_eq_below, undergoAll_settled_eq_below,
    same, drawn_cons inOrder]

/-- An act that has an effect of its own once the members have been drawn.  The frame of the later
acts draws them once more, which changes nothing as they are within their fields by then. -/
theorem settled_cons_of_effect {effect : Effect} (areBelow : ∀ act ∈ first :: later, 2 ≤ act.band)
    (taken : below (first :: later) = effect :: below later)
    (takenAlone : below [first] = [effect, .unfocus]) {editor : Editor}
    (within : ((editor.undergo (.draw [])).undergo effect).members.WithinFields) :
    editor.undergoAll (settled (first :: later)) =
      (editor.undergoAll (settled [first])).undergoAll (settled later) := by
  have isBelow := areBelow first List.mem_cons_self
  have alone : editor.undergoAll (settled [first]) =
      ((editor.undergo (.draw [])).undergo effect).undergo .unfocus := by
    rw [undergoAll_settled_eq_below, takenAlone, drawn_of_below (List.forall_mem_singleton.mpr isBelow)]
    rfl
  have laterBelow : ∀ act ∈ later, 2 ≤ act.band :=
    fun act member => areBelow act (List.mem_cons_of_mem first member)
  rw [alone, undergoAll_settled_unfocus, undergoAll_settled_eq_below, undergoAll_settled_eq_below,
    drawn_of_below areBelow, drawn_of_below laterBelow, undergo_draw_nil within, taken]
  rfl

section Buttons

variable {button : Button}

/-- Behind a button only buttons are pressed, and they are others. -/
def PressesBehind (button : Button) (acts : List Act) : Prop :=
  ∀ act ∈ acts, ∃ other, act = .press other ∧ button.place < other.place

theorem pressesBehind_nil (button : Button) : PressesBehind button [] :=
  fun _ member => absurd member List.not_mem_nil

theorem pressesBehind (inOrder : ∀ act ∈ later, (Act.press button).DrawnBefore act)
    (separable : Separable (.press button :: later)) : PressesBehind button later := by
  intro act member
  have isBehind := inOrder act member
  cases act with
  | press other =>
      have different : button ≠ other := by
        rintro rfl
        have once := separable.pressedOnce button
        rw [List.count_cons_self] at once
        exact absurd (List.count_pos_iff.mpr member) (by omega)
      refine ⟨other, rfl, ?_⟩
      have apart : button.place ≠ other.place := fun same => different (Button.eq_of_place same)
      simp only [Act.DrawnBefore, Act.band, Act.row, Act.column] at isBehind
      omega
  | key which =>
      cases which with
      | enter => exact absurd (List.mem_cons_of_mem _ member) separable.noEnter
      | escape => exact absurd isBehind (by simp only [Act.DrawnBefore, Act.band]; omega)
  | _ => exact absurd isBehind (by simp only [Act.DrawnBefore, Act.band]; omega)

theorem PressesBehind.place_lt (behind : PressesBehind button later) {other : Button}
    (member : Act.press other ∈ later) : button.place < other.place := by
  rcases behind _ member with ⟨same, isPress, isBehind⟩
  cases isPress
  exact isBehind

theorem PressesBehind.band_le (behind : PressesBehind button later) :
    ∀ act ∈ Act.press button :: later, 2 ≤ act.band := by
  refine List.forall_mem_cons.mpr ⟨Nat.le_succ 2, fun act member => ?_⟩
  rcases behind act member with ⟨other, rfl, -⟩
  exact Nat.le_succ 2

theorem PressesBehind.removals (behind : PressesBehind button later) :
    removals (.press button :: later) = [] := by
  have none_removed : (Act.press button :: later).filterMap Act.removed? = [] := by
    refine List.filterMap_eq_nil_iff.mpr (List.forall_mem_cons.mpr ⟨rfl, fun act member => ?_⟩)
    rcases behind act member with ⟨other, rfl, -⟩
    rfl
  rw [Screen.removals, none_removed]
  rfl

/-- A button above the line of text is pressed before all that is behind it. -/
theorem PressesBehind.below (behind : PressesBehind button later)
    (isOperation : button ∈ operationRow) :
    below (.press button :: later) = button.effect :: below later := by
  have notEntry : ∀ other ∈ entryRow, Act.press button ≠ .press other := by
    rintro other isEntry same
    cases same
    exact not_mem_entryRow button isOperation isEntry
  have alone : Screen.removals later = [] := behind.removals
  simp only [Editor.below, behind.removals, alone, List.nil_append, pressed_cons_of_ne notEntry,
    pressed_press_cons increasing_operationRow isOperation fun _ => behind.place_lt,
    List.cons_append]

theorem settled_cons_of_operation (isOperation : button ∈ operationRow)
    (behind : PressesBehind button later) (editor : Editor) :
    editor.undergoAll (settled (.press button :: later)) =
      (editor.undergoAll (settled [.press button])).undergoAll (settled later) := by
  have notRead : button ≠ .read := by
    rintro rfl
    exact absurd isOperation (by decide)
  exact settled_cons_of_effect behind.band_le (behind.below isOperation)
    ((pressesBehind_nil button).below isOperation)
    (withinFields_undergo (withinFields_draw_nil editor) notRead)

/-- Behind the button for reading there is only the one that clears the text. -/
theorem below_behind_read (behind : PressesBehind .read later) (someLater : later ≠ []) :
    below later = [.unfocus, .clear] ∧
      below (.press .read :: later) = [.unfocus, .importEntry, .clear] := by
  have noOperation : pressed operationRow later = [] := by
    have above : ∀ button ∈ operationRow, button.place ≤ 5 := by decide
    refine List.map_eq_nil_iff.mpr (List.filter_eq_nil_iff.mpr fun button isOperation isPressed => ?_)
    have isBehind : 7 < button.place := behind.place_lt (of_decide_eq_true isPressed)
    have isAbove := above button isOperation
    omega
  have clears : pressed entryRow later = [.clear] := by
    have notRead : Act.press .read ∉ later := fun member => Nat.lt_irrefl 7 (behind.place_lt member)
    have clear : Act.press .clear ∈ later := by
      rcases List.exists_mem_of_ne_nil later someLater with ⟨act, member⟩
      rcases behind act member with ⟨other, rfl, isBehind⟩
      cases Button.eq_of_place (Nat.le_antisymm other.place_le isBehind : other.place = Button.clear.place)
      exact member
    simp only [pressed, entryRow, List.filter_cons, notRead, clear, decide_false, decide_true,
      Bool.false_eq_true, if_false, if_true, List.filter_nil, List.map_cons, List.map_nil]
    rfl
  have elsewhere : ∀ button ∈ operationRow, Act.press .read ≠ .press button := by decide
  have alone : Screen.removals later = [] := behind.removals
  constructor
  · rw [Editor.below, alone, noOperation, clears]
    rfl
  · rw [Editor.below, behind.removals, pressed_cons_of_ne elsewhere, noOperation,
      pressed_press_cons increasing_entryRow (by decide) fun _ => behind.place_lt, clears]
    rfl

theorem undergoAll_settled_read (editor : Editor) :
    editor.undergoAll (settled [.press .read]) =
      ((editor.undergo (.draw [])).undergo .unfocus).undergo .importEntry := by
  rw [undergoAll_settled_eq_below, drawn_of_below (pressesBehind_nil .read).band_le]
  rfl

theorem settled_cons_of_read (behind : PressesBehind .read later) (someLater : later ≠ [])
    {editor : Editor} (within : (editor.undergoAll (settled [.press .read])).members.WithinFields) :
    editor.undergoAll (settled (.press .read :: later)) =
      (editor.undergoAll (settled [.press .read])).undergoAll (settled later) := by
  rcases below_behind_read behind someLater with ⟨onlyClear, readThenClear⟩
  have laterBelow : ∀ act ∈ later, 2 ≤ act.band :=
    fun act member => behind.band_le act (List.mem_cons_of_mem _ member)
  have cleared : ∀ reached : Editor,
      (reached.undergo .unfocus).undergo .clear = reached.undergo .clear := fun _ => rfl
  rw [undergoAll_settled_eq_below (.press .read :: later), drawn_of_below behind.band_le,
    readThenClear, undergoAll_settled_eq_below later, drawn_of_below laterBelow,
    undergo_draw_nil within, onlyClear, undergoAll_settled_read]
  simp only [undergoAll, List.foldl_cons, List.foldl_nil, cleared]

end Buttons

/-! ## The text that is read -/

/-- The same text is read, whether or not the first act is done in a frame before. -/
theorem textRead_settled (notCleared : first ≠ .press .clear) (editor : Editor) :
    (editor.undergoAll (settled [first])).textRead later = editor.textRead (first :: later) := by
  have clears : Effect.clear ∈ settled [first] ↔ Act.key .escape = first := by
    have said : Effect.clear ∈ settled [first] ↔ _ := effect_mem_settled .clear [first]
    simpa only [List.mem_singleton, notCleared.symm, false_or, true_and] using said
  have resets : Effect.reset ∈ settled [first] ↔ Act.press .allClear = first := by
    have said : Effect.reset ∈ settled [first] ↔ _ := effect_mem_settled .allClear [first]
    simpa only [List.mem_singleton, reduceCtorEq, false_and, or_false] using said
  simp only [textRead, entry_undergoAll, clears, resets, List.mem_cons]
  by_cases cleared : Act.key .escape ∈ later ∨ Act.press .allClear ∈ later
  · rw [if_pos cleared, if_pos (cleared.imp Or.inr Or.inr)]
  · rw [if_neg cleared]
    rw [not_or] at cleared
    simp only [cleared.1, cleared.2, or_false]

/-- Numbers that are read within their fields are the members then. -/
theorem withinFields_of_read (inOrder : ∀ act ∈ later, (Act.press .read).DrawnBefore act)
    {editor : Editor} (readsWithin : editor.ReadsWithin (.press .read :: later)) :
    (editor.undergoAll (settled [.press .read])).members.WithinFields := by
  have text : editor.textRead (.press .read :: later) = editor.entry := by
    refine if_neg ?_
    rintro (escape | reset)
    · rcases List.mem_cons.mp escape with impossible | behind
      · cases impossible
      · exact absurd (inOrder _ behind) (by decide)
    · rcases List.mem_cons.mp reset with impossible | behind
      · cases impossible
      · exact absurd (inOrder _ behind) (by decide)
  rw [undergoAll_settled_read]
  change ((editor.undergo (.draw [])).undergo .unfocus).importEntry.2.members.WithinFields
  rcases ((editor.undergo (.draw [])).undergo .unfocus).importEntry_cases with
    ⟨members, isRead, -, imported⟩ | ⟨notice, refused⟩
  · rw [imported]
    refine readsWithin List.mem_cons_self members ?_
    rw [text]
    exact isRead
  · rw [refused]
    exact editor.withinFields_draw_nil

/-- The first act may as well be done in a frame of its own. -/
theorem settled_cons (separable : Separable (first :: later))
    (inOrder : ∀ act ∈ later, first.DrawnBefore act) (someLater : later ≠ []) {editor : Editor}
    (readsWithin : editor.ReadsWithin (first :: later)) :
    editor.undergoAll (settled (first :: later)) =
      (editor.undergoAll (settled [first])).undergoAll (settled later) := by
  cases first with
  | key which =>
      cases which with
      | enter => exact absurd List.mem_cons_self separable.noEnter
      | escape => exact settled_cons_of_drawing rfl (fun _ same => by cases same) inOrder editor
  | set index part value =>
      exact settled_cons_of_drawing rfl (fun _ same => by cases same) inOrder editor
  | choose index op =>
      exact settled_cons_of_drawing rfl (fun _ same => by cases same) inOrder editor
  | delete index =>
      have areBelow : ∀ act ∈ Act.delete index :: later, 2 ≤ act.band := by
        refine List.forall_mem_cons.mpr ⟨Nat.le_refl 2, fun act member => ?_⟩
        rcases inOrder act member with less | ⟨same, -⟩
        · exact Nat.le_of_lt less
        · exact Nat.le_of_eq same
      have notPress : ∀ button, Act.delete index ≠ .press button := by
        intro button same
        cases same
      have taken : ∀ acts, below (.delete index :: acts) = .delete index :: below acts := by
        intro acts
        simp only [below, pressed_cons_of_ne fun button _ => notPress button]
        rfl
      refine settled_cons_of_effect areBelow (taken later) (taken []) ?_
      intro number member
      exact editor.withinFields_draw_nil number (List.mem_of_mem_eraseIdx member)
  | press button =>
      have behind := pressesBehind inOrder separable
      cases button with
      | operation op => exact settled_cons_of_operation (by cases op <;> decide) behind editor
      | equals => exact settled_cons_of_operation (by decide) behind editor
      | allClear => exact settled_cons_of_operation (by decide) behind editor
      | read => exact settled_cons_of_read behind someLater (withinFields_of_read inOrder readsWithin)
      | clear =>
          rcases List.exists_mem_of_ne_nil later someLater with ⟨act, member⟩
          rcases behind act member with ⟨other, -, isBehind⟩
          exact absurd isBehind (Nat.not_lt.mpr other.place_le)

end Editor

/-! ## All acts -/

theorem Screen.Separable.tail {first : Act} {later : List Act}
    (separable : Separable (first :: later)) : Separable later where
  noEnter := fun member => separable.noEnter (List.mem_cons_of_mem first member)
  pressedOnce := fun button =>
    Nat.le_trans ((List.sublist_cons_self first later).count_le _) (separable.pressedOnce button)
  oneRemoval := Nat.le_trans ((List.sublist_cons_self first later).filterMap _).length_le
    separable.oneRemoval

theorem Screen.Separable.singleton {first : Act} {later : List Act}
    (separable : Separable (first :: later)) : Separable [first] where
  noEnter := fun member => separable.noEnter (List.mem_singleton.mp member ▸ List.mem_cons_self)
  pressedOnce := fun _ => List.count_le_length
  oneRemoval := List.length_filterMap_le _ _

theorem Screen.Separable.perm {acts others : List Act} (separable : Separable acts)
    (perm : others.Perm acts) : Separable others where
  noEnter := fun member => separable.noEnter (perm.mem_iff.mp member)
  pressedOnce := fun button => by
    rw [perm.count_eq]
    exact separable.pressedOnce button
  oneRemoval := by
    rw [(perm.filterMap _).length_eq]
    exact separable.oneRemoval

namespace Editor

theorem perform_frame_eq_settled {acts : List Act} (separable : Separable acts) (editor : Editor) :
    editor.perform (.frame acts) = editor.undergoAll (settled acts) :=
  frame_eq_settled separable.noEnter separable.oneRemoval editor

/-- Acts that are listed as they are drawn, one frame for each.  An act may clear the line of text,
but no act that is drawn behind it reads the line, so a line that is read is still the first one. -/
theorem undergoAll_settled_eq_foldl {acts : List Act} (separable : Separable acts)
    (inOrder : acts.Pairwise Act.DrawnBefore) (someAct : acts ≠ []) {editor : Editor}
    (readsWithin : editor.ReadsWithin acts) :
    editor.undergoAll (settled acts) =
      acts.foldl (fun reached act => reached.perform (.frame [act])) editor := by
  induction acts generalizing editor with
  | nil => exact absurd rfl someAct
  | cons first later inductionHypothesis =>
      rcases List.pairwise_cons.mp inOrder with ⟨inFront, laterInOrder⟩
      rw [List.foldl_cons, perform_frame_eq_settled separable.singleton]
      by_cases someLater : later = []
      · subst someLater
        rfl
      · have laterReadsWithin : (editor.undergoAll (settled [first])).ReadsWithin later := by
          intro readLater members isRead
          have notCleared : first ≠ .press .clear := by
            rintro rfl
            exact absurd (inFront _ readLater) (by decide)
          rw [textRead_settled notCleared] at isRead
          exact readsWithin (List.mem_cons_of_mem first readLater) members isRead
        rw [settled_cons separable inFront someLater readsWithin]
        exact inductionHypothesis separable.tail laterInOrder someLater laterReadsWithin

theorem ReadsWithin.perm {editor : Editor} {acts others : List Act}
    (readsWithin : editor.ReadsWithin acts) (perm : others.Perm acts) : editor.ReadsWithin others := by
  intro readToo members isRead
  have text : editor.textRead others = editor.textRead acts := by
    simp only [textRead, perm.mem_iff]
  rw [text] at isRead
  exact readsWithin (perm.mem_iff.mp readToo) members isRead

/-- A frame with several acts does what as many frames do, one for each act, in the order in which
the widgets are drawn.  The members before it may lie beyond their fields, since every frame draws
them first. -/
theorem frame_eq_separate_frames {editor : Editor} {acts : List Act} (separable : Separable acts)
    (someAct : acts ≠ []) (readsWithin : editor.ReadsWithin acts) :
    editor.perform (.frame acts) = (inDrawingOrder acts).foldl
      (fun reached act => reached.perform (.frame [act])) editor := by
  have perm := perm_inDrawingOrder acts
  have someOrdered : inDrawingOrder acts ≠ [] := by
    intro none_ordered
    rw [none_ordered] at perm
    exact someAct perm.symm.eq_nil
  rw [perform_frame_eq_settled separable, ← undergoAll_settled_inDrawingOrder]
  exact undergoAll_settled_eq_foldl (separable.perm perm) (pairwise_inDrawingOrder acts) someOrdered
    (readsWithin.perm perm)

/-- Acts in no particular order, on members and on buttons. -/
def severalActs : List Act :=
  [.press .clear, .press .read, .choose 1 .times, .delete 0, .press .equals, .set 2 .num 7,
    .choose 1 .plus, .press (.operation .minus)]

/-- The text is read before it is cleared, and evaluated is what was there before. -/
theorem severalActs_eq_separate_frames :
    Separable severalActs ∧ severalActs ≠ [] ∧
      (initial.perform (.type "1 3/4")).ReadsWithin severalActs ∧
      inDrawingOrder severalActs =
        [.choose 1 .plus, .choose 1 .times, .set 2 .num 7, .delete 0, .press (.operation .minus),
          .press .equals, .press .read, .press .clear] ∧
      (initial.perform (.type "1 3/4")).perform (.frame severalActs) =
        (inDrawingOrder severalActs).foldl (fun reached act => reached.perform (.frame [act]))
          (initial.perform (.type "1 3/4")) := by
  have separable : Separable severalActs := by
    refine ⟨by decide, fun button => ?_, by decide⟩
    cases button with
    | operation op => cases op <;> decide
    | _ => decide
  have readsWithin : (initial.perform (.type "1 3/4")).ReadsWithin severalActs := by
    intro _ members isRead
    have readAs : Expression.ofChars (Text.trim
        ((initial.perform (.type "1 3/4")).textRead severalActs).toList) =
      .ok [.number (.positive 1 3 4)] := by decide
    rw [readAs] at isRead
    cases isRead
    intro number member
    cases List.mem_singleton.mp member
    decide
  exact ⟨separable, by decide, readsWithin, by decide,
    frame_eq_separate_frames separable (by decide) readsWithin⟩

end Editor

end MixedCalculator
