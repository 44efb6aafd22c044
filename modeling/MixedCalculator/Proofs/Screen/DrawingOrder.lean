import Mathlib.Data.List.Sort
import MixedCalculator.Proofs.Screen.Settled

namespace MixedCalculator

/-!
# The order of drawing

Every act belongs to a widget, and widgets are drawn from top to bottom, the operators of a member
and the buttons from left to right.  Values that are entered into one member are not told apart:
they keep the order in which they are given.

A frame does not depend on how its acts are listed, as long as the values entered into a field keep
their order.  If the acts are listed as they are drawn, the effects of the first one come before
those of the others.
-/

/-- The place of an operator in the order of choice. -/
def Operator.place : Operator -> Nat
  | plus => 0
  | minus => 1
  | times => 2
  | dividedBy => 3

theorem Operator.eq_of_place {first second : Operator} (same : first.place = second.place) :
    first = second := by
  cases first <;> cases second <;> first
    | rfl
    | cases same

theorem Operator.increasing_all : all.Pairwise (fun first second => first.place < second.place) := by
  decide

/-! ## Selecting from an increasing list -/

namespace List

variable {α : Type} [DecidableEq α] {place : α -> Nat} {list : List α}

/-- The first of increasing entries is selected before the others. -/
theorem filter_eq_cons (increasing : list.Pairwise (fun one other => place one < place other))
    {one : α} (member : one ∈ list) (selected : α -> Prop) [DecidablePred selected]
    (behind : ∀ other, selected other -> place one < place other) :
    list.filter (fun other => other = one ∨ selected other) =
      one :: list.filter (fun other => selected other) := by
  induction list with
  | nil => cases member
  | cons head rest inductionHypothesis =>
      rcases List.pairwise_cons.mp increasing with ⟨least, increasingRest⟩
      by_cases isHead : head = one
      · subst isHead
        have notSelected : ¬ selected head := fun isSelected =>
          Nat.lt_irrefl _ (behind head isSelected)
        rw [List.filter_cons_of_pos (by simp), List.filter_cons_of_neg (by simpa using notSelected)]
        congr 1
        apply List.filter_congr
        intro other inRest
        have different : other ≠ head := fun same =>
          Nat.lt_irrefl _ (same ▸ least other inRest)
        simp only [different, false_or]
      · have inRest := (List.mem_cons.mp member).resolve_left (Ne.symm isHead)
        have notSelected : ¬ selected head := fun isSelected =>
          Nat.lt_asymm (behind head isSelected) (least one inRest)
        rw [List.filter_cons_of_neg (by simp [isHead, notSelected]),
          List.filter_cons_of_neg (by simpa using notSelected)]
        exact inductionHypothesis increasingRest inRest

/-- Of increasing entries, the last that is selected remains, and the first one if there is none.
The first one comes before all that are selected, whether it is itself selected or not. -/
theorem getLast?_filter_getD (increasing : list.Pairwise (fun one other => place one < place other))
    {one : α} (member : one ∈ list) (selected : α -> Prop) [DecidablePred selected]
    (behind : ∀ other, selected other -> other ≠ one -> place one < place other) (before : α) :
    (list.filter (fun other => other = one ∨ selected other)).getLast?.getD before =
      (list.filter (fun other => selected other)).getLast?.getD one := by
  have others := filter_eq_cons increasing member (fun other => selected other ∧ other ≠ one)
    (fun other isSelected => behind other isSelected.1 isSelected.2)
  have shape : list.filter (fun other => other = one ∨ selected other) =
      one :: list.filter (fun other => selected other ∧ other ≠ one) := by
    rw [← others]
    apply List.filter_congr
    intro other _
    by_cases same : other = one <;> simp [same]
  rw [shape, List.getLast?_cons, Option.getD_some]
  by_cases isSelected : selected one
  · have alike : list.filter (fun other => selected other) =
        list.filter (fun other => other = one ∨ selected other) := by
      apply List.filter_congr
      intro other _
      by_cases same : other = one <;> simp [same, isSelected]
    rw [alike, shape, List.getLast?_cons, Option.getD_some]
  · have alike : list.filter (fun other => selected other) =
        list.filter (fun other => selected other ∧ other ≠ one) := by
      apply List.filter_congr
      intro other _
      by_cases same : other = one <;> simp [same, isSelected]
    rw [alike]

end List

/-! ## The places of widgets -/

namespace Screen

/-- The place of a button below the members.  Between the rows of buttons there is the line of text,
to which the enter key belongs. -/
def Button.place : Button -> Nat
  | operation op => op.place
  | equals => 4
  | allClear => 5
  | read => 7
  | clear => 8

theorem Button.eq_of_place {first second : Button} (same : first.place = second.place) :
    first = second := by
  cases first with
  | operation op =>
      cases second with
      | operation opToo => exact congrArg operation (Operator.eq_of_place same)
      | _ => cases op <;> cases same
  | _ =>
      cases second with
      | operation opToo => cases opToo <;> cases same
      | _ => first
        | rfl
        | cases same

theorem Button.place_le (button : Button) : button.place ≤ 8 := by
  cases button with
  | operation op => cases op <;> decide
  | _ => decide

theorem increasing_operationRow :
    operationRow.Pairwise (fun first second => first.place < second.place) := by
  decide

theorem increasing_entryRow :
    entryRow.Pairwise (fun first second => first.place < second.place) := by
  decide

theorem not_mem_entryRow : ∀ button ∈ operationRow, button ∉ entryRow := by
  decide

namespace Act

/-- From top to bottom: the escape key, the members, the removal of one, and what is below them. -/
def band : Act -> Nat
  | key .escape => 0
  | set _ _ _ => 1
  | choose _ _ => 1
  | delete _ => 2
  | press _ => 3
  | key .enter => 3

/-- The place within the band. -/
def row : Act -> Nat
  | set index _ _ => index
  | choose index _ => index
  | press button => button.place
  | key .enter => 6
  | _ => 0

/-- The place within the row.  Fields have none of their own. -/
def column : Act -> Nat
  | choose _ op => op.place + 1
  | _ => 0

/-- The widget of the first act is drawn before that of the second, or it is not told apart. -/
def DrawnBefore (first second : Act) : Prop :=
  first.band < second.band ∨ first.band = second.band ∧
    (first.row < second.row ∨ first.row = second.row ∧ first.column ≤ second.column)

instance : DecidableRel DrawnBefore :=
  fun _ _ => inferInstanceAs (Decidable (_ ∨ _))

instance : Std.Total DrawnBefore where
  total first second := by
    unfold DrawnBefore
    omega

instance : IsTrans Act DrawnBefore where
  trans first second third := by
    unfold DrawnBefore
    omega

end Act

/-- The acts in the order in which their widgets are drawn. -/
def inDrawingOrder (acts : List Act) : List Act :=
  acts.insertionSort Act.DrawnBefore

theorem perm_inDrawingOrder (acts : List Act) : (inDrawingOrder acts).Perm acts :=
  List.perm_insertionSort Act.DrawnBefore acts

theorem pairwise_inDrawingOrder (acts : List Act) :
    (inDrawingOrder acts).Pairwise Act.DrawnBefore :=
  List.pairwise_insertionSort Act.DrawnBefore acts

/-! ## Listing the acts in another order -/

/-- What is not told apart keeps its order.  It is in order already as it is listed, so sorting
leaves it a part of the list. -/
theorem filter_inDrawingOrder {selected : Act -> Bool} (acts : List Act)
    (untold : ∀ first second, selected first = true -> selected second = true ->
      first.DrawnBefore second) :
    (inDrawingOrder acts).filter selected = acts.filter selected := by
  have inOrder : (acts.filter selected).Pairwise Act.DrawnBefore :=
    List.pairwise_filter.mpr (List.pairwise_of_forall fun first second => untold first second)
  have kept : (acts.filter selected).Sublist (inDrawingOrder acts) :=
    List.sublist_insertionSort inOrder List.filter_sublist
  have selectedKept := kept.filter selected
  rw [List.filter_filter] at selectedKept
  simp only [Bool.and_self] at selectedKept
  exact (selectedKept.eq_of_length ((perm_inDrawingOrder acts).filter selected).length_eq.symm).symm

theorem filterMap_inDrawingOrder {α : Type} {select : Act -> Option α} (acts : List Act)
    (untold : ∀ first second, (select first).isSome = true -> (select second).isSome = true ->
      first.DrawnBefore second) :
    (inDrawingOrder acts).filterMap select = acts.filterMap select := by
  have only_selected : ∀ list : List Act, (list.filter (fun act => (select act).isSome)).filterMap
      select = list.filterMap select := by
    intro list
    rw [List.filterMap_filter]
    congr 1
    funext act
    cases select act <;> rfl
  rw [← only_selected, filter_inDrawingOrder acts untold, only_selected]

theorem entered?_eq_some {index : Nat} {part : Part} {act : Act} {value : Int}
    (enters : entered? index part act = some value) : act = .set index part value := by
  cases act with
  | set actIndex actPart actValue =>
      by_cases same : actIndex = index ∧ actPart = part
      · rw [entered?, if_pos same] at enters
        cases enters
        rw [same.1, same.2]
      · rw [entered?, if_neg same] at enters
        cases enters
  | _ => cases enters

theorem drawnAlike_inDrawingOrder (acts : List Act) : DrawnAlike (inDrawingOrder acts) acts where
  entered index part := by
    refine filterMap_inDrawingOrder acts fun first second entersFirst entersSecond => ?_
    rcases Option.isSome_iff_exists.mp entersFirst with ⟨value, enters⟩
    rcases Option.isSome_iff_exists.mp entersSecond with ⟨valueToo, entersToo⟩
    rw [entered?_eq_some enters, entered?_eq_some entersToo]
    exact Or.inr ⟨rfl, Or.inr ⟨rfl, Nat.le_refl _⟩⟩
  chosen index op := (perm_inDrawingOrder acts).mem_iff

theorem removals_inDrawingOrder (acts : List Act) : removals (inDrawingOrder acts) = removals acts := by
  have same : (inDrawingOrder acts).filterMap Act.removed? = acts.filterMap Act.removed? := by
    refine filterMap_inDrawingOrder acts fun first second removesFirst removesSecond => ?_
    rcases Option.isSome_iff_exists.mp removesFirst with ⟨index, removes⟩
    rcases Option.isSome_iff_exists.mp removesSecond with ⟨indexToo, removesToo⟩
    rw [Act.removed?_eq_some removes, Act.removed?_eq_some removesToo]
    exact Or.inr ⟨rfl, Or.inr ⟨rfl, Nat.le_refl _⟩⟩
  rw [removals, removals, same]

/-- The order in which the acts of a frame are listed makes no difference. -/
theorem undergoAll_settled_inDrawingOrder (acts : List Act) (editor : Editor) :
    editor.undergoAll (settled (inDrawingOrder acts)) = editor.undergoAll (settled acts) := by
  have member : ∀ act, act ∈ inDrawingOrder acts ↔ act ∈ acts :=
    fun act => (perm_inDrawingOrder acts).mem_iff
  have drawn : ∀ reached : Editor, reached.undergo (.draw (inDrawingOrder acts)) =
      reached.undergo (.draw acts) := by
    intro reached
    simp only [Editor.undergo, (drawnAlike_inDrawingOrder acts).drawMembers]
  simp only [Editor.undergoAll_settled, escapes, pressed, member, removals_inDrawingOrder, drawn]

/-! ## Taking out the first act -/

section First

variable {first : Act} {later : List Act}

/-- A field is brought into its range as often as it is drawn, and takes over what is entered. -/
theorem drawPart_cons (first : Act) (later : List Act) (index : Nat) (part : Part)
    (stored : UInt32) :
    drawPart (first :: later) index part stored =
      drawPart later index part (drawPart [first] index part stored) := by
  unfold drawPart
  simp only [List.filterMap_cons, List.filterMap_nil]
  cases entered? index part first with
  | none =>
      cases (later.filterMap (entered? index part)).getLast? with
      | none => exact (clamp_clamp _).symm
      | some value => rfl
  | some value =>
      simp only [List.getLast?_cons, Option.getD_some, List.getLast?_nil, Option.getD_none]
      cases (later.filterMap (entered? index part)).getLast? with
      | none => exact (clamp_clamp value).symm
      | some _ => rfl

/-- Among the operators chosen at once, the last remains. -/
theorem drawOperator_cons (inOrder : ∀ act ∈ later, first.DrawnBefore act) (index : Nat)
    (op : Operator) :
    drawOperator (first :: later) index op =
      drawOperator later index (drawOperator [first] index op) := by
  unfold drawOperator
  by_cases isChoice : ∃ chosen, first = .choose index chosen
  · rcases isChoice with ⟨chosen, rfl⟩
    have behind : ∀ other, Act.choose index other ∈ later -> other ≠ chosen ->
        chosen.place < other.place := by
      intro other member different
      have notBefore := inOrder _ member
      simp only [Act.DrawnBefore, Act.band, Act.row, Act.column] at notBefore
      have apart : other.place ≠ chosen.place := fun same => different (Operator.eq_of_place same)
      omega
    have alone := List.getLast?_filter_getD Operator.increasing_all chosen.mem_all (fun _ => False)
      (fun _ impossible => impossible.elim) op
    have last := List.getLast?_filter_getD Operator.increasing_all chosen.mem_all
      (fun other => Act.choose index other ∈ later) behind op
    simp only [List.mem_cons, List.not_mem_nil, Act.choose.injEq, true_and, or_false] at alone last ⊢
    rw [last, alone]
    rfl
  · have unrelated : ∀ other, Act.choose index other ≠ first :=
      fun other same => isChoice ⟨other, same.symm⟩
    simp only [List.mem_cons, unrelated, false_or, List.not_mem_nil, decide_false,
      List.filter_false, List.getLast?_nil, Option.getD_none]

theorem drawMembers_cons (inOrder : ∀ act ∈ later, first.DrawnBefore act) (members : Expression) :
    drawMembers (first :: later) members = drawMembers later (drawMembers [first] members) := by
  rw [drawMembers, drawMembers, drawMembers, List.mapIdx_mapIdx]
  congr 1
  funext index member
  cases member with
  | number value =>
      simp only [Function.comp_apply, drawMember, drawNumber]
      rw [drawPart_cons first later, drawPart_cons first later, drawPart_cons first later]
  | operator op =>
      simp only [Function.comp_apply, drawMember]
      rw [drawOperator_cons inOrder]

/-- A button that is pressed before all others takes effect before them. -/
theorem pressed_press_cons {row : List Button}
    (increasing : row.Pairwise (fun one other => one.place < other.place)) {button : Button}
    (member : button ∈ row) (behind : ∀ other, Act.press other ∈ later -> button.place < other.place) :
    pressed row (.press button :: later) = button.effect :: pressed row later := by
  have taken := List.filter_eq_cons increasing member (fun other => Act.press other ∈ later) behind
  simp only [pressed, List.mem_cons, Act.press.injEq, taken, List.map_cons]

/-- An act that presses no button of the row. -/
theorem pressed_cons_of_ne {row : List Button} (elsewhere : ∀ button ∈ row, first ≠ .press button) :
    pressed row (first :: later) = pressed row later := by
  unfold pressed
  congr 1
  apply List.filter_congr
  intro button member
  simp only [List.mem_cons, (elsewhere button member).symm, false_or]

end First

end Screen
end MixedCalculator
