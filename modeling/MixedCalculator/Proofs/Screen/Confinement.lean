import MixedCalculator.Screen.Member

namespace MixedCalculator

/-!
# What the fields make of a number

A part of a number that lies beyond the range of its field is brought to the end of the range as
soon as it is drawn.  This is all that happens to the members in a frame in which nothing is
done.  It changes an expression if, and only if, some part lies beyond, and once an expression
has been drawn it stays as it is.
-/

namespace MixedNumber

/-- Every part of the number lies in the range of its field. -/
def WithinFields (m : MixedNumber) : Prop :=
  m.whole.toNat ≤ Screen.fieldLimit ∧ m.num.toNat ≤ Screen.fieldLimit ∧
    m.den.toNat ≤ Screen.fieldLimit

instance (m : MixedNumber) : Decidable m.WithinFields := inferInstanceAs (Decidable (_ ∧ _))

/-- The number once it is drawn and nothing is entered. -/
def confine (m : MixedNumber) : MixedNumber :=
  { m with
    whole := Screen.clamp m.whole.toNat
    num := Screen.clamp m.num.toNat
    den := Screen.clamp m.den.toNat }

end MixedNumber

namespace Screen

theorem toNat_clamp (value : Int) : (clamp value).toNat = min value.toNat fieldLimit := by
  have bounded : min value.toNat fieldLimit < UInt32.size :=
    Nat.lt_of_le_of_lt (Nat.min_le_right _ _) (by decide)
  exact UInt32.toNat_ofNat_of_lt' bounded

theorem toNat_clamp_le (value : Int) : (clamp value).toNat ≤ fieldLimit := by
  rw [toNat_clamp]
  exact Nat.min_le_right _ _

theorem clamp_eq_iff (stored : UInt32) :
    clamp stored.toNat = stored ↔ stored.toNat ≤ fieldLimit := by
  rw [← UInt32.toNat_inj, toNat_clamp]
  omega

theorem clamp_clamp (value : Int) : clamp (clamp value).toNat = clamp value :=
  (clamp_eq_iff _).mpr (toNat_clamp_le value)

end Screen

namespace MixedNumber

theorem withinFields_confine (m : MixedNumber) : m.confine.WithinFields :=
  ⟨Screen.toNat_clamp_le _, Screen.toNat_clamp_le _, Screen.toNat_clamp_le _⟩

theorem confine_eq_iff (m : MixedNumber) : m.confine = m ↔ m.WithinFields := by
  rcases m with ⟨sign, whole, num, den, readOnly⟩
  simp only [confine, WithinFields, MixedNumber.mk.injEq, Screen.clamp_eq_iff, true_and, and_true]

theorem confine_confine (m : MixedNumber) : m.confine.confine = m.confine :=
  (confine_eq_iff m.confine).mpr m.withinFields_confine

end MixedNumber

/-- The member once it is drawn and nothing is done to it. -/
def Member.confine : Member -> Member
  | number value => number value.confine
  | operator op => operator op

namespace Expression

/-- The members once they are drawn and nothing is done to them. -/
def confine (members : Expression) : Expression :=
  members.map Member.confine

theorem confine_confine (members : Expression) : members.confine.confine = members.confine := by
  rw [confine, confine, List.map_map]
  apply List.map_congr_left
  intro member _
  cases member with
  | number value => exact congrArg Member.number value.confine_confine
  | operator op => rfl

/-- Drawing keeps the members if and only if their fields can hold them. -/
theorem confine_eq_iff (members : Expression) :
    members.confine = members ↔ ∀ number, .number number ∈ members -> number.WithinFields := by
  have one_by_one : members.map Member.confine = members.map id ↔
      ∀ member ∈ members, member.confine = member := List.map_inj_left
  rw [List.map_id] at one_by_one
  rw [confine, one_by_one]
  constructor
  · intro kept number isMember
    exact (MixedNumber.confine_eq_iff number).mp (Member.number.inj (kept _ isMember))
  · intro within member isMember
    cases member with
    | operator op => rfl
    | number value =>
        exact congrArg Member.number ((MixedNumber.confine_eq_iff value).mpr (within value isMember))

end Expression

/-! ## Drawing without acts -/

namespace Screen

theorem drawMember_nil (index : Nat) : drawMember [] index = Member.confine := by
  funext member
  cases member <;> rfl

theorem drawMembers_nil (members : Expression) : drawMembers [] members = members.confine := by
  apply List.ext_getElem?
  intro index
  simp only [drawMembers, Expression.confine, List.getElem?_mapIdx, List.getElem?_map,
    drawMember_nil]

end Screen

end MixedCalculator
