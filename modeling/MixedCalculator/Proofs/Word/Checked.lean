import Mathlib.Data.Int.Basic
import MixedCalculator.Sign

namespace MixedCalculator

/-!
# Checked words

An operation on machine words wraps when the exact result is out of their bounds.  The operations
below refuse then.  They refuse the least signed word as well, since its negation is out of bounds.
Where none of them refuses, a computation neither wraps nor meets the least word, and its words stand
for the exact integers throughout.
-/

/-- Both the integer and its negation can be held in a signed word. -/
def InWord (n : Int) : Prop := n.natAbs ≤ 9223372036854775807

instance (n : Int) : Decidable (InWord n) := inferInstanceAs (Decidable (_ ≤ _))

theorem inWord_neg {n : Int} : InWord (-n) ↔ InWord n := by
  rw [InWord, InWord, Int.natAbs_neg]

/-- The integer or its negation can be held in a signed half word. -/
def InHalf (n : Int) : Prop := n.natAbs ≤ 2147483648

theorem inHalf_neg {n : Int} : InHalf (-n) ↔ InHalf n := by
  rw [InHalf, InHalf, Int.natAbs_neg]

theorem inHalf_toInt (half : Int32) : InHalf half.toInt := by
  have lower := half.le_toInt
  have upper := half.toInt_lt
  unfold InHalf
  omega

theorem InHalf.inWord {n : Int} (inHalf : InHalf n) : InWord n :=
  Nat.le_trans inHalf (by decide)

theorem natAbs_mul_le_mul {m n : Int} {first second : Nat} (left : m.natAbs ≤ first)
    (right : n.natAbs ≤ second) : (m * n).natAbs ≤ first * second := by
  rw [Int.natAbs_mul]
  exact Nat.mul_le_mul left right

/-- A product of two half words keeps to half the bounds of a word. -/
theorem InHalf.mul {m n : Int} (left : InHalf m) (right : InHalf n) : InWord (m * n) :=
  Nat.le_trans (natAbs_mul_le_mul left right) (by decide)

namespace Word

variable {m n : Int}

/-- The word that an operation gives, if its exact result is in bounds. -/
def checked (exact : Int) (word : Int64) : Option Int64 :=
  if InWord exact then some word else none

theorem checked_eq_some_iff {exact : Int} {word result : Int64} :
    checked exact word = some result ↔ InWord exact ∧ word = result := by
  by_cases inWord : InWord exact
  · rw [checked, if_pos inWord, Option.some.injEq, and_iff_right inWord]
  · rw [checked, if_neg inWord]
    exact iff_of_false (fun impossible => by cases impossible) (fun both => inWord both.1)

def add (a b : Int64) : Option Int64 := checked (a.toInt + b.toInt) (a + b)

def sub (a b : Int64) : Option Int64 := checked (a.toInt - b.toInt) (a - b)

def mul (a b : Int64) : Option Int64 := checked (a.toInt * b.toInt) (a * b)

def neg (a : Int64) : Option Int64 := checked (-a.toInt) (-a)

/-- The word under a sign. -/
def signed : Sign -> Int64 -> Option Int64
  | .positive, a => some a
  | .negative, a => neg a

/-! ## Words that stand for integers -/

theorem toInt_ofInt (inWord : InWord n) : (Int64.ofInt n).toInt = n := by
  unfold InWord at inWord
  exact Int64.toInt_ofInt_of_le (by omega) (by omega)

theorem ofInt_inj (left : InWord m) (right : InWord n) : Int64.ofInt m = .ofInt n ↔ m = n := by
  rw [← Int64.toInt_inj, toInt_ofInt left, toInt_ofInt right]

theorem ofInt_lt_zero_iff (inWord : InWord n) : Int64.ofInt n < 0 ↔ n < 0 := by
  rw [Int64.lt_iff_toInt_lt, toInt_ofInt inWord, Int64.toInt_zero]

theorem zero_lt_ofInt_iff (inWord : InWord n) : 0 < Int64.ofInt n ↔ 0 < n := by
  rw [Int64.lt_iff_toInt_lt, toInt_ofInt inWord, Int64.toInt_zero]

theorem ofInt_ne_minValue (inWord : InWord n) : Int64.ofInt n ≠ Int64.minValue := by
  intro least
  have same := congrArg Int64.toInt least
  rw [toInt_ofInt inWord, Int64.toInt_minValue] at same
  unfold InWord at inWord
  omega

theorem add_ofInt (left : InWord m) (right : InWord n) (exact : InWord (m + n)) :
    add (.ofInt m) (.ofInt n) = some (.ofInt (m + n)) := by
  rw [add, toInt_ofInt left, toInt_ofInt right]
  exact checked_eq_some_iff.mpr ⟨exact, (Int64.ofInt_add m n).symm⟩

theorem sub_ofInt (left : InWord m) (right : InWord n) (exact : InWord (m - n)) :
    sub (.ofInt m) (.ofInt n) = some (.ofInt (m - n)) := by
  rw [sub, toInt_ofInt left, toInt_ofInt right]
  exact checked_eq_some_iff.mpr ⟨exact, (Int64.ofInt_sub m n).symm⟩

theorem mul_ofInt (left : InWord m) (right : InWord n) (exact : InWord (m * n)) :
    mul (.ofInt m) (.ofInt n) = some (.ofInt (m * n)) := by
  rw [mul, toInt_ofInt left, toInt_ofInt right]
  exact checked_eq_some_iff.mpr ⟨exact, (Int64.ofInt_mul m n).symm⟩

theorem mul_ofInt_half (left : InHalf m) (right : InHalf n) :
    mul (.ofInt m) (.ofInt n) = some (.ofInt (m * n)) :=
  mul_ofInt left.inWord right.inWord (left.mul right)

/-- A word that stands for an integer in bounds is not the least one, so it has a negation. -/
theorem neg_ofInt (inWord : InWord n) : neg (.ofInt n) = some (.ofInt (-n)) := by
  rw [neg, toInt_ofInt inWord]
  exact checked_eq_some_iff.mpr ⟨inWord_neg.mpr inWord, (Int64.ofInt_neg n).symm⟩

theorem signed_ofInt (sign : Sign) {magnitude : Nat} (inWord : InWord magnitude) :
    signed sign (.ofInt magnitude) = some (.ofInt (sign.apply magnitude)) := by
  cases sign with
  | positive => rfl
  | negative => exact neg_ofInt inWord

/-! ## Half words -/

/-- The half word with the same integer, if there is one. -/
def toHalf? (word : Int64) : Option Int32 :=
  if -2147483648 ≤ word ∧ word ≤ 2147483647 then some word.toInt32 else none

theorem toHalf?_ofInt (inWord : InWord n) :
    toHalf? (.ofInt n) =
      if -2147483648 ≤ n ∧ n ≤ 2147483647 then some (.ofInt n) else none := by
  have lower : (-2147483648 : Int64).toInt = -2147483648 := by decide
  have upper : (2147483647 : Int64).toInt = 2147483647 := by decide
  simp only [toHalf?, Int64.le_iff_toInt_le, toInt_ofInt inWord, lower, upper, Int64.toInt32_ofInt]

/-! ## Unsigned words -/

def unsignedAdd (a b : UInt64) : Option UInt64 :=
  if a.toNat + b.toNat < UInt64.size then some (a + b) else none

def unsignedMul (a b : UInt64) : Option UInt64 :=
  if a.toNat * b.toNat < UInt64.size then some (a * b) else none

/-- The signed word with the same integer, if there is one. -/
def toSigned? (word : UInt64) : Option Int64 :=
  if word ≤ 9223372036854775807 then some word.toInt64 else none

theorem unsignedAdd_ofNat {m n : Nat} (exact : m + n < UInt64.size) :
    unsignedAdd (.ofNat m) (.ofNat n) = some (.ofNat (m + n)) := by
  have left : (UInt64.ofNat m).toNat = m := UInt64.toNat_ofNat_of_lt' (by omega)
  have right : (UInt64.ofNat n).toNat = n := UInt64.toNat_ofNat_of_lt' (by omega)
  rw [unsignedAdd, left, right, if_pos exact, UInt64.ofNat_add]

theorem unsignedMul_ofNat {m n : Nat} (first : m < UInt64.size) (second : n < UInt64.size)
    (exact : m * n < UInt64.size) :
    unsignedMul (.ofNat m) (.ofNat n) = some (.ofNat (m * n)) := by
  rw [unsignedMul, UInt64.toNat_ofNat_of_lt' first, UInt64.toNat_ofNat_of_lt' second, if_pos exact,
    UInt64.ofNat_mul]

theorem toSigned?_ofNat {n : Nat} (bounded : n < UInt64.size) :
    toSigned? (.ofNat n) = if n ≤ 9223372036854775807 then some (.ofInt n) else none := by
  have limit : (9223372036854775807 : UInt64).toNat = 9223372036854775807 := by decide
  rw [toSigned?, Int64.ofInt_eq_ofNat]
  simp only [UInt64.le_iff_toNat_le, UInt64.toNat_ofNat_of_lt' bounded, limit,
    UInt64.toInt64_ofNat']

end Word

end MixedCalculator
