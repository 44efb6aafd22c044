import MixedCalculator.Proofs.MixedNumber.Value
import MixedCalculator.Proofs.Word.Fraction

namespace MixedCalculator

/-!
# Construction in machine words

A fraction is constructed from parts in half words, or from a mixed number, whose parts are unsigned.
The magnitude of a mixed number is computed in unsigned words before it is given a sign, and it may
exceed the signed ones.  That alone is an overflow.  No step is ever refused here either.
-/

namespace Fraction

/-- Whatever the signs of the parts, the denominator stays. -/
theorem mk_wideParts (whole num : Int) (den : Nat) :
    ⟨(wideParts whole num den).num, den⟩ = wideParts whole num den := by
  unfold wideParts
  split
  · rfl
  · split <;> rfl

end Fraction

namespace WordFraction

variable (reduce : Int64 -> Int64 -> Option (Int64 × Int64))

/-- The whole part over the denominator, and the numerator added under the sign of either. -/
def partsNum (whole num den : Int32) : Option Int64 :=
  if whole < 0 then do
    let product ← Word.mul whole.toInt64 den.toInt64
    Word.sub product num.toInt64
  else if num < 0 then do
    let opposite ← Word.neg whole.toInt64
    let product ← Word.mul opposite den.toInt64
    Word.add product num.toInt64
  else do
    let product ← Word.mul whole.toInt64 den.toInt64
    Word.add product num.toInt64

def ofParts (whole num den : Int32) : Option (Except Fault WordFraction) :=
  if den = 0 then some (.error (.invalidParts .zeroDenominator))
  else if den < 0 then some (.error (.invalidParts .negativeDenominator))
  else if whole < 0 ∧ num < 0 then some (.error (.invalidParts .twoNegativeParts))
  else do
    let num ← partsNum whole num den
    narrow reduce num den.toInt64

/-- The numerator over the denominator of the number itself, in unsigned words. -/
def magnitude (m : MixedNumber) : Option UInt64 := do
  let product ← Word.unsignedMul m.whole.toUInt64 m.den.toUInt64
  Word.unsignedAdd product m.num.toUInt64

/-- A magnitude that is no signed word is out of bounds. -/
def ofMixed (m : MixedNumber) : Option (Except Fault WordFraction) :=
  if m.den = 0 then some (.error (.invalidParts .zeroDenominator))
  else do
    let magnitude ← magnitude m
    match Word.toSigned? magnitude with
    | none => some (.error .overflow)
    | some magnitude => do
        let num ← Word.signed m.sign magnitude
        narrow reduce num m.den.toUInt64.toInt64

variable {reduce}

theorem partsNum_eq (whole num : Int32) {den : Int32} {natDen : Nat} (den_eq : den.toInt = natDen) :
    partsNum whole num den = some (.ofInt (Fraction.wideParts whole.toInt num.toInt natDen).num) ∧
      InWord (Fraction.wideParts whole.toInt num.toInt natDen).num := by
  have wholeInHalf := inHalf_toInt whole
  have denInHalf : InHalf natDen := den_eq ▸ inHalf_toInt den
  have numBound : num.toInt.natAbs ≤ 2147483648 := inHalf_toInt num
  have productBound := natAbs_mul_le_mul wholeInHalf denInHalf
  have product := Word.mul_ofInt_half wholeInHalf denInHalf
  have productInWord := wholeInHalf.mul denInHalf
  have numInWord := (inHalf_toInt num).inWord
  simp only [partsNum, Fraction.wideParts, ← Int64.ofInt_int32ToInt, den_eq, Int32.lt_iff_toInt_lt,
    Int32.toInt_zero]
  split
  · have inWord : InWord (whole.toInt * natDen - num.toInt) := by
      unfold InWord
      omega
    rw [product]
    exact ⟨Word.sub_ofInt productInWord numInWord inWord, inWord⟩
  split
  · have oppositeInHalf := inHalf_neg.mpr wholeInHalf
    have oppositeProduct := Word.mul_ofInt_half oppositeInHalf denInHalf
    have inWord : InWord (-whole.toInt * natDen + num.toInt) := by
      rw [Int.neg_mul]
      unfold InWord
      omega
    rw [Word.neg_ofInt wholeInHalf.inWord, Option.bind_eq_bind, Option.bind_some, oppositeProduct]
    exact ⟨Word.add_ofInt (oppositeInHalf.mul denInHalf) numInWord inWord, inWord⟩
  · have inWord : InWord (whole.toInt * natDen + num.toInt) := by
      unfold InWord
      omega
    rw [product]
    exact ⟨Word.add_ofInt productInWord numInWord inWord, inWord⟩

theorem ofParts_eq (reduces : Reduces reduce) (whole num den : Int32) :
    ofParts reduce whole num den =
      some ((Fraction.ofParts whole.toInt num.toInt den.toInt).map Fraction.words) := by
  simp only [ofParts, Fraction.ofParts, ← Int32.toInt_inj, Int32.lt_iff_toInt_lt, Int32.toInt_zero]
  split
  · rfl
  split
  · rfl
  split
  · rfl
  next nonzero nonnegative _ =>
    obtain ⟨natDen, den_eq⟩ := Int.eq_ofNat_of_zero_le (Int.not_lt.mp nonnegative)
    have denInWord : InWord natDen := den_eq ▸ (inHalf_toInt den).inWord
    rcases partsNum_eq whole num den_eq with ⟨computed, numInWord⟩
    rw [computed, Option.bind_eq_bind, Option.bind_some, ← Int64.ofInt_int32ToInt, den_eq,
      narrow_ofInt reduces numInWord denInWord (by omega), Int.toNat_natCast,
      Fraction.mk_wideParts]

/-- The largest magnitude is `4294967295 * 4294967295 + 4294967295`. -/
theorem magnitude_lt (m : MixedNumber) : m.magnitude < UInt64.size := by
  have wholeBound : m.whole.toNat ≤ 4294967295 := Nat.le_of_lt_succ m.whole.toNat_lt
  have denBound : m.den.toNat ≤ 4294967295 := Nat.le_of_lt_succ m.den.toNat_lt
  have numBound := m.num.toNat_lt
  have productBound := Nat.mul_le_mul wholeBound denBound
  unfold MixedNumber.magnitude UInt64.size
  omega

theorem magnitude_eq (m : MixedNumber) : magnitude m = some (.ofNat m.magnitude) := by
  have exact := magnitude_lt m
  have product : Word.unsignedMul m.whole.toUInt64 m.den.toUInt64 =
      some (.ofNat (m.whole.toNat * m.den.toNat)) := by
    rw [← UInt64.ofNat_uInt32ToNat, ← UInt64.ofNat_uInt32ToNat]
    exact Word.unsignedMul_ofNat (m.whole.toNat_lt.trans (by decide))
      (m.den.toNat_lt.trans (by decide)) (lt_of_le_of_lt (Nat.le_add_right _ _) exact)
  rw [magnitude, product, Option.bind_eq_bind, Option.bind_some, ← UInt64.ofNat_uInt32ToNat]
  exact Word.unsignedAdd_ofNat exact

theorem ofMixed_eq (reduces : Reduces reduce) (m : MixedNumber) :
    ofMixed reduce m = some (m.toFraction.map Fraction.words) := by
  unfold ofMixed MixedNumber.toFraction
  split
  · rfl
  next nonzero =>
    rw [magnitude_eq m, Option.bind_eq_bind, Option.bind_some,
      Word.toSigned?_ofNat (magnitude_lt m)]
    by_cases excessive : MixedNumber.magnitudeBound < m.magnitude
    · have noWord : ¬ m.magnitude ≤ 9223372036854775807 := Nat.not_le.mpr excessive
      rw [if_pos excessive, if_neg noWord]
      rfl
    · have inWord : m.magnitude ≤ 9223372036854775807 := Nat.le_of_not_lt excessive
      have signedInWord : InWord (m.sign.apply m.magnitude) := by
        rwa [InWord, Sign.natAbs_apply]
      have denInWord : InWord (m.den.toNat : Int) := m.den.toNat_lt.le.trans (by decide)
      have den : m.den.toUInt64.toInt64 = .ofInt m.den.toNat := by
        rw [Int64.ofInt_eq_ofNat, ← UInt64.ofNat_uInt32ToNat, UInt64.toInt64_ofNat']
      have signed : Word.signed m.sign (.ofInt m.magnitude) =
          some (.ofInt (m.sign.apply m.magnitude)) := Word.signed_ofInt m.sign inWord
      have positive := Nat.pos_of_ne_zero (UInt32.toNat_ne_zero nonzero)
      rw [if_neg excessive, if_pos inWord, den]
      simp only [signed, Option.bind_eq_bind, Option.bind_some]
      exact narrow_ofInt reduces signedInWord denInWord positive

end WordFraction

end MixedCalculator
