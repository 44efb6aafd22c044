import Mathlib.Data.List.Chain
import MixedCalculator.Proofs.Text.Runs
import MixedCalculator.Text.Lexeme

namespace MixedCalculator
namespace Lexeme

/-!
# Cutting a spelled text

Every lexeme has a spelling.  A text of spellings is cut into the same lexemes again, provided
that no two neighbours run together: blanks absorb blanks, and digits extend a numeral.  A
numeral is spelled with as many digits as it needs, so while it is read back no beginning of
it is ever too large.
-/

/-- The characters that stand for a lexeme.  A division that joins no digits has the
typographic sign, since the other one is a slash. -/
def spelling : Lexeme -> List Char
  | blank => [' ']
  | numeral value => Numeral.ofNat value.toNat
  | slash => ['/']
  | operator .dividedBy => ['÷']
  | operator op => [op.symbol]

/-- Two lexemes that do not run together. -/
def Apart : Lexeme -> Lexeme -> Prop
  | blank, blank => False
  | numeral _, numeral _ => False
  | _, _ => True

theorem ofChar?_digit {c : Char} (digit : c.isDigit = true) :
    ofChar? c = some (.numeral (UInt32.ofNat (Numeral.digitValue c))) := by
  simp only [ofChar?, Text.isBlank_of_isDigit digit, digit, if_true, Bool.false_eq_true, if_false]

theorem toNat_ofNat_digitValue {c : Char} (digit : c.isDigit = true) :
    (UInt32.ofNat (Numeral.digitValue c)).toNat = Numeral.digitValue c := by
  have upper : c.toNat ≤ 57 := by
    simp only [Char.isDigit, Bool.and_eq_true, decide_eq_true_eq, UInt32.le_iff_toNat_le] at digit
    exact digit.2
  apply UInt32.toNat_ofNat_of_lt'
  have small : Numeral.digitValue c ≤ 57 := Nat.le_trans (Nat.sub_le _ _) upper
  exact Nat.lt_of_le_of_lt small (by decide)

/-- A character that begins a lexeme of its own closes the one before it. -/
theorem scan_cons_of_apart (position : Nat) {current next : Lexeme} {c : Char} (rest : List Char)
    (begins : ofChar? c = some next) (apart : Apart current next) :
    scan position current (c :: rest) =
      (scan (position + 1) next rest).map (current :: ·) := by
  cases current <;> cases next <;> first
    | exact False.elim apart
    | simp only [scan, begins]

/-- Only blanks and numerals run together, each with its own kind. -/
theorem not_apart_cases {current next : Lexeme} (together : ¬ Apart current next) :
    current = .blank ∧ next = .blank ∨
      ∃ value digit, current = .numeral value ∧ next = .numeral digit := by
  cases current <;> cases next <;> first
    | exact absurd trivial together
    | exact Or.inl ⟨rfl, rfl⟩
    | exact Or.inr ⟨_, _, rfl, rfl⟩

/-- A blank is absorbed by the blanks before it. -/
theorem scan_blank (position : Nat) {c : Char} (rest : List Char)
    (begins : ofChar? c = some blank) :
    scan position blank (c :: rest) = scan (position + 1) blank rest := by
  rw [scan, begins]

/-- Digits extend a numeral as long as the whole numeral is small enough. -/
theorem scan_digits (position : Nat) (value : UInt32) (digits rest : List Char)
    (areDigits : ∀ c ∈ digits, c.isDigit = true)
    (small : Numeral.extend value.toNat digits < UInt32.size) :
    scan position (numeral value) (digits ++ rest) =
      scan (position + digits.length)
        (numeral (UInt32.ofNat (Numeral.extend value.toNat digits))) rest := by
  induction digits generalizing position value with
  | nil => simp only [Numeral.extend, List.foldl_nil, UInt32.ofNat_toNat, List.nil_append,
      List.length_nil, Nat.add_zero]
  | cons c more inductionHypothesis =>
      have digit := areDigits c List.mem_cons_self
      have areDigitsMore : ∀ d ∈ more, d.isDigit = true :=
        fun d member => areDigits d (List.mem_cons_of_mem c member)
      have longer_small : 10 * value.toNat + Numeral.digitValue c < UInt32.size :=
        Nat.lt_of_le_of_lt (Numeral.le_extend _ more) small
      have longer_toNat := UInt32.toNat_ofNat_of_lt' longer_small
      have continued := inductionHypothesis (position + 1)
        (UInt32.ofNat (10 * value.toNat + Numeral.digitValue c)) areDigitsMore
        (by rw [longer_toNat]; exact small)
      rw [longer_toNat] at continued
      rw [List.cons_append, scan, ofChar?_digit digit]
      simp only [toNat_ofNat_digitValue digit, if_pos longer_small, continued, List.length_cons]
      rw [Nat.add_right_comm, Nat.add_assoc]
      rfl

/-- A numeral that becomes too large is refused, however many digits are still to come. -/
theorem scan_digits_large (position : Nat) (value : UInt32) (digits rest : List Char)
    (areDigits : ∀ c ∈ digits, c.isDigit = true)
    (large : UInt32.size ≤ Numeral.extend value.toNat digits) :
    scan position (numeral value) (digits ++ rest) = .error .overflow := by
  induction digits generalizing position value with
  | nil => exact absurd value.toNat_lt (Nat.not_lt.mpr large)
  | cons c more inductionHypothesis =>
      have digit := areDigits c List.mem_cons_self
      rw [List.cons_append, scan, ofChar?_digit digit]
      simp only [toNat_ofNat_digitValue digit]
      split
      · next longer_small =>
          apply inductionHypothesis
          · exact fun d member => areDigits d (List.mem_cons_of_mem c member)
          · rw [UInt32.toNat_ofNat_of_lt' longer_small]
            exact large
      · rfl

/-- The first digit of a run as a numeral, which the other digits extend to the whole run. -/
theorem extend_toNat_digit {c : Char} (digit : c.isDigit = true) (more : List Char) :
    Numeral.extend (UInt32.ofNat (Numeral.digitValue c)).toNat more =
      Numeral.extend 0 (c :: more) := by
  rw [toNat_ofNat_digitValue digit]
  simp only [Numeral.extend, List.foldl_cons, Nat.mul_zero, Nat.zero_add]

section Runs

variable (position : Nat) {current : Lexeme} {run : List Char} (rest : List Char)

/-- A run of digits that does not continue a numeral makes one by itself, if it is small enough. -/
theorem scan_run (isRun : Text.Run Char.isDigit run)
    (apart : ∀ value, Apart current (numeral value))
    (small : Numeral.extend 0 run < UInt32.size) :
    scan position current (run ++ rest) =
      (scan (position + run.length) (numeral (UInt32.ofNat (Numeral.extend 0 run))) rest).map
        (current :: ·) := by
  rcases isRun.exists_cons with ⟨c, more, rfl, digit⟩
  rw [List.cons_append, scan_cons_of_apart position _ (ofChar?_digit digit) (apart _),
    scan_digits (position + 1) _ more rest
      (fun d member => isRun.all d (List.mem_cons_of_mem c member))
      (by rw [extend_toNat_digit digit]; exact small),
    extend_toNat_digit digit, List.length_cons, Nat.add_right_comm, Nat.add_assoc]

theorem scan_run_large (isRun : Text.Run Char.isDigit run)
    (apart : ∀ value, Apart current (numeral value))
    (large : UInt32.size ≤ Numeral.extend 0 run) :
    scan position current (run ++ rest) = .error .overflow := by
  rcases isRun.exists_cons with ⟨c, more, rfl, digit⟩
  rw [List.cons_append, scan_cons_of_apart position _ (ofChar?_digit digit) (apart _),
    scan_digits_large (position + 1) _ more rest
      (fun d member => isRun.all d (List.mem_cons_of_mem c member))
      (by rw [extend_toNat_digit digit]; exact large)]
  rfl

end Runs

theorem run_ofNat (n : Nat) : Text.Run Char.isDigit (Numeral.ofNat n) where
  nonempty := Numeral.ofNat_ne_nil n
  all := fun _ member => Numeral.isDigit_of_mem_ofNat member

/-- Whether digits continue a lexeme does not depend on their value. -/
theorem Apart.numeral {current : Lexeme} {value : UInt32} (apart : Apart current (numeral value))
    (other : UInt32) : Apart current (.numeral other) := by
  cases current with
  | numeral before => exact apart
  | blank => trivial
  | slash => trivial
  | operator op => trivial

/-- A numeral that does not continue another is read back. -/
theorem scan_ofNat (position : Nat) {current : Lexeme} (value : UInt32) (rest : List Char)
    (apart : Apart current (numeral value)) :
    ∃ later, scan position current (Numeral.ofNat value.toNat ++ rest) =
      (scan later (numeral value) rest).map (current :: ·) := by
  have readBack := Numeral.extend_ofNat value.toNat
  refine ⟨position + (Numeral.ofNat value.toNat).length, ?_⟩
  rw [scan_run position rest (run_ofNat value.toNat) apart.numeral
    (by rw [readBack]; exact value.toNat_lt), readBack, UInt32.ofNat_toNat]

/-- A spelled lexeme closes the one before it. -/
theorem scan_spelling (position : Nat) {current next : Lexeme} (rest : List Char)
    (apart : Apart current next) :
    ∃ later, scan position current (next.spelling ++ rest) =
      (scan later next rest).map (current :: ·) := by
  cases next with
  | blank => exact ⟨position + 1, scan_cons_of_apart position rest (by decide) apart⟩
  | numeral value => exact scan_ofNat position value rest apart
  | slash => exact ⟨position + 1, scan_cons_of_apart position rest (by decide) apart⟩
  | operator op =>
      cases op <;>
        exact ⟨position + 1, scan_cons_of_apart position rest (by decide) apart⟩

/-- A text of spellings that do not run together is cut where they meet. -/
theorem scan_spellings (position : Nat) {current : Lexeme} {lexemes : List Lexeme}
    (apart : (current :: lexemes).IsChain Apart) :
    scan position current (lexemes.flatMap spelling) = .ok (current :: lexemes) := by
  induction lexemes generalizing position current with
  | nil => rfl
  | cons next rest inductionHypothesis =>
      rcases List.isChain_cons_cons.mp apart with ⟨first_apart, rest_apart⟩
      rcases scan_spelling position (rest.flatMap spelling) first_apart with ⟨later, cut⟩
      rw [List.flatMap_cons, cut, inductionHypothesis later rest_apart]
      rfl

end Lexeme
end MixedCalculator
