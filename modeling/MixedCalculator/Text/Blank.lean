namespace MixedCalculator
namespace Text

/-!
# Blank characters

A character is blank when it has the Unicode property `White_Space`.  The property covers
twenty-five characters; in particular a no-break space and an ideographic space are blank,
whereas a zero-width space is not.
-/

/-- The code points with the property `White_Space`, as closed ranges. -/
def blankRanges : List (Nat × Nat) :=
  [(0x0009, 0x000D), (0x0020, 0x0020), (0x0085, 0x0085), (0x00A0, 0x00A0), (0x1680, 0x1680),
    (0x2000, 0x200A), (0x2028, 0x2029), (0x202F, 0x202F), (0x205F, 0x205F), (0x3000, 0x3000)]

def isBlank (c : Char) : Bool :=
  blankRanges.any (fun range => decide (range.1 ≤ c.toNat ∧ c.toNat ≤ range.2))

/-- The text without the blank characters at its two ends. -/
def trim (text : List Char) : List Char :=
  ((text.dropWhile isBlank).reverse.dropWhile isBlank).reverse

theorem isBlank_iff (c : Char) :
    isBlank c = true ↔ ∃ range ∈ blankRanges, range.1 ≤ c.toNat ∧ c.toNat ≤ range.2 := by
  simp only [isBlank, List.any_eq_true, decide_eq_true_eq]

/-- A digit is not blank: between them, the two classes leave nothing to the order in which
they are asked for. -/
theorem isBlank_of_isDigit {c : Char} (digit : c.isDigit = true) : isBlank c = false := by
  have bounds : 48 ≤ c.toNat ∧ c.toNat ≤ 57 := by
    simp only [Char.isDigit, Bool.and_eq_true, decide_eq_true_eq, ge_iff_le,
      UInt32.le_iff_toNat_le] at digit
    exact digit
  apply Bool.eq_false_iff.mpr
  intro blank
  obtain ⟨range, member, lower, upper⟩ := (isBlank_iff c).mp blank
  simp only [blankRanges, List.mem_cons, List.not_mem_nil, or_false] at member
  rcases member with rfl | rfl | rfl | rfl | rfl | rfl | rfl | rfl | rfl | rfl <;>
    simp only at lower upper <;> omega

end Text
end MixedCalculator
