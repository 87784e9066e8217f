import Astra.Lexing.Spelling
import Astra.Text.Characters

/-!
# Classes of characters that lie apart

Letters, digits and blanks are given by tables of ranges. Two tables have no character in common
when a pass over both finds no ranges that meet. No digit is a letter, and no blank is a part of a
word.
-/

namespace Astra.Text

/-- Whether no range of one table meets a range of another. Ranges of the second table that end
before the next range of the first are passed over for good, so both tables must increase. -/
def areApart : List (Nat × Nat) → List (Nat × Nat) → Bool
  | [], _ => true
  | (low, high) :: rest, others =>
    let ahead := others.dropWhile fun other => other.2 < low
    ahead.head?.all (fun other => high < other.1) && areApart rest ahead

section Tables

variable {ranges others : List (Nat × Nat)} {low n : Nat}

theorem inRanges_dropWhile (above : low ≤ n) (inside : inRanges others n = true) :
    inRanges (others.dropWhile fun other => other.2 < low) n = true := by
  induction others with
  | nil => cases inside
  | cons other rest ih =>
    rw [List.dropWhile_cons]
    split
    · rename_i passed
      have below : other.2 < low := of_decide_eq_true passed
      rw [inRanges] at inside
      split at inside
      · cases inside
      · rw [if_neg (by omega)] at inside
        exact ih inside
    · exact inside

theorem not_inRanges_of_areApart (apart : areApart ranges others = true)
    (here : inRanges ranges n = true) : inRanges others n = false := by
  induction ranges generalizing others with
  | nil => cases here
  | cons range rest ih =>
    obtain ⟨low, high⟩ := range
    rw [areApart, Bool.and_eq_true] at apart
    rw [inRanges] at here
    split at here
    · cases here
    · rename_i above
      rw [Bool.eq_false_iff]
      intro inside
      have ahead := inRanges_dropWhile (Nat.le_of_not_lt above) inside
      split at here
      · -- The next range of the other table begins behind the one that the number is in.
        generalize others.dropWhile (fun other => other.2 < low) = later at apart ahead
        cases later with
        | nil => cases ahead
        | cons other more =>
          have behind : high < other.1 := of_decide_eq_true apart.1
          rw [inRanges, if_pos (by omega)] at ahead
          cases ahead
      · rw [ih apart.2 here] at ahead
        cases ahead

end Tables

/-- The runs of decimal digits as ranges. -/
def decimalRanges : List (Nat × Nat) := decimalZeros.map fun first => (first, first + 9)

theorem inRanges_of_mem_run {firsts : List Nat} {first n : Nat} (increasing : firsts.Pairwise (· < ·))
    (listed : first ∈ firsts) (low : first ≤ n) (high : n < first + 10) :
    inRanges (firsts.map fun first => (first, first + 9)) n = true := by
  induction firsts with
  | nil => cases listed
  | cons other rest ih =>
    obtain ⟨smaller, increasing⟩ := List.pairwise_cons.mp increasing
    rw [List.map_cons, inRanges]
    rcases List.mem_cons.mp listed with rfl | later
    · rw [if_neg (by omega), if_pos (by omega)]
    · have before := smaller first later
      rw [if_neg (by omega)]
      split
      · rfl
      · exact ih increasing later

variable {c : Char}

theorem isDigit_cases (digit : isDigit c = true) :
    inRanges decimalRanges c.toNat = true ∨ inRanges extraDigitRanges c.toNat = true := by
  rw [isDigit, Bool.or_eq_true] at digit
  refine digit.imp_left fun decimal => ?_
  rw [isDecimal, decimalValue?, Option.isSome_map, List.find?_isSome] at decimal
  obtain ⟨first, listed, bounds⟩ := decimal
  simp only [Bool.and_eq_true, decide_eq_true_eq] at bounds
  exact inRanges_of_mem_run (by decide +kernel) listed bounds.1 bounds.2

theorem not_isLetter_of_isDigit (digit : isDigit c = true) : isLetter c = false := by
  rcases isDigit_cases digit with decimal | extra
  · exact not_inRanges_of_areApart (by decide +kernel) decimal
  · exact not_inRanges_of_areApart (by decide +kernel) extra

theorem isAlphanumeric_of_isDigit (digit : isDigit c = true) : isAlphanumeric c = true := by
  simp [isAlphanumeric, digit]

/-- No blank is a letter, a digit or another numeric character. -/
theorem not_isAlphanumeric_of_isBlank (blank : isBlank c = true) : isAlphanumeric c = false := by
  have elsewhere : ∀ table, areApart blankRanges table = true → inRanges table c.toNat = false :=
    fun table apart => not_inRanges_of_areApart apart blank
  have digit : isDigit c = false := by
    rw [Bool.eq_false_iff]
    intro digit
    rcases isDigit_cases digit with decimal | extra
    · rw [elsewhere _ (by decide +kernel)] at decimal
      cases decimal
    · rw [elsewhere _ (by decide +kernel)] at extra
      cases extra
  have letter : isLetter c = false := elsewhere _ (by decide +kernel)
  have numeric : inRanges extraNumericRanges c.toNat = false := elsewhere _ (by decide +kernel)
  simp [isAlphanumeric, letter, digit, numeric]

end Astra.Text

namespace Astra.Lexing

variable {c : Char}

theorem isWordChar_of_isDigit (digit : Text.isDigit c = true) : isWordChar c = true := by
  simp [isWordChar, Text.isAlphanumeric_of_isDigit digit]

theorem not_isWordChar_of_isBlank (blank : Text.isBlank c = true) : isWordChar c = false := by
  have underscore : c ≠ '_' := by
    rintro rfl
    exact absurd blank (by decide)
  simp [isWordChar, Text.not_isAlphanumeric_of_isBlank blank, underscore]

end Astra.Lexing
