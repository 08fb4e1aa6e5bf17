/-!
# Classes of characters as ranges of code points

A class of characters is given by the ranges of code points it consists of, each
with its first and its last member, in ascending order.  Looking a character up
walks the ranges and stops at the first that begins past it, so the characters
that sources mostly consist of, which stand at the front of every table, are
found at once.

The tables of this folder are data of the Unicode character database, version
14.
-/

namespace LineCalculator

namespace Text

/-- Whether a code point lies in one of some ascending ranges. -/
def inRanges : List (Nat × Nat) → Nat → Bool
  | [], _ => false
  | (first, last) :: rest, n => decide (first ≤ n) && (decide (n ≤ last) || inRanges rest n)

/-- A code point found in the ranges lies in one of them. -/
theorem exists_mem_of_inRanges {ranges : List (Nat × Nat)} {n : Nat}
    (h : inRanges ranges n = true) : ∃ r ∈ ranges, r.1 ≤ n ∧ n ≤ r.2 := by
  induction ranges with
  | nil => simp [inRanges] at h
  | cons r rest ih =>
    obtain ⟨first, last⟩ := r
    simp only [inRanges, Bool.and_eq_true, Bool.or_eq_true, decide_eq_true_eq] at h
    rcases h with ⟨hf, hl | hr⟩
    · exact ⟨(first, last), by simp, hf, hl⟩
    · obtain ⟨r, hr, hb⟩ := ih hr
      exact ⟨r, by simp [hr], hb⟩

end Text

end LineCalculator
