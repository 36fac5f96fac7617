/-!
# Tables of code point ranges

A property of characters is kept as a list of ranges `(lo, hi)`, both ends included, sorted and
apart from each other.

* `inRanges` looks a code point up and stops at the first range that lies above it.
* `RangesSorted` is the order the tables are in; under it `inRanges_iff` says that the look-up is
  membership in one of the ranges.
-/

set_option autoImplicit false
namespace RefPages
namespace Text

/-- Does one of the sorted ranges hold the code point? -/
def inRanges : List (Nat × Nat) → Nat → Bool
  | [], _ => false
  | (lo, hi) :: rest, n => if n < lo then false else if n ≤ hi then true else inRanges rest n

/-- Every range is non-empty and ends below the start of the ones after it. -/
def RangesSorted : List (Nat × Nat) → Prop
  | [] => True
  | (lo, hi) :: rest => lo ≤ hi ∧ (∀ r ∈ rest, hi < r.1) ∧ RangesSorted rest

/-- In a sorted table the look-up finds exactly the members of the ranges. -/
theorem inRanges_iff {table : List (Nat × Nat)} (h : RangesSorted table) (n : Nat) :
    inRanges table n = true ↔ ∃ r ∈ table, r.1 ≤ n ∧ n ≤ r.2 := by
  induction table with
  | nil => simp [inRanges]
  | cons r rest ih =>
    obtain ⟨lo, hi⟩ := r
    obtain ⟨hle, hlt, hrest⟩ := h
    by_cases h1 : n < lo
    · have hno : ∀ r ∈ (lo, hi) :: rest, ¬ (r.1 ≤ n ∧ n ≤ r.2) := by
        intro r hr
        rcases List.mem_cons.1 hr with rfl | hr
        · simp only; omega
        · have := hlt r hr
          omega
      simp only [inRanges, h1, if_true, Bool.false_eq_true, false_iff]
      rintro ⟨r, hr, h2⟩
      exact hno r hr h2
    · by_cases h2 : n ≤ hi
      · simp only [inRanges, h1, h2, if_true, if_false, true_iff]
        exact ⟨(lo, hi), by simp, by simp only; omega⟩
      · simp [inRanges, h1, h2, ih hrest]

end Text
end RefPages
