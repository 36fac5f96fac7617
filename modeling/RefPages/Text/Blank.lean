import RefPages.Text.WordChar

/-!
# White space

* `isBlank` is Unicode white space together with the four information separators.
* `trim` removes it from both ends of a text; `trim_eq_nil_iff` says when nothing is left.
* `isWordChar_eq_false_of_isBlank`: no word character is white space, which is why a word and the
  white space next to it can be read in one way only.
-/

set_option autoImplicit false
namespace RefPages
namespace Text

/-- The code points of white space. -/
def blankRanges : List (Nat × Nat) :=
  [(0x9, 0xD), (0x1C, 0x20), (0x85, 0x85), (0xA0, 0xA0), (0x1680, 0x1680), (0x2000, 0x200A),
   (0x2028, 0x2029), (0x202F, 0x202F), (0x205F, 0x205F), (0x3000, 0x3000)]

/-- Is `c` white space? -/
def isBlank (c : Char) : Bool :=
  inRanges blankRanges c.toNat

theorem isWordChar_eq_false_of_isBlank {c : Char} (h : isBlank c = true) :
    isWordChar c = false := by
  have key : ∀ r ∈ blankRanges, ∀ k : Fin 11, r.1 + k ≤ r.2 →
      inRanges wordRanges (r.1 + k) = false := by
    decide +kernel
  have hsorted : RangesSorted blankRanges := by
    simp [RangesSorted, blankRanges]
  have hshort : ∀ r ∈ blankRanges, r.2 < r.1 + 11 := by
    decide
  obtain ⟨r, hr, hlo, hhi⟩ := (inRanges_iff hsorted c.toNat).1 h
  have hs := hshort r hr
  have := key r hr ⟨c.toNat - r.1, by omega⟩ (by simp only; omega)
  rwa [show r.1 + (c.toNat - r.1) = c.toNat by omega] at this

theorem isBlank_eq_false_of_isWordChar {c : Char} (h : isWordChar c = true) :
    isBlank c = false := by
  rw [← Bool.not_eq_true]
  intro hblank
  rw [isWordChar_eq_false_of_isBlank hblank] at h
  exact absurd h (by decide)

/-- The text without the white space at its end. -/
def trimEnd (cs : List Char) : List Char :=
  (cs.reverse.dropWhile isBlank).reverse

/-- The text without the white space at its ends. -/
def trim (cs : List Char) : List Char :=
  trimEnd (cs.dropWhile isBlank)

/-- `trim` on strings. -/
def trimmed (s : String) : String :=
  String.ofList (trim s.toList)

theorem dropWhile_isBlank_append_ne_nil (cs : List Char) {c : Char} (h : ¬ isBlank c = true) :
    (cs ++ [c]).dropWhile isBlank ≠ [] := by
  induction cs with
  | nil => simp [h]
  | cons d rest ih =>
    by_cases hd : isBlank d = true
    · simpa [hd] using ih
    · simp [hd]

/-- Nothing is left of a text exactly when all of it is white space. -/
theorem trim_eq_nil_iff {cs : List Char} : trim cs = [] ↔ ∀ c ∈ cs, isBlank c = true := by
  induction cs with
  | nil => simp [trim, trimEnd]
  | cons c rest ih =>
    by_cases h : isBlank c = true
    · have : trim (c :: rest) = trim rest := by simp [trim, h]
      simp [this, ih, h]
    · have hne := dropWhile_isBlank_append_ne_nil rest.reverse h
      simp [trim, trimEnd, h, hne]

/-- Nothing is taken off a text with no white space at either end. -/
theorem trim_cons_append_singleton {first last : Char} (inner : List Char)
    (hfirst : isBlank first = false) (hlast : isBlank last = false) :
    trim (first :: (inner ++ [last])) = first :: (inner ++ [last]) := by
  simp [trim, trimEnd, hfirst, hlast]

end Text
end RefPages
