import RefPages.Text.Blank

/-!
# Reading the front of a text

The declarations looked for in a source file are read off the front of a list of characters. Words
and white space are always taken as far as they go, so each piece can be read in one way only.

* `skip?` reads a fixed text, `skipBlanks` and `someBlanks?` white space, `word?` a word.
* `findFirst` tries a shape at every position, from the left.

Each piece has a lemma on the length of what it leaves, which is what bounds the loops over a text.
-/

set_option autoImplicit false
namespace RefPages
namespace Source

open Text

/-- What follows the fixed text `lit`. -/
def skip? (lit : String) (cs : List Char) : Option (List Char) :=
  if lit.toList.isPrefixOf cs then some (cs.drop lit.toList.length) else none

theorem skip?_eq_some_iff {lit : String} {cs rest : List Char} :
    skip? lit cs = some rest ↔ cs = lit.toList ++ rest := by
  simp only [skip?]
  constructor
  · intro h
    split at h
    · rename_i hp
      obtain ⟨t, rfl⟩ := List.isPrefixOf_iff_prefix.1 hp
      simp_all
    · simp at h
  · rintro rfl
    simp

theorem length_of_skip? {lit : String} {cs rest : List Char} (h : skip? lit cs = some rest) :
    cs.length = lit.toList.length + rest.length := by
  simp [skip?_eq_some_iff.1 h]

/-- What follows the white space in front. -/
def skipBlanks (cs : List Char) : List Char :=
  cs.dropWhile isBlank

theorem length_dropWhile_le {α : Type} (p : α → Bool) (l : List α) :
    (l.dropWhile p).length ≤ l.length :=
  (List.dropWhile_sublist p).length_le

theorem length_skipBlanks_le (cs : List Char) : (skipBlanks cs).length ≤ cs.length :=
  length_dropWhile_le _ _

theorem exists_blanks_append_skipBlanks (cs : List Char) :
    ∃ gap, (∀ c ∈ gap, isBlank c = true) ∧ cs = gap ++ skipBlanks cs :=
  ⟨cs.takeWhile isBlank, List.all_eq_true.1 List.all_takeWhile,
    List.takeWhile_append_dropWhile.symm⟩

theorem skipBlanks_append {gap rest : List Char} (hgap : ∀ c ∈ gap, isBlank c = true)
    (hrest : ∀ c, rest.head? = some c → isBlank c = false) : skipBlanks (gap ++ rest) = rest := by
  rw [skipBlanks, List.dropWhile_append_of_pos hgap]
  cases rest with
  | nil => rfl
  | cons c tail => simp [hrest c rfl]

/-- What follows the white space in front, of which there is some. -/
def someBlanks? : List Char → Option (List Char)
  | [] => none
  | c :: rest => if isBlank c then some (skipBlanks rest) else none

theorem length_of_someBlanks? {cs rest : List Char} (h : someBlanks? cs = some rest) :
    rest.length < cs.length := by
  cases cs with
  | nil => simp [someBlanks?] at h
  | cons c tail =>
    simp only [someBlanks?, Option.ite_none_right_eq_some, Option.some.injEq] at h
    rw [← h.2]
    have := length_skipBlanks_le tail
    simp only [List.length_cons]
    omega

/-- White space is read as far as it goes. -/
theorem someBlanks?_eq_some_iff {cs rest : List Char} :
    someBlanks? cs = some rest ↔
      ∃ gap, gap ≠ [] ∧ (∀ c ∈ gap, isBlank c = true) ∧ cs = gap ++ rest
        ∧ ∀ c, rest.head? = some c → isBlank c = false := by
  constructor
  · intro h
    cases cs with
    | nil => simp [someBlanks?] at h
    | cons c tail =>
      simp only [someBlanks?, Option.ite_none_right_eq_some, Option.some.injEq] at h
      obtain ⟨hc, rfl⟩ := h
      obtain ⟨gap, hgap, htail⟩ := exists_blanks_append_skipBlanks tail
      refine ⟨c :: gap, by simp, List.forall_mem_cons.2 ⟨hc, hgap⟩,
        by rw [List.cons_append, ← htail], fun d hd => ?_⟩
      have hstop := List.head?_dropWhile_not isBlank tail
      rw [← skipBlanks, hd] at hstop
      exact hstop
  · rintro ⟨gap, hne, hgap, rfl, hrest⟩
    cases gap with
    | nil => exact absurd rfl hne
    | cons c gap =>
      obtain ⟨hc, hgap⟩ := List.forall_mem_cons.1 hgap
      rw [List.cons_append, someBlanks?, if_pos hc, skipBlanks_append hgap hrest]

/-- The word in front and what follows it. -/
def word? (cs : List Char) : Option (List Char × List Char) :=
  match cs.takeWhile isWordChar with
  | [] => none
  | word => some (word, cs.dropWhile isWordChar)

theorem length_of_word? {cs word rest : List Char} (h : word? cs = some (word, rest)) :
    rest.length < cs.length := by
  have hsplit := congrArg List.length (List.takeWhile_append_dropWhile (p := isWordChar) (l := cs))
  simp only [word?] at h
  split at h
  · simp at h
  · rename_i hne
    simp only [Option.some.injEq, Prod.mk.injEq] at h
    have : (cs.takeWhile isWordChar).length ≠ 0 := by simpa using hne
    simp only [List.length_append] at hsplit
    rw [← h.2]
    omega

/-- Does the text not go on with a word character? -/
def atWordEnd : List Char → Bool
  | [] => true
  | c :: _ => !isWordChar c

theorem atWordEnd_dropWhile (cs : List Char) : atWordEnd (cs.dropWhile isWordChar) = true := by
  induction cs with
  | nil => rfl
  | cons c rest ih =>
    by_cases hc : isWordChar c = true
    · rwa [List.dropWhile_cons_of_pos hc]
    · rw [List.dropWhile_cons_of_neg hc]
      simpa [atWordEnd] using hc

/-- A word is not empty and goes on as far as there are word characters. -/
theorem word?_eq_some_iff {cs word rest : List Char} :
    word? cs = some (word, rest) ↔
      cs = word ++ rest ∧ word ≠ [] ∧ (∀ c ∈ word, isWordChar c = true)
        ∧ atWordEnd rest = true := by
  rw [word?]
  constructor
  · intro h
    split at h
    · exact absurd h (by simp)
    · rename_i hne
      cases h
      exact ⟨List.takeWhile_append_dropWhile.symm, hne, List.all_eq_true.1 List.all_takeWhile,
        atWordEnd_dropWhile cs⟩
  · rintro ⟨rfl, hne, hword, hend⟩
    have hrest : rest.takeWhile isWordChar = [] ∧ rest.dropWhile isWordChar = rest := by
      cases rest with
      | nil => exact ⟨rfl, rfl⟩
      | cons c tail =>
        have hc : ¬ isWordChar c = true := by simpa [atWordEnd] using hend
        exact ⟨List.takeWhile_cons_of_neg hc, List.dropWhile_cons_of_neg hc⟩
    rw [List.takeWhile_append_of_pos hword, List.dropWhile_append_of_pos hword, hrest.1, hrest.2,
      List.append_nil]
    split
    · exact absurd rfl hne
    · rfl

/-- The result of a shape at the leftmost position where it can be read. -/
def findFirst {α : Type} (shape : List Char → Option α) : List Char → Option α
  | [] => shape []
  | c :: rest => (shape (c :: rest)).or (findFirst shape rest)

theorem findFirst_eq_none_iff {α : Type} {shape : List Char → Option α} {cs : List Char} :
    findFirst shape cs = none ↔ ∀ tail, tail <:+ cs → shape tail = none := by
  induction cs with
  | nil => simp [findFirst]
  | cons c rest ih =>
    simp only [findFirst, Option.or_eq_none_iff, ih, List.suffix_cons_iff]
    constructor
    · rintro ⟨h1, h2⟩ tail (rfl | h)
      · exact h1
      · exact h2 tail h
    · intro h
      exact ⟨h _ (Or.inl rfl), fun tail ht => h tail (Or.inr ht)⟩

/-- A shape that can be read in front is found there. -/
theorem findFirst_eq_of_eq_some {α : Type} {shape : List Char → Option α} {cs : List Char} {a : α}
    (h : shape cs = some a) : findFirst shape cs = some a := by
  cases cs with
  | nil => exact h
  | cons c rest => rw [findFirst, h, Option.some_or]

/-- A shape found somewhere is read at some end of the text. -/
theorem exists_of_findFirst {α : Type} {shape : List Char → Option α} {cs : List Char} {a : α}
    (h : findFirst shape cs = some a) : ∃ tail, tail <:+ cs ∧ shape tail = some a := by
  induction cs with
  | nil => exact ⟨[], List.suffix_refl _, h⟩
  | cons c rest ih =>
    simp only [findFirst, Option.or_eq_some_iff] at h
    rcases h with h | ⟨-, h⟩
    · exact ⟨_, List.suffix_refl _, h⟩
    · obtain ⟨tail, ht, hs⟩ := ih h
      exact ⟨tail, ht.trans (List.suffix_cons _ _), hs⟩

/-- A shape is found at the first position at which it can be read. -/
theorem exists_drop_of_findFirst {α : Type} {shape : List Char → Option α} {cs : List Char} {a : α}
    (h : findFirst shape cs = some a) :
    ∃ i, shape (cs.drop i) = some a ∧ ∀ j < i, shape (cs.drop j) = none := by
  induction cs with
  | nil => exact ⟨0, h, by simp⟩
  | cons c rest ih =>
    rw [findFirst, Option.or_eq_some_iff] at h
    rcases h with h | ⟨hnone, h⟩
    · exact ⟨0, h, by simp⟩
    · obtain ⟨i, hi, hbefore⟩ := ih h
      refine ⟨i + 1, hi, fun j hj => ?_⟩
      cases j with
      | zero => exact hnone
      | succ j => exact hbefore j (by omega)

end Source
end RefPages
