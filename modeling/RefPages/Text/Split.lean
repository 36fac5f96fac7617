/-!
# Pieces of a text

* `splitOn` cuts a list at every occurrence of an element; `splitOn_ne_nil` says that there is
  always a piece, `not_mem_of_mem_splitOn` that no piece holds the element, and
  `intercalate_splitOn` that nothing else is lost.
* `holds` looks for a text inside another.
-/

set_option autoImplicit false
namespace RefPages
namespace Text

section Pieces

variable {α : Type} [DecidableEq α]

/-- The pieces between the occurrences of `sep`. -/
def splitOn (sep : α) : List α → List (List α)
  | [] => [[]]
  | c :: rest =>
    if c = sep then [] :: splitOn sep rest
    else
      match splitOn sep rest with
      | [] => [[c]]
      | piece :: pieces => (c :: piece) :: pieces

theorem splitOn_ne_nil (sep : α) (cs : List α) : splitOn sep cs ≠ [] := by
  cases cs with
  | nil => simp [splitOn]
  | cons c rest =>
    simp only [splitOn]
    split
    · simp
    · split <;> simp

/-- No piece holds the separator. -/
theorem not_mem_of_mem_splitOn {sep : α} {cs piece : List α}
    (h : piece ∈ splitOn sep cs) : sep ∉ piece := by
  induction cs generalizing piece with
  | nil => simp_all [splitOn]
  | cons c rest ih =>
    simp only [splitOn] at h
    split at h
    · rcases List.mem_cons.1 h with rfl | h
      · simp
      · exact ih h
    · rename_i hc
      split at h
      · rcases List.mem_singleton.1 h with rfl
        simpa using Ne.symm hc
      · rename_i first pieces hs
        rcases List.mem_cons.1 h with rfl | h
        · have := ih (hs ▸ List.mem_cons_self)
          simp [Ne.symm hc, this]
        · exact ih (hs ▸ List.mem_cons_of_mem _ h)

/-- The pieces with the separator between them are the text. -/
theorem intercalate_splitOn (sep : α) (cs : List α) :
    [sep].intercalate (splitOn sep cs) = cs := by
  induction cs with
  | nil => rfl
  | cons c rest ih =>
    obtain ⟨first, pieces, hs⟩ := List.exists_cons_of_ne_nil (splitOn_ne_nil sep rest)
    rw [hs] at ih
    by_cases hc : c = sep
    · have hstep : splitOn sep (c :: rest) = [] :: first :: pieces := by simp [splitOn, hc, hs]
      rw [hstep, hc, ← ih]
      rfl
    · have hstep : splitOn sep (c :: rest) = (c :: first) :: pieces := by simp [splitOn, hc, hs]
      rw [hstep, ← ih]
      cases pieces <;> rfl

end Pieces

/-- Does `needle` occur in the text? -/
def holds (needle : List Char) : List Char → Bool
  | [] => needle.isEmpty
  | c :: rest => needle.isPrefixOf (c :: rest) || holds needle rest

/-- `holds` on strings. -/
def occursIn (needle s : String) : Bool :=
  holds needle.toList s.toList

end Text
end RefPages
