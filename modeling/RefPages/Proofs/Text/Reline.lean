import RefPages.Text.Lines
import RefPages.Text.Split

/-!
# Cutting a text into lines and joining them again

A text that goes into a page is cut by `splitLines` first, and its lines are joined by line feeds.
When the page is cut at line feeds again, every character that ended a line has become a line feed.

* `reline` is that change, character by character, and `splitLines_snoc` says that the lines of a
  text with a line feed at its end are the pieces of the relined text.
* `isInfix_of_mem_splitOn`: a piece of a text stands in it right after a separator, or in front.
* `splitOn_joinLines` and `splitOn_joinLines_append` read lines back off the text they are joined
  in.
-/

set_option autoImplicit false
namespace RefPages
namespace Text

/-- No character of a list has a property that none of them has. -/
theorem eq_false_of_any {p : Char → Bool} {cs : List Char} (h : cs.any p = false) :
    ∀ x ∈ cs, p x = false :=
  fun x hx => Bool.eq_false_iff.2 (List.any_eq_false.1 h x hx)

/-- What a character becomes when the text is cut into lines and joined by line feeds. -/
def relineChar (c : Char) : Char :=
  if isLineBoundary c then '\n' else c

/-- What a text becomes when it is cut into lines and joined by line feeds. -/
def reline (cs : List Char) : List Char :=
  cs.map relineChar

@[simp] theorem reline_nil : reline [] = [] := rfl

@[simp] theorem reline_cons (c : Char) (cs : List Char) :
    reline (c :: cs) = relineChar c :: reline cs := rfl

@[simp] theorem reline_append (xs ys : List Char) : reline (xs ++ ys) = reline xs ++ reline ys :=
  List.map_append

@[simp] theorem length_reline (cs : List Char) : (reline cs).length = cs.length :=
  List.length_map _

/-- A text in which only line feeds end lines stays as it is. -/
theorem reline_eq_self {cs : List Char} (h : ∀ c ∈ cs, isLineBoundary c = true → c = '\n') :
    reline cs = cs := by
  rw [reline, List.map_congr_left (g := id), List.map_id]
  intro c hc
  rw [relineChar]
  split
  · rename_i hb
    exact (h c hc hb).symm
  · rfl

/-- Only such a text stays as it is. -/
theorem reline_eq_self_iff {cs : List Char} :
    reline cs = cs ↔ ∀ c ∈ cs, isLineBoundary c = true → c = '\n' := by
  refine ⟨fun h c hc hb => ?_, reline_eq_self⟩
  have hchar : relineChar c = id c := List.map_inj_left.1 (h.trans (List.map_id cs).symm) c hc
  rwa [relineChar, if_pos hb, id, eq_comm] at hchar

/-! ## The lines of a text without carriage returns -/

theorem splitLines_cons {c : Char} (hc : c ≠ '\r') (rest : List Char) :
    splitLines (c :: rest) =
      if isLineBoundary c then [] :: splitLines rest
      else
        match splitLines rest with
        | [] => [[c]]
        | line :: lines => (c :: line) :: lines := by
  exact splitLines.eq_3 c rest fun _ h => absurd h hc

/-- **The lines of a text are the pieces of the relined text.** -/
theorem splitLines_snoc {cs : List Char} (h : '\r' ∉ cs) :
    splitLines (cs ++ ['\n']) = splitOn '\n' (reline cs) := by
  induction cs with
  | nil => rfl
  | cons c rest ih =>
    rw [List.mem_cons, not_or] at h
    rw [List.cons_append, splitLines_cons (Ne.symm h.1), ih h.2, reline_cons, splitOn, relineChar]
    by_cases hb : isLineBoundary c = true
    · rw [if_pos hb, if_pos hb, if_pos rfl]
    · have hc : c ≠ '\n' := by
        rintro rfl
        exact hb rfl
      cases splitOn '\n' (reline rest) with
      | nil => rw [if_neg hb, if_neg hb, if_neg hc]
      | cons line lines => rw [if_neg hb, if_neg hb, if_neg hc]

/-! ## Pieces -/

/-- A separator cuts, whatever is in front of it. -/
theorem splitOn_append_cons (sep : Char) (front rest : List Char) :
    splitOn sep (front ++ sep :: rest) = splitOn sep front ++ splitOn sep rest := by
  induction front with
  | nil => simp [splitOn]
  | cons c tail ih =>
    obtain ⟨piece, pieces, hs⟩ := List.exists_cons_of_ne_nil (splitOn_ne_nil sep tail)
    rw [List.cons_append, splitOn, splitOn, ih, hs]
    split <;> rfl

theorem splitOn_eq_self {sep : Char} {piece : List Char} (h : sep ∉ piece) :
    splitOn sep piece = [piece] := by
  induction piece with
  | nil => rfl
  | cons c tail ih =>
    rw [List.mem_cons, not_or] at h
    rw [splitOn, if_neg (Ne.symm h.1), ih h.2]

theorem splitOn_append {sep : Char} {piece : List Char} (h : sep ∉ piece) (rest : List Char) :
    splitOn sep (piece ++ sep :: rest) = piece :: splitOn sep rest := by
  rw [splitOn_append_cons, splitOn_eq_self h, List.singleton_append]

/-- A piece of a text stands in it right after a separator, or in front. -/
theorem isInfix_of_mem_splitOn {sep : Char} {cs piece : List Char} (h : piece ∈ splitOn sep cs) :
    sep :: piece <:+: sep :: cs := by
  -- The first piece is a front of the text, and the others follow a separator inside it.
  have key : ∀ cs : List Char, ∀ first rest, splitOn sep cs = first :: rest →
      first <+: cs ∧ ∀ piece ∈ rest, sep :: piece <:+: cs := by
    intro cs
    induction cs with
    | nil =>
      rintro first rest h
      simp only [splitOn, List.cons.injEq] at h
      simp [← h.1, ← h.2]
    | cons c tail ih =>
      intro first rest h
      obtain ⟨line, lines, hs⟩ := List.exists_cons_of_ne_nil (splitOn_ne_nil sep tail)
      obtain ⟨h1, h2⟩ := ih line lines hs
      rw [splitOn, hs] at h
      split at h
      · rename_i hc
        simp only [List.cons.injEq] at h
        obtain ⟨rfl, rfl⟩ := h
        refine ⟨List.nil_prefix, fun piece hp => ?_⟩
        rcases List.mem_cons.1 hp with rfl | hp
        · rw [hc]
          exact ((List.prefix_cons_inj sep).2 h1).isInfix
        · exact (h2 piece hp).trans (List.suffix_cons c tail).isInfix
      · simp only [List.cons.injEq] at h
        obtain ⟨rfl, rfl⟩ := h
        exact ⟨(List.prefix_cons_inj c).2 h1,
          fun piece hp => (h2 piece hp).trans (List.suffix_cons c tail).isInfix⟩
  obtain ⟨line, lines, hs⟩ := List.exists_cons_of_ne_nil (splitOn_ne_nil sep cs)
  obtain ⟨h1, h2⟩ := key cs line lines hs
  rw [hs] at h
  rcases List.mem_cons.1 h with rfl | h
  · exact ((List.prefix_cons_inj sep).2 h1).isInfix
  · exact (h2 piece h).trans (List.suffix_cons sep cs).isInfix

/-! ## Joined lines -/

theorem toList_joinLines_cons (line : String) {lines : List String} (h : lines ≠ []) :
    (joinLines (line :: lines)).toList = line.toList ++ '\n' :: (joinLines lines).toList := by
  obtain ⟨next, rest, rfl⟩ := List.exists_cons_of_ne_nil h
  rw [joinLines, joinWith_cons_cons, String.toList_append, String.toList_append,
    List.append_assoc]
  rfl

theorem toList_joinWith (sep : String) (pieces : List String) :
    (joinWith sep pieces).toList = sep.toList.intercalate (pieces.map String.toList) := by
  induction pieces with
  | nil => rfl
  | cons piece pieces ih =>
    cases pieces with
    | nil => simp
    | cons next rest =>
      rw [joinWith_cons_cons, String.toList_append, String.toList_append, ih, List.append_assoc]
      rfl

theorem toList_joinLines (lines : List String) :
    (joinLines lines).toList = ['\n'].intercalate (lines.map String.toList) :=
  toList_joinWith "\n" lines

/-- The lines of joined texts are those of the texts. -/
theorem splitOn_joinLines {pieces : List String} (h : pieces ≠ []) :
    splitOn '\n' (joinLines pieces).toList = pieces.flatMap fun s => splitOn '\n' s.toList := by
  induction pieces with
  | nil => exact absurd rfl h
  | cons piece rest ih =>
    by_cases hrest : rest = []
    · rw [hrest]
      simp [joinLines]
    · rw [toList_joinLines_cons piece hrest, splitOn_append_cons, ih hrest, List.flatMap_cons]

/-- Lines that hold no line feed are read back off the text they are joined in. -/
theorem splitOn_joinLines_append {front : List String} (h : ∀ line ∈ front, '\n' ∉ line.toList)
    {rest : List String} (hrest : rest ≠ []) :
    splitOn '\n' (joinLines (front ++ rest)).toList =
      front.map String.toList ++ splitOn '\n' (joinLines rest).toList := by
  induction front with
  | nil => rfl
  | cons line front ih =>
    have h := List.forall_mem_cons.1 h
    rw [List.cons_append, toList_joinLines_cons line (by simp [hrest]), splitOn_append h.1,
      ih h.2, List.map_cons, List.cons_append]

/-- More lines make a longer text. -/
theorem length_joinLines_lt_append {front rest : List String} (hfront : front ≠ [])
    (hrest : rest ≠ []) :
    (joinLines front).toList.length < (joinLines (front ++ rest)).toList.length := by
  induction front with
  | nil => exact absurd rfl hfront
  | cons line front ih =>
    have hlonger : (joinLines (line :: (front ++ rest))).toList
        = line.toList ++ '\n' :: (joinLines (front ++ rest)).toList :=
      toList_joinLines_cons line (by simp [hrest])
    rw [List.cons_append, hlonger]
    by_cases hempty : front = []
    · rw [hempty]
      simp [joinLines]
    · rw [toList_joinLines_cons line hempty]
      simpa using ih hempty

end Text
end RefPages
