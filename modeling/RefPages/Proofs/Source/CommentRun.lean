import RefPages.Proofs.Source.Introduction
import RefPages.Proofs.Source.Narrative

/-!
# The comment that the narrative is taken from

The lines of a text fall into runs of comment lines with other lines between them. The narrative is
taken from the topmost run that sits on a declaration, and from no other, even if it gives nothing.

* `IsComment` is a comment line, and `RunOn` a run of them that goes on neither above nor below and
  sits on a declaration; `IsTopmost` is the first such run.
* `firstRun?` looks for it line by line, and `commentRun?_eq_firstRun?` says that the loop over the
  lines finds the same. `firstRun?_of_isTopmost`, `exists_isTopmost_of_firstRun?` and
  `not_runOn_of_firstRun?`: **it finds the topmost run**, or there is none.
-/

set_option autoImplicit false
namespace RefPages
namespace Source

open Text

/-! ## Runs of comment lines -/

/-- A comment line: three slashes, and nothing but blanks and tabs before them. -/
def IsComment (line : List Char) : Prop :=
  ∃ indent rest, AllIndent indent ∧ line = indent ++ ("///".toList ++ rest)

theorem isCommentLine_iff {line : List Char} : isCommentLine line = true ↔ IsComment line := by
  rw [isCommentLine, List.isPrefixOf_iff_prefix]
  constructor
  · rintro ⟨rest, hrest⟩
    obtain ⟨indent, hindent, hline⟩ := exists_indent_append_dropWhile line
    exact ⟨indent, rest, hindent, hrest ▸ hline⟩
  · rintro ⟨indent, rest, hindent, rfl⟩
    rw [dropWhile_isIndent_append hindent (by rintro c ⟨⟩; decide)]
    exact List.prefix_append _ _

/-- A run of comment lines that goes on neither above nor below, and sits on a declaration: the line
below it starts with one, after blanks, tabs and attributes. -/
structure RunOn (lines front block after : List (List Char)) : Prop where
  split : lines = front ++ (block ++ after)
  ne_nil : block ≠ []
  comment : ∀ line ∈ block, IsComment line
  top : ∀ line, front.getLast? = some line → ¬ IsComment line
  bottom : ∀ line, after.head? = some line → ¬ IsComment line
  below : ∃ indent rest, AllIndent indent ∧ Introduces rest ∧ unlines after = indent ++ rest

/-- The first run that sits on a declaration. -/
def IsTopmost (lines front block after : List (List Char)) : Prop :=
  RunOn lines front block after
    ∧ ∀ front' block' after', RunOn lines front' block' after' → front.length ≤ front'.length

/-- Is there a declaration below the comment lines in front? -/
def sitsAbove (lines : List (List Char)) : Bool :=
  declares ((unlines (lines.dropWhile isCommentLine)).dropWhile isIndent)

theorem sitsAbove_iff {lines : List (List Char)} :
    sitsAbove lines = true ↔ ∃ indent rest, AllIndent indent ∧ Introduces rest
      ∧ unlines (lines.dropWhile isCommentLine) = indent ++ rest :=
  declares_dropWhile_iff

/-- The comment lines in front are what a run without lines above it consists of. -/
theorem RunOn.eq_of_nil {lines block after : List (List Char)} (h : RunOn lines [] block after) :
    block = lines.takeWhile isCommentLine ∧ after = lines.dropWhile isCommentLine := by
  have hblock : ∀ line ∈ block, isCommentLine line = true := fun line hline =>
    isCommentLine_iff.2 (h.comment line hline)
  have hafter : after.takeWhile isCommentLine = [] ∧ after.dropWhile isCommentLine = after := by
    cases hlines : after with
    | nil => exact ⟨rfl, rfl⟩
    | cons line rest =>
      have hline : ¬ isCommentLine line = true := fun hcomment =>
        h.bottom line (by rw [hlines]; rfl) (isCommentLine_iff.1 hcomment)
      exact ⟨List.takeWhile_cons_of_neg hline, List.dropWhile_cons_of_neg hline⟩
  rw [h.split, List.nil_append, List.takeWhile_append_of_pos hblock,
    List.dropWhile_append_of_pos hblock, hafter.1, hafter.2, List.append_nil]
  exact ⟨rfl, rfl⟩

/-- The lines above a run determine it. -/
theorem RunOn.eq_takeWhile {lines front block after : List (List Char)}
    (h : RunOn lines front block after) :
    block = (lines.drop front.length).takeWhile isCommentLine := by
  have hlines : lines.drop front.length = block ++ after := by
    rw [h.split, List.drop_left]
  rw [hlines]
  exact (RunOn.eq_of_nil ⟨rfl, h.ne_nil, h.comment, by simp, h.bottom, h.below⟩).1

/-- A run starts with the first line, or it is a run of the other lines that the first line does not
continue. -/
theorem runOn_cons {line : List Char} {rest front block after : List (List Char)} :
    RunOn (line :: rest) front block after ↔
      (front = [] ∧ block = (line :: rest).takeWhile isCommentLine
        ∧ after = (line :: rest).dropWhile isCommentLine ∧ isCommentLine line = true
        ∧ sitsAbove (line :: rest) = true)
      ∨ ∃ front', front = line :: front' ∧ RunOn rest front' block after
        ∧ (front' = [] → ¬ IsComment line) := by
  constructor
  · intro h
    cases front with
    | nil =>
      obtain ⟨hblock, hafter⟩ := h.eq_of_nil
      refine .inl ⟨rfl, hblock, hafter, ?_, sitsAbove_iff.2 (hafter ▸ h.below)⟩
      obtain ⟨first, more, rfl⟩ := List.exists_cons_of_ne_nil h.ne_nil
      have hline := h.split
      rw [List.nil_append, List.cons_append, List.cons.injEq] at hline
      rw [hline.1]
      exact isCommentLine_iff.2 (h.comment first List.mem_cons_self)
    | cons first front =>
      have hline := h.split
      rw [List.cons_append, List.cons.injEq] at hline
      obtain ⟨rfl, hrest⟩ := hline
      refine .inr ⟨front, rfl,
        ⟨hrest, h.ne_nil, h.comment, fun last hlast => ?_, h.bottom, h.below⟩,
        fun hnil => h.top _ (by rw [hnil]; rfl)⟩
      refine h.top last ?_
      rw [List.getLast?_cons_of_ne_nil (by rintro rfl; simp at hlast)]
      exact hlast
  · rintro (⟨rfl, rfl, rfl, hline, hbelow⟩ | ⟨front, rfl, h, hline⟩)
    · refine ⟨List.takeWhile_append_dropWhile.symm, ?_, fun line hmem => ?_, by simp, ?_,
        sitsAbove_iff.1 hbelow⟩
      · rw [List.takeWhile_cons_of_pos hline]
        simp
      · exact isCommentLine_iff.1 (List.all_eq_true.1 List.all_takeWhile line hmem)
      · intro next hnext hcomment
        have hstop := List.head?_dropWhile_not isCommentLine (line :: rest)
        rw [hnext] at hstop
        exact absurd (isCommentLine_iff.2 hcomment) (by simpa using hstop)
    · refine ⟨by rw [h.split, List.cons_append], h.ne_nil, h.comment, fun last hlast => ?_,
        h.bottom, h.below⟩
      by_cases hnil : front = []
      · subst hnil
        cases hlast
        exact hline rfl
      · rw [List.getLast?_cons_of_ne_nil hnil] at hlast
        exact h.top last hlast

/-! ## Looking for the topmost run -/

/-- The comment lines in front, if they sit on a declaration; else those further down. -/
def firstRun? : List (List Char) → Option (List (List Char))
  | [] => none
  | line :: rest =>
    if isCommentLine line = true ∧ sitsAbove (line :: rest) = true then
      some ((line :: rest).takeWhile isCommentLine)
    else firstRun? rest

/-- Among the comment lines of a run, what is below does not change. -/
theorem sitsAbove_cons {line : List Char} (h : isCommentLine line = true)
    (rest : List (List Char)) : sitsAbove (line :: rest) = sitsAbove rest := by
  rw [sitsAbove, List.dropWhile_cons_of_pos h, ← sitsAbove]

/-- The loop carries the comment lines that it has just passed: they are part of what it finds next.
-/
theorem commentRun?_eq_ite (run lines : List (List Char)) :
    commentRun? run lines =
      if !run.isEmpty && sitsAbove lines then some (run.reverse ++ lines.takeWhile isCommentLine)
      else firstRun? lines := by
  induction lines generalizing run with
  | nil =>
    have hnone : ¬ sitsAbove [] = true := by
      intro h
      obtain ⟨indent, rest, -, hrest, hnil⟩ := sitsAbove_iff.1 h
      exact hrest.ne_nil (List.append_eq_nil_iff.1 hnil.symm).2
    rw [Bool.eq_false_iff.2 hnone, Bool.and_false]
    rfl
  | cons line rest ih =>
    rw [commentRun?, firstRun?]
    by_cases hline : isCommentLine line = true
    · rw [if_pos hline, ih, sitsAbove_cons hline, List.takeWhile_cons_of_pos hline, hline]
      by_cases hbelow : sitsAbove rest = true
      · cases run <;> simp [hbelow]
      · simp [hbelow]
    · have hsits : declares ((unlines (line :: rest)).dropWhile isIndent)
          = sitsAbove (line :: rest) := by
        rw [sitsAbove, List.dropWhile_cons_of_neg hline]
      rw [if_neg hline, hsits, ih, List.takeWhile_cons_of_neg hline, Bool.eq_false_iff.2 hline]
      simp

theorem commentRun?_eq_firstRun? (lines : List (List Char)) :
    commentRun? [] lines = firstRun? lines := by
  rw [commentRun?_eq_ite]
  rfl

/-- Without a first run there is no run at all. -/
theorem not_runOn_of_firstRun? {lines front block after : List (List Char)}
    (h : firstRun? lines = none) : ¬ RunOn lines front block after := by
  induction lines generalizing front with
  | nil =>
    intro hrun
    have hsplit := hrun.split
    simp only [List.nil_eq, List.append_eq_nil_iff] at hsplit
    exact hrun.ne_nil hsplit.2.1
  | cons line rest ih =>
    rw [firstRun?] at h
    split at h
    · exact absurd h (by simp)
    · rename_i hnot
      intro hrun
      rcases runOn_cons.1 hrun with ⟨-, -, -, hline, hbelow⟩ | ⟨front', rfl, hrest, -⟩
      · exact hnot ⟨hline, hbelow⟩
      · exact ih h hrest

/-- What is found is a topmost run. -/
theorem exists_isTopmost_of_firstRun? {lines block : List (List Char)}
    (h : firstRun? lines = some block) : ∃ front after, IsTopmost lines front block after := by
  induction lines with
  | nil => exact absurd h (by simp [firstRun?])
  | cons line rest ih =>
    rw [firstRun?] at h
    split at h
    · rename_i hfirst
      cases h
      exact ⟨[], _, runOn_cons.2 (.inl ⟨rfl, rfl, rfl, hfirst⟩), fun _ _ _ _ => Nat.zero_le _⟩
    · rename_i hnot
      obtain ⟨front, after, hrun, hleast⟩ := ih h
      have hline : front = [] → ¬ IsComment line := by
        rintro rfl hcomment
        -- The line would be a part of the run, and the run be found with it.
        obtain ⟨-, hafter⟩ := hrun.eq_of_nil
        have hcomment := isCommentLine_iff.2 hcomment
        refine hnot ⟨hcomment, ?_⟩
        rw [sitsAbove_cons hcomment]
        exact sitsAbove_iff.2 (hafter ▸ hrun.below)
      refine ⟨line :: front, after, runOn_cons.2 (.inr ⟨front, rfl, hrun, hline⟩),
        fun front' block' after' hrun' => ?_⟩
      rcases runOn_cons.1 hrun' with ⟨-, -, -, hfirst⟩ | ⟨front', rfl, hrest, -⟩
      · exact absurd hfirst hnot
      · exact Nat.succ_le_succ (hleast front' block' after' hrest)

/-- The topmost run is what is found. -/
theorem firstRun?_of_isTopmost {lines front block after : List (List Char)}
    (h : IsTopmost lines front block after) : firstRun? lines = some block := by
  cases hfound : firstRun? lines with
  | none => exact absurd h.1 (not_runOn_of_firstRun? hfound)
  | some block' =>
    obtain ⟨front', after', hrun', hleast'⟩ := exists_isTopmost_of_firstRun? hfound
    have hlength : front.length = front'.length :=
      Nat.le_antisymm (h.2 _ _ _ hrun') (hleast' _ _ _ h.1)
    rw [h.1.eq_takeWhile, hrun'.eq_takeWhile, hlength]

/-- Without a run on a declaration there is no narrative. -/
theorem facts_narrative_of_not_runOn {file : SourceFile}
    (h : ∀ front block after, ¬ RunOn (splitOn '\n' file.text.toList) front block after) :
    Extractor.narrative.facts file = [] := by
  rw [Extractor.facts, narrative?, commentRun?_eq_firstRun?]
  cases hfound : firstRun? (splitOn '\n' file.text.toList) with
  | none => rfl
  | some block =>
    obtain ⟨front, after, hrun, -⟩ := exists_isTopmost_of_firstRun? hfound
    exact absurd hrun (h front block after)

end Source
end RefPages
