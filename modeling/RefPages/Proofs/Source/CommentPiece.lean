import Mathlib.Data.List.Forall2
import RefPages.Proofs.Source.CommentRun
import RefPages.Proofs.Text.Reline

/-!
# What a comment tells

A run of comment lines is cut into lines wherever a line can end, which is at more characters than
the line feeds that the run was found by. Every line tells what is left of it without the white
space around it and one mark of a comment, and the narrative is made of what is not empty.

* `LineCut` is a text with its lines, and `lineCut_iff` says that they are those of `splitLines`.
* `Trims` is a text without the white space around it, and `trims_iff` says that `trim` gives it.
* `Tells` is what a line of a comment tells, and `Pieces` all that a comment does; `pieces_iff` says
  that there is one answer.
* `facts_narrative_of_isTopmost`: the narrative is made of the pieces of the topmost run.
* `intercalate_pieces`: it is one line without white space around it.
-/

set_option autoImplicit false
namespace RefPages
namespace Source

open Text

/-! ## Lines -/

/-- The characters that end a line, where `rest` follows: a carriage return and a line feed, or one
of the characters by itself. -/
inductive EndsLine (rest : List Char) : List Char → Prop where
  | pair : EndsLine rest ['\r', '\n']
  | single {c : Char} (hc : isLineBoundary c = true) (hpair : c = '\r' → rest.head? ≠ some '\n') :
    EndsLine rest [c]

/-- A text with its lines. What follows the last end of a line is a line if it is not empty. -/
inductive LineCut : List Char → List (List Char) → Prop where
  | nil : LineCut [] []
  | last {line : List Char} (hne : line ≠ []) (hline : ∀ c ∈ line, isLineBoundary c = false) :
    LineCut line [line]
  | cons {line stop rest : List Char} {lines : List (List Char)}
    (hline : ∀ c ∈ line, isLineBoundary c = false) (hstop : EndsLine rest stop)
    (h : LineCut rest lines) : LineCut (line ++ (stop ++ rest)) (line :: lines)

theorem ne_return_of_not {c : Char} (hc : isLineBoundary c = false) : c ≠ '\r' := by
  rintro rfl
  exact absurd hc (by decide)

theorem splitLines_append_stop {line stop rest : List Char}
    (hline : ∀ c ∈ line, isLineBoundary c = false) (hstop : EndsLine rest stop) :
    splitLines (line ++ (stop ++ rest)) = line :: splitLines rest := by
  induction line with
  | nil =>
    cases hstop with
    | pair => rfl
    | @single c hc hpair =>
      rw [List.nil_append, List.singleton_append, splitLines.eq_3 c rest, if_pos hc]
      rintro more rfl rfl
      exact hpair rfl rfl
  | cons c line ih =>
    obtain ⟨hc, hline⟩ := List.forall_mem_cons.1 hline
    rw [List.cons_append, splitLines_cons (ne_return_of_not hc), if_neg (Bool.eq_false_iff.1 hc),
      ih hline]

theorem splitLines_of_not {line : List Char} (hne : line ≠ [])
    (hline : ∀ c ∈ line, isLineBoundary c = false) : splitLines line = [line] := by
  induction line with
  | nil => exact absurd rfl hne
  | cons c line ih =>
    obtain ⟨hc, hline⟩ := List.forall_mem_cons.1 hline
    rw [splitLines_cons (ne_return_of_not hc), if_neg (Bool.eq_false_iff.1 hc)]
    cases line with
    | nil => rfl
    | cons d line => rw [ih (by simp) hline]

theorem LineCut.eq_nil {cs : List Char} (h : LineCut cs []) : cs = [] := by
  cases h
  rfl

/-- A character that ends no line belongs to the line it stands in front of. -/
theorem LineCut.cons_char {c : Char} (hc : isLineBoundary c = false) {cs line : List Char}
    {lines : List (List Char)} (h : LineCut cs (line :: lines)) :
    LineCut (c :: cs) ((c :: line) :: lines) := by
  cases h with
  | last _ hline => exact .last (by simp) (List.forall_mem_cons.2 ⟨hc, hline⟩)
  | cons hline hstop h => exact .cons (List.forall_mem_cons.2 ⟨hc, hline⟩) hstop h

theorem lineCut_splitLines (cs : List Char) : LineCut cs (splitLines cs) := by
  have hempty : ∀ c ∈ ([] : List Char), isLineBoundary c = false := by simp
  fun_induction splitLines cs with
  | case1 => exact .nil
  | case2 rest ih => exact .cons hempty .pair ih
  | case3 c rest hpair hc ih =>
    refine .cons hempty (.single hc fun hreturn hfeed => ?_) ih
    obtain ⟨more, rfl⟩ := List.head?_eq_some_iff.1 hfeed
    exact hpair more hreturn rfl
  | case4 c rest hpair hc hlines ih =>
    rw [hlines] at ih
    rw [ih.eq_nil]
    exact .last (by simp) (by simpa using hc)
  | case5 c rest hpair hc line lines hlines ih =>
    rw [hlines] at ih
    exact ih.cons_char (Bool.eq_false_iff.2 hc)

/-- **The lines of a text are those that cutting it gives.** -/
theorem lineCut_iff {cs : List Char} {lines : List (List Char)} :
    LineCut cs lines ↔ lines = splitLines cs := by
  constructor
  · intro h
    induction h with
    | nil => rfl
    | last hne hline => rw [splitLines_of_not hne hline]
    | cons hline hstop _ ih => rw [splitLines_append_stop hline hstop, ih]
  · rintro rfl
    exact lineCut_splitLines cs

/-- No line holds a character that ends one. -/
theorem LineCut.not_isLineBoundary {cs line : List Char} {lines : List (List Char)}
    (h : LineCut cs lines) (hline : line ∈ lines) : ∀ c ∈ line, isLineBoundary c = false := by
  induction h with
  | nil => exact absurd hline (by simp)
  | last _ hlast =>
    rw [List.mem_singleton.1 hline]
    exact hlast
  | cons hfirst _ _ ih =>
    rcases List.mem_cons.1 hline with rfl | hline
    · exact hfirst
    · exact ih hline

/-! ## Trimmed texts -/

/-- Does the text neither start nor end with white space? -/
def NoBlankEnds (cs : List Char) : Prop :=
  ∀ c, cs.head? = some c ∨ cs.getLast? = some c → isBlank c = false

theorem noBlankEnds_trim (cs : List Char) : NoBlankEnds (trim cs) := by
  have hstop : ∀ (xs : List Char) c, (xs.dropWhile isBlank).head? = some c → isBlank c = false := by
    intro xs c hc
    have hstop := List.head?_dropWhile_not isBlank xs
    rw [hc] at hstop
    simpa using hstop
  rintro c (hfirst | hlast)
  · -- What is taken off the end does not change the start.
    have hfront : trim cs <+: cs.dropWhile isBlank := by
      have hback := List.dropWhile_suffix isBlank (l := (cs.dropWhile isBlank).reverse)
      simpa [trim, trimEnd] using List.reverse_prefix.2 hback
    obtain ⟨rest, hrest⟩ := hfront
    refine hstop cs c ?_
    rw [← hrest, List.head?_append, hfirst]
    rfl
  · rw [trim, trimEnd, List.getLast?_reverse] at hlast
    exact hstop _ c hlast

/-- `inner` is all of the text but the white space around it. -/
def Trims (cs inner : List Char) : Prop :=
  NoBlankEnds inner ∧ ∃ front back, AllBlank front ∧ AllBlank back ∧ cs = front ++ (inner ++ back)

theorem trims_trim (cs : List Char) : Trims cs (trim cs) := by
  obtain ⟨front, hfront, hcs⟩ := exists_blanks_append_skipBlanks cs
  obtain ⟨back, hback, hrest⟩ := exists_blanks_append_skipBlanks (skipBlanks cs).reverse
  refine ⟨noBlankEnds_trim cs, front, back.reverse, hfront,
    fun c hc => hback c (List.mem_reverse.1 hc), ?_⟩
  have htrim : trim cs ++ back.reverse = skipBlanks cs := by
    rw [← List.reverse_reverse (skipBlanks cs), hrest, List.reverse_append]
    rfl
  rw [htrim]
  exact hcs

/-- **A text can be trimmed in one way.** -/
theorem trims_iff {cs inner : List Char} : Trims cs inner ↔ inner = trim cs := by
  refine ⟨?_, fun h => h ▸ trims_trim cs⟩
  rintro ⟨hends, front, back, hfront, hback, rfl⟩
  cases inner with
  | nil =>
    refine (trim_eq_nil_iff.2 fun c hc => ?_).symm
    exact (List.mem_append.1 hc).elim (hfront c) (hback c)
  | cons c inner =>
    have hhead : isBlank c = false := hends c (.inl rfl)
    have hback : ∀ x ∈ back.reverse, isBlank x = true := fun x hx =>
      hback x (List.mem_reverse.1 hx)
    have hlast : (c :: inner).reverse.dropWhile isBlank = (c :: inner).reverse := by
      cases hreverse : (c :: inner).reverse with
      | nil => rfl
      | cons last rest =>
        have hends := hends last (.inr (by rw [← List.head?_reverse, hreverse]; rfl))
        rw [List.dropWhile_cons_of_neg (by simp [hends])]
    rw [trim, List.dropWhile_append_of_pos hfront, List.cons_append,
      List.dropWhile_cons_of_neg (by simp [hhead]), ← List.cons_append, trimEnd,
      List.reverse_append, List.dropWhile_append_of_pos hback, hlast, List.reverse_reverse]

theorem trim_trim (cs : List Char) : trim (trim cs) = trim cs :=
  (trims_iff.1 ⟨noBlankEnds_trim cs, [], [], by simp [AllBlank], by simp [AllBlank],
    by simp⟩).symm

/-! ## Pieces -/

/-- What a line of a comment tells: what is left of it without the white space around it, one mark
of a comment in front, and the white space around the rest. -/
inductive Tells (line piece : List Char) : Prop where
  | marked {inner : List Char} (hline : Trims line ("///".toList ++ inner))
    (h : Trims inner piece) : Tells line piece
  | unmarked (hline : Trims line piece) (h : ¬ "///".toList <+: piece) : Tells line piece

theorem tells_iff {line piece : List Char} : Tells line piece ↔ piece = commentText line := by
  have hpiece : commentText line
      = trim (if "///".toList <+: trim line then (trim line).drop 3 else trim line) := by
    rw [commentText]
    simp only [List.isPrefixOf_iff_prefix]
  rw [hpiece]
  constructor
  · rintro (⟨hline, h⟩ | ⟨hline, h⟩)
    · rw [← trims_iff.1 hline, if_pos (List.prefix_append _ _)]
      exact trims_iff.1 h
    · rw [← trims_iff.1 hline, if_neg h, trims_iff.1 hline, trim_trim]
  · rintro rfl
    split
    · rename_i hmark
      obtain ⟨inner, hinner⟩ := hmark
      rw [← hinner]
      exact .marked (trims_iff.2 hinner) (trims_trim inner)
    · rename_i hmark
      rw [trim_trim]
      exact .unmarked (trims_trim line) hmark

theorem Tells.of_mem {line piece : List Char} (h : Tells line piece) {c : Char} (hc : c ∈ piece) :
    c ∈ line := by
  have of_trims : ∀ {cs inner : List Char}, Trims cs inner → c ∈ inner → c ∈ cs := by
    rintro cs inner ⟨-, front, back, -, -, rfl⟩ hc
    exact List.mem_append_right _ (List.mem_append_left _ hc)
  cases h with
  | marked hline h => exact of_trims hline (List.mem_append_right _ (of_trims h hc))
  | unmarked hline => exact of_trims hline hc

theorem Tells.noBlankEnds {line piece : List Char} (h : Tells line piece) : NoBlankEnds piece := by
  cases h with
  | marked _ h => exact h.1
  | unmarked hline => exact hline.1

/-- What the lines of a comment tell, as far as they tell anything. -/
def Pieces (text : List Char) (pieces : List (List Char)) : Prop :=
  ∃ lines told, LineCut text lines ∧ List.Forall₂ Tells lines told ∧ pieces = told.filter (· ≠ [])

/-- What the code makes of the lines of a comment. -/
def commentPieces (text : List Char) : List (List Char) :=
  ((splitLines text).map commentText).filter (!·.isEmpty)

theorem forall₂_tells_iff {lines told : List (List Char)} :
    List.Forall₂ Tells lines told ↔ told = lines.map commentText := by
  induction lines generalizing told with
  | nil => simp [List.forall₂_nil_left_iff]
  | cons line lines ih =>
    simp [List.forall₂_cons_left_iff, tells_iff, ih]

/-- **The pieces of a comment are determined by its text.** -/
theorem pieces_iff {text : List Char} {pieces : List (List Char)} :
    Pieces text pieces ↔ pieces = commentPieces text := by
  have hfilter : ∀ told : List (List Char), told.filter (· ≠ []) = told.filter (!·.isEmpty) :=
    fun told => List.filter_congr fun piece _ => by cases piece <;> rfl
  rw [commentPieces, ← hfilter]
  constructor
  · rintro ⟨lines, told, hcut, htold, rfl⟩
    rw [forall₂_tells_iff.1 htold, lineCut_iff.1 hcut]
  · rintro rfl
    exact ⟨_, _, lineCut_splitLines text, forall₂_tells_iff.2 rfl, rfl⟩

theorem Pieces.of_mem {text piece : List Char} {pieces : List (List Char)} (h : Pieces text pieces)
    (hpiece : piece ∈ pieces) :
    piece ≠ [] ∧ NoBlankEnds piece ∧ ∀ c ∈ piece, isLineBoundary c = false := by
  rw [pieces_iff.1 h, commentPieces, List.mem_filter, List.mem_map] at hpiece
  obtain ⟨⟨line, hline, hline'⟩, hne⟩ := hpiece
  have htells : Tells line piece := tells_iff.2 hline'.symm
  exact ⟨by simpa using hne, htells.noBlankEnds,
    fun c hc => (lineCut_splitLines text).not_isLineBoundary hline c (htells.of_mem hc)⟩

/-- Pieces with blanks between them are one line without white space around it if the pieces are. -/
theorem intercalate_pieces {pieces : List (List Char)} (h : ∀ piece ∈ pieces,
    piece ≠ [] ∧ NoBlankEnds piece ∧ ∀ c ∈ piece, isLineBoundary c = false) :
    NoBlankEnds ([' '].intercalate pieces)
      ∧ ∀ c ∈ [' '].intercalate pieces, isLineBoundary c = false := by
  induction pieces with
  | nil => simp [NoBlankEnds]
  | cons piece rest ih =>
    obtain ⟨⟨hne, hends, hline⟩, hrest⟩ := List.forall_mem_cons.1 h
    cases rest with
    | nil => simpa using ⟨hends, hline⟩
    | cons next rest =>
      obtain ⟨hends', hline'⟩ := ih hrest
      have hnonempty : [' '].intercalate (next :: rest) ≠ [] := by
        obtain ⟨c, next, rfl⟩ := List.exists_cons_of_ne_nil (hrest next List.mem_cons_self).1
        cases rest <;> simp
      have htext : [' '].intercalate (piece :: next :: rest)
          = piece ++ (' ' :: [' '].intercalate (next :: rest)) := rfl
      rw [htext]
      constructor
      · rintro c (hfirst | hlast)
        · obtain ⟨d, tail, rfl⟩ := List.exists_cons_of_ne_nil hne
          exact hends c (.inl hfirst)
        · rw [List.getLast?_append, List.getLast?_cons_of_ne_nil hnonempty,
            List.getLast?_eq_some_getLast hnonempty] at hlast
          cases hlast
          exact hends' _ (.inr (List.getLast?_eq_some_getLast hnonempty))
      · intro c hc
        rcases List.mem_append.1 hc with hc | hc
        · exact hline c hc
        · rcases List.mem_cons.1 hc with rfl | hc
          · decide
          · exact hline' c hc

/-- **The narrative is made of the pieces of the topmost run**, if there are any. -/
theorem facts_narrative_of_isTopmost {file : SourceFile} {front block after : List (List Char)}
    (h : IsTopmost (splitOn '\n' file.text.toList) front block after) :
    ∃ pieces, (∀ found, Pieces (unlines block) found ↔ found = pieces)
      ∧ Extractor.narrative.facts file =
        if pieces = [] then []
        else [.narrative (.text (String.ofList ([' '].intercalate pieces)))] := by
  refine ⟨commentPieces (unlines block), fun found => pieces_iff, ?_⟩
  have hjoin : ∀ pieces : List (List Char),
      joinWith " " (pieces.map String.ofList) = String.ofList ([' '].intercalate pieces) := by
    intro pieces
    rw [← String.toList_inj, toList_joinWith, String.toList_ofList, List.map_map]
    simp [Function.comp_def]
  rw [Extractor.facts, narrative?, commentRun?_eq_firstRun?, firstRun?_of_isTopmost h,
    commentPieces, ← hjoin]
  simp only [Option.bind_eq_bind, Option.bind_some]
  split
  · rename_i hnil
    rw [if_pos hnil]
    rfl
  · rename_i hne
    rw [if_neg hne]
    rfl

end Source
end RefPages
