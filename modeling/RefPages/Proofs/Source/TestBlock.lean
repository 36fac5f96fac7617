import RefPages.Extractor
import RefPages.Proofs.Source.Body

/-!
# Blocks of tests in a text

* `IsHeader` says how the header of a block is written, with any number of attributes in front of
  the keyword, and `header?_eq_some_iff` that `header?` reads exactly such headers. A word need not
  be read to its end: the keyword may follow the word of an attribute directly.
* `HeaderAt`, `FirstHeader` and `IsNext` place headers and blocks at positions of a text.
* `Placed` says that blocks are all there are from a position on, one after the other, up to a
  header whose block is not closed.
* `labelledTests_placed`: **the blocks that are found are the ones that are placed in the text.**
-/

set_option autoImplicit false
namespace RefPages
namespace Source

open Text

/-! ## Headers -/

/-- Is all of it white space? -/
def AllBlank (gap : List Char) : Prop :=
  ∀ c ∈ gap, isBlank c = true

/-- An attribute, and white space after it. -/
def IsAttribute (mark : List Char) : Prop :=
  ∃ word gap, mark = '@' :: (word ++ gap) ∧ word ≠ [] ∧ (∀ c ∈ word, isWordChar c = true)
    ∧ AllBlank gap

/-- Any number of attributes, the keyword and the opening brace. -/
def IsOpening (opening : List Char) : Prop :=
  ∃ (marks : List (List Char)) (gap : List Char),
    opening = marks.flatten ++ ("unittest".toList ++ (gap ++ ['\x7b']))
    ∧ (∀ mark ∈ marks, IsAttribute mark) ∧ AllBlank gap

/-- The header of a block, from its label to its opening brace. -/
def IsHeader (label header : List Char) : Prop :=
  label ≠ [] ∧ '"' ∉ label ∧ ∃ gap opening, AllBlank gap ∧ IsOpening opening
    ∧ header = "@(\"".toList ++ (label ++ ("\")".toList ++ (gap ++ opening)))

theorem skipBlanks_append_brace {gap : List Char} (hgap : AllBlank gap) (rest : List Char) :
    skip? "\x7b" (skipBlanks (gap ++ '\x7b' :: rest)) = some rest := by
  have hbrace : ∀ c, ('\x7b' :: rest).head? = some c → isBlank c = false := by
    rintro c ⟨⟩
    decide
  rw [skipBlanks_append hgap hbrace, skip?_eq_some_iff]
  rfl

theorem opening?_keyword {gap : List Char} (hgap : AllBlank gap) (rest : List Char) :
    opening? ("unittest".toList ++ (gap ++ '\x7b' :: rest)) = some rest := by
  have hskip : skip? "unittest" ("unittest".toList ++ (gap ++ '\x7b' :: rest))
      = some (gap ++ '\x7b' :: rest) := skip?_eq_some_iff.2 rfl
  rw [opening?.eq_2 _ (by intro tail h; simp at h), hskip, Option.bind_some,
    skipBlanks_append_brace hgap]

theorem opening?_attribute {tail word after : List Char} (h : word? tail = some (word, after)) :
    opening? ('@' :: tail) =
      if "unittest".toList.isSuffixOf word && word.length > 8
          && (skip? "\x7b" (skipBlanks after)).isSome
      then skip? "\x7b" (skipBlanks after)
      else opening? (skipBlanks after) := by
  rw [opening?]
  split
  · rename_i hnone
    rw [h] at hnone
    exact absurd hnone (by simp)
  · rename_i word' after' hsome
    rw [h] at hsome
    cases hsome
    rfl

theorem isWordChar_unittest : ∀ c ∈ "unittest".toList, isWordChar c = true :=
  List.all_eq_true.1 (by decide)

theorem atWordEnd_blanks_append {gap rest : List Char} (hgap : AllBlank gap)
    (hrest : atWordEnd rest = true) : atWordEnd (gap ++ rest) = true := by
  cases gap with
  | nil => exact hrest
  | cons c gap => simp [atWordEnd, isWordChar_eq_false_of_isBlank (hgap c List.mem_cons_self)]

/-- The keyword may follow the word of an attribute directly. -/
theorem opening?_glued {word gap : List Char} (hne : word ≠ [])
    (hword : ∀ c ∈ word, isWordChar c = true) (hgap : AllBlank gap) (rest : List Char) :
    opening? ('@' :: (word ++ ("unittest".toList ++ (gap ++ '\x7b' :: rest)))) = some rest := by
  have hread : word? (word ++ ("unittest".toList ++ (gap ++ '\x7b' :: rest)))
      = some (word ++ "unittest".toList, gap ++ '\x7b' :: rest) := by
    refine word?_eq_some_iff.2 ⟨(List.append_assoc ..).symm, by simp, fun c hc => ?_,
      atWordEnd_blanks_append hgap (show (!isWordChar '\x7b') = true by decide)⟩
    rcases List.mem_append.1 hc with hc | hc
    · exact hword c hc
    · exact isWordChar_unittest c hc
  rw [opening?_attribute hread, skipBlanks_append_brace hgap, if_pos]
  simp [List.length_pos_iff.2 hne]

/-- An attribute is read to its end if something else than the keyword follows it directly. -/
theorem opening?_apart {word gap after : List Char} (hne : word ≠ [])
    (hword : ∀ c ∈ word, isWordChar c = true) (hgap : AllBlank gap)
    (hend : atWordEnd (gap ++ after) = true)
    (hafter : ∀ c, after.head? = some c → isBlank c = false ∧ c ≠ '\x7b') :
    opening? ('@' :: (word ++ (gap ++ after))) = opening? after := by
  have hread : word? (word ++ (gap ++ after)) = some (word, gap ++ after) :=
    word?_eq_some_iff.2 ⟨rfl, hne, hword, hend⟩
  have hskip : skip? "\x7b" after = none := by
    rw [Option.eq_none_iff_forall_ne_some]
    intro rest hrest
    rw [skip?_eq_some_iff.1 hrest] at hafter
    exact (hafter '\x7b' rfl).2 rfl
  rw [opening?_attribute hread, skipBlanks_append hgap fun c hc => (hafter c hc).1, if_neg]
  simp [hskip]

theorem head?_opening {marks : List (List Char)} (hmarks : ∀ mark ∈ marks, IsAttribute mark)
    (tail : List Char) {c : Char}
    (h : (marks.flatten ++ ("unittest".toList ++ tail)).head? = some c) : c = '@' ∨ c = 'u' := by
  cases marks with
  | nil =>
    cases h
    exact .inr rfl
  | cons mark marks =>
    obtain ⟨word, gap, rfl, -⟩ := hmarks mark List.mem_cons_self
    cases h
    exact .inl rfl

theorem opening?_append {opening : List Char} (h : IsOpening opening) (rest : List Char) :
    opening? (opening ++ rest) = some rest := by
  obtain ⟨marks, gap, rfl, hmarks, hgap⟩ := h
  have htail : marks.flatten ++ ("unittest".toList ++ (gap ++ ['\x7b'])) ++ rest
      = marks.flatten ++ ("unittest".toList ++ (gap ++ '\x7b' :: rest)) := by simp
  rw [htail]
  clear htail
  induction marks with
  | nil => exact opening?_keyword hgap rest
  | cons mark marks ih =>
    obtain ⟨⟨word, space, rfl, hne, hword, hspace⟩, hrest⟩ := List.forall_mem_cons.1 hmarks
    rw [List.flatten_cons, List.append_assoc, List.cons_append, List.append_assoc]
    by_cases hglued : space = [] ∧ marks = []
    · obtain ⟨rfl, rfl⟩ := hglued
      exact opening?_glued hne hword hgap rest
    · rw [opening?_apart hne hword hspace ?_ ?_, ih hrest]
      · -- White space or the next attribute ends the word.
        cases space with
        | cons c space =>
          simp [atWordEnd, isWordChar_eq_false_of_isBlank (hspace c List.mem_cons_self)]
        | nil =>
          obtain ⟨mark, marks, rfl⟩ := List.exists_cons_of_ne_nil fun hnil => hglued ⟨rfl, hnil⟩
          obtain ⟨word', space', rfl, -⟩ := hrest _ List.mem_cons_self
          show (!isWordChar '@') = true
          decide
      · intro c hc
        rcases head?_opening hrest _ hc with rfl | rfl <;> decide

theorem opening?_eq_some_iff {cs rest : List Char} :
    opening? cs = some rest ↔ ∃ opening, IsOpening opening ∧ cs = opening ++ rest := by
  constructor
  · intro h
    fun_induction opening? cs with
    | case1 => exact absurd h (by simp)
    | case2 tail word after hread hcond =>
      -- The word ends with the keyword, which leaves an attribute in front of it.
      obtain ⟨rfl, hne, hword, -⟩ := word?_eq_some_iff.1 hread
      rw [Bool.and_eq_true, Bool.and_eq_true, decide_eq_true_eq,
        List.isSuffixOf_iff_suffix] at hcond
      obtain ⟨⟨⟨front, rfl⟩, hlong⟩, -⟩ := hcond
      obtain ⟨gap, hgap, hafter⟩ := exists_blanks_append_skipBlanks after
      rw [skip?_eq_some_iff.1 h] at hafter
      subst hafter
      refine ⟨_, ⟨['@' :: (front ++ [])], gap, rfl, ?_, hgap⟩, by simp⟩
      rw [List.forall_mem_singleton]
      refine ⟨front, [], rfl, ?_, fun c hc => hword c (List.mem_append_left _ hc),
        by simp [AllBlank]⟩
      rintro rfl
      exact absurd hlong (by decide)
    | case3 tail word after hread hcond ih =>
      obtain ⟨rfl, hne, hword, -⟩ := word?_eq_some_iff.1 hread
      obtain ⟨gap, hgap, hafter⟩ := exists_blanks_append_skipBlanks after
      obtain ⟨opening, ⟨marks, gap', rfl, hmarks, hgap'⟩, hrest⟩ := ih h
      rw [hrest] at hafter
      subst hafter
      refine ⟨_, ⟨('@' :: (word ++ gap)) :: marks, gap', rfl, ?_, hgap'⟩, by simp⟩
      exact List.forall_mem_cons.2 ⟨⟨word, gap, rfl, hne, hword, hgap⟩, hmarks⟩
    | case4 cs hno =>
      obtain ⟨after, hkeyword, hbrace⟩ := Option.bind_eq_some_iff.1 h
      obtain ⟨gap, hgap, hafter⟩ := exists_blanks_append_skipBlanks after
      rw [skip?_eq_some_iff.1 hbrace] at hafter
      rw [skip?_eq_some_iff.1 hkeyword, hafter]
      exact ⟨_, ⟨[], gap, rfl, by simp, hgap⟩, by simp⟩
  · rintro ⟨opening, hopening, rfl⟩
    exact opening?_append hopening rest

/-- The label ends at the first quote. -/
theorem header?_append {label header : List Char} (h : IsHeader label header) (rest : List Char) :
    header? (header ++ rest) = some (label, rest) := by
  obtain ⟨hne, hlabel, gap, opening, hgap, hopening, rfl⟩ := h
  have hskip : skip? "@(\"" ("@(\"".toList ++ (label ++ ("\")".toList ++ (gap ++ opening))) ++ rest)
      = some (label ++ ("\")".toList ++ (gap ++ (opening ++ rest)))) :=
    skip?_eq_some_iff.2 (by simp)
  have hkeep : ∀ c ∈ label, (c != '"') = true :=
    fun c hc => bne_iff_ne.2 fun hquote => hlabel (hquote ▸ hc)
  have htake : (label ++ ("\")".toList ++ (gap ++ (opening ++ rest)))).takeWhile (· != '"')
      = label := by
    rw [List.takeWhile_append_of_pos hkeep]
    simp
  have hdrop : (label ++ ("\")".toList ++ (gap ++ (opening ++ rest)))).dropWhile (· != '"')
      = "\")".toList ++ (gap ++ (opening ++ rest)) := by
    rw [List.dropWhile_append_of_pos hkeep]
    rfl
  have hblanks : skipBlanks (gap ++ (opening ++ rest)) = opening ++ rest := by
    obtain ⟨marks, gap', rfl, hmarks, -⟩ := hopening
    refine skipBlanks_append hgap fun c hc => ?_
    rw [List.append_assoc, List.append_assoc] at hc
    rcases head?_opening hmarks _ hc with rfl | rfl <;> decide
  simp only [header?, hskip, Option.bind_eq_bind, Option.bind_some, htake, hdrop]
  rw [if_neg (by simpa using hne), skip?_eq_some_iff.2 rfl, Option.bind_some, hblanks,
    opening?_append hopening]
  rfl

theorem header?_eq_some_iff {cs label rest : List Char} :
    header? cs = some (label, rest) ↔ ∃ header, IsHeader label header ∧ cs = header ++ rest := by
  constructor
  · intro h
    simp only [header?, Option.bind_eq_bind, Option.bind_eq_some_iff] at h
    obtain ⟨inner, hinner, h⟩ := h
    split at h
    · exact absurd h (by simp)
    · rename_i hne
      simp only [Option.bind_eq_some_iff, Option.some.injEq, Prod.mk.injEq] at h
      obtain ⟨after, hafter, rest', hopening, rfl, rfl⟩ := h
      obtain ⟨opening, hopening, hrest⟩ := opening?_eq_some_iff.1 hopening
      obtain ⟨gap, hgap, hblanks⟩ := exists_blanks_append_skipBlanks after
      refine ⟨_, ⟨by simpa using hne, fun hmem => ?_, gap, opening, hgap, hopening, rfl⟩, ?_⟩
      · simpa using List.all_eq_true.1 List.all_takeWhile _ hmem
      · calc cs = "@(\"".toList ++ inner := skip?_eq_some_iff.1 hinner
          _ = "@(\"".toList ++ (inner.takeWhile (· != '"') ++ inner.dropWhile (· != '"')) := by
            rw [List.takeWhile_append_dropWhile]
          _ = _ := by
            rw [skip?_eq_some_iff.1 hafter, hblanks, hrest]
            simp
  · rintro ⟨header, hheader, rfl⟩
    exact header?_append hheader rest

/-! ## Blocks and where they stand -/

/-- A header with this label stands at position `start` and ends at position `stop`. -/
def HeaderAt (text : List Char) (start : Nat) (label : List Char) (stop : Nat) : Prop :=
  ∃ header, IsHeader label header ∧ header <+: text.drop start ∧ stop = start + header.length

/-- The first header from a position on. -/
def FirstHeader (text : List Char) (origin start : Nat) (label : List Char) (stop : Nat) : Prop :=
  origin ≤ start ∧ HeaderAt text start label stop
    ∧ ∀ earlier label stop, origin ≤ earlier → earlier < start → ¬ HeaderAt text earlier label stop

/-- A block of tests and where it stands in a text: its header starts at `start`, its body at
`inner`, and `stop` is the position after its closing brace. -/
structure PlacedBlock where
  start : Nat
  inner : Nat
  stop : Nat
  label : List Char
  body : List Char

/-- The block is the first one from a position on. -/
structure IsNext (text : List Char) (origin : Nat) (block : PlacedBlock) : Prop where
  header : FirstHeader text origin block.start block.label block.inner
  closed : blockBody text block.inner = (some block.body, block.stop)
  start_lt : block.start < block.inner
  inner_lt : block.inner < block.stop
  body_eq : block.body = (text.drop block.inner).take (block.stop - 1 - block.inner)
  brace : text[block.stop - 1]? = some '\x7d'

/-- From a position on the blocks follow one another, and after the last one there is no header, or
one whose block is not closed. -/
def Placed (text : List Char) : Nat → List PlacedBlock → Prop
  | origin, [] => (∀ start label stop, origin ≤ start → ¬ HeaderAt text start label stop)
      ∨ ∃ start label inner, FirstHeader text origin start label inner
        ∧ blockBody text inner = (none, text.length)
  | origin, block :: rest => IsNext text origin block ∧ Placed text block.stop rest

theorem headerAt_iff {text label : List Char} {start stop : Nat} :
    HeaderAt text start label stop ↔
      header? (text.drop start) = some (label, text.drop stop) ∧ start < stop
        ∧ stop ≤ text.length := by
  constructor
  · rintro ⟨header, hheader, ⟨rest, hrest⟩, rfl⟩
    have hafter : text.drop (start + header.length) = rest := by
      rw [← List.drop_drop, ← hrest, List.drop_left]
    have hread : header? (text.drop start) = some (label, rest) :=
      header?_eq_some_iff.2 ⟨header, hheader, hrest.symm⟩
    have hshort := length_of_header? hread
    have hlength := congrArg List.length hrest
    rw [List.length_append, List.length_drop] at hlength
    rw [List.length_drop] at hshort
    exact ⟨by rw [hafter, hread], by omega, by omega⟩
  · rintro ⟨hread, hlt, hle⟩
    obtain ⟨header, hheader, htext⟩ := header?_eq_some_iff.1 hread
    have hlength := congrArg List.length htext
    rw [List.length_append, List.length_drop, List.length_drop] at hlength
    exact ⟨header, hheader, ⟨_, htext.symm⟩, by omega⟩

/-- The end of a header is determined by what follows it. -/
theorem exists_stop_of_header? {text label inner : List Char} {start : Nat}
    (h : header? (text.drop start) = some (label, inner)) :
    ∃ stop, inner = text.drop stop ∧ HeaderAt text start label stop := by
  obtain ⟨header, hheader, htext⟩ := header?_eq_some_iff.1 h
  refine ⟨start + header.length, ?_, header, hheader, ⟨inner, htext.symm⟩, rfl⟩
  rw [← List.drop_drop, htext, List.drop_left]

theorem firstHeader_of_findFirst {text label inner : List Char} {origin : Nat}
    (h : findFirst header? (text.drop origin) = some (label, inner)) :
    ∃ start stop, inner = text.drop stop ∧ FirstHeader text origin start label stop := by
  obtain ⟨i, hread, hbefore⟩ := exists_drop_of_findFirst h
  rw [List.drop_drop] at hread
  obtain ⟨stop, rfl, hheader⟩ := exists_stop_of_header? hread
  refine ⟨origin + i, stop, rfl, by omega, hheader, fun earlier label' stop' hle hlt hearlier => ?_⟩
  have hnone := hbefore (earlier - origin) (by omega)
  rw [List.drop_drop, show origin + (earlier - origin) = earlier by omega,
    (headerAt_iff.1 hearlier).1] at hnone
  exact absurd hnone (by simp)

theorem not_headerAt_of_findFirst {text : List Char} {origin : Nat}
    (h : findFirst header? (text.drop origin) = none) :
    ∀ start label stop, origin ≤ start → ¬ HeaderAt text start label stop := by
  intro start label stop hle hheader
  have hsuffix : text.drop start <:+ text.drop origin := by
    rw [show start = origin + (start - origin) by omega, ← List.drop_drop]
    exact List.drop_suffix _ _
  have hnone := findFirst_eq_none_iff.1 h _ hsuffix
  rw [(headerAt_iff.1 hheader).1] at hnone
  exact absurd hnone (by simp)

theorem FirstHeader.unique {text label label' : List Char} {origin start start' stop stop' : Nat}
    (h : FirstHeader text origin start label stop)
    (h' : FirstHeader text origin start' label' stop') :
    start = start' ∧ label = label' ∧ stop = stop' := by
  obtain ⟨hle, hheader, hfirst⟩ := h
  obtain ⟨hle', hheader', hfirst'⟩ := h'
  obtain rfl : start = start' := by
    rcases Nat.lt_trichotomy start start' with hlt | heq | hlt
    · exact absurd hheader (hfirst' _ _ _ hle hlt)
    · exact heq
    · exact absurd hheader' (hfirst _ _ _ hle' hlt)
  obtain ⟨hread, -, hbound⟩ := headerAt_iff.1 hheader
  obtain ⟨hread', -, hbound'⟩ := headerAt_iff.1 hheader'
  rw [hread, Option.some.injEq, Prod.mk.injEq] at hread'
  have hlength := congrArg List.length hread'.2
  rw [List.length_drop, List.length_drop] at hlength
  exact ⟨rfl, hread'.1, by omega⟩

/-- A block is placed by its header and by the brace that closes it. -/
theorem isNext_of_blockBody {text : List Char} {origin : Nat} {block : PlacedBlock}
    (hheader : FirstHeader text origin block.start block.label block.inner)
    (hclosed : blockBody text block.inner = (some block.body, block.stop)) :
    IsNext text origin block := by
  obtain ⟨-, ⟨rest, hrest⟩, hstop⟩ := blockBody_eq_some_iff.1 hclosed
  rw [List.append_assoc, List.singleton_append] at hrest
  refine ⟨hheader, hclosed, (headerAt_iff.1 hheader.2.1).2.1, by omega, ?_, ?_⟩
  · rw [hstop, ← hrest, show block.inner + block.body.length + 1 - 1 - block.inner
      = block.body.length by omega, List.take_left]
  · rw [hstop, Nat.add_sub_cancel, ← List.getElem?_drop, ← hrest,
      List.getElem?_append_right (Nat.le_refl _), Nat.sub_self]
    rfl

/-- The blocks from a position on. -/
theorem exists_placed_of_testBlocks (text : List Char) (origin : Nat) :
    ∃ blocks, Placed text origin blocks
      ∧ testBlocks (text.drop origin) = blocks.map fun block => (block.label, block.body) := by
  generalize hcs : text.drop origin = cs
  fun_induction testBlocks cs generalizing origin with
  | case1 cs hnone =>
    subst hcs
    exact ⟨[], .inl (not_headerAt_of_findFirst hnone), rfl⟩
  | case2 cs label inner hfound hopen =>
    subst hcs
    obtain ⟨start, stop, rfl, hfirst⟩ := firstHeader_of_findFirst hfound
    refine ⟨[], .inr ⟨start, label, stop, hfirst, ?_⟩, rfl⟩
    rw [blockBody, hopen]
  | case3 cs label inner hfound body rest hclosed ih =>
    subst hcs
    obtain ⟨start, stop, rfl, hfirst⟩ := firstHeader_of_findFirst hfound
    have hbody : blockBody text stop = (some body, stop + body.length + 1) := by
      obtain ⟨htext, hbody⟩ := closeBlock?_eq_some_iff.1 hclosed
      exact blockBody_eq_some_iff.2 ⟨hbody, ⟨rest, by simp [htext]⟩, rfl⟩
    have hrest : text.drop (stop + body.length + 1) = rest := by
      rw [Nat.add_assoc, ← List.drop_drop, eq_append_of_closeBlock? hclosed, ← List.drop_drop,
        List.drop_left]
      rfl
    obtain ⟨blocks, hplaced, hblocks⟩ := ih (stop + body.length + 1) hrest
    refine ⟨⟨start, stop, stop + body.length + 1, label, body⟩ :: blocks,
      ⟨isNext_of_blockBody hfirst hbody, hplaced⟩, ?_⟩
    rw [hblocks]
    rfl

/-- Blocks are placed in one way only. -/
theorem Placed.unique {text : List Char} {origin : Nat} {blocks blocks' : List PlacedBlock}
    (h : Placed text origin blocks) (h' : Placed text origin blocks') : blocks = blocks' := by
  have hclash : ∀ {origin : Nat} {block : PlacedBlock}, IsNext text origin block →
      ¬ Placed text origin [] := by
    rintro origin block hnext (hnone | ⟨start, label, inner, hfirst, hopen⟩)
    · exact hnone _ _ _ hnext.header.1 hnext.header.2.1
    · obtain ⟨-, -, rfl⟩ := hfirst.unique hnext.header
      rw [hnext.closed] at hopen
      exact absurd hopen (by simp)
  induction blocks generalizing origin blocks' with
  | nil =>
    cases blocks' with
    | nil => rfl
    | cons block' rest' => exact absurd h (hclash h'.1)
  | cons block rest ih =>
    cases blocks' with
    | nil => exact absurd h' (hclash h.1)
    | cons block' rest' =>
      obtain ⟨hstart, hlabel, hinner⟩ := h.1.header.unique h'.1.header
      have hclosed := h.1.closed
      rw [hinner, h'.1.closed, Prod.mk.injEq, Option.some.injEq] at hclosed
      have hblock : block = block' := by
        cases block
        cases block'
        simp_all
      subst hblock
      rw [ih h.2 h'.2]

/-- **The blocks of tests of a text.** They are found in order and apart from each other: each one
starts with the first header from the end of the one before on and ends with the brace that closes
it, and there is no further one unless its block is left open. No other list of blocks is placed
like that. -/
theorem labelledTests_placed (text : String) :
    ∃ blocks, Placed text.toList 0 blocks
      ∧ labelledTests text
        = blocks.map (fun block => (String.ofList block.label, String.ofList block.body))
      ∧ ∀ others, Placed text.toList 0 others → others = blocks := by
  obtain ⟨blocks, hplaced, hblocks⟩ := exists_placed_of_testBlocks text.toList 0
  refine ⟨blocks, hplaced, ?_, fun others hothers => hothers.unique hplaced⟩
  rw [List.drop_zero] at hblocks
  rw [labelledTests, hblocks, List.map_map]
  rfl

end Source
end RefPages
