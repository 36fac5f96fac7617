import RefPages.Extractor

/-!
# The declaration below the narrative

The identifier and the narrative are looked for apart from each other: one at the first declaration
of the text, the other at the first comment that sits on a declaration. The two declarations need
not be the same.

* `exists_first_of_findFirst`: what `findFirst` gives is read at the first end of the text at which
  it can be read.
* `commentBlock?` is `commentRun?` that also gives the declaration below the comment, as the end of
  the text that starts with it; `commentRun?_eq` says that the comment is the same.
* `SitsOn` says what it is for a comment to sit on a declaration.
* `narrative_declaration`: **the identifier is never declared after the narrative's declaration, and
  the two are the same exactly if no declaration can be read before.**
-/

set_option autoImplicit false
namespace RefPages
namespace Source

open Text

/-! ## The first of many -/

/-- A shape that is found is read at the first end of the text at which it can be read. -/
theorem exists_first_of_findFirst {α : Type} {shape : List Char → Option α} {cs : List Char} {a : α}
    (h : findFirst shape cs = some a) :
    ∃ first, first <:+ cs ∧ shape first = some a
      ∧ ∀ tail, tail <:+ cs → (shape tail).isSome = true → tail <:+ first := by
  induction cs with
  | nil => exact ⟨[], List.suffix_refl _, h, fun _ htail _ => htail⟩
  | cons c rest ih =>
    rw [findFirst, Option.or_eq_some_iff] at h
    rcases h with h | ⟨hnone, h⟩
    · exact ⟨c :: rest, List.suffix_refl _, h, fun _ htail _ => htail⟩
    · obtain ⟨first, hfirst, hshape, hleast⟩ := ih h
      refine ⟨first, hfirst.trans (List.suffix_cons c rest), hshape, fun tail htail hsome => ?_⟩
      rcases List.suffix_cons_iff.1 htail with rfl | htail
      · rw [hnone] at hsome
        exact absurd hsome (by simp)
      · exact hleast tail htail hsome

/-! ## The declaration after attributes -/

theorem suffix_of_word? {cs word rest : List Char} (h : word? cs = some (word, rest)) :
    rest <:+ cs := by
  rw [word?] at h
  split at h
  · exact absurd h (by simp)
  · cases h
    exact List.dropWhile_suffix _

theorem suffix_of_skip? {lit : String} {cs rest : List Char} (h : skip? lit cs = some rest) :
    rest <:+ cs := by
  rw [skip?_eq_some_iff.1 h]
  exact List.suffix_append _ _

theorem suffix_of_attributeText? {cs rest : List Char} (h : attributeText? cs = some rest) :
    rest <:+ cs := by
  rw [attributeText?.eq_def] at h
  split at h
  · rename_i tail
    refine List.IsSuffix.trans ?_ (List.suffix_cons '@' tail)
    split at h
    · exact absurd h (by simp)
    · rename_i word argument hword
      split at h
      · rename_i after hafter
        cases h
        have hclose : ')' :: rest <:+ argument := by
          rw [← hafter]
          exact List.dropWhile_suffix _
        exact (List.suffix_cons _ _).trans
          (hclose.trans ((List.suffix_cons _ _).trans (suffix_of_word? hword)))
      · exact absurd h (by simp)
    · rename_i word after hword
      cases h
      exact suffix_of_word? hword
  · obtain ⟨lit, -, hlit⟩ := List.exists_of_findSome?_eq_some h
    exact suffix_of_skip? hlit

theorem suffix_of_attributeGap? {cs rest : List Char} (h : attributeGap? cs = some rest) :
    rest <:+ cs := by
  rw [attributeGap?] at h
  split at h
  · rename_i tail hline
    cases h
    have hbreak : '\n' :: tail <:+ cs := by
      rw [← hline]
      exact List.dropWhile_suffix _
    exact (List.dropWhile_suffix _).trans ((List.suffix_cons _ _).trans hbreak)
  · rw [Option.ite_none_right_eq_some] at h
    cases h.2
    exact List.dropWhile_suffix _

theorem suffix_of_attribute? {cs rest : List Char} (h : attribute? cs = some rest) :
    rest <:+ cs := by
  rw [attribute?, Option.bind_eq_some_iff] at h
  obtain ⟨gap, htext, hgap⟩ := h
  exact (suffix_of_attributeGap? hgap).trans (suffix_of_attributeText? htext)

/-- The end of the text that starts with the declaration after any number of attributes. -/
def declared? (cs : List Char) : Option (List Char) :=
  if (declaration? cs).isSome then some cs
  else
    match _h : attribute? cs with
    | some rest => declared? rest
    | none => none
termination_by cs.length
decreasing_by exact length_of_attribute? _h

theorem declares_eq (cs : List Char) : declares cs = (declared? cs).isSome := by
  fun_induction declared? cs with
  | case1 cs hdecl =>
    rw [declares, hdecl]
    rfl
  | case2 cs hdecl rest hattr ih =>
    rw [declares, Bool.eq_false_iff.2 hdecl, Bool.false_or, ← ih]
    split
    · rename_i rest' hattr'
      rw [hattr] at hattr'
      cases hattr'
      rfl
    · rename_i hnone
      rw [hattr] at hnone
      exact absurd hnone (by simp)
  | case3 cs hdecl hattr =>
    rw [declares, Bool.eq_false_iff.2 hdecl, Bool.false_or]
    split
    · rename_i rest hsome
      rw [hattr] at hsome
      exact absurd hsome (by simp)
    · rfl

/-- What is declared after attributes is a declaration of the text. -/
theorem declared?_spec {cs own : List Char} (h : declared? cs = some own) :
    own <:+ cs ∧ (declaration? own).isSome = true := by
  fun_induction declared? cs with
  | case1 cs hdecl =>
    cases h
    exact ⟨List.suffix_refl _, hdecl⟩
  | case2 cs hdecl rest hattr ih =>
    obtain ⟨hsuffix, hown⟩ := ih h
    exact ⟨hsuffix.trans (suffix_of_attribute? hattr), hown⟩
  | case3 cs hdecl hattr => exact absurd h (by simp)

/-! ## The comment and what it sits on -/

/-- The comment lines directly on top of a declaration, and the end of the text that starts with the
declaration. -/
def commentBlock? (run : List (List Char)) :
    List (List Char) → Option (List (List Char) × List Char)
  | [] => none
  | line :: rest =>
    if isCommentLine line then commentBlock? (line :: run) rest
    else if run.isEmpty then commentBlock? [] rest
    else
      match declared? ((unlines (line :: rest)).dropWhile isIndent) with
      | some own => some (run.reverse, own)
      | none => commentBlock? [] rest

theorem commentRun?_eq (run lines : List (List Char)) :
    commentRun? run lines = (commentBlock? run lines).map Prod.fst := by
  fun_induction commentBlock? run lines with
  | case1 run => rfl
  | case2 run line rest hline ih => rw [commentRun?, if_pos hline, ih]
  | case3 run line rest hline hrun ih =>
    rw [commentRun?, if_neg hline, hrun, if_neg (by simp), ih]
  | case4 run line rest hline hrun own hown =>
    rw [commentRun?, if_neg hline, declares_eq, hown, if_pos (by simpa using hrun)]
    rfl
  | case5 run line rest hline hrun hnone ih =>
    rw [commentRun?, if_neg hline, declares_eq, hnone, if_neg (by simp), ih]

/-- The comment sits on the declaration: its lines are comment lines of the text, one after the
other, and what is below them starts with the declaration after any number of attributes. -/
structure SitsOn (cs : List Char) (block : List (List Char)) (own : List Char) : Prop where
  ne_nil : block ≠ []
  comment : ∀ line ∈ block, isCommentLine line = true
  below : ∃ front after, splitOn '\n' cs = front ++ (block ++ after)
    ∧ declared? ((unlines after).dropWhile isIndent) = some own

theorem exists_of_commentBlock? {run lines block : List (List Char)} {own : List Char}
    (hrun : ∀ line ∈ run, isCommentLine line = true)
    (h : commentBlock? run lines = some (block, own)) :
    block ≠ [] ∧ (∀ line ∈ block, isCommentLine line = true)
      ∧ ∃ front after, run.reverse ++ lines = front ++ (block ++ after)
        ∧ declared? ((unlines after).dropWhile isIndent) = some own := by
  fun_induction commentBlock? run lines with
  | case1 run => exact absurd h (by simp)
  | case2 run line rest hline ih =>
    -- A comment line goes to the end of the run.
    obtain ⟨hne, hall, front, after, hlines, hown⟩ := ih (List.forall_mem_cons.2 ⟨hline, hrun⟩) h
    refine ⟨hne, hall, front, after, ?_, hown⟩
    rw [← hlines, List.reverse_cons, List.append_assoc]
    rfl
  | case3 run line rest hline hempty ih =>
    obtain ⟨hne, hall, front, after, hlines, hown⟩ := ih (by simp) h
    refine ⟨hne, hall, run.reverse ++ line :: front, after, ?_, hown⟩
    rw [List.append_assoc, List.cons_append, ← hlines]
    rfl
  | case4 run line rest hline hempty own' hown =>
    cases h
    refine ⟨by simpa using hempty, fun line hmem => hrun line (List.mem_reverse.1 hmem), [],
      line :: rest, rfl, hown⟩
  | case5 run line rest hline hempty hnone ih =>
    obtain ⟨hne, hall, front, after, hlines, hown⟩ := ih (by simp) h
    refine ⟨hne, hall, run.reverse ++ line :: front, after, ?_, hown⟩
    rw [List.append_assoc, List.cons_append, ← hlines]
    rfl

theorem sitsOn_of_commentBlock? {cs : List Char} {block : List (List Char)} {own : List Char}
    (h : commentBlock? [] (splitOn '\n' cs) = some (block, own)) : SitsOn cs block own := by
  obtain ⟨hne, hall, front, after, hlines, hown⟩ := exists_of_commentBlock? (by simp) h
  exact ⟨hne, hall, front, after, hlines, hown⟩

/-- The lines at the end of a text are an end of it. -/
theorem unlines_suffix (front after : List (List Char)) :
    unlines after <:+ unlines (front ++ after) := by
  induction front with
  | nil => exact List.suffix_refl _
  | cons line front ih =>
    refine ih.trans ?_
    rw [List.cons_append]
    cases front ++ after with
    | nil => exact List.nil_suffix
    | cons next rest =>
      show unlines (next :: rest) <:+ line ++ (['\n'] ++ unlines (next :: rest))
      exact (List.suffix_append _ _).trans (List.suffix_append _ _)

/-- The declaration below a comment is one of the text. -/
theorem SitsOn.declaration {cs : List Char} {block : List (List Char)} {own : List Char}
    (h : SitsOn cs block own) : own <:+ cs ∧ (declaration? own).isSome = true := by
  obtain ⟨front, after, hlines, hown⟩ := h.below
  obtain ⟨hsuffix, hdecl⟩ := declared?_spec hown
  have hafter : unlines after <:+ cs := by
    have hcs : unlines (splitOn '\n' cs) = cs := intercalate_splitOn '\n' cs
    rw [← hcs, hlines, ← List.append_assoc]
    exact unlines_suffix _ _
  exact ⟨hsuffix.trans ((List.dropWhile_suffix _).trans hafter), hdecl⟩

/-! ## The narrative and the identifier -/

/-- The text of a comment, in one line. -/
def blockText (block : List (List Char)) : String :=
  joinWith " " ((((splitLines (unlines block)).map commentText).filter (!·.isEmpty)).map
    String.ofList)

/-- A narrative is the text of the first comment that sits on a declaration. -/
theorem exists_of_narrative? {cs : List Char} {text : String} (h : narrative? cs = some text) :
    ∃ block own, commentBlock? [] (splitOn '\n' cs) = some (block, own)
      ∧ text = blockText block := by
  rw [narrative?, commentRun?_eq] at h
  cases hblock : commentBlock? [] (splitOn '\n' cs) with
  | none =>
    rw [hblock] at h
    exact absurd h (by simp)
  | some found =>
    obtain ⟨block, own⟩ := found
    rw [hblock] at h
    simp only [Option.map_some, Option.bind_eq_bind, Option.bind_some] at h
    split at h
    · exact absurd h (by simp)
    · cases h
      exact ⟨block, own, rfl, rfl⟩

/-- **The identifier and the declaration below the narrative.** The comment of the narrative sits on
a declaration of the text, so there is an identifier, and it is the name in the first declaration.
That one does not come after the one below the comment, and the two are the same exactly if no
declaration can be read before the one below the comment. -/
theorem narrative_declaration (file : SourceFile) (text : String)
    (h : .narrative (.text text) ∈ Extractor.narrative.facts file) :
    ∃ block own first name,
      commentBlock? [] (splitOn '\n' file.text.toList) = some (block, own)
      ∧ SitsOn file.text.toList block own ∧ text = blockText block
      ∧ own <:+ file.text.toList ∧ (declaration? own).isSome = true
      ∧ Extractor.identifier.facts file = [.identifier (.text (String.ofList name))]
      ∧ declaration? first = some name ∧ first <:+ file.text.toList
      ∧ (∀ tail, tail <:+ file.text.toList → (declaration? tail).isSome = true → tail <:+ first)
      ∧ own <:+ first
      ∧ (own = first ↔
        ∀ tail, tail <:+ file.text.toList → (declaration? tail).isSome = true → tail <:+ own) := by
  have hnarrative : narrative? file.text.toList = some text := by
    simpa [Extractor.facts] using h
  obtain ⟨block, own, hblock, htext⟩ := exists_of_narrative? hnarrative
  have hsits := sitsOn_of_commentBlock? hblock
  obtain ⟨hsuffix, hdecl⟩ := hsits.declaration
  -- A declaration of the text is found, if not this one.
  obtain ⟨name, hname⟩ : ∃ name, identifier? file.text.toList = some name := by
    rw [← Option.isSome_iff_exists, ← Option.ne_none_iff_isSome, identifier?, Ne,
      findFirst_eq_none_iff]
    intro hnone
    rw [hnone own hsuffix] at hdecl
    exact absurd hdecl (by simp)
  obtain ⟨first, hfirst, hfirstName, hleast⟩ := exists_first_of_findFirst hname
  refine ⟨block, own, first, name, hblock, hsits, htext, hsuffix, hdecl, ?_, hfirstName, hfirst,
    hleast, hleast own hsuffix hdecl, ?_⟩
  · rw [Extractor.facts, hname]
    rfl
  · constructor
    · rintro rfl
      exact hleast
    · intro hown
      have hback : first <:+ own := hown first hfirst (by rw [hfirstName]; rfl)
      exact (hleast own hsuffix hdecl).eq_of_length_le hback.length_le

/-- A declaration without a comment in front of one with a comment. -/
def overtaken : SourceFile where
  path := ⟨.here, ["b.d"]⟩
  text := "void a(ref Evaluation e)\n/// Tells b.\nvoid b(ref Evaluation e)"

/-- The identifier is the name in the first declaration, and the narrative is the comment on the
second. -/
theorem narrative_declaration_overtaken :
    ∃ block own first, SitsOn overtaken.text.toList block own ∧ blockText block = "Tells b."
      ∧ declaration? own = some ['b'] ∧ declaration? first = some ['a']
      ∧ Extractor.identifier.facts overtaken = [.identifier (.text "a")] ∧ own ≠ first := by
  obtain ⟨block, own, first, name, hblock, hsits, htext, -, -, hfacts, hfirst, -⟩ :=
    narrative_declaration overtaken "Tells b." (by decide +kernel)
  have hown : (commentBlock? [] (splitOn '\n' overtaken.text.toList)).bind
      (fun found => declaration? found.2) = some ['b'] := by decide +kernel
  rw [hblock] at hown
  have hname : Extractor.identifier.facts overtaken = [.identifier (.text "a")] := by
    decide +kernel
  have hlist : String.ofList name = "a" := by simpa [hname] using hfacts.symm
  obtain rfl : name = ['a'] := by simpa using congrArg String.toList hlist
  refine ⟨block, own, first, hsits, htext.symm, hown, hfirst, hname, ?_⟩
  rintro rfl
  exact absurd (hown.symm.trans hfirst) (by decide)

end Source
end RefPages
