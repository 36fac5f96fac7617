import RefPages.Proofs.Source.TestBlock

/-!
# What introduces an operation

A comment is followed by the declaration that it sits on, with attributes in front of it. Here is
how these are written, without saying how they are read.

* `IsDeclaration` is the text of a declaration up to its word `Evaluation`, and
  `declaration?_eq_some_iff` says that `declaration?` reads exactly such texts where no word goes
  on.
* `IsMark` is the text of an attribute and `IsGap` the space after it; `attribute?_append` and
  `exists_of_attribute?` say that `attribute?` reads the two.
* `Introduces` is a text that starts with a declaration after any number of attributes.
* `declares_iff`: **`declares` finds exactly the texts that introduce an operation.** Each of the
  pieces starts with a character at which the one before it has to end, so there is no choice in
  reading.
-/

set_option autoImplicit false
namespace RefPages
namespace Source

open Text

/-! ## Declarations -/

/-- The text of a declaration, up to the type of the first parameter. -/
def IsDeclaration (name text : List Char) : Prop :=
  name ≠ [] ∧ (∀ c ∈ name, isWordChar c = true) ∧ ∃ gap₁ gap₂ gap₃ gap₄,
    (gap₁ ≠ [] ∧ AllBlank gap₁) ∧ AllBlank gap₂ ∧ AllBlank gap₃ ∧ (gap₄ ≠ [] ∧ AllBlank gap₄)
    ∧ text = "void".toList ++ (gap₁ ++ (name ++ (gap₂ ++ ("(".toList ++ (gap₃ ++ ("ref".toList
      ++ (gap₄ ++ "Evaluation".toList)))))))

theorem declaration?_eq_some_iff {cs name : List Char} :
    declaration? cs = some name ↔
      ∃ text rest, IsDeclaration name text ∧ atWordEnd rest = true ∧ cs = text ++ rest := by
  constructor
  · intro h
    simp only [declaration?, Option.bind_eq_bind, Option.bind_eq_some_iff] at h
    obtain ⟨cs₁, hvoid, cs₂, hblanks₁, ⟨word, cs₃⟩, hname, cs₄, hparen, cs₅, href, cs₆, hblanks₄,
      rest, htype, hend⟩ := h
    rw [Option.ite_none_right_eq_some, Option.some.injEq] at hend
    obtain ⟨hend, rfl⟩ := hend
    obtain ⟨gap₁, hne₁, hgap₁, rfl, -⟩ := someBlanks?_eq_some_iff.1 hblanks₁
    obtain ⟨rfl, hne, hword, -⟩ := word?_eq_some_iff.1 hname
    obtain ⟨gap₂, hgap₂, hcs₃⟩ := exists_blanks_append_skipBlanks cs₃
    rw [skip?_eq_some_iff.1 hparen] at hcs₃
    obtain ⟨gap₃, hgap₃, hcs₄⟩ := exists_blanks_append_skipBlanks cs₄
    rw [skip?_eq_some_iff.1 href] at hcs₄
    obtain ⟨gap₄, hne₄, hgap₄, rfl, -⟩ := someBlanks?_eq_some_iff.1 hblanks₄
    rw [skip?_eq_some_iff.1 hvoid, hcs₃, hcs₄, skip?_eq_some_iff.1 htype]
    exact ⟨_, rest, ⟨hne, hword, gap₁, gap₂, gap₃, gap₄, ⟨hne₁, hgap₁⟩, hgap₂, hgap₃, ⟨hne₄, hgap₄⟩,
      rfl⟩, hend, by simp only [List.append_assoc]⟩
  · rintro ⟨_, rest, ⟨hne, hword, gap₁, gap₂, gap₃, gap₄, hgap₁, hgap₂, hgap₃, hgap₄, rfl⟩, hend,
      rfl⟩
    simp only [List.append_assoc]
    have hfirst : ∀ tail c, (name ++ tail).head? = some c → isBlank c = false := by
      obtain ⟨d, name, rfl⟩ := List.exists_cons_of_ne_nil hne
      rintro tail c ⟨⟩
      exact isBlank_eq_false_of_isWordChar (hword d List.mem_cons_self)
    have hblanks₁ : ∀ tail, someBlanks? (gap₁ ++ (name ++ tail)) = some (name ++ tail) :=
      fun tail => someBlanks?_eq_some_iff.2 ⟨gap₁, hgap₁.1, hgap₁.2, rfl, hfirst tail⟩
    have hname : ∀ tail, word? (name ++ (gap₂ ++ ("(".toList ++ tail)))
        = some (name, gap₂ ++ ("(".toList ++ tail)) := fun tail =>
      word?_eq_some_iff.2 ⟨rfl, hne, hword,
        atWordEnd_blanks_append hgap₂ (show (!isWordChar '(') = true by decide)⟩
    have hblanks₂ : ∀ tail, skipBlanks (gap₂ ++ ("(".toList ++ tail)) = "(".toList ++ tail :=
      fun tail => skipBlanks_append hgap₂ (by rintro c ⟨⟩; decide)
    have hblanks₃ : ∀ tail, skipBlanks (gap₃ ++ ("ref".toList ++ tail)) = "ref".toList ++ tail :=
      fun tail => skipBlanks_append hgap₃ (by rintro c ⟨⟩; decide)
    have hblanks₄ : someBlanks? (gap₄ ++ ("Evaluation".toList ++ rest))
        = some ("Evaluation".toList ++ rest) :=
      someBlanks?_eq_some_iff.2 ⟨gap₄, hgap₄.1, hgap₄.2, rfl, by rintro c ⟨⟩; decide⟩
    have hskip : ∀ lit tail, skip? lit (lit.toList ++ tail) = some tail := fun lit tail =>
      skip?_eq_some_iff.2 rfl
    simp only [declaration?, Option.bind_eq_bind, Option.bind_some, hskip, hblanks₁, hname,
      hblanks₂, hblanks₃, hblanks₄, hend, if_true]

/-! ## Attributes -/

/-- Is all of it blanks and tabs? -/
def AllIndent (gap : List Char) : Prop :=
  ∀ c ∈ gap, isIndent c = true

/-- The text of an attribute: a word after an at sign, with or without an argument on the same line,
or one of five keywords. -/
inductive IsMark : List Char → Prop where
  | word {word : List Char} : word ≠ [] → (∀ c ∈ word, isWordChar c = true) → IsMark ('@' :: word)
  | argument {word argument : List Char} : word ≠ [] → (∀ c ∈ word, isWordChar c = true) →
      ')' ∉ argument → '\n' ∉ argument → IsMark ('@' :: (word ++ '(' :: (argument ++ [')'])))
  | keyword {keyword : String} : keyword ∈ ["public", "package", "static", "pure", "nothrow"] →
      IsMark keyword.toList

/-- The space after an attribute: blanks and tabs, and one line feed at most among them. -/
def IsGap (gap : List Char) : Prop :=
  gap ≠ [] ∧ (∀ c ∈ gap, isIndent c = true ∨ c = '\n') ∧ gap.count '\n' ≤ 1

/-- Can the space after an attribute not go on with this text? -/
def EndsGap (rest : List Char) : Prop :=
  ∀ c, rest.head? = some c → isIndent c = false ∧ c ≠ '\n'

theorem ne_lineFeed_of_isIndent {c : Char} (h : isIndent c = true) : c ≠ '\n' := by
  rintro rfl
  exact absurd h (by decide)

theorem isGap_iff {gap : List Char} :
    IsGap gap ↔ (gap ≠ [] ∧ AllIndent gap)
      ∨ ∃ front back, gap = front ++ '\n' :: back ∧ AllIndent front ∧ AllIndent back := by
  constructor
  · rintro ⟨hne, hall, hcount⟩
    by_cases hmem : '\n' ∈ gap
    · obtain ⟨front, back, rfl⟩ := List.append_of_mem hmem
      rw [List.count_append, List.count_cons_self] at hcount
      refine .inr ⟨front, back, rfl, fun c hc => ?_, fun c hc => ?_⟩
      · refine (hall c (by simp [hc])).resolve_right ?_
        rintro rfl
        have := List.count_pos_iff.2 hc
        omega
      · refine (hall c (by simp [hc])).resolve_right ?_
        rintro rfl
        have := List.count_pos_iff.2 hc
        omega
    · refine .inl ⟨hne, fun c hc => (hall c hc).resolve_right ?_⟩
      rintro rfl
      exact hmem hc
  · rintro (⟨hne, hall⟩ | ⟨front, back, rfl, hfront, hback⟩)
    · have hnone : '\n' ∉ gap := fun hmem => ne_lineFeed_of_isIndent (hall _ hmem) rfl
      exact ⟨hne, fun c hc => .inl (hall c hc), by rw [List.count_eq_zero.2 hnone]; omega⟩
    · have hnone : ∀ {gap}, AllIndent gap → gap.count '\n' = 0 := fun hall =>
        List.count_eq_zero.2 fun hmem => ne_lineFeed_of_isIndent (hall _ hmem) rfl
      refine ⟨by simp, fun c hc => ?_, ?_⟩
      · rcases List.mem_append.1 hc with hc | hc
        · exact .inl (hfront c hc)
        · exact (List.mem_cons.1 hc).elim .inr fun hc => .inl (hback c hc)
      · rw [List.count_append, List.count_cons_self]
        have hfront' := hnone hfront
        have hback' := hnone hback
        omega

theorem dropWhile_isIndent_append {gap rest : List Char} (hgap : AllIndent gap)
    (hrest : ∀ c, rest.head? = some c → isIndent c = false) :
    (gap ++ rest).dropWhile isIndent = rest := by
  rw [List.dropWhile_append_of_pos hgap]
  cases rest with
  | nil => rfl
  | cons c tail => rw [List.dropWhile_cons_of_neg (by simp [hrest c rfl])]

theorem exists_indent_append_dropWhile (cs : List Char) :
    ∃ gap, AllIndent gap ∧ cs = gap ++ cs.dropWhile isIndent :=
  ⟨cs.takeWhile isIndent, List.all_eq_true.1 List.all_takeWhile,
    List.takeWhile_append_dropWhile.symm⟩

theorem attributeGap?_append {gap rest : List Char} (hgap : IsGap gap) (hrest : EndsGap rest) :
    attributeGap? (gap ++ rest) = some rest := by
  rw [attributeGap?.eq_def]
  rcases isGap_iff.1 hgap with ⟨hne, hall⟩ | ⟨front, back, rfl, hfront, hback⟩
  · rw [dropWhile_isIndent_append hall fun c hc => (hrest c hc).1]
    split
    · exact absurd rfl (hrest '\n' rfl).2
    · rw [if_pos]
      have := List.length_pos_iff.2 hne
      rw [List.length_append]
      omega
  · rw [List.append_assoc, List.cons_append,
      dropWhile_isIndent_append hfront (by rintro c ⟨⟩; decide)]
    simp only
    rw [dropWhile_isIndent_append hback fun c hc => (hrest c hc).1]

theorem exists_of_attributeGap? {cs rest : List Char} (h : attributeGap? cs = some rest) :
    ∃ gap, IsGap gap ∧ cs = gap ++ rest := by
  obtain ⟨front, hfront, hcs⟩ := exists_indent_append_dropWhile cs
  rw [attributeGap?.eq_def] at h
  split at h
  · rename_i tail hline
    cases h
    obtain ⟨back, hback, htail⟩ := exists_indent_append_dropWhile tail
    refine ⟨front ++ '\n' :: back, isGap_iff.2 (.inr ⟨front, back, rfl, hfront, hback⟩), ?_⟩
    rw [List.append_assoc, List.cons_append, ← htail, ← hline]
    exact hcs
  · rw [Option.ite_none_right_eq_some] at h
    obtain ⟨hshort, hrest⟩ := h
    cases hrest
    refine ⟨front, isGap_iff.2 (.inl ⟨?_, hfront⟩), hcs⟩
    rintro rfl
    rw [List.nil_append] at hcs
    rw [← hcs] at hshort
    exact absurd hshort (Nat.lt_irrefl _)

/-- What follows an attribute's own text starts the space after it. -/
theorem head?_of_isGap {gap : List Char} (h : IsGap gap) (rest : List Char) {c : Char}
    (hc : (gap ++ rest).head? = some c) : isWordChar c = false ∧ c ≠ '(' := by
  obtain ⟨hne, hall, -⟩ := h
  cases gap with
  | nil => exact absurd rfl hne
  | cons d gap =>
    cases hc
    have hd := hall c List.mem_cons_self
    rw [isIndent, Bool.or_eq_true, decide_eq_true_eq, decide_eq_true_eq] at hd
    rcases hd with (rfl | rfl) | rfl <;> decide

theorem attributeText?_append {mark gap : List Char} (hmark : IsMark mark) (hgap : IsGap gap)
    (rest : List Char) : attributeText? (mark ++ (gap ++ rest)) = some (gap ++ rest) := by
  have hend : atWordEnd (gap ++ rest) = true := by
    cases hafter : gap ++ rest with
    | nil => rfl
    | cons c tail =>
      rw [atWordEnd, (head?_of_isGap hgap rest (by rw [hafter]; rfl)).1]
      rfl
  cases hmark with
  | @word word hne hword =>
    have hread : word? (word ++ (gap ++ rest)) = some (word, gap ++ rest) :=
      word?_eq_some_iff.2 ⟨rfl, hne, hword, hend⟩
    rw [List.cons_append, attributeText?, hread]
    split
    · rename_i hnone
      exact absurd hnone (by simp)
    · rename_i first tail hsome
      obtain ⟨-, htail⟩ := Prod.mk.inj (Option.some.inj hsome)
      exact absurd rfl (head?_of_isGap hgap rest (by rw [htail]; rfl)).2
    · rename_i hsome
      cases hsome
      rfl
  | @argument word argument hne hword hparen hline =>
    have hread : word? (word ++ '(' :: (argument ++ ')' :: (gap ++ rest)))
        = some (word, '(' :: (argument ++ ')' :: (gap ++ rest))) :=
      word?_eq_some_iff.2 ⟨rfl, hne, hword, show (!isWordChar '(') = true by decide⟩
    have hinner : ∀ c ∈ argument, (c != ')' && c != '\n') = true := by
      intro c hc
      rw [Bool.and_eq_true, bne_iff_ne, bne_iff_ne]
      exact ⟨fun h => hparen (h ▸ hc), fun h => hline (h ▸ hc)⟩
    have hclose : (argument ++ ')' :: (gap ++ rest)).dropWhile (fun c => c != ')' && c != '\n')
        = ')' :: (gap ++ rest) := by
      rw [List.dropWhile_append_of_pos hinner, List.dropWhile_cons_of_neg (by decide)]
    have htext : '@' :: (word ++ '(' :: (argument ++ [')'])) ++ (gap ++ rest)
        = '@' :: (word ++ '(' :: (argument ++ ')' :: (gap ++ rest))) := by
      simp
    rw [htext, attributeText?, hread]
    simp only [hclose]
  | @keyword keyword hmem =>
    -- No keyword starts with another one.
    simp only [List.mem_cons, List.not_mem_nil, or_false] at hmem
    rcases hmem with rfl | rfl | rfl | rfl | rfl <;> rfl

theorem exists_of_attributeText? {cs rest : List Char} (h : attributeText? cs = some rest) :
    ∃ mark, IsMark mark ∧ cs = mark ++ rest := by
  rw [attributeText?.eq_def] at h
  split at h
  · rename_i tail
    split at h
    · exact absurd h (by simp)
    · rename_i word argument hread
      obtain ⟨rfl, hne, hword, -⟩ := word?_eq_some_iff.1 hread
      split at h
      · rename_i after hclose
        cases h
        refine ⟨_, @IsMark.argument word (argument.takeWhile fun c => c != ')' && c != '\n') hne
          hword ?_ ?_, ?_⟩
        · intro hmem
          exact absurd (List.all_eq_true.1 List.all_takeWhile _ hmem) (by decide)
        · intro hmem
          exact absurd (List.all_eq_true.1 List.all_takeWhile _ hmem) (by decide)
        · have hsplit : argument
              = argument.takeWhile (fun c => c != ')' && c != '\n') ++ ')' :: rest := by
            rw [← hclose, List.takeWhile_append_dropWhile]
          simp only [List.cons_append, List.append_assoc, List.nil_append]
          rw [← hsplit]
      · exact absurd h (by simp)
    · rename_i word after hread
      cases h
      obtain ⟨rfl, hne, hword, -⟩ := word?_eq_some_iff.1 hread
      exact ⟨_, .word hne hword, rfl⟩
  · obtain ⟨keyword, hmem, hskip⟩ := List.exists_of_findSome?_eq_some h
    exact ⟨_, .keyword hmem, skip?_eq_some_iff.1 hskip⟩

theorem attribute?_append {mark gap rest : List Char} (hmark : IsMark mark) (hgap : IsGap gap)
    (hrest : EndsGap rest) : attribute? (mark ++ (gap ++ rest)) = some rest := by
  rw [attribute?, attributeText?_append hmark hgap, Option.bind_some,
    attributeGap?_append hgap hrest]

theorem exists_of_attribute? {cs rest : List Char} (h : attribute? cs = some rest) :
    ∃ mark gap, IsMark mark ∧ IsGap gap ∧ cs = mark ++ (gap ++ rest) := by
  rw [attribute?, Option.bind_eq_some_iff] at h
  obtain ⟨after, htext, hspace⟩ := h
  obtain ⟨mark, hmark, rfl⟩ := exists_of_attributeText? htext
  obtain ⟨gap, hgap, rfl⟩ := exists_of_attributeGap? hspace
  exact ⟨mark, gap, hmark, hgap, rfl⟩

/-! ## Attributes and a declaration -/

/-- A text that starts with a declaration after any number of attributes, each with space after it.
-/
def Introduces (cs : List Char) : Prop :=
  ∃ (marks : List (List Char)) (name text rest : List Char),
    cs = marks.flatten ++ (text ++ rest)
    ∧ (∀ piece ∈ marks, ∃ mark gap, IsMark mark ∧ IsGap gap ∧ piece = mark ++ gap)
    ∧ IsDeclaration name text ∧ atWordEnd rest = true

theorem IsMark.head?_mem {mark : List Char} (h : IsMark mark) (rest : List Char) {c : Char}
    (hc : (mark ++ rest).head? = some c) : c ∈ ['@', 'p', 's', 'n'] := by
  cases h with
  | word => cases hc; decide
  | argument => cases hc; decide
  | @keyword keyword hmem =>
    simp only [List.mem_cons, List.not_mem_nil, or_false] at hmem
    rcases hmem with rfl | rfl | rfl | rfl | rfl <;> cases hc <;> decide

/-- The first character tells what introduces an operation from all that can stand in front of it.
-/
theorem Introduces.head?_mem {cs : List Char} (h : Introduces cs) {c : Char}
    (hc : cs.head? = some c) : c ∈ ['@', 'p', 's', 'n', 'v'] := by
  obtain ⟨marks, name, text, rest, rfl, hmarks,
    ⟨-, -, gap₁, gap₂, gap₃, gap₄, -, -, -, -, rfl⟩, -⟩ := h
  cases marks with
  | nil =>
    cases hc
    decide
  | cons piece marks =>
    obtain ⟨mark, gap, hmark, -, rfl⟩ := hmarks piece List.mem_cons_self
    rw [List.flatten_cons, List.append_assoc, List.append_assoc] at hc
    exact List.mem_append_left ['v'] (hmark.head?_mem _ hc)

theorem Introduces.endsGap {cs : List Char} (h : Introduces cs) : EndsGap cs := by
  have hall : ∀ c ∈ ['@', 'p', 's', 'n', 'v'], isIndent c = false ∧ c ≠ '\n' := by
    simp only [List.forall_mem_cons]
    refine ⟨?_, ?_, ?_, ?_, ?_, by simp⟩ <;> decide
  exact fun c hc => hall c (h.head?_mem hc)

theorem Introduces.ne_nil {cs : List Char} (h : Introduces cs) : cs ≠ [] := by
  obtain ⟨marks, name, text, rest, rfl, -, ⟨-, -, gap₁, -, -, -, -, -, -, -, rfl⟩, -⟩ := h
  simp

theorem introduces_of_declaration? {cs : List Char} (h : (declaration? cs).isSome = true) :
    Introduces cs := by
  obtain ⟨name, hname⟩ := Option.isSome_iff_exists.1 h
  obtain ⟨text, rest, htext, hend, rfl⟩ := declaration?_eq_some_iff.1 hname
  exact ⟨[], name, text, rest, rfl, by simp, htext, hend⟩

/-- **A declaration is found after attributes exactly if it is introduced by them.** -/
theorem declares_iff {cs : List Char} : declares cs = true ↔ Introduces cs := by
  constructor
  · intro h
    fun_induction declares cs with
    | case1 cs ih =>
      rcases Bool.or_eq_true_iff.1 h with hfirst | hlater
      · exact introduces_of_declaration? hfirst
      · split at hlater
        · rename_i rest hread
          obtain ⟨mark, gap, hmark, hgap, rfl⟩ := exists_of_attribute? hread
          obtain ⟨marks, name, text, rest', rfl, hmarks, htext, hend⟩ := ih rest hread hlater
          refine ⟨(mark ++ gap) :: marks, name, text, rest', by simp, ?_, htext, hend⟩
          exact List.forall_mem_cons.2 ⟨⟨mark, gap, hmark, hgap, rfl⟩, hmarks⟩
        · exact absurd hlater (by simp)
  · rintro ⟨marks, name, text, rest, rfl, hmarks, htext, hend⟩
    induction marks with
    | nil =>
      have hname : declaration? (text ++ rest) = some name :=
        declaration?_eq_some_iff.2 ⟨text, rest, htext, hend, rfl⟩
      rw [List.flatten_nil, List.nil_append, declares, hname]
      rfl
    | cons piece marks ih =>
      obtain ⟨⟨mark, gap, hmark, hgap, rfl⟩, hothers⟩ := List.forall_mem_cons.1 hmarks
      have hrest : Introduces (marks.flatten ++ (text ++ rest)) :=
        ⟨marks, name, text, rest, rfl, hothers, htext, hend⟩
      rw [List.flatten_cons, List.append_assoc, List.append_assoc, declares, Bool.or_eq_true]
      refine .inr ?_
      split
      · rename_i after hread
        rw [attribute?_append hmark hgap hrest.endsGap] at hread
        cases hread
        exact ih hothers
      · rename_i hnone
        rw [attribute?_append hmark hgap hrest.endsGap] at hnone
        exact absurd hnone (by simp)

/-- The same on a line that may be indented. -/
theorem declares_dropWhile_iff {cs : List Char} :
    declares (cs.dropWhile isIndent) = true ↔
      ∃ indent rest, AllIndent indent ∧ Introduces rest ∧ cs = indent ++ rest := by
  rw [declares_iff]
  constructor
  · intro h
    obtain ⟨indent, hindent, hcs⟩ := exists_indent_append_dropWhile cs
    exact ⟨indent, _, hindent, h, hcs⟩
  · rintro ⟨indent, rest, hindent, hrest, rfl⟩
    rwa [dropWhile_isIndent_append hindent fun c hc => (hrest.endsGap c hc).1]

end Source
end RefPages
