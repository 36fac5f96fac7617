import RefPages.Proofs.Source.Introduction

/-!
# Shapes of declarations

How descriptions, lists of types and aliases are written, without saying how they are read. The
parts of a shape are words, fixed texts, and white space, and some parts may be left out.

* `IsWord` and `IsSpace` are the parts that vary.
* `IsDescription`, `IsTypeList` and `IsAlias` are the shapes; the shape of a declaration is
  `IsDeclaration`.
* `descriptionAt?_eq_some_iff`, `typeListAt?_eq_some_iff` and `aliasAt?_eq_some_iff`: **each shape
  is read off the front of a text exactly if the text starts with it.** Every part starts with a
  character that the one before it cannot go on with, so none can be read in two ways.
-/

set_option autoImplicit false
namespace RefPages
namespace Source

open Text

/-! ## Parts -/

/-- Word characters, at least one. -/
def IsWord (word : List Char) : Prop :=
  word ≠ [] ∧ ∀ c ∈ word, isWordChar c = true

/-- White space, at least one character of it. -/
def IsSpace (gap : List Char) : Prop :=
  gap ≠ [] ∧ AllBlank gap

theorem IsSpace.atWordEnd {gap : List Char} (h : IsSpace gap) (rest : List Char) :
    atWordEnd (gap ++ rest) = true := by
  obtain ⟨c, tail, rfl⟩ := List.exists_cons_of_ne_nil h.1
  rw [List.cons_append, Source.atWordEnd,
    isWordChar_eq_false_of_isBlank (h.2 c List.mem_cons_self)]
  rfl

theorem skip?_append (lit : String) (rest : List Char) :
    skip? lit (lit.toList ++ rest) = some rest :=
  skip?_eq_some_iff.2 rfl

theorem word?_append {word rest : List Char} (hword : IsWord word)
    (hrest : atWordEnd rest = true) : word? (word ++ rest) = some (word, rest) :=
  word?_eq_some_iff.2 ⟨rfl, hword.1, hword.2, hrest⟩

/-- A word does not start with white space. -/
theorem IsWord.isBlank_head? {word : List Char} (h : IsWord word) (rest : List Char) {c : Char}
    (hc : (word ++ rest).head? = some c) : isBlank c = false := by
  obtain ⟨hne, hword⟩ := h
  obtain ⟨first, tail, rfl⟩ := List.exists_cons_of_ne_nil hne
  obtain rfl := Option.some.inj hc
  exact isBlank_eq_false_of_isWordChar (hword _ List.mem_cons_self)

theorem someBlanks?_append {gap rest : List Char} (hgap : IsSpace gap)
    (hrest : ∀ c, rest.head? = some c → isBlank c = false) :
    someBlanks? (gap ++ rest) = some rest :=
  someBlanks?_eq_some_iff.2 ⟨gap, hgap.1, hgap.2, rfl, hrest⟩

theorem exists_of_someBlanks? {cs rest : List Char} (h : someBlanks? cs = some rest) :
    ∃ gap, IsSpace gap ∧ cs = gap ++ rest := by
  obtain ⟨gap, hne, hgap, rfl, -⟩ := someBlanks?_eq_some_iff.1 h
  exact ⟨gap, ⟨hne, hgap⟩, rfl⟩

theorem exists_of_word? {cs word rest : List Char} (h : word? cs = some (word, rest)) :
    cs = word ++ rest ∧ IsWord word ∧ atWordEnd rest = true := by
  obtain ⟨rfl, hne, hword, hend⟩ := word?_eq_some_iff.1 h
  exact ⟨rfl, ⟨hne, hword⟩, hend⟩

/-- A fixed text that does not start with white space is not passed over with it. -/
theorem head?_append_of_shows {lit : String} (hlit : lit.toList.head?.any (!isBlank ·) = true)
    (rest : List Char) : ∀ c, (lit.toList ++ rest).head? = some c → isBlank c = false := by
  intro c hc
  cases hchars : lit.toList with
  | nil =>
    rw [hchars] at hlit
    exact absurd hlit (by simp)
  | cons first tail =>
    rw [hchars] at hlit hc
    obtain rfl := Option.some.inj hc
    simpa using hlit

theorem skip?_skipBlanks_append {gap : List Char} (hgap : AllBlank gap) {lit : String}
    (hlit : lit.toList.head?.any (!isBlank ·) = true) (rest : List Char) :
    skip? lit (skipBlanks (gap ++ (lit.toList ++ rest))) = some rest := by
  rw [skipBlanks_append hgap (head?_append_of_shows hlit rest), skip?_append]

theorem someBlanks?_append_text {gap : List Char} (hgap : IsSpace gap) {lit : String}
    (hlit : lit.toList.head?.any (!isBlank ·) = true) (rest : List Char) :
    someBlanks? (gap ++ (lit.toList ++ rest)) = some (lit.toList ++ rest) :=
  someBlanks?_append hgap (head?_append_of_shows hlit rest)

theorem someBlanks?_append_word {gap word : List Char} (hgap : IsSpace gap) (hword : IsWord word)
    (rest : List Char) : someBlanks? (gap ++ (word ++ rest)) = some (word ++ rest) :=
  someBlanks?_append hgap fun _ => hword.isBlank_head? rest

/-- A fixed text after white space, which may be missing. -/
theorem exists_of_skip?_skipBlanks {lit : String} {cs rest : List Char}
    (h : skip? lit (skipBlanks cs) = some rest) :
    ∃ gap, AllBlank gap ∧ cs = gap ++ (lit.toList ++ rest) := by
  obtain ⟨gap, hgap, hcs⟩ := exists_blanks_append_skipBlanks cs
  rw [skip?_eq_some_iff.1 h] at hcs
  exact ⟨gap, hgap, hcs⟩

theorem exists_of_word?_skipBlanks {cs word rest : List Char}
    (h : word? (skipBlanks cs) = some (word, rest)) :
    ∃ gap, AllBlank gap ∧ cs = gap ++ (word ++ rest) ∧ IsWord word ∧ atWordEnd rest = true := by
  obtain ⟨gap, hgap, hcs⟩ := exists_blanks_append_skipBlanks cs
  obtain ⟨hword, h⟩ := exists_of_word? h
  rw [hword] at hcs
  exact ⟨gap, hgap, hcs, h⟩

/-- What stands in front of the first `stop`, if there is one. -/
theorem takeWhile_ne_eq_iff {stop : Char} {cs inner : List Char} :
    cs.dropWhile (· != stop) ≠ [] ∧ cs.takeWhile (· != stop) = inner ↔
      stop ∉ inner ∧ ∃ rest, cs = inner ++ stop :: rest := by
  constructor
  · rintro ⟨hne, rfl⟩
    refine ⟨fun hmem => ?_, ?_⟩
    · simpa using List.all_eq_true.1 List.all_takeWhile _ hmem
    · obtain ⟨c, rest, hrest⟩ := List.exists_cons_of_ne_nil hne
      have hstop := List.head?_dropWhile_not (· != stop) cs
      rw [hrest] at hstop
      obtain rfl : c = stop := by simpa using hstop
      exact ⟨rest, by rw [← hrest, List.takeWhile_append_dropWhile]⟩
  · rintro ⟨hstop, rest, rfl⟩
    have hinner : ∀ c ∈ inner, (c != stop) = true := fun c hc =>
      bne_iff_ne.2 fun heq => hstop (heq ▸ hc)
    rw [List.dropWhile_append_of_pos hinner, List.takeWhile_append_of_pos hinner,
      List.dropWhile_cons_of_neg (by simp), List.takeWhile_cons_of_neg (by simp), List.append_nil]
    exact ⟨by simp, rfl⟩

/-! ## Descriptions -/

/-- What stands between the name of a description and its literal, and the literal, which holds no
quote. -/
def IsValue (literal text : List Char) : Prop :=
  '"' ∉ literal ∧ ∃ gap gap', AllBlank gap ∧ AllBlank gap'
    ∧ text = gap ++ ("=".toList ++ (gap' ++ ("\"".toList ++ (literal ++ ['"']))))

/-- A word with space behind it, or nothing. -/
def IsType (type : List Char) : Prop :=
  type = [] ∨ ∃ word gap, type = word ++ gap ∧ IsWord word ∧ IsSpace gap

/-- A word that ends in the right way. -/
def IsDescriptionName (name : List Char) : Prop :=
  IsWord name ∧ ("Description".toList <:+ name ∨ "description".toList <:+ name)

/-- The text of a description. -/
def IsDescription (literal text : List Char) : Prop :=
  ∃ gap gap' type name value, IsSpace gap ∧ IsSpace gap' ∧ IsType type ∧ IsDescriptionName name
    ∧ IsValue literal value
    ∧ text = "static".toList ++ (gap ++ ("immutable".toList ++ (gap' ++ (type ++ (name ++ value)))))

theorem namesDescription_iff {word : List Char} :
    namesDescription word = true ↔
      "Description".toList <:+ word ∨ "description".toList <:+ word := by
  rw [namesDescription, Bool.or_eq_true, List.isSuffixOf_iff_suffix, List.isSuffixOf_iff_suffix]

theorem descriptionValue?_eq_some_iff {name cs literal : List Char} :
    descriptionValue? name cs = some literal ↔
      namesDescription name = true ∧ ∃ value rest, IsValue literal value ∧ cs = value ++ rest := by
  constructor
  · intro h
    rw [descriptionValue?] at h
    split at h
    · exact absurd h (by simp)
    · rename_i hname
      simp only [Option.bind_eq_bind, Option.bind_eq_some_iff] at h
      obtain ⟨cs₁, hequals, cs₂, hquote, h⟩ := h
      obtain ⟨gap, hgap, rfl⟩ := exists_of_skip?_skipBlanks hequals
      obtain ⟨gap', hgap', rfl⟩ := exists_of_skip?_skipBlanks hquote
      split at h
      · exact absurd h (by simp)
      · rename_i hclosed
        obtain ⟨hliteral, rest, rfl⟩ := takeWhile_ne_eq_iff.1 ⟨hclosed, Option.some.inj h⟩
        exact ⟨by simpa using hname, _, rest, ⟨hliteral, gap, gap', hgap, hgap', rfl⟩, by simp⟩
  · rintro ⟨hname, _, rest, ⟨hliteral, gap, gap', hgap, hgap', rfl⟩, rfl⟩
    have hequals : skip? "=" (skipBlanks (gap ++ ("=".toList ++ (gap' ++ ("\"".toList
        ++ (literal ++ '"' :: rest))))))
          = some (gap' ++ ("\"".toList ++ (literal ++ '"' :: rest))) :=
      skip?_skipBlanks_append hgap (by decide) _
    have hquote : skip? "\"" (skipBlanks (gap' ++ ("\"".toList ++ (literal ++ '"' :: rest))))
        = some (literal ++ '"' :: rest) :=
      skip?_skipBlanks_append hgap' (by decide) _
    -- The literal is closed, which decides the last match.
    obtain ⟨hclosed, htake⟩ := takeWhile_ne_eq_iff.2 ⟨hliteral, rest, rfl⟩
    simp only [List.append_assoc, List.singleton_append, descriptionValue?, hname, Bool.not_true,
      Bool.false_eq_true, if_false, Option.bind_eq_bind, hequals, hquote, Option.bind_some, htake]

/-- What a description gives its name starts with no word. -/
theorem IsValue.word?_skipBlanks {literal value : List Char} (h : IsValue literal value)
    (rest : List Char) : word? (skipBlanks (value ++ rest)) = none := by
  obtain ⟨-, gap, gap', hgap, -, rfl⟩ := h
  rw [List.append_assoc, List.append_assoc,
    skipBlanks_append hgap (head?_append_of_shows (by decide) _), word?,
    show "=".toList = ['='] from rfl, List.singleton_append,
    List.takeWhile_cons_of_neg (by decide)]

theorem IsValue.atWordEnd {literal value : List Char} (h : IsValue literal value)
    (rest : List Char) : atWordEnd (value ++ rest) = true := by
  obtain ⟨-, gap, gap', hgap, -, rfl⟩ := h
  rw [List.append_assoc]
  exact atWordEnd_blanks_append hgap (show (!isWordChar '=') = true by decide)

/-- **A description is read where one is written.** A type is told from the name by the word behind
it. -/
theorem descriptionAt?_eq_some_iff {cs literal : List Char} :
    descriptionAt? cs = some literal ↔
      ∃ text rest, IsDescription literal text ∧ cs = text ++ rest := by
  constructor
  · intro h
    simp only [descriptionAt?, Option.bind_eq_bind, Option.bind_eq_some_iff] at h
    obtain ⟨cs₁, hstatic, cs₂, hblanks, cs₃, himmutable, cs₄, hblanks', ⟨first, cs₅⟩, hword, h⟩ := h
    obtain ⟨gap, hgap, rfl⟩ := exists_of_someBlanks? hblanks
    obtain ⟨gap', hgap', rfl⟩ := exists_of_someBlanks? hblanks'
    obtain ⟨rfl, hfirst, hend⟩ := exists_of_word? hword
    rw [skip?_eq_some_iff.1 hstatic, skip?_eq_some_iff.1 himmutable]
    cases hword' : word? (skipBlanks cs₅) with
    | some found =>
      obtain ⟨second, cs₆⟩ := found
      rw [hword'] at h
      obtain ⟨space, hspace, rfl, hsecond, -⟩ := exists_of_word?_skipBlanks hword'
      obtain ⟨hname, value, rest, hvalue, rfl⟩ := descriptionValue?_eq_some_iff.1 h
      -- Something parts the two words.
      have hne : space ≠ [] := by
        rintro rfl
        obtain ⟨c, tail, rfl⟩ := List.exists_cons_of_ne_nil hsecond.1
        rw [List.nil_append, List.cons_append, atWordEnd, hsecond.2 c List.mem_cons_self] at hend
        exact absurd hend (by decide)
      exact ⟨_, rest, ⟨gap, gap', first ++ space, second, value, hgap, hgap',
        .inr ⟨first, space, rfl, hfirst, hne, hspace⟩, ⟨hsecond, namesDescription_iff.1 hname⟩,
        hvalue, rfl⟩, by simp only [List.append_assoc]⟩
    | none =>
      rw [hword'] at h
      obtain ⟨hname, value, rest, hvalue, rfl⟩ := descriptionValue?_eq_some_iff.1 h
      exact ⟨_, rest, ⟨gap, gap', [], first, value, hgap, hgap', .inl rfl,
        ⟨hfirst, namesDescription_iff.1 hname⟩, hvalue, rfl⟩,
        by simp only [List.append_assoc, List.nil_append]⟩
  · rintro ⟨_, rest, ⟨gap, gap', type, name, value, hgap, hgap', htype, ⟨hname, hnames⟩, hvalue,
      rfl⟩, rfl⟩
    have hread : descriptionValue? name (value ++ rest) = some literal :=
      descriptionValue?_eq_some_iff.2 ⟨namesDescription_iff.2 hnames, value, rest, hvalue, rfl⟩
    have hword : word? (name ++ (value ++ rest)) = some (name, value ++ rest) :=
      word?_append hname (hvalue.atWordEnd rest)
    have himmutable : ∀ tail, someBlanks? (gap ++ ("immutable".toList ++ tail))
        = some ("immutable".toList ++ tail) := fun tail =>
      someBlanks?_append_text hgap (by decide) tail
    simp only [List.append_assoc, descriptionAt?, Option.bind_eq_bind, skip?_append,
      Option.bind_some, himmutable]
    rcases htype with rfl | ⟨word, space, rfl, hfirst, hspace⟩
    · simp only [List.nil_append, someBlanks?_append_word hgap' hname, Option.bind_some, hword,
        hvalue.word?_skipBlanks, hread]
    · have hfirst' : word? (word ++ (space ++ (name ++ (value ++ rest))))
          = some (word, space ++ (name ++ (value ++ rest))) :=
        word?_append hfirst (hspace.atWordEnd _)
      have hsecond : skipBlanks (space ++ (name ++ (value ++ rest))) = name ++ (value ++ rest) :=
        skipBlanks_append hspace.2 fun _ => hname.isBlank_head? _
      simp only [List.append_assoc, someBlanks?_append_word hgap' hfirst, Option.bind_some, hfirst',
        hsecond, hword, hread]

/-! ## Lists of types -/

/-- The text of a loop over a list of types, up to the parenthesis that ends the list. -/
def IsTypeList (entries text : List Char) : Prop :=
  entries ≠ [] ∧ ')' ∉ entries ∧ ∃ gap₁ gap₂ gap₃ gap₄ gap₅,
    IsSpace gap₁ ∧ AllBlank gap₂ ∧ AllBlank gap₃ ∧ AllBlank gap₄ ∧ AllBlank gap₅
    ∧ text = "static".toList ++ (gap₁ ++ ("foreach".toList ++ (gap₂ ++ ("(".toList ++ (gap₃
      ++ ("Type".toList ++ (gap₄ ++ (";".toList ++ (gap₅ ++ ("AliasSeq!(".toList
        ++ (entries ++ [')'])))))))))))

/-- **A list of types is read where one is written.** -/
theorem typeListAt?_eq_some_iff {cs entries : List Char} :
    typeListAt? cs = some entries ↔
      ∃ text rest, IsTypeList entries text ∧ cs = text ++ rest := by
  constructor
  · intro h
    simp only [typeListAt?, Option.bind_eq_bind, Option.bind_eq_some_iff] at h
    obtain ⟨cs₁, hstatic, cs₂, hblanks, cs₃, hforeach, cs₄, hparen, cs₅, htype, cs₆, hsemicolon,
      cs₇, hopen, h⟩ := h
    obtain ⟨gap₁, hgap₁, rfl⟩ := exists_of_someBlanks? hblanks
    obtain ⟨gap₂, hgap₂, rfl⟩ := exists_of_skip?_skipBlanks hparen
    obtain ⟨gap₃, hgap₃, rfl⟩ := exists_of_skip?_skipBlanks htype
    obtain ⟨gap₄, hgap₄, rfl⟩ := exists_of_skip?_skipBlanks hsemicolon
    obtain ⟨gap₅, hgap₅, rfl⟩ := exists_of_skip?_skipBlanks hopen
    split at h
    · exact absurd h (by simp)
    · exact absurd h (by simp)
    · rename_i hne hclosed
      obtain ⟨hinside, rest, rfl⟩ := takeWhile_ne_eq_iff.1 ⟨hclosed, Option.some.inj h⟩
      rw [skip?_eq_some_iff.1 hstatic, skip?_eq_some_iff.1 hforeach]
      exact ⟨_, rest, ⟨Option.some.inj h ▸ hne, hinside, gap₁, gap₂, gap₃, gap₄, gap₅, hgap₁, hgap₂,
        hgap₃, hgap₄, hgap₅, rfl⟩, by simp⟩
  · rintro ⟨_, rest, ⟨hne, hinside, gap₁, gap₂, gap₃, gap₄, gap₅, hgap₁, hgap₂, hgap₃, hgap₄, hgap₅,
      rfl⟩, rfl⟩
    obtain ⟨hclosed, htake⟩ := takeWhile_ne_eq_iff.2 ⟨hinside, rest, rfl⟩
    have hforeach : ∀ tail, someBlanks? (gap₁ ++ ("foreach".toList ++ tail))
        = some ("foreach".toList ++ tail) := fun tail =>
      someBlanks?_append_text hgap₁ (by decide) tail
    have hopening : ∀ tail, skip? "(" (skipBlanks (gap₂ ++ ("(".toList ++ tail))) = some tail :=
      fun tail => skip?_skipBlanks_append hgap₂ (by decide) tail
    have htype : ∀ tail, skip? "Type" (skipBlanks (gap₃ ++ ("Type".toList ++ tail))) = some tail :=
      fun tail => skip?_skipBlanks_append hgap₃ (by decide) tail
    have hsemicolon : ∀ tail, skip? ";" (skipBlanks (gap₄ ++ (";".toList ++ tail))) = some tail :=
      fun tail => skip?_skipBlanks_append hgap₄ (by decide) tail
    have hlist : ∀ tail,
        skip? "AliasSeq!(" (skipBlanks (gap₅ ++ ("AliasSeq!(".toList ++ tail))) = some tail :=
      fun tail => skip?_skipBlanks_append hgap₅ (by decide) tail
    simp only [List.append_assoc, List.singleton_append, typeListAt?, Option.bind_eq_bind,
      skip?_append, Option.bind_some, hforeach, hopening, htype, hsemicolon, hlist, htake]

/-! ## Aliases -/

/-- The text of an alias with this name, up to its target. -/
def IsAlias (name text : List Char) : Prop :=
  IsWord name ∧ ∃ gap₁ gap₂ gap₃, IsSpace gap₁ ∧ AllBlank gap₂ ∧ AllBlank gap₃
    ∧ text = "alias".toList ++ (gap₁ ++ (name ++ (gap₂ ++ ("=".toList ++ gap₃))))

/-- **An alias is read where one is written**, with a word behind it as its target. -/
theorem aliasAt?_eq_some_iff {cs name target rest : List Char} :
    aliasAt? cs = some ((name, target), rest) ↔
      ∃ text, IsAlias name text ∧ IsWord target ∧ atWordEnd rest = true
        ∧ cs = text ++ (target ++ rest) := by
  constructor
  · intro h
    simp only [aliasAt?, Option.bind_eq_bind, Option.bind_eq_some_iff, Prod.exists,
      Option.some.injEq, Prod.mk.injEq] at h
    obtain ⟨cs₁, halias, cs₂, hblanks, word, cs₃, hword, cs₄, hequals, word', cs₅, hword',
      ⟨rfl, rfl⟩, rfl⟩ := h
    obtain ⟨gap₁, hgap₁, rfl⟩ := exists_of_someBlanks? hblanks
    obtain ⟨rfl, hname, -⟩ := exists_of_word? hword
    obtain ⟨gap₂, hgap₂, rfl⟩ := exists_of_skip?_skipBlanks hequals
    obtain ⟨gap₃, hgap₃, rfl, htarget, hend⟩ := exists_of_word?_skipBlanks hword'
    exact ⟨_, ⟨hname, gap₁, gap₂, gap₃, hgap₁, hgap₂, hgap₃, rfl⟩, htarget, hend,
      by rw [skip?_eq_some_iff.1 halias]; simp⟩
  · rintro ⟨_, ⟨hname, gap₁, gap₂, gap₃, hgap₁, hgap₂, hgap₃, rfl⟩, htarget, hend, rfl⟩
    have hword : ∀ tail, word? (name ++ (gap₂ ++ ("=".toList ++ tail)))
        = some (name, gap₂ ++ ("=".toList ++ tail)) := fun tail =>
      word?_append hname (atWordEnd_blanks_append hgap₂ (show (!isWordChar '=') = true by decide))
    have hequals : ∀ tail, skip? "=" (skipBlanks (gap₂ ++ ("=".toList ++ tail))) = some tail :=
      fun tail => skip?_skipBlanks_append hgap₂ (by decide) tail
    have hblanks : skipBlanks (gap₃ ++ (target ++ rest)) = target ++ rest :=
      skipBlanks_append hgap₃ fun _ => htarget.isBlank_head? rest
    simp only [List.append_assoc, aliasAt?, Option.bind_eq_bind, skip?_append, Option.bind_some,
      someBlanks?_append_word hgap₁ hname, hword, hequals, hblanks, word?_append htarget hend]

end Source
end RefPages
