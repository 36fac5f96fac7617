import RefPages.Proofs.Extractor
import RefPages.Proofs.FrontMatter

/-!
# The headings of a page

Texts from a source file are put on a page as they are, so a page can have more headings than it was
given: a line of a text may start with a hash sign, and a line of backticks may end a block of code
before its time. Whoever reads the page line by line cannot tell such a line from one of the page's
own.

* `Outline.headings` are the lines that start with a hash sign outside of blocks of code, and
  `Outline.fenceAfter` says whether the reader is left inside of one.
* `Outline.Excerpt` is a text that is taken over from a source file.
* `Outline.Reads` is what the reader makes of some texts of a page if the excerpts among them leave
  fences alone: the page's own headings, exactly if the excerpts have none. `Outline.Shows` adds
  where a heading can come from in any case. Both are put together text by text.
* `Document.ownHeadings` and `Document.excerpts` are the headings that a page gives itself and what
  it takes over.
* `Document.page_headings`: **the headings of a page are its own exactly if nothing it takes over
  has one.**
-/

set_option autoImplicit false
namespace RefPages

open Text

/-! ## Reading headings -/

namespace Outline

/-- The lines of a text. -/
def rows (s : String) : List (List Char) :=
  splitOn '\n' s.toList

/-- Is the reader inside of a block of code after this line? -/
def fenceStep (inside : Bool) (row : List Char) : Bool :=
  if inside then !"```".toList.isPrefixOf row else row = "```d".toList

/-- Is the reader inside of a block of code after these lines? -/
def fenceAfter (inside : Bool) (rows : List (List Char)) : Bool :=
  rows.foldl fenceStep inside

/-- The lines that start with a hash sign outside of blocks of code. -/
def headings (inside : Bool) : List (List Char) → List (List Char)
  | [] => []
  | row :: rest =>
    let further := headings (fenceStep inside row) rest
    if !inside && row.head? = some '#' then row :: further else further

/-- The lines of a page below its front matter. -/
def rowsBelowFrontMatter (page : String) : List (List Char) :=
  (((rows page).drop 1).dropWhile (· ≠ "---".toList)).drop 1

@[simp] theorem fenceAfter_append (inside : Bool) (xs ys : List (List Char)) :
    fenceAfter inside (xs ++ ys) = fenceAfter (fenceAfter inside xs) ys :=
  List.foldl_append

@[simp] theorem headings_append (inside : Bool) (xs ys : List (List Char)) :
    headings inside (xs ++ ys) = headings inside xs ++ headings (fenceAfter inside xs) ys := by
  induction xs generalizing inside with
  | nil => rfl
  | cons row rest ih =>
    rw [List.cons_append, headings, headings, ih]
    split <;> rfl

theorem mem_of_mem_headings {inside : Bool} {rows : List (List Char)} {row : List Char}
    (h : row ∈ headings inside rows) : row ∈ rows ∧ row.head? = some '#' := by
  induction rows generalizing inside with
  | nil => exact absurd h (by simp [headings])
  | cons first rest ih =>
    have hrest : ∀ {inside : Bool}, row ∈ headings inside rest →
        row ∈ first :: rest ∧ row.head? = some '#' :=
      fun h => ⟨List.mem_cons_of_mem _ (ih h).1, (ih h).2⟩
    rw [headings] at h
    split at h
    · rename_i hfirst
      rcases List.mem_cons.1 h with rfl | h
      · rw [Bool.and_eq_true, decide_eq_true_eq] at hfirst
        exact ⟨List.mem_cons_self, hfirst.2⟩
      · exact hrest h
    · exact hrest h

/-! ## Excerpts -/

/-- A text that is taken over from a source file, and whether it stands in a block of code. -/
structure Excerpt where
  inCode : Bool
  text : String
  deriving DecidableEq, Repr

/-- Does the text leave the reader inside or outside of a block of code as he was? -/
def Excerpt.KeepsFence (e : Excerpt) : Prop :=
  fenceAfter e.inCode (rows e.text) = e.inCode

/-- Has the text no heading, read where it stands? -/
def Excerpt.NoHeading (e : Excerpt) : Prop :=
  headings e.inCode (rows e.text) = []

instance (e : Excerpt) : Decidable e.KeepsFence :=
  inferInstanceAs (Decidable (_ = _))

instance (e : Excerpt) : Decidable e.NoHeading :=
  inferInstanceAs (Decidable (_ = _))

/-! ## What the reader makes of some texts -/

/-- Read one after the other, the texts leave the reader inside or outside of a block of code as he
was, and their headings are the page's own exactly if the excerpts among them have none. -/
structure Reads (inside : Bool) (texts own : List String) (excerpts : List Excerpt) : Prop where
  fence : fenceAfter inside (texts.flatMap rows) = inside
  /-- Own headings are read in any case. -/
  length_le : own.length ≤ (headings inside (texts.flatMap rows)).length
  headings_iff :
    headings inside (texts.flatMap rows) = own.map String.toList ↔ ∀ e ∈ excerpts, e.NoHeading

variable {inside : Bool} {texts texts' own own' : List String} {excerpts excerpts' : List Excerpt}

theorem Reads.append (h : Reads inside texts own excerpts)
    (h' : Reads inside texts' own' excerpts') :
    Reads inside (texts ++ texts') (own ++ own') (excerpts ++ excerpts') := by
  have hall : headings inside ((texts ++ texts').flatMap rows)
      = headings inside (texts.flatMap rows) ++ headings inside (texts'.flatMap rows) := by
    rw [List.flatMap_append, headings_append, h.fence]
  refine ⟨?_, ?_, ?_⟩
  · rw [List.flatMap_append, fenceAfter_append, h.fence, h'.fence]
  · rw [hall, List.length_append, List.length_append]
    exact Nat.add_le_add h.length_le h'.length_le
  · -- Each part has room for its own headings, so the two lists can only agree part by part.
    rw [hall, List.map_append, List.forall_mem_append, ← h.headings_iff, ← h'.headings_iff]
    constructor
    · intro heq
      have hle := h.length_le
      have hle' := h'.length_le
      have hlength := congrArg List.length heq
      simp only [List.length_append, List.length_map] at hlength
      exact List.append_inj heq (by rw [List.length_map]; omega)
    · rintro ⟨heq, heq'⟩
      rw [heq, heq']

theorem flatMap_codeBlock (texts : List String) :
    (ExampleGroup.codeBlock texts).flatMap rows
      = ["```d".toList] ++ texts.flatMap rows ++ ["```".toList, []] := by
  rw [ExampleGroup.codeBlock, List.flatMap_append, List.flatMap_append]
  rfl

/-- A block of code is read inside of its fence. -/
theorem Reads.codeBlock (h : Reads true texts [] excerpts) :
    Reads false (ExampleGroup.codeBlock texts) [] excerpts := by
  have hopen : fenceAfter false ["```d".toList] = true := by decide
  refine ⟨?_, Nat.zero_le _, ?_⟩
  · rw [flatMap_codeBlock, fenceAfter_append, fenceAfter_append, hopen, h.fence]
    decide
  · have hends : headings false ["```d".toList] = [] ∧ headings true ["```".toList, []] = [] := by
      decide
    rw [flatMap_codeBlock, headings_append, headings_append, fenceAfter_append, hopen, h.fence,
      hends.1, hends.2, List.nil_append, List.append_nil]
    exact h.headings_iff

/-- A line that starts with a hash sign is one of an own heading or of an excerpt. If own headings
are on one line each and excerpts leave fences alone, the reader finds the own ones. -/
structure Shows (inside : Bool) (texts own : List String) (excerpts : List Excerpt) : Prop where
  source : ∀ row ∈ texts.flatMap rows, row.head? = some '#' →
    row ∈ own.flatMap rows ∨ row ∈ excerpts.flatMap (rows ·.text)
  reads : (∀ s ∈ own, '\n' ∉ s.toList) → (∀ e ∈ excerpts, e.KeepsFence) →
    Reads inside texts own excerpts

namespace Shows

/-- Texts of the page itself, among them own headings. -/
theorem of_fixed
    (hsource : ∀ row ∈ texts.flatMap rows, row.head? = some '#' → row ∈ own.flatMap rows)
    (hfence : fenceAfter inside (texts.flatMap rows) = inside)
    (hheadings : headings inside (texts.flatMap rows) = own.map String.toList) :
    Shows inside texts own [] where
  source row hrow hhash := .inl (hsource row hrow hhash)
  reads _ _ := ⟨hfence, by simp [hheadings], by simpa using hheadings⟩

theorem nil (inside : Bool) : Shows inside [] [] [] :=
  of_fixed (by simp) rfl rfl

theorem of_excerpt {s : String} : Shows inside [s] [] [⟨inside, s⟩] where
  source row hrow _ := .inr hrow
  reads _ hfence := by
    have hkeeps : fenceAfter inside (rows s) = inside := hfence _ List.mem_cons_self
    exact ⟨by simpa using hkeeps, Nat.zero_le _, by simp [Excerpt.NoHeading]⟩

theorem append (h : Shows inside texts own excerpts) (h' : Shows inside texts' own' excerpts') :
    Shows inside (texts ++ texts') (own ++ own') (excerpts ++ excerpts') where
  source row hrow hhash := by
    rw [List.flatMap_append, List.mem_append] at hrow
    rw [List.flatMap_append, List.mem_append, List.flatMap_append, List.mem_append, or_or_or_comm]
    exact hrow.imp (h.source row · hhash) (h'.source row · hhash)
  reads hown hfence := by
    rw [List.forall_mem_append] at hown hfence
    exact (h.reads hown.1 hfence.1).append (h'.reads hown.2 hfence.2)

/-- What is shown for every entry of a list is shown for all of them. -/
theorem flatMap {α : Type} {entries : List α} {f : α → List String} {g : α → List Excerpt}
    (h : ∀ entry ∈ entries, Shows inside (f entry) [] (g entry)) :
    Shows inside (entries.flatMap f) [] (entries.flatMap g) := by
  induction entries with
  | nil => exact nil inside
  | cons first rest ih =>
    have h := List.forall_mem_cons.1 h
    exact h.1.append (ih h.2)

theorem of_excerpts (texts : List String) :
    Shows inside texts [] (texts.map (⟨inside, ·⟩)) := by
  have hall : Shows inside (texts.flatMap ([·])) [] (texts.flatMap ([⟨inside, ·⟩])) :=
    flatMap fun s _ => of_excerpt
  rwa [List.flatMap_singleton', ← List.map_eq_flatMap] at hall

theorem codeBlock (h : Shows true texts [] excerpts) :
    Shows false (ExampleGroup.codeBlock texts) [] excerpts where
  source row hrow hhash := by
    rw [flatMap_codeBlock] at hrow
    simp only [List.mem_append, List.mem_cons, List.not_mem_nil, or_false] at hrow
    rcases hrow with (rfl | hrow) | rfl | rfl
    · exact absurd hhash (by decide)
    · exact h.source row hrow hhash
    · exact absurd hhash (by decide)
    · exact absurd hhash (by decide)
  reads hown hfence := (h.reads hown hfence).codeBlock

end Shows
end Outline

/-! ## The page's own headings, and what it takes over -/

namespace ExampleGroup

/-- All groups, in the order in which they are shown. -/
def all : List ExampleGroup :=
  [.basic, .negated, .failure]

/-- The heading of a group. -/
def title : ExampleGroup → String
  | .basic => "### Basic Usage"
  | .negated => "### With Negation"
  | .failure => "### What Failures Look Like"

/-- The code that is shown of a group. -/
def snippets (group : ExampleGroup) (examples : List Example) : List String :=
  ((group.members examples).take group.limit).map (·.code)

end ExampleGroup

namespace Document

open Outline

/-- The headings that the page gives itself. -/
def ownHeadings (doc : Document) : List String :=
  ["# ." ++ doc.displayName ++ "()"]
    ++ (if doc.examples.isEmpty then []
      else ["## Examples"] ++ ExampleGroup.all.flatMap fun group =>
        if (group.members doc.examples).isEmpty then [] else [group.title])
    ++ (if doc.supportedTypes.isEmpty then [] else ["## Supported Types"])
    ++ (if doc.aliases.isEmpty then [] else ["## Aliases"])
    ++ (if doc.negatable then ["## Modifiers"] else [])

/-- The texts below the title of the page. -/
def paragraphs (doc : Document) : List String :=
  (nonEmpty? doc.description?).toList
    ++ ((nonEmpty? doc.narrative?).filter (doc.description? ≠ some ·)).toList

/-- What the page takes over: the texts below the title, the code of the examples, and the lines
with the types. -/
def excerpts (doc : Document) : List Excerpt :=
  doc.paragraphs.map (⟨false, ·⟩)
    ++ (ExampleGroup.all.flatMap (·.snippets doc.examples)).map (⟨true, ·⟩)
    ++ (doc.supportedTypes.map fun t => "- `" ++ t ++ "`").map (⟨false, ·⟩)

/-- Apart from the title, own headings are on one line in any case. -/
theorem not_mem_ownHeadings {doc : Document} (h : '\n' ∉ doc.displayName.toList) :
    ∀ s ∈ doc.ownHeadings, '\n' ∉ s.toList := by
  have hgroup : ∀ group : ExampleGroup, ∀ s ∈ (if (group.members doc.examples).isEmpty then []
      else [group.title]), '\n' ∉ s.toList := by
    intro group
    split
    · decide
    · cases group <;> decide
  simp only [ownHeadings, List.forall_mem_append]
  refine ⟨⟨⟨⟨by simp [h], ?_⟩, ?_⟩, ?_⟩, ?_⟩
  · split
    · decide
    · rw [List.forall_mem_append, List.forall_mem_flatMap]
      exact ⟨by decide, fun group _ => hgroup group⟩
  all_goals split <;> decide

/-! ## Section by section -/

theorem shows_empty : Shows false [""] [] [] :=
  Shows.of_fixed (by decide) (by decide) (by decide)

theorem introduction_eq (doc : Document) :
    doc.introduction = ["# ." ++ doc.displayName ++ "()", ""]
      ++ doc.paragraphs.flatMap (fun s => [s, ""]) := by
  rw [introduction, paragraphs, List.flatMap_append, List.append_assoc]
  congr 2
  · cases nonEmpty? doc.description? <;> rfl
  · cases nonEmpty? doc.narrative? with
    | none => rfl
    | some text => by_cases h : doc.description? = some text <;> simp [Option.filter, h]

/-- A title counts as an own heading even if it is on several lines; it is read as one if not. -/
theorem shows_title (name : String) :
    Shows false ["# ." ++ name ++ "()"] ["# ." ++ name ++ "()"] [] where
  source row hrow _ := .inl hrow
  reads hown _ := by
    have hrows : rows ("# ." ++ name ++ "()") = [("# ." ++ name ++ "()").toList] :=
      splitOn_eq_self (hown _ List.mem_cons_self)
    constructor <;> simp [hrows, fenceAfter, fenceStep, headings]

theorem shows_introduction (doc : Document) :
    Shows false doc.introduction ["# ." ++ doc.displayName ++ "()"]
      (doc.paragraphs.map (⟨false, ·⟩)) := by
  have hparagraphs : Shows false (doc.paragraphs.flatMap fun s => [s, ""]) []
      (doc.paragraphs.flatMap ([⟨false, ·⟩])) :=
    Shows.flatMap fun s _ => Shows.of_excerpt.append shows_empty
  rw [introduction_eq, List.map_eq_flatMap]
  exact ((shows_title doc.displayName).append shows_empty).append hparagraphs

theorem shows_group (group : ExampleGroup) (examples : List Example) :
    Shows false (group.lines examples)
      (if (group.members examples).isEmpty then [] else [group.title])
      ((group.snippets examples).map (⟨true, ·⟩)) := by
  have hpreamble : Shows true group.preamble [] [] := by
    cases group <;> exact Shows.of_fixed (by decide) (by decide) (by decide)
  have hheading : Shows false group.heading [group.title] [] := by
    cases group <;> exact Shows.of_fixed (by decide) (by decide) (by decide)
  rw [ExampleGroup.lines, ExampleGroup.snippets]
  cases group.members examples with
  | nil =>
    rw [List.take_nil]
    exact Shows.nil false
  | cons first rest =>
    exact hheading.append (hpreamble.append (Shows.of_excerpts _)).codeBlock

theorem shows_exampleLines (doc : Document) :
    Shows false doc.exampleLines
      (if doc.examples.isEmpty then []
      else ["## Examples"] ++ ExampleGroup.all.flatMap fun group =>
        if (group.members doc.examples).isEmpty then [] else [group.title])
      ((ExampleGroup.all.flatMap (·.snippets doc.examples)).map (⟨true, ·⟩)) := by
  rw [exampleLines]
  split
  · rename_i hempty
    rw [List.isEmpty_iff.1 hempty]
    exact Shows.nil false
  · have hheading : Shows false ["## Examples", ""] ["## Examples"] [] :=
      Shows.of_fixed (by decide) (by decide) (by decide)
    have hall := ((hheading.append (shows_group .basic doc.examples)).append
      (shows_group .negated doc.examples)).append (shows_group .failure doc.examples)
    simpa [ExampleGroup.all] using hall

/-- A section that lists something under a heading. -/
theorem shows_list {heading : String} (hheading : Shows false [heading, ""] [heading] [])
    {entries : List String} {line : String → String} {excerpts : List Excerpt}
    (h : Shows false (entries.map line) [] excerpts) :
    Shows false (if entries.isEmpty then [] else [heading, ""] ++ entries.map line ++ [""])
      (if entries.isEmpty then [] else [heading]) excerpts := by
  cases entries with
  | nil => exact h
  | cons first rest =>
    have hall := (hheading.append h).append shows_empty
    rwa [List.append_nil, List.append_nil, List.nil_append, List.append_nil] at hall

theorem shows_typeLines (doc : Document) :
    Shows false doc.typeLines (if doc.supportedTypes.isEmpty then [] else ["## Supported Types"])
      ((doc.supportedTypes.map fun t => "- `" ++ t ++ "`").map (⟨false, ·⟩)) :=
  shows_list (Shows.of_fixed (by decide) (by decide) (by decide)) (Shows.of_excerpts _)

/-- Other names are words, so none of them reaches into a second line. -/
theorem not_mem_of_mem_aliases {categories : CategoryMap} {file : SourceFile}
    {extractors : List Extractor} {doc : Document}
    (h : ofFacts? categories file.path (file.facts extractors) = .ok (some doc)) {s : String}
    (hs : s ∈ doc.aliases) : '\n' ∉ s.toList := by
  obtain rfl := eq_ofKinds_of_ofFacts? h
  obtain ⟨value, hvalue, rfl⟩ := List.mem_map.1 (List.mem_filter.1 (mem_textsOnce.1 hs).1).1
  obtain ⟨name, hname, rfl⟩ := Extractor.exists_text_of_mem_valuesOfKind hvalue
  obtain ⟨_, _, hword⟩ := Source.exists_word_of_mem_aliases hname
  intro hfeed
  exact absurd (Source.isWordChar_of_word? hword _ hfeed) (by decide)

theorem shows_aliasLines {doc : Document} (h : ∀ s ∈ doc.aliases, '\n' ∉ s.toList) :
    Shows false doc.aliasLines (if doc.aliases.isEmpty then [] else ["## Aliases"]) [] := by
  have hline : ∀ s ∈ doc.aliases, Shows false ["- `." ++ s ++ "()`"] [] [] := by
    intro s hs
    have hrows : rows ("- `." ++ s ++ "()`") = [("- `." ++ s ++ "()`").toList] :=
      splitOn_eq_self (by simp [h s hs])
    refine Shows.of_fixed ?_ ?_ ?_ <;> simp [hrows, fenceAfter, fenceStep, headings]
  have hall := Shows.flatMap hline
  rw [← List.map_eq_flatMap, List.flatMap_eq_nil_iff.2 fun _ _ => rfl] at hall
  exact shows_list (Shows.of_fixed (by decide) (by decide) (by decide)) hall

theorem shows_modifierLines (doc : Document) :
    Shows false doc.modifierLines (if doc.negatable then ["## Modifiers"] else []) [] := by
  rw [modifierLines]
  cases doc.negatable with
  | false => exact Shows.nil false
  | true => exact Shows.of_fixed (by decide +kernel) (by decide +kernel) (by decide +kernel)

theorem shows_bodyLines {doc : Document} (h : ∀ s ∈ doc.aliases, '\n' ∉ s.toList) :
    Shows false doc.bodyLines doc.ownHeadings doc.excerpts := by
  have hall := ((((shows_empty.append (shows_introduction doc)).append
    (shows_exampleLines doc)).append (shows_typeLines doc)).append
    (shows_aliasLines h)).append (shows_modifierLines doc)
  rwa [List.append_nil, List.append_nil] at hall

/-! ## The page -/

theorem rowsBelowFrontMatter_page (doc : Document) :
    rowsBelowFrontMatter doc.page = doc.bodyLines.flatMap rows := by
  have hpast : ∀ (block after : List (List Char)), "---".toList ∉ block →
      (block ++ "---".toList :: after).dropWhile (· ≠ "---".toList) = "---".toList :: after := by
    intro block after hblock
    rw [List.dropWhile_append_of_pos, List.dropWhile_cons_of_neg (by simp)]
    intro row hrow
    simpa using fun heq : row = "---".toList => hblock (heq ▸ hrow)
  rw [rowsBelowFrontMatter, rows, splitOn_page, List.cons_append, List.drop_succ_cons,
    List.drop_zero, hpast _ _ (not_mem_block doc), List.drop_succ_cons, List.drop_zero,
    splitOn_joinLines (by simp [bodyLines])]
  rfl

/-- **The headings of a page.** A heading on the page of a source file is a line of one of its own
headings or of a text that it takes over. If nothing that it takes over leaves the reader on the
other side of a fence, the headings are its own exactly if the name in its title is on one line and
nothing that it takes over has a heading. -/
theorem page_headings {categories : CategoryMap} {file : SourceFile} {extractors : List Extractor}
    {doc : Document}
    (h : ofFacts? categories file.path (file.facts extractors) = .ok (some doc)) :
    (∀ row ∈ headings false (rowsBelowFrontMatter doc.page),
        (∃ s ∈ doc.ownHeadings, row ∈ rows s) ∨ ∃ e ∈ doc.excerpts, row ∈ rows e.text)
      ∧ ((∀ e ∈ doc.excerpts, e.KeepsFence) →
        (headings false (rowsBelowFrontMatter doc.page) = doc.ownHeadings.map String.toList ↔
          '\n' ∉ doc.displayName.toList ∧ ∀ e ∈ doc.excerpts, e.NoHeading)) := by
  have hshows := shows_bodyLines fun s => not_mem_of_mem_aliases h
  rw [rowsBelowFrontMatter_page]
  refine ⟨fun row hrow => ?_, fun hfence => ?_⟩
  · obtain ⟨hmem, hhash⟩ := mem_of_mem_headings hrow
    exact (hshows.source row hmem hhash).imp List.mem_flatMap.1 List.mem_flatMap.1
  · by_cases hname : '\n' ∈ doc.displayName.toList
    · -- A line holds no line feed, but the page's first heading does.
      refine iff_of_false (fun heq => ?_) (fun hplain => hplain.1 hname)
      have htitle : ("# ." ++ doc.displayName ++ "()").toList ∈
          headings false (doc.bodyLines.flatMap rows) := by
        rw [heq]
        exact List.mem_map_of_mem (by simp [ownHeadings])
      obtain ⟨s, -, hrow⟩ := List.mem_flatMap.1 (mem_of_mem_headings htitle).1
      exact not_mem_of_mem_splitOn hrow (by simp [hname])
    · rw [and_iff_right hname]
      exact (hshows.reads (not_mem_ownHeadings hname) hfence).headings_iff

/-- A source file whose description has a second line, and an example a literal of several lines. -/
def fileWithLines (second third : String) : SourceFile where
  path := ⟨.here, ["operations", "equality", "equal.d"]⟩
  text := "static immutable equalDescription = \"Equal.\n" ++ second ++ "\";\n"
    ++ "@(\"equal\") unittest \x7b expect(\"\n" ++ third ++ "\").to.be; \x7d"

/-- The document of that file. -/
def documentWithLines (second third : String) : Document where
  name := "equal"
  path := ⟨.here, ["operations", "equality", "equal.d"]⟩
  description? := some ("Equal.\n" ++ second)
  examples := [⟨"equal", "expect(\"\n" ++ third ++ "\").to.be;", false, false⟩]
  category := "equality"

/-- A hash sign inside of a literal is no heading, nor is one inside of a line. -/
theorem page_headings_literal :
    ofFacts? {} (fileWithLines "Like #1." "# One").path
        ((fileWithLines "Like #1." "# One").facts Extractor.all)
        = .ok (some (documentWithLines "Like #1." "# One"))
      ∧ headings false (rowsBelowFrontMatter (documentWithLines "Like #1." "# One").page)
        = ["# .equal()", "## Examples", "### Basic Usage"].map String.toList := by
  have hdoc : ofFacts? {} (fileWithLines "Like #1." "# One").path
      ((fileWithLines "Like #1." "# One").facts Extractor.all)
      = .ok (some (documentWithLines "Like #1." "# One")) :=
    (ofFacts?_sourceFacts {} _ _ _).trans (congrArg _ (by decide +kernel))
  exact ⟨hdoc, ((page_headings hdoc).2 (by decide +kernel)).2 (by decide +kernel)⟩

/-- A line of the description, and one of the literal below a line of backticks, are headings. -/
theorem page_headings_foreign :
    ofFacts? {} (fileWithLines "# Extra" "```\n# More").path
        ((fileWithLines "# Extra" "```\n# More").facts Extractor.all)
        = .ok (some (documentWithLines "# Extra" "```\n# More"))
      ∧ headings false (rowsBelowFrontMatter (documentWithLines "# Extra" "```\n# More").page)
        = ["# .equal()", "# Extra", "## Examples", "### Basic Usage", "# More\").to.be;"].map
          String.toList
      ∧ headings false (rowsBelowFrontMatter (documentWithLines "# Extra" "```\n# More").page)
        ≠ (documentWithLines "# Extra" "```\n# More").ownHeadings.map String.toList := by
  have hread : headings false
      (rowsBelowFrontMatter (documentWithLines "# Extra" "```\n# More").page)
      = ["# .equal()", "# Extra", "## Examples", "### Basic Usage", "# More\").to.be;"].map
        String.toList := by decide +kernel
  have hdoc : ofFacts? {} (fileWithLines "# Extra" "```\n# More").path
      ((fileWithLines "# Extra" "```\n# More").facts Extractor.all)
      = .ok (some (documentWithLines "# Extra" "```\n# More")) :=
    (ofFacts?_sourceFacts {} _ _ _).trans (congrArg _ (by decide +kernel))
  refine ⟨hdoc, hread, ?_⟩
  rw [hread]
  decide

end Document
end RefPages
