import RefPages.Proofs.Outline

/-!
# Examples by groups

A page shows the first few examples of each group, in one block of code for each. Whether it tells
of modifiers is settled when the document is built, by all of the examples.

* `ExampleGroup.Takes` says which examples a group takes, and `ExampleGroup.block` what the page
  shows of them.
* `Further` puts examples of full groups into a list. `Further.lines_eq`: no group shows them.
* `page_eq_iff_of_further`: the page stays the same as long as the modifiers do.
* `page_examples`: **the examples on the page of a document.**
-/

set_option autoImplicit false
namespace RefPages

open Text

namespace ExampleGroup

/-! ## What a group shows -/

/-- The group takes the example: a failure is taken as one, whether it is negated or not. -/
def Takes : ExampleGroup → Example → Prop
  | .basic, e => e.failure = false ∧ e.negated = false
  | .negated, e => e.failure = false ∧ e.negated = true
  | .failure, e => e.failure = true

/-- The lines of a group's block of code. -/
def block : ExampleGroup → List Example → List String
  | .basic, examples => ((examples.filter fun e => !e.failure && !e.negated).take 3).map (·.code)
  | .negated, examples => ((examples.filter fun e => !e.failure && e.negated).take 2).map (·.code)
  | .failure, examples =>
    "// This would fail:" :: ((examples.filter (·.failure)).take 1).map (·.code)

theorem limit_pos (group : ExampleGroup) : 0 < group.limit := by
  cases group <;> decide

theorem ofExample_eq_iff {group : ExampleGroup} {e : Example} :
    ofExample e = group ↔ group.Takes e := by
  obtain ⟨label, code, negated, failure⟩ := e
  cases group <;> cases negated <;> cases failure <;> simp [ofExample, Takes]

theorem mem_members {group : ExampleGroup} {examples : List Example} {e : Example} :
    e ∈ group.members examples ↔ e ∈ examples ∧ group.Takes e := by
  rw [members, List.mem_filter, decide_eq_true_eq, ofExample_eq_iff]

theorem members_append (group : ExampleGroup) (xs ys : List Example) :
    group.members (xs ++ ys) = group.members xs ++ group.members ys :=
  List.filter_append ..

theorem members_cons_of_not_takes {group : ExampleGroup} {e : Example} (h : ¬ group.Takes e)
    (examples : List Example) : group.members (e :: examples) = group.members examples :=
  List.filter_cons_of_neg (by simpa [ofExample_eq_iff] using h)

theorem block_eq (group : ExampleGroup) (examples : List Example) :
    group.block examples = group.preamble ++ group.snippets examples := by
  have hfilter : ∀ p : Example → Bool, (∀ e, p e = true ↔ group.Takes e) →
      examples.filter p = group.members examples := by
    intro p hp
    refine List.filter_congr fun e _ => Bool.eq_iff_iff.2 ?_
    rw [hp, decide_eq_true_eq, ofExample_eq_iff]
  cases group with
  | basic =>
    rw [block, hfilter _ fun e => by simp [Takes]]
    rfl
  | negated =>
    rw [block, hfilter _ fun e => by simp [Takes]]
    rfl
  | failure =>
    rw [block, hfilter _ fun e => Iff.rfl]
    rfl

theorem lines_eq_nil_iff {group : ExampleGroup} {examples : List Example} :
    group.lines examples = [] ↔ ∀ e ∈ examples, ¬ group.Takes e := by
  have hmembers : group.members examples = [] ↔ ∀ e ∈ examples, ¬ group.Takes e := by
    simp [List.eq_nil_iff_forall_not_mem, mem_members]
  rw [← hmembers, lines]
  cases group.members examples with
  | nil => simp
  | cons first rest => simp [codeBlock]

/-- A group that takes an example shows its heading and one block of code. -/
theorem lines_of_takes {group : ExampleGroup} {examples : List Example} {e : Example}
    (he : e ∈ examples) (h : group.Takes e) :
    group.lines examples = group.heading ++ (["```d"] ++ group.block examples ++ ["```", ""]) := by
  obtain ⟨first, rest, hmembers⟩ := List.exists_cons_of_ne_nil
    (List.ne_nil_of_mem (mem_members.2 ⟨he, h⟩))
  rw [block_eq, snippets, lines, hmembers]
  rfl

/-- Only the members that are shown count. -/
theorem lines_congr {group : ExampleGroup} {xs ys : List Example}
    (h : (group.members xs).take group.limit = (group.members ys).take group.limit) :
    group.lines xs = group.lines ys := by
  have hpos := group.limit_pos
  rw [lines, lines]
  cases hxs : group.members xs with
  | nil =>
    rw [hxs, List.take_nil, eq_comm, List.take_eq_nil_iff] at h
    rw [h.resolve_left (by omega)]
  | cons x xs' =>
    cases hys : group.members ys with
    | nil =>
      rw [hxs, hys, List.take_nil, List.take_eq_nil_iff] at h
      exact absurd (h.resolve_left (by omega)) (by simp)
    | cons y ys' =>
      rw [hxs, hys] at h
      simp only [h]

end ExampleGroup

/-! ## Further examples -/

/-- The second list is the first one with further examples put in, each of a group that is full by
then: as many members as are shown of it stand in `seen` and in front of the place. -/
inductive Further : List Example → List Example → List Example → Prop
  | nil {seen} : Further seen [] []
  | keep {seen e examples more} : Further (seen ++ [e]) examples more →
      Further seen (e :: examples) (e :: more)
  | put {seen e examples more} (group : ExampleGroup) : group.Takes e →
      group.limit ≤ (group.members seen).length → Further seen examples more →
        Further seen examples (e :: more)

namespace Further

variable {seen examples more : List Example}

/-- Nothing is put into an empty list. -/
theorem eq_nil_iff (h : Further [] examples more) : more = [] ↔ examples = [] := by
  cases h with
  | nil => exact Iff.rfl
  | keep _ => simp
  | @put _ _ e _ group _ hfull _ =>
    have hpos := group.limit_pos
    exact absurd hfull (by simp [ExampleGroup.members]; omega)

/-- A group that is full shows its first members, whatever comes later. -/
theorem take_members_eq (h : Further seen examples more) (group : ExampleGroup) :
    (group.members (seen ++ more)).take group.limit
      = (group.members (seen ++ examples)).take group.limit := by
  induction h with
  | nil => rfl
  | keep _ ih => simpa using ih
  | @put seen e examples more full htakes hfull _ ih =>
    by_cases hgroup : group.Takes e
    · obtain rfl : full = group :=
        (ExampleGroup.ofExample_eq_iff.2 htakes).symm.trans (ExampleGroup.ofExample_eq_iff.2 hgroup)
      rw [ExampleGroup.members_append, ExampleGroup.members_append,
        List.take_append_of_le_length hfull, List.take_append_of_le_length hfull]
    · rw [ExampleGroup.members_append, ExampleGroup.members_cons_of_not_takes hgroup,
        ← ExampleGroup.members_append, ih]

theorem lines_eq (h : Further [] examples more) (group : ExampleGroup) :
    group.lines more = group.lines examples :=
  ExampleGroup.lines_congr (h.take_members_eq group)

end Further

namespace Document

/-! ## The sections -/

theorem exampleLines_eq_nil_iff {doc : Document} : doc.exampleLines = [] ↔ doc.examples = [] := by
  rw [exampleLines]
  cases doc.examples <;> simp

theorem exampleLines_of_ne_nil {doc : Document} (h : doc.examples ≠ []) :
    doc.exampleLines
      = ["## Examples", ""] ++ ExampleGroup.all.flatMap (·.lines doc.examples) := by
  rw [exampleLines, if_neg (by simpa using h)]
  simp [ExampleGroup.all]

theorem modifierLines_eq_nil_iff {doc : Document} :
    doc.modifierLines = [] ↔ doc.negatable = false := by
  rw [modifierLines]
  cases doc.negatable <;> simp

/-- The lines of the page in front of the modifiers. -/
def linesAboveModifiers (doc : Document) : List String :=
  doc.frontMatter ++ doc.introduction ++ doc.exampleLines ++ doc.typeLines ++ doc.aliasLines

theorem page_eq (doc : Document) :
    doc.page = joinLines (doc.linesAboveModifiers ++ doc.modifierLines) := rfl

theorem linesAboveModifiers_ne_nil (doc : Document) : doc.linesAboveModifiers ≠ [] := by
  simp [linesAboveModifiers, frontMatter]

/-- With the same lines above them, modifiers make another page. -/
theorem page_ne_of_modifiers {doc doc' : Document}
    (hlines : doc'.linesAboveModifiers = doc.linesAboveModifiers) (h : doc.modifierLines = [])
    (h' : doc'.modifierLines ≠ []) : doc'.page ≠ doc.page := by
  intro hpage
  have hlt := length_joinLines_lt_append (linesAboveModifiers_ne_nil doc) h'
  rw [page_eq, page_eq, hlines, h, List.append_nil] at hpage
  rw [hpage] at hlt
  exact absurd hlt (Nat.lt_irrefl _)

/-- **Further examples of full groups** change the page only if they bring the modifiers. -/
theorem page_eq_iff_of_further {doc : Document} {more : List Example} {negatable : Bool}
    (h : Further [] doc.examples more) :
    { doc with examples := more, negatable := negatable }.page = doc.page ↔
      negatable = doc.negatable := by
  have hexamples : { doc with examples := more, negatable := negatable }.exampleLines
      = doc.exampleLines := by
    by_cases hnil : doc.examples = []
    · rw [exampleLines_eq_nil_iff.2 hnil, exampleLines_eq_nil_iff]
      exact h.eq_nil_iff.2 hnil
    · rw [exampleLines_of_ne_nil hnil, exampleLines_of_ne_nil (mt h.eq_nil_iff.1 hnil)]
      simp only [h.lines_eq]
  have hlines : { doc with examples := more, negatable := negatable }.linesAboveModifiers
      = doc.linesAboveModifiers := by
    rw [linesAboveModifiers, hexamples]
    rfl
  constructor
  · intro hpage
    cases hneg : negatable <;> cases hneg' : doc.negatable
    · rfl
    · refine absurd hpage.symm (page_ne_of_modifiers hlines.symm ?_ ?_)
      · exact modifierLines_eq_nil_iff.2 hneg
      · simp [modifierLines_eq_nil_iff, hneg']
    · refine absurd hpage (page_ne_of_modifiers hlines ?_ ?_)
      · exact modifierLines_eq_nil_iff.2 hneg'
      · simp [modifierLines_eq_nil_iff, hneg]
    · rfl
  · rintro rfl
    rw [page_eq, page_eq, hlines]
    rfl

/-! ## The examples of a document that was built -/

/-- Facts that differ in their examples only give documents that differ in these only. -/
theorem ofKinds_eq_of_examples {facts facts' : List Fact}
    (h : ∀ kind, kind ≠ .examples → factsOfKind kind facts' = factsOfKind kind facts)
    (categories : CategoryMap) (path : Path) :
    ofKinds categories path facts' =
      { ofKinds categories path facts with
        examples := examplesOf facts', negatable := (examplesOf facts').any (·.negated) } := by
  have hvalues : ∀ kind, kind ≠ .examples → valuesOfKind kind facts' = valuesOfKind kind facts :=
    fun kind hkind => by rw [valuesOfKind, h kind hkind, valuesOfKind]
  rw [ofKinds, hvalues .identifier (by decide), hvalues .description (by decide),
    hvalues .narrative (by decide), hvalues .supportedTypes (by decide),
    hvalues .aliases (by decide)]
  rfl

/-- Examples are not written as text. -/
theorem longAmong_of_examples {facts facts' : List Fact}
    (h : ∀ kind, kind ≠ .examples → factsOfKind kind facts' = factsOfKind kind facts)
    (hlong : LongAmong facts) : LongAmong facts' := by
  have hvalues : ∀ kind, kind ≠ .examples → valuesOfKind kind facts' = valuesOfKind kind facts :=
    fun kind hkind => by rw [valuesOfKind, h kind hkind, valuesOfKind]
  rcases hlong with ⟨kind, hkind, hlong⟩ | ⟨kind, hkind, hlong⟩
  · exact .inl ⟨kind, hkind, by rwa [hvalues kind (Extractor.ne_examples_of_mem_single hkind)]⟩
  · refine .inr ⟨kind, hkind, ?_⟩
    rwa [hvalues kind (by rintro rfl; exact absurd hkind (by decide))]

/-- With further examples of full groups there still is a document. -/
theorem ofFacts?_of_further {categories : CategoryMap} {path : Path} {facts facts' : List Fact}
    {doc : Document} (h : ofFacts? categories path facts = .ok (some doc))
    (hkinds : ∀ kind, kind ≠ .examples → factsOfKind kind facts' = factsOfKind kind facts)
    (hmore : Further [] doc.examples (examplesOf facts')) :
    ofFacts? categories path facts' = .ok (some { doc with
      examples := examplesOf facts', negatable := (examplesOf facts').any (·.negated) }) := by
  rw [ofFacts?_eq_ok_iff, ofKinds?, Option.ite_none_right_eq_some, Option.some.injEq] at h
  obtain ⟨hshort, hcontent, rfl⟩ := h
  have hshort' : ¬ LongAmong facts' := mt (longAmong_of_examples fun kind hkind =>
    (hkinds kind hkind).symm) hshort
  have hempty : (examplesOf facts').isEmpty = (ofKinds categories path facts).examples.isEmpty := by
    rw [Bool.eq_iff_iff, List.isEmpty_iff, List.isEmpty_iff]
    exact hmore.eq_nil_iff
  rw [ofFacts?_of_not_longAmong hshort', ofKinds?, ofKinds_eq_of_examples hkinds, if_pos]
  rw [hasContent] at hcontent ⊢
  rw [hempty]
  exact hcontent

/-- **The examples on the page of a document.**

* Each example belongs to one group.
* There is a section of examples exactly if there are examples. In it each group that takes one has
  a part of its own, with its first members in one block of code.
* There is a section of modifiers exactly if some example is negated, so it is never missing where
  negated examples are shown.
* Further examples of full groups leave the page as it is, unless some of them are negated and no
  example was before. -/
theorem page_examples {categories : CategoryMap} {path : Path} {facts : List Fact} {doc : Document}
    (h : ofFacts? categories path facts = .ok (some doc)) :
    (∀ e, ∃ group : ExampleGroup, group.Takes e ∧ ∀ group', group'.Takes e → group' = group)
      ∧ doc.page = joinLines (doc.frontMatter ++ doc.introduction ++ doc.exampleLines
        ++ doc.typeLines ++ doc.aliasLines ++ doc.modifierLines)
      ∧ (doc.exampleLines = [] ↔ doc.examples = [])
      ∧ (doc.examples ≠ [] → doc.exampleLines
        = ["## Examples", ""] ++ ExampleGroup.all.flatMap (·.lines doc.examples))
      ∧ (∀ group : ExampleGroup,
        group.lines doc.examples = [] ↔ ∀ e ∈ doc.examples, ¬ group.Takes e)
      ∧ (∀ group : ExampleGroup, ∀ e ∈ doc.examples, group.Takes e → group.lines doc.examples
        = group.heading ++ (["```d"] ++ group.block doc.examples ++ ["```", ""]))
      ∧ (ExampleGroup.negated.lines doc.examples ≠ [] → doc.modifierLines ≠ [])
      ∧ (doc.modifierLines ≠ [] ↔ ∃ e ∈ doc.examples, e.negated = true)
      ∧ ∀ facts', (∀ kind, kind ≠ .examples → factsOfKind kind facts' = factsOfKind kind facts) →
        Further [] doc.examples (examplesOf facts') →
        ∃ doc', ofFacts? categories path facts' = .ok (some doc')
          ∧ doc'.examples = examplesOf facts'
          ∧ (doc'.page = doc.page ↔
            ((∃ e ∈ doc'.examples, e.negated = true) ↔ ∃ e ∈ doc.examples, e.negated = true)) := by
  have hnegatable : doc.negatable = doc.examples.any (·.negated) := by
    obtain rfl := eq_ofKinds_of_ofFacts? h
    rfl
  have hmodifiers : doc.modifierLines ≠ [] ↔ ∃ e ∈ doc.examples, e.negated = true := by
    rw [ne_eq, modifierLines_eq_nil_iff, hnegatable, Bool.not_eq_false, List.any_eq_true]
  refine ⟨fun e => ⟨_, ExampleGroup.ofExample_eq_iff.1 rfl, fun group' hgroup' =>
    (ExampleGroup.ofExample_eq_iff.2 hgroup').symm⟩, rfl, exampleLines_eq_nil_iff,
    exampleLines_of_ne_nil, fun _ => ExampleGroup.lines_eq_nil_iff,
    fun _ _ => ExampleGroup.lines_of_takes, fun hlines => ?_, hmodifiers,
    fun facts' hkinds hmore => ⟨_, ofFacts?_of_further h hkinds hmore, rfl, ?_⟩⟩
  · rw [ne_eq, ExampleGroup.lines_eq_nil_iff] at hlines
    rw [hmodifiers]
    refine Classical.byContradiction fun hnone => hlines fun e he htakes => ?_
    exact hnone ⟨e, he, htakes.2⟩
  · rw [page_eq_iff_of_further hmore, hnegatable, Bool.eq_iff_iff, List.any_eq_true,
      List.any_eq_true]

/-- Uses of an operation: three plain ones, and a failure that is negated. -/
def uses : List Fact :=
  [.description (.text "Equal."), .usage ⟨"a", "a;", false, false⟩,
    .usage ⟨"b", "b;", false, false⟩, .usage ⟨"fails", "f;", true, true⟩,
    .usage ⟨"c", "c;", false, false⟩]

/-- A fourth plain one and another failure. -/
def laterUses : List Fact :=
  [.usage ⟨"d", "d;", false, false⟩, .usage ⟨"fails", "g;", false, true⟩]

/-- The later uses do not show. The failure is not shown as a negation, and brings the modifiers. -/
theorem page_examples_crowded :
    ∃ doc doc', ofFacts? {} {} uses = .ok (some doc)
      ∧ ofFacts? {} {} (uses ++ laterUses) = .ok (some doc')
      ∧ doc'.examples.length = 6 ∧ doc'.page = doc.page
      ∧ ExampleGroup.negated.lines doc.examples = [] ∧ doc.modifierLines ≠ [] := by
  have hshort : ¬ LongAmong uses := by
    refine not_longAmong fun fact hfact v hv => ?_
    rintro ⟨n, rfl, -⟩
    simp only [uses, List.mem_cons, List.not_mem_nil, or_false] at hfact
    rcases hfact with rfl | rfl | rfl | rfl | rfl <;> cases hv
  have hdoc : ofFacts? {} {} uses = .ok (some (ofKinds {} {} uses)) :=
    ofFacts?_eq_ok_iff.2 ⟨hshort, by decide +kernel⟩
  obtain ⟨-, -, -, -, hlines, -, -, hmodifiers, hfurther⟩ := page_examples hdoc
  obtain ⟨doc', hdoc', hexamples, hpage⟩ := hfurther (uses ++ laterUses)
    (fun kind hkind => by cases kind <;> first | rfl | exact absurd rfl hkind)
    (.keep (.keep (.keep (.keep
      (.put .basic ⟨rfl, rfl⟩ (by decide) (.put .failure rfl (by decide) .nil))))))
  refine ⟨_, doc', hdoc, hdoc', by rw [hexamples]; rfl, hpage.2 ?_, ?_, ?_⟩
  · rw [hexamples]
    decide
  · rw [hlines]
    rintro e he ⟨hfailure, hnegated⟩
    revert e
    decide
  · exact hmodifiers.2 (by decide)

end Document
end RefPages
