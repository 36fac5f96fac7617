import RefPages.Proofs.Document
import RefPages.Proofs.Source.Found
import RefPages.Proofs.Text.Sorted

/-!
# Extractors by themselves

Every extractor finds facts of its own kind and looks at nothing but the source file, so the facts
of some extractors are the facts of all of them with the others left out.

* `SourceFile.facts_filter`: to leave extractors out is to leave their facts out.
* `Extractor.select_eq_ok_iff` and `Extractor.select_eq_error_iff` say what a selection by names
  gives.
* `Extractor.Clean` is what the texts of an extractor are like: not empty, all different, and one at
  most where a document has room for one.
* `Document.ofFacts?_facts`: **the document of a source file holds all that was found in it.**
* `Extractor.select_apart`: **an extractor finds the same whatever others are selected with it**,
  and its part of the document is the same.
-/

set_option autoImplicit false
namespace RefPages

open Text

/-! ## Whose facts they are -/

theorem Extractor.source?_of_mem_facts {file : SourceFile} {kind : Extractor} {fact : Fact}
    (h : fact ∈ kind.facts file) : fact.source? = some kind := by
  cases kind <;>
  · obtain ⟨_, -, rfl⟩ := List.mem_map.1 h
    rfl

/-- To leave extractors out is to leave their facts out. -/
theorem SourceFile.facts_filter (file : SourceFile) (extractors : List Extractor)
    (p : Extractor → Bool) :
    file.facts (extractors.filter p)
      = (file.facts extractors).filter fun fact => fact.source?.any p := by
  induction extractors with
  | nil => rfl
  | cons kind rest ih =>
    have hown : (kind.facts file).filter (fun fact => fact.source?.any p)
        = if p kind then kind.facts file else [] := by
      split
      · rename_i hp
        refine List.filter_eq_self.2 fun fact hfact => ?_
        rw [Extractor.source?_of_mem_facts hfact]
        exact hp
      · rename_i hp
        refine List.filter_eq_nil_iff.2 fun fact hfact => ?_
        rw [Extractor.source?_of_mem_facts hfact]
        exact hp
    have hcons : file.facts (kind :: rest) = kind.facts file ++ file.facts rest := rfl
    rw [hcons, List.filter_append, hown, ← ih]
    by_cases hp : p kind = true
    · rw [List.filter_cons_of_pos hp, if_pos hp]
      rfl
    · rw [List.filter_cons_of_neg hp, if_neg hp]
      rfl

/-- The facts of one kind are those of its extractor, if it is among the extractors. -/
theorem factsOfKind_facts (file : SourceFile) {extractors : List Extractor} (h : extractors.Nodup)
    (kind : Extractor) :
    factsOfKind kind (file.facts extractors)
      = if kind ∈ extractors then kind.facts file else [] := by
  have hkind : extractors.filter (· = kind) = if kind ∈ extractors then [kind] else [] := by
    induction extractors with
    | nil => rfl
    | cons first rest ih => grind
  have hfilter : factsOfKind kind (file.facts extractors)
      = file.facts (extractors.filter (· = kind)) := by
    rw [SourceFile.facts_filter, factsOfKind]
    refine List.filter_congr fun fact _ => ?_
    cases fact.source? <;> simp
  rw [hfilter, hkind]
  split
  · exact List.append_nil _
  · rfl

namespace Extractor

/-! ## Selection by name -/

/-- The names that mean no extractor, in lower case and each once. -/
def unknownNames (enabled : List String) : List String :=
  Source.distinct ((enabled.map lowerCase).filter (· ∉ all.map Extractor.name))

theorem mem_unknownNames {enabled : List String} {name : String} :
    name ∈ unknownNames enabled ↔
      (∃ given ∈ enabled, lowerCase given = name) ∧ name ∉ all.map Extractor.name := by
  rw [unknownNames, Source.mem_distinct, List.mem_filter, List.mem_map, decide_eq_true_eq]

theorem unknownNames_eq_nil_iff {enabled : List String} :
    unknownNames enabled = [] ↔ ∀ given ∈ enabled, lowerCase given ∈ all.map Extractor.name := by
  rw [List.eq_nil_iff_forall_not_mem]
  constructor
  · intro h given hgiven
    refine Decidable.byContradiction fun hunknown => ?_
    exact h _ (mem_unknownNames.2 ⟨⟨given, hgiven, rfl⟩, hunknown⟩)
  · intro h name hname
    obtain ⟨⟨given, hgiven, rfl⟩, hunknown⟩ := mem_unknownNames.1 hname
    exact hunknown (h given hgiven)

theorem select_some (enabled : List String) :
    select (some enabled) =
      if unknownNames enabled = [] then .ok (all.filter (·.name ∈ enabled.map lowerCase))
      else .error ⟨sortTexts (unknownNames enabled)⟩ := by
  rw [select, ← unknownNames]
  cases unknownNames enabled <;> rfl

/-- Names that mean no extractor are reported in lower case, each once and in order. -/
theorem select_eq_error_iff {enabled : List String} {unknown : UnknownExtractors} :
    select (some enabled) = .error unknown ↔
      unknown.names ≠ [] ∧ InOrder unknown.names ∧ ∀ name, name ∈ unknown.names ↔
        (∃ given ∈ enabled, lowerCase given = name) ∧ name ∉ all.map Extractor.name := by
  have horder : InOrder (sortTexts (unknownNames enabled)) :=
    inOrder_sortTexts (Source.nodup_distinct _)
  have hmem : ∀ name, name ∈ sortTexts (unknownNames enabled) ↔
      (∃ given ∈ enabled, lowerCase given = name) ∧ name ∉ all.map Extractor.name :=
    fun name => mem_sortTexts.trans mem_unknownNames
  rw [select_some]
  constructor
  · intro h
    split at h
    · exact absurd h (by simp)
    · rename_i hne
      cases h
      obtain ⟨name, hname⟩ := List.exists_mem_of_ne_nil _ hne
      exact ⟨List.ne_nil_of_mem (mem_sortTexts.2 hname), horder, hmem⟩
  · rintro ⟨hne, hnames, hmem'⟩
    have hsame : sortTexts (unknownNames enabled) = unknown.names :=
      horder.ext hnames fun name => (hmem name).trans (hmem' name).symm
    obtain ⟨name, hname⟩ := List.exists_mem_of_ne_nil _ hne
    rw [if_neg (List.ne_nil_of_mem (mem_unknownNames.2 ((hmem' name).1 hname))), hsame]

/-- If all names mean extractors, these are selected, in the order in which all of them come. -/
theorem select_eq_ok_iff {enabled : List String} {extractors : List Extractor} :
    select (some enabled) = .ok extractors ↔
      (∀ given ∈ enabled, lowerCase given ∈ all.map Extractor.name)
        ∧ extractors = all.filter (·.name ∈ enabled.map lowerCase) := by
  rw [select_some, ← unknownNames_eq_nil_iff]
  by_cases hnil : unknownNames enabled = []
  · rw [if_pos hnil, Except.ok.injEq, and_iff_right hnil, eq_comm]
  · rw [if_neg hnil]
    exact ⟨fun h => absurd h (by simp), fun h => absurd h.1 hnil⟩

theorem mem_of_select {enabled : List String} {extractors : List Extractor} {kind : Extractor}
    (h : select (some enabled) = .ok extractors) (hkind : kind.name ∈ enabled.map lowerCase) :
    kind ∈ extractors := by
  have hall : kind ∈ all := by cases kind <;> decide
  rw [(select_eq_ok_iff.1 h).2, List.mem_filter]
  exact ⟨hall, by simpa using hkind⟩

/-- No extractor is selected twice. -/
theorem nodup_of_select {enabled? : Option (List String)} {extractors : List Extractor}
    (h : select enabled? = .ok extractors) : extractors.Nodup := by
  have hall : all.Nodup := by decide
  cases enabled? with
  | none =>
    cases h
    exact hall
  | some enabled =>
    rw [(select_eq_ok_iff.1 h).2]
    exact hall.filter _

/-! ## What an extractor finds -/

/-- The texts that an extractor finds; an example is none. -/
def texts (file : SourceFile) : Extractor → List String
  | .identifier => ((Source.identifier? file.text.toList).map String.ofList).toList
  | .description => ((Source.description? file.text.toList).map String.ofList).toList
  | .narrative => (Source.narrative? file.text.toList).toList
  | .examples => []
  | .supportedTypes => (Source.supportedTypes file.text.toList).map String.ofList
  | .aliases => Source.aliases file.name file.text.toList

/-- What the texts of an extractor are like. -/
structure Clean (file : SourceFile) (kind : Extractor) (texts : List String) : Prop where
  /-- No text is empty. -/
  ne_empty : ∀ s ∈ texts, s ≠ ""
  /-- No text is there twice. -/
  nodup : texts.Nodup
  /-- There is one at most where a document has room for one. -/
  length_le : kind ∈ single → texts.length ≤ 1
  /-- The name of the file is not one of the other names. -/
  ne_name : kind = .aliases → ∀ s ∈ texts, s ≠ file.name

variable {file : SourceFile} {kind : Extractor}

theorem clean_nil (file : SourceFile) (kind : Extractor) : Clean file kind [] :=
  ⟨by simp, List.nodup_nil, by simp, by simp⟩

/-- One text at most, and no empty one, is clean. -/
theorem clean_toList {text? : Option String} (h : ∀ s, text? = some s → s ≠ "")
    (hkind : kind ≠ .aliases) : Clean file kind text?.toList := by
  cases text? with
  | none => exact clean_nil file kind
  | some s => exact ⟨by simpa using h s rfl, by simp, by simp, fun heq => absurd heq hkind⟩

theorem clean_texts (file : SourceFile) (kind : Extractor) : Clean file kind (kind.texts file) := by
  cases kind with
  | identifier =>
    refine clean_toList (fun s hs => ?_) (by decide)
    obtain ⟨name, hname, rfl⟩ := Option.map_eq_some_iff.1 hs
    simpa using Source.ne_nil_of_identifier? hname
  | description =>
    refine clean_toList (fun s hs => ?_) (by decide)
    obtain ⟨text, htext, rfl⟩ := Option.map_eq_some_iff.1 hs
    simpa using Source.ne_nil_of_description? htext
  | narrative => exact clean_toList (fun s hs => Source.ne_empty_of_narrative? hs) (by decide)
  | examples => exact clean_nil file _
  | supportedTypes =>
    refine ⟨fun s hs => ?_, ?_, fun h => absurd h (by decide), fun h => absurd h (by decide)⟩
    · obtain ⟨entry, hentry, rfl⟩ := List.mem_map.1 hs
      simpa using Source.ne_nil_of_mem_supportedTypes hentry
    · refine List.Pairwise.map _ (fun a b hab heq => ?_) (Source.nodup_supportedTypes _)
      exact hab (String.ofList_injective heq)
  | aliases =>
    exact ⟨fun s => Source.ne_empty_of_mem_aliases, Source.nodup_aliases _ _,
      fun h => absurd h (by decide), fun _ s => Source.ne_of_mem_aliases⟩

theorem factsOfKind_facts_self (file : SourceFile) (kind : Extractor) :
    factsOfKind kind (kind.facts file) = kind.facts file :=
  List.filter_eq_self.2 fun fact hfact => by simpa using source?_of_mem_facts hfact

theorem valuesOfKind_facts_self (file : SourceFile) (kind : Extractor) :
    valuesOfKind kind (kind.facts file) = (kind.texts file).map FactValue.text := by
  rw [valuesOfKind, factsOfKind_facts_self]
  cases kind <;>
    simp [facts, texts, Option.toList_map, List.filterMap_map, Function.comp_def, Fact.value?]

/-- What the facts of one kind tell are texts that its extractor finds, however often it is used. -/
theorem exists_text_of_mem_valuesOfKind {extractors : List Extractor} {value : FactValue}
    (h : value ∈ valuesOfKind kind (file.facts extractors)) :
    ∃ s ∈ kind.texts file, value = .text s := by
  obtain ⟨fact, hfact, hvalue⟩ := List.mem_filterMap.1 h
  obtain ⟨hmem, hsource⟩ := List.mem_filter.1 hfact
  obtain ⟨finder, -, hfound⟩ := List.mem_flatMap.1 hmem
  rw [source?_of_mem_facts hfound] at hsource
  obtain rfl : finder = kind := by simpa using hsource
  have hown : value ∈ valuesOfKind finder (finder.facts file) := by
    rw [valuesOfKind, factsOfKind_facts_self]
    exact List.mem_filterMap.2 ⟨fact, hfound, hvalue⟩
  rw [valuesOfKind_facts_self] at hown
  obtain ⟨s, hs, rfl⟩ := List.mem_map.1 hown
  exact ⟨s, hs, rfl⟩

/-- What the facts of one kind tell, if no extractor has been used twice, are clean texts. -/
theorem exists_clean {extractors : List Extractor} (h : extractors.Nodup) (file : SourceFile)
    (kind : Extractor) :
    ∃ texts, Clean file kind texts
      ∧ valuesOfKind kind (file.facts extractors) = texts.map FactValue.text := by
  by_cases hmem : kind ∈ extractors
  · refine ⟨kind.texts file, clean_texts file kind, ?_⟩
    rw [← valuesOfKind_facts_self, valuesOfKind, valuesOfKind, factsOfKind_facts file h,
      if_pos hmem, factsOfKind_facts_self]
  · refine ⟨[], clean_nil file kind, ?_⟩
    rw [valuesOfKind, factsOfKind_facts file h, if_neg hmem]
    rfl

/-! ## Nothing to drop -/

variable {extractors : List Extractor}

/-- Of a kind with a single value, the first text is all there is. -/
theorem valuesOfKind_eq_firstText? (h : extractors.Nodup) (file : SourceFile)
    (hkind : kind ∈ single) :
    valuesOfKind kind (file.facts extractors)
      = (firstText? (valuesOfKind kind (file.facts extractors))).toList.map .text := by
  obtain ⟨texts, htexts, hvalues⟩ := exists_clean h file kind
  rw [hvalues]
  match texts, htexts.length_le hkind with
  | [], _ => rfl
  | [s], _ =>
    have hs : s ≠ "" := htexts.ne_empty s List.mem_cons_self
    simp [firstText?, FactValue.isSaid, FactValue.toText, hs]

end Extractor

/-- A source file with facts of four kinds, and the name of the file among the other names. -/
def equalFile : SourceFile where
  path := ⟨.here, ["operations", "equality", "equal.d"]⟩
  text := "/// Equal.\nvoid equal(ref Evaluation e)\nstatic foreach(Type;AliasSeq!(int, int))\n"
    ++ "alias equal = Equal; alias eq = equal"

namespace Document

/-- A file without a document has no fact of a kind that would give it one. -/
theorem factsOfKind_eq_nil_of_ofFacts? {categories : CategoryMap} {file : SourceFile}
    {extractors : List Extractor} (h : extractors.Nodup)
    (hnone : ofFacts? categories file.path (file.facts extractors) = .ok none) {kind : Extractor}
    (hkind : kind ∈ Extractor.single ∨ kind = .examples) :
    factsOfKind kind (file.facts extractors) = [] := by
  obtain ⟨hsingle, hexamples⟩ := ofKinds?_eq_none_iff.1 (ofFacts?_eq_ok_iff.1 hnone).2
  rw [← List.length_eq_zero_iff]
  rcases hkind with hkind | rfl
  · have hvalues := Extractor.valuesOfKind_eq_firstText? h file hkind
    rw [hsingle kind hkind] at hvalues
    rw [← length_valuesOfKind (Extractor.ne_examples_of_mem_single hkind), hvalues]
    rfl
  · rw [← length_examplesOf, hexamples]
    rfl

theorem map_toText_text (texts : List String) :
    (texts.map FactValue.text).map FactValue.toText = texts := by
  simp [Function.comp_def, FactValue.toText]

/-- All types that were found are in the document. -/
theorem map_text_supportedTypes {extractors : List Extractor} (h : extractors.Nodup)
    (file : SourceFile) (categories : CategoryMap) :
    (ofKinds categories file.path (file.facts extractors)).supportedTypes.map .text
      = valuesOfKind .supportedTypes (file.facts extractors) := by
  obtain ⟨types, htypes, hvalues⟩ := Extractor.exists_clean h file .supportedTypes
  rw [ofKinds, hvalues, map_toText_text, textsOnce_eq_self htypes.nodup htypes.ne_empty]

/-- All other names that were found are in the document. -/
theorem map_text_aliases {extractors : List Extractor} (h : extractors.Nodup)
    (file : SourceFile) (categories : CategoryMap) :
    (ofKinds categories file.path (file.facts extractors)).aliases.map .text
      = valuesOfKind .aliases (file.facts extractors) := by
  obtain ⟨names, hnames, hvalues⟩ := Extractor.exists_clean h file .aliases
  have hother : names.filter (· ≠ file.path.stem) = names :=
    List.filter_eq_self.2 fun s hs => by simpa [SourceFile.name] using hnames.ne_name rfl s hs
  rw [ofKinds, hvalues, map_toText_text, hother, textsOnce_eq_self hnames.nodup hnames.ne_empty]

/-- **The document of a source file holds all that was found in it**, whatever extractors are
selected. Of a name, a description and a narrative there is one at most, and it is not empty. The
facts are put together without a fault. If there is a document, it holds these and all examples,
types and other names that were found, in the order in which they were found. If there is none,
nothing but types and other names was found. -/
theorem ofFacts?_facts (file : SourceFile) (categories : CategoryMap)
    {enabled? : Option (List String)} {extractors : List Extractor}
    (h : Extractor.select enabled? = .ok extractors) :
    (∀ kind ∈ Extractor.single,
        (factsOfKind kind (file.facts extractors)).length ≤ 1
          ∧ ∀ value ∈ valuesOfKind kind (file.facts extractors), ∃ s, s ≠ "" ∧ value = .text s)
      ∧ (∃ doc?, ofFacts? categories file.path (file.facts extractors) = .ok doc?)
      ∧ (∀ doc, ofFacts? categories file.path (file.facts extractors) = .ok (some doc) →
        valuesOfKind .identifier (file.facts extractors) = doc.identifier?.toList.map .text
          ∧ valuesOfKind .description (file.facts extractors) = doc.description?.toList.map .text
          ∧ valuesOfKind .narrative (file.facts extractors) = doc.narrative?.toList.map .text
          ∧ examplesOf (file.facts extractors) = doc.examples
          ∧ valuesOfKind .supportedTypes (file.facts extractors) = doc.supportedTypes.map .text
          ∧ valuesOfKind .aliases (file.facts extractors) = doc.aliases.map .text)
      ∧ (ofFacts? categories file.path (file.facts extractors) = .ok none →
        ∀ fact ∈ file.facts extractors,
          fact.source? = some .supportedTypes ∨ fact.source? = some .aliases) := by
  have hnodup := Extractor.nodup_of_select h
  refine ⟨fun kind hkind => ⟨?_, ?_⟩,
    ⟨_, ofFacts?_sourceFacts categories file.path file extractors⟩,
    fun doc hdoc => ?_, fun hnone fact hfact => ?_⟩
  · obtain ⟨texts, htexts, hvalues⟩ := Extractor.exists_clean hnodup file kind
    rw [← length_valuesOfKind (Extractor.ne_examples_of_mem_single hkind), hvalues,
      List.length_map]
    exact htexts.length_le hkind
  · obtain ⟨texts, htexts, hvalues⟩ := Extractor.exists_clean hnodup file kind
    rw [hvalues]
    intro value hvalue
    obtain ⟨s, hs, rfl⟩ := List.mem_map.1 hvalue
    exact ⟨s, htexts.ne_empty s hs, rfl⟩
  · obtain rfl := eq_ofKinds_of_ofFacts? hdoc
    exact ⟨Extractor.valuesOfKind_eq_firstText? hnodup file (by decide),
      Extractor.valuesOfKind_eq_firstText? hnodup file (by decide),
      Extractor.valuesOfKind_eq_firstText? hnodup file (by decide), rfl,
      (map_text_supportedTypes hnodup file categories).symm,
      (map_text_aliases hnodup file categories).symm⟩
  · obtain ⟨kind, -, hmem⟩ := List.mem_flatMap.1 hfact
    have hsource := Extractor.source?_of_mem_facts hmem
    have hnot : ¬ (kind ∈ Extractor.single ∨ kind = .examples) := by
      intro hkind
      have hown : fact ∈ factsOfKind kind (file.facts extractors) :=
        List.mem_filter.2 ⟨hfact, by simpa using hsource⟩
      rw [factsOfKind_eq_nil_of_ofFacts? hnodup hnone hkind] at hown
      exact absurd hown (by simp)
    rw [hsource]
    cases kind with
    | supportedTypes => exact Or.inl rfl
    | aliases => exact Or.inr rfl
    | _ => exact absurd (by decide) hnot

/-- Of the file's name, types and other names, nothing is lost. -/
theorem ofFacts?_facts_equalFile :
    ∃ extractors doc, Extractor.select (some ["Aliases", "supported_types", "IDENTIFIER"])
        = .ok extractors
      ∧ ofFacts? {} equalFile.path (equalFile.facts extractors) = .ok (some doc)
      ∧ valuesOfKind .identifier (equalFile.facts extractors) = doc.identifier?.toList.map .text
      ∧ valuesOfKind .aliases (equalFile.facts extractors) = doc.aliases.map .text
      ∧ doc.identifier? = some "equal" ∧ doc.narrative? = none
      ∧ doc.supportedTypes = ["int"] ∧ doc.aliases = ["eq"] := by
  have hselect : Extractor.select (some ["Aliases", "supported_types", "IDENTIFIER"])
      = .ok [.identifier, .supportedTypes, .aliases] :=
    Extractor.select_eq_ok_iff.2 ⟨by decide +kernel, by decide +kernel⟩
  obtain ⟨-, -, hdocument, -⟩ := ofFacts?_facts equalFile {} hselect
  have hdoc : ofFacts? {} equalFile.path
      (equalFile.facts [.identifier, .supportedTypes, .aliases]) = .ok (some
        { name := "equal", path := equalFile.path, identifier? := some "equal",
          supportedTypes := ["int"], aliases := ["eq"],
          category := "equality" }) :=
    (ofFacts?_sourceFacts {} _ equalFile _).trans (congrArg _ (by decide +kernel))
  obtain ⟨hidentifier, -, -, -, -, haliases⟩ := hdocument _ hdoc
  exact ⟨_, _, hselect, hdoc, hidentifier, haliases, rfl, rfl, rfl, rfl⟩

/-! ## Parts of a document -/

/-- The documents agree in the part that one extractor decides. -/
def AgreeIn (kind : Extractor) (doc doc' : Document) : Prop :=
  match kind with
  | .identifier => doc.identifier? = doc'.identifier?
  | .description => doc.description? = doc'.description?
  | .narrative => doc.narrative? = doc'.narrative?
  | .examples => doc.examples = doc'.examples ∧ doc.negatable = doc'.negatable
  | .supportedTypes => doc.supportedTypes = doc'.supportedTypes
  | .aliases => doc.aliases = doc'.aliases

/-- The facts of a kind decide a part of the document, and no other facts do. -/
theorem agreeIn_ofKinds {kind : Extractor} {facts facts' : List Fact}
    (h : factsOfKind kind facts = factsOfKind kind facts') (categories : CategoryMap)
    (path : Path) :
    AgreeIn kind (ofKinds categories path facts) (ofKinds categories path facts') := by
  cases kind <;> simp [AgreeIn, ofKinds, valuesOfKind, examplesOf, h]

end Document

namespace Extractor

/-- **Extractors are apart from each other.** A selection by names fails exactly if the lower case
of a name means no extractor, and reports such names in lower case, each once and in order. If it
does not fail, the facts of the selected extractors are the facts of all extractors, less those of
the others. Two selections that both give a document give the same name, path and category, and
agree in the part of every extractor that is in both. -/
theorem select_apart (file : SourceFile) (categories : CategoryMap) (enabled : List String) :
    ((∃ unknown, select (some enabled) = .error unknown) ↔
        ∃ given ∈ enabled, lowerCase given ∉ all.map Extractor.name)
      ∧ (∀ unknown, select (some enabled) = .error unknown →
        unknown.message = "Unknown extractors requested: " ++ joinWith ", " unknown.names
          ∧ InOrder unknown.names
          ∧ ∀ name, name ∈ unknown.names ↔
            (∃ given ∈ enabled, lowerCase given = name) ∧ name ∉ all.map Extractor.name)
      ∧ ∀ extractors, select (some enabled) = .ok extractors →
        file.facts extractors = (file.facts all).filter
            (fun fact => fact.source?.any (·.name ∈ enabled.map lowerCase))
          ∧ ∀ enabled' extractors' doc doc', select (some enabled') = .ok extractors' →
            Document.ofFacts? categories file.path (file.facts extractors) = .ok (some doc) →
            Document.ofFacts? categories file.path (file.facts extractors') = .ok (some doc') →
            doc.name = doc'.name ∧ doc.path = doc'.path ∧ doc.category = doc'.category
              ∧ ∀ kind : Extractor, kind.name ∈ enabled.map lowerCase →
                kind.name ∈ enabled'.map lowerCase → Document.AgreeIn kind doc doc' := by
  refine ⟨?_, fun unknown h => ?_, fun extractors h => ?_⟩
  · constructor
    · rintro ⟨unknown, h⟩
      obtain ⟨hne, -, hnames⟩ := select_eq_error_iff.1 h
      obtain ⟨name, hname⟩ := List.exists_mem_of_ne_nil _ hne
      obtain ⟨⟨given, hgiven, rfl⟩, hunknown⟩ := (hnames name).1 hname
      exact ⟨given, hgiven, hunknown⟩
    · rintro ⟨given, hgiven, hunknown⟩
      cases h : select (some enabled) with
      | error unknown => exact ⟨unknown, rfl⟩
      | ok extractors => exact absurd ((select_eq_ok_iff.1 h).1 given hgiven) hunknown
  · obtain ⟨-, horder, hnames⟩ := select_eq_error_iff.1 h
    exact ⟨rfl, horder, hnames⟩
  · obtain ⟨-, hselected⟩ := select_eq_ok_iff.1 h
    refine ⟨by rw [hselected, SourceFile.facts_filter],
      fun enabled' extractors' doc doc' h' hdoc hdoc' => ?_⟩
    obtain rfl := Document.eq_ofKinds_of_ofFacts? hdoc
    obtain rfl := Document.eq_ofKinds_of_ofFacts? hdoc'
    refine ⟨rfl, rfl, rfl, fun kind hkind hkind' => Document.agreeIn_ofKinds ?_ categories _⟩
    rw [factsOfKind_facts file (nodup_of_select h), factsOfKind_facts file (nodup_of_select h'),
      if_pos (mem_of_select h hkind), if_pos (mem_of_select h' hkind')]

/-- Two selections for one file: the documents differ, but not in the name. -/
theorem select_apart_equalFile :
    ∃ extractors extractors' doc doc', select (some ["Identifier", "aliases"]) = .ok extractors
      ∧ select (some ["narrative", "IDENTIFIER"]) = .ok extractors'
      ∧ Document.ofFacts? {} equalFile.path (equalFile.facts extractors) = .ok (some doc)
      ∧ Document.ofFacts? {} equalFile.path (equalFile.facts extractors') = .ok (some doc')
      ∧ doc ≠ doc' ∧ doc.identifier? = doc'.identifier? := by
  have hselect : select (some ["Identifier", "aliases"]) = .ok [.identifier, .aliases] :=
    select_eq_ok_iff.2 ⟨by decide +kernel, by decide +kernel⟩
  have hselect' : select (some ["narrative", "IDENTIFIER"]) = .ok [.identifier, .narrative] :=
    select_eq_ok_iff.2 ⟨by decide +kernel, by decide +kernel⟩
  have hdoc : Document.ofFacts? {} equalFile.path
      (equalFile.facts [.identifier, .aliases]) = .ok (some
        { name := "equal", path := equalFile.path, identifier? := some "equal",
          aliases := ["eq"], category := "equality" }) :=
    (Document.ofFacts?_sourceFacts {} _ equalFile _).trans (congrArg _ (by decide +kernel))
  have hdoc' : Document.ofFacts? {} equalFile.path
      (equalFile.facts [.identifier, .narrative]) = .ok (some
        { name := "equal", path := equalFile.path, identifier? := some "equal",
          narrative? := some "Equal.", category := "equality" }) :=
    (Document.ofFacts?_sourceFacts {} _ equalFile _).trans (congrArg _ (by decide +kernel))
  obtain ⟨-, -, hapart⟩ := select_apart equalFile {} ["Identifier", "aliases"]
  obtain ⟨-, hagree⟩ := hapart _ hselect
  obtain ⟨-, -, -, hparts⟩ := hagree _ _ _ _ hselect' hdoc hdoc'
  exact ⟨_, _, _, _, hselect, hselect', hdoc, hdoc', by decide,
    hparts .identifier (by decide +kernel) (by decide +kernel)⟩

end Extractor
end RefPages
