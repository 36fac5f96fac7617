import RefPages.Extractor

/-!
# A document, kind by kind

Facts are put into a document one after the other, and every kind has a rule of its own for what it
does with one more fact. What the document holds in the end can be read off the facts of each kind
by themselves, whatever stands between them.

* `factsOfKind` are the facts of one kind, `valuesOfKind` what they tell, and `examplesOf` are the
  examples among the facts.
* `firstText?` is the rule of the kinds with a single value, `textsOnce` that of the lists of texts.
* `LongAmong` says that one of the values that have to be written is an integer that is too long.
* `Document.gather` puts facts into a document kind by kind; `adds_foldlM` says that this is the
  same as putting them in one after the other, but for such an integer.
* `ofFacts?_by_kind`: **the document of a list of facts, field by field**, and when there is none.
-/

set_option autoImplicit false
namespace RefPages

/-! ## The facts of one kind -/

/-- The kinds of which a document has room for one. -/
def Extractor.single : List Extractor :=
  [.identifier, .description, .narrative]

theorem Extractor.ne_examples_of_mem_single {kind : Extractor} (h : kind ∈ single) :
    kind ≠ .examples := by
  rintro rfl
  exact absurd h (by decide)

/-- The facts of one kind, in their order. -/
def factsOfKind (kind : Extractor) (facts : List Fact) : List Fact :=
  facts.filter (·.source? = some kind)

/-- What a fact tells, unless it shows an example or is of an unknown kind. -/
def Fact.value? : Fact → Option FactValue
  | .identifier v | .description v | .narrative v | .supportedType v | .synonym v => some v
  | .usage _ | .other _ => none

/-- The example that a fact shows. -/
def Fact.usage? : Fact → Option Example
  | .usage e => some e
  | _ => none

/-- What the facts of one kind tell, in their order. -/
def valuesOfKind (kind : Extractor) (facts : List Fact) : List FactValue :=
  (factsOfKind kind facts).filterMap Fact.value?

/-- The examples that facts show, in their order. -/
def examplesOf (facts : List Fact) : List Example :=
  (factsOfKind .examples facts).filterMap Fact.usage?

@[simp] theorem factsOfKind_append (kind : Extractor) (facts facts' : List Fact) :
    factsOfKind kind (facts ++ facts') = factsOfKind kind facts ++ factsOfKind kind facts' :=
  List.filter_append ..

@[simp] theorem valuesOfKind_append (kind : Extractor) (facts facts' : List Fact) :
    valuesOfKind kind (facts ++ facts') = valuesOfKind kind facts ++ valuesOfKind kind facts' := by
  simp [valuesOfKind]

@[simp] theorem examplesOf_append (facts facts' : List Fact) :
    examplesOf (facts ++ facts') = examplesOf facts ++ examplesOf facts' := by
  simp [examplesOf]

theorem valuesOfKind_singleton (kind : Extractor) (fact : Fact) :
    valuesOfKind kind [fact] = if fact.source? = some kind then fact.value?.toList else [] := by
  by_cases h : fact.source? = some kind
  · cases hvalue : fact.value? <;> simp [valuesOfKind, factsOfKind, h, hvalue]
  · simp [valuesOfKind, factsOfKind, h]

theorem examplesOf_singleton (fact : Fact) : examplesOf [fact] = fact.usage?.toList := by
  cases fact <;> simp [examplesOf, factsOfKind, Fact.source?, Fact.usage?]

/-- Every fact of a known kind tells something, unless it shows an example. -/
theorem length_valuesOfKind {kind : Extractor} (h : kind ≠ .examples) (facts : List Fact) :
    (valuesOfKind kind facts).length = (factsOfKind kind facts).length := by
  rw [valuesOfKind, List.filterMap_length_eq_length]
  intro fact hfact
  have hsource : fact.source? = some kind := by simpa using (List.mem_filter.1 hfact).2
  cases fact with
  | usage e => exact absurd (Option.some.inj hsource).symm h
  | other k => exact absurd hsource (by simp [Fact.source?])
  | _ => rfl

theorem length_examplesOf (facts : List Fact) :
    (examplesOf facts).length = (factsOfKind .examples facts).length := by
  rw [examplesOf, List.filterMap_length_eq_length]
  intro fact hfact
  have hsource : fact.source? = some .examples := by simpa using (List.mem_filter.1 hfact).2
  cases fact with
  | usage e => rfl
  | _ => exact absurd hsource (by simp [Fact.source?])

/-! ## The first value, and every text once -/

/-- The text of the first value that means something. -/
def firstText? (values : List FactValue) : Option String :=
  (values.find? (·.isSaid)).map FactValue.toText

/-- The texts of a list, each at its first place, and no empty one. -/
def textsOnce (texts : List String) : List String :=
  (texts.filter (· ≠ "")).eraseDups

theorem firstText?_append (values values' : List FactValue) :
    firstText? (values ++ values') = (firstText? values).or (firstText? values') := by
  rw [firstText?, List.find?_append, Option.map_or]
  rfl

/-- The value is an integer that is too long to be written. -/
def FactValue.IsLong (v : FactValue) : Prop :=
  ∃ n, v = .number n ∧ Decimal.writingLimit ≤ n.natAbs

theorem FactValue.written_of_isLong {v : FactValue} (h : v.IsLong) :
    v.written = .error .tooLongToWrite := by
  obtain ⟨n, rfl, hlong⟩ := h
  rw [written, if_neg (Nat.not_lt.2 hlong)]

theorem FactValue.written_of_not_isLong {v : FactValue} (h : ¬ v.IsLong) :
    v.written = .ok v.toText := by
  cases v with
  | number n => exact if_pos (Nat.lt_of_not_le fun hlong => h ⟨n, rfl, hlong⟩)
  | _ => rfl

theorem firstSaid_of_isLong {v : FactValue} (hsaid : v.isSaid = true) (hlong : v.IsLong) :
    firstSaid none v = .error .tooLongToWrite := by
  rw [firstSaid, if_pos hsaid, FactValue.written_of_isLong hlong]
  rfl

/-- One more value counts only if none has been found before. -/
theorem firstSaid_of_not_isLong {found? : Option String} {v : FactValue}
    (h : ¬ (found? = none ∧ v.isSaid = true ∧ v.IsLong)) :
    firstSaid found? v = .ok (found?.or (firstText? [v])) := by
  cases found? with
  | some text => rfl
  | none =>
    rw [firstSaid]
    by_cases hsaid : v.isSaid = true
    · rw [if_pos hsaid, FactValue.written_of_not_isLong fun hlong => h ⟨rfl, hsaid, hlong⟩]
      simp [firstText?, hsaid, Except.map]
    · simp [firstText?, hsaid]

/-- A value that means something has a text. -/
theorem FactValue.toText_ne_empty {v : FactValue} (h : v.isSaid = true) : v.toText ≠ "" := by
  cases v with
  | text s => simpa [isSaid, toText] using h
  | number n =>
    rw [toText, Int.toString_eq_repr, Int.repr_eq_if]
    split
    · exact Nat.repr_ne_empty
    · simp
  | flag b =>
    cases b with
    | false => exact absurd h (by decide)
    | true => decide
  | missing => exact absurd h (by decide)

theorem nonEmpty?_firstText? (values : List FactValue) :
    nonEmpty? (firstText? values) = firstText? values := by
  cases hfirst : values.find? (·.isSaid) with
  | none => simp [firstText?, hfirst]
  | some v =>
    have hsaid : v.isSaid = true := List.find?_some hfirst
    simp [firstText?, hfirst, nonEmpty?_some, FactValue.toText_ne_empty hsaid]

/-- Adding texts to a list of its own, one after the other. -/
theorem foldl_appendNew (texts seen : List String) :
    texts.foldl appendNew seen
      = (texts.filter (· ≠ "")).foldl (fun seen s => if s ∈ seen then seen else seen ++ [s])
        seen := by
  induction texts generalizing seen with
  | nil => rfl
  | cons s rest ih =>
    rw [List.foldl_cons, ih]
    by_cases hs : s = ""
    · rw [List.filter_cons_of_neg (by simpa using hs), appendNew, if_pos (Or.inl hs)]
    · rw [List.filter_cons_of_pos (by simpa using hs), List.foldl_cons, appendNew]
      simp only [hs, false_or]

theorem foldl_appendNew_nil (texts : List String) : texts.foldl appendNew [] = textsOnce texts := by
  rw [foldl_appendNew, textsOnce, ← Source.distinct_eq_eraseDups]
  rfl

theorem mem_textsOnce {s : String} {texts : List String} :
    s ∈ textsOnce texts ↔ s ∈ texts ∧ s ≠ "" := by
  simp [textsOnce]

theorem nodup_textsOnce (texts : List String) : (textsOnce texts).Nodup := by
  rw [textsOnce, ← Source.distinct_eq_eraseDups]
  exact Source.nodup_distinct _

/-- Different texts are left as they are, if none is empty. -/
theorem textsOnce_eq_self {texts : List String} (h : texts.Nodup) (hne : ∀ s ∈ texts, s ≠ "") :
    textsOnce texts = texts := by
  have hall : texts.filter (· ≠ "") = texts :=
    List.filter_eq_self.2 fun s hs => by simpa using hne s hs
  rw [textsOnce, hall, ← Source.distinct_eq_eraseDups, Source.distinct_eq_self h]

/-! ## Putting facts into a document -/

namespace Document

/-- The document with the facts of a list in it, kind by kind. -/
def gather (doc : Document) (facts : List Fact) : Document :=
  { doc with
    identifier? := doc.identifier?.or (firstText? (valuesOfKind .identifier facts))
    description? := doc.description?.or (firstText? (valuesOfKind .description facts))
    narrative? := doc.narrative?.or (firstText? (valuesOfKind .narrative facts))
    examples := doc.examples ++ examplesOf facts
    supportedTypes :=
      ((valuesOfKind .supportedTypes facts).map FactValue.toText).foldl appendNew doc.supportedTypes
    aliases := (((valuesOfKind .aliases facts).map FactValue.toText).filter (· ≠ doc.name)).foldl
      appendNew doc.aliases }

theorem gather_nil (doc : Document) : doc.gather [] = doc := by
  simp [gather, valuesOfKind, examplesOf, factsOfKind, firstText?]

theorem gather_append (doc : Document) (facts facts' : List Fact) :
    doc.gather (facts ++ facts') = (doc.gather facts).gather facts' := by
  simp [gather, firstText?_append, Option.or_assoc]

/-- The value that a document has of a kind with a single one. -/
def said? (doc : Document) : Extractor → Option String
  | .identifier => doc.identifier?
  | .description => doc.description?
  | .narrative => doc.narrative?
  | _ => none

theorem said?_gather {kind : Extractor} (h : kind ∈ Extractor.single) (doc : Document)
    (facts : List Fact) :
    (doc.gather facts).said? kind = (doc.said? kind).or (firstText? (valuesOfKind kind facts)) := by
  simp only [Extractor.single, List.mem_cons, List.not_mem_nil, or_false] at h
  rcases h with rfl | rfl | rfl <;> rfl

/-- To put the facts into the document, an integer has to be written that is too long: in the first
value that means something of a kind of which the document has none yet, or in a list. -/
def LongFor (doc : Document) (facts : List Fact) : Prop :=
  (∃ kind ∈ Extractor.single, doc.said? kind = none
      ∧ ∃ v, (valuesOfKind kind facts).find? (·.isSaid) = some v ∧ v.IsLong)
    ∨ ∃ kind ∈ [Extractor.supportedTypes, .aliases], ∃ v ∈ valuesOfKind kind facts, v.IsLong

theorem longFor_append {doc : Document} {facts facts' : List Fact} :
    doc.LongFor (facts ++ facts') ↔ doc.LongFor facts ∨ (doc.gather facts).LongFor facts' := by
  have hsingle : ∀ kind ∈ Extractor.single, (doc.said? kind = none
        ∧ ∃ v, (valuesOfKind kind (facts ++ facts')).find? (·.isSaid) = some v ∧ v.IsLong)
      ↔ (doc.said? kind = none
          ∧ ∃ v, (valuesOfKind kind facts).find? (·.isSaid) = some v ∧ v.IsLong)
        ∨ ((doc.gather facts).said? kind = none
          ∧ ∃ v, (valuesOfKind kind facts').find? (·.isSaid) = some v ∧ v.IsLong) := by
    intro kind hkind
    rw [valuesOfKind_append, List.find?_append, said?_gather hkind, firstText?]
    cases hfirst : (valuesOfKind kind facts).find? (·.isSaid) <;> simp
  have hlists : (∃ kind ∈ [Extractor.supportedTypes, .aliases],
        ∃ v ∈ valuesOfKind kind (facts ++ facts'), v.IsLong)
      ↔ (∃ kind ∈ [Extractor.supportedTypes, .aliases], ∃ v ∈ valuesOfKind kind facts, v.IsLong)
        ∨ ∃ kind ∈ [Extractor.supportedTypes, .aliases],
            ∃ v ∈ valuesOfKind kind facts', v.IsLong := by
    simp only [valuesOfKind_append, List.mem_append, or_and_right, exists_or, and_or_left]
  rw [LongFor, LongFor, LongFor, hlists, or_or_or_comm]
  refine or_congr ?_ Iff.rfl
  constructor
  · rintro ⟨kind, hkind, hlong⟩
    exact ((hsingle kind hkind).1 hlong).imp (⟨kind, hkind, ·⟩) (⟨kind, hkind, ·⟩)
  · rintro (⟨kind, hkind, hlong⟩ | ⟨kind, hkind, hlong⟩)
    · exact ⟨kind, hkind, (hsingle kind hkind).2 (.inl hlong)⟩
    · exact ⟨kind, hkind, (hsingle kind hkind).2 (.inr hlong)⟩

/-- What putting facts into a document gives. -/
inductive Adds (doc : Document) (facts : List Fact) : Except Yaml.ValueFault Document → Prop where
  | ok (h : ¬ doc.LongFor facts) : Adds doc facts (.ok (doc.gather facts))
  | error (h : doc.LongFor facts) : Adds doc facts (.error .tooLongToWrite)

theorem Adds.of_iff {doc : Document} {facts : List Fact} {result : Except Yaml.ValueFault Document}
    {P : Prop} (h : doc.LongFor facts ↔ P) (herror : P → result = .error .tooLongToWrite)
    (hok : ¬ P → result = .ok (doc.gather facts)) : doc.Adds facts result := by
  by_cases hlong : P
  · rw [herror hlong]
    exact .error (h.2 hlong)
  · rw [hok hlong]
    exact .ok (mt h.1 hlong)

/-- What one fact alone puts into a document. -/
theorem gather_singleton (doc : Document) (fact : Fact) :
    doc.gather [fact] =
      match fact with
      | .identifier v => { doc with identifier? := doc.identifier?.or (firstText? [v]) }
      | .description v => { doc with description? := doc.description?.or (firstText? [v]) }
      | .narrative v => { doc with narrative? := doc.narrative?.or (firstText? [v]) }
      | .usage e => { doc with examples := doc.examples ++ [e] }
      | .supportedType v =>
        { doc with supportedTypes := appendNew doc.supportedTypes v.toText }
      | .synonym v =>
        if v.toText = doc.name then doc
        else { doc with aliases := appendNew doc.aliases v.toText }
      | .other _ => doc := by
  have hnone : firstText? [] = none := rfl
  cases fact with
  | synonym v =>
    by_cases hname : v.toText = doc.name <;>
      simp [gather, valuesOfKind_singleton, examplesOf_singleton, Fact.source?, Fact.value?,
        Fact.usage?, hnone, hname]
  | _ =>
    simp [gather, valuesOfKind_singleton, examplesOf_singleton, Fact.source?, Fact.value?,
      Fact.usage?, hnone]

theorem longFor_single {doc : Document} {fact : Fact} {kind : Extractor} {v : FactValue}
    (hkind : kind ∈ Extractor.single) (hsource : fact.source? = some kind)
    (hvalue : fact.value? = some v) :
    doc.LongFor [fact] ↔ doc.said? kind = none ∧ v.isSaid = true ∧ v.IsLong := by
  simp only [Extractor.single, List.mem_cons, List.not_mem_nil, or_false] at hkind
  rcases hkind with rfl | rfl | rfl <;>
    simp [LongFor, valuesOfKind_singleton, hsource, hvalue, Extractor.single, and_assoc]

theorem longFor_listed {doc : Document} {fact : Fact} {kind : Extractor} {v : FactValue}
    (hkind : kind ∈ [Extractor.supportedTypes, .aliases]) (hsource : fact.source? = some kind)
    (hvalue : fact.value? = some v) : doc.LongFor [fact] ↔ v.IsLong := by
  simp only [List.mem_cons, List.not_mem_nil, or_false] at hkind
  rcases hkind with rfl | rfl <;>
    simp [LongFor, valuesOfKind_singleton, hsource, hvalue, Extractor.single]

/-- A fact of a kind with a single value is put in by `place`, unless the document has one. -/
theorem adds_single {doc : Document} {fact : Fact} {kind : Extractor} {v : FactValue}
    (hkind : kind ∈ Extractor.single) (hsource : fact.source? = some kind)
    (hvalue : fact.value? = some v) (place : Option String → Document)
    (hadd : doc.addFact fact = (firstSaid (doc.said? kind) v).map place)
    (hgather : doc.gather [fact] = place ((doc.said? kind).or (firstText? [v]))) :
    doc.Adds [fact] (doc.addFact fact) := by
  refine .of_iff (longFor_single hkind hsource hvalue) ?_ fun h => ?_
  · rintro ⟨hfound, hsaid, hlong⟩
    rw [hadd, hfound, firstSaid_of_isLong hsaid hlong]
    rfl
  · rw [hadd, firstSaid_of_not_isLong h, hgather]
    rfl

/-- A fact of a list is put in by `place`. -/
theorem adds_listed {doc : Document} {fact : Fact} {kind : Extractor} {v : FactValue}
    (hkind : kind ∈ [Extractor.supportedTypes, .aliases]) (hsource : fact.source? = some kind)
    (hvalue : fact.value? = some v) (place : String → Document)
    (hadd : doc.addFact fact = v.written.map place)
    (hgather : doc.gather [fact] = place v.toText) : doc.Adds [fact] (doc.addFact fact) := by
  refine .of_iff (longFor_listed hkind hsource hvalue) (fun h => ?_) fun h => ?_
  · rw [hadd, FactValue.written_of_isLong h]
    rfl
  · rw [hadd, FactValue.written_of_not_isLong h, hgather]
    rfl

/-- One more fact is a fact of its kind. -/
theorem adds_addFact (doc : Document) (fact : Fact) : doc.Adds [fact] (doc.addFact fact) := by
  have hgather := gather_singleton doc fact
  cases fact with
  | identifier v =>
    refine adds_single (by decide) rfl rfl (fun identifier? => { doc with identifier? }) ?_ hgather
    rw [addFact, said?]
    cases firstSaid doc.identifier? v <;> rfl
  | description v =>
    refine adds_single (by decide) rfl rfl (fun description? => { doc with description? }) ?_
      hgather
    rw [addFact, said?]
    cases firstSaid doc.description? v <;> rfl
  | narrative v =>
    refine adds_single (by decide) rfl rfl (fun narrative? => { doc with narrative? }) ?_ hgather
    rw [addFact, said?]
    cases firstSaid doc.narrative? v <;> rfl
  | supportedType v =>
    refine adds_listed (by decide) rfl rfl
      (fun name => { doc with supportedTypes := appendNew doc.supportedTypes name }) ?_ hgather
    rw [addFact]
    cases v.written <;> rfl
  | synonym v =>
    refine adds_listed (by decide) rfl rfl (fun name =>
      if name = doc.name then doc else { doc with aliases := appendNew doc.aliases name }) ?_
      hgather
    rw [addFact]
    cases v.written <;> rfl
  | usage e | other kind =>
    refine .of_iff (P := False) ?_ False.elim fun _ => ?_
    · simp [LongFor, valuesOfKind_singleton, Fact.source?, Fact.value?, Extractor.single]
    · rw [hgather]
      rfl

/-- **Facts put in one after the other are put in kind by kind.** -/
theorem adds_foldlM (facts : List Fact) (doc : Document) :
    doc.Adds facts (facts.foldlM addFact doc) := by
  induction facts generalizing doc with
  | nil =>
    have hnone : ¬ doc.LongFor [] := by simp [LongFor, valuesOfKind, factsOfKind]
    have h := Adds.ok hnone
    rwa [gather_nil] at h
  | cons fact rest ih =>
    rw [List.foldlM_cons]
    have hfact := adds_addFact doc fact
    generalize doc.addFact fact = result at hfact
    rw [← List.singleton_append]
    cases hfact with
    | error h => exact .error (longFor_append.2 (.inl h))
    | ok h =>
      have hrest := ih (doc.gather [fact])
      show Adds doc _ (rest.foldlM addFact (doc.gather [fact]))
      generalize rest.foldlM addFact (doc.gather [fact]) = result at hrest
      cases hrest with
      | error h' => exact .error (longFor_append.2 (.inr h'))
      | ok h' =>
        rw [← gather_append]
        exact .ok fun hlong => (longFor_append.1 hlong).elim h h'

/-! ## The document of a list of facts -/

/-- One of the values that have to be written is an integer that is too long: the first of a kind
with a single one, or any in a list. -/
def LongAmong (facts : List Fact) : Prop :=
  (∃ kind ∈ Extractor.single,
      ∃ v, (valuesOfKind kind facts).find? (·.isSaid) = some v ∧ v.IsLong)
    ∨ ∃ kind ∈ [Extractor.supportedTypes, .aliases], ∃ v ∈ valuesOfKind kind facts, v.IsLong

theorem not_longAmong {facts : List Fact}
    (h : ∀ fact ∈ facts, ∀ v, fact.value? = some v → ¬ v.IsLong) : ¬ LongAmong facts := by
  have hvalues : ∀ kind, ∀ v ∈ valuesOfKind kind facts, ¬ v.IsLong := by
    intro kind v hv
    obtain ⟨fact, hfact, hvalue⟩ := List.mem_filterMap.1 hv
    exact h fact ((List.mem_filter.1 hfact).1) v hvalue
  rintro (⟨kind, -, v, hfirst, hlong⟩ | ⟨kind, -, v, hmem, hlong⟩)
  · exact hvalues kind v (List.mem_of_find?_eq_some hfirst) hlong
  · exact hvalues kind v hmem hlong

/-- The document that facts give, by the facts of each kind. -/
def ofKinds (categories : CategoryMap) (path : Path) (facts : List Fact) : Document where
  name := path.stem
  path := path
  identifier? := firstText? (valuesOfKind .identifier facts)
  description? := firstText? (valuesOfKind .description facts)
  narrative? := firstText? (valuesOfKind .narrative facts)
  examples := examplesOf facts
  supportedTypes := textsOnce ((valuesOfKind .supportedTypes facts).map FactValue.toText)
  aliases :=
    textsOnce (((valuesOfKind .aliases facts).map FactValue.toText).filter (· ≠ path.stem))
  negatable := (examplesOf facts).any (·.negated)
  category := categories.categoryOf path

/-- That document, if there is anything to put on a page. -/
def ofKinds? (categories : CategoryMap) (path : Path) (facts : List Fact) : Option Document :=
  if (ofKinds categories path facts).hasContent then some (ofKinds categories path facts) else none

variable {categories : CategoryMap} {path : Path} {facts : List Fact}

theorem longFor_iff (name : String) (path : Path) (facts : List Fact) :
    ({ name, path } : Document).LongFor facts ↔ LongAmong facts := by
  have hnone : ∀ kind, ({ name, path } : Document).said? kind = none := by
    intro kind
    cases kind <;> rfl
  simp only [LongFor, LongAmong, hnone, true_and]

theorem ofFacts?_of_longAmong (h : LongAmong facts) :
    ofFacts? categories path facts = .error .tooLongToWrite := by
  rw [ofFacts?]
  have hadds := adds_foldlM facts { name := path.stem, path }
  generalize facts.foldlM addFact { name := path.stem, path } = result at hadds
  cases hadds with
  | ok hshort => exact absurd ((longFor_iff _ _ _).2 h) hshort
  | error _ => rfl

/-- **The facts of each kind decide**, where they can be written. -/
theorem ofFacts?_of_not_longAmong (h : ¬ LongAmong facts) :
    ofFacts? categories path facts = .ok (ofKinds? categories path facts) := by
  rw [ofFacts?]
  have hadds := adds_foldlM facts { name := path.stem, path }
  generalize facts.foldlM addFact { name := path.stem, path } = result at hadds
  cases hadds with
  | error hlong => exact absurd ((longFor_iff _ _ _).1 hlong) h
  | ok _ =>
    simp only [bind, Except.bind, gather, ofKinds?, ofKinds, foldl_appendNew_nil, hasContent,
      Option.none_or, List.nil_append]
    rfl

/-- There is nothing for a page if no kind with a single value has one and there is no example. -/
theorem hasContent_ofKinds_eq_false_iff (categories : CategoryMap) (path : Path)
    (facts : List Fact) :
    (ofKinds categories path facts).hasContent = false ↔
      (∀ kind ∈ Extractor.single, firstText? (valuesOfKind kind facts) = none)
        ∧ examplesOf facts = [] := by
  simp [hasContent, ofKinds, Extractor.single, nonEmpty?_firstText?, and_comm, and_left_comm]

theorem ofKinds?_eq_none_iff :
    ofKinds? categories path facts = none ↔
      (∀ kind ∈ Extractor.single, firstText? (valuesOfKind kind facts) = none)
        ∧ examplesOf facts = [] := by
  rw [← hasContent_ofKinds_eq_false_iff categories path, ofKinds?]
  simp

theorem eq_ofKinds_of_ofKinds? {doc : Document} (h : ofKinds? categories path facts = some doc) :
    doc = ofKinds categories path facts := by
  rw [ofKinds?, Option.ite_none_right_eq_some, Option.some.injEq] at h
  exact h.2.symm

theorem ofFacts?_eq_ok_iff {doc? : Option Document} :
    ofFacts? categories path facts = .ok doc?
      ↔ ¬ LongAmong facts ∧ ofKinds? categories path facts = doc? := by
  by_cases h : LongAmong facts
  · simp [ofFacts?_of_longAmong h, h]
  · simp [ofFacts?_of_not_longAmong h, h]

theorem ofFacts?_eq_error_iff {fault : Yaml.ValueFault} :
    ofFacts? categories path facts = .error fault ↔ fault = .tooLongToWrite ∧ LongAmong facts := by
  by_cases h : LongAmong facts
  · simp [ofFacts?_of_longAmong h, h, eq_comm]
  · simp [ofFacts?_of_not_longAmong h, h]

theorem eq_ofKinds_of_ofFacts? {doc : Document}
    (h : ofFacts? categories path facts = .ok (some doc)) : doc = ofKinds categories path facts :=
  eq_ofKinds_of_ofKinds? (ofFacts?_eq_ok_iff.1 h).2

/-- What is found in a source file is a text, and never too long to be written. -/
theorem ofFacts?_sourceFacts (categories : CategoryMap) (path : Path) (file : SourceFile)
    (extractors : List Extractor) :
    ofFacts? categories path (file.facts extractors)
      = .ok (ofKinds? categories path (file.facts extractors)) := by
  refine ofFacts?_of_not_longAmong (not_longAmong fun fact hfact v hv => ?_)
  obtain ⟨kind, -, hmem⟩ := List.mem_flatMap.1 hfact
  obtain ⟨s, rfl⟩ : ∃ s, v = .text s := by
    cases kind <;> obtain ⟨s, -, rfl⟩ := List.mem_map.1 hmem <;> cases hv <;> exact ⟨_, rfl⟩
  rintro ⟨n, ⟨⟩, -⟩

/-- Only the facts of each kind count, and not how they are mixed. -/
theorem ofFacts?_congr {facts facts' : List Fact}
    (h : ∀ kind, factsOfKind kind facts' = factsOfKind kind facts) (categories : CategoryMap)
    (path : Path) : ofFacts? categories path facts' = ofFacts? categories path facts := by
  have hkinds : ofKinds categories path facts' = ofKinds categories path facts := by
    simp only [ofKinds, valuesOfKind, examplesOf, h]
  have hlong : LongAmong facts' ↔ LongAmong facts := by
    simp only [LongAmong, valuesOfKind, h]
  by_cases hfacts : LongAmong facts
  · rw [ofFacts?_of_longAmong hfacts, ofFacts?_of_longAmong (hlong.2 hfacts)]
  · rw [ofFacts?_of_not_longAmong hfacts, ofFacts?_of_not_longAmong (mt hlong.1 hfacts), ofKinds?,
      ofKinds?, hkinds]

/-- **The document of a list of facts, field by field.** There is a fault exactly if one of the
values that have to be written is an integer that is too long. -/
theorem ofFacts?_by_kind (categories : CategoryMap) (path : Path) (facts : List Fact) :
    (∀ fault, ofFacts? categories path facts = .error fault
        ↔ fault = .tooLongToWrite ∧ LongAmong facts)
      ∧ (ofFacts? categories path facts = .ok none ↔
        ¬ LongAmong facts
          ∧ (∀ kind ∈ Extractor.single, firstText? (valuesOfKind kind facts) = none)
          ∧ examplesOf facts = [])
      ∧ (∀ doc, ofFacts? categories path facts = .ok (some doc) →
        doc = ofKinds categories path facts
          ∧ doc.supportedTypes.Nodup ∧ "" ∉ doc.supportedTypes
          ∧ doc.aliases.Nodup ∧ "" ∉ doc.aliases ∧ doc.name ∉ doc.aliases
          ∧ (doc.negatable = true ↔ ∃ e ∈ doc.examples, e.negated = true))
      ∧ ∀ facts', (∀ kind, factsOfKind kind facts' = factsOfKind kind facts) →
        ofFacts? categories path facts' = ofFacts? categories path facts := by
  refine ⟨fun fault => ofFacts?_eq_error_iff, ?_, fun doc hdoc => ?_,
    fun facts' h => ofFacts?_congr h categories path⟩
  · rw [ofFacts?_eq_ok_iff, ofKinds?_eq_none_iff]
  · obtain rfl := eq_ofKinds_of_ofKinds? (ofFacts?_eq_ok_iff.1 hdoc).2
    refine ⟨rfl, nodup_textsOnce _, ?_, nodup_textsOnce _, ?_, ?_, List.any_eq_true⟩
    · simp [ofKinds, mem_textsOnce]
    · simp [ofKinds, mem_textsOnce]
    · simp [ofKinds, mem_textsOnce]

/-- Facts of several kinds, some of them repeated, empty or of an unknown kind. -/
def mixed : List Fact :=
  [.supportedType (.text "int"), .description (.text ""), .synonym (.text "beNull"),
    .other "note", .description (.number 7), .supportedType (.text "int"),
    .synonym (.text "isNull"), .description (.text "late"), .supportedType .missing]

theorem not_longAmong_mixed : ¬ LongAmong mixed := by
  refine not_longAmong fun fact hfact v hv => ?_
  rintro ⟨n, rfl, hlong⟩
  have hseven : n = 7 := by
    simp only [mixed, List.mem_cons, List.not_mem_nil, or_false] at hfact
    rcases hfact with rfl | rfl | rfl | rfl | rfl | rfl | rfl | rfl | rfl <;> cases hv
    rfl
  subst hseven
  exact absurd (Decimal.lt_writingLimit (k := 1) (by decide) (by decide)) (Nat.not_lt.2 hlong)

/-- The same facts in another mixture give the same document. -/
theorem ofFacts?_by_kind_mixed :
    ∃ doc, ofFacts? {} ⟨.here, ["operations", "type", "beNull.d"]⟩ mixed = .ok (some doc)
      ∧ doc.description? = some "7" ∧ doc.supportedTypes = ["int", "None"]
      ∧ doc.aliases = ["isNull"] ∧ doc.category = "types"
      ∧ ofFacts? {} ⟨.here, ["operations", "type", "beNull.d"]⟩
        (factsOfKind .aliases mixed ++ factsOfKind .supportedTypes mixed
          ++ factsOfKind .description mixed) = .ok (some doc) := by
  obtain ⟨-, -, hfields, hcongr⟩ :=
    ofFacts?_by_kind {} ⟨.here, ["operations", "type", "beNull.d"]⟩ mixed
  have hsame := hcongr (factsOfKind .aliases mixed ++ factsOfKind .supportedTypes mixed
    ++ factsOfKind .description mixed) (fun kind => by cases kind <;> decide)
  have hdoc : ofFacts? {} ⟨.here, ["operations", "type", "beNull.d"]⟩ mixed = .ok (some
      (ofKinds {} ⟨.here, ["operations", "type", "beNull.d"]⟩ mixed)) :=
    ofFacts?_eq_ok_iff.2 ⟨not_longAmong_mixed, by decide +kernel⟩
  exact ⟨_, hdoc, by decide, by decide, by decide, by decide, hsame.trans hdoc⟩

end Document
end RefPages
