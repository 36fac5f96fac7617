import Mathlib.Logic.Basic
import RefPages.Proofs.Source.CommentPiece
import RefPages.Proofs.Source.Shape

/-!
# The leftmost declaration

A declared name, a description and a list of types are taken from the first place of a text at which
their shape can be read. Each shape has parts that may be left out, and words and white space of any
length; what is taken does not hang on how these are read.

* `Declares`, `Describes` and `Lists` say that a text starts with a shape, and with which name,
  literal or list. `eq_of_starts`: what is read in one way only is determined by the text.
* `Leftmost` is the first position at which a shape can be read, and `facts_of_findFirst` says that
  facts are made of what stands there.
* `facts_leftmost`: **what the extractors of declarations, descriptions and types find.**
-/

set_option autoImplicit false
namespace RefPages
namespace Source

open Text

/-! ## What a text starts with -/

/-- The text starts with a declaration of `name`, whose last word ends there. -/
def Declares (name cs : List Char) : Prop :=
  ∃ text rest, IsDeclaration name text ∧ atWordEnd rest = true ∧ cs = text ++ rest

/-- The text starts with a description that holds `literal`. -/
def Describes (literal cs : List Char) : Prop :=
  ∃ text rest, IsDescription literal text ∧ cs = text ++ rest

/-- The text starts with a loop over the types in `entries`. -/
def Lists (entries cs : List Char) : Prop :=
  ∃ text rest, IsTypeList entries text ∧ cs = text ++ rest

/-! ## The first position -/

/-- At position `i` the text goes on with a shape that gives `a`, and at no position in front of it
with one that gives anything. -/
def Leftmost {α : Type} (Starts : α → List Char → Prop) (text : List Char) (i : Nat) (a : α) :
    Prop :=
  Starts a (text.drop i) ∧ ∀ j < i, ∀ b, ¬ Starts b (text.drop j)

section

variable {α : Type} {shape : List Char → Option α} {Starts : α → List Char → Prop}
  {text : List Char}

/-- What a text starts with is determined, if it is read where it is written. -/
theorem eq_of_starts (h : ∀ cs a, shape cs = some a ↔ Starts a cs) {cs : List Char} {a b : α}
    (ha : Starts a cs) (hb : Starts b cs) : a = b :=
  Option.some.inj (((h cs a).2 ha).symm.trans ((h cs b).2 hb))

theorem Leftmost.unique (h : ∀ cs a, shape cs = some a ↔ Starts a cs) {i j : Nat} {a b : α}
    (hi : Leftmost Starts text i a) (hj : Leftmost Starts text j b) : i = j ∧ a = b := by
  obtain rfl : i = j := by
    rcases Nat.lt_trichotomy i j with hlt | heq | hlt
    · exact absurd hi.1 (hj.2 i hlt a)
    · exact heq
    · exact absurd hj.1 (hi.2 j hlt b)
  exact ⟨rfl, eq_of_starts h hi.1 hj.1⟩

/-- A shape that is found at all is found at the first position. -/
theorem exists_leftmost_of_findFirst (h : ∀ cs a, shape cs = some a ↔ Starts a cs) {a : α}
    (hfound : findFirst shape text = some a) : ∃ i, Leftmost Starts text i a := by
  obtain ⟨i, hread, hbefore⟩ := exists_drop_of_findFirst hfound
  refine ⟨i, (h _ a).1 hread, fun j hj b hb => ?_⟩
  exact absurd ((h _ b).2 hb) (by simp [hbefore j hj])

theorem not_starts_of_findFirst (h : ∀ cs a, shape cs = some a ↔ Starts a cs)
    (hnone : findFirst shape text = none) (i : Nat) (a : α) : ¬ Starts a (text.drop i) := by
  intro ha
  exact absurd ((h _ a).2 ha) (by simp [findFirst_eq_none_iff.1 hnone _ (List.drop_suffix i text)])

/-- Facts that are made of what is found are made of what stands at the first position; without
anything to be found there are none. -/
theorem facts_of_findFirst (h : ∀ cs a, shape cs = some a ↔ Starts a cs) {facts : List Fact}
    {made : α → List Fact} (hfacts : facts = (findFirst shape text).elim [] made) :
    (∀ i a, Leftmost Starts text i a → facts = made a)
      ∧ ((∀ i a, ¬ Starts a (text.drop i)) → facts = []) := by
  cases hfound : findFirst shape text with
  | none =>
    rw [hfacts, hfound]
    exact ⟨fun i a ha => absurd ha.1 (not_starts_of_findFirst h hfound i a), fun _ => rfl⟩
  | some b =>
    obtain ⟨j, hj⟩ := exists_leftmost_of_findFirst h hfound
    rw [hfacts, hfound]
    refine ⟨fun i a ha => ?_, fun hnone => absurd hj.1 (hnone j b)⟩
    obtain ⟨-, rfl⟩ := ha.unique h hj
    rfl

end

/-! ## The facts of the three shapes -/

/-- Texts are compared in one way, whether character by character or at once. -/
theorem distinct_texts (texts : List (List Char)) : distinct texts = texts.eraseDups := by
  rw [distinct_eq_eraseDups, lawful_beq_subsingleton instBEqOfDecidableEq List.instBEq]

theorem facts_identifier (file : SourceFile) :
    Extractor.identifier.facts file = (findFirst declaration? file.text.toList).elim []
      fun name => [.identifier (.text (String.ofList name))] := by
  rw [Extractor.facts, identifier?]
  cases findFirst declaration? file.text.toList <;> rfl

theorem facts_description (file : SourceFile) :
    Extractor.description.facts file = (findFirst descriptionAt? file.text.toList).elim []
      fun literal =>
        if literal = [] then [] else [.description (.text (String.ofList literal))] := by
  rw [Extractor.facts, description?]
  cases findFirst descriptionAt? file.text.toList with
  | none => rfl
  | some literal => cases literal <;> rfl

theorem facts_supportedTypes (file : SourceFile) :
    Extractor.supportedTypes.facts file = (findFirst typeListAt? file.text.toList).elim []
      fun entries => ((((splitOn ',' entries).map trim).filter (· ≠ [])).eraseDups).map fun entry =>
        .supportedType (.text (String.ofList entry)) := by
  rw [Extractor.facts, supportedTypes]
  cases findFirst typeListAt? file.text.toList with
  | none => rfl
  | some entries =>
    have hkept : ∀ entry : List Char, (!entry.isEmpty) = decide (entry ≠ []) := by
      intro entry
      cases entry <;> rfl
    simp only [distinct_texts, hkept]
    rfl

/-- **What is found of declarations, descriptions and lists of types.**

* Where a shape can be read, it gives one name, literal or list only.
* The identifier is the name in the leftmost declaration. The description is the literal in the
  leftmost description, unless it is empty. The types are the entries of the leftmost list: what
  stands between its commas, trimmed, and of equal ones the first.
* Without the shape in the text there are no facts. -/
theorem facts_leftmost (file : SourceFile) :
    (∀ cs, (∀ name name', Declares name cs → Declares name' cs → name = name')
        ∧ (∀ literal literal', Describes literal cs → Describes literal' cs → literal = literal')
        ∧ ∀ entries entries', Lists entries cs → Lists entries' cs → entries = entries')
      ∧ (∀ i name, Leftmost Declares file.text.toList i name →
        Extractor.identifier.facts file = [.identifier (.text (String.ofList name))])
      ∧ ((∀ i name, ¬ Declares name (file.text.toList.drop i)) →
        Extractor.identifier.facts file = [])
      ∧ (∀ i literal, Leftmost Describes file.text.toList i literal →
        Extractor.description.facts file
          = if literal = [] then [] else [.description (.text (String.ofList literal))])
      ∧ ((∀ i literal, ¬ Describes literal (file.text.toList.drop i)) →
        Extractor.description.facts file = [])
      ∧ (∀ i entries, Leftmost Lists file.text.toList i entries →
        ∃ pieces, entries = [','].intercalate pieces ∧ (∀ piece ∈ pieces, ',' ∉ piece)
          ∧ (∀ piece ∈ pieces, Trims piece (trim piece))
          ∧ Extractor.supportedTypes.facts file
            = (((pieces.map trim).filter (· ≠ [])).eraseDups).map fun entry =>
              .supportedType (.text (String.ofList entry)))
      ∧ ((∀ i entries, ¬ Lists entries (file.text.toList.drop i)) →
        Extractor.supportedTypes.facts file = []) := by
  have hdeclares : ∀ cs name, declaration? cs = some name ↔ Declares name cs :=
    fun _ _ => declaration?_eq_some_iff
  have hdescribes : ∀ cs literal, descriptionAt? cs = some literal ↔ Describes literal cs :=
    fun _ _ => descriptionAt?_eq_some_iff
  have hlists : ∀ cs entries, typeListAt? cs = some entries ↔ Lists entries cs :=
    fun _ _ => typeListAt?_eq_some_iff
  obtain ⟨hname, hnoName⟩ := facts_of_findFirst hdeclares (facts_identifier file)
  obtain ⟨hliteral, hnoLiteral⟩ := facts_of_findFirst hdescribes (facts_description file)
  obtain ⟨htypes, hnoTypes⟩ := facts_of_findFirst hlists (facts_supportedTypes file)
  refine ⟨fun cs => ⟨fun _ _ => eq_of_starts hdeclares, fun _ _ => eq_of_starts hdescribes,
    fun _ _ => eq_of_starts hlists⟩, hname, hnoName, hliteral, hnoLiteral, fun i entries h => ?_,
    hnoTypes⟩
  exact ⟨splitOn ',' entries, (intercalate_splitOn ',' entries).symm,
    fun _ hpiece => not_mem_of_mem_splitOn hpiece, fun piece _ => trims_trim piece,
    htypes i entries h⟩

-- A first description that is empty hides the next one.
example : Extractor.description.facts ⟨⟨.here, ["a.d"]⟩,
    "static immutable aDescription = \"\"; static immutable string bDescription = \"b\";"⟩
      = [] := by
  decide +kernel

end Source
end RefPages
