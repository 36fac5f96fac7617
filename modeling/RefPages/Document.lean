import RefPages.Path

/-!
# Documents

The record of one operation: what is known of it from its source file, ready to be put on a page.

* `Example` holds the statements taken from one labelled block of tests.
* `Document` is the record; `Document.displayName` is the name a page shows.
* `Document.hasContent` says whether there is anything to put on a page.
-/

set_option autoImplicit false
namespace RefPages

/-- The statements taken from one labelled block of tests. -/
structure Example where
  label : String := ""
  code : String := ""
  negated : Bool := false
  failure : Bool := false
  deriving DecidableEq, Repr

/-- What is known of one operation. -/
structure Document where
  name : String
  path : Path := {}
  description? : Option String := none
  narrative? : Option String := none
  examples : List Example := []
  supportedTypes : List String := []
  aliases : List String := []
  negatable : Bool := false
  identifier? : Option String := none
  category : String := "other"
  deriving DecidableEq, Repr

/-- The text, unless it is missing or empty. -/
def nonEmpty? (s? : Option String) : Option String :=
  s?.filter (· ≠ "")

@[simp] theorem nonEmpty?_none : nonEmpty? none = none := rfl

theorem nonEmpty?_some (s : String) : nonEmpty? (some s) = if s = "" then none else some s := by
  by_cases h : s = "" <;> simp [nonEmpty?, h]

theorem nonEmpty?_eq_none_iff {s? : Option String} : nonEmpty? s? = none ↔ s?.getD "" = "" := by
  cases s? <;> simp [nonEmpty?]

theorem nonEmpty?_eq_some_iff {s? : Option String} {s : String} :
    nonEmpty? s? = some s ↔ s? = some s ∧ s ≠ "" := by
  simp [nonEmpty?]

namespace Document

/-- The declared name, or else the name of the file. -/
def displayName (doc : Document) : String :=
  (nonEmpty? doc.identifier?).getD doc.name

/-- Is there a description, a narrative, an example or a declared name? -/
def hasContent (doc : Document) : Bool :=
  (nonEmpty? doc.description?).isSome || (nonEmpty? doc.narrative?).isSome
    || !doc.examples.isEmpty || (nonEmpty? doc.identifier?).isSome

end Document
end RefPages
