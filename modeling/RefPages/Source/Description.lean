import RefPages.Source.Scan

/-!
# The description of an operation

A description is a constant whose name ends in `Description` or `description`, with or without a
type in front of the name.

* `descriptionAt?` reads one, `description?` gives the first one in a text. An empty first one hides
  the ones after it.
-/

set_option autoImplicit false
namespace RefPages
namespace Source

open Text

/-- Does the word end in `Description` or `description`? -/
def namesDescription (word : List Char) : Bool :=
  "Description".toList.isSuffixOf word || "description".toList.isSuffixOf word

/-- The literal given to the name in front of `cs`. -/
def descriptionValue? (name cs : List Char) : Option (List Char) := do
  if !namesDescription name then none
  let cs ← skip? "=" (skipBlanks cs)
  let cs ← skip? "\"" (skipBlanks cs)
  match cs.dropWhile (· != '"') with
  | [] => none
  | _ => some (cs.takeWhile (· != '"'))

/-- The text of the description in front. -/
def descriptionAt? (cs : List Char) : Option (List Char) := do
  let cs ← skip? "static" cs
  let cs ← someBlanks? cs
  let cs ← skip? "immutable" cs
  let cs ← someBlanks? cs
  let (first, cs) ← word? cs
  match word? (skipBlanks cs) with
  | some (second, cs) => descriptionValue? second cs
  | none => descriptionValue? first cs

/-- The text of the first description, if it is not empty. -/
def description? (cs : List Char) : Option (List Char) :=
  (findFirst descriptionAt? cs).filter (!·.isEmpty)

end Source
end RefPages
