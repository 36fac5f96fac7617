import RefPages.Document
import RefPages.Yaml.Scalar

/-!
# Pages

A page is front matter with the title and the description, a heading, the texts, and the sections
for examples, supported types, aliases and modifiers. Sections stand in this order and an empty one
is left out. The page depends on nothing but the document.

* `Document.page` is the text of the page, `Document.pageLines` its lines.
* `Document.frontMatter` are the lines of the front matter.
* `ExampleGroup` sorts the examples: failures, negations, and the rest.
-/

set_option autoImplicit false
namespace RefPages

open Text

/-- The groups in which examples are shown. A failure is never shown as a negation. -/
inductive ExampleGroup where
  | basic
  | negated
  | failure
  deriving DecidableEq, Repr

namespace ExampleGroup

/-- The group of an example. -/
def ofExample (e : Example) : ExampleGroup :=
  if e.failure then .failure else if e.negated then .negated else .basic

/-- How many examples of a group are shown. -/
def limit : ExampleGroup → Nat
  | .basic => 3
  | .negated => 2
  | .failure => 1

/-- The lines in front of a group's code. -/
def heading : ExampleGroup → List String
  | .basic => ["### Basic Usage", ""]
  | .negated => ["### With Negation", ""]
  | .failure =>
    ["### What Failures Look Like", "",
     "When the assertion fails, you'll see a clear error message:", ""]

/-- The line of code in front of a group's examples. -/
def preamble : ExampleGroup → List String
  | .failure => ["// This would fail:"]
  | _ => []

/-- The members of a group, in order. -/
def members (group : ExampleGroup) (examples : List Example) : List Example :=
  examples.filter (ofExample · = group)

/-- The lines of a block of code. -/
def codeBlock (snippets : List String) : List String :=
  ["```d"] ++ snippets ++ ["```", ""]

/-- The lines of a group; none if it is empty. -/
def lines (group : ExampleGroup) (examples : List Example) : List String :=
  match group.members examples with
  | [] => []
  | members =>
    group.heading ++ codeBlock (group.preamble ++ (members.take group.limit).map (·.code))

end ExampleGroup

/-- The modifiers of an assertion and what they do. -/
def modifiers : List (String × String) :=
  [(".not", "Negates the assertion"), (".to", "Language chain (no effect)"),
   (".be", "Language chain (no effect)")]

namespace Document

/-- The description shown in the front matter. -/
def summary (doc : Document) : String :=
  ((nonEmpty? doc.description?).or (nonEmpty? doc.narrative?)).getD
    ("The " ++ doc.displayName ++ " assertion")

/-- The front matter's mapping, as it is written. -/
def frontMatterText (doc : Document) : String :=
  Yaml.writeMapping [("title", doc.displayName), ("description", doc.summary)]

/-- The lines of the front matter, its delimiters included. -/
def frontMatter (doc : Document) : List String :=
  ["---"] ++ Text.lines doc.frontMatterText ++ ["---", ""]

/-- The heading and the texts below it. A narrative that repeats the description is left out. -/
def introduction (doc : Document) : List String :=
  ["# ." ++ doc.displayName ++ "()", ""]
    ++ (match nonEmpty? doc.description? with
      | some text => [text, ""]
      | none => [])
    ++ (match nonEmpty? doc.narrative? with
      | some text => if doc.description? = some text then [] else [text, ""]
      | none => [])

/-- The section of examples. -/
def exampleLines (doc : Document) : List String :=
  if doc.examples.isEmpty then []
  else
    ["## Examples", ""] ++ ExampleGroup.basic.lines doc.examples
      ++ ExampleGroup.negated.lines doc.examples ++ ExampleGroup.failure.lines doc.examples

/-- The section of supported types. -/
def typeLines (doc : Document) : List String :=
  if doc.supportedTypes.isEmpty then []
  else ["## Supported Types", ""] ++ doc.supportedTypes.map (fun t => "- `" ++ t ++ "`") ++ [""]

/-- The section of aliases. -/
def aliasLines (doc : Document) : List String :=
  if doc.aliases.isEmpty then []
  else ["## Aliases", ""] ++ doc.aliases.map (fun a => "- `." ++ a ++ "()`") ++ [""]

/-- The section of modifiers. -/
def modifierLines (doc : Document) : List String :=
  if !doc.negatable then []
  else
    ["## Modifiers", "", "This assertion supports the following modifiers:", ""]
      ++ modifiers.map (fun (modifier, effect) => "- `" ++ modifier ++ "` - " ++ effect) ++ [""]

/-- The lines of the page. -/
def pageLines (doc : Document) : List String :=
  doc.frontMatter ++ doc.introduction ++ doc.exampleLines ++ doc.typeLines ++ doc.aliasLines
    ++ doc.modifierLines

/-- The page. -/
def page (doc : Document) : String :=
  joinLines doc.pageLines

end Document
end RefPages
