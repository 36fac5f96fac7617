import RefPages.Category
import RefPages.Decimal.Limit
import RefPages.Document
import RefPages.Yaml.Fault

/-!
# Facts

A fact is one piece of knowledge about a source file. A document is put together from facts in any
order: of each single-valued kind the first fact that means something counts, lists keep the order
of the facts and no repetition.

* `FactValue` is what a fact tells; `FactValue.isSaid` and `FactValue.toText` read it, and
  `FactValue.written` refuses an integer that is too long.
* `Fact` is a value of a kind; facts of an unknown kind are passed over.
* `Document.ofFacts?` is the document of a list of facts, if there is anything to put on a page. A
  value that is used and cannot be written is a fault.
-/

set_option autoImplicit false
namespace RefPages

/-- What a fact tells. -/
inductive FactValue where
  | text (s : String)
  | number (n : Int)
  | flag (b : Bool)
  | missing
  deriving DecidableEq, Repr

namespace FactValue

/-- Does the value mean something? An empty text, zero, a false flag and a missing value do not. -/
def isSaid : FactValue → Bool
  | .text s => s ≠ ""
  | .number n => n ≠ 0
  | .flag b => b
  | .missing => false

/-- The value as text, however long it is. -/
def toText : FactValue → String
  | .text s => s
  | .number n => toString n
  | .flag true => "True"
  | .flag false => "False"
  | .missing => "None"

/-- The value as text, unless it is an integer that is too long to be written. -/
def written (value : FactValue) : Except Yaml.ValueFault String :=
  match value with
  | .number n =>
    if n.natAbs < Decimal.writingLimit then .ok value.toText else .error .tooLongToWrite
  | _ => .ok value.toText

end FactValue

/-- One piece of knowledge about a source file. -/
inductive Fact where
  | identifier (value : FactValue)
  | description (value : FactValue)
  | narrative (value : FactValue)
  | usage (value : Example)
  | supportedType (value : FactValue)
  | synonym (value : FactValue)
  | other (kind : String)
  deriving DecidableEq, Repr

/-- The list with `s` at its end, unless `s` is empty or in it already. -/
def appendNew (values : List String) (s : String) : List String :=
  if s = "" ∨ s ∈ values then values else values ++ [s]

/-- The value already found, or else what the new one tells. A value that is not needed is not
written. -/
def firstSaid (found? : Option String) (value : FactValue) :
    Except Yaml.ValueFault (Option String) :=
  match found? with
  | some text => .ok (some text)
  | none => if value.isSaid then value.written.map some else .ok none

namespace Document

/-- The document with one more fact in it. -/
def addFact (doc : Document) : Fact → Except Yaml.ValueFault Document
  | .identifier v => do
    let identifier? ← firstSaid doc.identifier? v
    .ok { doc with identifier? }
  | .description v => do
    let description? ← firstSaid doc.description? v
    .ok { doc with description? }
  | .narrative v => do
    let narrative? ← firstSaid doc.narrative? v
    .ok { doc with narrative? }
  | .usage e => .ok { doc with examples := doc.examples ++ [e] }
  | .supportedType v => do
    let name ← v.written
    .ok { doc with supportedTypes := appendNew doc.supportedTypes name }
  | .synonym v => do
    let name ← v.written
    .ok (if name = doc.name then doc else { doc with aliases := appendNew doc.aliases name })
  | .other _ => .ok doc

/-- The document of the file at `path`, if its facts are enough for a page. -/
def ofFacts? (categories : CategoryMap) (path : Path) (facts : List Fact) :
    Except Yaml.ValueFault (Option Document) := do
  let draft ← facts.foldlM addFact { name := path.stem, path }
  let doc := { draft with negatable := draft.examples.any (·.negated) }
  .ok (if doc.hasContent then some { doc with category := categories.categoryOf path } else none)

end Document
end RefPages
