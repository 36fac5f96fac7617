import RefPages.Fact
import RefPages.Source.Aliases
import RefPages.Source.Declaration
import RefPages.Source.Description
import RefPages.Source.Expectation
import RefPages.Source.TestBlock

/-!
# Extractors

An extractor recovers one kind of fact from a source file, and none depends on another.

* `SourceFile` is a source file with its text.
* `Extractor.facts` are the facts an extractor finds in it.
* `Extractor.select` picks extractors by name, in the built-in order; `UnknownExtractors` reports
  names that mean none.
* `SourceFile.facts` are the facts of several extractors, in their order.
-/

set_option autoImplicit false
namespace RefPages

open Text

/-- A source file and its text. -/
structure SourceFile where
  path : Path
  text : String
  deriving DecidableEq, Repr

/-- The name of the file without its extension. -/
def SourceFile.name (file : SourceFile) : String :=
  file.path.stem

/-! ## Examples -/

/-- Is the block about a negated operation? Any label that holds `not` says so. -/
def showsNegation (label body : String) : Bool :=
  occursIn "not" label || occursIn ".not." body

/-- Does the block show what a failure looks like? -/
def showsFailure (label body : String) : Bool :=
  occursIn "fail" (lowerCase label) || occursIn "error" (lowerCase label)
    || occursIn "recordEvaluation" body

/-- The labels and bodies of the blocks of tests in a text. -/
def labelledTests (text : String) : List (String × String) :=
  (Source.testBlocks text.toList).map fun (label, body) => (String.ofList label, String.ofList body)

/-- The example that a block of tests gives, if it holds an expectation. -/
def exampleOfTest? (label body : String) : Option Example :=
  match Source.expectations false body.toList with
  | [] => none
  | calls => some {
      label
      code := joinLines (calls.map String.ofList)
      negated := showsNegation label body
      failure := showsFailure label body }

/-! ## The extractors -/

/-- The kinds of fact that can be recovered, in their order. -/
inductive Extractor where
  | identifier
  | description
  | narrative
  | examples
  | supportedTypes
  | aliases
  deriving DecidableEq, Repr

namespace Extractor

/-- All extractors in their order. -/
def all : List Extractor :=
  [.identifier, .description, .narrative, .examples, .supportedTypes, .aliases]

/-- The name by which an extractor is selected. -/
def name : Extractor → String
  | .identifier => "identifier"
  | .description => "description"
  | .narrative => "narrative"
  | .examples => "examples"
  | .supportedTypes => "supported_types"
  | .aliases => "aliases"

/-- The kind of fact that an extractor recovers. -/
def kind : Extractor → String
  | .identifier => "identifier"
  | .description => "description"
  | .narrative => "narrative"
  | .examples => "example"
  | .supportedTypes => "supported_type"
  | .aliases => "alias"

/-- The facts that an extractor finds in a source file. -/
def facts (file : SourceFile) : Extractor → List Fact
  | .identifier =>
    (Source.identifier? file.text.toList).toList.map fun s => .identifier (.text (String.ofList s))
  | .description =>
    (Source.description? file.text.toList).toList.map fun s =>
      .description (.text (String.ofList s))
  | .narrative => (Source.narrative? file.text.toList).toList.map fun s => .narrative (.text s)
  | .examples =>
    ((labelledTests file.text).filterMap fun (label, body) => exampleOfTest? label body).map .usage
  | .supportedTypes =>
    (Source.supportedTypes file.text.toList).map fun s => .supportedType (.text (String.ofList s))
  | .aliases => (Source.aliases file.name file.text.toList).map fun s => .synonym (.text s)

end Extractor

/-- The extractor that finds facts of this kind. -/
def Fact.source? : Fact → Option Extractor
  | .identifier _ => some .identifier
  | .description _ => some .description
  | .narrative _ => some .narrative
  | .usage _ => some .examples
  | .supportedType _ => some .supportedTypes
  | .synonym _ => some .aliases
  | .other _ => none

/-! ## Selection -/

/-- Names that mean no extractor, in lower case. -/
structure UnknownExtractors where
  names : List String
  deriving DecidableEq, Repr

/-- The report of unknown names. -/
def UnknownExtractors.message (unknown : UnknownExtractors) : String :=
  "Unknown extractors requested: " ++ joinWith ", " unknown.names

/-- Texts in the order of their code points. -/
def sortTexts (texts : List String) : List String :=
  texts.mergeSort fun a b => !(b < a)

/-- The extractors whose names are given, in any order and letter case; all if none is given. -/
def Extractor.select (enabled? : Option (List String)) :
    Except UnknownExtractors (List Extractor) :=
  match enabled? with
  | none => .ok all
  | some enabled =>
    let wanted := enabled.map lowerCase
    match Source.distinct (wanted.filter (· ∉ all.map name)) with
    | [] => .ok (all.filter (·.name ∈ wanted))
    | unknown => .error ⟨sortTexts unknown⟩

/-- The facts that the extractors find in a source file. -/
def SourceFile.facts (file : SourceFile) (extractors : List Extractor) : List Fact :=
  extractors.flatMap (·.facts file)

end RefPages
