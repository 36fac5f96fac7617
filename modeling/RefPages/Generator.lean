import RefPages.Page
import RefPages.Settings
import RefPages.Walk

/-!
# From source files to pages

* `Generator` holds the choices: the extractors, the categories, and which files are read and
  written.
* `Generator.extract` reads one source file and gives its document, `Generator.render` its page.
* `Generator.run` writes a page for every source file below a directory. A source file that cannot
  be read is skipped with a warning; an output that cannot be written ends the run.
-/

set_option autoImplicit false
namespace RefPages

/-- How pages are made. -/
structure Generator where
  extractors : List Extractor := Extractor.all
  categories : CategoryMap := {}
  eligible : Eligibility := {}
  outputExtension : String := ".mdx"
  deriving Repr

/-- What a run has done so far. -/
structure Tally where
  scanned : Nat := 0
  generated : Nat := 0
  skipped : Nat := 0
  outputs : List Path := []
  deriving DecidableEq, Repr

namespace Generator

/-- The choices that settings make. -/
def ofSettings (settings : Settings) : Except UnknownExtractors Generator := do
  let extractors ← Extractor.select settings.enabled?
  .ok {
    extractors
    categories := { overrides := settings.categories }
    eligible := ⟨settings.sourceExtension, settings.excludedFiles⟩
    outputExtension := settings.outputExtension }

/-- The facts of a source file; the log says how many of each kind there are. -/
def findFacts (file : SourceFile) : List Extractor → Action (List Fact)
  | [] => pure []
  | extractor :: rest => do
    let found := extractor.facts file
    if !found.isEmpty then
      Action.say "matcher" 10
        (file.name ++ ": " ++ extractor.name ++ " produced " ++ toString found.length ++ " fact(s)")
    return found ++ (← findFacts file rest)

/-- The document of a source file, if there is enough for a page. -/
def extract (g : Generator) (path : Path) : Action (Option Document) := do
  let text ← Action.lift ((← get).tree.readText (← get).cwd path |>.mapError Fault.read)
  let facts ← findFacts ⟨path, text⟩ g.extractors
  Action.lift ((Document.ofFacts? g.categories path facts).mapError Fault.value)

/-- The page of a source file, if there is enough for one. -/
def render (g : Generator) (path : Path) : Action (Option String) := do
  return (← g.extract path).map Document.page

/-- The path of a document's page. -/
def outputPath (g : Generator) (outputRoot : Path) (doc : Document) : Path :=
  (outputRoot.joinText doc.category).joinText (doc.name ++ g.outputExtension)

/-- Makes the page of one document, and writes it unless the run is dry. -/
def generate (g : Generator) (outputRoot : Path) (dryRun : Bool) (tally : Tally)
    (doc : Document) : Action Tally := do
  let identifier := ((nonEmpty? doc.identifier?).map fun s => " (" ++ s ++ ")").getD ""
  Action.say "pipeline" 10 ("Parsed " ++ doc.name ++ identifier)
  let path := g.outputPath outputRoot doc
  if !dryRun then
    Action.makeDirectories path.parent
    Action.put path (Text.utf8Encode doc.page)
    Action.say "pipeline" 10 ("Generated " ++ path.toString)
  return { tally with generated := tally.generated + 1, outputs := tally.outputs ++ [path] }

/-- Deals with one source file. -/
def visit (g : Generator) (outputRoot : Path) (dryRun : Bool) (tally : Tally) (path : Path) :
    Action Tally := do
  let tally := { tally with scanned := tally.scanned + 1 }
  match ← Action.attempt (g.extract path) with
  | .error fault =>
    Action.say "pipeline" 30 ("Could not parse " ++ path.toString ++ ": " ++ fault.message)
    return { tally with skipped := tally.skipped + 1 }
  | .ok none =>
    Action.say "pipeline" 10 ("Nothing to document in " ++ path.toString)
    return tally
  | .ok (some doc) => g.generate outputRoot dryRun tally doc

/-- Writes a page for every source file below `sourceRoot`. -/
def run (g : Generator) (sourceRoot outputRoot : Path) (dryRun : Bool) : Action Tally := do
  Action.say "pipeline" 20 ("Extracting documentation from " ++ sourceRoot.toString)
  Action.say "pipeline" 20 ("Writing documents to " ++ outputRoot.toString)
  let tally ← walk g.eligible (g.visit outputRoot dryRun) sourceRoot {}
  Action.say "pipeline" 20
    ("Scanned " ++ toString tally.scanned ++ " source files, generated "
      ++ toString tally.generated ++ " documents, skipped " ++ toString tally.skipped)
  return tally

end Generator
end RefPages
