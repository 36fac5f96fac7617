import RefPages.Home
import RefPages.Yaml.Value

/-!
# Settings

The settings of a project are read from a configuration file in YAML; what it does not set keeps its
default. Each key decides one setting and no other.

* `Settings.defaults` are the settings of a directory without a configuration file.
* `Settings.ofData` takes the settings from the loaded data.
* `Settings.load` finds the configuration file by its path or its directory and reads it.
-/

set_option autoImplicit false
namespace RefPages

open Text

/-- The settings of a project. -/
structure Settings where
  root : Path
  sourceRoot : Path
  outputRoot : Path
  sourceExtension : String := ".d"
  outputExtension : String := ".mdx"
  excludedFiles : List String := ["package.d", "registry.d"]
  categories : List (String × String) := []
  enabled? : Option (List String) := none
  logFile? : Option Path := none
  deriving DecidableEq, Repr

/-- The name of the configuration file. -/
def configName : String := ".opdocs.yml"

/-- The settings of a directory without a configuration file. -/
def Settings.defaults (root : Path) : Settings where
  root
  sourceRoot := root.join ⟨.here, ["source", "fluentasserts", "operations"]⟩
  outputRoot := root.join ⟨.here, ["docs", "src", "content", "docs", "api"]⟩

namespace Yaml
namespace Data

/-- The entries of a mapping. -/
def entries? (data : Data) (id : Nat) : Option (List (Datum × Nat)) :=
  match data.get id with
  | .mapping entries => some entries
  | _ => none

/-- The value of a key that is a text. -/
def entry? (entries : List (Datum × Nat)) (key : String) : Option Nat :=
  entries.lookup (.text key)

/-- Is the datum a text or a number? -/
def isWord : Datum → Bool
  | .text _ | .int _ | .float _ => true
  | _ => false

/-- The text of a value that is a text or a number, unless it is empty. -/
def word? (data : Data) (id? : Option Nat) : Except ValueFault (Option String) :=
  match id?.map data.get with
  | some (.datum d) =>
    if isWord d then do
      let text ← d.checked d.toText
      .ok (nonEmpty? (some text))
    else .ok none
  | _ => .ok none

/-- The texts of a list: its texts, numbers and truth values, or a text by itself, or the numbers of
bytes. -/
def words (data : Data) (id : Nat) : Except ValueFault (List String) :=
  match data.get id with
  | .datum (.text s) => .ok [s]
  | .datum (.bytes bs) => .ok (bs.map fun b => toString b.toNat)
  | .list items =>
    let members := items.filterMap fun item =>
      match data.get item with
      | .datum d => if isWord d || d matches .bool _ then some d else none
      | _ => none
    members.mapM fun d => d.checked d.toText
  | _ => .ok []

/-- Is the value a text with halves of surrogate pairs? -/
def isRough (data : Data) (id : Nat) : Bool :=
  match data.get id with
  | .datum d => d.isRough
  | _ => false

/-- Is the value such a text, or one in a list? -/
def holdsRough (data : Data) (id : Nat) : Bool :=
  match data.get id with
  | .list items => items.any data.isRough
  | _ => data.isRough id

end Data
end Yaml

namespace Settings

/-- An extension: trimmed, and with a dot in front. -/
def extension (s : String) : String :=
  let s := trimmed s
  if ".".toList.isPrefixOf s.toList then s else "." ++ s

/-- A table with an entry added; a key that is there already keeps its place. -/
def enter (table : List (String × String)) (key value : String) : List (String × String) :=
  if (table.lookup key).isSome then table.map fun e => if e.1 = key then (key, value) else e
  else table ++ [(key, value)]

/-- The categories of a mapping; a null leaves its folder out. -/
def categoriesOf (data : Yaml.Data) (entries : List (Yaml.Datum × Nat)) :
    Except Yaml.ValueFault (List (String × String)) :=
  entries.foldlM
    (fun table (folder, id) =>
      match data.get id with
      | .datum .null => .ok table
      | _ => do
        let key ← folder.checked folder.toText
        let value ← data.text id
        .ok (enter table key value))
    []

/-- The categories that a value sets: none for null, and a fault unless it is a mapping. -/
def categories? (data : Yaml.Data) (id? : Option Nat) : Except Fault (List (String × String)) :=
  match id?.map data.get with
  | none => .ok []
  | some (.datum .null) => .ok []
  | some (.mapping entries) => (categoriesOf data entries).mapError .value
  | some _ => .error (.config .categoriesNotMapping)

/-- The files that a value excludes; without one, those of the defaults. -/
def excludedOf (data : Yaml.Data) (fallback : List String) (id? : Option Nat) :
    Except Yaml.ValueFault (List String) :=
  match id? with
  | none => .ok fallback
  | some id => data.words id

/-- The extractors that a value enables. -/
def enabledOf (data : Yaml.Data) (id? : Option Nat) :
    Except Yaml.ValueFault (Option (List String)) :=
  match (id?.bind data.entries?).bind (Yaml.Data.entry? · "enabled") with
  | none => .ok none
  | some id => (data.words id).map some

/-- Does a setting take over a text with halves of surrogate pairs? What reads the settings one by
one passes over such texts. -/
def takesRough (data : Yaml.Data) (entries : List (Yaml.Datum × Nat)) : Bool :=
  let value? := Yaml.Data.entry? entries
  let table := ((value? "categories").bind data.entries?).getD []
  let enabled? := ((value? "extractors").bind data.entries?).bind (Yaml.Data.entry? · "enabled")
  ["source_root", "output_root", "source_extension", "output_extension", "log_file"].any
      (fun key => (value? key).any data.isRough)
    || (value? "excluded_files").any data.holdsRough
    || table.any (fun (folder, id) =>
      data.get id ≠ .datum .null && (folder.isRough || data.isRough id))
    || enabled?.any data.holdsRough

/-- The settings of the directory `root` whose configuration file holds these entries. -/
def ofEntries (root : Path) (data : Yaml.Data) (entries : List (Yaml.Datum × Nat)) :
    Except Fault Settings := do
  let value? := Yaml.Data.entry? entries
  let word? := fun key => (data.word? (value? key)).mapError Fault.value
  let base := defaults root
  let sourceRoot? ← word? "source_root"
  let outputRoot? ← word? "output_root"
  let sourceExtension? ← word? "source_extension"
  let outputExtension? ← word? "output_extension"
  let excludedFiles ←
    (excludedOf data base.excludedFiles (value? "excluded_files")).mapError Fault.value
  let categories ← categories? data (value? "categories")
  let enabled? ← (enabledOf data (value? "extractors")).mapError Fault.value
  let logFile? ← word? "log_file"
  if takesRough data entries then .error .roughText
  else .ok {
    root
    sourceRoot := (sourceRoot?.map root.joinText).getD base.sourceRoot
    outputRoot := (outputRoot?.map root.joinText).getD base.outputRoot
    sourceExtension := (sourceExtension?.map extension).getD base.sourceExtension
    outputExtension := (outputExtension?.map extension).getD base.outputExtension
    excludedFiles
    categories
    enabled?
    logFile? := logFile?.map root.joinText }

/-- The settings of the directory `root` whose configuration file holds these data. -/
def ofData (root : Path) (data? : Option Yaml.Data) : Except Fault Settings :=
  match data? with
  | none => .ok (defaults root)
  | some data =>
    match data.get data.root with
    | .datum .null => .ok (defaults root)
    | .mapping entries => ofEntries root data entries
    | _ => .error (.config .rootNotMapping)

/-- The settings in the text of the configuration file `name`. -/
def ofText (root : Path) (name text : String) : Except Fault Settings :=
  if (trim text.toList).isEmpty then .ok (defaults root)
  else
    match Yaml.Data.load text with
    | .error (.malformed reason) => .error (.config (.malformed name reason))
    | .error (.value fault) => .error (.value fault)
    | .ok data? => ofData root data?

/-- The configuration file that a path names, itself or by its directory. -/
def configFile (tree : FileTree) (cwd : Location) (homes : Homes) (path : Path) :
    Except Fault Path := do
  let path ← path.expandHome homes
  let isDirectory ← (tree.isDirectory cwd path).mapError Fault.file
  if path.holdsNul then .error (.file ⟨.nulInPath, path⟩)
  else .ok ((if isDirectory then path.joinText configName else path).resolve cwd)

/-- The settings in the configuration file that a path names; the defaults if there is none. -/
def load (tree : FileTree) (cwd : Location) (homes : Homes) (path : Path) :
    Except Fault Settings := do
  let file ← configFile tree cwd homes path
  let root := file.parent
  let isThere ← (tree.isThere cwd file).mapError Fault.file
  if isThere then
    match tree.readText cwd file with
    | .error fault => .error (.config (.unreadable file.name fault))
    | .ok text => ofText root file.name text
  else .ok (defaults root)

end Settings
end RefPages
