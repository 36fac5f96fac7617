import RefPages.Extractor
import RefPages.FileTree
import RefPages.Yaml.Fault

/-!
# Faults

Everything that can end an operation early, with its wording.

* `ConfigFault`: the configuration file cannot be used.
* `Fault`: any fault; `Fault.message` is its text.
-/

set_option autoImplicit false
namespace RefPages

/-- Why a file could not be read as text. -/
inductive ReadFault where
  | file (fault : FileFault)
  | decode (fault : Text.DecodeFault)
  deriving DecidableEq, Repr

/-- Has the system refused the file, or is it no text? A path that holds NUL is neither. -/
def ReadFault.isReported : ReadFault → Bool
  | .file fault => fault.isSystem
  | .decode _ => true

/-- The report of a file that could not be read as text. -/
def ReadFault.message : ReadFault → String
  | .file fault => fault.message
  | .decode fault => fault.message

/-- Why a configuration file cannot be used. -/
inductive ConfigFault where
  | unreadable (name : String) (fault : ReadFault)
  | malformed (name reason : String)
  | rootNotMapping
  | categoriesNotMapping
  deriving DecidableEq, Repr

/-- The report of a configuration file that cannot be used. -/
def ConfigFault.message : ConfigFault → String
  | .unreadable name fault => "Could not read " ++ name ++ ": " ++ fault.message
  | .malformed name reason => "Failed to parse " ++ name ++ ": " ++ reason
  | .rootNotMapping => ".opdocs.yml must contain a mapping at the root"
  | .categoriesNotMapping => "categories must map source folders to category names"

/-- What can end an operation early. Settings with halves of surrogate pairs in them are no fault of
the configuration file, but go no further here: their texts are no strings. -/
inductive Fault where
  | read (fault : ReadFault)
  | extractors (fault : UnknownExtractors)
  | config (fault : ConfigFault)
  | value (fault : Yaml.ValueFault)
  | roughText
  | noHome
  | noConfigPath
  deriving DecidableEq, Repr

/-- The fault of a path that could not be used. -/
abbrev Fault.file (fault : FileFault) : Fault :=
  .read (.file fault)

/-- The text of a fault. -/
def Fault.message : Fault → String
  | .read fault => fault.message
  | .extractors fault => fault.message
  | .config fault => fault.message
  | .value fault => fault.message
  | .roughText => "half of a surrogate pair in a setting"
  | .noHome => "Could not determine home directory."
  | .noConfigPath => "expected str, bytes or os.PathLike object, not list"

/-- The text of a file, with every line ending turned into a line feed. -/
def FileTree.readText (tree : FileTree) (cwd : Location) (path : Path) : Except ReadFault String :=
  match tree.contents cwd path with
  | .ok bytes => (Text.readText bytes).mapError .decode
  | .error fault => .error (.file fault)

end RefPages
