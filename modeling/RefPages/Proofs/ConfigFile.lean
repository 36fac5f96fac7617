import Mathlib.Control.Monad.Basic
import RefPages.Proofs.FileTree.Write
import RefPages.Proofs.Yaml.Misread
import RefPages.Settings

/-!
# The configuration file and its faults

A configuration file that cannot be used is reported as such, with one exception: a value in it that
is at fault is reported as it is. This file says which values those are.

* `Data.TooLong`: the data hold an integer that is too long to be written.
* `Settings.ends_ofData`: that is the only way in which settings cannot be written down from data,
  but for data of the wrong shape and texts that are no strings.
* `Yaml.AtFault` lists what can be wrong with a value in a text.
* `Settings.load_faults` is the result: how loading a configuration file of any bytes ends.
* `Settings.root_of_load`: settings that are loaded in the working directory take paths from it.
-/

set_option autoImplicit false
namespace RefPages

open Text

/-! ## Writing data -/

namespace Yaml

/-- The datum is the value itself, a key of it or a member of it. -/
inductive Value.Shows : Value → Datum → Prop where
  | datum {d} : Shows (.datum d) d
  | key {entries d id} (h : (d, id) ∈ entries) : Shows (.mapping entries) d
  | member {members d} (h : d ∈ members) : Shows (.set members) d

/-- One of the values shows an integer that is too long to be written. -/
def Data.TooLong (data : Data) : Prop :=
  ∃ id n, (data.get id).Shows (.int n) ∧ Decimal.writingLimit ≤ n.natAbs

/-- The fault is that of an integer that is too long to be written, and the data hold one. -/
def Data.Unwritten (data : Data) (v : ValueFault) : Prop :=
  v = .tooLongToWrite ∧ data.TooLong

namespace Data

variable {data : Data}

theorem ends_checked {id : Nat} {d : Datum} (h : (data.get id).Shows d) (text : String) :
    Ends data.Unwritten (fun _ => True) (d.checked text) := by
  unfold Datum.checked
  split
  · rename_i n
    split
    · exact trivial
    · rename_i hlong
      exact ⟨rfl, id, n, h, Nat.le_of_not_lt hlong⟩
  · exact trivial

theorem ends_shown (fuel : Nat) (open_ : List Nat) (id : Nat) :
    Ends data.Unwritten (fun _ => True) (data.shown fuel open_ id) := by
  induction fuel generalizing open_ id with
  | zero => exact trivial
  | succ fuel ih =>
    rw [shown]
    dsimp only
    split
    · rename_i d hget
      exact ends_checked (by rw [hget]; exact .datum) _
    · exact .ite trivial ((Ends.mapM fun item _ => ih _ item).andThen fun _ => trivial)
    · refine .ite trivial ((Ends.mapM fun item _ => ?_).andThen fun _ => trivial)
      exact (ih _ item.1).andThen fun _ => (ih _ item.2).andThen fun _ => trivial
    · rename_i entries hget
      refine .ite trivial ((Ends.mapM fun entry hentry => ?_).andThen fun _ => trivial)
      have hkey : (data.get id).Shows entry.1 := by
        rw [hget]
        exact .key hentry
      exact (ends_checked hkey _).andThen fun _ => (ih _ entry.2).andThen fun _ => trivial
    · rename_i members hget
      refine .ite trivial ((Ends.mapM fun d hd => ?_).andThen fun _ => trivial)
      exact ends_checked (by rw [hget]; exact .member hd) _

theorem ends_text (id : Nat) : Ends data.Unwritten (fun _ => True) (data.text id) := by
  rw [text]
  split
  · rename_i d hget
    exact ends_checked (by rw [hget]; exact .datum) _
  · exact ends_shown _ _ _

theorem ends_word? (id? : Option Nat) : Ends data.Unwritten (fun _ => True) (data.word? id?) := by
  cases id? with
  | none => exact trivial
  | some id =>
    rw [word?, Option.map_some]
    split
    · rename_i d hget
      have hshows : (data.get id).Shows d := by
        rw [Option.some.inj hget]
        exact .datum
      exact .ite ((ends_checked hshows _).andThen fun _ => trivial) trivial
    · exact trivial

theorem ends_words (id : Nat) : Ends data.Unwritten (fun _ => True) (data.words id) := by
  rw [words]
  split
  · exact trivial
  · exact trivial
  · refine Ends.mapM fun d hd => ?_
    obtain ⟨item, -, hitem⟩ := List.mem_filterMap.1 hd
    split at hitem
    · rename_i d' hget
      obtain ⟨-, hd'⟩ := Option.ite_none_right_eq_some.1 hitem
      cases hd'
      exact ends_checked (by rw [hget]; exact .datum) _
    · cases hitem
  · exact trivial

end Data
end Yaml

/-! ## The settings of data -/

namespace Settings

variable {data : Yaml.Data}

/-- Why there are no settings for data: they are found fault with, hold an integer that is too long,
or give a setting a text that is no string. -/
inductive Barred (data : Yaml.Data) : Fault → Prop where
  | config (fault : ConfigFault) : Barred data (.config fault)
  | long {v} (h : data.Unwritten v) : Barred data (.value v)
  | rough {entries} (hroot : data.get data.root = .mapping entries)
    (h : takesRough data entries = true) : Barred data .roughText

theorem ends_mapError {α : Type} {result : Except Yaml.ValueFault α}
    (h : Ends data.Unwritten (fun _ => True) result) :
    Ends (Barred data) (fun _ => True) (result.mapError Fault.value) :=
  Ends.mapError (h.weaken fun _ => .long)

theorem ends_categories? (id? : Option Nat) :
    Ends (Barred data) (fun _ => True) (categories? data id?) := by
  cases id? with
  | none => exact trivial
  | some id =>
    rw [categories?, Option.map_some]
    split
    · exact trivial
    · exact trivial
    · rename_i entries hget
      refine ends_mapError (Ends.foldlM _ fun table entry hentry => ?_)
      have hkey : (data.get id).Shows entry.1 := by
        rw [Option.some.inj hget]
        exact .key hentry
      dsimp only
      split
      · exact trivial
      · refine (Yaml.Data.ends_checked hkey _).andThen fun _ => ?_
        exact (Yaml.Data.ends_text _).andThen fun _ => trivial
    · exact .config _

theorem ends_enabledOf (id? : Option Nat) :
    Ends data.Unwritten (fun _ => True) (enabledOf data id?) := by
  rw [enabledOf]
  split
  · exact trivial
  · exact .map (Yaml.Data.ends_words _)

theorem ends_excludedOf (fallback : List String) (id? : Option Nat) :
    Ends data.Unwritten (fun _ => True) (excludedOf data fallback id?) := by
  cases id? with
  | none => exact trivial
  | some id => exact Yaml.Data.ends_words id

theorem ends_ofEntries (root : Path) {entries : List (Yaml.Datum × Nat)}
    (hroot : data.get data.root = .mapping entries) :
    Ends (Barred data) (fun settings => settings.root = root) (ofEntries root data entries) := by
  have hword : ∀ id?, Ends (Barred data) (fun _ => True)
      ((data.word? id?).mapError Fault.value) :=
    fun id? => ends_mapError (Yaml.Data.ends_word? id?)
  rw [ofEntries]
  refine (hword _).andThen fun _ => (hword _).andThen fun _ => ?_
  refine (hword _).andThen fun _ => (hword _).andThen fun _ => ?_
  refine (ends_mapError (ends_excludedOf _ _)).andThen fun _ => ?_
  refine (ends_categories? _).andThen fun _ => ?_
  refine (ends_mapError (ends_enabledOf _)).andThen fun _ => (hword _).andThen fun _ => ?_
  split
  · exact .rough hroot ‹_›
  · exact rfl

theorem ends_ofData (root : Path) (data? : Option Yaml.Data) :
    Ends (fun fault => ∃ data, data? = some data ∧ Barred data fault)
      (fun settings => settings.root = root) (ofData root data?) := by
  cases data? with
  | none => exact rfl
  | some data =>
    rw [ofData]
    split
    · exact rfl
    · exact (ends_ofEntries root ‹_›).weaken fun _ hbarred => ⟨data, rfl, hbarred⟩
    · exact ⟨data, rfl, .config _⟩

end Settings

/-! ## The settings of a text -/

/-- What can be wrong with a value in a text: an escape or a number in a directive keeps it from
being cut into tokens, a node does not denote a value of its kind, or an integer is too long to be
written. -/
inductive Yaml.AtFault (text : String) (v : ValueFault) : Prop where
  | token (hscan : (Scan.ofChars text.toList).fault? = some (.value v)) (h : v.IsOfToken)
  | node {root g} (hgraph : Graph.ofScan? (Scan.ofChars text.toList) = .ok (some (root, g)))
    (h : g.Misread v)
  | integer {data} (hload : Data.load text = .ok (some data)) (h : data.Unwritten v)

namespace Settings

/-- The values of a text are at fault, or settings cannot be written down from them. -/
def Refused (root : Path) (text : String) (v : Yaml.ValueFault) : Prop :=
  Yaml.Data.load text = .error (.value v)
    ∨ ∃ data?, Yaml.Data.load text = .ok data? ∧ ofData root data? = .error (.value v)

theorem Refused.atFault {root : Path} {text : String} {v : Yaml.ValueFault}
    (h : Refused root text v) : Yaml.AtFault text v := by
  rcases h with hload | ⟨data?, hload, hdata⟩
  · rcases (Yaml.Data.blames_load text).of_eq_error hload with htoken | hnode
    · exact .token htoken.1 htoken.2
    · obtain ⟨root, g, hgraph, hmisread⟩ := hnode
      exact .node hgraph hmisread
  · obtain ⟨data, rfl, hbarred⟩ := (ends_ofData root data?).of_eq_error hdata
    cases hbarred with
    | long hunwritten => exact .integer hload hunwritten

/-- The text is that of a mapping, and a setting takes over a text from it that is no string. -/
def IsRough (text : String) : Prop :=
  ∃ data entries, Yaml.Data.load text = .ok (some data)
    ∧ data.get data.root = .mapping entries ∧ takesRough data entries = true

theorem ends_ofText (root : Path) (name text : String) :
    Ends (fun fault => (∃ config, fault = .config config)
        ∨ (fault = .roughText ∧ IsRough text)
        ∨ ∃ v, fault = .value v ∧ (trim text.toList).isEmpty = false ∧ Refused root text v)
      (fun settings => settings.root = root) (ofText root name text) := by
  rw [ofText]
  split
  · exact rfl
  · rename_i hblank
    rw [Bool.not_eq_true] at hblank
    split
    · exact Or.inl ⟨_, rfl⟩
    · rename_i v hload
      exact Or.inr (Or.inr ⟨v, rfl, hblank, Or.inl hload⟩)
    · rename_i data? hload
      cases hdata : ofData root data? with
      | ok settings => exact (ends_ofData root data?).of_eq_ok hdata
      | error fault =>
        obtain ⟨data, rfl, hbarred⟩ := (ends_ofData root data?).of_eq_error hdata
        cases hbarred with
        | config config => exact Or.inl ⟨config, rfl⟩
        | rough hroot h => exact Or.inr (Or.inl ⟨rfl, data, _, hload, hroot, h⟩)
        | long => exact Or.inr (Or.inr ⟨_, rfl, hblank, Or.inr ⟨_, hload, hdata⟩⟩)

theorem ofText_of_refused {root : Path} {name text : String} {v : Yaml.ValueFault}
    (hblank : (trim text.toList).isEmpty = false) (h : Refused root text v) :
    ofText root name text = .error (.value v) := by
  rw [ofText, if_neg (by rw [hblank]; exact Bool.false_ne_true)]
  rcases h with hload | ⟨data?, hload, hdata⟩
  · rw [hload]
  · rw [hload]
    exact hdata

/-! ## Loading -/

variable {tree : FileTree} {cwd : Location} {homes : Homes}

/-- The configuration file of a directory. -/
theorem load_eq {dir path : Path} {bytes : List UInt8} (hhome : dir.expandHome homes = .ok path)
    (hdir : tree.isDirectory cwd path = .ok true)
    (hfile : tree.contents cwd ((path.joinText configName).resolve cwd) = .ok bytes) :
    let file := (path.joinText configName).resolve cwd
    load tree cwd homes dir = match readText bytes with
      | .error fault => .error (.config (.unreadable file.name (.decode fault)))
      | .ok text => ofText file.parent file.name text := by
  intro file
  have hconfig : configFile tree cwd homes dir = .ok file := by
    rw [configFile, hhome]
    show ((tree.isDirectory cwd path).mapError Fault.file >>= _) = _
    rw [hdir, FileTree.holdsNul_of_isDirectory hdir]
    rfl
  have hthere : tree.isThere cwd file = .ok true := by
    rw [FileTree.contents] at hfile
    rw [FileTree.isThere]
    split at hfile
    · rename_i hlookup
      rw [hlookup]
    all_goals cases hfile
  have hread : tree.readText cwd file = (readText bytes).mapError .decode := by
    rw [FileTree.readText, hfile]
  rw [load, hconfig]
  show ((tree.isThere cwd file).mapError Fault.file >>= _) = _
  rw [hthere]
  simp only [Except.mapError, bind, Except.bind, hread]
  cases readText bytes <;> rfl

/-- **How loading a configuration file ends.** Whatever its bytes are, there are settings, one of
which may take over a text that is no string, or the fault is one of the configuration, or the text
holds a value that is at fault. The last is so for exactly the texts that are not blank and whose
values are refused. -/
theorem load_faults {dir path : Path} {bytes : List UInt8} (hhome : dir.expandHome homes = .ok path)
    (hdir : tree.isDirectory cwd path = .ok true)
    (hfile : tree.contents cwd ((path.joinText configName).resolve cwd) = .ok bytes) :
    ((∃ settings, load tree cwd homes dir = .ok settings)
        ∨ (∃ text, readText bytes = .ok text ∧ load tree cwd homes dir = .error .roughText
          ∧ IsRough text)
        ∨ (∃ fault, load tree cwd homes dir = .error (.config fault))
        ∨ ∃ text v, readText bytes = .ok text ∧ load tree cwd homes dir = .error (.value v)
          ∧ Yaml.AtFault text v)
      ∧ ∀ v, load tree cwd homes dir = .error (.value v)
        ↔ ∃ text, readText bytes = .ok text ∧ (trim text.toList).isEmpty = false
          ∧ Refused ((path.joinText configName).resolve cwd).parent text v := by
  rw [load_eq hhome hdir hfile]
  let file := (path.joinText configName).resolve cwd
  cases htext : readText bytes with
  | error fault =>
    refine ⟨Or.inr (Or.inr (Or.inl ⟨_, rfl⟩)), fun v => ⟨fun hv => ?_, ?_⟩⟩
    · cases hv
    · rintro ⟨text, htext', -⟩
      cases htext'
  | ok text =>
    have hends := ends_ofText file.parent file.name text
    refine ⟨?_, fun v => ⟨fun hv => ?_, ?_⟩⟩
    · cases hresult : ofText file.parent file.name text with
      | ok settings => exact Or.inl ⟨settings, hresult⟩
      | error fault =>
        rcases hends.of_eq_error hresult with ⟨config, rfl⟩ | ⟨rfl, hrough⟩ | ⟨v, rfl, -, hrefused⟩
        · exact Or.inr (Or.inr (Or.inl ⟨config, hresult⟩))
        · exact Or.inr (Or.inl ⟨text, rfl, hresult, hrough⟩)
        · exact Or.inr (Or.inr (Or.inr ⟨text, v, rfl, hresult, hrefused.atFault⟩))
    · rcases hends.of_eq_error hv with ⟨config, hconfig⟩ | ⟨hrough, -⟩ | ⟨v', hv', hblank, hrefused⟩
      · cases hconfig
      · cases hrough
      · cases hv'
        exact ⟨text, rfl, hblank, hrefused⟩
    · rintro ⟨text', htext', hblank, hrefused⟩
      cases htext'
      exact ofText_of_refused hblank hrefused

/-- A directory whose configuration file holds a date in a thirteenth month. -/
def thirteenthMonth : FileTree :=
  ⟨[(["w"], .directory), (["w", configName], .file (utf8Encode "d: 2001-13-01"))]⟩

/-- The fault of the date is no fault of the configuration. -/
theorem load_faults_thirteenthMonth :
    load thirteenthMonth ["w"] {} ⟨.here, []⟩ = .error (.value .month)
      ∧ Yaml.AtFault "d: 2001-13-01" .month := by
  have hload : load thirteenthMonth ["w"] {} ⟨.here, []⟩ = .error (.value .month) := by
    decide +kernel
  have hdir : thirteenthMonth.isDirectory ["w"] ⟨.here, []⟩ = .ok true := by decide
  have hfile : thirteenthMonth.contents ["w"]
      (((Path.mk .here []).joinText configName).resolve ["w"])
        = .ok (utf8Encode "d: 2001-13-01") := by decide +kernel
  have htext : readText (utf8Encode "d: 2001-13-01") = .ok "d: 2001-13-01" := by decide +kernel
  have hhome : (Path.mk .here []).expandHome {} = .ok ⟨.here, []⟩ := rfl
  rcases (load_faults hhome hdir hfile).1 with
    ⟨settings, h⟩ | ⟨text, -, h, -⟩ | ⟨fault, h⟩ | ⟨text, v, hread, h, hfault⟩
  iterate 3 exact absurd (hload.symm.trans h) (by simp)
  · cases hread.symm.trans htext
    cases hload.symm.trans h
    exact ⟨hload, hfault⟩

/-! ## The working directory -/

/-- The configuration file of the working directory. -/
theorem configFile_here {tree : FileTree} {cwd : Location} (hwd : tree.get? cwd = some .directory)
    (homes : Homes) :
    configFile tree cwd homes (Path.ofString ".") = .ok ⟨.root, cwd ++ [configName]⟩ := by
  have hhere : Path.ofString "." = ⟨.here, []⟩ := by decide
  have hname : Path.ofString configName = ⟨.here, [configName]⟩ := by decide
  have hlookup : tree.lookup cwd ⟨.here, []⟩ = .ok (.found cwd .directory) := by
    rw [FileTree.lookup, if_neg (by decide), if_neg (by decide)]
    exact FileTree.followNames_nil hwd
  have hdirectory : tree.isDirectory cwd ⟨.here, []⟩ = .ok true := by
    rw [FileTree.isDirectory, hlookup]
  have hfile : ((Path.mk .here []).joinText configName).resolve cwd
      = ⟨.root, cwd ++ [configName]⟩ := by
    rw [Path.joinText, hname]
    rfl
  have hhome : (Path.mk .here []).expandHome homes = .ok ⟨.here, []⟩ := rfl
  have hnul : (Path.mk .here []).holdsNul = false := rfl
  have hok : (Except.ok true).mapError Fault.file = .ok true := rfl
  rw [hhere, ← hfile, configFile, hhome]
  simp only [hdirectory, bind, Except.bind, hok, hnul, if_true, Bool.false_eq_true, if_false]

/-- Settings that are loaded in the working directory are those of it. -/
theorem root_of_load {tree : FileTree} {cwd : Location} (hwd : tree.get? cwd = some .directory)
    {homes : Homes} {settings : Settings}
    (h : load tree cwd homes (Path.ofString ".") = .ok settings) :
    settings.root = Path.ofLocation cwd := by
  have hparent : (Path.mk .root (cwd ++ [configName])).parent = Path.ofLocation cwd := by
    rw [Path.parent, List.dropLast_concat]
    rfl
  rw [load, configFile_here hwd] at h
  simp only [bind, Except.bind, hparent] at h
  cases hthere : tree.isThere cwd ⟨.root, cwd ++ [configName]⟩ with
  | error fault =>
    rw [hthere] at h
    cases h
  | ok isThere =>
    rw [hthere] at h
    have hok : (Except.ok isThere).mapError Fault.file = .ok isThere := rfl
    rw [hok] at h
    simp only at h
    split at h
    · split at h
      · exact absurd h (by simp)
      · exact (ends_ofText _ _ _).of_eq_ok h
    · cases h
      rfl

end Settings
end RefPages
