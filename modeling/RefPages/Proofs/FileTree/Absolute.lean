import RefPages.Category
import RefPages.Proofs.FileTree.Write

/-!
# Paths from the root

A path from the working directory and the one from the root that goes through the working directory
lead to the same place, as long as the longer one is not too long. They have the same last name. The
first of their segments that equals an anchor is the same unless it is one of the working directory.

* `Path.reach` bounds the length of a path with names below it; `reach_here_le` and
  `utf8ByteSize_root_le` say so for the two spellings.
* `FileTree.lookup_absolute`: **both spellings lead to the same place.**
* `CategoryMap.categoryOf_absolute`: **both spellings have the same category** if no segment of the
  working directory is the anchor.
-/

set_option autoImplicit false
namespace RefPages

open Text

/-! ## Lengths -/

namespace Path

/-- The bytes of names, each with a slash. -/
def bytesOf : List String → Nat
  | [] => 0
  | name :: rest => name.utf8ByteSize + 1 + bytesOf rest

/-- The bytes of a path and of names below it, each with a slash in front. -/
def reach (root : Path) (names : List String) : Nat :=
  root.toString.utf8ByteSize + bytesOf names

theorem bytesOf_append (names names' : List String) :
    bytesOf (names ++ names') = bytesOf names + bytesOf names' := by
  induction names with
  | nil => simp [bytesOf]
  | cons name rest ih =>
    rw [List.cons_append, bytesOf, bytesOf, ih, ← Nat.add_assoc]

theorem reach_append (root : Path) (names : List String) (name : String) :
    root.reach (names ++ [name]) = root.reach names + (name.utf8ByteSize + 1) := by
  rw [reach, reach, bytesOf_append, bytesOf, bytesOf, Nat.add_zero, Nat.add_assoc]

theorem utf8ByteSize_joinWith {names : List String} (h : names ≠ []) :
    (joinWith "/" names).utf8ByteSize + 1 = bytesOf names := by
  induction names with
  | nil => exact absurd rfl h
  | cons name rest ih =>
    cases rest with
    | nil => simp [joinWith, bytesOf]
    | cons next rest =>
      have hrest := ih (by simp)
      have hslash : "/".utf8ByteSize = 1 := by decide
      rw [joinWith, String.utf8ByteSize_append, String.utf8ByteSize_append, hslash]
      rw [bytesOf]
      omega

theorem utf8ByteSize_root (names : List String) :
    (Path.mk .root names).toString.utf8ByteSize = max 1 (bytesOf names) := by
  have hslash : "/".utf8ByteSize = 1 := by decide
  have htext : (Path.mk .root names).toString = "/" ++ joinWith "/" names := by
    cases names <;> rfl
  rw [htext, String.utf8ByteSize_append, hslash]
  cases names with
  | nil => rfl
  | cons name rest =>
    have hjoin : (joinWith "/" (name :: rest)).utf8ByteSize + 1 = bytesOf (name :: rest) :=
      utf8ByteSize_joinWith (by simp)
    omega

theorem utf8ByteSize_here_le (names : List String) :
    (Path.mk .here names).toString.utf8ByteSize ≤ max 1 (bytesOf names) := by
  cases names with
  | nil => exact Nat.le_max_left 1 _
  | cons name rest =>
    have htext : (Path.mk .here (name :: rest)).toString = "" ++ joinWith "/" (name :: rest) := rfl
    have hjoin : (joinWith "/" (name :: rest)).utf8ByteSize + 1 = bytesOf (name :: rest) :=
      utf8ByteSize_joinWith (by simp)
    rw [htext, String.utf8ByteSize_append, String.utf8ByteSize_empty]
    omega

/-- The path from the working directory is the shorter one. -/
theorem utf8ByteSize_here_le_root (cwd names : List String) :
    (Path.mk .here names).toString.utf8ByteSize
      ≤ (Path.mk .root (cwd ++ names)).toString.utf8ByteSize := by
  have hhere := utf8ByteSize_here_le names
  rw [utf8ByteSize_root, bytesOf_append]
  omega

theorem reach_here_le (cwd names below : List String) :
    (Path.mk .here names).reach below ≤ (Path.mk .root (cwd ++ names)).reach below :=
  Nat.add_le_add_right (utf8ByteSize_here_le_root cwd names) _

theorem utf8ByteSize_root_le (names below : List String) :
    (Path.mk .root (names ++ below)).toString.utf8ByteSize
      ≤ (Path.mk .root names).reach below := by
  rw [reach, utf8ByteSize_root, utf8ByteSize_root, bytesOf_append]
  omega

/-! ## The last name -/

theorem stem_absolute (cwd : List String) {names : List String} (h : names ≠ []) :
    (Path.mk .root (cwd ++ names)).stem = (Path.mk .here names).stem := by
  have hname : (Path.mk .root (cwd ++ names)).name = (Path.mk .here names).name := by
    rw [name, name, List.getLast?_append, List.getLast?_eq_some_getLast h]
    rfl
  rw [stem, stem, hname]

end Path

/-! ## Where the paths lead -/

namespace FileTree

/-- From the root, the names of a directory lead to it. -/
theorem followNames_absolute {tree : FileTree} (hwf : tree.WellFormed) {cwd : Location}
    (hwd : tree.get? cwd = some .directory) (names : List String) :
    tree.followNames [] (cwd ++ names) = tree.followNames cwd names := by
  -- The working directory is taken apart from its end, as its parent is a directory too.
  rcases List.eq_nil_or_concat cwd with rfl | ⟨front, name, hcwd⟩
  · rfl
  · rw [List.concat_eq_append] at hcwd
    rw [hcwd] at hwd ⊢
    obtain ⟨hfront, hname⟩ := hwf.parent hwd
    rw [List.append_assoc, List.singleton_append, followNames_absolute hwf hfront,
      followNames_down hfront (isStep_of_isEntryName hname) (by rw [hwd]; rfl)]
termination_by cwd.length
decreasing_by
  rw [hcwd]
  simp

/-- No name on the way to a directory holds NUL. -/
theorem holdsNul_absolute {tree : FileTree} (hwf : tree.WellFormed) {cwd : Location}
    (hwd : tree.get? cwd = some .directory) (names : List String) :
    (Path.mk .root (cwd ++ names)).holdsNul = (Path.mk .here names).holdsNul := by
  have hcwd : cwd.any Path.hasNul = false := by
    rw [List.any_eq_false]
    intro name hname
    rw [(isEntryName_iff.1 (hwf.isEntryName_of_mem hwd hname)).2]
    exact Bool.false_ne_true
  rw [Path.holdsNul, List.any_append, hcwd, Bool.false_or, Path.holdsNul]

/-- **A path from the working directory and the one from the root lead to the same place.** -/
theorem lookup_absolute {tree : FileTree} (hwf : tree.WellFormed) {cwd : Location}
    (hwd : tree.get? cwd = some .directory) {names : List String}
    (hshort : (Path.mk .root (cwd ++ names)).toString.utf8ByteSize < 4096) :
    tree.lookup cwd ⟨.root, cwd ++ names⟩ = tree.lookup cwd ⟨.here, names⟩ := by
  have hhere := Path.utf8ByteSize_here_le_root cwd names
  have hlong : ¬ 4096 ≤ (Path.mk .here names).toString.utf8ByteSize := by omega
  rw [lookup, holdsNul_absolute hwf hwd, if_neg (Nat.not_le.2 hshort), lookup, if_neg hlong]
  split
  · rfl
  · exact followNames_absolute hwf hwd names

end FileTree

/-! ## Categories -/

/-- **The category is the same from the root** unless the anchor is on the way to the working
directory. -/
theorem CategoryMap.categoryOf_absolute {m : CategoryMap} {cwd : Location} (hroot : m.anchor ≠ "/")
    (hcwd : m.anchor ∉ cwd) (names : List String) :
    m.categoryOf ⟨.root, cwd ++ names⟩ = m.categoryOf ⟨.here, names⟩ := by
  have hfolder : m.folder? ("/" :: (cwd ++ names)) = m.folder? names := by
    rw [folder?, List.dropWhile_cons_of_pos (by simpa using Ne.symm hroot),
      List.dropWhile_append_of_pos, ← folder?]
    intro name hname
    rw [bne_iff_ne]
    rintro rfl
    exact hcwd hname
  have hparts : m.folder? (Path.mk .root (cwd ++ names)).parts
      = m.folder? (Path.mk .here names).parts := hfolder
  rw [categoryOf, categoryOf, hparts]

end RefPages
