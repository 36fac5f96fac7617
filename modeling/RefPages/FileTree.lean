import RefPages.Path
import RefPages.Text.Quoted
import RefPages.Text.Utf8

/-!
# Trees of files

A tree holds an entry for every place but the root, which is always a directory. A path is followed
name by name: every place on the way has to be a directory, also before a `..`, a name has at most
255 bytes and a path less than 4096. A path that holds NUL is not followed at all.

* `FileTree.get?`, `FileTree.set`, `FileTree.plant` and `FileTree.remove` read and change the tree
  at a place.
* `FileTree.lookup` follows a path to an entry or to a place that is free.
* `FileTree.contents`, `FileTree.put`, `FileTree.makeDirectory`, `FileTree.makeDirectories` and
  `FileTree.isDirectory` are the operations on paths, with the fault that each can meet.
-/

set_option autoImplicit false
namespace RefPages

/-- What can be at a place: a regular file or a directory. There are no links and no special files
in a tree. -/
inductive Entry where
  | file (bytes : List UInt8)
  | directory
  deriving DecidableEq, Repr

/-- Why a path could not be used. -/
inductive FileCause where
  | notFound
  | alreadyThere
  | notDirectory
  | isDirectory
  | nameTooLong
  | nulInPath
  deriving DecidableEq, Repr

/-- The number that the system has for a cause; it is never asked about a path that holds NUL. -/
def FileCause.code? : FileCause → Option Nat
  | .notFound => some 2
  | .alreadyThere => some 17
  | .notDirectory => some 20
  | .isDirectory => some 21
  | .nameTooLong => some 36
  | .nulInPath => none

/-- A cause in words. -/
def FileCause.text : FileCause → String
  | .notFound => "No such file or directory"
  | .alreadyThere => "File exists"
  | .notDirectory => "Not a directory"
  | .isDirectory => "Is a directory"
  | .nameTooLong => "File name too long"
  | .nulInPath => "embedded null byte"

/-- A path could not be used. -/
structure FileFault where
  cause : FileCause
  path : Path
  deriving DecidableEq, Repr

/-- Has the system refused the path? -/
def FileFault.isSystem (fault : FileFault) : Bool :=
  fault.cause.code?.isSome

/-- The report of a path that could not be used. -/
def FileFault.message (fault : FileFault) : String :=
  match fault.cause.code? with
  | some code =>
    "[Errno " ++ toString code ++ "] " ++ fault.cause.text ++ ": "
      ++ Text.quoted fault.path.toString
  | none => fault.cause.text

/-- A tree of files and directories. -/
structure FileTree where
  entries : List (Location × Entry) := []
  deriving DecidableEq, Repr

namespace FileTree

/-! ## Places -/

/-- What is at a place. -/
def get? (tree : FileTree) (loc : Location) : Option Entry :=
  if loc = [] then some .directory else tree.entries.lookup loc

/-- Replaces the entry of a place, or adds one at the end. -/
def setEntry (loc : Location) (entry : Entry) : List (Location × Entry) → List (Location × Entry)
  | [] => [(loc, entry)]
  | (loc', entry') :: rest =>
    if loc' = loc then (loc, entry) :: rest else (loc', entry') :: setEntry loc entry rest

/-- The tree with an entry at a place. -/
def set (tree : FileTree) (loc : Location) (entry : Entry) : FileTree :=
  ⟨setEntry loc entry tree.entries⟩

/-- The tree without a place and everything below it. -/
def remove (tree : FileTree) (loc : Location) : FileTree :=
  ⟨tree.entries.filter fun e => !loc.isPrefixOf e.1⟩

/-- The tree with an entry at a place and directories above it. Nothing is above the root, which is
a directory already. -/
def plant (tree : FileTree) (loc : Location) (entry : Entry) : FileTree :=
  let above := (List.range loc.length).filterMap fun n =>
    if n = 0 then none else some (loc.take n)
  let tree := above.foldl (fun tree place => tree.set place .directory) tree
  if loc = [] then tree else tree.set loc entry

/-- The entries that another tree lacks or has differently. -/
def differences (tree old : FileTree) : List (Location × Entry) :=
  tree.entries.filter fun e => old.get? e.1 ≠ some e.2

/-- The names right below a place, with their entries. -/
def children (tree : FileTree) (loc : Location) : List (String × Entry) :=
  tree.entries.filterMap fun (place, entry) =>
    match place.getLast? with
    | some name => if place.dropLast = loc then some (name, entry) else none
    | none => none

theorem lookup_setEntry (loc loc' : Location) (entry : Entry) (entries : List (Location × Entry)) :
    (setEntry loc entry entries).lookup loc' =
      if loc' = loc then some entry else entries.lookup loc' := by
  have lookup_cons : ∀ (place : Location) (e : Entry) (rest : List (Location × Entry)),
      ((place, e) :: rest).lookup loc' = if loc' = place then some e else rest.lookup loc' := by
    intro place e rest
    rw [List.lookup_cons]
    by_cases h : loc' = place
    · simp [h]
    · rw [show (loc' == place) = false by simpa using h, if_neg h]
  induction entries with
  | nil => simp [setEntry, lookup_cons]
  | cons e rest ih =>
    obtain ⟨place, old⟩ := e
    by_cases hp : place = loc
    · subst hp
      simp only [setEntry, if_true, lookup_cons]
      split <;> rfl
    · simp only [setEntry, hp, if_false, lookup_cons, ih]
      by_cases h : loc' = loc
      · simp [h, Ne.symm hp]
      · simp [h]

/-- Setting a place changes what is there and nothing else. -/
theorem get?_set {tree : FileTree} {loc loc' : Location} {entry : Entry} (h : loc ≠ []) :
    (tree.set loc entry).get? loc' = if loc' = loc then some entry else tree.get? loc' := by
  by_cases h' : loc' = []
  · subst h'
    simp [get?, Ne.symm h]
  · simp [get?, set, h', lookup_setEntry]

/-! ## Paths -/

/-- Where a path leads: to an entry, or to a place that is free in a directory that exists. -/
inductive Target where
  | found (loc : Location) (entry : Entry)
  | free (loc : Location)
  deriving DecidableEq, Repr

/-- Follows names from a place. -/
def followNames (tree : FileTree) : (at_ : Location) → List String → Except FileCause Target
  | at_, [] =>
    match tree.get? at_ with
    | some entry => .ok (.found at_ entry)
    | none => .error .notFound
  | at_, name :: rest =>
    if tree.get? at_ ≠ some .directory then .error .notDirectory
    else if 255 < name.utf8ByteSize then .error .nameTooLong
    else if name = ".." then followNames tree at_.dropLast rest
    else
      let next := at_ ++ [name]
      if (tree.get? next).isSome then followNames tree next rest
      else if rest.isEmpty then .ok (.free next)
      else .error .notFound

/-- Follows a path from the working directory `cwd`. -/
def lookup (tree : FileTree) (cwd : Location) (path : Path) : Except FileCause Target :=
  if path.holdsNul then .error .nulInPath
  else if 4096 ≤ path.toString.utf8ByteSize then .error .nameTooLong
  else tree.followNames (if path.isAbsolute then [] else cwd) path.names

/-- Is there a directory? A path that leads nowhere is none, but one that is too long is a fault. -/
def isDirectory (tree : FileTree) (cwd : Location) (path : Path) : Except FileFault Bool :=
  match tree.lookup cwd path with
  | .ok (.found _ .directory) => .ok true
  | .ok _ => .ok false
  | .error .nameTooLong => .error ⟨.nameTooLong, path⟩
  | .error _ => .ok false

/-- Is there anything? -/
def isThere (tree : FileTree) (cwd : Location) (path : Path) : Except FileFault Bool :=
  match tree.lookup cwd path with
  | .ok (.found ..) => .ok true
  | .ok (.free _) => .ok false
  | .error .nameTooLong => .error ⟨.nameTooLong, path⟩
  | .error _ => .ok false

/-- The bytes of a file. -/
def contents (tree : FileTree) (cwd : Location) (path : Path) : Except FileFault (List UInt8) :=
  match tree.lookup cwd path with
  | .ok (.found _ (.file bytes)) => .ok bytes
  | .ok (.found _ .directory) => .error ⟨.isDirectory, path⟩
  | .ok (.free _) => .error ⟨.notFound, path⟩
  | .error cause => .error ⟨cause, path⟩

/-- The place at which a file can be written. -/
def filePlace (tree : FileTree) (cwd : Location) (path : Path) : Except FileFault Location :=
  match tree.lookup cwd path with
  | .ok (.found loc (.file _)) => .ok loc
  | .ok (.found _ .directory) => .error ⟨.isDirectory, path⟩
  | .ok (.free loc) => .ok loc
  | .error cause => .error ⟨cause, path⟩

/-- The tree in which a file holds these bytes and nothing else. A file that can be opened can be
written: a disk that is full, or any other fault after the file is open, is left out. -/
def put (tree : FileTree) (cwd : Location) (path : Path) (bytes : List UInt8) :
    Except FileFault FileTree := do
  let loc ← tree.filePlace cwd path
  .ok (tree.set loc (.file bytes))

/-- The tree with a new directory. -/
def makeDirectory (tree : FileTree) (cwd : Location) (path : Path) : Except FileCause FileTree :=
  match tree.lookup cwd path with
  | .ok (.free loc) => .ok (tree.set loc .directory)
  | .ok (.found ..) => .error .alreadyThere
  | .error cause => .error cause

/-- The end of an attempt to make a directory: it is no fault if there is one. -/
def settle (tree : FileTree) (cwd : Location) (path : Path) (cause : FileCause) :
    FileTree × Except FileFault Unit :=
  match tree.isDirectory cwd path with
  | .ok true => (tree, .ok ())
  | .ok false => (tree, .error ⟨cause, path⟩)
  | .error fault => (tree, .error fault)

/-- The tree with a directory and the missing ones above it. What was made before a fault stays. -/
def makeDirectories (tree : FileTree) (cwd : Location) (path : Path) :
    FileTree × Except FileFault Unit :=
  match tree.makeDirectory cwd path with
  | .ok tree => (tree, .ok ())
  | .error .notFound =>
    if path.names = [] then (tree, .error ⟨.notFound, path⟩)
    else
      match tree.makeDirectories cwd path.parent with
      | (tree, .error fault) => (tree, .error fault)
      | (tree, .ok ()) =>
        match tree.makeDirectory cwd path with
        | .ok tree => (tree, .ok ())
        | .error .notFound => (tree, .error ⟨.notFound, path⟩)
        | .error cause => tree.settle cwd path cause
  | .error cause => tree.settle cwd path cause
termination_by path.names.length
decreasing_by
  rename_i h
  have : path.names.length ≠ 0 := by simpa using h
  simp [Path.parent]
  omega

end FileTree
end RefPages
