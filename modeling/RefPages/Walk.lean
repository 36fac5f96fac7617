import RefPages.Workspace

/-!
# Source files below a directory

Directories are listed when they are reached: the files of a directory first, in the order of their
names, then what is below its subdirectories, one after the other in the order of their names. The
order in which a tree holds its entries does not matter.

* `listing` are the sorted names of the files and of the subdirectories of a directory.
* `Eligibility` says which files count as source files.
* `walk` performs an operation at every source file. What the operation changes is seen in the
  directories reached later.
* `sourceFiles` are the paths of the source files.

A path of 4096 bytes cannot be listed, which bounds the depth.
-/

set_option autoImplicit false
namespace RefPages

/-- Which files count as source files. -/
structure Eligibility where
  extension : String := ".d"
  excluded : List String := ["package.d", "registry.d"]
  deriving DecidableEq, Repr

/-- Does a file of this name count? -/
def Eligibility.admits (e : Eligibility) (name : String) : Bool :=
  e.extension.toList.isSuffixOf name.toList && name ∉ e.excluded

/-- The names of the files and of the subdirectories of a directory, each in order. -/
def FileTree.listing (tree : FileTree) (cwd : Location) (dir : Path) : List String × List String :=
  match tree.lookup cwd dir with
  | .ok (.found loc .directory) =>
    let children := tree.children loc
    (sortTexts ((children.filter (·.2 ≠ .directory)).map (·.1)),
      sortTexts ((children.filter (·.2 = .directory)).map (·.1)))
  | _ => ([], [])

/-- How many bytes a path is short of the limit. A path that ends in a slash has one more, since
none is put between it and a name. -/
def Path.room (p : Path) : Nat :=
  if p.isAbsolute && p.names.isEmpty then 4097 - p.toString.utf8ByteSize
  else 4096 - p.toString.utf8ByteSize

theorem Path.le_room (p : Path) : 4096 ≤ p.room + p.toString.utf8ByteSize := by
  rw [Path.room]
  split <;> omega

/-- Performs an operation at every source file below `dir`; `room` is how many bytes its path is
short of the limit. -/
def walkBelow {α : Type} (eligible : Eligibility) (visit : α → Path → Action α) :
    (room : Nat) → (dir : Path) → α → Action α
  | 0, _, a => pure a
  | room + 1, dir, a => do
    let (files, subdirectories) ← Action.look fun w => w.tree.listing w.cwd dir
    let a ← (files.filter eligible.admits).foldlM
      (fun a name => visit a (dir.join ⟨.here, [name]⟩)) a
    subdirectories.foldlM
      (fun a name =>
        walkBelow eligible visit (room - name.utf8ByteSize) (dir.join ⟨.here, [name]⟩) a) a
termination_by room => room
decreasing_by omega

/-- Performs an operation at every source file below a directory; a path to none has none. -/
def walk {α : Type} (eligible : Eligibility) (visit : α → Path → Action α) (root : Path) (a : α) :
    Action α := do
  let isDirectory ← Action.lift ((← get).tree.isDirectory (← get).cwd root |>.mapError Fault.file)
  if isDirectory then
    walkBelow eligible visit root.room root a
  else pure a

/-- The paths of the source files below a directory. -/
def sourceFiles (eligible : Eligibility) (root : Path) : Action (List Path) :=
  walk eligible (fun paths path => pure (paths ++ [path])) root []

end RefPages
