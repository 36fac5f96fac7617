import RefPages.Text.Lines
import RefPages.Text.Split

/-!
# Paths

A path is where it starts from and the names to follow from there. Reading one from text drops empty
and `.` segments and keeps `..`; two slashes at the front, and no more than two, are a start of
their own.

* `Path.ofString` and `Path.toString` read and write a path; `Path.join` follows one path from
  another.
* `Path.parts` is the list of segments, `Path.name`, `Path.stem` and `Path.parent` the usual pieces.
* `Path.holdsNul` says which paths the system cannot be asked about.
* `Path.locate` is the place a path names when every `..` is taken to step back over the name before
  it, starting from a working directory.
-/

set_option autoImplicit false
namespace RefPages

/-- Where a path starts. -/
inductive Start where
  | here
  | root
  | doubleRoot
  deriving DecidableEq, Repr

/-- A place in a tree of directories: the names from the root down. -/
abbrev Location := List String

/-- A path: a start, and names that are neither empty nor `.`. -/
structure Path where
  start : Start := .here
  names : List String := []
  deriving DecidableEq, Repr

namespace Path

/-- The start as it is written. -/
def startText : Start → String
  | .here => ""
  | .root => "/"
  | .doubleRoot => "//"

/-- The names among the segments between slashes. -/
def namesOf (cs : List Char) : List String :=
  ((Text.splitOn '/' cs).filter fun name => !name.isEmpty && name != ['.']).map String.ofList

/-- The start of a path, by the slashes in front. -/
def startOf : List Char → Start
  | '/' :: '/' :: '/' :: _ => .root
  | '/' :: '/' :: _ => .doubleRoot
  | '/' :: _ => .root
  | _ => .here

/-- Reads a path. -/
def ofString (s : String) : Path :=
  ⟨startOf s.toList, namesOf s.toList⟩

/-- Writes a path; the empty one is `.`. -/
def toString (p : Path) : String :=
  match p.start, p.names with
  | .here, [] => "."
  | start, names => startText start ++ Text.joinWith "/" names

instance : ToString Path := ⟨Path.toString⟩

/-- The path that follows `p` and then `q`; a `q` with a start of its own takes over. -/
def join (p q : Path) : Path :=
  match q.start with
  | .here => ⟨p.start, p.names ++ q.names⟩
  | _ => q

/-- The path that follows `p` and then the path written in a text. -/
def joinText (p : Path) (s : String) : Path :=
  p.join (ofString s)

/-- The segments of a path, its start among them. -/
def parts (p : Path) : List String :=
  match p.start with
  | .here => p.names
  | start => startText start :: p.names

/-- The last name, or nothing. -/
def name (p : Path) : String :=
  p.names.getLast?.getD ""

/-- The characters before the last dot and those after it. -/
def splitAtLastDot (cs : List Char) : Option (List Char × List Char) :=
  let tail := cs.reverse.takeWhile (· != '.')
  match cs.reverse.dropWhile (· != '.') with
  | [] => none
  | _ :: front => some (front.reverse, tail.reverse)

/-- The last name without its extension: up to the last dot, unless that is its first or last
character. -/
def stem (p : Path) : String :=
  match splitAtLastDot p.name.toList with
  | some (front, tail) => if front.isEmpty || tail.isEmpty then p.name else String.ofList front
  | none => p.name

/-- The path without its last name. -/
def parent (p : Path) : Path :=
  ⟨p.start, p.names.dropLast⟩

/-- Is the start not the working directory? -/
def isAbsolute (p : Path) : Bool :=
  p.start != .here

/-- Does a text hold NUL? The system would take it for the end of the text. -/
def hasNul (s : String) : Bool :=
  s.toList.contains '\x00'

/-- Does a name of the path hold NUL? Such a path is never handed to the system. -/
def holdsNul (p : Path) : Bool :=
  p.names.any hasNul

/-- Follows names from a place, where `..` steps back. -/
def follow : Location → List String → Location
  | at_, [] => at_
  | at_, name :: rest => follow (if name = ".." then at_.dropLast else at_ ++ [name]) rest

/-- The place a path names, seen from the working directory `cwd`. -/
def locate (cwd : Location) (p : Path) : Location :=
  follow (if p.isAbsolute then [] else cwd) p.names

/-- The path from the root to a place. -/
def ofLocation (loc : Location) : Path :=
  ⟨.root, loc⟩

/-- The path from the root to the place that `p` names. -/
def resolve (cwd : Location) (p : Path) : Path :=
  ofLocation (p.locate cwd)

@[simp] theorem join_here (p : Path) (names : List String) :
    p.join ⟨.here, names⟩ = ⟨p.start, p.names ++ names⟩ := rfl

@[simp] theorem holdsNul_join_name (p : Path) (name : String) :
    (p.join ⟨.here, [name]⟩).holdsNul = (p.holdsNul || hasNul name) := by
  rw [join_here, holdsNul, List.any_append, List.any_cons, List.any_nil, Bool.or_false, holdsNul]

@[simp] theorem names_resolve (cwd : Location) (p : Path) :
    (p.resolve cwd).names = p.locate cwd := rfl

theorem follow_append (at_ : Location) (xs ys : List String) :
    follow at_ (xs ++ ys) = follow (follow at_ xs) ys := by
  induction xs generalizing at_ with
  | nil => rfl
  | cons x xs ih => simp [follow, ih]

end Path
end RefPages
