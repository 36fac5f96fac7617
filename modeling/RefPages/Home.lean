import RefPages.Fault

/-!
# Home directories

A path may begin with `~` for one's own home directory, or with `~` and the name of a user for that
user's.

* `Homes` are the home directories of a system; `Homes.find?` looks up what a name stands for.
* `Path.expandHome` puts the home directory in the place of the name.
-/

set_option autoImplicit false
namespace RefPages

/-- The home directories of a system: one's own, and those of its users by name. -/
structure Homes where
  own : String := ""
  users : List (String × String) := []
  deriving Repr

/-- The home directory that `~` with the name of a user stands for; without a name, one's own. -/
def Homes.find? (homes : Homes) (user : String) : Option String :=
  if user.isEmpty then some homes.own else homes.users.lookup user

namespace Path

/-- The name of the user whose home directory a path begins with. -/
def user? (p : Path) : Option String :=
  match p.start, p.names with
  | .here, name :: _ =>
    match name.toList with
    | '~' :: user => some (String.ofList user)
    | _ => none
  | _, _ => none

/-- A home directory, as it is put in front: without slashes at its end, unless it is the root. -/
def ofHome (home : String) : Path :=
  let cs := (home.toList.reverse.dropWhile (· = '/')).reverse
  ofString (if cs.isEmpty then "/" else String.ofList cs)

/-- The path with a leading `~` or `~user` replaced by the home directory. A user that is not known
has none, and a home directory that begins with `~` itself is none. -/
def expandHome (homes : Homes) (p : Path) : Except Fault Path :=
  match p.user? with
  | none => .ok p
  | some user =>
    if hasNul user then .error (.file ⟨.nulInPath, p⟩)
    else
      match homes.find? user with
      | none => .error .noHome
      | some home =>
        if "~".toList.isPrefixOf home.toList then .error .noHome
        else .ok ((ofHome home).join ⟨.here, p.names.drop 1⟩)

end Path
end RefPages
