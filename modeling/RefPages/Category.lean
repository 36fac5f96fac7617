import RefPages.Path

/-!
# Categories

The category of a page depends on the folder its source file is in: the folder right below the
first segment that equals the anchor, provided that a file name follows it.

* `CategoryMap` holds the anchor, the default and the entries that go before the built-in table.
* `CategoryMap.categoryOf` gives the category of a path, and `categoryOf_eq_default` says when it is
  the default.
-/

set_option autoImplicit false
namespace RefPages

/-- The built-in categories of the folders below the anchor. -/
def builtInCategories : List (String × String) :=
  [("comparison", "comparison"), ("equality", "equality"), ("exception", "callable"),
   ("memory", "callable"), ("string", "strings"), ("type", "types"), ("operations", "other")]

/-- How folders are mapped to categories. -/
structure CategoryMap where
  overrides : List (String × String) := []
  anchor : String := "operations"
  default : String := "other"
  deriving DecidableEq, Repr

namespace CategoryMap

/-- The category of a folder below the anchor. -/
def ofFolder (m : CategoryMap) (folder : String) : String :=
  ((m.overrides.lookup folder).or (builtInCategories.lookup folder)).getD m.default

/-- The folder that decides the category: the segment right after the first anchor, when at least
one more follows. -/
def folder? (m : CategoryMap) (parts : List String) : Option String :=
  match parts.dropWhile (· != m.anchor) with
  | _ :: folder :: _ :: _ => some folder
  | _ => none

/-- The category of the file at `path`. -/
def categoryOf (m : CategoryMap) (path : Path) : String :=
  match m.folder? path.parts with
  | some folder => m.ofFolder folder
  | none => m.default

theorem categoryOf_eq_default {m : CategoryMap} {path : Path}
    (h : m.folder? path.parts = none) : m.categoryOf path = m.default := by
  simp [categoryOf, h]

end CategoryMap
end RefPages
