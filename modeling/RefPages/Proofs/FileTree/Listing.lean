import RefPages.Proofs.FileTree.Lookup
import RefPages.Proofs.Text.Sorted
import RefPages.Walk

/-!
# What a directory lists

* `mem_children`: the children of a place are what is found under one more name.
* `mem_listing` and `inOrder_listing` say what `listing` gives: the names of the files and those of
  the subdirectories, each in order.
-/

set_option autoImplicit false
namespace RefPages

namespace FileTree

/-- An entry is right below a directory if its place is that of the directory and one more name. -/
theorem child_eq_some {loc place : Location} {entry : Entry} {child : String × Entry} :
    (match place.getLast? with
      | some name => if place.dropLast = loc then some (name, entry) else none
      | none => none) = some child ↔ place = loc ++ [child.1] ∧ entry = child.2 := by
  constructor
  · intro h
    split at h
    · rename_i name hlast
      split at h
      · rename_i hfront
        obtain ⟨front, rfl⟩ := List.getLast?_eq_some_iff.1 hlast
        rw [List.dropLast_concat] at hfront
        rw [← Option.some.inj h, hfront]
        exact ⟨rfl, rfl⟩
      · exact absurd h (by simp)
    · exact absurd h (by simp)
  · rintro ⟨rfl, rfl⟩
    simp

theorem mem_children {tree : FileTree} (hwf : tree.WellFormed) {loc : Location} {name : String}
    {entry : Entry} :
    (name, entry) ∈ tree.children loc ↔ tree.get? (loc ++ [name]) = some entry := by
  rw [children, List.mem_filterMap]
  constructor
  · rintro ⟨⟨place, entry'⟩, hmem, h⟩
    obtain ⟨rfl, rfl⟩ := child_eq_some.1 h
    exact hwf.get?_of_mem (by simp) hmem
  · intro h
    exact ⟨(loc ++ [name], entry), mem_of_get? (by simp) h, child_eq_some.2 ⟨rfl, rfl⟩⟩

theorem nodup_children {tree : FileTree} (hwf : tree.WellFormed) (loc : Location) :
    ((tree.children loc).map (·.1)).Nodup := by
  have hkeys : tree.entries.Pairwise fun a b => a.1 ≠ b.1 := List.pairwise_map.1 hwf.nodup
  rw [List.Nodup, List.pairwise_map, children]
  refine hkeys.filterMap _ fun a a' hne b hb b' hb' heq => hne ?_
  rw [(child_eq_some.1 hb).1, (child_eq_some.1 hb').1, heq]

/-- The names of the files of a directory, and those of its subdirectories. -/
theorem mem_listing {tree : FileTree} (hwf : tree.WellFormed) {cwd loc : Location} {dir : Path}
    (hdir : tree.lookup cwd dir = .ok (.found loc .directory)) (name : String) :
    (name ∈ (tree.listing cwd dir).1 ↔ ∃ bytes, tree.get? (loc ++ [name]) = some (.file bytes))
      ∧ (name ∈ (tree.listing cwd dir).2 ↔ tree.get? (loc ++ [name]) = some .directory) := by
  rw [listing, hdir]
  simp only [mem_sortTexts, List.mem_map, List.mem_filter, decide_eq_true_eq]
  constructor
  · constructor
    · rintro ⟨⟨name', entry⟩, ⟨hmem, hfile⟩, rfl⟩
      cases entry with
      | file bytes => exact ⟨bytes, (mem_children hwf).1 hmem⟩
      | directory => exact absurd rfl hfile
    · rintro ⟨bytes, h⟩
      exact ⟨(name, .file bytes), ⟨(mem_children hwf).2 h, by simp⟩, rfl⟩
  · constructor
    · rintro ⟨⟨name', entry⟩, ⟨hmem, rfl⟩, rfl⟩
      exact (mem_children hwf).1 hmem
    · intro h
      exact ⟨(name, .directory), ⟨(mem_children hwf).2 h, rfl⟩, rfl⟩

theorem inOrder_listing {tree : FileTree} (hwf : tree.WellFormed) (cwd : Location) (dir : Path) :
    InOrder (tree.listing cwd dir).1 ∧ InOrder (tree.listing cwd dir).2 := by
  have hnodup : ∀ (loc : Location) (p : String × Entry → Bool),
      (((tree.children loc).filter p).map (·.1)).Nodup := fun loc p =>
    (nodup_children hwf loc).sublist (List.filter_sublist.map _)
  rw [listing]
  split
  · exact ⟨inOrder_sortTexts (hnodup _ _), inOrder_sortTexts (hnodup _ _)⟩
  · exact ⟨⟨.nil, .nil⟩, ⟨.nil, .nil⟩⟩

theorem exists_of_mem_listing {tree : FileTree} {cwd : Location} {dir : Path} {name : String}
    (h : name ∈ (tree.listing cwd dir).1 ∨ name ∈ (tree.listing cwd dir).2) :
    ∃ loc, tree.lookup cwd dir = .ok (.found loc .directory) := by
  rw [listing] at h
  split at h
  · rename_i loc hdir
    exact ⟨loc, hdir⟩
  · exact absurd h (by simp)

/-- What is listed can be an entry's name. -/
theorem isEntryName_of_mem_listing {tree : FileTree} (hwf : tree.WellFormed) {cwd : Location}
    {dir : Path} {name : String}
    (h : name ∈ (tree.listing cwd dir).1 ∨ name ∈ (tree.listing cwd dir).2) :
    isEntryName name = true := by
  obtain ⟨loc, hdir⟩ := exists_of_mem_listing h
  rcases h with h | h
  · obtain ⟨bytes, hbytes⟩ := (mem_listing hwf hdir name).1.1 h
    exact (hwf.parent hbytes).2
  · exact (hwf.parent ((mem_listing hwf hdir name).2.1 h)).2

/-- A path that leads to no directory has nothing to list. -/
theorem listing_eq_nil {tree : FileTree} {cwd : Location} {dir : Path}
    (h : ∀ loc, tree.lookup cwd dir ≠ .ok (.found loc .directory)) :
    tree.listing cwd dir = ([], []) := by
  rw [listing]
  split
  · rename_i loc hdir
    exact absurd hdir (h loc)
  · rfl

end FileTree

end RefPages
