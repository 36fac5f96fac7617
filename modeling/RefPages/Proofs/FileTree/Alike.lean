import RefPages.Proofs.FileTree.Listing
import RefPages.Proofs.FileTree.Write

/-!
# Trees that differ in a few files

Two trees may hold the same directories and files, and differ in no more than the bytes of some of
the files. Paths lead to the same places in both, and what is made or written in both alike leaves
them so.

* `FileTree.AlikeBut` relates the trees; a relation says which bytes may differ at a place.
* `AlikeBut.lookup`: a path leads to the same place, and what it finds there is alike.
* `AlikeBut.makeDirectories` and `AlikeBut.put`: the operations end in the same way, and the trees
  are still alike.
* `AlikeBut.listing`: directories show the same names.
-/

set_option autoImplicit false
namespace RefPages
namespace FileTree

/-- What two trees hold at a place is alike: the same, or files whose bytes may differ there. -/
inductive SameEntry (differ : List UInt8 → List UInt8 → Prop) :
    Option Entry → Option Entry → Prop where
  | none : SameEntry differ none none
  | directory : SameEntry differ (some .directory) (some .directory)
  | file {b₁ b₂ : List UInt8} (h : b₁ = b₂ ∨ differ b₁ b₂) :
    SameEntry differ (some (.file b₁)) (some (.file b₂))

/-- The trees hold the same, but for the bytes of files where these may differ. -/
def AlikeBut (differ : Location → List UInt8 → List UInt8 → Prop) (tree₁ tree₂ : FileTree) :
    Prop :=
  ∀ loc, SameEntry (differ loc) (tree₁.get? loc) (tree₂.get? loc)

/-- Where a path leads in two trees is alike. -/
inductive SameTarget (differ : Location → List UInt8 → List UInt8 → Prop) :
    Except FileCause Target → Except FileCause Target → Prop where
  | error (cause : FileCause) : SameTarget differ (.error cause) (.error cause)
  | free (loc : Location) : SameTarget differ (.ok (.free loc)) (.ok (.free loc))
  | directory (loc : Location) :
    SameTarget differ (.ok (.found loc .directory)) (.ok (.found loc .directory))
  | file {loc : Location} {b₁ b₂ : List UInt8} (h : b₁ = b₂ ∨ differ loc b₁ b₂) :
    SameTarget differ (.ok (.found loc (.file b₁))) (.ok (.found loc (.file b₂)))

variable {differ : Location → List UInt8 → List UInt8 → Prop} {tree₁ tree₂ : FileTree}

namespace AlikeBut

theorem directory_iff (h : AlikeBut differ tree₁ tree₂) (loc : Location) :
    tree₁.get? loc = some .directory ↔ tree₂.get? loc = some .directory := by
  have hloc := h loc
  generalize tree₁.get? loc = entry₁, tree₂.get? loc = entry₂ at hloc
  cases hloc <;> simp

theorem isSome_eq (h : AlikeBut differ tree₁ tree₂) (loc : Location) :
    (tree₁.get? loc).isSome = (tree₂.get? loc).isSome := by
  have hloc := h loc
  generalize tree₁.get? loc = entry₁, tree₂.get? loc = entry₂ at hloc
  cases hloc <;> rfl

theorem file_iff (h : AlikeBut differ tree₁ tree₂) (loc : Location) :
    (∃ bytes, tree₁.get? loc = some (.file bytes))
      ↔ ∃ bytes, tree₂.get? loc = some (.file bytes) := by
  have hloc := h loc
  generalize tree₁.get? loc = entry₁, tree₂.get? loc = entry₂ at hloc
  cases hloc <;> simp

/-- The trees hold the same at a place, or files whose bytes differ in a way that they may. -/
theorem get?_cases (h : AlikeBut differ tree₁ tree₂) (loc : Location) :
    tree₂.get? loc = tree₁.get? loc ∨ ∃ b₁ b₂, differ loc b₁ b₂
      ∧ tree₁.get? loc = some (.file b₁) ∧ tree₂.get? loc = some (.file b₂) := by
  have hloc := h loc
  generalize tree₁.get? loc = entry₁, tree₂.get? loc = entry₂ at hloc
  cases hloc with
  | none => exact Or.inl rfl
  | directory => exact Or.inl rfl
  | file hbytes =>
    rcases hbytes with rfl | hbytes
    · exact Or.inl rfl
    · exact Or.inr ⟨_, _, hbytes, rfl, rfl⟩

/-! ## Following paths -/

theorem followNames (h : AlikeBut differ tree₁ tree₂) (names : List String) (at_ : Location) :
    SameTarget differ (tree₁.followNames at_ names) (tree₂.followNames at_ names) := by
  induction names generalizing at_ with
  | nil =>
    have hat := h at_
    rw [FileTree.followNames, FileTree.followNames]
    generalize tree₁.get? at_ = entry₁, tree₂.get? at_ = entry₂ at hat
    cases hat with
    | none => exact .error .notFound
    | directory => exact .directory at_
    | file hbytes => exact .file hbytes
  | cons name rest ih =>
    rw [FileTree.followNames, FileTree.followNames]
    simp only [ne_eq, h.directory_iff at_, h.isSome_eq]
    split
    · exact .error .notDirectory
    · split
      · exact .error .nameTooLong
      · split
        · exact ih at_.dropLast
        · split
          · exact ih (at_ ++ [name])
          · split
            · exact .free (at_ ++ [name])
            · exact .error .notFound

/-- **A path leads to the same place in both trees.** -/
theorem lookup (h : AlikeBut differ tree₁ tree₂) (cwd : Location) (path : Path) :
    SameTarget differ (tree₁.lookup cwd path) (tree₂.lookup cwd path) := by
  rw [FileTree.lookup, FileTree.lookup]
  split
  · exact .error .nulInPath
  · split
    · exact .error .nameTooLong
    · exact h.followNames path.names _

theorem isDirectory (h : AlikeBut differ tree₁ tree₂) (cwd : Location) (path : Path) :
    tree₁.isDirectory cwd path = tree₂.isDirectory cwd path := by
  have hlookup := h.lookup cwd path
  rw [FileTree.isDirectory, FileTree.isDirectory]
  generalize tree₁.lookup cwd path = target₁, tree₂.lookup cwd path = target₂ at hlookup
  cases hlookup <;> rfl

theorem filePlace (h : AlikeBut differ tree₁ tree₂) (cwd : Location) (path : Path) :
    tree₁.filePlace cwd path = tree₂.filePlace cwd path := by
  have hlookup := h.lookup cwd path
  rw [FileTree.filePlace, FileTree.filePlace]
  generalize tree₁.lookup cwd path = target₁, tree₂.lookup cwd path = target₂ at hlookup
  cases hlookup <;> rfl

/-- A file is read the same unless its bytes may differ. -/
theorem contents (h : AlikeBut differ tree₁ tree₂) {cwd : Location} {path : Path}
    (hpath : ∀ b₁ b₂, ¬ differ (path.locate cwd) b₁ b₂) :
    tree₁.contents cwd path = tree₂.contents cwd path := by
  have hlookup := h.lookup cwd path
  have hplace : ∀ target, tree₁.lookup cwd path = .ok target → target.place = path.locate cwd :=
    fun target htarget => (locate_of_lookup htarget).1
  rw [FileTree.contents, FileTree.contents]
  generalize tree₁.lookup cwd path = target₁, tree₂.lookup cwd path = target₂ at hlookup hplace
  cases hlookup with
  | error cause => rfl
  | free loc => rfl
  | directory loc => rfl
  | file hbytes =>
    have hloc := hplace _ rfl
    rcases hbytes with rfl | hdiffer
    · rfl
    · rw [← hloc] at hpath
      exact absurd hdiffer (hpath _ _)

/-! ## Changes -/

/-- Files whose bytes may differ are put at the same place. -/
theorem set_file (h : AlikeBut differ tree₁ tree₂) {loc : Location} (hne : loc ≠ [])
    {b₁ b₂ : List UInt8} (hbytes : b₁ = b₂ ∨ differ loc b₁ b₂) :
    AlikeBut differ (tree₁.set loc (.file b₁)) (tree₂.set loc (.file b₂)) := by
  intro loc'
  rw [get?_set hne, get?_set hne]
  split
  · rename_i heq
    rw [heq]
    exact .file hbytes
  · exact h loc'

theorem set_directory (h : AlikeBut differ tree₁ tree₂) {loc : Location} (hne : loc ≠ []) :
    AlikeBut differ (tree₁.set loc .directory) (tree₂.set loc .directory) := by
  intro loc'
  rw [get?_set hne, get?_set hne]
  split
  · exact .directory
  · exact h loc'

/-- The operation ends in the same way in both trees, and leaves them alike. -/
inductive SameResult {ε : Type} (differ : Location → List UInt8 → List UInt8 → Prop) :
    Except ε FileTree → Except ε FileTree → Prop where
  | error (fault : ε) : SameResult differ (.error fault) (.error fault)
  | ok {tree₁ tree₂ : FileTree} (h : AlikeBut differ tree₁ tree₂) :
    SameResult differ (.ok tree₁) (.ok tree₂)

theorem makeDirectory (h : AlikeBut differ tree₁ tree₂) (cwd : Location) (path : Path) :
    SameResult differ (tree₁.makeDirectory cwd path) (tree₂.makeDirectory cwd path) := by
  have hlookup := h.lookup cwd path
  have hfree : ∀ loc, tree₁.lookup cwd path = .ok (.free loc) → loc ≠ [] := by
    rintro loc hloc rfl
    obtain ⟨front, name, hnil, -⟩ := exists_of_lookup_free hloc
    exact absurd hnil (by simp)
  rw [FileTree.makeDirectory, FileTree.makeDirectory]
  generalize tree₁.lookup cwd path = target₁, tree₂.lookup cwd path = target₂ at hlookup hfree
  cases hlookup with
  | error cause => exact .error cause
  | free loc => exact .ok (h.set_directory (hfree loc rfl))
  | directory loc => exact .error FileCause.alreadyThere
  | file hbytes => exact .error FileCause.alreadyThere

theorem settle (h : AlikeBut differ tree₁ tree₂) (cwd : Location) (path : Path)
    (cause : FileCause) :
    (tree₁.settle cwd path cause).2 = (tree₂.settle cwd path cause).2
      ∧ AlikeBut differ (tree₁.settle cwd path cause).1 (tree₂.settle cwd path cause).1 := by
  rw [FileTree.settle, FileTree.settle, h.isDirectory]
  split <;> exact ⟨rfl, h⟩

/-- **Making a directory** and the missing ones above it ends in the same way in both trees. -/
theorem makeDirectories (h : AlikeBut differ tree₁ tree₂) (cwd : Location) (path : Path) :
    (tree₁.makeDirectories cwd path).2 = (tree₂.makeDirectories cwd path).2
      ∧ AlikeBut differ (tree₁.makeDirectories cwd path).1 (tree₂.makeDirectories cwd path).1 := by
  have hmake := h.makeDirectory cwd path
  rw [FileTree.makeDirectories.eq_def tree₁ cwd path,
    FileTree.makeDirectories.eq_def tree₂ cwd path]
  generalize tree₁.makeDirectory cwd path = made₁, tree₂.makeDirectory cwd path = made₂ at hmake
  cases hmake with
  | ok hmade => exact ⟨rfl, hmade⟩
  | error cause =>
    cases cause with
    | notFound =>
      -- The directories above come first, and then the last one is tried again.
      by_cases hnames : path.names = []
      · simp only [if_pos hnames]
        exact ⟨trivial, h⟩
      · simp only [if_neg hnames]
        have hparent := makeDirectories h cwd path.parent
        generalize tree₁.makeDirectories cwd path.parent = above₁,
          tree₂.makeDirectories cwd path.parent = above₂ at hparent
        obtain ⟨tree₁', result₁⟩ := above₁
        obtain ⟨tree₂', result₂⟩ := above₂
        obtain ⟨rfl, halike⟩ := hparent
        cases result₁ with
        | error fault => exact ⟨rfl, halike⟩
        | ok _ =>
          have hagain := halike.makeDirectory cwd path
          simp only at hagain ⊢
          generalize tree₁'.makeDirectory cwd path = made₁,
            tree₂'.makeDirectory cwd path = made₂ at hagain
          cases hagain with
          | ok hmade => exact ⟨rfl, hmade⟩
          | error cause =>
            cases cause with
            | notFound => exact ⟨rfl, halike⟩
            | _ => exact halike.settle cwd path _
    | _ => exact h.settle cwd path _
termination_by path.names.length
decreasing_by
  have : path.names.length ≠ 0 := by simpa using hnames
  simp only [Path.parent, List.length_dropLast]
  omega

theorem put (h : AlikeBut differ tree₁ tree₂) (cwd : Location) (path : Path)
    (bytes : List UInt8) :
    SameResult differ (tree₁.put cwd path bytes) (tree₂.put cwd path bytes) := by
  rw [FileTree.put, FileTree.put, h.filePlace]
  cases hplace : tree₂.filePlace cwd path with
  | error fault => exact .error fault
  | ok loc => exact .ok (h.set_file (ne_nil_of_filePlace hplace) (Or.inl rfl))

/-! ## Listing directories -/

/-- **Directories show the same names** in both trees. -/
theorem listing (h : AlikeBut differ tree₁ tree₂) (hwf₁ : tree₁.WellFormed)
    (hwf₂ : tree₂.WellFormed) (cwd : Location) (dir : Path) :
    tree₁.listing cwd dir = tree₂.listing cwd dir := by
  have hfound : ∀ loc, tree₁.lookup cwd dir = .ok (.found loc .directory)
      ↔ tree₂.lookup cwd dir = .ok (.found loc .directory) := by
    intro loc
    have hlookup := h.lookup cwd dir
    generalize tree₁.lookup cwd dir = target₁, tree₂.lookup cwd dir = target₂ at hlookup
    cases hlookup <;> simp
  by_cases hdir : ∃ loc, tree₁.lookup cwd dir = .ok (.found loc .directory)
  · obtain ⟨loc, hdir⟩ := hdir
    obtain ⟨hfiles₁, hdirs₁⟩ := inOrder_listing hwf₁ cwd dir
    obtain ⟨hfiles₂, hdirs₂⟩ := inOrder_listing hwf₂ cwd dir
    have hmem₁ := mem_listing hwf₁ hdir
    have hmem₂ := mem_listing hwf₂ ((hfound loc).1 hdir)
    refine Prod.ext (hfiles₁.ext hfiles₂ fun name => ?_) (hdirs₁.ext hdirs₂ fun name => ?_)
    · rw [(hmem₁ name).1, (hmem₂ name).1, h.file_iff]
    · rw [(hmem₁ name).2, (hmem₂ name).2, h.directory_iff]
  · rw [listing_eq_nil fun loc hloc => hdir ⟨loc, hloc⟩,
      listing_eq_nil fun loc hloc => hdir ⟨loc, (hfound loc).2 hloc⟩]

end AlikeBut
end FileTree
end RefPages
