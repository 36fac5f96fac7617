import RefPages.Proofs.FileTree.Write

/-!
# Paths that hold NUL

A path that holds NUL is never followed, whatever is in the tree, and no other path has the fault of
one. So the fault of an operation tells whether the system has been asked.

* `lookup_eq_nulInPath_iff`: exactly such paths are not followed.
* `isSystem_of_contents`, `isSystem_of_put` and `isSystem_of_makeDirectories`: a fault of reading,
  of writing and of making directories is the system's exactly if the path does not hold NUL.
-/

set_option autoImplicit false
namespace RefPages
namespace FileTree

variable {tree tree' : FileTree} {cwd : Location} {path : Path} {fault : FileFault}

/-- Following names never gives the fault of a path that holds NUL. -/
theorem followNames_ne_nulInPath (tree : FileTree) (at_ : Location) (names : List String) :
    tree.followNames at_ names ≠ .error .nulInPath := by
  induction names generalizing at_ with
  | nil =>
    rw [followNames]
    split <;> simp
  | cons name rest ih =>
    rw [followNames]
    split
    · simp
    · split
      · simp
      · split
        · exact ih _
        · simp only
          split
          · exact ih _
          · split <;> simp

/-- **A path that holds NUL is not followed**, and no other path has its fault. -/
theorem lookup_eq_nulInPath_iff :
    tree.lookup cwd path = .error .nulInPath ↔ path.holdsNul = true := by
  rw [lookup]
  split
  · rename_i h
    simp [h]
  · rename_i h
    refine ⟨fun hlookup => ?_, fun hnul => absurd hnul h⟩
    split at hlookup
    · exact absurd hlookup (by simp)
    · exact absurd hlookup (followNames_ne_nulInPath tree _ _)

theorem isSystem_iff : fault.isSystem = true ↔ fault.cause ≠ .nulInPath := by
  rw [FileFault.isSystem]
  cases fault.cause <;> simp [FileCause.code?]

/-- The fault of a path that cannot be followed is the system's unless the path holds NUL. -/
theorem isSystem_of_lookup {cause : FileCause} (h : tree.lookup cwd path = .error cause) :
    (FileFault.mk cause path).isSystem = !path.holdsNul := by
  rw [Bool.eq_iff_iff, isSystem_iff, Bool.not_eq_true', ← Bool.not_eq_true,
    ← @lookup_eq_nulInPath_iff tree cwd path, h]
  simp

/-! ## Files -/

/-- **A fault of reading is the system's unless the path holds NUL.** -/
theorem isSystem_of_contents (h : tree.contents cwd path = .error fault) :
    fault.isSystem = !path.holdsNul := by
  rw [contents] at h
  split at h
  · cases h
  · cases h
    rw [holdsNul_of_lookup ‹_›]
    rfl
  · cases h
    rw [holdsNul_of_lookup ‹_›]
    rfl
  · cases h
    exact isSystem_of_lookup ‹_›

theorem holdsNul_of_contents {bytes : List UInt8} (h : tree.contents cwd path = .ok bytes) :
    path.holdsNul = false := by
  rw [contents] at h
  split at h
  · exact holdsNul_of_lookup ‹_›
  all_goals cases h

/-- **A fault of writing is the system's unless the path holds NUL.** -/
theorem isSystem_of_put {bytes : List UInt8} (h : tree.put cwd path bytes = .error fault) :
    fault.isSystem = !path.holdsNul := by
  have hplace : tree.filePlace cwd path = .error fault := by
    rw [put] at h
    cases hplace : tree.filePlace cwd path with
    | error fault' =>
      rw [hplace] at h
      cases h
      rfl
    | ok loc =>
      rw [hplace] at h
      cases h
  rw [filePlace] at hplace
  split at hplace
  · cases hplace
  · cases hplace
    rw [holdsNul_of_lookup ‹_›]
    rfl
  · cases hplace
  · cases hplace
    exact isSystem_of_lookup ‹_›

/-! ## Directories -/

theorem isSystem_of_makeDirectory {cause : FileCause}
    (h : tree.makeDirectory cwd path = .error cause) :
    (FileFault.mk cause path).isSystem = !path.holdsNul := by
  rw [makeDirectory] at h
  split at h
  · cases h
  · cases h
    rw [holdsNul_of_lookup ‹_›]
    rfl
  · cases h
    exact isSystem_of_lookup ‹_›

/-- A fault that is settled is the one that was met, or the path is too long. -/
theorem isSystem_of_settle {cause : FileCause}
    (hcause : (FileFault.mk cause path).isSystem = !path.holdsNul)
    (h : tree.settle cwd path cause = (tree', .error fault)) :
    fault.isSystem = !path.holdsNul := by
  rw [settle] at h
  split at h
  · cases h
  · cases h
    exact hcause
  · rename_i hdir
    cases h
    rw [isDirectory] at hdir
    split at hdir
    · cases hdir
    · cases hdir
    · rename_i hlookup
      cases hdir
      exact isSystem_of_lookup hlookup
    · cases hdir

theorem holdsNul_parent (h : path.holdsNul = false) : path.parent.holdsNul = false := by
  rw [Path.holdsNul, List.any_eq_false] at h ⊢
  exact fun name hname => h name ((List.dropLast_sublist path.names).subset hname)

/-- **A fault of making directories is the system's unless the path holds NUL.** -/
theorem isSystem_of_makeDirectories (h : tree.makeDirectories cwd path = (tree', .error fault)) :
    fault.isSystem = !path.holdsNul := by
  -- Where the parent has to be made first, the system has been asked about the path itself.
  have hasked : ∀ {path : Path}, tree.makeDirectory cwd path = .error .notFound →
      path.holdsNul = false := by
    intro path hmake
    simpa [FileFault.isSystem, FileCause.code?] using (isSystem_of_makeDirectory hmake).symm
  fun_induction makeDirectories tree cwd path generalizing fault with
  | case1 path made hmake => cases h
  | case2 path hmake hnames =>
    cases h
    rw [hasked hmake]
    rfl
  | case3 path hmake hnames above fault' hparent ih =>
    cases h
    rw [ih hparent, holdsNul_parent (hasked hmake), hasked hmake]
  | case4 path hmake hnames above hparent made hmade ih => cases h
  | case5 path hmake hnames above hparent hmade ih =>
    cases h
    rw [hasked hmake]
    rfl
  | case6 path hmake hnames above hparent cause hcause hmade ih =>
    exact isSystem_of_settle (isSystem_of_makeDirectory hmade) h
  | case7 path cause hcause hmake => exact isSystem_of_settle (isSystem_of_makeDirectory hmake) h

end FileTree
end RefPages
