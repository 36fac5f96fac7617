import RefPages.Proofs.FileTree.Write

/-!
# Writing several files

Files are written one after the other, and the first fault ends it. What has been written once can
be written again: the directories are there, the files stand where they are to go, and nothing is
added.

* `writeFiles` writes several files, and `exists_of_writeFiles_error` says how it can fail: the
  files before the one that fails are all written.
* `Standing` says that a file is where its path leads to. A file that has been written is
  (`standing_of_writeFile`), and stays so in a tree that grows.
* `exists_writeFiles_of_standing`: standing files can be written, and no place is new after it.
* `eq_of_keys`: a tree is known by its places, in their order, and what is there.
-/

set_option autoImplicit false
namespace RefPages
namespace FileTree

variable {tree tree' : FileTree} {cwd loc : Location} {path : Path} {bytes : List UInt8}
  {files : List (Path × List UInt8)}

/-! ## One after the other -/

/-- Writes files one after the other, until one cannot be written. -/
def writeFiles (tree : FileTree) (cwd : Location) :
    List (Path × List UInt8) → FileTree × Except FileFault Unit
  | [] => (tree, .ok ())
  | (path, bytes) :: rest =>
    match tree.writeFile cwd path bytes with
    | (tree, .ok ()) => tree.writeFiles cwd rest
    | (tree, .error fault) => (tree, .error fault)

@[simp] theorem writeFiles_nil (tree : FileTree) (cwd : Location) :
    tree.writeFiles cwd [] = (tree, .ok ()) := rfl

theorem writeFiles_cons_ok (h : tree.writeFile cwd path bytes = (tree', .ok ())) :
    tree.writeFiles cwd ((path, bytes) :: files) = tree'.writeFiles cwd files := by
  rw [writeFiles, h]

theorem writeFiles_cons_error {fault : FileFault}
    (h : tree.writeFile cwd path bytes = (tree', .error fault)) :
    tree.writeFiles cwd ((path, bytes) :: files) = (tree', .error fault) := by
  rw [writeFiles, h]

/-- Writing one file is writing a list of one. -/
theorem writeFiles_singleton (tree : FileTree) (cwd : Location) (path : Path)
    (bytes : List UInt8) : tree.writeFiles cwd [(path, bytes)] = tree.writeFile cwd path bytes := by
  rcases h : tree.writeFile cwd path bytes with ⟨tree', fault | _⟩
  · exact writeFiles_cons_error h
  · exact writeFiles_cons_ok h

/-- All files are written if the first one is, and the others after it. -/
theorem exists_of_writeFiles_cons_ok
    (h : tree.writeFiles cwd ((path, bytes) :: files) = (tree', .ok ())) :
    ∃ mid, tree.writeFile cwd path bytes = (mid, .ok ())
      ∧ mid.writeFiles cwd files = (tree', .ok ()) := by
  rcases hfirst : tree.writeFile cwd path bytes with ⟨mid, fault | _⟩
  · rw [writeFiles_cons_error hfirst] at h
    exact absurd h (by simp)
  · rw [writeFiles_cons_ok hfirst] at h
    exact ⟨mid, rfl, h⟩

/-- More files are written after the first ones have been. -/
theorem writeFiles_append_ok (h : tree.writeFiles cwd files = (tree', .ok ()))
    (more : List (Path × List UInt8)) :
    tree.writeFiles cwd (files ++ more) = tree'.writeFiles cwd more := by
  induction files generalizing tree with
  | nil =>
    cases h
    rfl
  | cons file files ih =>
    obtain ⟨mid, hfirst, hrest⟩ := exists_of_writeFiles_cons_ok h
    rw [List.cons_append, writeFiles_cons_ok hfirst]
    exact ih hrest

theorem writeFiles_append_error {fault : FileFault}
    (h : tree.writeFiles cwd files = (tree', .error fault)) (more : List (Path × List UInt8)) :
    tree.writeFiles cwd (files ++ more) = (tree', .error fault) := by
  induction files generalizing tree with
  | nil => exact absurd h (by simp)
  | cons file files ih =>
    rcases hfirst : tree.writeFile cwd file.1 file.2 with ⟨mid, fault' | _⟩
    · rw [writeFiles_cons_error hfirst] at h
      rw [List.cons_append, writeFiles_cons_error hfirst, h]
    · rw [writeFiles_cons_ok hfirst] at h
      rw [List.cons_append, writeFiles_cons_ok hfirst]
      exact ih h

/-- **A fault is that of one file**, and all the files before it have been written. -/
theorem exists_of_writeFiles_error {fault : FileFault}
    (h : tree.writeFiles cwd files = (tree', .error fault)) :
    ∃ before path bytes after mid, files = before ++ (path, bytes) :: after
      ∧ tree.writeFiles cwd before = (mid, .ok ())
      ∧ mid.writeFile cwd path bytes = (tree', .error fault) := by
  induction files generalizing tree with
  | nil => exact absurd h (by simp)
  | cons file files ih =>
    obtain ⟨path, bytes⟩ := file
    rcases hfirst : tree.writeFile cwd path bytes with ⟨mid, fault' | _⟩
    · rw [writeFiles_cons_error hfirst] at h
      exact ⟨[], path, bytes, files, tree, rfl, rfl, by rw [hfirst, h]⟩
    · rw [writeFiles_cons_ok hfirst] at h
      obtain ⟨before, path', bytes', after, mid', rfl, hbefore, hfault⟩ := ih h
      exact ⟨(path, bytes) :: before, path', bytes', after, mid', rfl,
        by rw [writeFiles_cons_ok hfirst, hbefore], hfault⟩

/-- What a file that could not be written has left behind: directories above it, at most. -/
theorem addsDirectories_of_writeFile_error {fault : FileFault} (hwf : tree.WellFormed)
    (h : tree.writeFile cwd path bytes = (tree', .error fault)) :
    AddsDirectories (path.parent.trail cwd) tree tree' := by
  have hmakes := makesTrail_makeDirectories hwf cwd path.parent
  rw [writeFile] at h
  split at h
  · rename_i mid fault' hmake
    rw [hmake] at hmakes
    cases h
    exact hmakes.adds
  · rename_i mid hmake
    rw [hmake] at hmakes
    split at h
    · exact absurd h (by simp)
    · cases h
      exact hmakes.adds

/-- The two ways in which writing a file can fail. -/
theorem writeFile_error_cases {fault : FileFault}
    (h : tree.writeFile cwd path bytes = (tree', .error fault)) :
    tree.makeDirectories cwd path.parent = (tree', .error fault)
      ∨ tree.makeDirectories cwd path.parent = (tree', .ok ())
        ∧ tree'.put cwd path bytes = .error fault := by
  rw [writeFile] at h
  split at h
  · rename_i mid fault' hmake
    cases h
    exact Or.inl hmake
  · rename_i mid hmake
    split at h
    · exact absurd h (by simp)
    · rename_i fault' hput
      cases h
      exact Or.inr ⟨hmake, hput⟩

/-! ## Files that stand -/

/-- The path leads to a file, and the path above it to a directory. -/
structure Standing (cwd : Location) (path : Path) (tree : FileTree) : Prop where
  parent : ∃ loc, tree.lookup cwd path.parent = .ok (.found loc .directory)
  file : ∃ bytes, tree.lookup cwd path = .ok (.found (path.locate cwd) (.file bytes))

/-- An entry where there was no directory takes no place from a tree. -/
theorem grows_set {entry : Entry} (hloc : loc ≠ []) (hdir : tree.get? loc ≠ some .directory)
    (hfile : entry = .directory → tree.get? loc = none) : Grows tree (tree.set loc entry) := by
  constructor
  · intro loc' hloc'
    rw [get?_set hloc]
    split
    · rename_i heq
      exact absurd (heq ▸ hloc') hdir
    · exact hloc'
  · intro loc' old hold
    rw [get?_set hloc]
    split
    · rename_i heq
      cases entry with
      | file bytes => exact ⟨bytes, rfl⟩
      | directory =>
        rw [heq, hfile rfl] at hold
        exact absurd hold (by simp)
    · exact ⟨old, hold⟩

/-- A path that led to an entry leads to what is there in a tree that has grown. -/
theorem Grows.lookup (h : Grows tree tree') {entry entry' : Entry}
    (hfound : tree.lookup cwd path = .ok (.found loc entry))
    (hentry : tree'.get? loc = some entry') : tree'.lookup cwd path = .ok (.found loc entry') := by
  rw [lookup_eq_followNames hfound]
  exact h.followNames (followNames_of_lookup hfound) hentry

/-- A path that led to a free place leads to what has been put there. -/
theorem lookup_set_free (h : tree.lookup cwd path = .ok (.free loc)) (entry : Entry) :
    (tree.set loc entry).lookup cwd path = .ok (.found loc entry) := by
  obtain ⟨front, name, hloc, hlast, -, -⟩ := exists_of_lookup_free h
  have hne : loc ≠ [] := by rw [hloc]; simp
  have hfree : tree.get? loc = none := (locate_of_lookup h).2
  have hgrows : Grows tree (tree.set loc entry) :=
    grows_set hne (by rw [hfree]; simp) fun _ => hfree
  have hentry : (tree.set loc entry).get? loc = some entry := by rw [get?_set hne, if_pos rfl]
  obtain ⟨names, hnames⟩ := List.getLast?_eq_some_iff.1 hlast
  have hfollow := followNames_of_lookup h
  rw [lookup_eq_followNames h]
  rw [hnames] at hfollow ⊢
  obtain ⟨mid, hmid, ⟨-, _, -, htarget⟩ | ⟨-, _, -, htarget⟩ | ⟨hname, -, htarget⟩⟩ :=
    followNames_append_cases hfollow
  · exact absurd htarget (by simp)
  · exact absurd htarget (by simp)
  · cases htarget
    have hmid' := hgrows.directory (follow_of_followNames hmid).2
    rw [followNames_append (hgrows.followNames hmid hmid')]
    exact followNames_singleton hmid' hname hentry

/-- A directory that has been made is where its path leads to. -/
theorem exists_lookup_of_makeDirectories
    (h : tree.makeDirectories cwd path = (tree', .ok ())) :
    ∃ loc, tree'.lookup cwd path = .ok (.found loc .directory) := by
  have hmade : ∀ {start made : FileTree}, start.makeDirectory cwd path = .ok made →
      ∃ loc, made.lookup cwd path = .ok (.found loc .directory) := by
    intro start made hmake
    rw [makeDirectory] at hmake
    split at hmake
    · rename_i loc hfree
      cases hmake
      exact ⟨loc, lookup_set_free hfree .directory⟩
    all_goals exact absurd hmake (by simp)
  have hsettled : ∀ {start : FileTree} {cause : FileCause},
      start.settle cwd path cause = (tree', .ok ()) →
      ∃ loc, tree'.lookup cwd path = .ok (.found loc .directory) := by
    intro start cause hsettle
    rw [settle] at hsettle
    split at hsettle
    · rename_i hdir
      cases hsettle
      rw [isDirectory] at hdir
      split at hdir
      · exact ⟨_, ‹_›⟩
      all_goals exact absurd hdir (by simp)
    all_goals exact absurd hsettle (by simp)
  rw [makeDirectories] at h
  split at h
  · rename_i made hmake
    cases h
    exact hmade hmake
  · split at h
    · exact absurd h (by simp)
    · split at h
      · exact absurd h (by simp)
      · split at h
        · rename_i made hmake
          cases h
          exact hmade hmake
        · exact absurd h (by simp)
        · exact hsettled h
  · exact hsettled h

/-- A file that has been put is where its path leads to. -/
theorem lookup_of_put (hwf : tree.WellFormed) (hwd : tree.get? cwd = some .directory)
    (h : tree.put cwd path bytes = .ok tree') :
    Grows tree tree' ∧ tree'.lookup cwd path = .ok (.found (path.locate cwd) (.file bytes)) := by
  obtain ⟨front, hplace, -, -, hfree, rfl⟩ := put_spec hwf hwd h
  have hne : path.locate cwd ≠ [] := by rw [hplace]; simp
  have hgrows : Grows tree (tree.set (path.locate cwd) (.file bytes)) :=
    grows_set hne hfree (by simp)
  have hlocate : ∀ {target : Target}, tree.lookup cwd path = .ok target →
      target.place = path.locate cwd := fun hlookup => (locate_of_lookup hlookup).1
  refine ⟨hgrows, ?_⟩
  rw [put, filePlace] at h
  split at h
  · rename_i place old hfound
    have hsame : place = path.locate cwd := hlocate hfound
    rw [hsame] at hfound
    exact hgrows.lookup hfound (by rw [get?_set hne, if_pos rfl])
  · exact absurd h (by simp [bind, Except.bind])
  · rename_i place hfound
    have hsame : place = path.locate cwd := hlocate hfound
    rw [hsame] at hfound
    exact lookup_set_free hfound _
  · exact absurd h (by simp [bind, Except.bind])

/-- **A file that has been written stands.** -/
theorem standing_of_writeFile (hwf : tree.WellFormed) (hwd : tree.get? cwd = some .directory)
    (h : tree.writeFile cwd path bytes = (tree', .ok ())) : Standing cwd path tree' := by
  have hmakes := makesTrail_makeDirectories hwf cwd path.parent
  rw [writeFile] at h
  split at h
  · exact absurd h (by simp)
  · rename_i mid hmake
    rw [hmake] at hmakes
    obtain ⟨loc, hparent⟩ := exists_lookup_of_makeDirectories hmake
    split at h
    · rename_i tree'' hput
      cases h
      obtain ⟨hgrows, hfile⟩ :=
        lookup_of_put hmakes.adds.wellFormed (hmakes.adds.grows.directory hwd) hput
      have hparent' := hgrows.lookup hparent (hgrows.directory (locate_of_lookup hparent).2)
      exact ⟨⟨loc, hparent'⟩, bytes, hfile⟩
    · exact absurd h (by simp)

theorem Standing.grows (h : Standing cwd path tree) (hgrows : Grows tree tree') :
    Standing cwd path tree' := by
  obtain ⟨⟨loc, hparent⟩, bytes, hfile⟩ := h
  obtain ⟨bytes', hbytes'⟩ := hgrows.file (locate_of_lookup hfile).2
  have hparent' := hgrows.lookup hparent (hgrows.directory (locate_of_lookup hparent).2)
  exact ⟨⟨loc, hparent'⟩, bytes', hgrows.lookup hfile hbytes'⟩

/-- A directory that is there can be made, and nothing happens. -/
theorem makeDirectories_of_lookup (h : tree.lookup cwd path = .ok (.found loc .directory)) :
    tree.makeDirectories cwd path = (tree, .ok ()) := by
  have hmake : tree.makeDirectory cwd path = .error .alreadyThere := by rw [makeDirectory, h]
  have hdir : tree.isDirectory cwd path = .ok true := by rw [isDirectory, h]
  rw [makeDirectories, hmake]
  simp only [settle, hdir]

/-- A standing file is written in its place. -/
theorem Standing.writeFile (h : Standing cwd path tree) (bytes : List UInt8) :
    tree.writeFile cwd path bytes = (tree.set (path.locate cwd) (.file bytes), .ok ()) := by
  obtain ⟨⟨loc, hparent⟩, old, hfile⟩ := h
  have hput : tree.put cwd path bytes = .ok (tree.set (path.locate cwd) (.file bytes)) := by
    rw [put, filePlace, hfile]
    rfl
  rw [FileTree.writeFile, makeDirectories_of_lookup hparent]
  simp only
  rw [hput]

/-- What writing files leaves: a well-formed tree that has lost nothing. -/
theorem grows_of_writeFiles (hwf : tree.WellFormed) (hwd : tree.get? cwd = some .directory)
    (h : tree.writeFiles cwd files = (tree', .ok ())) : tree'.WellFormed ∧ Grows tree tree' := by
  induction files generalizing tree with
  | nil =>
    cases h
    exact ⟨hwf, .refl _⟩
  | cons file files ih =>
    obtain ⟨mid, hfirst, hrest⟩ := exists_of_writeFiles_cons_ok h
    have hwrites := writesFile_writeFile hwf hwd hfirst
    obtain ⟨hwf', hgrows⟩ := ih hwrites.wellFormed (hwrites.grows.directory hwd) hrest
    exact ⟨hwf', hwrites.grows.trans hgrows⟩

/-- All files that have been written stand. -/
theorem standing_of_writeFiles (hwf : tree.WellFormed) (hwd : tree.get? cwd = some .directory)
    (h : tree.writeFiles cwd files = (tree', .ok ())) :
    ∀ file ∈ files, Standing cwd file.1 tree' := by
  induction files generalizing tree with
  | nil => simp
  | cons file files ih =>
    obtain ⟨mid, hfirst, hrest⟩ := exists_of_writeFiles_cons_ok h
    have hwrites := writesFile_writeFile hwf hwd hfirst
    have hwd' := hwrites.grows.directory hwd
    obtain ⟨-, hgrows⟩ := grows_of_writeFiles hwrites.wellFormed hwd' hrest
    exact List.forall_mem_cons.2
      ⟨(standing_of_writeFile hwf hwd hfirst).grows hgrows, ih hwrites.wellFormed hwd' hrest⟩

/-! ## Writing again -/

/-- The places of a tree, in their order. -/
def keys (tree : FileTree) : List Location :=
  tree.entries.map (·.1)

theorem keys_set_of_get? (hne : loc ≠ []) (h : (tree.get? loc).isSome = true) (entry : Entry) :
    (tree.set loc entry).keys = tree.keys := by
  obtain ⟨old, hold⟩ := Option.isSome_iff_exists.1 h
  have hmem : loc ∈ tree.entries.map (·.1) := List.mem_map_of_mem (mem_of_get? hne hold)
  rw [keys, FileTree.set, keys_setEntry, if_pos hmem, keys]

/-- **Standing files can be written**, and no place is new after it. -/
theorem exists_writeFiles_of_standing (h : ∀ file ∈ files, Standing cwd file.1 tree) :
    ∃ tree', tree.writeFiles cwd files = (tree', .ok ()) ∧ tree'.keys = tree.keys := by
  induction files generalizing tree with
  | nil => exact ⟨tree, rfl, rfl⟩
  | cons file files ih =>
    obtain ⟨path, bytes⟩ := file
    obtain ⟨hfirst, hrest⟩ := List.forall_mem_cons.1 h
    obtain ⟨old, hfile⟩ := hfirst.file
    have hget : tree.get? (path.locate cwd) = some (.file old) := (locate_of_lookup hfile).2
    have hne : path.locate cwd ≠ [] := by
      intro hnil
      rw [hnil] at hget
      exact absurd hget (by simp)
    have hgrows : Grows tree (tree.set (path.locate cwd) (.file bytes)) :=
      grows_set hne (by rw [hget]; simp) (by simp)
    obtain ⟨tree', hwrite, hkeys⟩ := ih fun file hfile => (hrest file hfile).grows hgrows
    refine ⟨tree', by rw [writeFiles_cons_ok (hfirst.writeFile bytes), hwrite], ?_⟩
    rw [hkeys, keys_set_of_get? hne (by rw [hget]; rfl)]

/-- Two lists of entries with the same places, none of them twice, are the same if they have the
same entry at every place. -/
theorem entries_eq {xs ys : List (Location × Entry)} (hkeys : xs.map (·.1) = ys.map (·.1))
    (hnodup : (xs.map (·.1)).Nodup) (h : ∀ loc, xs.lookup loc = ys.lookup loc) : xs = ys := by
  induction xs generalizing ys with
  | nil => exact (List.map_eq_nil_iff.1 hkeys.symm).symm
  | cons x xs ih =>
    obtain ⟨loc, entry⟩ := x
    cases ys with
    | nil => exact absurd hkeys (by simp)
    | cons y ys =>
      obtain ⟨loc', entry'⟩ := y
      rw [List.map_cons, List.map_cons, List.cons.injEq] at hkeys
      rw [List.map_cons, List.nodup_cons] at hnodup
      obtain ⟨rfl, hkeys⟩ := hkeys
      have hentry : entry = entry' := by simpa using h loc
      have hrest : xs = ys := by
        refine ih hkeys hnodup.2 fun place => ?_
        -- The first place is in neither rest; any other is looked up in the rest.
        by_cases hplace : place = loc
        · have hnot : ∀ zs : List (Location × Entry), loc ∉ zs.map (·.1) →
              zs.lookup loc = none := by
            intro zs hzs
            rw [List.lookup_eq_none_iff]
            intro e he
            simpa using fun heq : loc = e.1 => hzs (heq ▸ List.mem_map_of_mem he)
          rw [hplace, hnot xs hnodup.1, hnot ys (hkeys ▸ hnodup.1)]
        · have hne : (place == loc) = false := by simpa using hplace
          simpa [List.lookup_cons, hne] using h place
      rw [hentry, hrest]

/-- **A tree is known by its places**, in their order, and what is there. -/
theorem eq_of_keys (hwf : tree.WellFormed) (hwf' : tree'.WellFormed)
    (hkeys : tree.keys = tree'.keys) (h : ∀ loc, tree.get? loc = tree'.get? loc) :
    tree = tree' := by
  have hnil : ∀ {t : FileTree}, t.WellFormed → t.entries.lookup [] = none := by
    intro t hwf
    rw [List.lookup_eq_none_iff]
    intro e he
    have hname := (hwf.placed e he).2
    cases hplace : e.1 with
    | nil => exact absurd hname (by rw [hplace]; simp)
    | cons name rest => rfl
  have hentries : tree.entries = tree'.entries := by
    refine entries_eq hkeys hwf.nodup fun loc => ?_
    by_cases hloc : loc = []
    · rw [hloc, hnil hwf, hnil hwf']
    · rw [← get?_of_ne_nil hloc, ← get?_of_ne_nil hloc, h]
  cases tree
  cases tree'
  exact congrArg _ hentries

end FileTree
end RefPages
