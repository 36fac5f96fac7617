import RefPages.Proofs.FileTree.Lookup

/-!
# What writing does to a tree

* `Path.trail` are the places of a path and of the paths above it.
* `AddsDirectories` says that a tree has got nothing but new directories, at some places that were
  free. `makesTrail_makeDirectories`: making a directory adds some along the trail of its path, and
  all of it is there if there was no fault.
* `put_spec`: a file is written at the place that its path names, which is in a directory and is no
  directory itself.
* `WritesFile` is the effect of both together, place by place, and `writesFile_writeFile` says so.
-/

set_option autoImplicit false
namespace RefPages

/-- The places of a path and of the paths above it. -/
def Path.trail (cwd : Location) (path : Path) : List Location :=
  (List.range (path.names.length + 1)).map fun n =>
    (⟨path.start, path.names.take n⟩ : Path).locate cwd

theorem Path.mem_trail {cwd loc : Location} {path : Path} :
    loc ∈ path.trail cwd ↔ ∃ n, n ≤ path.names.length
      ∧ Path.follow (if path.isAbsolute then [] else cwd) (path.names.take n) = loc := by
  rw [Path.trail, List.mem_map]
  constructor
  · rintro ⟨n, hn, rfl⟩
    exact ⟨n, by simpa [Nat.lt_succ_iff] using hn, rfl⟩
  · rintro ⟨n, hn, rfl⟩
    exact ⟨n, by simpa [Nat.lt_succ_iff] using hn, rfl⟩

theorem Path.locate_mem_trail (cwd : Location) (path : Path) : path.locate cwd ∈ path.trail cwd :=
  Path.mem_trail.2 ⟨path.names.length, Nat.le_refl _, by rw [List.take_length]; rfl⟩

/-- The trail of a path is that of the path above it, and its own place. -/
theorem Path.mem_trail_iff_parent {cwd loc : Location} {path : Path} :
    loc ∈ path.trail cwd ↔ loc ∈ path.parent.trail cwd ∨ loc = path.locate cwd := by
  constructor
  · intro h
    obtain ⟨n, hn, rfl⟩ := Path.mem_trail.1 h
    by_cases hlast : n = path.names.length
    · right
      rw [hlast, List.take_length]
      rfl
    · left
      refine Path.mem_trail.2 ⟨n, ?_, ?_⟩
      · simp only [Path.parent, List.length_dropLast]
        omega
      · simp only [Path.parent, List.dropLast_eq_take, List.take_take]
        rw [Nat.min_eq_left (by omega)]
        rfl
  · rintro (h | rfl)
    · obtain ⟨n, hn, rfl⟩ := Path.mem_trail.1 h
      simp only [Path.parent, List.length_dropLast] at hn
      refine Path.mem_trail.2 ⟨n, by omega, ?_⟩
      simp only [Path.parent, List.dropLast_eq_take, List.take_take]
      rw [Nat.min_eq_left hn]
      rfl
    · exact Path.locate_mem_trail cwd path

namespace FileTree

theorem followNames_of_lookup {tree : FileTree} {cwd : Location} {path : Path} {target : Target}
    (h : tree.lookup cwd path = .ok target) :
    tree.followNames (if path.isAbsolute then [] else cwd) path.names = .ok target := by
  rw [lookup] at h
  split at h
  · exact absurd h (by simp)
  · split at h
    · exact absurd h (by simp)
    · exact h

/-- A path that holds NUL leads nowhere. -/
theorem holdsNul_of_lookup {tree : FileTree} {cwd : Location} {path : Path} {target : Target}
    (h : tree.lookup cwd path = .ok target) : path.holdsNul = false := by
  rw [lookup] at h
  split at h
  · exact absurd h (by simp)
  · exact Bool.eq_false_iff.2 ‹_›

theorem hasNul_of_lookup {tree : FileTree} {cwd : Location} {path : Path} {target : Target}
    (h : tree.lookup cwd path = .ok target) {name : String} (hname : name ∈ path.names) :
    Path.hasNul name = false :=
  Bool.eq_false_iff.2 (List.any_eq_false.1 (holdsNul_of_lookup h) name hname)

/-- A path to something in a directory does not hold NUL. -/
theorem holdsNul_join_of_lookup {tree : FileTree} {cwd : Location} {dir : Path} {target : Target}
    (h : tree.lookup cwd dir = .ok target) {name : String} (hname : isEntryName name = true) :
    (dir.join ⟨.here, [name]⟩).holdsNul = false := by
  rw [Path.holdsNul_join_name, holdsNul_of_lookup h, (isEntryName_iff.1 hname).2, Bool.or_false]

theorem holdsNul_of_isDirectory {tree : FileTree} {cwd : Location} {path : Path}
    (h : tree.isDirectory cwd path = .ok true) : path.holdsNul = false := by
  rw [isDirectory] at h
  split at h
  · exact holdsNul_of_lookup ‹_›
  all_goals exact absurd h (by simp)

/-- A path that can be followed in one tree can be followed in another. -/
theorem lookup_eq_followNames {tree : FileTree} {cwd : Location} {path : Path} {target : Target}
    (h : tree.lookup cwd path = .ok target) (tree' : FileTree) :
    tree'.lookup cwd path = tree'.followNames (if path.isAbsolute then [] else cwd) path.names := by
  rw [lookup] at h ⊢
  split at h
  · exact absurd h (by simp)
  · split at h
    · exact absurd h (by simp)
    · rw [if_neg ‹_›, if_neg ‹_›]

/-- A path leads to the place that it names, and finds what is there. -/
theorem locate_of_lookup {tree : FileTree} {cwd : Location} {path : Path} {target : Target}
    (h : tree.lookup cwd path = .ok target) :
    target.place = path.locate cwd ∧ tree.get? target.place = target.entry? :=
  follow_of_followNames (followNames_of_lookup h)

/-- Above the place that a path leads to there are only directories on its trail. -/
theorem directory_of_lookup {tree : FileTree} {cwd : Location} {path : Path} {target : Target}
    (h : tree.lookup cwd path = .ok target) {loc : Location} (hloc : loc ∈ path.trail cwd) :
    tree.get? loc = some .directory ∨ loc = target.place := by
  obtain ⟨n, hn, rfl⟩ := Path.mem_trail.1 hloc
  by_cases hlast : n = path.names.length
  · right
    rw [(locate_of_lookup h).1, hlast, List.take_length]
    rfl
  · exact Or.inl (directory_of_followNames (followNames_of_lookup h) (by omega))

/-! ## New directories -/

/-- The tree has got nothing but directories, at some of the given places that were free. -/
structure AddsDirectories (places : List Location) (tree tree' : FileTree) : Prop where
  /-- It is still well-formed. -/
  wellFormed : tree'.WellFormed
  /-- A place is as it was, or free no more. -/
  get? : ∀ loc, tree'.get? loc = tree.get? loc
    ∨ (loc ∈ places ∧ tree.get? loc = none ∧ tree'.get? loc = some .directory)

theorem AddsDirectories.refl {tree : FileTree} (hwf : tree.WellFormed) (places : List Location) :
    AddsDirectories places tree tree :=
  ⟨hwf, fun _ => Or.inl rfl⟩

theorem AddsDirectories.trans {places : List Location} {tree tree' tree'' : FileTree}
    (h : AddsDirectories places tree tree') (h' : AddsDirectories places tree' tree'') :
    AddsDirectories places tree tree'' := by
  refine ⟨h'.wellFormed, fun loc => ?_⟩
  rcases h'.get? loc with hsame | ⟨hmem, hnone, hnew⟩
  · rw [hsame]
    exact h.get? loc
  · rcases h.get? loc with hsame | ⟨-, -, hdir⟩
    · exact Or.inr ⟨hmem, by rw [← hsame, hnone], hnew⟩
    · rw [hnone] at hdir
      exact absurd hdir (by simp)

theorem AddsDirectories.mono {places places' : List Location} {tree tree' : FileTree}
    (h : AddsDirectories places tree tree') (hsub : ∀ loc ∈ places, loc ∈ places') :
    AddsDirectories places' tree tree' :=
  ⟨h.wellFormed, fun loc => (h.get? loc).imp id fun hnew => ⟨hsub loc hnew.1, hnew.2⟩⟩

theorem AddsDirectories.grows {places : List Location} {tree tree' : FileTree}
    (h : AddsDirectories places tree tree') : Grows tree tree' := by
  have hkeep : ∀ {loc : Location} {entry : Entry}, tree.get? loc = some entry →
      tree'.get? loc = some entry := by
    intro loc entry hloc
    rcases h.get? loc with hsame | ⟨-, hnone, -⟩
    · rw [hsame, hloc]
    · rw [hloc] at hnone
      exact absurd hnone (by simp)
  exact ⟨hkeep, fun hloc => ⟨_, hkeep hloc⟩⟩

/-- A free place is in a directory, and can be given an entry. -/
theorem exists_of_lookup_free {tree : FileTree} {cwd loc : Location} {path : Path}
    (h : tree.lookup cwd path = .ok (.free loc)) :
    ∃ front name, loc = front ++ [name] ∧ path.names.getLast? = some name
      ∧ isEntryName name = true ∧ tree.get? front = some .directory := by
  have hfollow := followNames_of_lookup h
  rcases List.eq_nil_or_concat path.names with hnil | ⟨names, name, hnames⟩
  · rw [hnil] at hfollow
    obtain ⟨entry, -, htarget⟩ := followNames_nil_cases hfollow
    exact absurd htarget (by simp)
  · rw [List.concat_eq_append] at hnames
    rw [hnames] at hfollow
    obtain ⟨mid, hmid, ⟨-, entry, -, htarget⟩ | ⟨-, entry, -, htarget⟩ | ⟨hname, -, htarget⟩⟩ :=
      followNames_append_cases hfollow
    · exact absurd htarget (by simp)
    · exact absurd htarget (by simp)
    · have hmem : name ∈ path.names := by rw [hnames]; simp
      refine ⟨mid, name, Target.free.inj htarget, by rw [hnames]; simp,
        isEntryName_iff.2 ⟨hname, hasNul_of_lookup h hmem⟩, ?_⟩
      exact (follow_of_followNames hmid).2

theorem makeDirectory_spec {tree tree' : FileTree} {cwd : Location} {path : Path}
    (hwf : tree.WellFormed) (h : tree.makeDirectory cwd path = .ok tree') :
    AddsDirectories (path.trail cwd) tree tree'
      ∧ ∀ loc ∈ path.trail cwd, tree'.get? loc = some .directory := by
  rw [makeDirectory] at h
  split at h
  · rename_i loc hlookup
    obtain ⟨hplace, hfree⟩ := locate_of_lookup hlookup
    obtain ⟨front, name, hloc, -, hname, hfront⟩ := exists_of_lookup_free hlookup
    rw [← Except.ok.inj h]
    have hget : ∀ loc', (tree.set loc .directory).get? loc' =
        if loc' = loc then some .directory else tree.get? loc' := fun loc' =>
      get?_set (by rw [hloc]; simp)
    refine ⟨⟨?_, fun loc' => ?_⟩, fun loc' hmem => ?_⟩
    · rw [hloc]
      exact hwf.set hfront hname fun _ => rfl
    · rw [hget]
      split
      · rename_i heq
        rw [heq]
        refine Or.inr ⟨?_, hfree, rfl⟩
        have hplace : loc = path.locate cwd := hplace
        rw [hplace]
        exact Path.locate_mem_trail cwd path
      · exact Or.inl rfl
    · rw [hget]
      split
      · rfl
      · rename_i hne
        exact (directory_of_lookup hlookup hmem).resolve_right hne
  · exact absurd h (by simp)
  · exact absurd h (by simp)

/-- What an attempt to make a directory may do to a tree: it adds directories along the trail of the
path, and without a fault all of them are there. -/
structure MakesTrail (cwd : Location) (path : Path) (tree : FileTree)
    (result : FileTree × Except FileFault Unit) : Prop where
  /-- Only directories are added, and only along the trail. -/
  adds : AddsDirectories (path.trail cwd) tree result.1
  /-- Without a fault the whole trail is there. -/
  directory : result.2 = .ok () → ∀ loc ∈ path.trail cwd, result.1.get? loc = some .directory

/-- A fault that is settled leaves the tree alone, and there is a directory. -/
theorem makesTrail_settle {tree : FileTree} (hwf : tree.WellFormed) (cwd : Location) (path : Path)
    (cause : FileCause) : MakesTrail cwd path tree (tree.settle cwd path cause) := by
  rw [settle]
  split
  · rename_i hdir
    refine ⟨.refl hwf _, fun _ loc hmem => ?_⟩
    rw [isDirectory] at hdir
    split at hdir
    · rename_i place hlookup
      rcases directory_of_lookup hlookup hmem with h | h
      · exact h
      · rw [h]
        exact (locate_of_lookup hlookup).2
    all_goals exact absurd hdir (by simp)
  · exact ⟨.refl hwf _, fun h => absurd h (by simp)⟩
  · exact ⟨.refl hwf _, fun h => absurd h (by simp)⟩

/-- An attempt after which the path itself was tried again. -/
theorem MakesTrail.of_adds {cwd : Location} {path : Path} {tree tree' : FileTree}
    {result : FileTree × Except FileFault Unit}
    (hadds : AddsDirectories (path.parent.trail cwd) tree tree')
    (h : MakesTrail cwd path tree' result) : MakesTrail cwd path tree result :=
  ⟨(hadds.mono fun _ hloc => Path.mem_trail_iff_parent.2 (Or.inl hloc)).trans h.adds, h.directory⟩

/-- **Making a directory adds directories along the trail of its path**, and without a fault all of
them are there. -/
theorem makesTrail_makeDirectories {tree : FileTree} (hwf : tree.WellFormed) (cwd : Location)
    (path : Path) : MakesTrail cwd path tree (tree.makeDirectories cwd path) := by
  fun_induction makeDirectories tree cwd path with
  | case1 path tree' h =>
    obtain ⟨hadds, hall⟩ := makeDirectory_spec hwf h
    exact ⟨hadds, fun _ => hall⟩
  | case2 path h hnames => exact ⟨.refl hwf _, fun h => absurd h (by simp)⟩
  | case3 path h hnames tree' fault hparent ih =>
    rw [hparent] at ih
    exact .of_adds ih.adds ⟨.refl ih.adds.wellFormed _, fun h => absurd h (by simp)⟩
  | case4 path h hnames tree' hparent tree'' hmake ih =>
    rw [hparent] at ih
    obtain ⟨hadds, hall⟩ := makeDirectory_spec ih.adds.wellFormed hmake
    exact .of_adds ih.adds ⟨hadds, fun _ => hall⟩
  | case5 path h hnames tree' hparent hmake ih =>
    rw [hparent] at ih
    exact .of_adds ih.adds ⟨.refl ih.adds.wellFormed _, fun h => absurd h (by simp)⟩
  | case6 path h hnames tree' hparent cause hcause hmake ih =>
    rw [hparent] at ih
    exact .of_adds ih.adds (makesTrail_settle ih.adds.wellFormed cwd path cause)
  | case7 path cause hcause hmake => exact makesTrail_settle hwf cwd path cause

/-! ## Files -/

/-- A file can be written where there is one, and where there is nothing. -/
theorem filePlace_cases {tree : FileTree} {cwd loc : Location} {path : Path}
    (h : tree.filePlace cwd path = .ok loc) :
    (∃ bytes, tree.lookup cwd path = .ok (.found loc (.file bytes)))
      ∨ tree.lookup cwd path = .ok (.free loc) := by
  rw [filePlace] at h
  split at h
  · rename_i hlookup
    cases h
    exact Or.inl ⟨_, hlookup⟩
  · cases h
  · rename_i hlookup
    cases h
    exact Or.inr hlookup
  · cases h

theorem locate_of_filePlace {tree : FileTree} {cwd loc : Location} {path : Path}
    (h : tree.filePlace cwd path = .ok loc) : loc = path.locate cwd := by
  rcases filePlace_cases h with ⟨bytes, hlookup⟩ | hlookup
  · exact (locate_of_lookup hlookup).1
  · exact (locate_of_lookup hlookup).1

/-- What is at the place is a file, if there is anything. -/
theorem file_of_filePlace {tree : FileTree} {cwd loc : Location} {path : Path}
    (h : tree.filePlace cwd path = .ok loc) (hsome : (tree.get? loc).isSome = true) :
    ∃ bytes, tree.get? loc = some (.file bytes) := by
  rcases filePlace_cases h with ⟨bytes, hlookup⟩ | hlookup
  · exact ⟨bytes, (locate_of_lookup hlookup).2⟩
  · have hfree : tree.get? loc = none := (locate_of_lookup hlookup).2
    rw [hfree] at hsome
    cases hsome

/-- A file is not put at the root. -/
theorem ne_nil_of_filePlace {tree : FileTree} {cwd loc : Location} {path : Path}
    (h : tree.filePlace cwd path = .ok loc) : loc ≠ [] := by
  rintro rfl
  obtain ⟨bytes, hbytes⟩ := file_of_filePlace h rfl
  cases hbytes

/-- **A file is written at the place that its path names**, which is in a directory, has the last
name of the path, and is no directory itself. -/
theorem put_spec {tree tree' : FileTree} {cwd : Location} {path : Path} {bytes : List UInt8}
    (hwf : tree.WellFormed) (hwd : tree.get? cwd = some .directory)
    (h : tree.put cwd path bytes = .ok tree') :
    ∃ front, path.locate cwd = front ++ [path.name] ∧ isEntryName path.name = true
      ∧ tree.get? front = some .directory ∧ tree.get? (path.locate cwd) ≠ some .directory
      ∧ tree' = tree.set (path.locate cwd) (.file bytes) := by
  obtain ⟨target, hlookup, htree, hentry⟩ : ∃ target, tree.lookup cwd path = .ok target
      ∧ tree' = tree.set target.place (.file bytes) ∧ target.entry? ≠ some .directory := by
    rw [put, filePlace] at h
    cases hlookup : tree.lookup cwd path with
    | error cause => simp [hlookup, bind, Except.bind] at h
    | ok target =>
      refine ⟨target, rfl, ?_⟩
      rcases target with ⟨loc, bytes' | _⟩ | loc <;>
        simp_all [bind, Except.bind, Target.place, Target.entry?]
  obtain ⟨hplace, hget⟩ := locate_of_lookup hlookup
  have hbase : tree.get? (if path.isAbsolute then [] else cwd) = some .directory := by
    split
    · rfl
    · exact hwd
  have hfollow := followNames_of_lookup hlookup
  rcases List.eq_nil_or_concat path.names with hnil | ⟨names, name, hnames⟩
  · -- A path without names leads to a directory.
    rw [hnil] at hfollow
    obtain ⟨entry, hentry', rfl⟩ := followNames_nil_cases hfollow
    rw [hbase] at hentry'
    exact absurd hentry'.symm hentry
  · rw [List.concat_eq_append] at hnames
    have hname : path.name = name := by rw [Path.name, hnames]; simp
    rw [hnames] at hfollow
    obtain ⟨mid, hmid, hcases⟩ := followNames_append_cases hfollow
    have hmem : name ∈ path.names := by rw [hnames]; simp
    have hnul := hasNul_of_lookup hlookup hmem
    have hdir : tree.get? mid = some .directory := (follow_of_followNames hmid).2
    rw [← hplace, hname, htree, hget]
    rcases hcases with ⟨-, entry, hback, rfl⟩ | ⟨hok, entry, -, rfl⟩ | ⟨hok, -, rfl⟩
    · -- A step back leads to a directory, too.
      rw [hwf.dropLast hdir] at hback
      exact absurd hback.symm hentry
    · exact ⟨mid, rfl, isEntryName_iff.2 ⟨hok, hnul⟩, hdir, hentry, rfl⟩
    · exact ⟨mid, rfl, isEntryName_iff.2 ⟨hok, hnul⟩, hdir, hentry, rfl⟩

/-- The tree in which a file holds these bytes, after making the missing directories above it. -/
def writeFile (tree : FileTree) (cwd : Location) (path : Path) (bytes : List UInt8) :
    FileTree × Except FileFault Unit :=
  match tree.makeDirectories cwd path.parent with
  | (tree, .error fault) => (tree, .error fault)
  | (tree, .ok ()) =>
    match tree.put cwd path bytes with
    | .ok tree => (tree, .ok ())
    | .error fault => (tree, .error fault)

/-- What writing a file does to a tree. -/
structure WritesFile (cwd : Location) (path : Path) (bytes : List UInt8) (tree tree' : FileTree) :
    Prop where
  /-- The tree is still well-formed. -/
  wellFormed : tree'.WellFormed
  /-- The file is where its path says, under the last name of the path. -/
  place : ∃ front, path.locate cwd = front ++ [path.name]
  /-- The file holds the bytes, on its trail are directories, and nothing else is new. -/
  get? : ∀ loc, tree'.get? loc =
    if loc = path.locate cwd then some (.file bytes)
    else if loc ∈ path.parent.trail cwd then some .directory
    else tree.get? loc
  /-- No file was on the trail. -/
  trail : ∀ loc ∈ path.parent.trail cwd, tree.get? loc = none ∨ tree.get? loc = some .directory
  /-- No directory was at the place of the file. -/
  noDirectory : tree.get? (path.locate cwd) ≠ some .directory

theorem writesFile_writeFile {tree tree' : FileTree} {cwd : Location} {path : Path}
    {bytes : List UInt8} (hwf : tree.WellFormed) (hwd : tree.get? cwd = some .directory)
    (h : tree.writeFile cwd path bytes = (tree', .ok ())) :
    WritesFile cwd path bytes tree tree' := by
  rw [writeFile] at h
  have hmakes := makesTrail_makeDirectories hwf cwd path.parent
  split at h
  · exact absurd h (by simp)
  · rename_i mid hmake
    rw [hmake] at hmakes
    have hadds : AddsDirectories (path.parent.trail cwd) tree mid := hmakes.adds
    have hmid : ∀ loc, mid.get? loc =
        if loc ∈ path.parent.trail cwd then some .directory else tree.get? loc := by
      intro loc
      split
      · rename_i hmem
        exact hmakes.directory rfl loc hmem
      · rename_i hmem
        exact (hadds.get? loc).resolve_right fun hnew => hmem hnew.1
    split at h
    · rename_i tree'' hput
      obtain rfl : tree'' = tree' := congrArg Prod.fst h
      obtain ⟨front, hplace, hname, hfront, hfree, rfl⟩ :=
        put_spec hadds.wellFormed (hadds.grows.directory hwd) hput
      refine ⟨?_, ⟨front, hplace⟩, fun loc => ?_, fun loc hloc => ?_, fun hdir => ?_⟩
      · rw [hplace] at hfree ⊢
        exact hadds.wellFormed.set hfront hname fun hdir => absurd hdir hfree
      · rw [get?_set (by rw [hplace]; simp), hmid]
      · rcases hadds.get? loc with hsame | ⟨-, hnone, -⟩
        · rw [← hsame]
          exact Or.inr (hmakes.directory rfl loc hloc)
        · exact Or.inl hnone
      · exact hfree (hadds.grows.directory hdir)
    · exact absurd h (by simp)

theorem WritesFile.grows {cwd : Location} {path : Path} {bytes : List UInt8} {tree tree' : FileTree}
    (h : WritesFile cwd path bytes tree tree') : Grows tree tree' := by
  constructor
  · intro loc hloc
    rw [h.get?]
    split
    · rename_i heq
      exact absurd (heq ▸ hloc) h.noDirectory
    · split
      · rfl
      · exact hloc
  · intro loc old hloc
    rw [h.get?]
    split
    · exact ⟨bytes, rfl⟩
    · split
      · rename_i hmem
        rcases h.trail loc hmem with h | h
        all_goals
          rw [hloc] at h
          exact absurd h (by simp)
      · exact ⟨old, hloc⟩

end FileTree
end RefPages
