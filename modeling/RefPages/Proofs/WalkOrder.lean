import RefPages.Proofs.DryRun
import RefPages.Proofs.FileTree.Absolute
import RefPages.Proofs.FileTree.Alike

/-!
# The order of the walk

The files of a directory come first, in the order of their names, and then what is below its
subdirectories, one after the other in the order of their names. A directory whose path has no room
left below the limit shows nothing, and the walk goes on without it.

* `WalkedBefore` is the order of names below a directory; no names come before themselves.
* `namesBelow` are the names of the source files below a directory, `filesBelow_eq_map` says that
  the paths of the walk follow them from there.
* `pairwise_namesBelow`: the walk goes in that order, so it comes to no file twice.
* `mem_namesBelow`: it comes to the source files in the directories that there is room for, and to
  nothing else.
* `perform_sourceFiles_perm`: the order in which a tree holds its entries does not matter.
* `sourceFiles_walked`: **all this of the list of source files**; `sourceFiles_noRoom` is a file
  that is missed.
-/

set_option autoImplicit false
namespace RefPages

/-! ## Room below a path -/

namespace Path

theorem utf8ByteSize_toString {p : Path} (h : p.names ≠ []) :
    p.toString.utf8ByteSize + 1 = (startText p.start).utf8ByteSize + bytesOf p.names := by
  obtain ⟨start, names⟩ := p
  obtain ⟨name, rest, rfl⟩ := List.exists_cons_of_ne_nil h
  have htext : (Path.mk start (name :: rest)).toString
      = startText start ++ Text.joinWith "/" (name :: rest) := by
    cases start <;> rfl
  rw [htext, String.utf8ByteSize_append, Nat.add_assoc, utf8ByteSize_joinWith h]

theorem room_of_ne_nil {p : Path} (h : p.names ≠ []) : p.room = 4096 - p.toString.utf8ByteSize := by
  rw [room, if_neg]
  simp [h]

/-- One name more takes its bytes and a slash, at most. -/
theorem room_le_room_join (dir : Path) (name : String) :
    dir.room ≤ (dir.join ⟨.here, [name]⟩).room + (name.utf8ByteSize + 1) := by
  have hnext : (dir.join ⟨.here, [name]⟩).names ≠ [] := by simp
  have hsize : (dir.join ⟨.here, [name]⟩).toString.utf8ByteSize
      = (startText dir.start).utf8ByteSize + bytesOf dir.names + name.utf8ByteSize := by
    have hbytes := utf8ByteSize_toString hnext
    simp only [join_here, bytesOf_append, bytesOf] at hbytes ⊢
    omega
  rw [room_of_ne_nil hnext, hsize]
  by_cases hnames : dir.names = []
  · -- The start alone: a dot, a slash or two.
    have hroom : dir.room + (startText dir.start).utf8ByteSize ≤ 4097 := by
      obtain ⟨start, names⟩ := dir
      cases hnames
      cases start <;> decide
    rw [hnames, bytesOf]
    omega
  · have hdir := utf8ByteSize_toString hnames
    rw [room_of_ne_nil hnames]
    omega

end Path

/-! ## The order -/

/-- The order of names below a directory: its files by their names, before what is below its
subdirectories; the subdirectories by their names; below one of them, the same again. -/
inductive WalkedBefore : List String → List String → Prop where
  | files {name name' : String} : name < name' → WalkedBefore [name] [name']
  | above {name dir next : String} {rest : List String} : WalkedBefore [name] (dir :: next :: rest)
  | apart {dir dir' next next' : String} {rest rest' : List String} : dir < dir' →
      WalkedBefore (dir :: next :: rest) (dir' :: next' :: rest')
  | inside {dir : String} {names names' : List String} : WalkedBefore names names' →
      WalkedBefore (dir :: names) (dir :: names')

theorem WalkedBefore.ne_nil {names names' : List String} (h : WalkedBefore names names') :
    names ≠ [] ∧ names' ≠ [] := by
  cases h <;> simp

theorem WalkedBefore.irrefl (names : List String) : ¬ WalkedBefore names names := by
  induction names with
  | nil => exact fun h => h.ne_nil.1 rfl
  | cons name rest ih =>
    intro h
    cases h with
    | files hlt => exact String.lt_irrefl _ hlt
    | apart hlt => exact String.lt_irrefl _ hlt
    | inside hrest => exact ih hrest

/-- Followed from a directory, names in this order give different paths. -/
theorem nodup_map_join {below : List (List String)} (h : below.Pairwise WalkedBefore) (dir : Path) :
    (below.map fun names => dir.join ⟨.here, names⟩).Nodup := by
  refine List.pairwise_map.2 (h.imp fun {names names'} hbefore heq => ?_)
  rw [Path.join_here, Path.join_here, Path.mk.injEq] at heq
  obtain rfl := List.append_cancel_left heq.2
  exact WalkedBefore.irrefl _ hbefore

theorem InOrder.pairwise_lt {names : List String} (h : InOrder names) :
    names.Pairwise (· < ·) := by
  refine (h.pairwise.and h.nodup).imp fun {name name'} ⟨hle, hne⟩ => ?_
  exact String.not_le.1 fun hge => hne (String.le_antisymm hle hge)

/-! ## The names below a directory -/

/-- The names that lead from a directory to the source files below it. -/
def namesBelow (e : Eligibility) (tree : FileTree) (cwd : Location) :
    (room : Nat) → (dir : Path) → List (List String)
  | 0, _ => []
  | room + 1, dir =>
    ((tree.listing cwd dir).1.filter e.admits).map (fun name => [name])
      ++ (tree.listing cwd dir).2.flatMap fun name =>
        (namesBelow e tree cwd (room - name.utf8ByteSize) (dir.join ⟨.here, [name]⟩)).map
          (name :: ·)
termination_by room => room
decreasing_by omega

variable {e : Eligibility} {tree : FileTree} {cwd : Location}

/-- The paths of the walk follow these names from the directory. -/
theorem filesBelow_eq_map (e : Eligibility) (tree : FileTree) (cwd : Location) (room : Nat)
    (dir : Path) :
    filesBelow e tree cwd room dir
      = (namesBelow e tree cwd room dir).map fun names => dir.join ⟨.here, names⟩ := by
  fun_induction namesBelow e tree cwd room dir with
  | case1 => rw [filesBelow, List.map_nil]
  | case2 room dir ih =>
    have hbelow : ∀ name, filesBelow e tree cwd (room - name.utf8ByteSize)
          (dir.join ⟨.here, [name]⟩)
        = ((namesBelow e tree cwd (room - name.utf8ByteSize) (dir.join ⟨.here, [name]⟩)).map
            (name :: ·)).map fun names => dir.join ⟨.here, names⟩ := by
      intro name
      rw [ih name, List.map_map]
      refine List.map_congr_left fun names _ => ?_
      simp
    rw [filesBelow, List.map_append, List.map_map, List.map_flatMap]
    simp only [hbelow]
    rfl

theorem ne_nil_of_mem_namesBelow {room : Nat} {dir : Path} {names : List String}
    (h : names ∈ namesBelow e tree cwd room dir) : names ≠ [] := by
  cases room with
  | zero =>
    rw [namesBelow] at h
    exact absurd h (by simp)
  | succ room =>
    rw [namesBelow, List.mem_append, List.mem_map, List.mem_flatMap] at h
    rcases h with ⟨name, -, rfl⟩ | ⟨name, -, h⟩
    · simp
    · obtain ⟨rest, -, rfl⟩ := List.mem_map.1 h
      simp

/-- **The walk goes in order.** -/
theorem pairwise_namesBelow (hwf : tree.WellFormed) (room : Nat) (dir : Path) :
    (namesBelow e tree cwd room dir).Pairwise WalkedBefore := by
  fun_induction namesBelow e tree cwd room dir with
  | case1 => exact .nil
  | case2 room dir ih =>
    obtain ⟨hfiles, hdirs⟩ := FileTree.inOrder_listing hwf cwd dir
    have hbelow : ∀ {name names}, names ∈ (namesBelow e tree cwd (room - name.utf8ByteSize)
        (dir.join ⟨.here, [name]⟩)).map (name :: ·) →
          ∃ next rest, names = name :: next :: rest := by
      intro name names hnames
      obtain ⟨rest, hrest, rfl⟩ := List.mem_map.1 hnames
      obtain ⟨next, rest, rfl⟩ := List.exists_cons_of_ne_nil (ne_nil_of_mem_namesBelow hrest)
      exact ⟨next, rest, rfl⟩
    refine List.pairwise_append.2 ⟨?_, List.pairwise_flatMap.2 ⟨fun name _ => ?_, ?_⟩, ?_⟩
    · exact List.pairwise_map.2 ((hfiles.filter _).pairwise_lt.imp .files)
    · exact List.pairwise_map.2 ((ih name).imp .inside)
    · refine hdirs.pairwise_lt.imp fun {name name'} hlt names hnames names' hnames' => ?_
      obtain ⟨next, rest, rfl⟩ := hbelow hnames
      obtain ⟨next', rest', rfl⟩ := hbelow hnames'
      exact .apart hlt
    · intro names hnames names' hnames'
      obtain ⟨name, -, rfl⟩ := List.mem_map.1 hnames
      obtain ⟨name', -, hnames'⟩ := List.mem_flatMap.1 hnames'
      obtain ⟨next, rest, rfl⟩ := hbelow hnames'
      exact .above

/-! ## What is walked to -/

/-- Names that lead from a directory to a source file, through directories that there is room for.
-/
structure LeadsToSource (e : Eligibility) (tree : FileTree) (loc : Location) (room : Nat)
    (names : List String) : Prop where
  /-- The names lead to a file. -/
  file : ∃ bytes, tree.get? (loc ++ names) = some (.file bytes)
  /-- The last name has the extension and is not excluded. -/
  last : ∃ name, names.getLast? = some name ∧ e.extension.toList <:+ name.toList
    ∧ name ∉ e.excluded
  /-- There is room for the names before it. -/
  fits : Path.bytesOf names.dropLast < room

/-- What is above a place that holds something is a directory. -/
theorem FileTree.WellFormed.above (hwf : tree.WellFormed) {loc : Location} {rest : List String}
    {entry : Entry} (hne : rest ≠ []) (h : tree.get? (loc ++ rest) = some entry) :
    tree.get? loc = some .directory := by
  induction rest generalizing loc with
  | nil => exact absurd rfl hne
  | cons name rest ih =>
    by_cases hnil : rest = []
    · subst hnil
      exact (hwf.parent h).1
    · rw [← List.singleton_append, ← List.append_assoc] at h
      exact (hwf.parent (ih hnil h)).1

theorem leadsToSource_singleton {loc : Location} {room : Nat} {name : String} :
    LeadsToSource e tree loc (room + 1) [name] ↔
      (∃ bytes, tree.get? (loc ++ [name]) = some (.file bytes)) ∧ e.admits name = true := by
  have hadmits : e.admits name = true ↔ e.extension.toList <:+ name.toList ∧ name ∉ e.excluded := by
    rw [Eligibility.admits, Bool.and_eq_true, List.isSuffixOf_iff_suffix, decide_eq_true_eq]
  rw [hadmits]
  constructor
  · rintro ⟨hfile, ⟨last, hlast, hname⟩, -⟩
    cases hlast
    exact ⟨hfile, hname⟩
  · rintro ⟨hfile, hname⟩
    exact ⟨hfile, ⟨name, rfl, hname⟩, Nat.zero_lt_succ room⟩

theorem leadsToSource_cons (hwf : tree.WellFormed) {loc : Location} {room : Nat} {dir : String}
    {rest : List String} (hne : rest ≠ []) :
    LeadsToSource e tree loc (room + 1) (dir :: rest) ↔
      tree.get? (loc ++ [dir]) = some .directory
        ∧ LeadsToSource e tree (loc ++ [dir]) (room - dir.utf8ByteSize) rest := by
  have hplace : loc ++ dir :: rest = loc ++ [dir] ++ rest := by simp
  have hlast : (dir :: rest).getLast? = rest.getLast? := List.getLast?_cons_of_ne_nil hne
  have hbytes : Path.bytesOf (dir :: rest).dropLast
      = dir.utf8ByteSize + 1 + Path.bytesOf rest.dropLast := by
    rw [List.dropLast_cons_of_ne_nil hne, Path.bytesOf]
  constructor
  · rintro ⟨⟨bytes, hbytes'⟩, hname, hfits⟩
    rw [hplace] at hbytes'
    rw [hlast] at hname
    exact ⟨hwf.above hne hbytes', ⟨bytes, hbytes'⟩, hname, by omega⟩
  · rintro ⟨-, hfile, hname, hfits⟩
    exact ⟨hplace ▸ hfile, hlast ▸ hname, by omega⟩

/-- A subdirectory that there is room for is reached. -/
theorem lookup_join {room : Nat} {dir : Path} {loc : Location} (hwf : tree.WellFormed)
    (hdir : tree.lookup cwd dir = .ok (.found loc .directory)) (hroom : room + 1 ≤ dir.room)
    {name : String} (hname : tree.get? (loc ++ [name]) = some .directory)
    (hfits : name.utf8ByteSize < room) :
    tree.lookup cwd (dir.join ⟨.here, [name]⟩) = .ok (.found (loc ++ [name]) .directory) := by
  have hnext := dir.room_le_room_join name
  rw [Path.room_of_ne_nil (p := dir.join ⟨.here, [name]⟩) (by simp)] at hnext
  obtain ⟨hloc, hok⟩ := hwf.parent hname
  rw [FileTree.lookup, FileTree.holdsNul_join_of_lookup hdir hok, if_neg Bool.false_ne_true,
    if_neg (by omega)]
  exact (FileTree.followNames_append (FileTree.followNames_of_lookup hdir) name).trans
    (FileTree.followNames_singleton hloc (FileTree.isStep_of_isEntryName hok) hname)

/-- **The walk comes to the source files**, in the directories that there is room for. -/
theorem mem_namesBelow (hwf : tree.WellFormed) {room : Nat} {dir : Path} {loc : Location}
    (hdir : tree.lookup cwd dir = .ok (.found loc .directory)) (hroom : room ≤ dir.room)
    {names : List String} :
    names ∈ namesBelow e tree cwd room dir ↔ LeadsToSource e tree loc room names := by
  fun_induction namesBelow e tree cwd room dir generalizing loc names with
  | case1 => exact ⟨fun h => absurd h (by simp), fun h => absurd h.fits (Nat.not_lt_zero _)⟩
  | case2 room dir ih =>
    have hmem := FileTree.mem_listing hwf hdir
    -- Below a subdirectory there is nothing more if there is no room for it.
    have hbelow : ∀ {name rest}, tree.get? (loc ++ [name]) = some .directory →
        (rest ∈ namesBelow e tree cwd (room - name.utf8ByteSize) (dir.join ⟨.here, [name]⟩)
          ↔ LeadsToSource e tree (loc ++ [name]) (room - name.utf8ByteSize) rest) := by
      intro name rest hname
      by_cases hfits : name.utf8ByteSize < room
      · have hnext := dir.room_le_room_join name
        exact ih name (lookup_join hwf hdir hroom hname hfits) (by omega)
      · rw [Nat.sub_eq_zero_of_le (Nat.not_lt.1 hfits), namesBelow]
        exact ⟨fun h => absurd h (by simp), fun h => absurd h.fits (Nat.not_lt_zero _)⟩
    rw [List.mem_append, List.mem_map, List.mem_flatMap]
    constructor
    · rintro (⟨name, hname, rfl⟩ | ⟨name, hname, hnames⟩)
      · obtain ⟨hname, hadmits⟩ := List.mem_filter.1 hname
        exact leadsToSource_singleton.2 ⟨(hmem name).1.1 hname, hadmits⟩
      · obtain ⟨rest, hrest, rfl⟩ := List.mem_map.1 hnames
        have hdirectory := (hmem name).2.1 hname
        exact (leadsToSource_cons hwf (ne_nil_of_mem_namesBelow hrest)).2
          ⟨hdirectory, (hbelow hdirectory).1 hrest⟩
    · intro h
      obtain ⟨last, hlast, -⟩ := h.last
      cases names with
      | nil => exact absurd hlast (by simp)
      | cons name rest =>
        by_cases hne : rest = []
        · subst hne
          obtain ⟨hfile, hadmits⟩ := leadsToSource_singleton.1 h
          exact .inl ⟨name, List.mem_filter.2 ⟨(hmem name).1.2 hfile, hadmits⟩, rfl⟩
        · obtain ⟨hdirectory, hrest⟩ := (leadsToSource_cons hwf hne).1 h
          exact .inr ⟨name, (hmem name).2.2 hdirectory,
            List.mem_map_of_mem ((hbelow hdirectory).2 hrest)⟩

/-! ## The order of the entries -/

namespace FileTree

variable {entries : List (Location × Entry)}

theorem get?_perm (hwf : tree.WellFormed) (h : entries.Perm tree.entries) (loc : Location) :
    (FileTree.mk entries).get? loc = tree.get? loc := by
  by_cases hne : loc = []
  · rw [hne]
    rfl
  · have hnodup : (entries.map (·.1)).Nodup := (h.map _).nodup_iff.2 hwf.nodup
    refine Option.ext fun entry => ⟨fun hentry => ?_, fun hentry => ?_⟩
    · exact hwf.get?_of_mem hne (h.mem_iff.1 (mem_of_get? hne hentry))
    · rw [get?_of_ne_nil hne]
      exact lookup_of_mem hnodup (h.mem_iff.2 (mem_of_get? hne hentry))

theorem WellFormed.perm (hwf : tree.WellFormed) (h : entries.Perm tree.entries) :
    (FileTree.mk entries).WellFormed := by
  refine ⟨(h.map _).nodup_iff.2 hwf.nodup, fun entry hentry => ?_⟩
  rw [get?_perm hwf h]
  exact hwf.placed entry (h.mem_iff.1 hentry)

theorem alikeBut_perm {differ : Location → List UInt8 → List UInt8 → Prop} (hwf : tree.WellFormed)
    (h : entries.Perm tree.entries) : AlikeBut differ ⟨entries⟩ tree := by
  intro loc
  rw [get?_perm hwf h]
  cases tree.get? loc with
  | none => exact .none
  | some entry =>
    cases entry with
    | directory => exact .directory
    | file bytes => exact .file (.inl rfl)

/-- The walk sees no more of a tree than what is listed. -/
theorem AlikeBut.filesBelow {differ : Location → List UInt8 → List UInt8 → Prop}
    {tree₁ tree₂ : FileTree} (h : AlikeBut differ tree₁ tree₂) (hwf₁ : tree₁.WellFormed)
    (hwf₂ : tree₂.WellFormed) (room : Nat) (dir : Path) :
    RefPages.filesBelow e tree₁ cwd room dir = RefPages.filesBelow e tree₂ cwd room dir := by
  fun_induction RefPages.filesBelow e tree₁ cwd room dir with
  | case1 => rw [RefPages.filesBelow]
  | case2 room dir ih =>
    rw [RefPages.filesBelow, ← h.listing hwf₁ hwf₂]
    simp only [ih]

end FileTree

/-! ## The list of source files -/

theorem listedFiles_eq_filesBelow (e : Eligibility) (tree : FileTree) (cwd : Location)
    (root : Path) : listedFiles e tree cwd root = filesBelow e tree cwd root.room root := by
  rw [listedFiles]
  split
  · rfl
  · rename_i hnot
    refine (filesBelow_eq_nil (fun loc hloc => hnot ?_) _).symm
    rw [FileTree.isDirectory, hloc]

/-- The list of the source files, in whatever order the tree holds its entries. -/
theorem perform_sourceFiles_perm {root : Path} {w : Workspace} (hwf : w.tree.WellFormed)
    (hpath : root.toString.utf8ByteSize < 4096)
    (hnames : ∀ name ∈ root.names, name.utf8ByteSize ≤ 255) {entries : List (Location × Entry)}
    (hperm : entries.Perm w.tree.entries) :
    (sourceFiles e root).perform { w with tree := ⟨entries⟩ }
      = (.ok ((namesBelow e w.tree w.cwd root.room root).map fun names => root.join ⟨.here, names⟩),
        { w with tree := ⟨entries⟩ }) := by
  have hwf' : (FileTree.mk entries).WellFormed := hwf.perm hperm
  have halike : FileTree.AlikeBut (fun _ _ _ => False) ⟨entries⟩ w.tree :=
    FileTree.alikeBut_perm hwf hperm
  obtain ⟨isDir, hdir⟩ := FileTree.isDirectory_of_short ⟨entries⟩ w.cwd hpath hnames
  rw [perform_sourceFiles (w := { w with tree := ⟨entries⟩ }) hwf' hdir, listedFiles_eq_filesBelow,
    halike.filesBelow hwf' hwf, filesBelow_eq_map]

/-- **The source files below a directory.** If the path of the directory is not too long, the list
holds the path of every regular file below it that has the extension, is not excluded and is in a
directory that there is room for, once, and no other path; a tree holds regular files and
directories only. The files of a directory come first, in the order of their names, then those of
its subdirectories, one after the other in the order of their names. The order in which the tree
holds its entries changes nothing, and a path to no directory gives no files. -/
theorem sourceFiles_walked (e : Eligibility) {root : Path} {w : Workspace}
    (hwf : w.tree.WellFormed) (hpath : root.toString.utf8ByteSize < 4096)
    (hnames : ∀ name ∈ root.names, name.utf8ByteSize ≤ 255) :
    ∃ below : List (List String),
      (sourceFiles e root).perform w
          = (.ok (below.map fun names => root.join ⟨.here, names⟩), w)
        ∧ below.Pairwise WalkedBefore
        ∧ (below.map fun names => root.join ⟨.here, names⟩).Nodup
        ∧ (∀ loc, w.tree.lookup w.cwd root = .ok (.found loc .directory) →
          ∀ names, names ∈ below ↔ LeadsToSource e w.tree loc root.room names)
        ∧ ((∀ loc, w.tree.lookup w.cwd root ≠ .ok (.found loc .directory)) → below = [])
        ∧ ∀ entries, entries.Perm w.tree.entries →
          (sourceFiles e root).perform { w with tree := ⟨entries⟩ }
            = (.ok (below.map fun names => root.join ⟨.here, names⟩),
              { w with tree := ⟨entries⟩ }) := by
  have hpairwise : (namesBelow e w.tree w.cwd root.room root).Pairwise WalkedBefore :=
    pairwise_namesBelow hwf root.room root
  refine ⟨namesBelow e w.tree w.cwd root.room root,
    perform_sourceFiles_perm hwf hpath hnames (.refl _), hpairwise, nodup_map_join hpairwise root,
    fun loc hloc names => mem_namesBelow hwf hloc (Nat.le_refl _), fun hnone => ?_,
    fun entries hperm => perform_sourceFiles_perm hwf hpath hnames hperm⟩
  have hnil := filesBelow_eq_nil (e := e) hnone root.room
  rw [filesBelow_eq_map] at hnil
  exact List.map_eq_nil_iff.1 hnil

/-- Source files in two directories, with their entries in no order. -/
def scattered : Workspace where
  tree := ⟨[(["src"], .directory), (["src", "b.d"], .file []), (["src", "a"], .directory),
    (["src", "package.d"], .file []), (["src", "a", "c.d"], .file []), (["src", "Z.d"], .file []),
    (["src", "a.txt"], .file [])]⟩

/-- Both directories are walked, and neither the excluded file nor the one with another extension is
there. -/
theorem sourceFiles_walked_scattered :
    scattered.tree.WellFormed
      ∧ ∃ below : List (List String), (sourceFiles {} ⟨.here, ["src"]⟩).perform scattered
          = (.ok (below.map fun names => ⟨.here, "src" :: names⟩), scattered)
        ∧ below.Pairwise WalkedBefore
        ∧ ["b.d"] ∈ below ∧ ["Z.d"] ∈ below ∧ ["a", "c.d"] ∈ below
        ∧ ["package.d"] ∉ below ∧ ["a.txt"] ∉ below := by
  have hwf : scattered.tree.WellFormed := by decide
  obtain ⟨below, hlist, horder, -, hmem, -⟩ := @sourceFiles_walked {} ⟨.here, ["src"]⟩ _ hwf
    (by decide) (by decide)
  have hmem := hmem ["src"] rfl
  refine ⟨hwf, below, hlist, horder, (hmem _).2 ?_, (hmem _).2 ?_, (hmem _).2 ?_, fun h => ?_,
    fun h => ?_⟩
  · exact ⟨⟨[], rfl⟩, ⟨_, rfl, by decide, by decide⟩, by decide⟩
  · exact ⟨⟨[], rfl⟩, ⟨_, rfl, by decide, by decide⟩, by decide⟩
  · exact ⟨⟨[], rfl⟩, ⟨_, rfl, by decide, by decide⟩, by decide⟩
  · obtain ⟨-, ⟨name, ⟨⟩, -, hname⟩, -⟩ := (hmem _).1 h
    exact absurd hname (by decide)
  · obtain ⟨-, ⟨name, ⟨⟩, hname, -⟩, -⟩ := (hmem _).1 h
    exact absurd hname (by decide)

/-! ## No room -/

/-- A source file two directories deep. -/
def buried : Workspace where
  tree := ⟨[(["a"], .directory), (["a", "deep"], .directory), (["a", "deep", "x.d"], .file [])]⟩

/-- Into a directory, and a number of times back and into it again. -/
def winding (turns : Nat) : Path :=
  ⟨.here, "a" :: (List.replicate turns ["..", "a"]).flatten⟩

theorem utf8ByteSize_winding (turns : Nat) :
    (winding turns).toString.utf8ByteSize = 5 * turns + 1 := by
  have hnames : Path.bytesOf (List.replicate turns ["..", "a"]).flatten = 5 * turns := by
    induction turns with
    | zero => rfl
    | succ turns ih =>
      rw [List.replicate_succ, List.flatten_cons, Path.bytesOf_append, ih,
        show Path.bytesOf ["..", "a"] = 5 by decide]
      omega
  have hbytes : Path.bytesOf (winding turns).names = 5 * turns + 2 := by
    rw [winding, Path.bytesOf, hnames, show "a".utf8ByteSize = 1 by decide]
    omega
  have hsize := Path.utf8ByteSize_toString (p := winding turns) (List.cons_ne_nil _ _)
  rw [hbytes, show (Path.startText (winding turns).start).utf8ByteSize = 0 from rfl] at hsize
  omega

theorem eq_or_of_mem_winding {turns : Nat} {name : String} (h : name ∈ (winding turns).names) :
    name = "a" ∨ name = ".." := by
  rcases List.mem_cons.1 h with hname | hname
  · exact .inl hname
  · obtain ⟨pair, hpair, hname⟩ := List.mem_flatten.1 hname
    rw [List.eq_of_mem_replicate hpair] at hname
    simpa [or_comm] using hname

theorem followNames_winding (turns : Nat) :
    buried.tree.followNames [] (winding turns).names = .ok (.found ["a"] .directory) := by
  have hback : buried.tree.followNames ["a"] (List.replicate turns ["..", "a"]).flatten
      = .ok (.found ["a"] .directory) := by
    induction turns with
    | zero => rfl
    | succ turns ih =>
      rw [List.replicate_succ, List.flatten_cons, List.cons_append, FileTree.followNames_back rfl]
      exact (FileTree.followNames_down rfl (by decide) rfl _).trans ih
  exact (FileTree.followNames_down rfl (by decide) rfl _).trans hback

/-- **A file is missed where there is no room.** The path of the root is short enough and leads to a
directory with a source file below it, but the directory of that file is at the limit. -/
theorem sourceFiles_noRoom :
    buried.tree.WellFormed
      ∧ (winding 818).toString.utf8ByteSize < 4096
      ∧ (∀ name ∈ (winding 818).names, name.utf8ByteSize ≤ 255)
      ∧ buried.tree.lookup buried.cwd (winding 818) = .ok (.found ["a"] .directory)
      ∧ buried.tree.get? (["a"] ++ ["deep", "x.d"]) = some (.file [])
      ∧ ".d".toList <:+ "x.d".toList ∧ "x.d" ∉ ["package.d", "registry.d"]
      ∧ (sourceFiles ⟨".d", ["package.d", "registry.d"]⟩ (winding 818)).perform buried
        = (.ok [], buried) := by
  have hwf : buried.tree.WellFormed := by decide
  have hsize := utf8ByteSize_winding 818
  have hnames : ∀ name ∈ (winding 818).names, name.utf8ByteSize ≤ 255 := by
    intro name hname
    rcases eq_or_of_mem_winding hname with rfl | rfl <;> decide
  have hnul : (winding 818).holdsNul = false := by
    rw [Path.holdsNul, List.any_eq_false]
    intro name hname
    rcases eq_or_of_mem_winding hname with rfl | rfl <;> decide
  have hlookup : buried.tree.lookup buried.cwd (winding 818) = .ok (.found ["a"] .directory) := by
    rw [FileTree.lookup, hnul, if_neg Bool.false_ne_true, if_neg (by omega)]
    exact followNames_winding 818
  refine ⟨hwf, by omega, hnames, hlookup, rfl, by decide, by decide, ?_⟩
  rw [perform_sourceFiles_perm hwf (by omega) hnames (.refl _)]
  have hroom : (winding 818).room = 5 := by
    rw [Path.room_of_ne_nil (List.cons_ne_nil _ _), hsize]
  have hnil : namesBelow ⟨".d", ["package.d", "registry.d"]⟩ buried.tree buried.cwd
      (winding 818).room (winding 818) = [] := by
    rw [List.eq_nil_iff_forall_not_mem]
    intro names hmem
    obtain ⟨⟨bytes, hfile⟩, -, hfits⟩ := (mem_namesBelow hwf hlookup (Nat.le_refl _)).1 hmem
    have hentry := FileTree.mem_of_get? (by simp) hfile
    obtain ⟨rfl, -⟩ : names = ["deep", "x.d"] ∧ bytes = [] := by
      simpa [buried] using hentry
    rw [hroom] at hfits
    exact absurd hfits (by decide)
  rw [hnil]
  rfl

end RefPages
