import RefPages.Proofs.Action
import RefPages.Proofs.FileTree.Listing
import RefPages.Proofs.FileTree.Write

/-!
# Walking a tree that changes

The walk lists a directory when it reaches it, so what was written before can be seen in it. Yet as
long as nothing is written that has the name of a source file, the walk visits the files that were
there at the start, and no others.

* `filesBelow` are the source files below a directory of a tree that does not change.
* `SameSources` relates a tree to a later one in which directories and files have been added or
  written, but none under the name of a source file.
* `perform_walkBelow`: **the lazy walk visits the files of the first tree**, in their order, as long
  as every visit keeps `SameSources`.
* `perform_walk` is the same for the whole walk, and `perform_sourceFiles` its list of paths.
-/

set_option autoImplicit false
namespace RefPages

/-! ## Trees with the same source files -/

/-- Does a file of this name have the extension of source files? -/
def Eligibility.hasExtension (e : Eligibility) (name : String) : Bool :=
  e.extension.toList.isSuffixOf name.toList

/-- What was there at the start is still there, and what is new is not under the name of a source
file. -/
structure SameSources (e : Eligibility) (tree tree' : FileTree) : Prop where
  /-- The later tree is well-formed. -/
  wellFormed : tree'.WellFormed
  /-- No place is lost. -/
  grows : FileTree.Grows tree tree'
  /-- A source file is an old one, and as it was. -/
  source : ∀ {front name bytes}, e.hasExtension name = true →
    tree'.get? (front ++ [name]) = some (.file bytes) →
      tree.get? (front ++ [name]) = some (.file bytes)

namespace SameSources

theorem refl {tree : FileTree} (hwf : tree.WellFormed) (e : Eligibility) :
    SameSources e tree tree :=
  ⟨hwf, .refl tree, fun _ h => h⟩

variable {e : Eligibility} {tree tree' : FileTree}

/-- A directory is an old one, or was not there. -/
theorem directory (h : SameSources e tree tree') {loc : Location}
    (hloc : tree'.get? loc = some .directory) :
    tree.get? loc = some .directory ∨ tree.get? loc = none := by
  cases hold : tree.get? loc with
  | none => exact Or.inr rfl
  | some entry =>
    cases entry with
    | directory => exact Or.inl rfl
    | file bytes =>
      obtain ⟨bytes', hbytes'⟩ := h.grows.file hold
      rw [hloc] at hbytes'
      exact absurd hbytes' (by simp)

/-- The source files are the same. -/
theorem source_iff (h : SameSources e tree tree') {front : Location} {name : String}
    {bytes : List UInt8} (hname : e.hasExtension name = true) :
    tree'.get? (front ++ [name]) = some (.file bytes)
      ↔ tree.get? (front ++ [name]) = some (.file bytes) := by
  refine ⟨h.source hname, fun hold => ?_⟩
  obtain ⟨bytes', hbytes'⟩ := h.grows.file hold
  have hsame := h.source hname hbytes'
  rw [hold] at hsame
  rw [hbytes', ← hsame]

/-- A file that is not named like a source file may be written. -/
theorem writesFile {cwd : Location} {path : Path} {bytes : List UInt8} {tree'' : FileTree}
    (h : SameSources e tree tree') (hwrites : FileTree.WritesFile cwd path bytes tree' tree'')
    (hname : e.hasExtension path.name = false) : SameSources e tree tree'' := by
  refine ⟨hwrites.wellFormed, h.grows.trans hwrites.grows, fun hext hloc => ?_⟩
  rw [hwrites.get?] at hloc
  split at hloc
  · rename_i hplace
    obtain ⟨front, hfront⟩ := hwrites.place
    rw [hfront] at hplace
    obtain ⟨-, hlast⟩ := List.append_inj' hplace rfl
    rw [List.singleton_inj.1 hlast, hname] at hext
    exact absurd hext (by decide)
  · split at hloc
    · exact absurd hloc (by simp)
    · exact h.source hext hloc

/-! ## Listing a directory of the later tree -/

variable {cwd : Location} {dir : Path}

/-- A directory that a path led to at the start is where it leads later. -/
theorem lookup (h : SameSources e tree tree') {loc : Location}
    (hdir : tree.lookup cwd dir = .ok (.found loc .directory)) :
    tree'.lookup cwd dir = .ok (.found loc .directory) := by
  have hentry : tree'.get? loc = some .directory :=
    h.grows.directory (FileTree.locate_of_lookup hdir).2
  rw [FileTree.lookup_eq_followNames hdir]
  exact h.grows.followNames (FileTree.followNames_of_lookup hdir) hentry

end SameSources

/-- In all later trees the path leads to the directory that it led to at the start, or to one that
was not there. -/
def Steady (e : Eligibility) (tree : FileTree) (cwd : Location) (dir : Path) : Prop :=
  ∀ tree' loc, SameSources e tree tree' →
    tree'.followNames (if dir.isAbsolute then [] else cwd) dir.names = .ok (.found loc .directory) →
    tree.followNames (if dir.isAbsolute then [] else cwd) dir.names = .ok (.found loc .directory)
      ∨ tree.get? loc = none

theorem steady_of_lookup {e : Eligibility} {tree : FileTree} {cwd loc : Location} {dir : Path}
    (hdir : tree.lookup cwd dir = .ok (.found loc .directory)) : Steady e tree cwd dir := by
  intro tree' loc' h hfound
  have hsame := FileTree.followNames_of_lookup (h.lookup hdir)
  rw [hfound] at hsame
  cases hsame
  exact Or.inl (FileTree.followNames_of_lookup hdir)

/-- A name that is no step back keeps to the directories that were there or to new ones. -/
theorem Steady.child {e : Eligibility} {tree : FileTree} (hwf : tree.WellFormed) {cwd : Location}
    {dir : Path} (hdir : Steady e tree cwd dir) {name : String} (hname : name ≠ "..") :
    Steady e tree cwd (dir.join ⟨.here, [name]⟩) := by
  intro tree' loc' h hfound
  rw [Path.join_here] at hfound ⊢
  obtain ⟨mid, hmid, ⟨hback, -⟩ | ⟨hok, entry, hentry, htarget⟩ | ⟨-, -, htarget⟩⟩ :=
    FileTree.followNames_append_cases hfound
  · exact absurd hback hname
  · cases htarget
    rcases hdir tree' mid h hmid with hold | hnew
    · rcases h.directory hentry with hloc | hloc
      · left
        have hget : tree.get? mid = some .directory := (FileTree.follow_of_followNames hold).2
        exact (FileTree.followNames_append hold name).trans
          (FileTree.followNames_singleton hget hok hloc)
      · exact Or.inr hloc
    · right
      cases hloc : tree.get? (mid ++ [name]) with
      | none => rfl
      | some entry =>
        rw [(hwf.parent hloc).1] at hnew
        exact absurd hnew (by simp)
  · exact absurd htarget (by simp)

/-- What the listing of a later tree shows: the source files are the same, and the subdirectories
are the old ones and new ones. -/
structure SameListing (e : Eligibility) (old new : List String × List String) : Prop where
  /-- The source files are the same. -/
  files : new.1.filter e.admits = old.1.filter e.admits
  /-- The old subdirectories are left, in their order, when the new ones are taken away. -/
  directories : new.2.filter (· ∈ old.2) = old.2

theorem SameListing.flatMap {e : Eligibility} {old new : List String × List String}
    (h : SameListing e old new) {β : Type} {f : String → List β}
    (hf : ∀ name ∈ new.2, name ∉ old.2 → f name = []) : new.2.flatMap f = old.2.flatMap f := by
  have key : ∀ names : List String, (∀ name ∈ names, name ∉ old.2 → f name = []) →
      names.flatMap f = (names.filter (· ∈ old.2)).flatMap f := by
    intro names hnames
    induction names with
    | nil => rfl
    | cons name names ih =>
      have hnames := List.forall_mem_cons.1 hnames
      by_cases hmem : name ∈ old.2
      · rw [List.filter_cons_of_pos (by simpa using hmem), List.flatMap_cons, List.flatMap_cons,
          ih hnames.2]
      · rw [List.filter_cons_of_neg (by simpa using hmem), List.flatMap_cons, hnames.1 hmem,
          List.nil_append, ih hnames.2]
  rw [key new.2 hf, h.directories]

theorem sameListing {e : Eligibility} {tree tree' : FileTree} (hwf : tree.WellFormed)
    (h : SameSources e tree tree') {cwd : Location} {dir : Path} (hdir : Steady e tree cwd dir) :
    SameListing e (tree.listing cwd dir) (tree'.listing cwd dir) := by
  by_cases hfound : ∃ loc, tree'.lookup cwd dir = .ok (.found loc .directory)
  · obtain ⟨loc, hnew⟩ := hfound
    have hmem' := FileTree.mem_listing h.wellFormed hnew
    have horder' := FileTree.inOrder_listing h.wellFormed cwd dir
    have horder := FileTree.inOrder_listing hwf cwd dir
    rcases hdir tree' loc h (FileTree.followNames_of_lookup hnew) with hold | hnone
    · have hold : tree.lookup cwd dir = .ok (.found loc .directory) := by
        rw [FileTree.lookup_eq_followNames hnew, hold]
      have hmem := FileTree.mem_listing hwf hold
      constructor
      · refine (horder'.1.filter _).ext (horder.1.filter _) fun name => ?_
        rw [List.mem_filter, List.mem_filter, (hmem' name).1, (hmem name).1]
        refine and_congr_left fun hadmits => ?_
        rw [Eligibility.admits, Bool.and_eq_true] at hadmits
        exact exists_congr fun bytes => h.source_iff hadmits.1
      · refine (horder'.2.filter _).ext horder.2 fun name => ?_
        rw [List.mem_filter, decide_eq_true_eq, and_iff_right_iff_imp, (hmem' name).2,
          (hmem name).2]
        exact h.grows.directory
    · -- A new directory holds no source files.
      have hnil : tree.listing cwd dir = ([], []) := by
        refine FileTree.listing_eq_nil fun loc' hloc' => ?_
        have hsame := h.lookup hloc'
        rw [hnew] at hsame
        cases hsame
        have hget : tree.get? loc = some .directory := (FileTree.locate_of_lookup hloc').2
        rw [hget] at hnone
        exact absurd hnone (by simp)
      rw [hnil]
      constructor
      · rw [List.filter_nil, List.filter_eq_nil_iff]
        intro name hname hadmits
        obtain ⟨bytes, hbytes⟩ := (hmem' name).1.1 hname
        rw [Eligibility.admits, Bool.and_eq_true] at hadmits
        rw [(hwf.parent (h.source hadmits.1 hbytes)).1] at hnone
        exact absurd hnone (by simp)
      · simp
  · -- Where there is no directory now, there was none before.
    rw [FileTree.listing_eq_nil fun loc hloc => hfound ⟨loc, hloc⟩,
      FileTree.listing_eq_nil fun loc hloc => hfound ⟨loc, h.lookup hloc⟩]
    exact ⟨rfl, rfl⟩

/-! ## The walk -/

/-- The source files below a directory of a tree that does not change. -/
def filesBelow (e : Eligibility) (tree : FileTree) (cwd : Location) :
    (room : Nat) → (dir : Path) → List Path
  | 0, _ => []
  | room + 1, dir =>
    ((tree.listing cwd dir).1.filter e.admits).map (fun name => dir.join ⟨.here, [name]⟩)
      ++ (tree.listing cwd dir).2.flatMap fun name =>
        filesBelow e tree cwd (room - name.utf8ByteSize) (dir.join ⟨.here, [name]⟩)
termination_by room => room
decreasing_by omega

theorem foldlM_flatMap {α β γ : Type} {f : β → α → Action β} (g : γ → List α) (xs : List γ)
    (b : β) :
    (xs.flatMap g).foldlM f b = xs.foldlM (fun b x => (g x).foldlM f b) b := by
  induction xs generalizing b with
  | nil => rfl
  | cons x xs ih =>
    rw [List.flatMap_cons, List.foldlM_append, List.foldlM_cons]
    exact congrArg _ (funext fun b => ih b)

/-- Below a path that leads to no directory there are no files. -/
theorem filesBelow_eq_nil {e : Eligibility} {tree : FileTree} {cwd : Location} {dir : Path}
    (h : ∀ loc, tree.lookup cwd dir ≠ .ok (.found loc .directory)) (room : Nat) :
    filesBelow e tree cwd room dir = [] := by
  cases room with
  | zero => rw [filesBelow]
  | succ room =>
    rw [filesBelow, FileTree.listing_eq_nil h]
    rfl

/-- The subdirectories of a later tree that were not there have no files at the start. -/
theorem flatMap_filesBelow {e : Eligibility} {tree tree' : FileTree} (hwf : tree.WellFormed)
    (h : SameSources e tree tree') {cwd : Location} {dir : Path} (hdir : Steady e tree cwd dir)
    (room : String → Nat) :
    (tree'.listing cwd dir).2.flatMap
        (fun name => filesBelow e tree cwd (room name) (dir.join ⟨.here, [name]⟩)) =
      (tree.listing cwd dir).2.flatMap
        (fun name => filesBelow e tree cwd (room name) (dir.join ⟨.here, [name]⟩)) := by
  refine (sameListing hwf h hdir).flatMap fun name hname hnot => ?_
  refine filesBelow_eq_nil (fun loc' hloc' => hnot ?_) _
  obtain ⟨loc, hnew⟩ := FileTree.exists_of_mem_listing (Or.inr hname)
  have hok : FileTree.isEntryName name = true :=
    (h.wellFormed.parent ((FileTree.mem_listing h.wellFormed hnew name).2.1 hname)).2
  obtain ⟨mid, hmid, ⟨hback, -⟩ | ⟨-, entry, hentry, htarget⟩ | ⟨-, -, htarget⟩⟩ :=
    FileTree.followNames_append_cases (FileTree.followNames_of_lookup hloc')
  · exact absurd hback (FileTree.ne_of_isEntryName hok)
  · cases htarget
    have hold : tree.lookup cwd dir = .ok (.found mid .directory) := by
      rw [FileTree.lookup_eq_followNames hnew]
      exact hmid
    exact (FileTree.mem_listing hwf hold name).2.2 hentry
  · exact absurd htarget (by simp)

variable {α : Type} {e : Eligibility} {tree : FileTree} {cwd : Location} {I : Workspace → Prop}
  {visit : α → Path → Action α}

/-- **The lazy walk visits the files of the first tree.** The invariant `I` says that the source
files are still the same, and every visit keeps it. -/
theorem perform_walkBelow (hwf : tree.WellFormed)
    (hI : ∀ w, I w → SameSources e tree w.tree ∧ w.cwd = cwd) (room : Nat) {dir : Path}
    (hdir : Steady e tree cwd dir)
    (hvisit : ∀ path ∈ filesBelow e tree cwd room dir, ∀ a w a' w', I w →
      (visit a path).perform w = (.ok a', w') → I w')
    (a : α) {w : Workspace} (hw : I w) :
    (walkBelow e visit room dir a).perform w =
      ((filesBelow e tree cwd room dir).foldlM visit a).perform w := by
  match room with
  | 0 =>
    rw [walkBelow, filesBelow]
    rfl
  | room + 1 =>
    obtain ⟨hsame, hcwd⟩ := hI w hw
    have hnames : ∀ name ∈ (w.tree.listing cwd dir).2, name ≠ ".." := by
      intro name hname
      obtain ⟨loc, hnew⟩ := FileTree.exists_of_mem_listing (Or.inr hname)
      have hentry := (FileTree.mem_listing hsame.wellFormed hnew name).2.1 hname
      exact FileTree.ne_of_isEntryName (hsame.wellFormed.parent hentry).2
    -- What is seen now leads to the files that were there at the start.
    have hflat := flatMap_filesBelow hwf hsame hdir fun name => room - name.utf8ByteSize
    rw [filesBelow, ← hflat, ← (sameListing hwf hsame hdir).files] at hvisit ⊢
    rw [walkBelow, Action.perform_bind_ok (Action.perform_look _ w), List.foldlM_append, hcwd]
    generalize w.tree.listing cwd dir = seen at hnames hvisit ⊢
    obtain ⟨files, directories⟩ := seen
    simp only [List.foldlM_map] at hnames hvisit ⊢
    have hfiles : ∀ name ∈ files.filter e.admits, ∀ a w a' w', I w →
        (visit a (dir.join ⟨.here, [name]⟩)).perform w = (.ok a', w') → I w' := fun name hname =>
      hvisit _ (List.mem_append_left _ (List.mem_map_of_mem hname))
    rcases h1 : ((files.filter e.admits).foldlM
      (fun a name => visit a (dir.join ⟨.here, [name]⟩)) a).perform w with ⟨fault | a1, w1⟩
    · rw [Action.perform_bind_error h1, Action.perform_bind_error h1]
    · rw [Action.perform_bind_ok h1, Action.perform_bind_ok h1]
      have hw1 : I w1 := Action.perform_foldlM_inv hfiles hw h1
      have hbelow : ∀ name ∈ directories, ∀ path ∈ filesBelow e tree cwd (room - name.utf8ByteSize)
          (dir.join ⟨.here, [name]⟩), ∀ a w a' w', I w →
          (visit a path).perform w = (.ok a', w') → I w' := fun name hname path hpath =>
        hvisit path (List.mem_append_right _ (List.mem_flatMap.2 ⟨name, hname, hpath⟩))
      have hrec : ∀ name ∈ directories, ∀ a w, I w →
          (walkBelow e visit (room - name.utf8ByteSize) (dir.join ⟨.here, [name]⟩) a).perform w =
            ((filesBelow e tree cwd (room - name.utf8ByteSize)
              (dir.join ⟨.here, [name]⟩)).foldlM visit a).perform w := fun name hname a w hw =>
        perform_walkBelow hwf hI (room - name.utf8ByteSize) (hdir.child hwf (hnames name hname))
          (hbelow name hname) a hw
      rw [foldlM_flatMap]
      refine Action.perform_foldlM_congr (fun name hname a w a' w' hw h => ?_) hrec a1 hw1
      rw [hrec name hname a w hw] at h
      exact Action.perform_foldlM_inv (hbelow name hname) hw h
termination_by room
decreasing_by omega

/-- The source files below a directory of a tree that does not change; a path to none has none. -/
def listedFiles (e : Eligibility) (tree : FileTree) (cwd : Location) (root : Path) : List Path :=
  match tree.isDirectory cwd root with
  | .ok true => filesBelow e tree cwd root.room root
  | _ => []

theorem exists_of_isDirectory {root : Path} (h : tree.isDirectory cwd root = .ok true) :
    ∃ loc, tree.lookup cwd root = .ok (.found loc .directory) := by
  rw [FileTree.isDirectory] at h
  split at h
  · rename_i loc hdir
    exact ⟨loc, hdir⟩
  all_goals exact absurd h (by simp)

/-- **The walk visits the files of the first tree**, unless the path of its root is too long. -/
theorem perform_walk {w : Workspace} (hwf : w.tree.WellFormed) {root : Path}
    (hI : ∀ w', I w' → SameSources e w.tree w'.tree ∧ w'.cwd = w.cwd)
    (hvisit : ∀ path ∈ listedFiles e w.tree w.cwd root, ∀ a w a' w', I w →
      (visit a path).perform w = (.ok a', w') → I w')
    (a : α) (hw : I w) :
    (walk e visit root a).perform w =
      match w.tree.isDirectory w.cwd root with
      | .ok _ => ((listedFiles e w.tree w.cwd root).foldlM visit a).perform w
      | .error fault => (.error (Fault.file fault), w) := by
  rw [walk, Action.perform_bind_ok (Action.perform_get w),
    Action.perform_bind_ok (Action.perform_get w)]
  rcases hdir : w.tree.isDirectory w.cwd root with fault | isDir
  · exact Action.perform_bind_error (Action.perform_lift _ w)
  · have hlift : (Action.lift (Except.mapError Fault.file (.ok isDir))).perform w
        = (.ok isDir, w) := Action.perform_lift _ w
    rw [Action.perform_bind_ok hlift]
    cases isDir with
    | false =>
      rw [listedFiles, hdir]
      rfl
    | true =>
      obtain ⟨loc, hloc⟩ := exists_of_isDirectory hdir
      rw [listedFiles, hdir] at hvisit ⊢
      exact perform_walkBelow hwf hI _ (steady_of_lookup hloc) hvisit a hw

/-- The list of the source files. -/
theorem perform_sourceFiles {w : Workspace} (hwf : w.tree.WellFormed) {root : Path}
    {isDir : Bool} (hdir : w.tree.isDirectory w.cwd root = .ok isDir) :
    (sourceFiles e root).perform w = (.ok (listedFiles e w.tree w.cwd root), w) := by
  rw [sourceFiles, perform_walk (I := (· = w)) hwf ?_ ?_ [] rfl, hdir]
  · have key : ∀ (files front : List Path), (files.foldlM
        (fun paths path => (pure (paths ++ [path]) : Action (List Path))) front).perform w
          = (.ok (front ++ files), w) := by
      intro files
      induction files with
      | nil => intro front; rw [List.append_nil]; rfl
      | cons path files ih =>
        intro front
        rw [List.foldlM_cons, Action.perform_bind_ok (Action.perform_pure _ w), ih,
          List.append_assoc]
        rfl
    exact key _ []
  · rintro w' rfl
    exact ⟨.refl hwf e, rfl⟩
  · rintro path - a w1 a' w' rfl h
    cases h
    rfl

/-! ## The files that are listed -/

/-- The path leads to a source file: its last name is admitted, and it is in a directory that the
rest of the path leads to. -/
structure IsSource (e : Eligibility) (tree : FileTree) (cwd : Location) (path : Path)
    (bytes : List UInt8) : Prop where
  /-- The last name is admitted. -/
  admits : e.admits path.name = true
  /-- The path leads to a file, at least if it is not too long. -/
  found : tree.followNames (if path.isAbsolute then [] else cwd) path.names
    = .ok (.found (path.locate cwd) (.file bytes))
  /-- The path does not hold NUL. -/
  noNul : path.holdsNul = false
  /-- The file has the last name of the path. -/
  place : ∃ front, path.locate cwd = front ++ [path.name]

theorem exists_isSource_of_mem_filesBelow (hwf : tree.WellFormed) {room : Nat} {dir path : Path}
    (h : path ∈ filesBelow e tree cwd room dir) : ∃ bytes, IsSource e tree cwd path bytes := by
  match room with
  | 0 =>
    rw [filesBelow] at h
    exact absurd h (by simp)
  | room + 1 =>
    rw [filesBelow, List.mem_append, List.mem_map, List.mem_flatMap] at h
    rcases h with ⟨name, hname, rfl⟩ | ⟨name, hname, h⟩
    · obtain ⟨hname, hadmits⟩ := List.mem_filter.1 hname
      obtain ⟨loc, hdir⟩ := FileTree.exists_of_mem_listing (Or.inl hname)
      obtain ⟨bytes, hbytes⟩ := (FileTree.mem_listing hwf hdir name).1.1 hname
      have hfollow := FileTree.followNames_of_lookup hdir
      obtain ⟨hget, hok⟩ := hwf.parent hbytes
      have hlocate : (dir.join ⟨.here, [name]⟩).locate cwd = loc ++ [name] := by
        have hloc : loc = dir.locate cwd := (FileTree.locate_of_lookup hdir).1
        rw [hloc, Path.locate, Path.join_here, Path.follow_append, Path.follow,
          if_neg (FileTree.ne_of_isEntryName hok)]
        rfl
      have hlast : (dir.join ⟨.here, [name]⟩).name = name := by
        simp [Path.name]
      refine ⟨bytes, by rw [hlast]; exact hadmits, ?_, FileTree.holdsNul_join_of_lookup hdir hok,
        loc, by rw [hlocate, hlast]⟩
      rw [hlocate]
      exact (FileTree.followNames_append hfollow name).trans
        (FileTree.followNames_singleton hget (FileTree.isStep_of_isEntryName hok) hbytes)
    · exact exists_isSource_of_mem_filesBelow hwf h
termination_by room
decreasing_by omega

theorem exists_isSource_of_mem_listedFiles (hwf : tree.WellFormed) {root path : Path}
    (h : path ∈ listedFiles e tree cwd root) : ∃ bytes, IsSource e tree cwd path bytes := by
  rw [listedFiles] at h
  split at h
  · exact exists_isSource_of_mem_filesBelow hwf h
  · exact absurd h (by simp)

/-- A source file can be read unless its path is too long. -/
theorem IsSource.contents {path : Path} {bytes : List UInt8} (h : IsSource e tree cwd path bytes) :
    tree.contents cwd path =
      if 4096 ≤ path.toString.utf8ByteSize then .error ⟨.nameTooLong, path⟩ else .ok bytes := by
  rw [FileTree.contents, FileTree.lookup, h.noNul, if_neg Bool.false_ne_true, h.found]
  split
  · rename_i hlookup
    split at hlookup
    · exact absurd hlookup (by simp)
    · cases hlookup
      rw [if_neg ‹_›]
  · rename_i hlookup
    split at hlookup <;> exact absurd hlookup (by simp)
  · rename_i hlookup
    split at hlookup <;> exact absurd hlookup (by simp)
  · rename_i hlookup
    split at hlookup
    · cases hlookup
      rw [if_pos ‹_›]
    · exact absurd hlookup (by simp)

/-- A source file is the same in every later tree. -/
theorem IsSource.later {tree' : FileTree} {path : Path} {bytes : List UInt8}
    (h : IsSource e tree cwd path bytes) (hsame : SameSources e tree tree') :
    IsSource e tree' cwd path bytes := by
  obtain ⟨front, hplace⟩ := h.place
  have hext : e.hasExtension path.name = true := by
    have hadmits := h.admits
    rw [Eligibility.admits, Bool.and_eq_true] at hadmits
    exact hadmits.1
  have hget : tree.get? (path.locate cwd) = some (.file bytes) :=
    (FileTree.follow_of_followNames h.found).2
  refine ⟨h.admits, hsame.grows.followNames h.found ?_, h.noNul, h.place⟩
  rw [hplace] at hget ⊢
  exact (hsame.source_iff hext).2 hget

/-- A listed file is read the same in every later tree. -/
theorem SameSources.readText {tree' : FileTree} (hwf : tree.WellFormed)
    (hsame : SameSources e tree tree') {root path : Path}
    (h : path ∈ listedFiles e tree cwd root) :
    tree'.readText cwd path = tree.readText cwd path := by
  obtain ⟨bytes, hsource⟩ := exists_isSource_of_mem_listedFiles hwf h
  rw [FileTree.readText, FileTree.readText, hsource.contents, (hsource.later hsame).contents]

end RefPages
