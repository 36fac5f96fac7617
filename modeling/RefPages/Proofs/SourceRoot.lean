import RefPages.Proofs.FileTree.Absolute
import RefPages.Proofs.Lockstep
import RefPages.Proofs.Rendering

/-!
# Spellings of the source root

The source root may be spelled from the working directory or from the root. A run visits the same
files in the same order either way and writes the same pages to the same places. Only the messages
show the spelling.

* `Generator.Respelled` says when: the categories do not depend on the working directory, the source
  files are the same in both workspaces, and no path below the source root is too long.
* `Generator.lockstep_extract` and `Generator.lockstep_visit` are about one source file: its
  document is the same but for the path.
* `Generator.lockstep_walkBelow` carries this through the walk. The two walks count down from
  different lengths, and neither reaches its limit.
* `Generator.lockstep_run` is the result for a run.
-/

set_option autoImplicit false
namespace RefPages

open Text

namespace Generator

variable {c : Common} {g : Generator} {root names : List String}

/-- What lets a run take its source root by a path from the working directory or by the one from the
root, with the same result. -/
structure Respelled (c : Common) (g : Generator) (root : List String) : Prop where
  /-- The anchor is a name. -/
  anchor : g.categories.anchor ≠ "/"
  /-- The anchor is not on the way to the working directory. -/
  cwd : g.categories.anchor ∉ c.cwd
  /-- Source files do not differ. -/
  sources : ∀ {below name b₁ b₂}, g.eligible.admits name = true →
    ¬ c.differ ((Path.mk .here root).locate c.cwd ++ (below ++ [name])) b₁ b₂
  /-- The path of the source root is not too long. -/
  short : (Path.mk .root (c.cwd ++ root)).toString.utf8ByteSize < 4096
  /-- Nor are the paths of what is below it in the end. -/
  fits : ∀ below, (c.last.get? ((Path.mk .here root).locate c.cwd ++ below)).isSome = true →
    (Path.mk .root (c.cwd ++ root)).reach below < 4096

/-! ## Reading a source file -/

theorem findFacts_elsewhere {p q : Path} (h : p.stem = q.stem) (text : String)
    (extractors : List Extractor) :
    findFacts ⟨p, text⟩ extractors = findFacts ⟨q, text⟩ extractors := by
  induction extractors with
  | nil => rfl
  | cons extractor rest ih =>
    rw [findFacts, findFacts, ih, Extractor.facts_elsewhere h, SourceFile.name, SourceFile.name, h]

theorem lockstep_findFacts (file : SourceFile) (extractors : List Extractor) :
    Action.Lockstep c Eq (findFacts file extractors) (findFacts file extractors) := by
  induction extractors with
  | nil => exact Action.lockstep_pure rfl
  | cons extractor rest ih =>
    have hmore : Action.Lockstep c Eq
        (do
          let more ← findFacts file rest
          pure (extractor.facts file ++ more))
        (do
          let more ← findFacts file rest
          pure (extractor.facts file ++ more)) :=
      ih.and_then (expands_findFacts file rest) (fun _ => Action.expands_pure _)
        fun _ => Action.lockstep_pure rfl
    rw [findFacts]
    simp only
    split
    · exact hmore.after_say
        ((expands_findFacts file rest).bind fun _ => Action.expands_pure _) _ _ _ _
    · exact hmore

/-- Both spellings of a path give the same text, or faults. -/
theorem sameEnd_readText {tree : FileTree} (hwf : tree.WellFormed) {cwd : Location}
    (hwd : tree.get? cwd = some .directory)
    (hshort : (Path.mk .root (cwd ++ names)).toString.utf8ByteSize < 4096) :
    Action.SameEnd Eq ((tree.readText cwd ⟨.here, names⟩).mapError Fault.read)
      ((tree.readText cwd ⟨.root, cwd ++ names⟩).mapError Fault.read) := by
  rw [FileTree.readText, FileTree.readText, FileTree.contents, FileTree.contents,
    FileTree.lookup_absolute hwf hwd hshort]
  rcases tree.lookup cwd ⟨.here, names⟩ with cause | ⟨loc, bytes | _⟩ | loc
  · exact .error rfl
  · exact .refl _
  · exact .error rfl
  · exact .error rfl

/-- Both spellings of a path lead to a directory, or neither does, or both give faults. -/
theorem sameEnd_isDirectory {tree : FileTree} (hwf : tree.WellFormed) {cwd : Location}
    (hwd : tree.get? cwd = some .directory)
    (hshort : (Path.mk .root (cwd ++ names)).toString.utf8ByteSize < 4096) :
    Action.SameEnd Eq ((tree.isDirectory cwd ⟨.here, names⟩).mapError Fault.file)
      ((tree.isDirectory cwd ⟨.root, cwd ++ names⟩).mapError Fault.file) := by
  rw [FileTree.isDirectory, FileTree.isDirectory, FileTree.lookup_absolute hwf hwd hshort]
  rcases tree.lookup cwd ⟨.here, names⟩ with cause | ⟨loc, bytes | _⟩ | loc
  · cases cause with
    | nameTooLong => exact .error rfl
    | _ => exact .refl _
  · exact .refl _
  · exact .refl _
  · exact .refl _

/-- Reading a source file by either spelling gives the same document, but for its path. -/
theorem lockstep_extract (h : Respelled c g root) (hne : names ≠ [])
    (hadmits : ∀ b₁ b₂, ¬ c.differ ((Path.mk .here names).locate c.cwd) b₁ b₂)
    (hshort : (Path.mk .root (c.cwd ++ names)).toString.utf8ByteSize < 4096) :
    Action.Lockstep c (fun doc? doc?' => doc?' = doc?.map fun doc =>
        { doc with path := ⟨.root, c.cwd ++ names⟩ })
      (g.extract ⟨.here, names⟩) (g.extract ⟨.root, c.cwd ++ names⟩) := by
  have hrest : ∀ text, (do
      let facts ← findFacts ⟨⟨.here, names⟩, text⟩ g.extractors
      Action.lift ((Document.ofFacts? g.categories ⟨.here, names⟩ facts).mapError Fault.value)
        : Action (Option Document)).Expands := fun text =>
    (expands_findFacts _ _).bind fun _ => Action.expands_lift _
  rw [extract, extract]
  refine Action.lockstep_get.bind Action.expands_get
    (fun w => Action.expands_get.bind fun w' => (Action.expands_lift _).bind hrest) ?_
  rintro w₁ w₂ ⟨halike, -⟩
  refine Action.lockstep_get.bind Action.expands_get
    (fun w' => (Action.expands_lift _).bind hrest) ?_
  rintro w₁' w₂' ⟨halike', -⟩
  have hread := sameEnd_readText halike.wellFormed₂
    ((halike.tree.directory_iff c.cwd).1 halike.directory) hshort
  rw [halike'.cwd₁, halike'.cwd₂]
  have hsame : w₁.tree.readText c.cwd ⟨.here, names⟩ = w₂.tree.readText c.cwd ⟨.here, names⟩ := by
    rw [FileTree.readText, FileTree.readText, halike.tree.contents hadmits]
  rw [hsame]
  refine (Action.lockstep_lift hread).and_then (Action.expands_lift _) hrest fun text => ?_
  have hstem := Path.stem_absolute c.cwd hne
  rw [findFacts_elsewhere hstem]
  refine (lockstep_findFacts _ _).and_then (expands_findFacts _ _) (fun _ => Action.expands_lift _)
    fun facts => Action.lockstep_lift ?_
  rw [Document.ofFacts?_elsewhere hstem.symm g.categories g.categories,
    CategoryMap.categoryOf_absolute h.anchor h.cwd]
  cases hdoc : Document.ofFacts? g.categories ⟨.here, names⟩ facts with
  | error fault => exact .error rfl
  | ok doc? =>
    refine .ok ?_
    cases doc? with
    | none => rfl
    | some doc =>
      obtain rfl := Document.eq_ofKinds_of_ofFacts? hdoc
      rfl

/-! ## Visits -/

theorem lockstep_generate (outputRoot : Path) (dryRun : Bool) (tally : Tally) (doc : Document) :
    Action.Lockstep c Eq (g.generate outputRoot dryRun tally doc)
      (g.generate outputRoot dryRun tally doc) := by
  rw [generate]
  have hend : Action.Lockstep c Eq
      (do
        Action.say "pipeline" 10 ("Generated " ++ (g.outputPath outputRoot doc).toString)
        return tally.withPage (g.outputPath outputRoot doc))
      (do
        Action.say "pipeline" 10 ("Generated " ++ (g.outputPath outputRoot doc).toString)
        return tally.withPage (g.outputPath outputRoot doc)) :=
    (Action.lockstep_pure rfl).after_say (Action.expands_pure _) _ _ _ _
  have hends : (do
      Action.say "pipeline" 10 ("Generated " ++ (g.outputPath outputRoot doc).toString)
      return tally.withPage (g.outputPath outputRoot doc) : Action Tally).Expands :=
    (Action.expands_say _ _ _).bind fun _ => Action.expands_pure _
  simp only
  split
  · have hputs := (Action.expands_put (g.outputPath outputRoot doc) (utf8Encode doc.page)).bind
      fun _ => hends
    refine Action.Lockstep.after_say ?_
      ((Action.expands_makeDirectories _).bind fun _ => hputs) _ _ _ _
    refine (Action.lockstep_makeDirectories _).and_then (Action.expands_makeDirectories _)
      (fun _ => hputs) fun _ => ?_
    exact (Action.lockstep_put _ _).and_then (Action.expands_put _ _) (fun _ => hends) fun _ => hend
  · exact (Action.lockstep_pure rfl).after_say (Action.expands_pure _) _ _ _ _

/-- Visiting a source file by either spelling does the same. -/
theorem lockstep_visit (h : Respelled c g root) (hne : names ≠ [])
    (hadmits : ∀ b₁ b₂, ¬ c.differ ((Path.mk .here names).locate c.cwd) b₁ b₂)
    (hshort : (Path.mk .root (c.cwd ++ names)).toString.utf8ByteSize < 4096) (outputRoot : Path)
    (dryRun : Bool) (tally : Tally) :
    Action.Lockstep c Eq (g.visit outputRoot dryRun tally ⟨.here, names⟩)
      (g.visit outputRoot dryRun tally ⟨.root, c.cwd ++ names⟩) := by
  rw [visit, visit]
  refine (lockstep_extract h hne hadmits hshort).attempt.bind (expands_extract g _).attempt
    (fun result => ?_) ?_
  · split
    · exact (Action.expands_say _ _ _).bind fun _ => Action.expands_pure _
    · exact (Action.expands_say _ _ _).bind fun _ => Action.expands_pure _
    · exact expands_generate g outputRoot dryRun _ _
  · intro result result' hend
    cases hend with
    | error hnul =>
      exact (Action.lockstep_pure rfl).after_say (Action.expands_pure _) _ _ _ _
    | ok hdoc =>
      rename_i doc? doc?'
      subst hdoc
      cases doc? with
      | none => exact (Action.lockstep_pure rfl).after_say (Action.expands_pure _) _ _ _ _
      | some doc => exact lockstep_generate outputRoot dryRun _ doc

/-! ## Walks -/

/-- What is listed below the source root is within the limit, and has the place that its path
names. -/
theorem Respelled.listed (h : Respelled c g root) {tree : FileTree} (hwf : tree.WellFormed)
    (hlast : tree.Grows c.last) {below : List String}
    (hplace : (Path.mk .here (root ++ below)).locate c.cwd
      = (Path.mk .here root).locate c.cwd ++ below) {name : String}
    (hname : name ∈ (tree.listing c.cwd ⟨.here, root ++ below⟩).1
      ∨ name ∈ (tree.listing c.cwd ⟨.here, root ++ below⟩).2) :
    (Path.mk .here (root ++ (below ++ [name]))).locate c.cwd
        = (Path.mk .here root).locate c.cwd ++ (below ++ [name])
      ∧ (Path.mk .root (c.cwd ++ root)).reach (below ++ [name]) < 4096 := by
  obtain ⟨loc, hdir⟩ := FileTree.exists_of_mem_listing hname
  have hloc : loc = (Path.mk .here root).locate c.cwd ++ below :=
    (FileTree.locate_of_lookup hdir).1.trans hplace
  have hstep : (Path.mk .here (root ++ (below ++ [name]))).locate c.cwd
      = (Path.mk .here root).locate c.cwd ++ (below ++ [name]) := by
    have hback := FileTree.ne_of_isEntryName (FileTree.isEntryName_of_mem_listing hwf hname)
    have hfollow : (Path.mk .here (root ++ (below ++ [name]))).locate c.cwd
        = Path.follow ((Path.mk .here (root ++ below)).locate c.cwd) [name] := by
      rw [← List.append_assoc, Path.locate, Path.follow_append]
      rfl
    rw [hfollow, hplace, Path.follow, if_neg hback, Path.follow, List.append_assoc]
  refine ⟨hstep, h.fits _ ?_⟩
  have hsome : (tree.get? (loc ++ [name])).isSome = true := by
    rcases hname with hname | hname
    · obtain ⟨bytes, hbytes⟩ := (FileTree.mem_listing hwf hdir name).1.1 hname
      rw [hbytes]
      rfl
    · rw [(FileTree.mem_listing hwf hdir name).2.1 hname]
      rfl
  rw [hloc, List.append_assoc] at hsome
  exact hlast.isSome hsome

/-- The walk below the source root, by either spelling, visits the same files. -/
theorem lockstep_walkBelow (h : Respelled c g root) (outputRoot : Path) (dryRun : Bool)
    (below : List String) {room₁ room₂ : Nat} (hplace : (Path.mk .here (root ++ below)).locate c.cwd
      = (Path.mk .here root).locate c.cwd ++ below)
    (hroom₁ : 4096 ≤ room₁ + (Path.mk .here root).reach below)
    (hroom₂ : 4096 ≤ room₂ + (Path.mk .root (c.cwd ++ root)).reach below)
    (hfits : (Path.mk .root (c.cwd ++ root)).reach below < 4096) (tally : Tally) :
    Action.Lockstep c Eq
      (walkBelow g.eligible (g.visit outputRoot dryRun) room₁ ⟨.here, root ++ below⟩ tally)
      (walkBelow g.eligible (g.visit outputRoot dryRun) room₂ ⟨.root, c.cwd ++ (root ++ below)⟩
        tally) := by
  have hreach := Path.reach_here_le c.cwd root below
  have hshort := Path.utf8ByteSize_root_le (c.cwd ++ root) below
  obtain ⟨room₁, rfl⟩ := Nat.exists_eq_add_one_of_ne_zero (n := room₁) (by omega)
  obtain ⟨room₂, rfl⟩ := Nat.exists_eq_add_one_of_ne_zero (n := room₂) (by omega)
  rw [walkBelow, walkBelow]
  refine (Action.lockstep_look _ _).bind (Action.expands_of_tree fun _ => ⟨rfl, rfl⟩)
    (fun listed => ?_) ?_
  · refine (Action.Expands.foldlM (fun tally _ => expands_visit g outputRoot dryRun tally _) _).bind
      fun tally => ?_
    exact Action.Expands.foldlM
      (fun tally _ => expands_walkBelow (expands_visit g outputRoot dryRun) _ _ _ tally) tally
  · rintro listed listed' ⟨w₁, w₂, halike, hlast, rfl, rfl⟩
    -- Both walks list the same directory, so that they go over the same names.
    have hlisting : w₂.tree.listing w₂.cwd ⟨.root, c.cwd ++ (root ++ below)⟩
        = w₁.tree.listing w₁.cwd ⟨.here, root ++ below⟩ := by
      rw [halike.cwd₁, halike.cwd₂, ← halike.tree.listing halike.wellFormed₁ halike.wellFormed₂,
        FileTree.listing, FileTree.listing, FileTree.lookup_absolute halike.wellFormed₁
          halike.directory (by rw [← List.append_assoc]; omega)]
    rw [hlisting, halike.cwd₁]
    have hlisted : ∀ name, name ∈ (w₁.tree.listing c.cwd ⟨.here, root ++ below⟩).1
        ∨ name ∈ (w₁.tree.listing c.cwd ⟨.here, root ++ below⟩).2 → _ := fun name hname =>
      h.listed halike.wellFormed₁ hlast hplace hname
    generalize w₁.tree.listing c.cwd ⟨.here, root ++ below⟩ = names at hlisted
    obtain ⟨files, directories⟩ := names
    simp only [Path.join_here, List.append_assoc] at hlisted ⊢
    refine Action.Lockstep.and_then (Action.Lockstep.foldlM
      (fun tally _ => expands_visit g outputRoot dryRun tally _) ?_ tally)
      (Action.Expands.foldlM (fun tally _ => expands_visit g outputRoot dryRun tally _) tally)
      (fun tally => Action.Expands.foldlM
        (fun tally _ => expands_walkBelow (expands_visit g outputRoot dryRun) _ _ _ tally) tally)
      fun tally => Action.Lockstep.foldlM
        (fun tally _ => expands_walkBelow (expands_visit g outputRoot dryRun) _ _ _ tally) ?_ tally
    · intro name hname tally
      obtain ⟨hmem, hadmits⟩ := List.mem_filter.1 hname
      obtain ⟨hstep, hreach'⟩ := hlisted name (Or.inl hmem)
      have hlength := Path.utf8ByteSize_root_le (c.cwd ++ root) (below ++ [name])
      rw [List.append_assoc] at hlength
      refine lockstep_visit h (by simp) (fun b₁ b₂ => ?_) (by omega) outputRoot dryRun tally
      rw [hstep]
      exact h.sources hadmits
    · intro name hname tally
      obtain ⟨hstep, hreach'⟩ := hlisted name (Or.inr hname)
      have hmore := Path.reach_append ⟨.here, root⟩ below name
      have hmore' := Path.reach_append ⟨.root, c.cwd ++ root⟩ below name
      have hle := Path.reach_here_le c.cwd root (below ++ [name])
      exact lockstep_walkBelow h outputRoot dryRun _ hstep (by omega) (by omega) hreach' tally
termination_by room₁
decreasing_by omega

/-- **The walk visits the same files**, whichever way the source root is spelled. -/
theorem lockstep_walk (h : Respelled c g root) (outputRoot : Path) (dryRun : Bool)
    (tally : Tally) :
    Action.Lockstep c Eq (walk g.eligible (g.visit outputRoot dryRun) ⟨.here, root⟩ tally)
      (walk g.eligible (g.visit outputRoot dryRun) ⟨.root, c.cwd ++ root⟩ tally) := by
  have hrest : ∀ isDirectory : Bool, Action.Expands (if isDirectory then
      walkBelow g.eligible (g.visit outputRoot dryRun) (Path.mk .here root).room ⟨.here, root⟩ tally
      else pure tally) := by
    intro isDirectory
    split
    · exact expands_walkBelow (expands_visit g outputRoot dryRun) _ _ _ tally
    · exact Action.expands_pure tally
  rw [walk, walk]
  refine Action.lockstep_get.bind Action.expands_get
    (fun w => Action.expands_get.bind fun w' => (Action.expands_lift _).bind hrest) ?_
  rintro w₁ w₂ ⟨halike, hlast⟩
  refine Action.lockstep_get.bind Action.expands_get
    (fun w' => (Action.expands_lift _).bind hrest) ?_
  rintro w₁' w₂' ⟨halike', -⟩
  rw [halike'.cwd₁, halike'.cwd₂, ← halike.tree.isDirectory]
  refine (Action.lockstep_lift (sameEnd_isDirectory halike.wellFormed₁ halike.directory
    h.short)).and_then (Action.expands_lift _) hrest fun isDirectory => ?_
  split
  · have hbelow : Action.Lockstep c Eq
        (walkBelow g.eligible (g.visit outputRoot dryRun)
          (Path.mk .here root).room ⟨.here, root ++ []⟩ tally)
        (walkBelow g.eligible (g.visit outputRoot dryRun)
          (Path.mk .root (c.cwd ++ root)).room
          ⟨.root, c.cwd ++ (root ++ [])⟩ tally) :=
      lockstep_walkBelow h outputRoot dryRun [] (by rw [List.append_nil, List.append_nil])
        (Path.le_room _) (Path.le_room _) h.short tally
    rwa [List.append_nil] at hbelow
  · exact Action.lockstep_pure rfl

/-- **A run does the same**, whichever way the source root is spelled. -/
theorem lockstep_run (h : Respelled c g root) (outputRoot : Path) (dryRun : Bool) :
    Action.Lockstep c Eq (g.run ⟨.here, root⟩ outputRoot dryRun)
      (g.run ⟨.root, c.cwd ++ root⟩ outputRoot dryRun) := by
  have hend : ∀ tally : Tally, (do
      Action.say "pipeline" 20 ("Scanned " ++ toString tally.scanned ++ " source files, generated "
        ++ toString tally.generated ++ " documents, skipped " ++ toString tally.skipped)
      return tally : Action Tally).Expands := fun tally =>
    (Action.expands_say _ _ _).bind fun _ => Action.expands_pure tally
  have hwalk := expands_walk (expands_visit g outputRoot dryRun) g.eligible ⟨.here, root⟩ {}
  rw [run, run]
  refine Action.Lockstep.after_say ?_
    ((Action.expands_say _ _ _).bind fun _ => hwalk.bind hend) _ _ _ _
  refine Action.Lockstep.after_say ?_ (hwalk.bind hend) _ _ _ _
  refine (lockstep_walk h outputRoot dryRun {}).and_then hwalk hend fun tally => ?_
  exact (Action.lockstep_pure rfl).after_say (Action.expands_pure tally) _ _ _ _

end Generator
end RefPages
