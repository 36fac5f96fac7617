import RefPages.Command.Run
import RefPages.Proofs.Action
import RefPages.Proofs.FileTree.Files

/-!
# What an action adds

Nothing that the program does takes a place away from the tree: it makes directories, puts files and
appends to the run log. This holds however an action ends, also in a fault.

* `Workspace.Grown` relates a workspace to one in which places have been added.
* `Action.Expands` says that an action does no more than that. `Expands.bind` and `Expands.foldlM`
  put such actions together.
* `Generator.expands_visit`, `expands_walk`, `Generator.expands_run`: the parts of a run.
-/

set_option autoImplicit false
namespace RefPages

/-- No place has been lost, and the working directory is the same. -/
structure Workspace.Grown (w w' : Workspace) : Prop where
  wellFormed : w'.tree.WellFormed
  grows : w.tree.Grows w'.tree
  cwd : w'.cwd = w.cwd

namespace Workspace

theorem Grown.of_tree {w w' : Workspace} (hwf : w.tree.WellFormed) (htree : w'.tree = w.tree)
    (hcwd : w'.cwd = w.cwd) : w.Grown w' :=
  ⟨by rw [htree]; exact hwf, by rw [htree]; exact .refl w.tree, hcwd⟩

theorem Grown.trans {w w' w'' : Workspace} (h : w.Grown w') (h' : w'.Grown w'') : w.Grown w'' :=
  ⟨h'.wellFormed, h.grows.trans h'.grows, h'.cwd.trans h.cwd⟩

theorem Grown.directory {w w' : Workspace} (h : w.Grown w')
    (hwd : w.tree.get? w.cwd = some .directory) : w'.tree.get? w'.cwd = some .directory := by
  rw [h.cwd]
  exact h.grows.directory hwd

end Workspace

/-- New bytes for a file that is there take no place away. -/
theorem FileTree.WellFormed.set_file {tree : FileTree} (hwf : tree.WellFormed) {loc : Location}
    {old : List UInt8} (hold : tree.get? loc = some (.file old)) (bytes : List UInt8) :
    (tree.set loc (.file bytes)).WellFormed ∧ tree.Grows (tree.set loc (.file bytes)) := by
  rcases List.eq_nil_or_concat loc with rfl | ⟨front, name, hloc⟩
  · exact absurd hold (by simp)
  · rw [List.concat_eq_append] at hloc
    subst hloc
    obtain ⟨hfront, hname⟩ := hwf.parent hold
    refine ⟨hwf.set hfront hname fun hdir => ?_, grows_set (by simp) ?_ (by simp)⟩
    · rw [hold] at hdir
      exact absurd hdir (by simp)
    · rw [hold]
      simp

namespace Workspace

/-- An outlet writes to the console, or to the end of a run log that is there. -/
theorem grown_deliver {w : Workspace} (hwf : w.tree.WellFormed) (m : Message) (outlet : Outlet) :
    w.Grown (deliver m w outlet) := by
  rw [deliver]
  split
  · rcases outlet with level | ⟨loc | _⟩
    · exact .of_tree hwf rfl rfl
    · rw [write, appendAt]
      split
      · rename_i old hold
        obtain ⟨hwf', hgrows⟩ := hwf.set_file hold (old ++ _)
        exact ⟨hwf', hgrows, rfl⟩
      · exact .of_tree hwf rfl rfl
    · exact .of_tree hwf rfl rfl
  · exact .of_tree hwf rfl rfl

theorem grown_foldl_deliver {w : Workspace} (hwf : w.tree.WellFormed) (m : Message)
    (outlets : List Outlet) : w.Grown (outlets.foldl (deliver m) w) := by
  induction outlets generalizing w with
  | nil => exact .of_tree hwf rfl rfl
  | cons outlet outlets ih =>
    have hfirst := grown_deliver hwf m outlet
    exact hfirst.trans (ih hfirst.wellFormed)

/-- A message takes no place away. -/
theorem grown_say {w : Workspace} (hwf : w.tree.WellFormed) (m : Message) :
    w.Grown (w.say m) := by
  rw [say]
  split
  · exact .of_tree hwf rfl rfl
  · split
    · split
      · exact .of_tree hwf rfl rfl
      · exact .of_tree hwf rfl rfl
    · exact grown_foldl_deliver hwf m _

end Workspace

namespace Action

variable {α β : Type}

/-- However it ends, the action takes no place away. -/
def Expands (action : Action α) : Prop :=
  ∀ w : Workspace, w.tree.WellFormed → w.tree.get? w.cwd = some .directory →
    w.Grown (action.perform w).2

/-! ## Putting actions together -/

/-- An action that leaves the tree alone. -/
theorem expands_of_tree {action : Action α}
    (h : ∀ w, (action.perform w).2.tree = w.tree ∧ (action.perform w).2.cwd = w.cwd) :
    action.Expands :=
  fun w hwf _ => .of_tree hwf (h w).1 (h w).2

theorem expands_pure (a : α) : (pure a : Action α).Expands :=
  expands_of_tree fun _ => ⟨rfl, rfl⟩

theorem expands_get : (get : Action Workspace).Expands :=
  expands_of_tree fun _ => ⟨rfl, rfl⟩

theorem expands_lift (result : Except Fault α) : (lift result).Expands :=
  expands_of_tree fun w => by rw [perform_lift]; exact ⟨rfl, rfl⟩

theorem Expands.bind {action : Action α} {next : α → Action β} (h : action.Expands)
    (hnext : ∀ a, (next a).Expands) : (action >>= next).Expands := by
  intro w hwf hwd
  have hgrown := h w hwf hwd
  rw [perform_bind]
  rcases hperform : action.perform w with ⟨fault | a, w1⟩
  · rw [hperform] at hgrown
    exact hgrown
  · rw [hperform] at hgrown
    exact hgrown.trans (hnext a w1 hgrown.wellFormed (hgrown.directory hwd))

theorem Expands.foldlM {f : β → α → Action β} {xs : List α} (h : ∀ b x, (f b x).Expands) (b : β) :
    (xs.foldlM f b).Expands := by
  induction xs generalizing b with
  | nil => exact expands_pure b
  | cons x xs ih =>
    rw [List.foldlM_cons]
    exact (h b x).bind ih

theorem Expands.attempt {action : Action α} (h : action.Expands) :
    (Action.attempt action).Expands := by
  intro w hwf hwd
  rw [perform_attempt]
  exact h w hwf hwd

/-! ## Steps -/

theorem expands_say (component : String) (level : Int) (text : String) :
    (say component level text).Expands := by
  intro w hwf _
  rw [perform_say]
  exact Workspace.grown_say hwf _

theorem expands_makeDirectories (path : Path) : (makeDirectories path).Expands := by
  intro w hwf _
  rw [perform_makeDirectories]
  have htrail := FileTree.makesTrail_makeDirectories hwf w.cwd path
  exact ⟨htrail.adds.wellFormed, htrail.adds.grows, rfl⟩

theorem expands_put (path : Path) (bytes : List UInt8) : (put path bytes).Expands := by
  intro w hwf hwd
  rw [perform_put]
  split
  · rename_i tree hput
    obtain ⟨front, hplace, hname, hfront, hdir, rfl⟩ := FileTree.put_spec hwf hwd hput
    rw [hplace] at hdir ⊢
    exact ⟨hwf.set hfront hname fun h => absurd h hdir,
      FileTree.grows_set (by simp) hdir (by simp), rfl⟩
  · exact .of_tree hwf rfl rfl

/-- A free place takes a new file. -/
theorem grown_filePlace {w : Workspace} (hwf : w.tree.WellFormed) {path : Path} {loc : Location}
    (h : w.tree.filePlace w.cwd path = .ok loc) :
    w.Grown { w with
      tree := if (w.tree.get? loc).isSome then w.tree else w.tree.set loc (.file []) } := by
  by_cases hsome : (w.tree.get? loc).isSome = true
  · rw [if_pos hsome]
    exact .of_tree hwf rfl rfl
  · rw [if_neg hsome]
    rcases FileTree.filePlace_cases h with ⟨bytes, hlookup⟩ | hlookup
    · have hfound : w.tree.get? loc = some (.file bytes) := (FileTree.locate_of_lookup hlookup).2
      rw [hfound] at hsome
      exact absurd rfl hsome
    · obtain ⟨front, name, rfl, -, hname, hfront⟩ := FileTree.exists_of_lookup_free hlookup
      have hnone : w.tree.get? (front ++ [name]) = none := by simpa using hsome
      exact ⟨hwf.set hfront hname fun hdir => absurd (hnone.symm.trans hdir) (by simp),
        FileTree.grows_set (by simp) (by simp [hnone]) (by simp), rfl⟩

theorem expands_openFile (path : Path) : (openFile path).Expands := by
  intro w hwf _
  rw [openFile, perform_bind_ok (perform_get w)]
  rcases hplace : w.tree.filePlace w.cwd path with fault | loc
  · exact .of_tree hwf rfl rfl
  · exact grown_filePlace hwf hplace

theorem expands_openRunLog (path : Path) : (openRunLog path).Expands :=
  (expands_makeDirectories _).bind fun _ => expands_get.bind fun _ => expands_openFile _

theorem expands_changeLog (f : Log → Log) : (changeLog f).Expands :=
  expands_of_tree fun _ => ⟨rfl, rfl⟩

theorem expands_configureLog (verbose quiet : Bool) (logFile? : Option Path) :
    (configureLog verbose quiet logFile?).Expands := by
  cases logFile? with
  | none =>
    rw [configureLog]
    refine (expands_changeLog _).bind fun _ => (expands_changeLog _).bind fun _ => ?_
    exact expands_changeLog _
  | some path =>
    rw [configureLog]
    refine (expands_changeLog _).bind fun _ => (expands_changeLog _).bind fun _ => ?_
    refine (expands_openRunLog path).bind fun loc => ?_
    exact (expands_changeLog _).bind fun _ => expands_changeLog _

end Action

/-! ## Runs -/

/-- A walk takes nothing away if its visits do not. -/
theorem expands_walkBelow {α : Type} {visit : α → Path → Action α}
    (h : ∀ a path, (visit a path).Expands) (e : Eligibility) (room : Nat) (dir : Path) (a : α) :
    (walkBelow e visit room dir a).Expands := by
  match room with
  | 0 =>
    rw [walkBelow]
    exact Action.expands_pure a
  | room + 1 =>
    rw [walkBelow]
    refine Action.Expands.bind (Action.expands_of_tree fun _ => ⟨rfl, rfl⟩) fun names => ?_
    refine (Action.Expands.foldlM (fun a name => h a _) a).bind fun a => ?_
    exact Action.Expands.foldlM (fun a name => expands_walkBelow h e _ _ a) a
termination_by room
decreasing_by omega

theorem expands_walk {α : Type} {visit : α → Path → Action α}
    (h : ∀ a path, (visit a path).Expands) (e : Eligibility) (root : Path) (a : α) :
    (walk e visit root a).Expands := by
  rw [walk]
  refine Action.expands_get.bind fun w => Action.expands_get.bind fun w' => ?_
  refine (Action.expands_lift _).bind fun isDirectory => ?_
  split
  · exact expands_walkBelow h e _ _ a
  · exact Action.expands_pure a

namespace Generator

theorem expands_findFacts (file : SourceFile) (extractors : List Extractor) :
    (findFacts file extractors).Expands := by
  induction extractors with
  | nil => exact Action.expands_pure []
  | cons extractor rest ih =>
    rw [findFacts]
    simp only
    split
    · exact (Action.expands_say _ _ _).bind fun _ => ih.bind fun _ => Action.expands_pure _
    · exact ih.bind fun _ => Action.expands_pure _

theorem expands_extract (g : Generator) (path : Path) : (g.extract path).Expands := by
  rw [extract]
  refine Action.expands_get.bind fun w => Action.expands_get.bind fun w' => ?_
  refine (Action.expands_lift _).bind fun text => ?_
  exact (expands_findFacts _ _).bind fun _ => Action.expands_lift _

theorem expands_generate (g : Generator) (outputRoot : Path) (dryRun : Bool) (tally : Tally)
    (doc : Document) : (g.generate outputRoot dryRun tally doc).Expands := by
  rw [generate]
  refine (Action.expands_say _ _ _).bind fun _ => ?_
  simp only
  split
  · refine (Action.expands_makeDirectories _).bind fun _ => ?_
    refine (Action.expands_put _ _).bind fun _ => ?_
    exact (Action.expands_say _ _ _).bind fun _ => Action.expands_pure _
  · exact Action.expands_pure _

theorem expands_visit (g : Generator) (outputRoot : Path) (dryRun : Bool) (tally : Tally)
    (path : Path) : (g.visit outputRoot dryRun tally path).Expands := by
  rw [visit]
  refine (expands_extract g path).attempt.bind fun result => ?_
  split
  · exact (Action.expands_say _ _ _).bind fun _ => Action.expands_pure _
  · exact (Action.expands_say _ _ _).bind fun _ => Action.expands_pure _
  · exact expands_generate g outputRoot dryRun _ _

/-- **A run takes nothing away**, whether it ends in a fault or not. -/
theorem expands_run (g : Generator) (sourceRoot outputRoot : Path) (dryRun : Bool) :
    (g.run sourceRoot outputRoot dryRun).Expands := by
  rw [run]
  refine (Action.expands_say _ _ _).bind fun _ => (Action.expands_say _ _ _).bind fun _ => ?_
  refine (expands_walk (expands_visit g outputRoot dryRun) _ _ _).bind fun tally => ?_
  exact (Action.expands_say _ _ _).bind fun _ => Action.expands_pure _

end Generator
end RefPages
