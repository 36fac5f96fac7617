import RefPages.Proofs.FileTree.Files
import RefPages.Proofs.Run

/-!
# The pages that a run writes

A run shows messages and writes pages. Without a run log, all that is left of it is the list of the
pages: the run ends as writing them one after the other ends, whether with a fault or without, and
leaves the same tree.

* `Action.Writes` says that an action does no more to the tree than to write some files, and ends as
  that does. `Writes.bind` puts two such actions together.
* `Generator.pages` are the files that the pages of documents make.
* `visit_writes` and `foldlM_visit_writes`: a visit writes the page of its document, if there is
  one; several visits write their pages.
* `Generator.run_writes`: **a run writes the pages of the source files of the start**, until one
  cannot be written.
-/

set_option autoImplicit false
namespace RefPages

open Text

/-! ## Actions that write files -/

namespace Action

variable {α β : Type} {w : Workspace} {a : α} {b : β}

/-- The action writes the files and gives `a`, or else the fault of the first one that cannot be
written. It does nothing else to the tree, and keeps the working directory and the log. -/
def Writes (w : Workspace) (files : List (Path × List UInt8)) (action : Action α) (a : α) : Prop :=
  ∃ w', action.perform w
      = (((w.tree.writeFiles w.cwd files).2.mapError Fault.file).map fun _ => a, w')
    ∧ w'.tree = (w.tree.writeFiles w.cwd files).1 ∧ w'.cwd = w.cwd ∧ w'.log = w.log

/-- Without a fault, all files have been written. -/
theorem Writes.of_ok {files : List (Path × List UInt8)} {action : Action α} {a' : α}
    {w' : Workspace} (h : Writes w files action a) (hok : action.perform w = (.ok a', w')) :
    a' = a ∧ w.tree.writeFiles w.cwd files = (w'.tree, .ok ()) ∧ w'.cwd = w.cwd
      ∧ w'.log = w.log := by
  obtain ⟨w1, hperform, htree, hcwd, hlog⟩ := h
  rw [hok] at hperform
  obtain ⟨hresult, rfl⟩ := Prod.mk.inj hperform
  rcases hwrite : w.tree.writeFiles w.cwd files with ⟨tree, fault | _⟩
  · rw [hwrite] at hresult
    cases hresult
  · rw [hwrite] at hresult htree
    exact ⟨Except.ok.inj hresult, by rw [htree], hcwd, hlog⟩

/-- A fault is that of a file that could not be written. -/
theorem Writes.of_error {files : List (Path × List UInt8)} {action : Action α} {fault : Fault}
    {w' : Workspace} (h : Writes w files action a)
    (herror : action.perform w = (.error fault, w')) :
    ∃ fileFault, fault = Fault.file fileFault
      ∧ w.tree.writeFiles w.cwd files = (w'.tree, .error fileFault) := by
  obtain ⟨w1, hperform, htree, -, -⟩ := h
  rw [herror] at hperform
  obtain ⟨hresult, rfl⟩ := Prod.mk.inj hperform
  rcases hwrite : w.tree.writeFiles w.cwd files with ⟨tree, fileFault | _⟩
  · rw [hwrite] at hresult htree
    exact ⟨fileFault, Except.error.inj hresult, by rw [htree]⟩
  · rw [hwrite] at hresult
    cases hresult

/-- An action that does no more than to show messages writes no files. -/
theorem writes_of_aside {action : Action α} {w' : Workspace} (hlog : w.log.runLogs = [])
    (h : action.perform w = (.ok a, w')) (haside : w.Aside w') : Writes w [] action a :=
  ⟨w', h, haside.tree hlog, haside.cwd, haside.log⟩

theorem writes_pure (w : Workspace) (a : α) : Writes w [] (pure a) a :=
  ⟨w, rfl, rfl, rfl, rfl⟩

theorem writes_say (hlog : w.log.runLogs = []) (component : String) (level : Int)
    (text : String) : Writes w [] (say component level text) () :=
  writes_of_aside hlog (perform_say component level text w) (w.aside_say _)

/-- Two actions write the files of the first and then those of the second, which starts only if all
of the first have been written. -/
theorem Writes.bind {action : Action α} {next : α → Action β}
    {files more : List (Path × List UInt8)} (h : Writes w files action a)
    (hnext : ∀ w1, w.tree.writeFiles w.cwd files = (w1.tree, .ok ()) → w1.cwd = w.cwd →
      w1.log = w.log → Writes w1 more (next a) b) :
    Writes w (files ++ more) (action >>= next) b := by
  obtain ⟨w1, hperform, htree, hcwd, hlog⟩ := h
  rcases hwrite : w.tree.writeFiles w.cwd files with ⟨tree, fault | _⟩
  · rw [hwrite] at hperform htree
    refine ⟨w1, ?_, ?_, hcwd, hlog⟩
    · rw [perform_bind_error hperform, FileTree.writeFiles_append_error hwrite]
      rfl
    · rw [htree, FileTree.writeFiles_append_error hwrite]
  · rw [hwrite] at hperform htree
    obtain ⟨w2, hperform2, htree2, hcwd2, hlog2⟩ := hnext w1 (by rw [hwrite, htree]) hcwd hlog
    rw [htree, hcwd] at hperform2 htree2
    refine ⟨w2, ?_, ?_, hcwd2.trans hcwd, hlog2.trans hlog⟩
    · rw [perform_bind_ok hperform, hperform2, FileTree.writeFiles_append_ok hwrite]
    · rw [htree2, FileTree.writeFiles_append_ok hwrite]

/-- Messages and the like in front of an action leave it as it is. -/
theorem Writes.after {action : Action α} {next : α → Action β} {files : List (Path × List UInt8)}
    (h : Writes w [] action a)
    (hnext : ∀ w1, w1.tree = w.tree → w1.cwd = w.cwd → w1.log = w.log →
      Writes w1 files (next a) b) : Writes w files (action >>= next) b :=
  h.bind fun w1 htree hcwd hlog => hnext w1 (congrArg Prod.fst htree).symm hcwd hlog

/-- Messages and the like after an action leave it as it is. -/
theorem Writes.before {action : Action α} {files : List (Path × List UInt8)}
    (h : Writes w files action a) (next : α → Action β)
    (hnext : ∀ w1, w1.log = w.log → Writes w1 [] (next a) b) :
    Writes w files (action >>= next) b := by
  have hboth := h.bind fun w1 _ _ hlog => hnext w1 hlog
  rwa [List.append_nil] at hboth

/-- Making the directories above a file and putting it there writes it. -/
theorem writes_file (w : Workspace) (path : Path) (bytes : List UInt8) :
    Writes w [(path, bytes)] (do
      makeDirectories path.parent
      put path bytes) () := by
  have hperform := Generator.perform_writeFile path bytes (pure () : Action Unit) w
  simp only [bind_pure_unit] at hperform
  rcases hwrite : w.tree.writeFile w.cwd path bytes with ⟨tree, fault | _⟩
  · rw [hwrite] at hperform
    refine ⟨{ w with tree }, ?_, ?_, rfl, rfl⟩
    · rw [hperform, FileTree.writeFiles_singleton, hwrite]
      rfl
    · rw [FileTree.writeFiles_singleton, hwrite]
  · rw [hwrite] at hperform
    refine ⟨{ w with tree }, ?_, ?_, rfl, rfl⟩
    · rw [hperform, FileTree.writeFiles_singleton, hwrite]
      rfl
    · rw [FileTree.writeFiles_singleton, hwrite]

end Action

/-! ## Trees with the same source files -/

/-- Files that are not named like source files may be written. -/
theorem SameSources.writeFiles {e : Eligibility} {tree tree' tree'' : FileTree} {cwd : Location}
    {files : List (Path × List UInt8)} (h : SameSources e tree tree')
    (hwd : tree'.get? cwd = some .directory)
    (hname : ∀ file ∈ files, e.hasExtension file.1.name = false)
    (hwrite : tree'.writeFiles cwd files = (tree'', .ok ())) : SameSources e tree tree'' := by
  induction files generalizing tree' with
  | nil =>
    cases hwrite
    exact h
  | cons file files ih =>
    obtain ⟨hfirst, hrest⟩ := List.forall_mem_cons.1 hname
    obtain ⟨mid, hfile, hwrite⟩ := FileTree.exists_of_writeFiles_cons_ok hwrite
    have hwrites := FileTree.writesFile_writeFile h.wellFormed hwd hfile
    exact ih (h.writesFile hwrites hfirst) (hwrites.grows.directory hwd) hrest hwrite

namespace Generator

variable {g : Generator} {outputRoot sourceRoot path : Path} {w : Workspace} {tally : Tally}

/-! ## The pages of documents -/

/-- The files that the pages of documents make. -/
def pages (g : Generator) (outputRoot : Path) (docs : List Document) : List (Path × List UInt8) :=
  docs.map fun doc => (g.outputPath outputRoot doc, utf8Encode doc.page)

theorem hasExtension_of_mem_pages {docs : List Document}
    (hname : ∀ doc ∈ docs, g.eligible.hasExtension (g.outputPath outputRoot doc).name = false) :
    ∀ file ∈ g.pages outputRoot docs, g.eligible.hasExtension file.1.name = false := by
  intro file hfile
  obtain ⟨doc, hdoc, rfl⟩ := List.mem_map.1 hfile
  exact hname doc hdoc

/-- A document that is found at a file is that of the file. -/
theorem documentAt_eq {tree : FileTree} {cwd : Location} {doc : Document}
    (h : (match g.documentAt tree cwd path with
      | .ok doc? => doc?
      | .error _ => none) = some doc) : g.documentAt tree cwd path = .ok (some doc) := by
  cases hdoc : g.documentAt tree cwd path with
  | error fault =>
    rw [hdoc] at h
    exact absurd h (by simp)
  | ok doc? =>
    rw [hdoc] at h
    exact congrArg _ h

/-- What the pages of documents do to a tree, place by place, if all can be written. -/
theorem wrote_of_writeFiles {cwd : Location} {docs : List Document} {tree tree' : FileTree}
    (hwf : tree.WellFormed) (hwd : tree.get? cwd = some .directory)
    (h : tree.writeFiles cwd (g.pages outputRoot docs) = (tree', .ok ())) :
    Wrote g outputRoot cwd docs tree tree' := by
  induction docs generalizing tree with
  | nil =>
    cases h
    exact .nil g outputRoot cwd tree'
  | cons doc docs ih =>
    obtain ⟨mid, hfirst, hrest⟩ := FileTree.exists_of_writeFiles_cons_ok h
    have hwrites := FileTree.writesFile_writeFile hwf hwd hfirst
    exact (ih hwrites.wellFormed (hwrites.grows.directory hwd) hrest).cons hwrites

/-! ## The visits -/

/-- The tally after visits of files, by the tree that they are read from. -/
def count (g : Generator) (outputRoot : Path) (tree : FileTree) (cwd : Location)
    (files : List Path) (tally : Tally) : Tally where
  scanned := tally.scanned + files.length
  generated := tally.generated + (g.documents tree cwd files).length
  skipped := tally.skipped + files.countP (unreadable tree cwd)
  outputs := tally.outputs ++ (g.documents tree cwd files).map (g.outputPath outputRoot)

theorem counts_count (g : Generator) (outputRoot : Path) (tree : FileTree) (cwd : Location)
    (files : List Path) (tally : Tally) :
    Counts g outputRoot tree cwd files tally (g.count outputRoot tree cwd files tally) :=
  ⟨rfl, rfl, rfl, rfl⟩

theorem Counts.eq_count {tree : FileTree} {cwd : Location} {files : List Path} {tally' : Tally}
    (h : Counts g outputRoot tree cwd files tally tally') :
    tally' = g.count outputRoot tree cwd files tally := by
  cases tally'
  simp only [count, Tally.mk.injEq]
  exact ⟨h.scanned, h.generated, h.skipped, h.outputs⟩

/-- The page of a document is written, between two messages. -/
theorem generate_writes (hlog : w.log.runLogs = []) (outputRoot : Path) (tally : Tally)
    (doc : Document) :
    Action.Writes w (g.pages outputRoot [doc]) (g.generate outputRoot false tally doc)
      (tally.withPage (g.outputPath outputRoot doc)) := by
  rw [generate]
  simp only [Bool.not_false, if_true]
  refine (Action.writes_say hlog _ _ _).after fun w1 _ _ hlog1 => ?_
  have hfile := Action.writes_file w1 (g.outputPath outputRoot doc) (utf8Encode doc.page)
  have hrest := hfile.before (fun _ => do
      Action.say "pipeline" 10 ("Generated " ++ (g.outputPath outputRoot doc).toString)
      return tally.withPage (g.outputPath outputRoot doc)) fun w2 hlog2 =>
    (Action.writes_say (by rw [hlog2, hlog1, hlog]) _ _ _).after fun w3 _ _ _ =>
      Action.writes_pure w3 _
  rw [bind_assoc] at hrest
  exact hrest

/-- **A visit** writes the page of the file's document, if it has one, and is counted. -/
theorem visit_writes {tree : FileTree} {cwd : Location} (hlog : w.log.runLogs = [])
    (hdoc : g.documentAt w.tree w.cwd path = g.documentAt tree cwd path) (outputRoot : Path)
    (tally : Tally) :
    Action.Writes w (g.pages outputRoot (g.documents tree cwd [path]))
      (g.visit outputRoot false tally path) (g.count outputRoot tree cwd [path] tally) := by
  cases hat : g.documentAt tree cwd path with
  | error fault =>
    obtain ⟨w', hvisit, haside⟩ := visit_unreadable (hdoc.trans hat) outputRoot false tally
    have hdocs : g.documents tree cwd [path] = [] := by simp [documents, hat]
    rw [← (counts_unreadable hat outputRoot tally).eq_count, hdocs]
    exact Action.writes_of_aside hlog hvisit haside
  | ok doc? =>
    cases doc? with
    | none =>
      obtain ⟨w', hvisit, haside⟩ := visit_undocumented (hdoc.trans hat) outputRoot false tally
      have hdocs : g.documents tree cwd [path] = [] := by simp [documents, hat]
      rw [← (counts_undocumented hat outputRoot tally).eq_count, hdocs]
      exact Action.writes_of_aside hlog hvisit haside
    | some doc =>
      obtain ⟨w1, haside, hvisit⟩ := perform_visit g outputRoot false tally path w
      have hdocs : g.documents tree cwd [path] = [doc] := by simp [documents, hat]
      rw [hdoc, hat] at hvisit
      rw [← (counts_document hat outputRoot tally).eq_count, hdocs]
      obtain ⟨w2, hgenerate, htree, hcwd, hlog2⟩ := generate_writes (g := g) (w := w1)
        (by rw [haside.log]; exact hlog) outputRoot { tally with scanned := tally.scanned + 1 } doc
      rw [haside.tree hlog, haside.cwd] at hgenerate htree
      exact ⟨w2, hvisit.trans hgenerate, htree, hcwd.trans haside.cwd, hlog2.trans haside.log⟩

/-- **Several visits** write the pages of the documents of their files, as they were at the start of
the run, one after the other. -/
theorem foldlM_visit_writes {start : Workspace} {files : List Path}
    (hwf : start.tree.WellFormed) (hwd : start.tree.get? start.cwd = some .directory)
    (hlog : start.log.runLogs = [])
    (hfiles : ∀ path ∈ files, path ∈ listedFiles g.eligible start.tree start.cwd sourceRoot)
    (hname : ∀ doc ∈ g.documents start.tree start.cwd files,
      g.eligible.hasExtension (g.outputPath outputRoot doc).name = false)
    (hw : Running g start w) (tally : Tally) :
    Action.Writes w (g.pages outputRoot (g.documents start.tree start.cwd files))
      (files.foldlM (g.visit outputRoot false) tally)
      (g.count outputRoot start.tree start.cwd files tally) := by
  induction files generalizing tally w with
  | nil =>
    rw [← Counts.eq_count ⟨rfl, rfl, rfl, (List.append_nil tally.outputs).symm⟩]
    exact Action.writes_pure w tally
  | cons path files ih =>
    obtain ⟨hfile, hfiles⟩ := List.forall_mem_cons.1 hfiles
    have hcounts := (counts_count g outputRoot start.tree start.cwd [path] tally).cons
      (counts_count g outputRoot start.tree start.cwd files _)
    rw [← hcounts.eq_count, documents_cons, pages, List.map_append, List.foldlM_cons]
    rw [documents_cons] at hname
    have hdocs : ∀ doc ∈ g.documents start.tree start.cwd [path],
        g.eligible.hasExtension (g.outputPath outputRoot doc).name = false := fun doc hdoc =>
      hname doc (List.mem_append_left _ hdoc)
    have hvisit := visit_writes (by rw [hw.log]; exact hlog) (hw.documentAt hwf hfile) outputRoot
      tally
    refine hvisit.bind fun w1 htree hcwd1 hlog1 => ih hfiles
      (fun doc hdoc => hname doc (List.mem_append_right _ hdoc))
      ⟨?_, hcwd1.trans hw.cwd, hlog1.trans hw.log⟩ _
    exact hw.sources.writeFiles (by rw [hw.cwd]; exact hw.sources.grows.directory hwd)
      (hasExtension_of_mem_pages hdocs) htree

/-! ## The run -/

/-- The walk of a run writes the pages of the source files of the start. -/
theorem walk_writes (hwf : w.tree.WellFormed) (hwd : w.tree.get? w.cwd = some .directory)
    (hlog : w.log.runLogs = [])
    (hname : ∀ doc ∈ g.documents w.tree w.cwd (listedFiles g.eligible w.tree w.cwd sourceRoot),
      g.eligible.hasExtension (g.outputPath outputRoot doc).name = false)
    {isDir : Bool} (hdir : w.tree.isDirectory w.cwd sourceRoot = .ok isDir) (tally : Tally) :
    Action.Writes w (g.pages outputRoot (g.documents w.tree w.cwd
        (listedFiles g.eligible w.tree w.cwd sourceRoot)))
      (walk g.eligible (g.visit outputRoot false) sourceRoot tally)
      (g.count outputRoot w.tree w.cwd (listedFiles g.eligible w.tree w.cwd sourceRoot) tally) := by
  have hw : Running g w w := ⟨.refl hwf g.eligible, rfl, rfl⟩
  obtain ⟨w', hperform, hrest⟩ := foldlM_visit_writes hwf hwd hlog
    (fun _ hpath => hpath) hname hw tally
  refine ⟨w', ?_, hrest⟩
  rw [perform_walk (I := Running g w) hwf (fun w' hw' => ⟨hw'.sources, hw'.cwd⟩) ?_ tally hw, hdir]
  · exact hperform
  · intro path hpath tally w1 tally' w' hw1 hvisit
    refine (visit_spec hwf hwd hlog hpath (fun doc hdoc => hname doc ?_) hw1 hvisit).1
    obtain ⟨path', hpath', hdoc⟩ := List.mem_filterMap.1 hdoc
    rw [List.mem_singleton.1 hpath'] at hdoc
    exact List.mem_filterMap.2 ⟨path, hpath, hdoc⟩

/-- **A run writes the pages of the source files of the start**, one after the other, until one
cannot be written. -/
theorem run_writes (g : Generator) (outputRoot : Path) (hwf : w.tree.WellFormed)
    (hwd : w.tree.get? w.cwd = some .directory) (hlog : w.log.runLogs = [])
    (hname : ∀ doc ∈ g.documents w.tree w.cwd (listedFiles g.eligible w.tree w.cwd sourceRoot),
      g.eligible.hasExtension (g.outputPath outputRoot doc).name = false)
    {isDir : Bool} (hdir : w.tree.isDirectory w.cwd sourceRoot = .ok isDir) :
    Action.Writes w (g.pages outputRoot (g.documents w.tree w.cwd
        (listedFiles g.eligible w.tree w.cwd sourceRoot)))
      (g.run sourceRoot outputRoot false)
      (g.count outputRoot w.tree w.cwd (listedFiles g.eligible w.tree w.cwd sourceRoot) {}) := by
  rw [run]
  refine (Action.writes_say hlog _ _ _).after fun w1 htree1 hcwd1 hlog1 => ?_
  refine (Action.writes_say (by rw [hlog1, hlog]) _ _ _).after fun w2 htree2 hcwd2 hlog2 => ?_
  have htree : w.tree = w2.tree := (htree2.trans htree1).symm
  have hcwd : w.cwd = w2.cwd := (hcwd2.trans hcwd1).symm
  rw [htree] at hwf
  rw [htree, hcwd] at hwd hname hdir ⊢
  have hwalk := walk_writes hwf hwd (by rw [hlog2, hlog1, hlog]) hname hdir {}
  exact hwalk.before _ fun w3 hlog3 =>
    (Action.writes_say (by rw [hlog3, hlog2, hlog1, hlog]) _ _ _).after fun w4 _ _ _ =>
      Action.writes_pure w4 _

end Generator
end RefPages
