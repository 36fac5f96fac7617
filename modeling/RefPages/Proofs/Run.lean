import RefPages.Generator
import RefPages.Proofs.Document
import RefPages.Proofs.Walk

/-!
# The effect of a run

* `Generator.documentAt` is the document of a source file as it stands in a tree, and
  `perform_extract` says that reading the file gives it.
* `visit_unreadable`, `visit_undocumented` and `visit_document` are the three things that can happen
  at a source file.
* `Generator.Wrote` says what the pages of several documents do to a tree, place by place: the last
  page that goes to a place stays.
* `Generator.run_effect`: **the counts, the outputs and the final tree of a run.**
-/

set_option autoImplicit false
namespace RefPages

open Text

/-- The tally with one more page. -/
def Tally.withPage (tally : Tally) (path : Path) : Tally :=
  { tally with generated := tally.generated + 1, outputs := tally.outputs ++ [path] }

namespace Generator

variable {g : Generator} {outputRoot : Path} {w w' : Workspace}

/-! ## Reading a source file -/

/-- The document of a source file as it stands in a tree, if it can be read. -/
def documentAt (g : Generator) (tree : FileTree) (cwd : Location) (path : Path) :
    Except ReadFault (Option Document) :=
  (tree.readText cwd path).map fun text =>
    Document.ofKinds? g.categories path (SourceFile.facts ⟨path, text⟩ g.extractors)

theorem perform_findFacts (file : SourceFile) (extractors : List Extractor) (w : Workspace) :
    ∃ w', (findFacts file extractors).perform w = (.ok (file.facts extractors), w')
      ∧ w.Aside w' := by
  induction extractors generalizing w with
  | nil => exact ⟨w, rfl, .refl w⟩
  | cons extractor rest ih =>
    have hmore : ∀ w1, w.Aside w1 → ∃ w2, (do
        let more ← findFacts file rest
        pure (extractor.facts file ++ more) : Action (List Fact)).perform w1
          = (.ok (file.facts (extractor :: rest)), w2) ∧ w.Aside w2 := by
      intro w1 haside
      obtain ⟨w2, hrest, haside'⟩ := ih w1
      exact ⟨w2, by rw [Action.perform_bind_ok hrest]; rfl, haside.trans haside'⟩
    rw [findFacts]
    simp only
    split
    · exact Action.exists_perform_say hmore
    · exact hmore w (.refl w)

/-- Reading a source file gives its document, and a fault only if it cannot be read. -/
theorem perform_extract (g : Generator) (path : Path) (w : Workspace) :
    ∃ w', (g.extract path).perform w = ((g.documentAt w.tree w.cwd path).mapError Fault.read, w')
      ∧ w.Aside w' := by
  rw [extract, Action.perform_bind_ok (Action.perform_get w),
    Action.perform_bind_ok (Action.perform_get w), documentAt]
  cases htext : w.tree.readText w.cwd path with
  | error fault => exact ⟨w, Action.perform_bind_error (Action.perform_lift _ w), .refl w⟩
  | ok text =>
    have hlift : (Action.lift (Except.mapError Fault.read (.ok text))).perform w = (.ok text, w) :=
      Action.perform_lift _ w
    obtain ⟨w', hfacts, haside⟩ := perform_findFacts ⟨path, text⟩ g.extractors w
    refine ⟨w', ?_, haside⟩
    rw [Action.perform_bind_ok hlift, Action.perform_bind_ok hfacts, Document.ofFacts?_sourceFacts,
      Action.perform_lift]
    rfl

/-! ## Writing a page -/

/-- Making the directories above a file and writing it, and then something else. -/
theorem perform_writeFile {β : Type} (path : Path) (bytes : List UInt8) (next : Action β)
    (w : Workspace) :
    (do
        Action.makeDirectories path.parent
        Action.put path bytes
        next).perform w =
      match w.tree.writeFile w.cwd path bytes with
      | (tree, .ok ()) => next.perform { w with tree }
      | (tree, .error fault) => (.error (Fault.file fault), { w with tree }) := by
  have hmake := Action.perform_makeDirectories path.parent w
  rw [FileTree.writeFile]
  rcases hdir : w.tree.makeDirectories w.cwd path.parent with ⟨tree, fault | _⟩
  · rw [hdir] at hmake
    exact Action.perform_bind_error hmake
  · rw [hdir] at hmake
    have hput := Action.perform_put path bytes { w with tree }
    simp only at hput ⊢
    rw [Action.perform_bind_ok hmake]
    rcases hfile : tree.put w.cwd path bytes with fault | tree'
    · rw [hfile] at hput
      exact Action.perform_bind_error hput
    · rw [hfile] at hput
      exact Action.perform_bind_ok hput

/-- A page that is made without a fault is written and counted. -/
theorem generate_cases {tally tally' : Tally} {doc : Document}
    (h : (g.generate outputRoot false tally doc).perform w = (.ok tally', w')) :
    tally' = tally.withPage (g.outputPath outputRoot doc)
      ∧ ∃ w1 tree', w.Aside w1
        ∧ w1.tree.writeFile w1.cwd (g.outputPath outputRoot doc) (utf8Encode doc.page)
          = (tree', .ok ())
        ∧ ({ w1 with tree := tree' } : Workspace).Aside w' := by
  rw [generate] at h
  simp only [Bool.not_false, if_true] at h
  obtain ⟨_, w1, hsay, h⟩ := Action.exists_of_perform_bind h
  rw [perform_writeFile] at h
  split at h
  · rename_i tree' hwrite
    obtain ⟨_, w2, hsay', h⟩ := Action.exists_of_perform_bind h
    cases h
    exact ⟨rfl, w1, tree', Action.aside_of_perform_say hsay, hwrite,
      Action.aside_of_perform_say hsay'⟩
  · exact absurd h (by simp)

/-! ## One source file -/

variable {tally : Tally} {path : Path}

/-- A visit goes on from what reading the file has given. -/
theorem perform_visit (g : Generator) (outputRoot : Path) (dryRun : Bool) (tally : Tally)
    (path : Path) (w : Workspace) :
    ∃ w1, w.Aside w1 ∧ (g.visit outputRoot dryRun tally path).perform w =
      Action.perform (match (g.documentAt w.tree w.cwd path).mapError Fault.read with
        | .error fault => do
          Action.say "pipeline" 30 ("Could not parse " ++ path.toString ++ ": " ++ fault.message)
          return { tally with scanned := tally.scanned + 1, skipped := tally.skipped + 1 }
        | .ok none => do
          Action.say "pipeline" 10 ("Nothing to document in " ++ path.toString)
          return { tally with scanned := tally.scanned + 1 }
        | .ok (some doc) =>
          g.generate outputRoot dryRun { tally with scanned := tally.scanned + 1 } doc) w1 := by
  obtain ⟨w1, hextract, haside⟩ := perform_extract g path w
  have hattempt := Action.perform_attempt (g.extract path) w
  rw [hextract] at hattempt
  exact ⟨w1, haside, Action.perform_bind_ok hattempt⟩

/-- A source file that cannot be read is counted as skipped. -/
theorem visit_unreadable {fault : ReadFault} (h : g.documentAt w.tree w.cwd path = .error fault)
    (outputRoot : Path) (dryRun : Bool) (tally : Tally) :
    ∃ w', (g.visit outputRoot dryRun tally path).perform w =
        (.ok { tally with scanned := tally.scanned + 1, skipped := tally.skipped + 1 }, w')
      ∧ w.Aside w' := by
  obtain ⟨w1, haside, hvisit⟩ := perform_visit g outputRoot dryRun tally path w
  rw [hvisit, h]
  exact Action.exists_perform_say fun w2 haside' => ⟨w2, rfl, haside.trans haside'⟩

/-- A source file without anything to document is counted and no more. -/
theorem visit_undocumented (h : g.documentAt w.tree w.cwd path = .ok none) (outputRoot : Path)
    (dryRun : Bool) (tally : Tally) :
    ∃ w', (g.visit outputRoot dryRun tally path).perform w =
        (.ok { tally with scanned := tally.scanned + 1 }, w')
      ∧ w.Aside w' := by
  obtain ⟨w1, haside, hvisit⟩ := perform_visit g outputRoot dryRun tally path w
  rw [hvisit, h]
  exact Action.exists_perform_say fun w2 haside' => ⟨w2, rfl, haside.trans haside'⟩

/-- A documented source file gets its page. -/
theorem visit_document {doc : Document} {tally' : Tally}
    (hdoc : g.documentAt w.tree w.cwd path = .ok (some doc))
    (h : (g.visit outputRoot false tally path).perform w = (.ok tally', w')) :
    tally' = Tally.withPage { tally with scanned := tally.scanned + 1 }
        (g.outputPath outputRoot doc)
      ∧ ∃ w1 tree', w.Aside w1
        ∧ w1.tree.writeFile w1.cwd (g.outputPath outputRoot doc) (utf8Encode doc.page)
          = (tree', .ok ())
        ∧ ({ w1 with tree := tree' } : Workspace).Aside w' := by
  obtain ⟨w1, haside, hvisit⟩ := perform_visit g outputRoot false tally path w
  rw [hvisit, hdoc] at h
  obtain ⟨htally, w2, tree', haside', hwrite, hlast⟩ := generate_cases h
  exact ⟨htally, w2, tree', haside.trans haside', hwrite, hlast⟩

/-! ## The pages of several documents -/

/-- The documents of source files as they stand in a tree. -/
def documents (g : Generator) (tree : FileTree) (cwd : Location) (files : List Path) :
    List Document :=
  files.filterMap fun path =>
    match g.documentAt tree cwd path with
    | .ok doc? => doc?
    | .error _ => none

theorem documents_cons (g : Generator) (tree : FileTree) (cwd : Location) (path : Path)
    (files : List Path) :
    g.documents tree cwd (path :: files)
      = g.documents tree cwd [path] ++ g.documents tree cwd files := by
  rw [documents, ← List.singleton_append, List.filterMap_append]
  rfl

/-- The last of the documents whose page goes to a place. -/
def lastAt? (g : Generator) (outputRoot : Path) (cwd : Location) (docs : List Document)
    (loc : Location) : Option Document :=
  (docs.filter fun doc => (g.outputPath outputRoot doc).locate cwd = loc).getLast?

/-- Is a place above the page of one of the documents? -/
def isAbove (g : Generator) (outputRoot : Path) (cwd : Location) (docs : List Document)
    (loc : Location) : Bool :=
  docs.any fun doc => loc ∈ (g.outputPath outputRoot doc).parent.trail cwd

/-- What the pages of several documents, written one after the other, do to a tree. -/
structure Wrote (g : Generator) (outputRoot : Path) (cwd : Location) (docs : List Document)
    (tree tree' : FileTree) : Prop where
  /-- The last page that goes to a place stays, above the pages are directories, and nothing else is
  new. -/
  get? : ∀ loc, tree'.get? loc =
    match g.lastAt? outputRoot cwd docs loc with
    | some doc => some (.file (utf8Encode doc.page))
    | none => if g.isAbove outputRoot cwd docs loc then some .directory else tree.get? loc
  /-- No file was above a page. -/
  above : ∀ loc, g.isAbove outputRoot cwd docs loc = true →
    tree.get? loc = none ∨ tree.get? loc = some .directory

theorem Wrote.nil (g : Generator) (outputRoot : Path) (cwd : Location) (tree : FileTree) :
    Wrote g outputRoot cwd [] tree tree :=
  ⟨fun _ => rfl, fun _ h => absurd h (by simp [isAbove])⟩

theorem lastAt?_cons (g : Generator) (outputRoot : Path) (cwd : Location) (doc : Document)
    (docs : List Document) (loc : Location) :
    g.lastAt? outputRoot cwd (doc :: docs) loc = (g.lastAt? outputRoot cwd docs loc).or
      (if (g.outputPath outputRoot doc).locate cwd = loc then some doc else none) := by
  rw [lastAt?, lastAt?]
  by_cases h : (g.outputPath outputRoot doc).locate cwd = loc
  · rw [List.filter_cons_of_pos (by simpa using h), List.getLast?_cons, if_pos h]
    cases (docs.filter _).getLast? <;> rfl
  · rw [List.filter_cons_of_neg (by simpa using h), if_neg h, Option.or_none]

theorem isAbove_cons (g : Generator) (outputRoot : Path) (cwd : Location) (doc : Document)
    (docs : List Document) (loc : Location) :
    g.isAbove outputRoot cwd (doc :: docs) loc =
      (decide (loc ∈ (g.outputPath outputRoot doc).parent.trail cwd)
        || g.isAbove outputRoot cwd docs loc) :=
  List.any_cons

/-- One page, and then the pages of the other documents. -/
theorem Wrote.cons {cwd : Location} {doc : Document} {docs : List Document}
    {tree tree' tree'' : FileTree} (h : Wrote g outputRoot cwd docs tree' tree'')
    (hdoc : FileTree.WritesFile cwd (g.outputPath outputRoot doc) (utf8Encode doc.page) tree
      tree') :
    Wrote g outputRoot cwd (doc :: docs) tree tree'' := by
  constructor
  · intro loc
    rw [h.get?, lastAt?_cons, isAbove_cons]
    cases hlast : g.lastAt? outputRoot cwd docs loc with
    | some last => rfl
    | none =>
      rw [Option.none_or, hdoc.get?]
      by_cases hplace : (g.outputPath outputRoot doc).locate cwd = loc
      · -- No later page can have needed a directory where this one is a file.
        have hfile : tree'.get? loc = some (.file (utf8Encode doc.page)) := by
          rw [hdoc.get?, if_pos hplace.symm]
        have habove : g.isAbove outputRoot cwd docs loc = false := by
          rw [← Bool.not_eq_true]
          intro habove
          rcases h.above loc habove with hget | hget
          all_goals
            rw [hfile] at hget
            exact absurd hget (by simp)
        simp [hplace, habove]
      · simp only [if_neg hplace, if_neg (Ne.symm hplace)]
        by_cases hmem : loc ∈ (g.outputPath outputRoot doc).parent.trail cwd
        · simp [hmem]
        · simp [hmem]
  · intro loc habove
    rw [isAbove_cons, Bool.or_eq_true, decide_eq_true_eq] at habove
    rcases habove with hmem | habove
    · exact hdoc.trail loc hmem
    · have hget := h.above loc habove
      rw [hdoc.get?] at hget
      split at hget
      · rcases hget with hget | hget <;> exact absurd hget (by simp)
      · split at hget
        · exact hdoc.trail loc ‹_›
        · exact hget

/-- What one visit does, and then the pages of the other documents. -/
theorem Wrote.visit {cwd : Location} {found docs : List Document} {tree tree' tree'' : FileTree}
    (h : Wrote g outputRoot cwd docs tree' tree'')
    (htree : (found = [] ∧ tree' = tree) ∨ ∃ doc, found = [doc] ∧
      FileTree.WritesFile cwd (g.outputPath outputRoot doc) (utf8Encode doc.page) tree tree') :
    Wrote g outputRoot cwd (found ++ docs) tree tree'' := by
  rcases htree with ⟨rfl, rfl⟩ | ⟨doc, rfl, hwrites⟩
  · exact h
  · exact h.cons hwrites

/-! ## The run -/

/-- The workspace during a run that started in `start`. -/
structure Running (g : Generator) (start w : Workspace) : Prop where
  /-- The source files are those of the start. -/
  sources : SameSources g.eligible start.tree w.tree
  cwd : w.cwd = start.cwd
  log : w.log = start.log

/-- Can the file not be read as text? -/
def unreadable (tree : FileTree) (cwd : Location) (path : Path) : Bool :=
  !(tree.readText cwd path).isOk

/-- A source file cannot be read if its bytes are no text, or if its path is too long. -/
theorem unreadable_iff {tree : FileTree} {cwd : Location} {bytes : List UInt8}
    (h : IsSource g.eligible tree cwd path bytes) :
    unreadable tree cwd path = true ↔
      (utf8Decode bytes).isOk = false ∨ 4096 ≤ path.toString.utf8ByteSize := by
  rw [unreadable, FileTree.readText, h.contents]
  by_cases hlong : 4096 ≤ path.toString.utf8ByteSize
  · simp [hlong, Except.toBool]
  · rw [if_neg hlong, or_iff_left hlong]
    simp only [readText]
    cases utf8Decode bytes with
    | error fault => exact ⟨fun _ => rfl, fun _ => rfl⟩
    | ok text =>
      exact ⟨fun h => absurd h Bool.false_ne_true, fun h => absurd h.symm Bool.false_ne_true⟩

/-- What the visits of files add to a tally, by the tree that they are read from. -/
structure Counts (g : Generator) (outputRoot : Path) (tree : FileTree) (cwd : Location)
    (files : List Path) (tally tally' : Tally) : Prop where
  scanned : tally'.scanned = tally.scanned + files.length
  skipped : tally'.skipped = tally.skipped + files.countP (unreadable tree cwd)
  generated : tally'.generated = tally.generated + (g.documents tree cwd files).length
  outputs : tally'.outputs =
    tally.outputs ++ (g.documents tree cwd files).map (g.outputPath outputRoot)

theorem Counts.cons {tree : FileTree} {cwd : Location} {files : List Path}
    {tally' tally'' : Tally} (h : Counts g outputRoot tree cwd [path] tally tally')
    (h' : Counts g outputRoot tree cwd files tally' tally'') :
    Counts g outputRoot tree cwd (path :: files) tally tally'' := by
  have hdocs := documents_cons g tree cwd path files
  have hfiles : path :: files = [path] ++ files := rfl
  constructor
  · rw [h'.scanned, h.scanned, hfiles, List.length_append, Nat.add_assoc]
  · rw [h'.skipped, h.skipped, hfiles, List.countP_append, Nat.add_assoc]
  · rw [h'.generated, h.generated, hdocs, List.length_append, Nat.add_assoc]
  · rw [h'.outputs, h.outputs, hdocs, List.map_append, List.append_assoc]

/-- A file can be read exactly if there is an answer to whether it has a document. -/
theorem unreadable_eq (g : Generator) (tree : FileTree) (cwd : Location) (path : Path) :
    unreadable tree cwd path = !(g.documentAt tree cwd path).isOk := by
  rw [unreadable, documentAt]
  cases tree.readText cwd path <;> rfl

/-! What one file adds, by what can happen to it. -/

theorem counts_unreadable {tree : FileTree} {cwd : Location} {fault : ReadFault}
    (h : g.documentAt tree cwd path = .error fault) (outputRoot : Path) (tally : Tally) :
    Counts g outputRoot tree cwd [path] tally
      { tally with scanned := tally.scanned + 1, skipped := tally.skipped + 1 } := by
  have hunreadable := unreadable_eq g tree cwd path
  have hdocs : g.documents tree cwd [path] = [] := by simp [documents, h]
  rw [h] at hunreadable
  refine ⟨rfl, ?_, ?_, ?_⟩
  · simp [hunreadable, Except.toBool]
  · simp [hdocs]
  · simp [hdocs]

theorem counts_undocumented {tree : FileTree} {cwd : Location}
    (h : g.documentAt tree cwd path = .ok none) (outputRoot : Path) (tally : Tally) :
    Counts g outputRoot tree cwd [path] tally { tally with scanned := tally.scanned + 1 } := by
  have hunreadable := unreadable_eq g tree cwd path
  have hdocs : g.documents tree cwd [path] = [] := by simp [documents, h]
  rw [h] at hunreadable
  refine ⟨rfl, ?_, ?_, ?_⟩
  · simp [hunreadable, Except.toBool]
  · simp [hdocs]
  · simp [hdocs]

theorem counts_document {tree : FileTree} {cwd : Location} {doc : Document}
    (h : g.documentAt tree cwd path = .ok (some doc)) (outputRoot : Path) (tally : Tally) :
    Counts g outputRoot tree cwd [path] tally
      (Tally.withPage { tally with scanned := tally.scanned + 1 }
        (g.outputPath outputRoot doc)) := by
  have hunreadable := unreadable_eq g tree cwd path
  have hdocs : g.documents tree cwd [path] = [doc] := by simp [documents, h]
  rw [h] at hunreadable
  refine ⟨rfl, ?_, ?_, ?_⟩
  · simp [hunreadable, Except.toBool, Tally.withPage]
  · simp [hdocs, Tally.withPage]
  · simp [hdocs, Tally.withPage]

/-- What a visit that ends without a fault can do: no more than messages, or to write the page of
the document between two of them. -/
theorem visit_cases {tree : FileTree} {cwd : Location} {tally' : Tally}
    (hdoc : g.documentAt w.tree w.cwd path = g.documentAt tree cwd path)
    (h : (g.visit outputRoot false tally path).perform w = (.ok tally', w')) :
    Counts g outputRoot tree cwd [path] tally tally' ∧
      ((g.documents tree cwd [path] = [] ∧ w.Aside w') ∨
        ∃ doc w1 tree', g.documents tree cwd [path] = [doc] ∧ w.Aside w1
          ∧ w1.tree.writeFile w1.cwd (g.outputPath outputRoot doc) (utf8Encode doc.page)
            = (tree', .ok ())
          ∧ ({ w1 with tree := tree' } : Workspace).Aside w') := by
  cases hat : g.documentAt tree cwd path with
  | error fault =>
    obtain ⟨w1, hvisit, haside⟩ := visit_unreadable (hdoc.trans hat) outputRoot false tally
    rw [h] at hvisit
    cases hvisit
    exact ⟨counts_unreadable hat outputRoot tally, Or.inl ⟨by simp [documents, hat], haside⟩⟩
  | ok doc? =>
    cases doc? with
    | none =>
      obtain ⟨w1, hvisit, haside⟩ := visit_undocumented (hdoc.trans hat) outputRoot false tally
      rw [h] at hvisit
      cases hvisit
      exact ⟨counts_undocumented hat outputRoot tally, Or.inl ⟨by simp [documents, hat], haside⟩⟩
    | some doc =>
      obtain ⟨rfl, w1, tree', haside, hwrite, haside'⟩ := visit_document (hdoc.trans hat) h
      exact ⟨counts_document hat outputRoot tally,
        Or.inr ⟨doc, w1, tree', by simp [documents, hat], haside, hwrite, haside'⟩⟩

/-- A visit keeps the working directory and the outlets of the log. -/
theorem visit_keeps {tally' : Tally}
    (h : (g.visit outputRoot false tally path).perform w = (.ok tally', w')) :
    w'.cwd = w.cwd ∧ w'.log = w.log := by
  obtain ⟨-, ⟨-, haside⟩ | ⟨doc, w1, tree', -, haside, -, haside'⟩⟩ := visit_cases rfl h
  · exact ⟨haside.cwd, haside.log⟩
  · exact ⟨haside'.cwd.trans haside.cwd, haside'.log.trans haside.log⟩

/-- Without a run log, a visit writes the page of the document and does nothing else to the tree. -/
theorem visit_tree {tree : FileTree} {cwd : Location} {tally' : Tally}
    (hwf : w.tree.WellFormed) (hwd : w.tree.get? w.cwd = some .directory)
    (hlog : w.log.runLogs = [])
    (hdoc : g.documentAt w.tree w.cwd path = g.documentAt tree cwd path)
    (h : (g.visit outputRoot false tally path).perform w = (.ok tally', w')) :
    (g.documents tree cwd [path] = [] ∧ w'.tree = w.tree) ∨
      ∃ doc, g.documents tree cwd [path] = [doc] ∧ FileTree.WritesFile w.cwd
        (g.outputPath outputRoot doc) (utf8Encode doc.page) w.tree w'.tree := by
  obtain ⟨-, ⟨hdocs, haside⟩ | ⟨doc, w1, tree', hdocs, haside, hwrite, haside'⟩⟩ :=
    visit_cases hdoc h
  · exact Or.inl ⟨hdocs, haside.tree hlog⟩
  · have hlast : w'.tree = tree' := haside'.tree (by rw [← hlog, ← haside.log])
    rw [haside.tree hlog, haside.cwd] at hwrite
    rw [hlast]
    exact Or.inr ⟨doc, hdocs, FileTree.writesFile_writeFile hwf hwd hwrite⟩

/-- A source file that cannot be read or has nothing to document does not end the run, and writes
nothing. -/
theorem exists_visit_of_documents_nil (hlog : w.log.runLogs = [])
    (h : g.documents w.tree w.cwd [path] = []) (outputRoot : Path) (tally : Tally) :
    ∃ tally' w', (g.visit outputRoot false tally path).perform w = (.ok tally', w')
      ∧ w'.tree = w.tree ∧ tally'.outputs = tally.outputs := by
  cases hat : g.documentAt w.tree w.cwd path with
  | error fault =>
    obtain ⟨w', hvisit, haside⟩ := visit_unreadable hat outputRoot false tally
    exact ⟨_, w', hvisit, haside.tree hlog, rfl⟩
  | ok doc? =>
    cases doc? with
    | none =>
      obtain ⟨w', hvisit, haside⟩ := visit_undocumented hat outputRoot false tally
      exact ⟨_, w', hvisit, haside.tree hlog, rfl⟩
    | some doc => exact absurd h (by simp [documents, hat])

/-- The documents of a listed file are the same all through the run. -/
theorem Running.documentAt {start : Workspace} {sourceRoot : Path} (hw : Running g start w)
    (hwf : start.tree.WellFormed)
    (hpath : path ∈ listedFiles g.eligible start.tree start.cwd sourceRoot) :
    g.documentAt w.tree w.cwd path = g.documentAt start.tree start.cwd path := by
  rw [Generator.documentAt, hw.cwd, hw.sources.readText hwf hpath, Generator.documentAt]

/-- **One visit**: it keeps the source files, is counted, and writes the page if there is one. -/
theorem visit_spec {start : Workspace} {sourceRoot : Path} {tally' : Tally}
    (hwf : start.tree.WellFormed) (hwd : start.tree.get? start.cwd = some .directory)
    (hlog : start.log.runLogs = [])
    (hpath : path ∈ listedFiles g.eligible start.tree start.cwd sourceRoot)
    (hname : ∀ doc ∈ g.documents start.tree start.cwd [path],
      g.eligible.hasExtension (g.outputPath outputRoot doc).name = false)
    (hw : Running g start w)
    (h : (g.visit outputRoot false tally path).perform w = (.ok tally', w')) :
    Running g start w' ∧ Counts g outputRoot start.tree start.cwd [path] tally tally'
      ∧ ∀ docs tree'', Wrote g outputRoot start.cwd docs w'.tree tree'' →
        Wrote g outputRoot start.cwd (g.documents start.tree start.cwd [path] ++ docs) w.tree
          tree'' := by
  have hdoc := hw.documentAt hwf hpath
  have hwd' : w.tree.get? w.cwd = some .directory := by
    rw [hw.cwd]
    exact hw.sources.grows.directory hwd
  have hkeeps := visit_keeps h
  have htree := visit_tree hw.sources.wellFormed hwd' (by rw [hw.log]; exact hlog) hdoc h
  refine ⟨⟨?_, hkeeps.1.trans hw.cwd, hkeeps.2.trans hw.log⟩, (visit_cases hdoc h).1,
    fun docs tree'' hrest => ?_⟩
  · rcases htree with ⟨-, hsame⟩ | ⟨doc, hdocs, hwrites⟩
    · rw [hsame]
      exact hw.sources
    · exact hw.sources.writesFile hwrites (hname doc (by rw [hdocs]; simp))
  · rw [hw.cwd] at htree
    exact hrest.visit htree

/-- **A run of visits** is the visits put together. -/
theorem foldlM_visit_spec {start : Workspace} {sourceRoot : Path} {files : List Path}
    {tally' : Tally} (hwf : start.tree.WellFormed)
    (hwd : start.tree.get? start.cwd = some .directory) (hlog : start.log.runLogs = [])
    (hfiles : ∀ path ∈ files, path ∈ listedFiles g.eligible start.tree start.cwd sourceRoot)
    (hname : ∀ doc ∈ g.documents start.tree start.cwd files,
      g.eligible.hasExtension (g.outputPath outputRoot doc).name = false)
    (hw : Running g start w)
    (h : (files.foldlM (g.visit outputRoot false) tally).perform w = (.ok tally', w')) :
    Running g start w' ∧ Counts g outputRoot start.tree start.cwd files tally tally'
      ∧ Wrote g outputRoot start.cwd (g.documents start.tree start.cwd files) w.tree w'.tree := by
  induction files generalizing tally w with
  | nil =>
    cases h
    exact ⟨hw, ⟨rfl, rfl, rfl, (List.append_nil _).symm⟩, .nil g outputRoot start.cwd w'.tree⟩
  | cons path files ih =>
    rw [List.foldlM_cons] at h
    obtain ⟨tally1, w1, hvisit, h⟩ := Action.exists_of_perform_bind h
    rw [documents_cons] at hname ⊢
    obtain ⟨hw1, hcounts, hwrote⟩ := visit_spec hwf hwd hlog (hfiles path List.mem_cons_self)
      (fun doc hdoc => hname doc (List.mem_append_left _ hdoc)) hw hvisit
    obtain ⟨hw', hcounts', hwrote'⟩ := ih
      (fun path hpath => hfiles path (List.mem_cons_of_mem _ hpath))
      (fun doc hdoc => hname doc (List.mem_append_right _ hdoc)) hw1 h
    exact ⟨hw', hcounts.cons hcounts', hwrote _ _ hwrote'⟩

/-- The walk of a run, from the workspace in which it starts. -/
theorem walk_spec {start : Workspace} {sourceRoot : Path} {tally' : Tally}
    (hwf : start.tree.WellFormed) (hwd : start.tree.get? start.cwd = some .directory)
    (hlog : start.log.runLogs = [])
    (hname : ∀ doc ∈ g.documents start.tree start.cwd
        (listedFiles g.eligible start.tree start.cwd sourceRoot),
      g.eligible.hasExtension (g.outputPath outputRoot doc).name = false)
    (h : (walk g.eligible (g.visit outputRoot false) sourceRoot tally).perform start
      = (.ok tally', w')) :
    (∃ isDir, start.tree.isDirectory start.cwd sourceRoot = .ok isDir)
      ∧ Running g start w'
      ∧ Counts g outputRoot start.tree start.cwd
        (listedFiles g.eligible start.tree start.cwd sourceRoot) tally tally'
      ∧ Wrote g outputRoot start.cwd (g.documents start.tree start.cwd
        (listedFiles g.eligible start.tree start.cwd sourceRoot)) start.tree w'.tree := by
  have hw : Running g start start := ⟨.refl hwf g.eligible, rfl, rfl⟩
  rw [perform_walk (I := Running g start) hwf (fun w' hw' => ⟨hw'.sources, hw'.cwd⟩) ?_ tally
    hw] at h
  · split at h
    · rename_i isDir hdir
      exact ⟨⟨isDir, hdir⟩, foldlM_visit_spec hwf hwd hlog (fun _ hpath => hpath) hname hw h⟩
    · exact absurd h (by simp)
  · intro path hpath tally w tally' w' hw h
    refine (visit_spec hwf hwd hlog hpath (fun doc hdoc => hname doc ?_) hw h).1
    obtain ⟨path', hpath', hdoc⟩ := List.mem_filterMap.1 hdoc
    rw [List.mem_singleton.1 hpath'] at hdoc
    exact List.mem_filterMap.2 ⟨path, hpath, hdoc⟩

/-- A run that ends without a fault is a walk between messages. -/
theorem run_cases {sourceRoot : Path}
    (h : (g.run sourceRoot outputRoot false).perform w = (.ok tally, w')) :
    ∃ w1 w2, w.Aside w1 ∧ (walk g.eligible (g.visit outputRoot false) sourceRoot {}).perform w1
      = (.ok tally, w2) ∧ w2.Aside w' := by
  rw [run] at h
  obtain ⟨_, w1, hsay1, h⟩ := Action.exists_of_perform_bind h
  obtain ⟨_, w2, hsay2, h⟩ := Action.exists_of_perform_bind h
  obtain ⟨tally', w3, hwalk, h⟩ := Action.exists_of_perform_bind h
  obtain ⟨_, w4, hsay4, h⟩ := Action.exists_of_perform_bind h
  cases h
  have haside := (Action.aside_of_perform_say hsay1).trans (Action.aside_of_perform_say hsay2)
  exact ⟨w2, w3, haside, hwalk, Action.aside_of_perform_say hsay4⟩

/-- The counts and the pages of a run that ends without a fault, from a workspace without a run log,
where no page is named like a source file. -/
theorem run_spec {sourceRoot : Path} (hwf : w.tree.WellFormed)
    (hwd : w.tree.get? w.cwd = some .directory) (hlog : w.log.runLogs = [])
    (hname : ∀ doc ∈ g.documents w.tree w.cwd (listedFiles g.eligible w.tree w.cwd sourceRoot),
      g.eligible.hasExtension (g.outputPath outputRoot doc).name = false)
    (h : (g.run sourceRoot outputRoot false).perform w = (.ok tally, w')) :
    (∃ isDir, w.tree.isDirectory w.cwd sourceRoot = .ok isDir)
      ∧ Counts g outputRoot w.tree w.cwd (listedFiles g.eligible w.tree w.cwd sourceRoot) {} tally
      ∧ Wrote g outputRoot w.cwd (g.documents w.tree w.cwd
        (listedFiles g.eligible w.tree w.cwd sourceRoot)) w.tree w'.tree := by
  obtain ⟨w1, w2, haside, hwalk, haside'⟩ := run_cases h
  have htree1 : w1.tree = w.tree := haside.tree hlog
  have hlog1 : w1.log.runLogs = [] := by
    rw [haside.log]
    exact hlog
  rw [← htree1, ← haside.cwd] at hname
  obtain ⟨hdir, hw2, hcounts, hwrote⟩ := walk_spec (by rw [htree1]; exact hwf)
    (by rw [htree1, haside.cwd]; exact hwd) hlog1 hname hwalk
  have htree2 : w'.tree = w2.tree := haside'.tree (by rw [hw2.log]; exact hlog1)
  rw [htree1, haside.cwd] at hdir hcounts hwrote
  rw [htree2]
  exact ⟨hdir, hcounts, hwrote⟩

/-- **The effect of a run** that ends without a fault, from a workspace without a run log, where no
page is named like a source file. The counts are those of the source files of the start: all that
are listed, those that cannot be read as text, and those with a document. The outputs are the pages
of the documents in their order, each in the directory of its category below the output root, under
its name with the extension. The last page that goes to a place stays there, above the pages are
directories, and nothing else is new. A file without a document never ends the run. -/
theorem run_effect (g : Generator) (sourceRoot outputRoot : Path) {w w' : Workspace} {tally : Tally}
    (hwf : w.tree.WellFormed) (hwd : w.tree.get? w.cwd = some .directory)
    (hlog : w.log.runLogs = [])
    (hname : ∀ doc ∈ g.documents w.tree w.cwd (listedFiles g.eligible w.tree w.cwd sourceRoot),
      g.eligible.hasExtension (g.outputPath outputRoot doc).name = false)
    (h : (g.run sourceRoot outputRoot false).perform w = (.ok tally, w')) :
    ∃ files, (sourceFiles g.eligible sourceRoot).perform w = (.ok files, w)
      ∧ tally.scanned = files.length
      ∧ tally.skipped = files.countP (unreadable w.tree w.cwd)
      ∧ tally.generated = tally.outputs.length
      ∧ tally.outputs = (g.documents w.tree w.cwd files).map (fun doc =>
        (outputRoot.joinText doc.category).joinText (doc.name ++ g.outputExtension))
      ∧ (∀ path ∈ files, ∃ bytes, w.tree.get? (path.locate w.cwd) = some (.file bytes)
        ∧ (unreadable w.tree w.cwd path = true ↔
          (utf8Decode bytes).isOk = false ∨ 4096 ≤ path.toString.utf8ByteSize))
      ∧ (∀ loc, w'.tree.get? loc =
        match g.lastAt? outputRoot w.cwd (g.documents w.tree w.cwd files) loc with
        | some doc => some (.file (utf8Encode doc.page))
        | none =>
          if g.isAbove outputRoot w.cwd (g.documents w.tree w.cwd files) loc then some .directory
          else w.tree.get? loc)
      ∧ (∀ loc, g.isAbove outputRoot w.cwd (g.documents w.tree w.cwd files) loc = true →
        w.tree.get? loc = none ∨ w.tree.get? loc = some .directory)
      ∧ ∀ path ∈ files, g.documents w.tree w.cwd [path] = [] → ∀ w1, Running g w w1 → ∀ before,
        ∃ after w2, (g.visit outputRoot false before path).perform w1 = (.ok after, w2)
          ∧ w2.tree = w1.tree ∧ after.outputs = before.outputs := by
  obtain ⟨⟨isDir, hdir⟩, hcounts, hwrote⟩ := run_spec hwf hwd hlog hname h
  refine ⟨listedFiles g.eligible w.tree w.cwd sourceRoot, perform_sourceFiles hwf hdir, ?_, ?_, ?_,
    ?_, fun path hpath => ?_, hwrote.get?, hwrote.above, fun path hpath hnone w1 hw1 before => ?_⟩
  · rw [hcounts.scanned]
    exact Nat.zero_add _
  · rw [hcounts.skipped]
    exact Nat.zero_add _
  · rw [hcounts.generated, hcounts.outputs]
    simp
  · rw [hcounts.outputs]
    rfl
  · obtain ⟨bytes, hsource⟩ := exists_isSource_of_mem_listedFiles hwf hpath
    exact ⟨bytes, (FileTree.follow_of_followNames hsource.found).2, unreadable_iff hsource⟩
  · refine exists_visit_of_documents_nil (by rw [hw1.log]; exact hlog) ?_ outputRoot before
    rw [documents, List.filterMap_cons, hw1.documentAt hwf hpath]
    exact hnone

/-- Three source files, one below the other: the first and the last have a document whose page goes
to the same place, and the one between them is no text. -/
def nested : Workspace where
  tree := ⟨[(["src"], .directory),
    (["src", "a.d"], .file (utf8Encode "void first(ref Evaluation e)")),
    (["src", "more"], .directory),
    (["src", "more", "b.d"], .file [0xff]),
    (["src", "more", "more"], .directory),
    (["src", "more", "more", "a.d"], .file (utf8Encode "void second(ref Evaluation e)"))]⟩

theorem exists_run_nested :
    ∃ tally w', (run { extractors := [.identifier] } ⟨.here, ["src"]⟩ ⟨.here, ["out"]⟩
      false).perform nested = (.ok tally, w') := by
  have hok : ((run { extractors := [.identifier] } ⟨.here, ["src"]⟩ ⟨.here, ["out"]⟩
      false).perform nested).1.isOk = true := by decide +kernel
  rcases hrun : (run { extractors := [.identifier] } ⟨.here, ["src"]⟩ ⟨.here, ["out"]⟩
    false).perform nested with ⟨fault | tally, w'⟩
  · rw [hrun] at hok
    exact absurd hok (by simp [Except.toBool])
  · exact ⟨tally, w', rfl⟩

/-- The run on the three files counts them, and the page of the last one stays. -/
theorem run_effect_nested :
    ∃ tally w', (run { extractors := [.identifier] } ⟨.here, ["src"]⟩ ⟨.here, ["out"]⟩
        false).perform nested = (.ok tally, w')
      ∧ tally.scanned = 3 ∧ tally.skipped = 1 ∧ tally.generated = 2
      ∧ w'.tree.get? ["out", "other", "a.mdx"] = some (.file (utf8Encode
        (Document.page { name := "a", identifier? := some "second" }))) := by
  obtain ⟨tally, w', h⟩ := exists_run_nested
  obtain ⟨files, hfiles, hscanned, hskipped, hgenerated, houtputs, -, htree, -, -⟩ :=
    run_effect _ _ _ (by decide) rfl rfl (by decide +kernel) h
  have hlist : ((sourceFiles {} ⟨.here, ["src"]⟩).perform nested).1.toOption = some
      [⟨.here, ["src", "a.d"]⟩, ⟨.here, ["src", "more", "b.d"]⟩,
        ⟨.here, ["src", "more", "more", "a.d"]⟩] := by decide +kernel
  rw [hfiles] at hlist
  obtain rfl : files = _ := Option.some.inj hlist
  refine ⟨tally, w', h, hscanned, ?_, ?_, ?_⟩
  · rw [hskipped]
    decide +kernel
  · rw [hgenerated, houtputs]
    decide +kernel
  · rw [htree]
    decide +kernel

end Generator
end RefPages
