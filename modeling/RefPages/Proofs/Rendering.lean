import RefPages.Command.Run
import RefPages.Proofs.FileTree.NulPath
import RefPages.Proofs.Outputs
import RefPages.Proofs.Pages
import RefPages.Proofs.RunFault
import RefPages.Proofs.RunLog

/-!
# Rendering a source file

A page is made from the name of its source file, without the extension, and from the text of that
file. Where the file is decides where the page goes, and nothing of what is on it. So the page that
is printed for a file is the one that a run writes for it.

* `Generator.rendered` is what rendering a file gives in a workspace: a page, nothing, or a fault.
  `rendered_eq` says that it is decided by the tree and the working directory.
* `Generator.rendered_elsewhere`: **files of the same stem with the same text have the same page**,
  wherever they are.
* `visit_rendered`: what a visit does is decided by what rendering the file gives.
* `runShow_rendered`: the same for printing one page.
* `Generator.run_writes_rendered`: **a run writes what rendering its source files gives.**
-/

set_option autoImplicit false
namespace RefPages

open Text

/-! ## Pages without a place -/

/-- Only the stem of a source file's path counts for what is found in it. -/
theorem Extractor.facts_elsewhere {p q : Path} (h : p.stem = q.stem) (text : String)
    (kind : Extractor) : kind.facts ⟨p, text⟩ = kind.facts ⟨q, text⟩ := by
  cases kind with
  | aliases => simp only [facts, SourceFile.name, h]
  | _ => rfl

theorem SourceFile.facts_elsewhere {p q : Path} (h : p.stem = q.stem) (text : String)
    (extractors : List Extractor) :
    SourceFile.facts ⟨p, text⟩ extractors = SourceFile.facts ⟨q, text⟩ extractors := by
  simp only [facts, Extractor.facts_elsewhere h]

/-- Only the stem of a path counts for the document that facts give, besides the path itself and the
category. -/
theorem Document.ofKinds?_elsewhere {p q : Path} (h : p.stem = q.stem)
    (categories categories' : CategoryMap) (facts : List Fact) :
    ofKinds? categories' q facts = (ofKinds? categories p facts).map fun doc =>
      { doc with path := q, category := categories'.categoryOf q } := by
  have hdoc : ofKinds categories' q facts = { ofKinds categories p facts with
      path := q, category := categories'.categoryOf q } := by
    simp only [ofKinds, h]
  have hcontent : (ofKinds categories' q facts).hasContent
      = (ofKinds categories p facts).hasContent := by
    rw [hdoc]
    rfl
  rw [ofKinds?, ofKinds?, hcontent, hdoc]
  split <;> rfl

theorem Document.ofFacts?_elsewhere {p q : Path} (h : p.stem = q.stem)
    (categories categories' : CategoryMap) (facts : List Fact) :
    ofFacts? categories' q facts = (ofFacts? categories p facts).map (Option.map fun doc =>
      { doc with path := q, category := categories'.categoryOf q }) := by
  by_cases hlong : LongAmong facts
  · rw [ofFacts?_of_longAmong hlong, ofFacts?_of_longAmong hlong]
    rfl
  · rw [ofFacts?_of_not_longAmong hlong, ofFacts?_of_not_longAmong hlong,
      ofKinds?_elsewhere h categories]
    rfl

/-- Neither the path nor the category of a document is on its page. -/
theorem Document.page_elsewhere (doc : Document) (path : Path) (category : String) :
    Document.page { doc with path, category } = doc.page := rfl

namespace Generator

variable {g : Generator} {outputRoot sourceRoot path : Path} {w : Workspace} {tally : Tally}

/-! ## Rendering -/

/-- What rendering a source file gives in a workspace. -/
def rendered (g : Generator) (w : Workspace) (path : Path) : Except Fault (Option String) :=
  ((g.render path).perform w).1

/-- Rendering gives the page of the file's document, and prints nothing itself. -/
theorem perform_render (g : Generator) (path : Path) (w : Workspace) :
    ∃ w', (g.render path).perform w =
        (((g.documentAt w.tree w.cwd path).map (Option.map Document.page)).mapError Fault.read, w')
      ∧ w.Aside w' := by
  obtain ⟨w', hextract, haside⟩ := perform_extract g path w
  refine ⟨w', ?_, haside⟩
  cases hdoc : g.documentAt w.tree w.cwd path with
  | error fault =>
    rw [hdoc] at hextract
    rw [render, Action.perform_bind_error hextract]
    rfl
  | ok doc? =>
    rw [hdoc] at hextract
    rw [render, Action.perform_bind_ok hextract]
    rfl

/-- What rendering gives is decided by the tree and the working directory. -/
theorem rendered_eq (g : Generator) (w : Workspace) (path : Path) :
    g.rendered w path
      = ((g.documentAt w.tree w.cwd path).map (Option.map Document.page)).mapError Fault.read := by
  obtain ⟨w', hrender, -⟩ := perform_render g path w
  rw [rendered, hrender]

/-- A fault of rendering is the system's, or that the file is no text, unless the path holds NUL. -/
theorem isNul_of_rendered {w : Workspace} {path : Path} {fault : Fault}
    (h : g.rendered w path = .error fault) : fault.isNul = path.holdsNul := by
  rw [rendered_eq, documentAt, FileTree.readText] at h
  cases hcontents : w.tree.contents w.cwd path with
  | error cause =>
    rw [hcontents] at h
    cases h
    rw [Fault.isNul, FileTree.isSystem_of_contents hcontents, Bool.not_not]
  | ok bytes =>
    have hnul : path.holdsNul = false := FileTree.holdsNul_of_contents hcontents
    rw [hcontents] at h
    simp only at h
    cases htext : readText bytes with
    | error cause =>
      rw [htext] at h
      cases h
      rw [hnul]
      rfl
    | ok text =>
      rw [htext] at h
      cases h

/-- **Files of the same stem with the same text have the same page**, whatever the categories are
and wherever the files are. -/
theorem rendered_elsewhere {g' : Generator} {w₁ w₂ : Workspace} {p₁ p₂ : Path} {text : String}
    (hextractors : g'.extractors = g.extractors) (hstem : p₁.stem = p₂.stem)
    (h₁ : w₁.tree.readText w₁.cwd p₁ = .ok text) (h₂ : w₂.tree.readText w₂.cwd p₂ = .ok text) :
    ∃ page?, g.rendered w₁ p₁ = .ok page? ∧ g'.rendered w₂ p₂ = .ok page? := by
  have hfacts := SourceFile.facts_elsewhere hstem text g.extractors
  refine ⟨(Document.ofKinds? g.categories p₁
    (SourceFile.facts ⟨p₁, text⟩ g.extractors)).map Document.page, ?_, ?_⟩
  · rw [rendered_eq, documentAt, h₁]
    rfl
  · rw [rendered_eq, documentAt, h₂, hextractors]
    refine congrArg Except.ok ?_
    simp only [← hfacts, Document.ofKinds?_elsewhere hstem g.categories, Option.map_map,
      Function.comp_def, Document.page_elsewhere]

/-! ## Visits -/

/-- The path of the page of a source file. -/
def pagePath (g : Generator) (outputRoot path : Path) : Path :=
  (outputRoot.joinText (g.categories.categoryOf path)).joinText (path.stem ++ g.outputExtension)

theorem outputPath_of_documentAt {tree : FileTree} {cwd : Location} {doc : Document}
    (h : g.documentAt tree cwd path = .ok (some doc)) (outputRoot : Path) :
    g.outputPath outputRoot doc = g.pagePath outputRoot path := by
  rw [documentAt] at h
  cases htext : tree.readText cwd path with
  | error fault =>
    rw [htext] at h
    exact absurd h (by simp [Except.map])
  | ok text =>
    rw [htext] at h
    obtain rfl := Document.eq_ofKinds_of_ofKinds? (Except.ok.inj h)
    rfl

/-- **A visit does what rendering the file says.** If that is a fault, the file is skipped; if there
is no page, it is only counted; a page is written as it is. -/
theorem visit_rendered (g : Generator) (outputRoot : Path) (tally : Tally) (path : Path)
    (w : Workspace) :
    match g.rendered w path with
    | .error _ => ∃ w', (g.visit outputRoot false tally path).perform w =
        (.ok { tally with scanned := tally.scanned + 1, skipped := tally.skipped + 1 }, w')
      ∧ w.Aside w'
    | .ok none => ∃ w', (g.visit outputRoot false tally path).perform w =
        (.ok { tally with scanned := tally.scanned + 1 }, w') ∧ w.Aside w'
    | .ok (some page) => ∃ w1, w.Aside w1 ∧
      match w1.tree.writeFile w1.cwd (g.pagePath outputRoot path) (utf8Encode page) with
      | (tree, .error fault) => (g.visit outputRoot false tally path).perform w =
          (.error (Fault.file fault), { w1 with tree })
      | (tree, .ok ()) => ∃ w', (g.visit outputRoot false tally path).perform w =
          (.ok (Tally.withPage { tally with scanned := tally.scanned + 1 }
            (g.pagePath outputRoot path)), w')
        ∧ ({ w1 with tree } : Workspace).Aside w' := by
  rw [rendered_eq]
  cases hdoc : g.documentAt w.tree w.cwd path with
  | error fault => exact visit_unreadable hdoc outputRoot false tally
  | ok doc? =>
    cases doc? with
    | none => exact visit_undocumented hdoc outputRoot false tally
    | some doc =>
      -- Before the page is written, the log says what was found.
      obtain ⟨w1, haside, hvisit⟩ := perform_visit g outputRoot false tally path w
      have hok : (Except.ok (some doc)).mapError Fault.read = .ok (some doc) := rfl
      rw [hdoc, hok] at hvisit
      simp only at hvisit
      rw [generate, outputPath_of_documentAt hdoc] at hvisit
      simp only [Bool.not_false, if_true] at hvisit
      rw [Action.perform_bind_ok (Action.perform_say _ _ _ w1), perform_writeFile] at hvisit
      generalize hsay : w1.say _ = w2 at hvisit
      refine ⟨w2, haside.trans (hsay ▸ w1.aside_say _), ?_⟩
      split
      · rename_i tree fault hwrite
        rw [hwrite] at hvisit
        exact hvisit
      · rename_i tree hwrite
        rw [hwrite] at hvisit
        exact ⟨_, hvisit, Workspace.aside_say _ _⟩

/-! ## Runs -/

/-- The files that rendering source files makes. -/
def renderedFiles (g : Generator) (outputRoot : Path) (w : Workspace) (files : List Path) :
    List (Path × List UInt8) :=
  files.filterMap fun path =>
    match g.rendered w path with
    | .ok (some page) => some (g.pagePath outputRoot path, utf8Encode page)
    | _ => none

theorem pages_documents (g : Generator) (outputRoot : Path) (w : Workspace) (files : List Path) :
    g.pages outputRoot (g.documents w.tree w.cwd files) = g.renderedFiles outputRoot w files := by
  rw [pages, documents, renderedFiles, List.map_filterMap]
  refine congrArg (List.filterMap · files) (funext fun path => ?_)
  rw [rendered_eq]
  cases hdoc : g.documentAt w.tree w.cwd path with
  | error fault => rfl
  | ok doc? =>
    cases doc? with
    | none => rfl
    | some doc =>
      rw [← outputPath_of_documentAt hdoc]
      rfl

theorem unreadable_eq_rendered (g : Generator) (w : Workspace) (path : Path) :
    unreadable w.tree w.cwd path = !(g.rendered w path).isOk := by
  rw [unreadable_eq g, rendered_eq]
  cases g.documentAt w.tree w.cwd path <;> rfl

/-- **A run writes what rendering its source files gives**, as they are at the start, and skips
those that cannot be rendered. -/
theorem run_writes_rendered {files : List Path} (hwf : w.tree.WellFormed)
    (hwd : w.tree.get? w.cwd = some .directory) (hlog : w.log.runLogs = [])
    (hfiles : (sourceFiles g.eligible sourceRoot).perform w = (.ok files, w))
    (hname : ∀ path ∈ files, ∀ page, g.rendered w path = .ok (some page) →
      g.eligible.hasExtension (g.pagePath outputRoot path).name = false) :
    ∃ tally, Action.Writes w (g.renderedFiles outputRoot w files)
        (g.run sourceRoot outputRoot false) tally
      ∧ tally.scanned = files.length
      ∧ tally.skipped = files.countP (fun path => !(g.rendered w path).isOk)
      ∧ tally.outputs = (g.renderedFiles outputRoot w files).map (·.1)
      ∧ ∀ path ∈ files, ∀ w1, Running g w w1 → g.rendered w1 path = g.rendered w path := by
  have hdir : ∃ isDir, w.tree.isDirectory w.cwd sourceRoot = .ok isDir := by
    rw [sourceFiles, perform_walk (I := (· = w)) hwf ?_ ?_ [] rfl] at hfiles
    · split at hfiles
      · exact ⟨_, ‹_›⟩
      · exact absurd hfiles (by simp)
    · rintro w' rfl
      exact ⟨.refl hwf g.eligible, rfl⟩
    · rintro path - a w1 a' w' rfl h
      cases h
      rfl
  obtain ⟨isDir, hdir⟩ := hdir
  rw [perform_sourceFiles hwf hdir] at hfiles
  obtain rfl := Except.ok.inj (Prod.mk.inj hfiles).1
  refine ⟨g.count outputRoot w.tree w.cwd (listedFiles g.eligible w.tree w.cwd sourceRoot) {}, ?_,
    ?_, ?_, ?_, fun path hpath w1 hw1 => ?_⟩
  · rw [← pages_documents]
    refine run_writes g outputRoot hwf hwd hlog (fun doc hdoc => ?_) hdir
    obtain ⟨path, hpath, hfound⟩ := List.mem_filterMap.1 hdoc
    have hat := documentAt_eq hfound
    rw [outputPath_of_documentAt hat]
    exact hname path hpath doc.page (by rw [rendered_eq, hat]; rfl)
  · exact Nat.zero_add _
  · refine (Nat.zero_add _).trans ?_
    rw [funext (unreadable_eq_rendered g w)]
  · rw [← pages_documents, pages, List.map_map]
    rfl
  · rw [rendered_eq, rendered_eq, hw1.documentAt hwf hpath]

end Generator

/-! ## Printing a page -/

namespace Command

open Generator

/-- **The command prints what rendering the file gives**, and no more: the page as it is, or a line
that says there is none. A file that cannot be read is reported elsewhere, and a path that holds NUL
is not. -/
theorem runShow_rendered {pathText : String} {path : Path} {w : Workspace} (g : Generator)
    (hpath : (Path.ofString pathText).expandHome w.homes = .ok path) :
    match g.rendered w path with
    | .error fault => ∃ w', (runShow pathText g).perform w
        = (if fault.isNul then .error fault else .ok 1, w') ∧ w'.output = w.output
    | .ok none => ∃ w', (runShow pathText g).perform w = (.ok 0, w')
      ∧ w'.output = w.output ++ (shownPath w.cwd path ++ " has nothing to document\n")
    | .ok (some page) => ∃ w', (runShow pathText g).perform w = (.ok 0, w')
      ∧ w'.output = w.output ++ page := by
  obtain ⟨w1, hrender, haside⟩ := perform_render g path w
  have houtput := haside.output
  have hattempt := Action.perform_attempt (g.render path) w
  rw [hrender] at hattempt
  have hlift : (Action.lift ((Path.ofString pathText).expandHome w.homes)).perform w
      = (.ok path, w) := by rw [Action.perform_lift, hpath]
  rw [runShow, Action.perform_bind_ok (Action.perform_get w), Action.perform_bind_ok hlift,
    Action.perform_bind_ok (Action.perform_get w), Action.perform_bind_ok hattempt, rendered_eq]
  rcases (g.documentAt w.tree w.cwd path).map (Option.map Document.page) with fault | page?
  · simp only [Except.mapError, fault.isNul_eq]
    cases hreported : fault.isReported with
    | false => exact ⟨w1, rfl, houtput⟩
    | true => exact ⟨_, rfl, houtput⟩
  · cases page? with
    | none => exact ⟨_, rfl, by rw [← houtput]⟩
    | some page => exact ⟨_, rfl, by rw [← houtput]⟩

/-- Carrying out a request whose settings can be loaded: the log is configured, and the rest is done
by the generator that the settings choose. -/
theorem perform_runRequest (request : Request) {config : String} {settings : Settings}
    {w : Workspace} (hconfig : request.given.config? = some config)
    (hload : Settings.load w.tree w.cwd w.homes (Path.ofString config) = .ok settings) :
    (runRequest request).perform w = (do
      Action.configureLog request.given.verbose request.given.quiet settings.logFile?
      match Generator.ofSettings settings with
      | .error unknown => giveUp (unknown.message ++ "\n")
      | .ok generator =>
        match request with
        | .extract given => runExtract given settings generator
        | .showPage _ path => runShow path generator).perform w := by
  rw [runRequest]
  simp only [hconfig]
  rewrite [Action.perform_bind_ok (Action.perform_get w), hload]
  rfl

end Command

namespace Generator

/-- **What is printed for a source file is what a run writes for it**, and it does not depend on
where the file is.

* Rendering gives the same for any two files that can be read, have the same stem and the same text,
  whatever else the generators choose besides the extractors.
* Asked to show a file, the command prints its page and nothing else; the exit code is 1 exactly if
  rendering ends in a fault, unless the path holds NUL, which is the end of the command.
* A visit of the file writes that page, or nothing if there is none, and skips the file if rendering
  ends in a fault.
* From a workspace without a run log, where no page is named like a source file, the run writes the
  pages that its source files have at the start, one after the other, and counts as skipped those
  whose rendering ends in a fault. On its way, rendering them always gives the same. -/
theorem render_agrees (g : Generator) :
    (∀ (g' : Generator) (w₁ w₂ : Workspace) (p₁ p₂ : Path) (text : String),
        g'.extractors = g.extractors → p₁.stem = p₂.stem →
        w₁.tree.readText w₁.cwd p₁ = .ok text → w₂.tree.readText w₂.cwd p₂ = .ok text →
        ∃ page?, g.rendered w₁ p₁ = .ok page? ∧ g'.rendered w₂ p₂ = .ok page?)
      ∧ (∀ (given : Command.Given) (config pathText : String) (settings : Settings) (path : Path)
          (w w1 : Workspace), given.config? = some config →
        Settings.load w.tree w.cwd w.homes (Path.ofString config) = .ok settings →
        (Action.configureLog given.verbose given.quiet settings.logFile?).perform w = (.ok (), w1) →
        ofSettings settings = .ok g → (Path.ofString pathText).expandHome w.homes = .ok path →
        ∃ result w', (Command.runRequest (.showPage given pathText)).perform w = (result, w')
          ∧ match g.rendered w1 path with
            | .error fault => result = (if path.holdsNul then .error fault else .ok 1)
              ∧ w'.output = w.output
            | .ok none => result = .ok 0 ∧ w'.output
              = w.output ++ (Command.shownPath w.cwd path ++ " has nothing to document\n")
            | .ok (some page) => result = .ok 0 ∧ w'.output = w.output ++ page)
      ∧ (∀ (outputRoot : Path) (tally : Tally) (path : Path) (w : Workspace),
        match g.rendered w path with
        | .error _ => ∃ w', (g.visit outputRoot false tally path).perform w =
            (.ok { tally with scanned := tally.scanned + 1, skipped := tally.skipped + 1 }, w')
          ∧ w.Aside w'
        | .ok none => ∃ w', (g.visit outputRoot false tally path).perform w =
            (.ok { tally with scanned := tally.scanned + 1 }, w') ∧ w.Aside w'
        | .ok (some page) => ∃ w1, w.Aside w1 ∧
          match w1.tree.writeFile w1.cwd (g.pagePath outputRoot path) (utf8Encode page) with
          | (tree, .error fault) => (g.visit outputRoot false tally path).perform w =
              (.error (Fault.file fault), { w1 with tree })
          | (tree, .ok ()) => ∃ w', (g.visit outputRoot false tally path).perform w =
              (.ok (Tally.withPage { tally with scanned := tally.scanned + 1 }
                (g.pagePath outputRoot path)), w')
            ∧ ({ w1 with tree } : Workspace).Aside w')
      ∧ ∀ (sourceRoot outputRoot : Path) (w : Workspace) (files : List Path), w.tree.WellFormed →
        w.tree.get? w.cwd = some .directory → w.log.runLogs = [] →
        (sourceFiles g.eligible sourceRoot).perform w = (.ok files, w) →
        (∀ path ∈ files, ∀ page, g.rendered w path = .ok (some page) →
          g.eligible.hasExtension (g.pagePath outputRoot path).name = false) →
        ∃ tally, Action.Writes w (g.renderedFiles outputRoot w files)
            (g.run sourceRoot outputRoot false) tally
          ∧ tally.scanned = files.length
          ∧ tally.skipped = files.countP (fun path => !(g.rendered w path).isOk)
          ∧ tally.outputs = (g.renderedFiles outputRoot w files).map (·.1)
          ∧ ∀ path ∈ files, ∀ w1, Running g w w1 → g.rendered w1 path = g.rendered w path := by
  refine ⟨fun _ _ _ _ _ _ => rendered_elsewhere, ?_, g.visit_rendered,
    fun _ _ _ _ hwf hwd hlog hfiles => run_writes_rendered hwf hwd hlog hfiles⟩
  intro given config pathText settings path w w1 hconfig hload hconfigure hg hpath
  obtain ⟨tree, log, hw1⟩ :=
    Action.exists_configureLog given.verbose given.quiet settings.logFile? w
  rw [hconfigure] at hw1
  obtain rfl : w1 = _ := hw1
  have hshow := Command.runShow_rendered (w := { w with tree, log }) g hpath
  have hrequest : (Command.runRequest (.showPage given pathText)).perform w
      = (Command.runShow pathText g).perform { w with tree, log } := by
    rw [Command.perform_runRequest (.showPage given pathText) hconfig hload]
    refine (Action.perform_bind_ok hconfigure).trans ?_
    rw [hg]
  rw [hrequest]
  cases hresult : g.rendered { w with tree, log } path with
  | error fault =>
    rw [hresult] at hshow
    obtain ⟨w', hperform, houtput⟩ := hshow
    rw [isNul_of_rendered hresult] at hperform
    exact ⟨_, w', hperform, rfl, houtput⟩
  | ok page? =>
    rw [hresult] at hshow
    cases page? with
    | none =>
      obtain ⟨w', hperform, houtput⟩ := hshow
      exact ⟨.ok 0, w', hperform, rfl, houtput⟩
    | some page =>
      obtain ⟨w', hperform, houtput⟩ := hshow
      exact ⟨.ok 0, w', hperform, rfl, houtput⟩

/-- A copy of the first of the three nested source files, next to where one works. -/
def elsewhere : Workspace where
  tree := ⟨[(["equality"], .directory),
    (["equality", "a.d"], .file (utf8Encode "void first(ref Evaluation e)"))]⟩
  cwd := ["equality"]

/-- The first of the three nested source files has the page of its copy, and the command prints it.
The second is skipped. The run leaves the page of the last one, whose place is that of the first. -/
theorem render_agrees_nested :
    (∃ page?, rendered {} nested ⟨.here, ["src", "a.d"]⟩ = .ok page?
        ∧ rendered { outputExtension := ".md" } elsewhere ⟨.here, ["a.d"]⟩ = .ok page?)
      ∧ (∃ result w', (Command.runRequest (.showPage {} "src/a.d")).perform nested = (result, w')
        ∧ result = .ok 0
        ∧ w'.output = nested.output ++ Document.page { name := "a", identifier? := some "first" })
      ∧ (∃ w', (visit {} ⟨.here, ["out"]⟩ false {} ⟨.here, ["src", "more", "b.d"]⟩).perform nested
          = (.ok { scanned := 1, skipped := 1 }, w'))
      ∧ ∃ tally w', (run {} ⟨.here, ["src"]⟩ ⟨.here, ["out"]⟩ false).perform nested
          = (.ok tally, w')
        ∧ tally.scanned = 3 ∧ tally.skipped = 1
        ∧ w'.tree.get? ["out", "other", "a.mdx"] = some (.file (utf8Encode
          (Document.page { name := "a", identifier? := some "second" }))) := by
  obtain ⟨helsewhere, hshow, hvisit, hrun⟩ := render_agrees {}
  refine ⟨?_, ?_, ?_, ?_⟩
  · have htext : nested.tree.readText nested.cwd ⟨.here, ["src", "a.d"]⟩
        = .ok "void first(ref Evaluation e)" := by decide +kernel
    have hcopy : elsewhere.tree.readText elsewhere.cwd ⟨.here, ["a.d"]⟩
        = .ok "void first(ref Evaluation e)" := by decide +kernel
    exact helsewhere _ _ _ _ _ _ rfl (by decide) htext hcopy
  · have hload : Settings.load nested.tree nested.cwd nested.homes (Path.ofString ".")
        = .ok (Settings.defaults ⟨.root, []⟩) := by decide +kernel
    have hpage : rendered {} { nested with log := { level := 20, outlets := [.console 20] } }
        ⟨.here, ["src", "a.d"]⟩
          = .ok (some (Document.page { name := "a", identifier? := some "first" })) := by
      decide +kernel
    have hprinted := hshow {} "." "src/a.d" _ ⟨.here, ["src", "a.d"]⟩ nested
      { nested with log := { level := 20, outlets := [.console 20] } } rfl hload rfl rfl (by decide)
    rw [hpage] at hprinted
    exact hprinted
  · have hskips := hvisit ⟨.here, ["out"]⟩ {} ⟨.here, ["src", "more", "b.d"]⟩ nested
    have hfault : (rendered {} nested ⟨.here, ["src", "more", "b.d"]⟩).isOk = false := by
      decide +kernel
    cases hresult : rendered {} nested ⟨.here, ["src", "more", "b.d"]⟩ with
    | error fault =>
      rw [hresult] at hskips
      obtain ⟨w', hperform, -⟩ := hskips
      exact ⟨w', hperform⟩
    | ok page? =>
      rw [hresult] at hfault
      exact absurd hfault (by simp [Except.toBool])
  · have hdir : nested.tree.isDirectory nested.cwd ⟨.here, ["src"]⟩ = .ok true := by decide
    have hfiles := perform_sourceFiles (e := {}) (w := nested) (by decide) hdir
    have hlisted : listedFiles {} nested.tree nested.cwd ⟨.here, ["src"]⟩
        = [⟨.here, ["src", "a.d"]⟩, ⟨.here, ["src", "more", "b.d"]⟩,
          ⟨.here, ["src", "more", "more", "a.d"]⟩] := by decide +kernel
    rw [hlisted] at hfiles
    have hname : ∀ path ∈ ([⟨.here, ["src", "a.d"]⟩, ⟨.here, ["src", "more", "b.d"]⟩,
        ⟨.here, ["src", "more", "more", "a.d"]⟩] : List Path), Eligibility.hasExtension {}
          (pagePath {} ⟨.here, ["out"]⟩ path).name = false := by decide
    obtain ⟨tally, ⟨w', hperform, htree, -⟩, hscanned, hskipped, -⟩ := hrun ⟨.here, ["src"]⟩
      ⟨.here, ["out"]⟩ nested _ (by decide) rfl rfl hfiles fun path hpath _ _ => hname path hpath
    have hwritten : (nested.tree.writeFiles nested.cwd (renderedFiles {} ⟨.here, ["out"]⟩ nested
        [⟨.here, ["src", "a.d"]⟩, ⟨.here, ["src", "more", "b.d"]⟩,
          ⟨.here, ["src", "more", "more", "a.d"]⟩])).2 = .ok () := by decide +kernel
    rw [hwritten] at hperform
    refine ⟨tally, w', hperform, hscanned, ?_, ?_⟩
    · rw [hskipped]
      decide +kernel
    · rw [htree]
      decide +kernel

end Generator
end RefPages
