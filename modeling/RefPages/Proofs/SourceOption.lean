import RefPages.Proofs.ConfigFile
import RefPages.Proofs.RunLog
import RefPages.Proofs.SourceRoot

/-!
# The source root, given or configured

The source root can be given with an option, and is then taken from the working directory, or be set
in the configuration there, and is then taken from the root. The pages that are written are the
same, and they go to the same places, unless the directories above the working directory have a say
in their categories.

* `Command.parse_source` reads the command line with the option.
* `Command.extractWith` is what either command does once the settings are loaded, and
  `Command.lockstep_extractWith` says that the two go in lockstep.
* `Command.runCommand_source` is the result for the command lines.
* `Command.runCommand_source_anchored` is a project whose categories depend on the spelling.
-/

set_option autoImplicit false
namespace RefPages

open Text

namespace Command

/-! ## The command lines -/

/-- The value of the option is taken as it is. -/
theorem parse_source {text : String} (h : text.toList.head? ≠ some '-') :
    parse ["extract", "--source", text] = .ok (.extract { source? := some text }) := by
  have hdashes : text ≠ "--" := by
    rintro rfl
    exact absurd rfl h
  have houter : takeCommand mainGrammar {} ["extract", "--source", text]
      = .ok { operand? := some ["extract", "--source", text] } := by
    have hsource : Argument.ofText mainGrammar "--source" = .ok (.option "--source" none) := by
      decide +kernel
    have hsorted : sortArguments mainGrammar ["extract", "--source", text]
        = .ok [.operand "extract", .option "--source" none, .operand text] := by
      rw [sortArguments, if_neg (by decide), ofText_operand _ (by decide), sortArguments,
        if_neg (by decide), hsource, sortArguments_operand _ h]
      rfl
    rw [takeCommand, hsorted]
    rfl
  have hinner : takeCommand extractGrammar {} ["--source", text]
      = .ok { given := { source? := some text } } := by
    have hsource : Argument.ofText extractGrammar "--source"
        = .ok (.option "--source" (some ⟨⟨.source, ["--source"], true⟩, "--source", none⟩)) := by
      decide +kernel
    have hsorted : sortArguments extractGrammar ["--source", text]
        = .ok [.option "--source" (some ⟨⟨.source, ["--source"], true⟩, "--source", none⟩),
          .operand text] := by
      rw [sortArguments, if_neg (by decide), hsource, sortArguments_operand _ h]
      rfl
    have htake : takeOption extractGrammar {} ⟨⟨.source, ["--source"], true⟩, "--source", none⟩
        [.operand text] = .ok ({ source? := some text }, 1) := by
      simp [takeOption, Given.take, hdashes, bind, Except.bind]
    have htaken : takeArguments extractGrammar 3 {}
        [.option "--source" (some ⟨⟨.source, ["--source"], true⟩, "--source", none⟩),
          .operand text] = .ok { given := { source? := some text } } := by
      rw [takeArguments, if_pos (by simp [Argument.isOption]), htake]
      rfl
    rw [takeCommand, hsorted]
    refine (congrArg (· >>= _) htaken).trans ?_
    rfl
  rw [parse, houter]
  simp only [bind, Except.bind, Option.getD_some, if_true, hinner]
  rfl

theorem parse_extract : parse ["extract"] = .ok (.extract {}) := by
  decide +kernel

end Command

theorem Generator.eligible_of_ofSettings {settings : Settings} {g : Generator}
    (h : ofSettings settings = .ok g) :
    g.categories.anchor = "operations"
      ∧ g.eligible = ⟨settings.sourceExtension, settings.excludedFiles⟩ := by
  rw [ofSettings] at h
  cases hselect : Extractor.select settings.enabled? with
  | error unknown =>
    rw [hselect] at h
    exact absurd h (by simp [bind, Except.bind])
  | ok extractors =>
    rw [hselect] at h
    cases h
    exact ⟨rfl, rfl⟩

/-! ## The two commands -/

/-- The place is one of a file below `dir` that counts as a source file. -/
def Eligibility.Covers (e : Eligibility) (dir loc : Location) : Prop :=
  ∃ below name, e.admits name = true ∧ loc = dir ++ (below ++ [name])

/-- The workspace with other bytes in its configuration file. -/
def Workspace.withConfig (w : Workspace) (bytes : List UInt8) : Workspace :=
  { w with tree := w.tree.set (w.cwd ++ [configName]) (.file bytes) }

/-- The workspace with the outlets of the log put aside. -/
def Workspace.withoutOutlets (w : Workspace) : Workspace :=
  { w with log := { w.log with outlets := [] } }

namespace Command

variable {c : Common} {g : Generator} {root : List String} {text : String}

theorem expands_giveUp (report : String) : (giveUp report).Expands :=
  Action.expands_of_tree fun _ => ⟨rfl, rfl⟩

/-- The reports may differ. -/
theorem lockstep_giveUp (report report' : String) :
    Action.Lockstep c Eq (giveUp report) (giveUp report') :=
  fun _ _ halike _ => ⟨.ok rfl, { halike with }⟩

/-- A path whose first name does not begin with a tilde is taken as it is. -/
theorem expandHome_eq {path : Path}
    (htilde : ∀ name ∈ path.names.head?, name.toList.head? ≠ some '~') (homes : Homes) :
    path.expandHome homes = .ok path := by
  have huser : path.user? = none := by
    rw [Path.user?]
    split
    · rename_i name rest _ hnames
      have hname := htilde name (by rw [hnames]; rfl)
      split
      · rename_i user huser
        rw [huser] at hname
        exact absurd rfl hname
      · rfl
    · rfl
  rw [Path.expandHome, huser]

theorem pathOr_given (hne : text ≠ "")
    (htilde : ∀ name ∈ (Path.ofString text).names.head?, name.toList.head? ≠ some '~')
    (fallback : Path) : pathOr (some text) fallback = pure (Path.ofString text) := by
  have hsome : nonEmpty? (some text) = some text := by simp [nonEmpty?, hne]
  rw [pathOr, hsome]
  simp only [expandHome_eq htilde]
  rfl

/-- Writing the pages of a source root that is given does the same as of the one in the settings. -/
theorem lockstep_runExtract (h : Generator.Respelled c g root)
    (hroot : Path.ofString text = ⟨.here, root⟩) (hne : text ≠ "")
    (htilde : ∀ name ∈ (Path.ofString text).names.head?, name.toList.head? ≠ some '~')
    {settings : Settings} (hsource : settings.sourceRoot = ⟨.root, c.cwd ++ root⟩)
    (sourceRoot : Path) :
    Action.Lockstep c Eq (runExtract { source? := some text } { settings with sourceRoot } g)
      (runExtract {} settings g) := by
  have hsettings : pathOr (Given.source? {}) settings.sourceRoot
      = pure ⟨.root, c.cwd ++ root⟩ := by
    rw [hsource]
    rfl
  have houtput : ∀ (given : Given) (settings : Settings), given.output? = none →
      pathOr given.output? settings.outputRoot = pure settings.outputRoot := by
    intro given settings hnone
    rw [hnone]
    rfl
  rw [runExtract, runExtract, pathOr_given hne htilde, hroot, pure_bind, hsettings, pure_bind,
    houtput _ _ rfl, pure_bind, pure_bind]
  refine ((Generator.lockstep_run h settings.outputRoot false).attempt_of_failsOnly
    (Generator.failsOnly_run g _ _ _) (Generator.failsOnly_run g _ _ _)).bind
    (Generator.expands_run g _ _ _).attempt (fun result => ?_) ?_
  · split
    · split
      · exact expands_giveUp _
      · exact Action.expands_of_tree fun _ => ⟨rfl, rfl⟩
    · exact Action.expands_of_tree fun _ => ⟨rfl, rfl⟩
    · exact Action.expands_of_tree fun _ => ⟨rfl, rfl⟩
  · rintro result result' ⟨hend, hfails, hfails'⟩
    cases hend with
    | error hnul =>
      obtain ⟨cause, rfl⟩ := hfails
      obtain ⟨cause', rfl⟩ := hfails'
      have hsystem : cause'.isSystem = cause.isSystem := Bool.not_inj hnul
      simp only [hsystem]
      split
      · exact lockstep_giveUp _ _
      · exact Action.lockstep_throw hnul
    | ok htally =>
      subst htally
      exact (Action.lockstep_print _).and_then (Action.expands_of_tree fun _ => ⟨rfl, rfl⟩)
        (fun _ => Action.expands_pure _) fun _ => Action.lockstep_pure rfl

/-- Configuring the log with a run log whose bytes may differ. -/
theorem lockstep_configureLog (verbose quiet : Bool) {logFile? : Option Path}
    (hdiffer : ∀ path, logFile? = some path → ∀ b₁ b₂, c.differ (path.locate c.cwd) b₁ b₂) :
    Action.Lockstep c Eq (Action.configureLog verbose quiet logFile?)
      (Action.configureLog verbose quiet logFile?) := by
  have hempty : Action.Lockstep c Eq (Action.changeLog fun log => { log with outlets := [] })
      (Action.changeLog fun log => { log with outlets := [] }) :=
    Action.lockstep_changeLog fun log loc hmem => absurd hmem (by simp)
  have hconsole : Action.Lockstep c Eq (Action.attach (.console (shownFrom verbose quiet)))
      (Action.attach (.console (shownFrom verbose quiet))) :=
    Action.lockstep_attach fun loc heq => absurd heq (by simp)
  have hlevel : ∀ level : Int, Action.Lockstep c Eq
      (Action.changeLog fun log => { log with level })
      (Action.changeLog fun log => { log with level }) := fun level =>
    Action.lockstep_changeLog fun log loc hmem => Or.inl hmem
  cases logFile? with
  | none =>
    rw [Action.configureLog]
    refine hempty.and_then (Action.expands_changeLog _)
      (fun _ => (Action.expands_changeLog _).bind fun _ => Action.expands_changeLog _) fun _ => ?_
    exact hconsole.and_then (Action.expands_changeLog _) (fun _ => Action.expands_changeLog _)
      fun _ => hlevel _
  | some path =>
    have hopen := Action.lockstep_openRunLog (c := c) fun w hwf hcwd hwd loc hplace => by
      rw [w.place_runLog hwf hwd hplace, hcwd]
      exact hdiffer path rfl
    have hattach : ∀ loc : Location, (do
        Action.attach (.runLog (.file loc))
        Action.changeLog fun log => { log with level := runLogLevel }).Expands := fun _ =>
      (Action.expands_changeLog _).bind fun _ => Action.expands_changeLog _
    rw [Action.configureLog]
    refine hempty.and_then (Action.expands_changeLog _) (fun _ => (Action.expands_changeLog _).bind
      fun _ => (Action.expands_openRunLog path).bind hattach) fun _ => ?_
    refine hconsole.and_then (Action.expands_changeLog _)
      (fun _ => (Action.expands_openRunLog path).bind hattach) fun _ => ?_
    refine hopen.bind (Action.expands_openRunLog path) hattach ?_
    rintro loc _ ⟨rfl, hloc⟩
    refine (Action.lockstep_attach ?_).and_then (Action.expands_changeLog _)
      (fun _ => Action.expands_changeLog _) fun _ => hlevel _
    rintro _ ⟨⟩
    exact hloc

/-- The outlets that were there before play no part. -/
theorem perform_configureLog (verbose quiet : Bool) (logFile? : Option Path) (w : Workspace) :
    (Action.configureLog verbose quiet logFile?).perform w
      = (Action.configureLog verbose quiet logFile?).perform w.withoutOutlets := by
  cases logFile? <;> rfl

/-! ## From the command line -/

/-- Where the files of the two commands may differ: in the configuration, and in the run log. -/
def sourceDiffers (w : Workspace) (logFile? : Option Path) (bytes₁ bytes₂ : List UInt8)
    (loc : Location) (b₁ b₂ : List UInt8) : Prop :=
  (loc = w.cwd ++ [configName] ∧ b₁ = bytes₁ ∧ b₂ = bytes₂ ∧ bytes₁ ≠ bytes₂)
    ∨ ∃ path, logFile? = some path ∧ loc = path.locate w.cwd

/-- The workspaces of the two commands are alike at first, the outlets of before being put aside. -/
theorem alike_withConfig {w : Workspace} {bytes₁ bytes₂ : List UInt8} (hwf : w.tree.WellFormed)
    (hwd : w.tree.get? w.cwd = some .directory)
    (hconfig : w.tree.get? (w.cwd ++ [configName]) = some (.file bytes₁)) (logFile? : Option Path)
    (last : FileTree) :
    w.withoutOutlets.Alike ⟨w.cwd, sourceDiffers w logFile? bytes₁ bytes₂, last⟩
      (w.withConfig bytes₂).withoutOutlets where
  tree := by
    intro loc
    show FileTree.SameEntry _ (w.tree.get? loc)
      ((w.tree.set (w.cwd ++ [configName]) (.file bytes₂)).get? loc)
    rw [FileTree.get?_set (by simp)]
    split
    · rename_i hloc
      rw [hloc, hconfig]
      refine .file ?_
      by_cases hbytes : bytes₁ = bytes₂
      · exact Or.inl hbytes
      · exact Or.inr (Or.inl ⟨rfl, rfl, rfl, hbytes⟩)
    · rcases w.tree.get? loc with _ | bytes | _
      · exact .none
      · exact .file (Or.inl rfl)
      · exact .directory
  wellFormed₁ := hwf
  wellFormed₂ := (hwf.set_file hconfig bytes₂).1
  cwd₁ := rfl
  cwd₂ := rfl
  directory := hwd
  log := rfl
  runLog := fun _ hlog => absurd hlog (by simp [Workspace.withoutOutlets])
  output := rfl

/-- What is left of a command that writes pages once its settings are loaded. -/
def extractWith (given : Given) (settings : Settings) : Action Nat := do
  Action.configureLog given.verbose given.quiet settings.logFile?
  match Generator.ofSettings settings with
  | .error unknown => giveUp (unknown.message ++ "\n")
  | .ok generator => runExtract given settings generator

theorem perform_runCommand_extract {texts : List String} {given : Given} {settings : Settings}
    {w : Workspace} (hparse : parse texts = .ok (.extract given))
    (hgiven : given.config? = some ".")
    (hload : Settings.load w.tree w.cwd w.homes (Path.ofString ".") = .ok settings) :
    (runCommand texts).perform w
      = (extractWith given settings).perform w.withoutOutlets := by
  have hrequest := perform_runRequest (.extract given) hgiven hload
  rw [runCommand, hparse]
  refine hrequest.trans ?_
  rw [extractWith, Action.perform_bind, Action.perform_bind, perform_configureLog]
  rfl

theorem expands_pathOr (given? : Option String) (fallback : Path) :
    (pathOr given? fallback).Expands := by
  rw [pathOr]
  split
  · exact Action.expands_get.bind fun _ => Action.expands_lift _
  · exact Action.expands_pure fallback

theorem expands_runExtract (given : Given) (settings : Settings) (g : Generator) :
    (runExtract given settings g).Expands := by
  rw [runExtract]
  refine (expands_pathOr _ _).bind fun sourceRoot => (expands_pathOr _ _).bind fun outputRoot => ?_
  refine (Generator.expands_run g sourceRoot outputRoot _).attempt.bind fun result => ?_
  split
  · split
    · exact expands_giveUp _
    · exact Action.expands_of_tree fun _ => ⟨rfl, rfl⟩
  · exact Action.expands_of_tree fun _ => ⟨rfl, rfl⟩
  · exact Action.expands_of_tree fun _ => ⟨rfl, rfl⟩

/-- The two commands go in lockstep if their generator can take either spelling. -/
theorem lockstep_extractWith {settings : Settings} (sourceRoot : Path)
    (hrespelled : ∀ g, Generator.ofSettings settings = .ok g → Generator.Respelled c g root)
    (hroot : Path.ofString text = ⟨.here, root⟩) (hne : text ≠ "")
    (htilde : ∀ name ∈ (Path.ofString text).names.head?, name.toList.head? ≠ some '~')
    (hsource : settings.sourceRoot = ⟨.root, c.cwd ++ root⟩)
    (hdiffer : ∀ path, settings.logFile? = some path →
      ∀ b₁ b₂, c.differ (path.locate c.cwd) b₁ b₂) :
    Action.Lockstep c Eq (extractWith { source? := some text } { settings with sourceRoot })
      (extractWith {} settings) := by
  have hsame : Generator.ofSettings { settings with sourceRoot } = Generator.ofSettings settings :=
    rfl
  rw [extractWith, extractWith, hsame]
  refine (lockstep_configureLog _ _ hdiffer).and_then (Action.expands_configureLog _ _ _)
    (fun _ => ?_) fun _ => ?_
  · split
    · exact expands_giveUp _
    · exact expands_runExtract _ _ _
  · split
    · exact lockstep_giveUp _ _
    · rename_i g hg
      exact lockstep_runExtract (hrespelled g hg) hroot hne htilde hsource sourceRoot

/-- **The spelling of the source root does not matter.** The command with the option and the command
with the same text in the configuration end with the same exit code, write the same to standard
output and leave the same files, but for the configuration itself and the run log, which names the
source root as it is spelled. So do the messages on the console.

The text is a path from the working directory whose first name does not begin with a tilde. What can
tell the spellings apart is excluded:

* a directory above by whose name categories are found;
* a configuration or a run log that would be read as a source file;
* what is below the source root by a path that is too long if it is taken from the root. -/
theorem runCommand_source {w : Workspace} {bytes₁ bytes₂ : List UInt8} {settings : Settings}
    {text : String} (sourceRoot : Path) (hwf : w.tree.WellFormed)
    (hwd : w.tree.get? w.cwd = some .directory)
    (hconfig : w.tree.get? (w.cwd ++ [configName]) = some (.file bytes₁))
    (hgiven : Settings.load w.tree w.cwd w.homes (Path.ofString ".")
      = .ok { settings with sourceRoot })
    (hconfigured : Settings.load (w.withConfig bytes₂).tree w.cwd w.homes (Path.ofString ".")
      = .ok settings)
    (hsource : settings.sourceRoot = settings.root.joinText text)
    (hne : text ≠ "") (hhere : (Path.ofString text).start = .here)
    (hdash : text.toList.head? ≠ some '-')
    (htilde : ∀ name ∈ (Path.ofString text).names.head?, name.toList.head? ≠ some '~')
    (hanchor : "operations" ∉ w.cwd)
    (hunread : bytes₁ = bytes₂
      ∨ ¬ Eligibility.Covers ⟨settings.sourceExtension, settings.excludedFiles⟩
        ((Path.ofString text).locate w.cwd) (w.cwd ++ [configName]))
    (hunlogged : ∀ path, settings.logFile? = some path →
      ¬ Eligibility.Covers ⟨settings.sourceExtension, settings.excludedFiles⟩
        ((Path.ofString text).locate w.cwd) (path.locate w.cwd))
    (hshort : settings.sourceRoot.toString.utf8ByteSize < 4096)
    (hfits : ∀ below, (((runCommand ["extract", "--source", text]).perform w).2.tree.get?
        ((Path.ofString text).locate w.cwd ++ below)).isSome = true →
      settings.sourceRoot.reach below < 4096) :
    let given := (runCommand ["extract", "--source", text]).perform w
    let configured := (runCommand ["extract"]).perform (w.withConfig bytes₂)
    configured.1.toOption = given.1.toOption ∧ configured.2.output = given.2.output
      ∧ ∀ loc, (∀ path, settings.logFile? = some path → loc ≠ path.locate w.cwd) →
        configured.2.tree.get? loc = given.2.tree.get? loc
          ∨ loc = w.cwd ++ [configName] ∧ given.2.tree.get? loc = some (.file bytes₁)
            ∧ configured.2.tree.get? loc = some (.file bytes₂) := by
  intro given configured
  obtain ⟨root, hroot⟩ : ∃ root, Path.ofString text = ⟨.here, root⟩ :=
    ⟨(Path.ofString text).names, by rw [← hhere]⟩
  -- What the first command leaves bounds what either of them meets on its way.
  let c : Common := ⟨w.cwd, sourceDiffers w settings.logFile? bytes₁ bytes₂, given.2.tree⟩
  have hwd' : (w.withConfig bytes₂).tree.get? w.cwd = some .directory :=
    (hwf.set_file hconfig bytes₂).2.directory hwd
  have hpath : settings.sourceRoot = ⟨.root, w.cwd ++ root⟩ := by
    rw [hsource, Settings.root_of_load hwd' hconfigured, Path.joinText, hroot]
    rfl
  rw [hroot] at hunread hunlogged hfits
  rw [hpath] at hshort hfits
  have hrespelled : ∀ g, Generator.ofSettings settings = .ok g → Generator.Respelled c g root := by
    intro g hg
    obtain ⟨hname, heligible⟩ := Generator.eligible_of_ofSettings hg
    refine ⟨by rw [hname]; decide, by rw [hname]; exact hanchor, ?_, hshort, hfits⟩
    intro below name b₁ b₂ hadmits hdiffer
    rw [heligible] at hadmits
    rcases hdiffer with ⟨hloc, -, -, hbytes⟩ | ⟨path, hpath, hloc⟩
    · exact hunread.elim hbytes fun h => h ⟨below, name, hadmits, hloc.symm⟩
    · exact hunlogged path hpath ⟨below, name, hadmits, hloc.symm⟩
  have hlockstep := lockstep_extractWith sourceRoot hrespelled hroot hne htilde hpath
    fun path hlog _ _ => Or.inr ⟨path, hlog, rfl⟩
  have hperform : given = _ := perform_runCommand_extract (parse_source hdash) rfl hgiven
  have hperform' : configured = _ := perform_runCommand_extract parse_extract rfl hconfigured
  obtain ⟨hend, halike⟩ := hlockstep _ _
    (alike_withConfig hwf hwd hconfig settings.logFile? given.2.tree)
    (by rw [← hperform]; exact .refl _)
  rw [← hperform, ← hperform'] at hend halike
  refine ⟨hend.toOption_eq, halike.output, fun loc hloc => ?_⟩
  rcases halike.tree.get?_cases loc with hsame | ⟨b₁, b₂, hdiffer, hfile₁, hfile₂⟩
  · exact Or.inl hsame
  · rcases hdiffer with ⟨hplace, rfl, rfl, -⟩ | ⟨path, hlog, hplace⟩
    · exact Or.inr ⟨hplace, hfile₁, hfile₂⟩
    · exact absurd hplace (hloc path hlog)

/-- A project with one source file, which keeps a run log. -/
def project : Workspace where
  tree := ⟨[(["w"], .directory),
    (["w", configName], .file (utf8Encode "output_root: out\nlog_file: run.log")),
    (["w", "src"], .directory),
    (["w", "src", "a.d"], .file (utf8Encode "void first(ref Evaluation e)"))]⟩
  cwd := ["w"]

/-- The settings of the project with its source root. -/
def projectSettings : Settings :=
  { Settings.defaults ⟨.root, ["w"]⟩ with
    sourceRoot := ⟨.root, ["w", "src"]⟩
    outputRoot := ⟨.root, ["w", "out"]⟩
    logFile? := some ⟨.root, ["w", "run.log"]⟩ }

/-- Both commands write the page of the source file. -/
theorem runCommand_source_project :
    ((runCommand ["extract", "--source", "src"]).perform project).2.tree.get?
        ["w", "out", "other", "a.mdx"]
          = some (.file (utf8Encode (Document.page { name := "a", identifier? := some "first" })))
      ∧ ((runCommand ["extract"]).perform (project.withConfig
        (utf8Encode "output_root: out\nlog_file: run.log\nsource_root: src"))).2.tree.get?
          ["w", "out", "other", "a.mdx"]
            = some (.file (utf8Encode
              (Document.page { name := "a", identifier? := some "first" }))) := by
  have hwf : project.tree.WellFormed := by decide
  have hconfig : project.tree.get? (project.cwd ++ [configName])
      = some (.file (utf8Encode "output_root: out\nlog_file: run.log")) := by decide +kernel
  have hgiven : Settings.load project.tree project.cwd project.homes (Path.ofString ".")
      = .ok { projectSettings with
        sourceRoot := (Settings.defaults ⟨.root, ["w"]⟩).sourceRoot } := by decide +kernel
  have hconfigured : Settings.load (project.withConfig
      (utf8Encode "output_root: out\nlog_file: run.log\nsource_root: src")).tree project.cwd
        project.homes (Path.ofString ".") = .ok projectSettings := by decide +kernel
  have hpath : Path.ofString "src" = ⟨.here, ["src"]⟩ := by decide
  have hsource : projectSettings.sourceRoot = projectSettings.root.joinText "src" := by decide
  have hplace : (Path.ofString "src").locate project.cwd = ["w", "src"] := by decide
  have hcovers : ∀ (e : Eligibility) (name : String), name ≠ "src" →
      ¬ e.Covers ((Path.ofString "src").locate project.cwd) ["w", name] := by
    rintro e name hname ⟨below, file, -, hloc⟩
    rw [hplace] at hloc
    exact hname (List.cons.inj (List.cons.inj hloc).2).1
  have hunlogged : ∀ path, projectSettings.logFile? = some path → ¬ Eligibility.Covers
      ⟨projectSettings.sourceExtension, projectSettings.excludedFiles⟩
      ((Path.ofString "src").locate project.cwd) (path.locate project.cwd) := by
    rintro path hlog
    cases hlog
    exact hcovers _ "run.log" (by decide)
  have hreach : ∀ e ∈ ((runCommand ["extract", "--source", "src"]).perform project).2.tree.entries,
      projectSettings.sourceRoot.reach (e.1.drop 2) < 4096 := by decide +kernel
  have hfits : ∀ below,
      (((runCommand ["extract", "--source", "src"]).perform project).2.tree.get?
        ((Path.ofString "src").locate project.cwd ++ below)).isSome = true →
      projectSettings.sourceRoot.reach below < 4096 := by
    intro below hsome
    rw [hplace] at hsome
    obtain ⟨entry, hentry⟩ := Option.isSome_iff_exists.1 hsome
    exact hreach _ (FileTree.mem_of_get? (by simp) hentry)
  have hpage : ((runCommand ["extract", "--source", "src"]).perform project).2.tree.get?
      ["w", "out", "other", "a.mdx"] = some (.file (utf8Encode
        (Document.page { name := "a", identifier? := some "first" }))) := by decide +kernel
  obtain ⟨-, -, hfiles⟩ := runCommand_source _ hwf (by decide) hconfig hgiven hconfigured hsource
    (by decide) (by rw [hpath]) (by decide) (by rw [hpath]; decide) (by decide)
    (Or.inr (hcovers _ configName (by decide)))
    hunlogged (by decide) hfits
  have hother : ∀ path, projectSettings.logFile? = some path →
      ["w", "out", "other", "a.mdx"] ≠ path.locate project.cwd := by
    rintro path hlog
    cases hlog
    decide
  refine ⟨hpage, ?_⟩
  rcases hfiles _ hother with hsame | ⟨hloc, -⟩
  · rw [hsame, hpage]
  · exact absurd hloc (by decide)

/-- A project in a directory of the name by which categories are found, with a directory of that
name as its source root. -/
def anchored : Workspace where
  tree := ⟨[(["operations"], .directory), (["operations", "p"], .directory),
    (["operations", "p", configName],
      .file (utf8Encode "output_root: out\nsource_root: operations")),
    (["operations", "p", "operations"], .directory),
    (["operations", "p", "operations", "equality"], .directory),
    (["operations", "p", "operations", "equality", "a.d"],
      .file (utf8Encode "void first(ref Evaluation e)"))]⟩
  cwd := ["operations", "p"]

/-- Below a directory of that name, the spelling of the source root does matter: the path from the
root leads through it, and the page goes to another category. -/
theorem runCommand_source_anchored :
    anchored.tree.WellFormed
      ∧ anchored.tree.get? anchored.cwd = some .directory
      ∧ Settings.load anchored.tree anchored.cwd anchored.homes (Path.ofString ".")
        = .ok { Settings.defaults ⟨.root, ["operations", "p"]⟩ with
          sourceRoot := (Path.mk .root ["operations", "p"]).joinText "operations"
          outputRoot := ⟨.root, ["operations", "p", "out"]⟩ }
      ∧ (((runCommand ["extract", "--source", "operations"]).perform anchored).2.tree.get?
        ["operations", "p", "out", "equality", "a.mdx"]).isSome = true
      ∧ ((runCommand ["extract"]).perform anchored).2.tree.get?
        ["operations", "p", "out", "equality", "a.mdx"] = none
      ∧ (((runCommand ["extract"]).perform anchored).2.tree.get?
        ["operations", "p", "out", "other", "a.mdx"]).isSome = true := by
  decide +kernel

end Command
end RefPages
