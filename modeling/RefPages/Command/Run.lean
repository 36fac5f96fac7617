import RefPages.Command.Arguments
import RefPages.Generator

/-!
# Running a command

* `runRequest` carries out a request in a workspace: it loads the settings, configures the log, and
  then writes pages or prints one. Bad settings, an output that cannot be written and a source that
  cannot be read end it with exit code 1.
* `runCommand` does so for a command line. Its result is the exit code.
-/

set_option autoImplicit false
namespace RefPages
namespace Command

/-- Prints to the console. -/
def complain (text : String) : Action Unit :=
  modify (·.report text)

/-- Ends with exit code 1 and a report. -/
def giveUp (text : String) : Action Nat := do
  complain text
  return 1

/-- The path that an option gives, or else the one from the settings. -/
def pathOr (given? : Option String) (fallback : Path) : Action Path := do
  match nonEmpty? given? with
  | some text => Action.lift ((Path.ofString text).expandHome (← get).homes)
  | none => return fallback

/-- The path as it is shown: from the working directory if it is below that. -/
def shownPath (cwd : Location) (path : Path) : String :=
  let loc := path.locate cwd
  if cwd.isPrefixOf loc then Path.toString ⟨.here, loc.drop cwd.length⟩ else path.toString

/-- Writes a page for every source file. -/
def runExtract (given : Given) (settings : Settings) (generator : Generator) : Action Nat := do
  let sourceRoot ← pathOr given.source? settings.sourceRoot
  let outputRoot ← pathOr given.output? settings.outputRoot
  match ← Action.attempt (generator.run sourceRoot outputRoot given.dryRun) with
  | .error fault@(.read (.file cause)) =>
    if cause.isSystem then
      giveUp
        ("opdocs extract failed: " ++ cause.message ++ "\nRun with --verbose for more details.\n")
    else throw fault
  | .error fault => throw fault
  | .ok tally =>
    Action.print ("Generated " ++ toString tally.generated ++ " documentation files (scanned "
      ++ toString tally.scanned ++ ", skipped " ++ toString tally.skipped ++ ")"
      ++ (if given.dryRun then " (dry-run)" else "") ++ "\n")
    return 0

/-- Prints the page of one source file. -/
def runShow (pathText : String) (generator : Generator) : Action Nat := do
  let path ← Action.lift ((Path.ofString pathText).expandHome (← get).homes)
  let shown := shownPath (← get).cwd path
  match ← Action.attempt (generator.render path) with
  | .error fault@(.read cause) =>
    if cause.isReported then giveUp ("Could not read " ++ shown ++ ": " ++ cause.message ++ "\n")
    else throw fault
  | .error fault => throw fault
  | .ok none =>
    Action.print (shown ++ " has nothing to document\n")
    return 0
  | .ok (some page) =>
    Action.print page
    return 0

/-- Carries out a request. -/
def runRequest (request : Request) : Action Nat := do
  let given := request.given
  match given.config? with
  | none => throw .noConfigPath
  | some config =>
    let w ← get
    match Settings.load w.tree w.cwd w.homes (Path.ofString config) with
    | .error (.config fault) => giveUp (fault.message ++ "\n")
    | .error fault => throw fault
    | .ok settings =>
      Action.configureLog given.verbose given.quiet settings.logFile?
      match Generator.ofSettings settings with
      | .error unknown => giveUp (unknown.message ++ "\n")
      | .ok generator =>
        match request with
        | .extract given => runExtract given settings generator
        | .showPage _ path => runShow path generator

/-- Carries out a command line. -/
def runCommand (texts : List String) : Action Nat := do
  match parse texts with
  | .error (.help text) =>
    Action.print text
    return 0
  | .error (.usage text) =>
    complain text
    return 2
  | .ok request => runRequest request

end Command
end RefPages
