import RefPages.Home
import RefPages.Log

/-!
# The workspace

A workspace is all that an operation can see and change: the files, the working directory, the home
directories, the log, what has been printed, and the time that the run log is stamped with.

* `Action` is an operation on a workspace that may end in a fault; what was done before stays done.
* `Workspace.say` delivers a message to the log's outlets, one after the other.
* `Action.configureLog` replaces the outlets of the log.
* `Workspace.remove` takes files away, and with them the run logs that were kept there.
-/

set_option autoImplicit false
namespace RefPages

/-- What an operation can see and change. -/
structure Workspace where
  tree : FileTree := {}
  cwd : Location := []
  homes : Homes := {}
  log : Log := {}
  stamp : String := ""
  console : String := ""
  output : String := ""

/-- An operation on a workspace; a fault keeps what was done before it. -/
abbrev Action := ExceptT Fault (StateM Workspace)

namespace Workspace

/-! ## Files -/

/-- The bytes of a file with more at its end; nothing if there is no file. -/
def appendAt (tree : FileTree) (loc : Location) (bytes : List UInt8) : FileTree :=
  match tree.get? loc with
  | some (.file old) => tree.set loc (.file (old ++ bytes))
  | _ => tree

/-- The workspace without the files at a place; a run log kept there is lost. -/
def remove (w : Workspace) (loc : Location) : Workspace :=
  { w with
    tree := w.tree.remove loc
    log := { w.log with outlets := w.log.outlets.map (Outlet.without loc) } }

/-! ## The log -/

/-- The workspace when a text has been shown on the console. -/
def report (w : Workspace) (text : String) : Workspace :=
  { w with console := w.console ++ text }

/-- The workspace when an outlet has written a message. -/
def write (w : Workspace) (m : Message) : Outlet → Workspace
  | .console _ => w.report m.consoleLine
  | .runLog (.file loc) =>
    { w with tree := appendAt w.tree loc (Text.utf8Encode (m.runLogLine w.stamp)) }
  | .runLog .lost => w

/-- The workspace after an outlet has got a message, which it writes if the level is high enough. -/
def deliver (m : Message) (w : Workspace) (outlet : Outlet) : Workspace :=
  if outlet.level ≤ m.level then w.write m outlet else w

/-- The workspace after a message. As long as there is no outlet, it is shown as it is, if it is a
warning or worse. -/
def say (w : Workspace) (m : Message) : Workspace :=
  if !w.log.takes m.level then w
  else if w.log.outlets.isEmpty then
    if 30 ≤ m.level then w.report (m.text ++ "\n") else w
  else w.log.outlets.foldl (deliver m) w

/-- The path from the root by which a run log is opened; two slashes in front are kept. -/
def runLogPath (w : Workspace) (path : Path) : Path :=
  ⟨if path.start = .doubleRoot then .doubleRoot else .root, path.locate w.cwd⟩

end Workspace

namespace Action

/-- A part of the workspace. -/
def look {α : Type} (f : Workspace → α) : Action α := do
  return f (← get)

/-- The value of a computation, or its fault. -/
def lift {α : Type} (result : Except Fault α) : Action α :=
  match result with
  | .ok a => pure a
  | .error fault => throw fault

/-- Performs an operation and gives its fault, if it meets one, as a value. -/
def attempt {α : Type} (action : Action α) : Action (Except Fault α) :=
  ExceptT.lift action.run

/-- Delivers a message of a component. -/
def say (component : String) (level : Int) (text : String) : Action Unit :=
  modify (·.say ⟨loggerOf (some component), level, text⟩)

/-- Prints to the standard output. -/
def print (text : String) : Action Unit :=
  modify fun w => { w with output := w.output ++ text }

/-- Makes a directory and the missing ones above it. -/
def makeDirectories (path : Path) : Action Unit := do
  let w ← get
  let (tree, result) := w.tree.makeDirectories w.cwd path
  set { w with tree }
  lift (result.mapError Fault.file)

/-- Writes a file. -/
def put (path : Path) (bytes : List UInt8) : Action Unit := do
  let w ← get
  let tree ← lift ((w.tree.put w.cwd path bytes).mapError Fault.file)
  set { w with tree }

/-- Opens a file for more at its end, and gives its place. A file that is not there is made. -/
def openFile (path : Path) : Action Location := do
  let w ← get
  let loc ← lift ((w.tree.filePlace w.cwd path).mapError Fault.file)
  set { w with tree := if (w.tree.get? loc).isSome then w.tree else w.tree.set loc (.file []) }
  return loc

/-- Opens the run log at a path, after making the directory it is in. -/
def openRunLog (path : Path) : Action Location := do
  makeDirectories path.parent
  openFile ((← get).runLogPath path)

/-- Changes the log. -/
def changeLog (f : Log → Log) : Action Unit :=
  modify fun w => { w with log := f w.log }

/-- Adds an outlet behind those that the log has. -/
def attach (outlet : Outlet) : Action Unit :=
  changeLog fun log => { log with outlets := log.outlets ++ [outlet] }

/-- Replaces the outlets of the log. A run log that cannot be opened leaves the console alone and
the log's own level as it was. -/
def configureLog (verbose quiet : Bool) (logFile? : Option Path) : Action Unit := do
  let level := shownFrom verbose quiet
  changeLog fun log => { log with outlets := [] }
  attach (.console level)
  match logFile? with
  | none => changeLog fun log => { log with level }
  | some path =>
    let loc ← openRunLog path
    attach (.runLog (.file loc))
    changeLog fun log => { log with level := runLogLevel }

end Action
end RefPages
