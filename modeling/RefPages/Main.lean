import RefPages.Command.Run
import Std.Time.Format

/-!
# The program

The program sees the files and directories whose paths stand on standard input, one a line, as
`find` prints them, and the directories above those; nothing else is there for it. It carries out
the command line on that tree, writes back what has changed, prints, and ends with the exit code.

* `readEntry` and `writeEntry` are what the program does to one place of the real tree.
* `main` is the program; what a command does is all in `Command.runCommand`.
-/

set_option autoImplicit false
namespace RefPages

/-- The entry at a place that has one: what cannot be read as a file is a directory. -/
def readEntry (loc : Location) : IO Entry := do
  try
    return .file (← IO.FS.readBinFile (Path.ofLocation loc).toString).toList
  catch _ =>
    return .directory

/-- Puts an entry at a place whose directory exists. -/
def writeEntry (loc : Location) : Entry → IO Unit
  | .file bytes => IO.FS.writeBinFile (Path.ofLocation loc).toString ⟨bytes.toArray⟩
  | .directory => IO.FS.createDirAll (Path.ofLocation loc).toString

/-- The time now, as the run log writes it. -/
def currentStamp : IO String := do
  return (← Std.Time.PlainDateTime.now).format "uuuu-MM-dd HH:mm:ss,SSS"

/-- The name and the home directory in a line of the list of users. -/
def userOf? (line : String) : Option (String × String) :=
  match line.splitOn ":" with
  | [name, _, _, _, _, home, _] => some (name, home)
  | _ => none

/-- The users of the system and their home directories. -/
def currentUsers : IO (List (String × String)) := do
  try
    return (← IO.FS.lines "/etc/passwd").toList.filterMap userOf?
  catch _ =>
    return []

/-- The workspace of the program. -/
def currentWorkspace : IO Workspace := do
  let own := (← IO.getEnv "HOME").getD "/"
  let homes : Homes := { own, users := ← currentUsers }
  let cwd := (Path.ofString ((← IO.getEnv "PWD").getD "/")).locate []
  let places := (← (← IO.getStdin).lines).map fun line => (Path.ofString line).locate cwd
  let tree ← places.foldlM (fun tree loc => return tree.plant loc (← readEntry loc))
    (FileTree.plant {} cwd .directory)
  return { tree, cwd, homes, stamp := ← currentStamp }

end RefPages

open RefPages in
/-- Runs the command that the arguments give. -/
def main (args : List String) : IO UInt32 := do
  let before ← currentWorkspace
  let (result, after) := (Command.runCommand args).run before
  for (loc, entry) in after.tree.differences before.tree do
    writeEntry loc entry
  IO.print after.output
  IO.eprint after.console
  match result with
  | .ok code => return code.toUInt32
  | .error fault =>
    IO.eprintln fault.message
    return 1
