import RefPages.Path

/-!
# The log

Messages carry a level and the component they come from. A configured log shows them on the console
from a chosen level on, and may append all of them to a run log. Before the first configuration only
warnings and worse are shown, without any mark.

* `Log` is the state of the log: its level, and its outlets in the order in which they get a
  message; `shownFrom` chooses the console's level.
* `Message.consoleLine` and `Message.runLogLine` are the lines that a message is there.
* `originText` is how a message's origin is shown.
-/

set_option autoImplicit false
namespace RefPages

/-- The levels that have a name. -/
def levelNames : List (Int × String) :=
  [(10, "DEBUG"), (20, "INFO"), (30, "WARNING"), (40, "ERROR"), (50, "CRITICAL")]

/-- The name of a level. -/
def levelName (level : Int) : String :=
  (levelNames.lookup level).getD ("Level " ++ toString level)

/-- The level from which on messages are shown; `verbose` goes before `quiet`. -/
def shownFrom (verbose quiet : Bool) : Int :=
  if verbose then 10 else if quiet then 30 else 20

/-- The name that all loggers are under. -/
def rootLogger : String := "opdocs"

/-- The logger of a component. -/
def loggerOf (component? : Option String) : String :=
  match component? with
  | none => rootLogger
  | some component => if component = "" then rootLogger else rootLogger ++ "." ++ component

/-- How a logger is shown: below the root logger, its component after a colon. -/
def originText (logger : String) : String :=
  let start := (rootLogger ++ ".").toList
  if start.isPrefixOf logger.toList then
    rootLogger ++ ":" ++ String.ofList (logger.toList.drop start.length)
  else logger

/-- A run log: a file, or one that has been removed while it was open, and cannot be read. -/
inductive RunLog where
  | file (loc : Location)
  | lost
  deriving DecidableEq, Repr

/-- Where messages can go: the console, with the level from which on it shows them, or a run log. -/
inductive Outlet where
  | console (level : Int)
  | runLog (log : RunLog)
  deriving DecidableEq, Repr

/-- The level that a run log takes messages from. -/
def runLogLevel : Int := 10

namespace Outlet

/-- The level that an outlet takes messages from. -/
def level : Outlet → Int
  | .console level => level
  | .runLog _ => runLogLevel

/-- The run log that an outlet is. -/
def runLog? : Outlet → Option RunLog
  | .console _ => none
  | .runLog log => some log

/-- The outlet when all files at a place and below it have been removed. -/
def without (loc : Location) : Outlet → Outlet
  | .runLog (.file place) => .runLog (if loc.isPrefixOf place then .lost else .file place)
  | outlet => outlet

end Outlet

/-- The state of the log: the least level it takes, zero before it is first set, and its outlets. -/
structure Log where
  level : Int := 0
  outlets : List Outlet := []
  deriving DecidableEq, Repr

/-- A message. -/
structure Message where
  logger : String
  level : Int
  text : String
  deriving DecidableEq, Repr

namespace Message

/-- The line that a message is on the console. -/
def consoleLine (m : Message) : String :=
  "[" ++ originText m.logger ++ "] " ++ levelName m.level ++ " " ++ m.text ++ "\n"

/-- The line that a message is in a run log at the time `stamp`. -/
def runLogLine (m : Message) (stamp : String) : String :=
  stamp ++ " " ++ levelName m.level ++ " " ++ originText m.logger ++ ": " ++ m.text ++ "\n"

end Message

namespace Log

/-- The run logs among the outlets. -/
def runLogs (log : Log) : List RunLog :=
  log.outlets.filterMap Outlet.runLog?

/-- Does the log take messages of this level? Until its own level is set, from warnings up. -/
def takes (log : Log) (level : Int) : Bool :=
  0 < level && (if log.level = 0 then 30 else log.level) ≤ level

end Log
end RefPages
