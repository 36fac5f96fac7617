import RefPages.Proofs.Outcome
import RefPages.Proofs.Run

/-!
# What the faults of a run are

Whoever starts a run deals with some faults only, and with others not. A run meets no others: a file
that cannot be read is passed over, whatever the fault, and what is left are the faults of the tree.

* `Action.FailsOnly` says what the faults of an action can be. `FailsOnly.bind` and
  `FailsOnly.foldlM` put actions together.
* `Generator.failsOnly_run`: a run fails only by the tree.
-/

set_option autoImplicit false
namespace RefPages

variable {α β : Type} {E : Fault → Prop}

namespace Fault

/-- A file or directory cannot be found, made or written. -/
def IsFile (fault : Fault) : Prop :=
  ∃ cause, fault = .file cause

/-- A path holds NUL, so that the system has never been asked about it. -/
def isNul : Fault → Bool
  | .read (.file cause) => !cause.isSystem
  | _ => false

end Fault

theorem ReadFault.isNul_eq (cause : ReadFault) : (Fault.read cause).isNul = !cause.isReported := by
  cases cause <;> rfl

namespace Action

/-- Whatever the workspace is, a fault of the action satisfies `E`. -/
def FailsOnly (E : Fault → Prop) (action : Action α) : Prop :=
  ∀ w, Ends E (fun _ => True) (action.perform w).1

/-! ## Putting actions together -/

theorem failsOnly_pure (a : α) : (pure a : Action α).FailsOnly E :=
  fun _ => trivial

theorem failsOnly_get : (get : Action Workspace).FailsOnly E :=
  fun _ => trivial

theorem failsOnly_lift {result : Except Fault α} (h : Ends E (fun _ => True) result) :
    (lift result).FailsOnly E := by
  intro w
  rw [perform_lift]
  exact h

theorem failsOnly_attempt (action : Action α) : (attempt action).FailsOnly E :=
  fun _ => trivial

theorem FailsOnly.bind {action : Action α} {next : α → Action β} (h : action.FailsOnly E)
    (hnext : ∀ a, (next a).FailsOnly E) : (action >>= next).FailsOnly E := by
  intro w
  have hends := h w
  rw [perform_bind]
  rcases hperform : action.perform w with ⟨fault | a, w'⟩
  · rw [hperform] at hends
    exact hends
  · exact hnext a w'

theorem FailsOnly.foldlM {f : β → α → Action β} {xs : List α} (h : ∀ b x, (f b x).FailsOnly E)
    (b : β) : (xs.foldlM f b).FailsOnly E := by
  induction xs generalizing b with
  | nil => exact failsOnly_pure b
  | cons x xs ih =>
    rw [List.foldlM_cons]
    exact (h b x).bind ih

/-! ## Steps -/

theorem failsOnly_say (component : String) (level : Int) (text : String) :
    (say component level text).FailsOnly E :=
  fun _ => trivial

theorem failsOnly_makeDirectories (path : Path) :
    (makeDirectories path).FailsOnly Fault.IsFile := by
  intro w
  rw [perform_makeDirectories]
  exact Ends.mapError (Ends.of_error fun cause _ => ⟨cause, rfl⟩)

theorem failsOnly_put (path : Path) (bytes : List UInt8) :
    (put path bytes).FailsOnly Fault.IsFile := by
  intro w
  rw [perform_put]
  split
  · exact trivial
  · exact ⟨_, rfl⟩

end Action

/-! ## Runs -/

theorem failsOnly_walkBelow {visit : α → Path → Action α} (h : ∀ a path, (visit a path).FailsOnly E)
    (e : Eligibility) (room : Nat) (dir : Path) (a : α) :
    (walkBelow e visit room dir a).FailsOnly E := by
  match room with
  | 0 =>
    rw [walkBelow]
    exact Action.failsOnly_pure a
  | room + 1 =>
    rw [walkBelow]
    refine Action.FailsOnly.bind (fun _ => trivial) fun names => ?_
    refine (Action.FailsOnly.foldlM (fun a name => h a _) a).bind fun a => ?_
    exact Action.FailsOnly.foldlM (fun a name => failsOnly_walkBelow h e _ _ a) a
termination_by room
decreasing_by omega

theorem failsOnly_walk {visit : α → Path → Action α}
    (h : ∀ a path, (visit a path).FailsOnly Fault.IsFile) (e : Eligibility) (root : Path) (a : α) :
    (walk e visit root a).FailsOnly Fault.IsFile := by
  rw [walk]
  refine Action.failsOnly_get.bind fun w => Action.failsOnly_get.bind fun w' => ?_
  refine (Action.failsOnly_lift ?_).bind fun isDirectory => ?_
  · exact Ends.mapError (Ends.of_error fun cause _ => ⟨cause, rfl⟩)
  · split
    · exact failsOnly_walkBelow h e _ _ a
    · exact Action.failsOnly_pure a

namespace Generator

theorem failsOnly_generate (g : Generator) (outputRoot : Path) (dryRun : Bool) (tally : Tally)
    (doc : Document) : (g.generate outputRoot dryRun tally doc).FailsOnly Fault.IsFile := by
  rw [generate]
  refine (Action.failsOnly_say _ _ _).bind fun _ => ?_
  simp only
  split
  · refine (Action.failsOnly_makeDirectories _).bind fun _ => ?_
    refine (Action.failsOnly_put _ _).bind fun _ => ?_
    exact (Action.failsOnly_say _ _ _).bind fun _ => Action.failsOnly_pure _
  · exact Action.failsOnly_pure _

/-- A file that cannot be read is passed over, whatever the fault. -/
theorem failsOnly_visit (g : Generator) (outputRoot : Path) (dryRun : Bool) (tally : Tally)
    (path : Path) : (g.visit outputRoot dryRun tally path).FailsOnly Fault.IsFile := by
  rw [visit]
  refine (Action.failsOnly_attempt _).bind fun result => ?_
  split
  · exact (Action.failsOnly_say _ _ _).bind fun _ => Action.failsOnly_pure _
  · exact (Action.failsOnly_say _ _ _).bind fun _ => Action.failsOnly_pure _
  · exact failsOnly_generate g outputRoot dryRun _ _

/-- **A run fails only by the tree.** -/
theorem failsOnly_run (g : Generator) (sourceRoot outputRoot : Path) (dryRun : Bool) :
    (g.run sourceRoot outputRoot dryRun).FailsOnly Fault.IsFile := by
  rw [run]
  refine (Action.failsOnly_say _ _ _).bind fun _ => (Action.failsOnly_say _ _ _).bind fun _ => ?_
  refine (failsOnly_walk (failsOnly_visit g outputRoot dryRun) _ _ _).bind fun tally => ?_
  exact (Action.failsOnly_say _ _ _).bind fun _ => Action.failsOnly_pure _

end Generator
end RefPages
