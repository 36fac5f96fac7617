import RefPages.Workspace

/-!
# Performing actions

* `Action.perform` is what an action gives on a workspace and the workspace after it; the lemmas
  `perform_*` are the steps of it.
* `perform_foldlM_inv` and `perform_foldlM_congr` carry an invariant of the workspace through a
  loop.
* `Workspace.Aside` relates two workspaces that differ in nothing but what has been shown and what
  run logs have taken; `Workspace.aside_say`: a message does no more than that.
-/

set_option autoImplicit false
namespace RefPages

variable {α β : Type}

namespace Action

/-- What an action gives on a workspace, and the workspace after it. -/
def perform (action : Action α) (w : Workspace) : Except Fault α × Workspace :=
  action.run.run w

/-! ## Steps -/

@[simp] theorem perform_pure (a : α) (w : Workspace) : (pure a : Action α).perform w = (.ok a, w) :=
  rfl

theorem perform_bind (action : Action α) (f : α → Action β) (w : Workspace) :
    (action >>= f).perform w =
      match action.perform w with
      | (.ok a, w') => (f a).perform w'
      | (.error fault, w') => (.error fault, w') := by
  have hbind : (action >>= f).perform w
      = StateT.run (ExceptT.bindCont f (action.perform w).1) (action.perform w).2 := rfl
  rw [hbind]
  rcases action.perform w with ⟨_ | a, w'⟩ <;> rfl

/-- An action that goes on after one without a fault. -/
theorem perform_bind_ok {action : Action α} {f : α → Action β} {w w' : Workspace} {a : α}
    (h : action.perform w = (.ok a, w')) : (action >>= f).perform w = (f a).perform w' := by
  rw [perform_bind, h]

theorem perform_bind_error {action : Action α} {f : α → Action β} {w w' : Workspace} {fault : Fault}
    (h : action.perform w = (.error fault, w')) :
    (action >>= f).perform w = (.error fault, w') := by
  rw [perform_bind, h]

/-- An action that ended without a fault has not met one in its first part. -/
theorem exists_of_perform_bind {action : Action α} {f : α → Action β} {w w'' : Workspace} {b : β}
    (h : (action >>= f).perform w = (.ok b, w'')) :
    ∃ a w', action.perform w = (.ok a, w') ∧ (f a).perform w' = (.ok b, w'') := by
  rw [perform_bind] at h
  split at h
  · rename_i a w' ha
    exact ⟨a, w', ha, h⟩
  · exact absurd h (by simp)

@[simp] theorem perform_get (w : Workspace) : (get : Action Workspace).perform w = (.ok w, w) := rfl

@[simp] theorem perform_modify (f : Workspace → Workspace) (w : Workspace) :
    (modify f : Action Unit).perform w = (.ok (), f w) := rfl

@[simp] theorem perform_look (f : Workspace → α) (w : Workspace) :
    (look f).perform w = (.ok (f w), w) := rfl

@[simp] theorem perform_say (component : String) (level : Int) (text : String) (w : Workspace) :
    (say component level text).perform w
      = (.ok (), w.say ⟨loggerOf (some component), level, text⟩) := rfl

@[simp] theorem perform_lift (result : Except Fault α) (w : Workspace) :
    (lift result).perform w = (result, w) := by
  cases result <;> rfl

@[simp] theorem perform_attempt (action : Action α) (w : Workspace) :
    (attempt action).perform w = (.ok (action.perform w).1, (action.perform w).2) := rfl

theorem perform_makeDirectories (path : Path) (w : Workspace) :
    (makeDirectories path).perform w =
      ((w.tree.makeDirectories w.cwd path).2.mapError Fault.file,
        { w with tree := (w.tree.makeDirectories w.cwd path).1 }) := by
  cases h : w.tree.makeDirectories w.cwd path with
  | mk tree result =>
    rw [makeDirectories, perform_bind_ok (perform_get w)]
    simp only [h]
    cases result <;> rfl

theorem perform_put (path : Path) (bytes : List UInt8) (w : Workspace) :
    (put path bytes).perform w =
      match w.tree.put w.cwd path bytes with
      | .ok tree => (.ok (), { w with tree })
      | .error fault => (.error (Fault.file fault), w) := by
  rw [put, perform_bind_ok (perform_get w)]
  cases h : w.tree.put w.cwd path bytes <;> rfl

/-! ## Loops -/

/-- What every round keeps is kept by the loop. -/
theorem perform_foldlM_inv {I : Workspace → Prop} {f : β → α → Action β} {xs : List α}
    (hstep : ∀ x ∈ xs, ∀ b w b' w', I w → (f b x).perform w = (.ok b', w') → I w')
    {b b' : β} {w w' : Workspace} (hw : I w) (h : (xs.foldlM f b).perform w = (.ok b', w')) :
    I w' := by
  induction xs generalizing b w with
  | nil =>
    cases h
    exact hw
  | cons x xs ih =>
    rw [List.foldlM_cons] at h
    obtain ⟨b1, w1, h1, h⟩ := exists_of_perform_bind h
    exact ih (fun y hy => hstep y (List.mem_cons_of_mem _ hy))
      (hstep x List.mem_cons_self _ _ _ _ hw h1) h

/-- Two loops whose rounds do the same on the workspaces that can be met do the same. -/
theorem perform_foldlM_congr {I : Workspace → Prop} {f g : β → α → Action β} {xs : List α}
    (hstep : ∀ x ∈ xs, ∀ b w b' w', I w → (f b x).perform w = (.ok b', w') → I w')
    (hsame : ∀ x ∈ xs, ∀ b w, I w → (f b x).perform w = (g b x).perform w)
    (b : β) {w : Workspace} (hw : I w) :
    (xs.foldlM f b).perform w = (xs.foldlM g b).perform w := by
  induction xs generalizing b w with
  | nil => rfl
  | cons x xs ih =>
    rw [List.foldlM_cons, List.foldlM_cons, perform_bind, perform_bind,
      ← hsame x List.mem_cons_self b w hw]
    split
    · rename_i b1 w1 h1
      exact ih (fun y hy => hstep y (List.mem_cons_of_mem _ hy))
        (fun y hy => hsame y (List.mem_cons_of_mem _ hy)) b1
        (hstep x List.mem_cons_self _ _ _ _ hw h1)
    · rfl

end Action

/-! ## Messages -/

namespace Workspace

/-- The workspaces differ in nothing but what has been shown on the console, and what run logs have
taken. -/
structure Aside (w w' : Workspace) : Prop where
  rest : w' = { w with tree := w'.tree, console := w'.console }
  tree : w.log.runLogs = [] → w'.tree = w.tree

namespace Aside

variable {w w' w'' : Workspace}

theorem cwd (h : Aside w w') : w'.cwd = w.cwd := by rw [h.rest]

theorem log (h : Aside w w') : w'.log = w.log := by rw [h.rest]

theorem output (h : Aside w w') : w'.output = w.output := by rw [h.rest]

theorem stamp (h : Aside w w') : w'.stamp = w.stamp := by rw [h.rest]

theorem refl (w : Workspace) : Aside w w :=
  ⟨rfl, fun _ => rfl⟩

theorem trans (h : Aside w w') (h' : Aside w' w'') : Aside w w'' := by
  refine ⟨h'.rest.trans ?_, fun hlog => (h'.tree (by rw [h.log]; exact hlog)).trans (h.tree hlog)⟩
  exact congrArg (fun w => { w with tree := w''.tree, console := w''.console }) h.rest

end Aside

/-- What outlets do with a message, one after the other. -/
theorem aside_deliver (m : Message) (w : Workspace) {outlets : List Outlet}
    (h : ∀ outlet ∈ outlets, outlet ∈ w.log.outlets) : Aside w (outlets.foldl (deliver m) w) := by
  induction outlets generalizing w with
  | nil => exact .refl w
  | cons outlet outlets ih =>
    obtain ⟨houtlet, houtlets⟩ := List.forall_mem_cons.1 h
    have hfirst : Aside w (deliver m w outlet) := by
      rw [deliver]
      split
      · cases outlet with
        | console level => exact ⟨rfl, fun _ => rfl⟩
        | runLog log =>
          have hsome : w.log.runLogs ≠ [] :=
            List.ne_nil_of_mem (List.mem_filterMap.2 ⟨_, houtlet, rfl⟩)
          cases log with
          | file loc => exact ⟨rfl, fun hnone => absurd hnone hsome⟩
          | lost => exact .refl w
      · exact .refl w
    rw [List.foldl_cons]
    exact hfirst.trans (ih _ (by rw [hfirst.log]; exact houtlets))

/-- A message is shown, and taken by the run logs. -/
theorem aside_say (w : Workspace) (m : Message) : Aside w (w.say m) := by
  have hreport : ∀ text, Aside w (w.report text) := fun text => ⟨rfl, fun _ => rfl⟩
  rw [say]
  split
  · exact .refl w
  · split
    · split
      · exact hreport _
      · exact .refl w
    · exact aside_deliver m w fun _ h => h

end Workspace

theorem Action.aside_of_perform_say {w w' : Workspace} {component text : String} {level : Int}
    {u : Unit} (h : (say component level text).perform w = (.ok u, w')) : w.Aside w' := by
  rw [perform_say] at h
  cases h
  exact Workspace.aside_say w _

/-- A message in front of an action leaves its result as it is, if that does not depend on what the
message does. -/
theorem Action.exists_perform_say {w : Workspace} {component text : String} {level : Int}
    {next : Action β} {result : Except Fault β} {Q : Workspace → Prop}
    (h : ∀ w1, w.Aside w1 → ∃ w', next.perform w1 = (result, w') ∧ Q w') :
    ∃ w', (do
        say component level text
        next).perform w = (result, w') ∧ Q w' := by
  obtain ⟨w', hnext, hw'⟩ := h _ (Workspace.aside_say w ⟨loggerOf (some component), level, text⟩)
  exact ⟨w', by rw [perform_bind_ok (perform_say component level text w), hnext], hw'⟩

/-- An action that never ends in a fault, whatever a message does, does not do so behind one. -/
theorem Action.exists_ok_say {w : Workspace} {component text : String} {level : Int}
    {next : Action β} {Q : β → Workspace → Prop}
    (h : ∀ w1, w.Aside w1 → ∃ b w', next.perform w1 = (.ok b, w') ∧ Q b w') :
    ∃ b w', (do
        say component level text
        next).perform w = (.ok b, w') ∧ Q b w' := by
  obtain ⟨b, w', hnext, hw'⟩ := h _ (Workspace.aside_say w ⟨loggerOf (some component), level, text⟩)
  exact ⟨b, w', by rw [perform_bind_ok (perform_say component level text w), hnext], hw'⟩

end RefPages
