import RefPages.Proofs.FileTree.Alike
import RefPages.Proofs.Growth
import RefPages.Proofs.RunFault

/-!
# Two actions in lockstep

Two actions may do the same to two workspaces that are alike, although they show different messages
and find things by different paths. Step by step they end in the same way and leave the workspaces
alike.

* `Workspace.Alike` relates the workspaces: their trees differ in no more than the bytes of a few
  files, that of the run log among them.
* `Action.SameEnd` relates how two actions end: both in a fault of the same kind, or both with
  values that belong together.
* `Action.Lockstep` says that two actions end so and leave the workspaces alike. The first one may
  be assumed to leave a tree from which a known one can grow: what is not in that tree is never met.
* `Lockstep.bind` and `Lockstep.foldlM` put actions together; the rest are the steps.
-/

set_option autoImplicit false
namespace RefPages

/-- What is known of two runs. -/
structure Common where
  /-- The working directory of both. -/
  cwd : Location
  /-- The bytes in which files may differ at a place. -/
  differ : Location → List UInt8 → List UInt8 → Prop
  /-- The tree in the end; no place that the first run meets is missing from it. -/
  last : FileTree

/-- The workspaces differ in no more than the bytes of some files and what has been shown on the
console. The run log may have taken anything. -/
structure Workspace.Alike (c : Common) (w₁ w₂ : Workspace) : Prop where
  tree : w₁.tree.AlikeBut c.differ w₂.tree
  wellFormed₁ : w₁.tree.WellFormed
  wellFormed₂ : w₂.tree.WellFormed
  cwd₁ : w₁.cwd = c.cwd
  cwd₂ : w₂.cwd = c.cwd
  directory : w₁.tree.get? c.cwd = some .directory
  log : w₂.log = w₁.log
  runLog : ∀ loc, .runLog (.file loc) ∈ w₁.log.outlets → ∀ b₁ b₂, c.differ loc b₁ b₂
  output : w₂.output = w₁.output

namespace Workspace

variable {c : Common} {w₁ w₂ w₁' w₂' : Workspace}

theorem Alike.directory₁ (h : w₁.Alike c w₂) : w₁.tree.get? w₁.cwd = some .directory := by
  rw [h.cwd₁]
  exact h.directory

theorem Alike.directory₂ (h : w₁.Alike c w₂) : w₂.tree.get? w₂.cwd = some .directory := by
  rw [h.cwd₂, ← h.tree.directory_iff]
  exact h.directory

/-- Workspaces that have grown are alike if their trees are and nothing else has been changed. -/
theorem Alike.grown (h : w₁.Alike c w₂) (htree : w₁'.tree.AlikeBut c.differ w₂'.tree)
    (h₁ : w₁.Grown w₁') (h₂ : w₂.Grown w₂') (hlog₁ : w₁'.log = w₁.log) (hlog₂ : w₂'.log = w₂.log)
    (houtput : w₂'.output = w₁'.output) : w₁'.Alike c w₂' where
  tree := htree
  wellFormed₁ := h₁.wellFormed
  wellFormed₂ := h₂.wellFormed
  cwd₁ := h₁.cwd.trans h.cwd₁
  cwd₂ := h₂.cwd.trans h.cwd₂
  directory := h₁.grows.directory h.directory
  log := by rw [hlog₁, hlog₂, h.log]
  runLog := by
    rw [hlog₁]
    exact h.runLog
  output := houtput

/-- What is appended to a file may differ if its bytes may. -/
theorem alikeBut_appendAt {tree₁ tree₂ : FileTree} (h : tree₁.AlikeBut c.differ tree₂)
    {loc : Location} (hloc : ∀ b₁ b₂, c.differ loc b₁ b₂) (more₁ more₂ : List UInt8) :
    (appendAt tree₁ loc more₁).AlikeBut c.differ (appendAt tree₂ loc more₂) := by
  have hat := h loc
  have hne : ∀ bytes, tree₁.get? loc = some (.file bytes) → loc ≠ [] := by
    rintro bytes hbytes rfl
    exact absurd hbytes (by simp)
  rw [appendAt, appendAt]
  generalize tree₁.get? loc = entry₁, tree₂.get? loc = entry₂ at hat hne
  cases hat with
  | none => exact h
  | directory => exact h
  | file hbytes => exact h.set_file (hne _ rfl) (Or.inr (hloc _ _))

/-- An outlet that gets a message of the same level in either workspace leaves the trees alike. -/
theorem alikeBut_deliver (h : w₁.tree.AlikeBut c.differ w₂.tree) {m₁ m₂ : Message}
    (hlevel : m₂.level = m₁.level) {outlet : Outlet}
    (hdiffer : ∀ loc, outlet = .runLog (.file loc) → ∀ b₁ b₂, c.differ loc b₁ b₂) :
    (deliver m₁ w₁ outlet).tree.AlikeBut c.differ (deliver m₂ w₂ outlet).tree := by
  rw [deliver, deliver, hlevel]
  split
  · rcases outlet with level | ⟨loc | _⟩
    · exact h
    · exact alikeBut_appendAt h (hdiffer loc rfl) _ _
    · exact h
  · exact h

theorem alikeBut_foldl_deliver (h : w₁.tree.AlikeBut c.differ w₂.tree) {m₁ m₂ : Message}
    (hlevel : m₂.level = m₁.level) {outlets : List Outlet}
    (hdiffer : ∀ loc, .runLog (.file loc) ∈ outlets → ∀ b₁ b₂, c.differ loc b₁ b₂) :
    (outlets.foldl (deliver m₁) w₁).tree.AlikeBut c.differ
      (outlets.foldl (deliver m₂) w₂).tree := by
  induction outlets generalizing w₁ w₂ with
  | nil => exact h
  | cons outlet outlets ih =>
    refine ih (alikeBut_deliver h hlevel fun loc heq => ?_) fun loc hmem => ?_
    · exact hdiffer loc (by rw [heq]; exact List.mem_cons_self)
    · exact hdiffer loc (List.mem_cons_of_mem _ hmem)

theorem Alike.say (h : w₁.Alike c w₂) {m₁ m₂ : Message} (hlevel : m₂.level = m₁.level) :
    (w₁.say m₁).tree.AlikeBut c.differ (w₂.say m₂).tree := by
  rw [Workspace.say, Workspace.say, h.log, hlevel]
  split
  · exact h.tree
  · split
    · split
      · exact h.tree
      · exact h.tree
    · exact alikeBut_foldl_deliver h.tree hlevel h.runLog

end Workspace

namespace Action

variable {α α' β β' : Type} {c : Common}

/-- The actions end in the same way: in faults of which both or neither are those of a path that
holds NUL, or with values that belong together. -/
inductive SameEnd (V : α → α' → Prop) : Except Fault α → Except Fault α' → Prop where
  | error {fault fault' : Fault} (h : fault'.isNul = fault.isNul) :
    SameEnd V (.error fault) (.error fault')
  | ok {a : α} {a' : α'} (h : V a a') : SameEnd V (.ok a) (.ok a')

theorem SameEnd.refl (result : Except Fault α) : SameEnd Eq result result := by
  cases result with
  | error fault => exact .error rfl
  | ok a => exact .ok rfl

theorem SameEnd.toOption_eq {result result' : Except Fault α} (h : SameEnd Eq result result') :
    result'.toOption = result.toOption := by
  cases h with
  | error _ => rfl
  | ok h => rw [h]

/-- From alike workspaces, the actions end in the same way and leave alike workspaces, provided that
no place that the first one leaves is missing in the end. -/
def Lockstep (c : Common) (V : α → α' → Prop) (action : Action α) (action' : Action α') : Prop :=
  ∀ w₁ w₂ : Workspace, w₁.Alike c w₂ → (action.perform w₁).2.tree.Grows c.last →
    SameEnd V (action.perform w₁).1 (action'.perform w₂).1
      ∧ (action.perform w₁).2.Alike c (action'.perform w₂).2

/-! ## Putting actions together -/

theorem lockstep_pure {V : α → α' → Prop} {a : α} {a' : α'} (h : V a a') :
    Lockstep c V (pure a) (pure a') :=
  fun _ _ halike _ => ⟨.ok h, halike⟩

/-- What the workspaces are can be used in what follows. -/
theorem lockstep_get :
    Lockstep c (fun w₁ w₂ => w₁.Alike c w₂ ∧ w₁.tree.Grows c.last) get get :=
  fun _ _ halike hlast => ⟨.ok ⟨halike, hlast⟩, halike⟩

theorem lockstep_look (f f' : Workspace → α) :
    Lockstep c (fun a a' => ∃ w₁ w₂, w₁.Alike c w₂ ∧ w₁.tree.Grows c.last ∧ a = f w₁ ∧ a' = f' w₂)
      (look f) (look f') :=
  fun w₁ w₂ halike hlast => ⟨.ok ⟨w₁, w₂, halike, hlast, rfl, rfl⟩, halike⟩

theorem lockstep_throw {V : α → α' → Prop} {fault fault' : Fault}
    (h : fault'.isNul = fault.isNul) : Lockstep c V (throw fault) (throw fault') :=
  fun _ _ halike _ => ⟨.error h, halike⟩

theorem lockstep_lift {V : α → α' → Prop} {result : Except Fault α} {result' : Except Fault α'}
    (h : SameEnd V result result') : Lockstep c V (lift result) (lift result') := by
  intro w₁ w₂ halike _
  rw [perform_lift, perform_lift]
  exact ⟨h, halike⟩

/-- One action after the other. What the first one leaves is among what both leave. -/
theorem Lockstep.bind {V : α → α' → Prop} {U : β → β' → Prop} {action : Action α}
    {action' : Action α'} {next : α → Action β} {next' : α' → Action β'}
    (h : Lockstep c V action action') (hexpands : action.Expands)
    (hnexts : ∀ a, (next a).Expands)
    (hnext : ∀ a a', V a a' → Lockstep c U (next a) (next' a')) :
    Lockstep c U (action >>= next) (action' >>= next') := by
  intro w₁ w₂ halike hlast
  have hfirst := h w₁ w₂ halike
  have hgrown := hexpands w₁ halike.wellFormed₁ halike.directory₁
  rw [perform_bind] at hlast ⊢
  rw [perform_bind]
  rcases hperform : action.perform w₁ with ⟨result, w₁'⟩
  rcases hperform' : action'.perform w₂ with ⟨result', w₂'⟩
  rw [hperform] at hlast hfirst hgrown
  rw [hperform'] at hfirst
  cases result with
  | error fault =>
    obtain ⟨hend, halike'⟩ := hfirst hlast
    cases hend with
    | error hnul => exact ⟨.error hnul, halike'⟩
  | ok a =>
    have hrest := hnexts a w₁' hgrown.wellFormed (hgrown.directory halike.directory₁)
    obtain ⟨hend, halike'⟩ := hfirst (hrest.grows.trans hlast)
    cases hend with
    | ok hvalue => exact hnext _ _ hvalue w₁' w₂' halike' hlast

/-- One action after the other, where the value does not matter or is the same. -/
theorem Lockstep.and_then {U : β → β' → Prop} {action action' : Action α} {next : α → Action β}
    {next' : α → Action β'} (h : Lockstep c Eq action action') (hexpands : action.Expands)
    (hnexts : ∀ a, (next a).Expands)
    (hnext : ∀ a, Lockstep c U (next a) (next' a)) :
    Lockstep c U (action >>= next) (action' >>= next') := by
  refine h.bind hexpands hnexts ?_
  rintro a _ rfl
  exact hnext a

/-- Loops over the same list whose rounds go in lockstep. -/
theorem Lockstep.foldlM {f f' : β → α → Action β} {xs : List α} (hexpands : ∀ b x, (f b x).Expands)
    (h : ∀ x ∈ xs, ∀ b, Lockstep c Eq (f b x) (f' b x)) (b : β) :
    Lockstep c Eq (xs.foldlM f b) (xs.foldlM f' b) := by
  induction xs generalizing b with
  | nil => exact lockstep_pure rfl
  | cons x xs ih =>
    rw [List.foldlM_cons, List.foldlM_cons]
    exact (h x List.mem_cons_self b).and_then (hexpands b x) (fun b => Expands.foldlM hexpands b)
      fun b => ih (fun y hy => h y (List.mem_cons_of_mem _ hy)) b

theorem Lockstep.attempt {V : α → α' → Prop} {action : Action α} {action' : Action α'}
    (h : Lockstep c V action action') :
    Lockstep c (SameEnd V) (Action.attempt action) (Action.attempt action') := by
  intro w₁ w₂ halike hlast
  rw [perform_attempt] at hlast ⊢
  rw [perform_attempt]
  obtain ⟨hend, halike'⟩ := h w₁ w₂ halike hlast
  exact ⟨.ok hend, halike'⟩

/-- What the faults of both can be can be used in what follows. -/
theorem Lockstep.attempt_of_failsOnly {V : α → α' → Prop} {E : Fault → Prop} {action : Action α}
    {action' : Action α'} (h : Lockstep c V action action') (hfails : action.FailsOnly E)
    (hfails' : action'.FailsOnly E) :
    Lockstep c (fun result result' => SameEnd V result result'
        ∧ Ends E (fun _ => True) result ∧ Ends E (fun _ => True) result')
      (Action.attempt action) (Action.attempt action') := by
  intro w₁ w₂ halike hlast
  rw [perform_attempt] at hlast ⊢
  rw [perform_attempt]
  obtain ⟨hend, halike'⟩ := h w₁ w₂ halike hlast
  exact ⟨.ok ⟨hend, hfails w₁, hfails' w₂⟩, halike'⟩

/-! ## Steps -/

/-- The messages may differ, as the run log may. -/
theorem lockstep_say (component : String) (level : Int) (text text' : String) :
    Lockstep c Eq (say component level text) (say component level text') :=
  fun w₁ w₂ halike _ => by
    have haside := w₁.aside_say ⟨loggerOf (some component), level, text⟩
    have haside' := w₂.aside_say ⟨loggerOf (some component), level, text'⟩
    refine ⟨.ok rfl, halike.grown (halike.say rfl)
      (expands_say component level text w₁ halike.wellFormed₁ halike.directory₁)
      (expands_say component level text' w₂ halike.wellFormed₂ halike.directory₂)
      haside.log haside'.log ?_⟩
    exact haside'.output.trans (halike.output.trans haside.output.symm)

/-- A message each, and then something else. -/
theorem Lockstep.after_say {V : α → α' → Prop} {next : Action α} {next' : Action α'}
    (hnext : Lockstep c V next next') (hexpands : next.Expands) (component : String) (level : Int)
    (text text' : String) :
    Lockstep c V
      (do
        say component level text
        next)
      (do
        say component level text'
        next') :=
  (lockstep_say component level text text').and_then (expands_say _ _ _) (fun _ => hexpands)
    fun _ => hnext

theorem lockstep_makeDirectories (path : Path) :
    Lockstep c Eq (makeDirectories path) (makeDirectories path) := by
  intro w₁ w₂ halike _
  have hgrown := expands_makeDirectories path w₁ halike.wellFormed₁ halike.directory₁
  have hgrown' := expands_makeDirectories path w₂ halike.wellFormed₂ halike.directory₂
  obtain ⟨hend, htree⟩ := halike.tree.makeDirectories c.cwd path
  rw [perform_makeDirectories, halike.cwd₁] at hgrown ⊢
  rw [perform_makeDirectories, halike.cwd₂] at hgrown' ⊢
  refine ⟨?_, halike.grown htree hgrown hgrown' rfl rfl halike.output⟩
  rw [← hend]
  exact .refl _

theorem lockstep_put (path : Path) (bytes : List UInt8) :
    Lockstep c Eq (put path bytes) (put path bytes) := by
  intro w₁ w₂ halike _
  have hgrown := expands_put path bytes w₁ halike.wellFormed₁ halike.directory₁
  have hgrown' := expands_put path bytes w₂ halike.wellFormed₂ halike.directory₂
  have hput := halike.tree.put c.cwd path bytes
  rw [perform_put, halike.cwd₁] at hgrown ⊢
  rw [perform_put, halike.cwd₂] at hgrown' ⊢
  generalize w₁.tree.put c.cwd path bytes = put₁, w₂.tree.put c.cwd path bytes = put₂
    at hput hgrown hgrown'
  cases hput with
  | error fault => exact ⟨.error rfl, halike⟩
  | ok htree => exact ⟨.ok rfl, halike.grown htree hgrown hgrown' rfl rfl halike.output⟩

/-- Opening a file whose bytes may differ. -/
theorem lockstep_openFile {path : Path}
    (hdiffer : ∀ tree : FileTree, tree.WellFormed → tree.get? c.cwd = some .directory →
      ∀ loc, tree.filePlace c.cwd path = .ok loc → ∀ b₁ b₂, c.differ loc b₁ b₂) :
    Lockstep c (fun loc loc' => loc' = loc ∧ ∀ b₁ b₂, c.differ loc b₁ b₂)
      (openFile path) (openFile path) := by
  intro w₁ w₂ halike _
  have hgrown := expands_openFile path w₁ halike.wellFormed₁ halike.directory₁
  have hgrown' := expands_openFile path w₂ halike.wellFormed₂ halike.directory₂
  have hsame := halike.tree.filePlace c.cwd path
  rw [openFile, perform_bind_ok (perform_get w₁), halike.cwd₁] at hgrown ⊢
  rw [openFile, perform_bind_ok (perform_get w₂), halike.cwd₂, ← hsame] at hgrown'
  rw [perform_bind_ok (perform_get w₂), halike.cwd₂, ← hsame]
  rcases hplace : w₁.tree.filePlace c.cwd path with fault | loc
  · exact ⟨.error rfl, halike⟩
  · rw [hplace] at hgrown hgrown'
    have hne := FileTree.ne_nil_of_filePlace hplace
    refine ⟨.ok ⟨rfl, hdiffer w₁.tree halike.wellFormed₁ halike.directory loc hplace⟩,
      halike.grown ?_ hgrown hgrown' rfl rfl halike.output⟩
    show (if _ then _ else _ : FileTree).AlikeBut c.differ (if _ then _ else _)
    rw [← halike.tree.isSome_eq]
    split
    · exact halike.tree
    · exact halike.tree.set_file hne (Or.inl rfl)

/-- Opening a run log whose bytes may differ. -/
theorem lockstep_openRunLog {path : Path}
    (hdiffer : ∀ w : Workspace, w.tree.WellFormed → w.cwd = c.cwd →
      w.tree.get? w.cwd = some .directory → ∀ loc,
      w.tree.filePlace w.cwd (w.runLogPath path) = .ok loc → ∀ b₁ b₂, c.differ loc b₁ b₂) :
    Lockstep c (fun loc loc' => loc' = loc ∧ ∀ b₁ b₂, c.differ loc b₁ b₂)
      (openRunLog path) (openRunLog path) := by
  refine (lockstep_makeDirectories path.parent).and_then (expands_makeDirectories _)
    (fun _ => expands_get.bind fun _ => expands_openFile _) fun _ => ?_
  refine lockstep_get.bind expands_get (fun _ => expands_openFile _) ?_
  rintro w₁ w₂ ⟨halike, -⟩
  have hpath : w₂.runLogPath path = w₁.runLogPath path := by
    rw [Workspace.runLogPath, Workspace.runLogPath, halike.cwd₁, halike.cwd₂]
  rw [hpath]
  refine lockstep_openFile fun tree hwf hwd loc hplace => ?_
  rw [← halike.cwd₁] at hwd hplace
  exact hdiffer { w₁ with tree } hwf halike.cwd₁ hwd loc hplace

/-- The same change of the log, by which no run log gets in whose bytes may not differ. -/
theorem lockstep_changeLog {f : Log → Log}
    (hf : ∀ log loc, .runLog (.file loc) ∈ (f log).outlets →
      .runLog (.file loc) ∈ log.outlets ∨ ∀ b₁ b₂, c.differ loc b₁ b₂) :
    Lockstep c Eq (changeLog f) (changeLog f) := by
  intro w₁ w₂ halike _
  rw [changeLog, perform_modify, perform_modify, halike.log]
  exact ⟨.ok rfl, { halike with
    log := rfl
    runLog := fun loc hlog => (hf w₁.log loc hlog).elim (halike.runLog loc) id }⟩

theorem lockstep_attach {outlet : Outlet}
    (hdiffer : ∀ loc, outlet = .runLog (.file loc) → ∀ b₁ b₂, c.differ loc b₁ b₂) :
    Lockstep c Eq (attach outlet) (attach outlet) := by
  refine lockstep_changeLog fun log loc hmem => ?_
  rcases List.mem_append.1 hmem with hmem | hmem
  · exact Or.inl hmem
  · exact Or.inr (hdiffer loc (List.mem_singleton.1 hmem).symm)

theorem lockstep_print (text : String) : Lockstep c Eq (print text) (print text) := by
  intro w₁ w₂ halike _
  rw [print, perform_modify, perform_modify, halike.output]
  exact ⟨.ok rfl, { halike with output := rfl }⟩

end Action
end RefPages
