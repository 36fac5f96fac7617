import RefPages.Proofs.Run

/-!
# Dry runs

A dry run makes every page and writes none. It reads the files of a tree that stays as it is, while
a run reads them from a tree that it changes meanwhile. Still the two count the same: a run reads
every source file as it was at the start.

* `isDirectory_of_short`: whether a path leads to a directory can be told, unless it is too long.
* `visit_dry` and `foldlM_visit_dry`: a dry visit never fails, and does nothing but count and show
  messages; so do several.
* `Counts.unique`: the source files decide the tally.
* `run_dry`: **a dry run changes no file, never fails, and gives the tally of the run.**
-/

set_option autoImplicit false
namespace RefPages

/-! ## Paths that are not too long -/

namespace FileTree

/-- Short names are never too long, wherever they are followed from. -/
theorem followNames_ne_nameTooLong (tree : FileTree) {names : List String}
    (h : ∀ name ∈ names, name.utf8ByteSize ≤ 255) (at_ : Location) :
    tree.followNames at_ names ≠ .error .nameTooLong := by
  induction names generalizing at_ with
  | nil =>
    rw [followNames]
    split <;> simp
  | cons name rest ih =>
    obtain ⟨hname, hrest⟩ := List.forall_mem_cons.1 h
    rw [followNames, if_neg (Nat.not_lt.2 hname)]
    split
    · simp
    · split
      · exact ih hrest _
      · simp only
        split
        · exact ih hrest _
        · split <;> simp

/-- Whether a path leads to a directory can be told, unless it is too long. -/
theorem isDirectory_of_short (tree : FileTree) (cwd : Location) {path : Path}
    (hpath : path.toString.utf8ByteSize < 4096)
    (hnames : ∀ name ∈ path.names, name.utf8ByteSize ≤ 255) :
    ∃ isDir, tree.isDirectory cwd path = .ok isDir := by
  have hlookup : tree.lookup cwd path ≠ .error .nameTooLong := by
    rw [lookup, if_neg (Nat.not_le.2 hpath)]
    split
    · simp
    · exact tree.followNames_ne_nameTooLong hnames _
  rw [isDirectory]
  split
  · exact ⟨true, rfl⟩
  · exact ⟨false, rfl⟩
  · rename_i hlong
    exact absurd hlong hlookup
  · exact ⟨false, rfl⟩

end FileTree

namespace Generator

variable {g : Generator} {outputRoot : Path} {w w' : Workspace} {tally tally' : Tally}

/-! ## Dry visits -/

/-- A page that is not written is counted all the same. -/
theorem generate_dry (g : Generator) (outputRoot : Path) (tally : Tally) (doc : Document)
    (w : Workspace) :
    ∃ w', (g.generate outputRoot true tally doc).perform w
        = (.ok (tally.withPage (g.outputPath outputRoot doc)), w')
      ∧ w.Aside w' :=
  Action.exists_perform_say fun w1 haside => ⟨w1, rfl, haside⟩

/-- **A dry visit** never fails: the file is counted, and the workspace shows messages at most. -/
theorem visit_dry (g : Generator) (outputRoot : Path) (tally : Tally) (path : Path)
    (w : Workspace) :
    ∃ tally' w', (g.visit outputRoot true tally path).perform w = (.ok tally', w')
      ∧ Counts g outputRoot w.tree w.cwd [path] tally tally' ∧ w.Aside w' := by
  cases hat : g.documentAt w.tree w.cwd path with
  | error fault =>
    obtain ⟨w', hvisit, haside⟩ := visit_unreadable hat outputRoot true tally
    exact ⟨_, w', hvisit, counts_unreadable hat outputRoot tally, haside⟩
  | ok doc? =>
    cases doc? with
    | none =>
      obtain ⟨w', hvisit, haside⟩ := visit_undocumented hat outputRoot true tally
      exact ⟨_, w', hvisit, counts_undocumented hat outputRoot tally, haside⟩
    | some doc =>
      obtain ⟨w1, haside, hvisit⟩ := perform_visit g outputRoot true tally path w
      obtain ⟨w', hgenerate, haside'⟩ := generate_dry g outputRoot
        { tally with scanned := tally.scanned + 1 } doc w1
      rw [hat] at hvisit
      exact ⟨_, w', hvisit.trans hgenerate, counts_document hat outputRoot tally,
        haside.trans haside'⟩

/-- **Several dry visits** never fail, and do what each of them does. -/
theorem foldlM_visit_dry (g : Generator) (outputRoot : Path) (files : List Path) (tally : Tally)
    {w : Workspace} (hlog : w.log.runLogs = []) :
    ∃ tally' w', (files.foldlM (g.visit outputRoot true) tally).perform w = (.ok tally', w')
      ∧ Counts g outputRoot w.tree w.cwd files tally tally' ∧ w.Aside w' := by
  induction files generalizing tally w with
  | nil => exact ⟨tally, w, rfl, ⟨rfl, rfl, rfl, (List.append_nil _).symm⟩, .refl w⟩
  | cons path files ih =>
    obtain ⟨tally1, w1, hvisit, hcounts, haside⟩ := visit_dry g outputRoot tally path w
    obtain ⟨tally', w', hrest, hcounts', haside'⟩ :=
      ih tally1 (w := w1) (by rw [haside.log]; exact hlog)
    rw [haside.tree hlog, haside.cwd] at hcounts'
    refine ⟨tally', w', ?_, hcounts.cons hcounts', haside.trans haside'⟩
    rw [List.foldlM_cons, Action.perform_bind_ok hvisit, hrest]

/-! ## The dry run -/

/-- The walk of a dry run. -/
theorem walk_dry (g : Generator) (outputRoot : Path) (tally : Tally) {sourceRoot : Path}
    (hwf : w.tree.WellFormed) (hlog : w.log.runLogs = []) {isDir : Bool}
    (hdir : w.tree.isDirectory w.cwd sourceRoot = .ok isDir) :
    ∃ tally' w', (walk g.eligible (g.visit outputRoot true) sourceRoot tally).perform w
        = (.ok tally', w')
      ∧ Counts g outputRoot w.tree w.cwd (listedFiles g.eligible w.tree w.cwd sourceRoot) tally
        tally'
      ∧ w.Aside w' := by
  rw [perform_walk (I := w.Aside) hwf (fun w' haside => ?_)
    (fun path _ tally w1 tally' w' hw h => ?_) tally (.refl w), hdir]
  · exact foldlM_visit_dry g outputRoot _ tally hlog
  · rw [haside.tree hlog]
    exact ⟨.refl hwf g.eligible, haside.cwd⟩
  · obtain ⟨tally2, w2, hvisit, -, haside⟩ := visit_dry g outputRoot tally path w1
    rw [h] at hvisit
    cases hvisit
    exact hw.trans haside

/-- The counts of a dry run, which never fails if its source root is not too long. -/
theorem run_dry_spec (g : Generator) {sourceRoot : Path} (outputRoot : Path)
    (hwf : w.tree.WellFormed) (hlog : w.log.runLogs = []) {isDir : Bool}
    (hdir : w.tree.isDirectory w.cwd sourceRoot = .ok isDir) :
    ∃ tally w', (g.run sourceRoot outputRoot true).perform w = (.ok tally, w')
      ∧ Counts g outputRoot w.tree w.cwd (listedFiles g.eligible w.tree w.cwd sourceRoot) {} tally
      ∧ w.Aside w' := by
  refine Action.exists_ok_say fun w1 haside1 => Action.exists_ok_say fun w2 haside2 => ?_
  have haside := haside1.trans haside2
  have htree : w2.tree = w.tree := haside.tree hlog
  obtain ⟨tally, w3, hwalk, hcounts, haside3⟩ := walk_dry (w := w2) g outputRoot {}
    (by rw [htree]; exact hwf) (by rw [haside.log]; exact hlog)
    (by rw [htree, haside.cwd]; exact hdir)
  rw [htree, haside.cwd] at hcounts
  rw [Action.perform_bind_ok hwalk]
  exact Action.exists_ok_say fun w4 haside4 =>
    ⟨tally, w4, rfl, hcounts, haside.trans (haside3.trans haside4)⟩

/-- The source files decide the tally. -/
theorem Counts.unique {tree : FileTree} {cwd : Location} {files : List Path} {tally₁ tally₂ : Tally}
    (h₁ : Counts g outputRoot tree cwd files tally tally₁)
    (h₂ : Counts g outputRoot tree cwd files tally tally₂) : tally₁ = tally₂ := by
  cases tally₁
  cases tally₂
  simp only [Tally.mk.injEq]
  exact ⟨h₁.scanned.trans h₂.scanned.symm, h₁.generated.trans h₂.generated.symm,
    h₁.skipped.trans h₂.skipped.symm, h₁.outputs.trans h₂.outputs.symm⟩

/-- **A dry run gives the tally of the run and changes no file.** If the path of the source root is
not too long, it never fails. From a workspace without a run log it leaves the tree as it was, and
if the run from the same workspace ends without a fault, and no page is named like a source file,
the two tallies are the same: the counts and the outputs in their order. -/
theorem run_dry (g : Generator) (sourceRoot outputRoot : Path) {w : Workspace}
    (hwf : w.tree.WellFormed) (hwd : w.tree.get? w.cwd = some .directory)
    (hlog : w.log.runLogs = []) (hpath : sourceRoot.toString.utf8ByteSize < 4096)
    (hnames : ∀ name ∈ sourceRoot.names, name.utf8ByteSize ≤ 255) :
    ∃ tally w', (g.run sourceRoot outputRoot true).perform w = (.ok tally, w')
      ∧ w'.tree = w.tree
      ∧ ((∀ doc ∈ g.documents w.tree w.cwd (listedFiles g.eligible w.tree w.cwd sourceRoot),
          g.eligible.hasExtension (g.outputPath outputRoot doc).name = false) →
        ∀ tally' w'', (g.run sourceRoot outputRoot false).perform w = (.ok tally', w'') →
          tally' = tally) := by
  obtain ⟨isDir, hdir⟩ := w.tree.isDirectory_of_short w.cwd hpath hnames
  obtain ⟨tally, w', hdry, hcounts, haside⟩ := run_dry_spec g outputRoot hwf hlog hdir
  refine ⟨tally, w', hdry, haside.tree hlog, fun hname tally' w'' hrun => ?_⟩
  obtain ⟨-, hcounts', -⟩ := run_spec hwf hwd hlog hname hrun
  exact hcounts'.unique hcounts

/-- A dry run on three nested source files changes nothing, and counts what the run counts. -/
theorem run_dry_nested :
    ∃ tally w1 w2, (run { extractors := [.identifier] } ⟨.here, ["src"]⟩ ⟨.here, ["out"]⟩
        true).perform nested = (.ok tally, w1)
      ∧ w1.tree = nested.tree
      ∧ (run { extractors := [.identifier] } ⟨.here, ["src"]⟩ ⟨.here, ["out"]⟩
        false).perform nested = (.ok tally, w2)
      ∧ tally = ⟨3, 2, 1,
        [⟨.here, ["out", "other", "a.mdx"]⟩, ⟨.here, ["out", "other", "a.mdx"]⟩]⟩ := by
  obtain ⟨tally, w2, hrun⟩ := exists_run_nested
  obtain ⟨tally', w1, hdry, htree, hsame⟩ := run_dry { extractors := [.identifier] }
    ⟨.here, ["src"]⟩ ⟨.here, ["out"]⟩ (w := nested) (by decide) rfl rfl (by decide) (by decide)
  obtain rfl := hsame (by decide +kernel) tally w2 hrun
  have htally : ((run { extractors := [.identifier] } ⟨.here, ["src"]⟩ ⟨.here, ["out"]⟩
      false).perform nested).1.toOption = some
        ⟨3, 2, 1, [⟨.here, ["out", "other", "a.mdx"]⟩, ⟨.here, ["out", "other", "a.mdx"]⟩]⟩ := by
    decide +kernel
  rw [hrun] at htally
  exact ⟨tally, w1, w2, hdry, htree, hrun, Option.some.inj htally⟩

end Generator
end RefPages
