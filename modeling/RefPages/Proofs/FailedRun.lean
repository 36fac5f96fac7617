import Mathlib.Control.Monad.Basic
import RefPages.Proofs.DryRun
import RefPages.Proofs.FileTree.NulPath
import RefPages.Proofs.Pages

/-!
# Runs that fail

A run fails only where a page cannot be written. The pages before it are all there, those after it
have not been touched, and no file that cannot be read has anything to do with it.

* `exists_of_documents_eq` finds the source file of a document among those of a run.
* `Generator.Wrote.get?_failed` is what the tree holds, place by place, after the pages of some
  documents and an attempt at one more.
* `Generator.run_failed`: **a run that fails leaves the pages up to the first one that cannot be
  written**, and gives its fault.
-/

set_option autoImplicit false
namespace RefPages

open Text

namespace Generator

variable {g : Generator} {outputRoot : Path}

/-- A document among those of source files is that of one of them, and the documents before it are
those of the files before that. -/
theorem exists_of_documents_eq {tree : FileTree} {cwd : Location} {files : List Path}
    {front back : List Document} {doc : Document}
    (h : g.documents tree cwd files = front ++ doc :: back) :
    ∃ before path after, files = before ++ path :: after
      ∧ g.documents tree cwd before = front ∧ g.documentAt tree cwd path = .ok (some doc) := by
  obtain ⟨files₁, files₂, rfl, rfl, hback⟩ := List.filterMap_eq_append_iff.1 h
  obtain ⟨passed, path, after, rfl, hpassed, hpath, -⟩ := List.filterMap_eq_cons_iff.1 hback
  refine ⟨files₁ ++ passed, path, after, by rw [List.append_assoc], ?_, documentAt_eq hpath⟩
  rw [documents, List.filterMap_append, List.filterMap_eq_nil_iff.2 hpassed, List.append_nil]

/-- **What is left of an attempt.** The last page of the documents that goes to a place is there.
Any other place is as it was, or a directory that was missing above a page, be it the one that could
not be written. -/
theorem Wrote.get?_failed {cwd : Location} {docs : List Document} {doc : Document}
    {tree mid tree' : FileTree} (h : Wrote g outputRoot cwd docs tree mid)
    (hadds : FileTree.AddsDirectories ((g.outputPath outputRoot doc).parent.trail cwd) mid tree')
    (loc : Location) :
    match g.lastAt? outputRoot cwd docs loc with
    | some last => tree'.get? loc = some (.file (utf8Encode last.page))
    | none => tree'.get? loc = tree.get? loc
      ∨ (g.isAbove outputRoot cwd (docs ++ [doc]) loc = true ∧ tree.get? loc = none
        ∧ tree'.get? loc = some .directory) := by
  have hmid := h.get? loc
  cases hlast : g.lastAt? outputRoot cwd docs loc with
  | some last =>
    rw [hlast] at hmid
    rcases hadds.get? loc with hsame | ⟨-, hnone, -⟩
    · exact hsame.trans hmid
    · rw [hmid] at hnone
      exact absurd hnone (by simp)
  | none =>
    rw [hlast] at hmid
    simp only at hmid ⊢
    rcases hadds.get? loc with hsame | ⟨hmem, hnone, hnew⟩
    · rw [hsame, hmid]
      split
      · rename_i habove
        rcases h.above loc habove with hold | hold
        · refine Or.inr ⟨?_, hold, rfl⟩
          rw [isAbove, List.any_append, ← isAbove, habove, Bool.true_or]
        · exact Or.inl hold.symm
      · exact Or.inl rfl
    · right
      refine ⟨?_, ?_, hnew⟩
      · rw [isAbove, List.any_append, Bool.or_eq_true]
        exact Or.inr (by simpa using hmem)
      · rw [hmid] at hnone
        split at hnone
        · exact absurd hnone (by simp)
        · exact hnone

/-- **A run that fails leaves the pages up to the first one that cannot be written**, and gives its
fault. From a workspace without a run log, where no page is named like a source file and the path of
the source root is not too long, the fault is that of making the directory of a page or of writing
it; it is the system's fault exactly if the path of what could not be made does not hold NUL. The
page is that of the document of a source file, and the pages of all documents before it have been
written. Apart from those, of which the last one at a place stays, and from directories that were
missing above the pages, the tree is as it was. A file that cannot be read never ends the run. -/
theorem run_failed (g : Generator) (sourceRoot outputRoot : Path) {w w' : Workspace} {fault : Fault}
    (hwf : w.tree.WellFormed) (hwd : w.tree.get? w.cwd = some .directory)
    (hlog : w.log.runLogs = []) (hpath : sourceRoot.toString.utf8ByteSize < 4096)
    (hnames : ∀ name ∈ sourceRoot.names, name.utf8ByteSize ≤ 255)
    (hname : ∀ doc ∈ g.documents w.tree w.cwd (listedFiles g.eligible w.tree w.cwd sourceRoot),
      g.eligible.hasExtension (g.outputPath outputRoot doc).name = false)
    (h : (g.run sourceRoot outputRoot false).perform w = (.error fault, w')) :
    ∃ files before path after doc fileFault tree,
      (sourceFiles g.eligible sourceRoot).perform w = (.ok files, w)
      ∧ files = before ++ path :: after
      ∧ g.documentAt w.tree w.cwd path = .ok (some doc)
      ∧ fault = Fault.file fileFault
      ∧ w.tree.writeFiles w.cwd (g.pages outputRoot (g.documents w.tree w.cwd before))
        = (tree, .ok ())
      ∧ (tree.makeDirectories w.cwd (g.outputPath outputRoot doc).parent
            = (w'.tree, .error fileFault)
          ∧ fileFault.isSystem = !(g.outputPath outputRoot doc).parent.holdsNul
        ∨ tree.makeDirectories w.cwd (g.outputPath outputRoot doc).parent = (w'.tree, .ok ())
          ∧ w'.tree.put w.cwd (g.outputPath outputRoot doc) (utf8Encode doc.page)
            = .error fileFault
          ∧ fileFault.isSystem = !(g.outputPath outputRoot doc).holdsNul)
      ∧ (∀ loc, match g.lastAt? outputRoot w.cwd (g.documents w.tree w.cwd before) loc with
        | some last => w'.tree.get? loc = some (.file (utf8Encode last.page))
        | none => w'.tree.get? loc = w.tree.get? loc
          ∨ (g.isAbove outputRoot w.cwd (g.documents w.tree w.cwd before ++ [doc]) loc = true
            ∧ w.tree.get? loc = none ∧ w'.tree.get? loc = some .directory))
      ∧ ∀ path ∈ files, unreadable w.tree w.cwd path = true → ∀ w1, Running g w w1 → ∀ tally,
        ∃ tally' w2, (g.visit outputRoot false tally path).perform w1 = (.ok tally', w2)
          ∧ w2.tree = w1.tree ∧ tally'.outputs = tally.outputs := by
  obtain ⟨isDir, hdir⟩ := w.tree.isDirectory_of_short w.cwd hpath hnames
  obtain ⟨fileFault, rfl, hwrite⟩ :=
    (run_writes g outputRoot hwf hwd hlog hname hdir).of_error h
  obtain ⟨front, page, bytes, back, tree, hpages, hfront, hfault⟩ :=
    FileTree.exists_of_writeFiles_error hwrite
  obtain ⟨docs, docs', hdocs, rfl, hrest⟩ := List.map_eq_append_iff.1 hpages
  obtain ⟨doc, later, rfl, hpage, -⟩ := List.map_eq_cons_iff.1 hrest
  obtain ⟨rfl, rfl⟩ := Prod.mk.inj hpage
  obtain ⟨before, path, after, hfiles, rfl, hdoc⟩ := exists_of_documents_eq hdocs
  have hwrote := wrote_of_writeFiles hwf hwd hfront
  have hadds := FileTree.addsDirectories_of_writeFile_error
    (FileTree.grows_of_writeFiles hwf hwd hfront).1 hfault
  refine ⟨_, before, path, after, doc, fileFault, tree, perform_sourceFiles hwf hdir, hfiles, hdoc,
    rfl, hfront, ?_, hwrote.get?_failed hadds, fun path hpath hunreadable w1 hw1 tally => ?_⟩
  · exact (FileTree.writeFile_error_cases hfault).imp
      (fun hmake => ⟨hmake, FileTree.isSystem_of_makeDirectories hmake⟩)
      fun hput => ⟨hput.1, hput.2, FileTree.isSystem_of_put hput.2⟩
  refine exists_visit_of_documents_nil (by rw [hw1.log]; exact hlog) ?_ outputRoot tally
  rw [unreadable_eq g] at hunreadable
  rw [documents, List.filterMap_cons, hw1.documentAt hwf hpath]
  cases hat : g.documentAt w.tree w.cwd path with
  | error fault => rfl
  | ok doc? =>
    rw [hat] at hunreadable
    exact absurd hunreadable (by simp [Except.toBool])

/-- Three source files, one below the other; where the page of the second one is to go, a file is in
the way of the directory. -/
def blocked : Workspace where
  tree := ⟨[(["out"], .directory), (["out", "equality"], .file []), (["src"], .directory),
    (["src", "a.d"], .file (utf8Encode "void first(ref Evaluation e)")),
    (["src", "operations"], .directory), (["src", "operations", "equality"], .directory),
    (["src", "operations", "equality", "b.d"],
      .file (utf8Encode "void second(ref Evaluation e)")),
    (["src", "operations", "equality", "z"], .directory),
    (["src", "operations", "equality", "z", "c.d"],
      .file (utf8Encode "void third(ref Evaluation e)"))]⟩

/-- The run ends at the second page. Whichever pages were before it, no file is new but theirs: that
of the first source file is there, and that of the third is not. With an extension that holds NUL,
it ends at the first page, and the fault is not the system's. -/
theorem run_failed_blocked :
    (∃ w', (run { extractors := [.identifier] } ⟨.here, ["src"]⟩ ⟨.here, ["out"]⟩
        false).perform blocked
          = (.error (Fault.file ⟨.alreadyThere, ⟨.here, ["out", "equality"]⟩⟩), w')
      ∧ (∃ before path after, [⟨.here, ["src", "a.d"]⟩,
          ⟨.here, ["src", "operations", "equality", "b.d"]⟩,
          ⟨.here, ["src", "operations", "equality", "z", "c.d"]⟩] = before ++ path :: after
        ∧ ∀ loc, lastAt? { extractors := [.identifier] } ⟨.here, ["out"]⟩ []
            (documents { extractors := [.identifier] } blocked.tree [] before) loc = none →
          ∀ bytes, w'.tree.get? loc = some (.file bytes) →
            blocked.tree.get? loc = some (.file bytes))
      ∧ w'.tree.get? ["out", "other", "a.mdx"] = some (.file (utf8Encode
        (Document.page { name := "a", identifier? := some "first" })))
      ∧ w'.tree.get? ["out", "equality", "c.mdx"] = none)
    ∧ ((run { extractors := [.identifier], outputExtension := ".m\x00x" } ⟨.here, ["src"]⟩
        ⟨.here, ["out"]⟩ false).perform blocked).1
          = .error (Fault.file ⟨.nulInPath, ⟨.here, ["out", "other", "a.m\x00x"]⟩⟩) := by
  refine ⟨?_, by decide +kernel⟩
  have hfault : ((run { extractors := [.identifier] } ⟨.here, ["src"]⟩ ⟨.here, ["out"]⟩
      false).perform blocked).1
        = .error (Fault.file ⟨.alreadyThere, ⟨.here, ["out", "equality"]⟩⟩) := by decide +kernel
  have hfirst : ((run { extractors := [.identifier] } ⟨.here, ["src"]⟩ ⟨.here, ["out"]⟩
      false).perform blocked).2.tree.get? ["out", "other", "a.mdx"] = some (.file (utf8Encode
        (Document.page { name := "a", identifier? := some "first" }))) := by decide +kernel
  have hthird : ((run { extractors := [.identifier] } ⟨.here, ["src"]⟩ ⟨.here, ["out"]⟩
      false).perform blocked).2.tree.get? ["out", "equality", "c.mdx"] = none := by decide +kernel
  have hlist : ((sourceFiles {} ⟨.here, ["src"]⟩).perform blocked).1.toOption = some
      [⟨.here, ["src", "a.d"]⟩, ⟨.here, ["src", "operations", "equality", "b.d"]⟩,
        ⟨.here, ["src", "operations", "equality", "z", "c.d"]⟩] := by decide +kernel
  rcases hrun : (run { extractors := [.identifier] } ⟨.here, ["src"]⟩ ⟨.here, ["out"]⟩
    false).perform blocked with ⟨fault | tally, w'⟩
  · rw [hrun] at hfault hfirst hthird
    obtain rfl : fault = _ := Except.error.inj hfault
    obtain ⟨files, before, path, after, doc, fileFault, tree, hfiles, hsplit, -, -, -, -, hleft,
      -⟩ := run_failed _ _ _ (by decide) rfl rfl (by decide) (by decide) (by decide +kernel) hrun
    rw [hfiles] at hlist
    obtain rfl : files = _ := Option.some.inj hlist
    refine ⟨w', rfl, ⟨before, path, after, hsplit, fun loc hlast bytes hbytes => ?_⟩, hfirst,
      hthird⟩
    have hplace := hleft loc
    rw [show blocked.cwd = [] from rfl, hlast] at hplace
    rcases hplace with hsame | ⟨-, -, hdir⟩
    · rw [← hsame, hbytes]
    · rw [hbytes] at hdir
      exact absurd hdir (by simp)
  · rw [hrun] at hfault
    exact absurd hfault (by simp)

end Generator
end RefPages
