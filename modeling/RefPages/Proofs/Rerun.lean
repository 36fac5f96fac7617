import Mathlib.Data.List.Basic
import RefPages.Proofs.Pages

/-!
# Running again

A second run walks a tree that holds the pages of the first one. It finds the source files that the
first run found, makes the same pages and writes them where they are already. Where several pages go
to the same place, each run writes all of them, and the same one is the last.

* `SameSources.listedFiles`: a later tree with the same source files lists the same files.
* `Generator.pages_again`: pages that have been written can be written again, and the tree stays as
  it is.
* `Generator.run_again`: **a second run gives the same tally and changes nothing.**
-/

set_option autoImplicit false
namespace RefPages

open Text

/-! ## The source files of a later tree -/

namespace SameSources

variable {e : Eligibility} {tree tree' : FileTree} {cwd : Location}

/-- Below a directory of the start, a later tree has the same source files. -/
theorem filesBelow (hwf : tree.WellFormed) (h : SameSources e tree tree') (room : Nat) {dir : Path}
    (hdir : Steady e tree cwd dir) :
    RefPages.filesBelow e tree' cwd room dir = RefPages.filesBelow e tree cwd room dir := by
  match room with
  | 0 => rw [RefPages.filesBelow, RefPages.filesBelow]
  | room + 1 =>
    have hbelow : ∀ name ∈ (tree'.listing cwd dir).2,
        RefPages.filesBelow e tree' cwd (room - name.utf8ByteSize) (dir.join ⟨.here, [name]⟩)
          = RefPages.filesBelow e tree cwd (room - name.utf8ByteSize)
            (dir.join ⟨.here, [name]⟩) := by
      intro name hname
      have hentry := FileTree.isEntryName_of_mem_listing h.wellFormed (Or.inr hname)
      exact h.filesBelow hwf _ (hdir.child hwf (FileTree.ne_of_isEntryName hentry))
    rw [RefPages.filesBelow, RefPages.filesBelow, (sameListing hwf h hdir).files,
      ← flatMap_filesBelow hwf h hdir]
    exact congrArg _ (List.flatMap_congr hbelow)
termination_by room
decreasing_by omega

/-- A directory of the start is listed the same later. -/
theorem listedFiles (hwf : tree.WellFormed) (h : SameSources e tree tree') {root : Path}
    (hdir : tree.isDirectory cwd root = .ok true) :
    RefPages.listedFiles e tree' cwd root = RefPages.listedFiles e tree cwd root
      ∧ tree'.isDirectory cwd root = .ok true := by
  obtain ⟨loc, hloc⟩ := exists_of_isDirectory hdir
  have hdir' : tree'.isDirectory cwd root = .ok true := by rw [FileTree.isDirectory, h.lookup hloc]
  refine ⟨?_, hdir'⟩
  rw [RefPages.listedFiles, RefPages.listedFiles, hdir, hdir']
  exact h.filesBelow hwf _ (steady_of_lookup hloc)

end SameSources

namespace Generator

variable {g : Generator} {outputRoot sourceRoot : Path} {w w' : Workspace} {tally : Tally}

/-! ## The same pages -/

/-- **Pages that have been written can be written again**, and the tree stays as it is. -/
theorem pages_again {cwd : Location} {docs : List Document} {tree tree' : FileTree}
    (hwf : tree.WellFormed) (hwd : tree.get? cwd = some .directory)
    (h : tree.writeFiles cwd (g.pages outputRoot docs) = (tree', .ok ())) :
    tree'.writeFiles cwd (g.pages outputRoot docs) = (tree', .ok ()) := by
  have hstanding := FileTree.standing_of_writeFiles hwf hwd h
  obtain ⟨hwf', hgrows⟩ := FileTree.grows_of_writeFiles hwf hwd h
  obtain ⟨tree'', hagain, hkeys⟩ := FileTree.exists_writeFiles_of_standing hstanding
  have hwd' := hgrows.directory hwd
  obtain ⟨hwf'', -⟩ := FileTree.grows_of_writeFiles hwf' hwd' hagain
  have hfirst := wrote_of_writeFiles hwf hwd h
  have hsecond := wrote_of_writeFiles hwf' hwd' hagain
  rw [hagain]
  refine congrArg (·, _) (FileTree.eq_of_keys hwf'' hwf' hkeys fun loc => ?_)
  -- Both runs leave the last page that goes to a place there, and directories above the pages.
  rw [hsecond.get?, hfirst.get?]
  cases g.lastAt? outputRoot cwd docs loc with
  | some doc => rfl
  | none =>
    simp only
    split <;> rfl

/-- A file that is read the same in both trees has the same document. -/
theorem documents_congr {tree tree' : FileTree} {cwd : Location} {files : List Path}
    (h : ∀ path ∈ files, tree'.readText cwd path = tree.readText cwd path) :
    g.documents tree' cwd files = g.documents tree cwd files
      ∧ files.countP (unreadable tree' cwd) = files.countP (unreadable tree cwd) := by
  constructor
  · refine List.filterMap_congr fun path hpath => ?_
    rw [documentAt, h path hpath, documentAt]
  · refine List.countP_congr fun path hpath => ?_
    rw [unreadable, h path hpath, unreadable]

/-! ## The second run -/

/-- What a second run finds, after the pages have been written: the same files, and the same
documents in them. -/
theorem count_again {tree tree' : FileTree} {cwd : Location} {isDir : Bool}
    (hwf : tree.WellFormed) (hwd : tree.get? cwd = some .directory)
    (hname : ∀ doc ∈ g.documents tree cwd (listedFiles g.eligible tree cwd sourceRoot),
      g.eligible.hasExtension (g.outputPath outputRoot doc).name = false)
    (hdir : tree.isDirectory cwd sourceRoot = .ok isDir)
    (hwrite : tree.writeFiles cwd (g.pages outputRoot (g.documents tree cwd
      (listedFiles g.eligible tree cwd sourceRoot))) = (tree', .ok ())) :
    g.documents tree' cwd (listedFiles g.eligible tree' cwd sourceRoot)
        = g.documents tree cwd (listedFiles g.eligible tree cwd sourceRoot)
      ∧ g.count outputRoot tree' cwd (listedFiles g.eligible tree' cwd sourceRoot) {}
        = g.count outputRoot tree cwd (listedFiles g.eligible tree cwd sourceRoot) {}
      ∧ tree'.isDirectory cwd sourceRoot = .ok isDir := by
  have hsame : SameSources g.eligible tree tree' :=
    (SameSources.refl hwf g.eligible).writeFiles hwd (hasExtension_of_mem_pages hname) hwrite
  cases isDir with
  | true =>
    obtain ⟨hfiles, hdir'⟩ := hsame.listedFiles hwf hdir
    have hread : ∀ path ∈ listedFiles g.eligible tree cwd sourceRoot,
        tree'.readText cwd path = tree.readText cwd path := fun path hpath =>
      hsame.readText hwf hpath
    obtain ⟨hdocs, hskipped⟩ := documents_congr (g := g) hread
    rw [hfiles]
    exact ⟨hdocs, by rw [count, count, hdocs, hskipped], hdir'⟩
  | false =>
    -- Without a source directory no page is written, and the tree is the first one.
    have hnil : listedFiles g.eligible tree cwd sourceRoot = [] := by rw [listedFiles, hdir]
    rw [hnil] at hwrite
    cases hwrite
    exact ⟨rfl, rfl, hdir⟩

/-- **A second run gives the same tally and changes nothing.** If a run ends without a fault, from a
workspace without a run log, and no page is named like a source file, then the same run from the
workspace that it leaves ends without a fault, counts the same, and leaves the tree as it is, also
where several source files have their page at the same place. -/
theorem run_again (g : Generator) (sourceRoot outputRoot : Path) {w w' : Workspace} {tally : Tally}
    (hwf : w.tree.WellFormed) (hwd : w.tree.get? w.cwd = some .directory)
    (hlog : w.log.runLogs = [])
    (hname : ∀ doc ∈ g.documents w.tree w.cwd (listedFiles g.eligible w.tree w.cwd sourceRoot),
      g.eligible.hasExtension (g.outputPath outputRoot doc).name = false)
    (h : (g.run sourceRoot outputRoot false).perform w = (.ok tally, w')) :
    ∃ w'', (g.run sourceRoot outputRoot false).perform w' = (.ok tally, w'')
      ∧ w''.tree = w'.tree := by
  obtain ⟨⟨isDir, hdir⟩, -, -⟩ := run_spec hwf hwd hlog hname h
  obtain ⟨rfl, hwrite, hcwd, hlog'⟩ := (run_writes g outputRoot hwf hwd hlog hname hdir).of_ok h
  obtain ⟨hwf', hgrows⟩ := FileTree.grows_of_writeFiles hwf hwd hwrite
  obtain ⟨hdocs, hcount, hdir'⟩ := count_again hwf hwd hname hdir hwrite
  have hwd' := hgrows.directory hwd
  have hagain := pages_again hwf hwd hwrite
  rw [← hdocs, ← hcwd] at hname hagain
  rw [← hcwd] at hwd' hdir'
  rw [← hcount, ← hcwd]
  obtain ⟨w'', hrun, htree, -, -⟩ := run_writes (w := w') g outputRoot hwf' hwd'
    (by rw [hlog', hlog]) hname hdir'
  rw [hagain] at hrun htree
  exact ⟨w'', hrun, htree⟩

/-- A second run on three nested source files, two of which have their page at the same place. -/
theorem run_again_nested :
    ∃ tally w1 w2, (run { extractors := [.identifier] } ⟨.here, ["src"]⟩ ⟨.here, ["out"]⟩
        false).perform nested = (.ok tally, w1)
      ∧ (run { extractors := [.identifier] } ⟨.here, ["src"]⟩ ⟨.here, ["out"]⟩
        false).perform w1 = (.ok tally, w2)
      ∧ tally.outputs
        = [⟨.here, ["out", "other", "a.mdx"]⟩, ⟨.here, ["out", "other", "a.mdx"]⟩]
      ∧ w2.tree = w1.tree := by
  obtain ⟨tally, w1, hrun⟩ := exists_run_nested
  obtain ⟨w2, hagain, htree⟩ := run_again _ _ _ (by decide) rfl rfl (by decide +kernel) hrun
  have htally : ((run { extractors := [.identifier] } ⟨.here, ["src"]⟩ ⟨.here, ["out"]⟩
      false).perform nested).1.toOption.map (·.outputs) = some
        [⟨.here, ["out", "other", "a.mdx"]⟩, ⟨.here, ["out", "other", "a.mdx"]⟩] := by
    decide +kernel
  rw [hrun] at htally
  exact ⟨tally, w1, w2, hrun, hagain, Option.some.inj htally, htree⟩

end Generator
end RefPages
