import Mathlib.Data.List.Dedup
import RefPages.Proofs.Document
import RefPages.Proofs.Run

/-!
# Pages at the same place

A page goes to the directory of its category, under the name of its source file without the
extension. The rest of the path of the source file is forgotten, so the pages of two source files
may go to the same place, and then one of them is lost.

* `exists_files_of_walk`: a walk that ends without a fault has visited some files one after the
  other, whatever was written meanwhile.
* `Generator.Clash` relates two source files whose pages go to the same place, and
  `Generator.locate_outputPath_eq_iff` says that it does.
* `Generator.run_outputs_nodup_iff`: **every page is kept exactly if no two source files clash.**
-/

set_option autoImplicit false
namespace RefPages

open Text

/-! ## A walk is a list of visits -/

section Walk

variable {α γ : Type} {e : Eligibility} {visit : α → Path → Action α}

/-- A loop whose rounds visit files visits files. -/
theorem exists_files_of_foldlM {step : α → γ → Action α} {xs : List γ}
    (hstep : ∀ x ∈ xs, ∀ a w a' w', (step a x).perform w = (.ok a', w') →
      ∃ files : List Path, (files.foldlM visit a).perform w = (.ok a', w'))
    {a a' : α} {w w' : Workspace} (h : (xs.foldlM step a).perform w = (.ok a', w')) :
    ∃ files : List Path, (files.foldlM visit a).perform w = (.ok a', w') := by
  induction xs generalizing a w with
  | nil => exact ⟨[], h⟩
  | cons x xs ih =>
    rw [List.foldlM_cons] at h
    obtain ⟨a1, w1, hx, h⟩ := Action.exists_of_perform_bind h
    obtain ⟨files, hfiles⟩ := hstep x List.mem_cons_self a w a1 w1 hx
    obtain ⟨more, hmore⟩ := ih (fun y hy => hstep y (List.mem_cons_of_mem _ hy)) h
    refine ⟨files ++ more, ?_⟩
    rw [List.foldlM_append, Action.perform_bind_ok hfiles]
    exact hmore

theorem exists_files_of_walkBelow (room : Nat) {dir : Path} {a a' : α} {w w' : Workspace}
    (h : (walkBelow e visit room dir a).perform w = (.ok a', w')) :
    ∃ files : List Path, (files.foldlM visit a).perform w = (.ok a', w') := by
  match room with
  | 0 =>
    rw [walkBelow] at h
    exact ⟨[], h⟩
  | room + 1 =>
    rw [walkBelow, Action.perform_bind_ok (Action.perform_look _ w)] at h
    generalize w.tree.listing w.cwd dir = seen at h
    obtain ⟨names, subdirectories⟩ := seen
    obtain ⟨a1, w1, hhere, h⟩ := Action.exists_of_perform_bind h
    obtain ⟨more, hmore⟩ := exists_files_of_foldlM
      (fun name _ _ _ _ _ hname => exists_files_of_walkBelow (room - name.utf8ByteSize) hname) h
    refine ⟨(names.filter e.admits).map (fun name => dir.join ⟨.here, [name]⟩) ++ more, ?_⟩
    rw [← List.foldlM_map] at hhere
    rw [List.foldlM_append, Action.perform_bind_ok hhere]
    exact hmore
termination_by room
decreasing_by omega

/-- **A walk that ends without a fault has visited some files, one after the other.** -/
theorem exists_files_of_walk {root : Path} {a a' : α} {w w' : Workspace}
    (h : (walk e visit root a).perform w = (.ok a', w')) :
    ∃ files : List Path, (files.foldlM visit a).perform w = (.ok a', w') := by
  rw [walk, Action.perform_bind_ok (Action.perform_get w),
    Action.perform_bind_ok (Action.perform_get w)] at h
  obtain ⟨isDirectory, w1, hlift, h⟩ := Action.exists_of_perform_bind h
  rw [Action.perform_lift] at hlift
  cases (Prod.mk.inj hlift).2
  split at h
  · exact exists_files_of_walkBelow _ h
  · exact ⟨[], h⟩

end Walk

/-! ## The place of a page -/

/-- Is the text read as a single name, and no step back? -/
def Path.isName (s : String) : Bool :=
  Path.ofString s = ⟨.here, [s]⟩ && s != ".."

/-- A name leads to a place in the directory. -/
theorem Path.locate_joinText {s : String} (h : Path.isName s = true) (dir : Path) (cwd : Location) :
    (dir.joinText s).locate cwd = dir.locate cwd ++ [s] := by
  simp only [isName, Bool.and_eq_true, decide_eq_true_eq, bne_iff_ne] at h
  rw [joinText, h.1, join_here, locate, follow_append, follow, if_neg h.2]
  rfl

namespace Generator

variable {g : Generator} {outputRoot : Path} {w w' : Workspace} {tally tally' : Tally}

/-- The source files have the same name up to the extension, and the directories of their categories
are the same. -/
def Clash (g : Generator) (outputRoot : Path) (cwd : Location) (p q : Path) : Prop :=
  p.stem = q.stem ∧ (outputRoot.joinText (g.categories.categoryOf p)).locate cwd
    = (outputRoot.joinText (g.categories.categoryOf q)).locate cwd

/-- What the path of the source file says about a document. -/
structure Routed (g : Generator) (doc : Document) : Prop where
  name : doc.name = doc.path.stem
  category : doc.category = g.categories.categoryOf doc.path

/-- Two pages go to the same place exactly if their source files clash. -/
theorem locate_outputPath_eq_iff {doc doc' : Document} (h : Routed g doc) (h' : Routed g doc')
    (hname : Path.isName (doc.name ++ g.outputExtension) = true)
    (hname' : Path.isName (doc'.name ++ g.outputExtension) = true) (cwd : Location) :
    (g.outputPath outputRoot doc).locate cwd = (g.outputPath outputRoot doc').locate cwd
      ↔ g.Clash outputRoot cwd doc.path doc'.path := by
  rw [outputPath, outputPath, Path.locate_joinText hname, Path.locate_joinText hname', Clash,
    ← h.name, ← h'.name, ← h.category, ← h'.category]
  constructor
  · intro heq
    obtain ⟨hdir, hlast⟩ := List.append_inj' heq rfl
    exact ⟨(String.append_left_inj _).1 (List.singleton_inj.1 hlast), hdir⟩
  · rintro ⟨heq, hdir⟩
    rw [hdir, heq]

/-! ## The documents of a run -/

/-- The facts found in a source file do not decide where its page goes. -/
theorem routed_of_ofKinds? {path : Path} {facts : List Fact} {doc : Document}
    (h : Document.ofKinds? g.categories path facts = some doc) : Routed g doc := by
  obtain rfl := Document.eq_ofKinds_of_ofKinds? h
  exact ⟨rfl, rfl⟩

theorem routed_of_mem_documents {tree : FileTree} {cwd : Location} {files : List Path}
    {doc : Document} (h : doc ∈ g.documents tree cwd files) : Routed g doc := by
  obtain ⟨path, -, hdoc⟩ := List.mem_filterMap.1 h
  rw [documentAt] at hdoc
  cases htext : tree.readText cwd path with
  | error fault =>
    rw [htext] at hdoc
    exact absurd hdoc (by simp [Except.map])
  | ok text =>
    rw [htext] at hdoc
    exact routed_of_ofKinds? hdoc

/-- The documents that a run of visits has made, whatever the files were when it came to them. -/
structure Made (g : Generator) (outputRoot : Path) (docs : List Document) (tally tally' : Tally) :
    Prop where
  routed : ∀ doc ∈ docs, Routed g doc
  generated : tally'.generated = tally.generated + docs.length
  outputs : tally'.outputs = tally.outputs ++ docs.map (g.outputPath outputRoot)

theorem Counts.made {tree : FileTree} {cwd : Location} {files : List Path}
    (h : Counts g outputRoot tree cwd files tally tally') :
    Made g outputRoot (g.documents tree cwd files) tally tally' :=
  ⟨fun _ => routed_of_mem_documents, h.generated, h.outputs⟩

theorem Made.append {docs docs' : List Document} {tally'' : Tally}
    (h : Made g outputRoot docs tally tally') (h' : Made g outputRoot docs' tally' tally'') :
    Made g outputRoot (docs ++ docs') tally tally'' := by
  refine ⟨fun doc hdoc => ?_, ?_, ?_⟩
  · rcases List.mem_append.1 hdoc with hdoc | hdoc
    · exact h.routed doc hdoc
    · exact h'.routed doc hdoc
  · rw [h'.generated, h.generated, List.length_append, Nat.add_assoc]
  · rw [h'.outputs, h.outputs, List.map_append, List.append_assoc]

/-- **A run of visits** makes documents, and without a run log it does to the tree what their pages
do. -/
theorem foldlM_visit_made {files : List Path}
    (h : (files.foldlM (g.visit outputRoot false) tally).perform w = (.ok tally', w')) :
    ∃ docs, Made g outputRoot docs tally tally'
      ∧ (w.tree.WellFormed → w.tree.get? w.cwd = some .directory → w.log.runLogs = [] →
        Wrote g outputRoot w.cwd docs w.tree w'.tree) := by
  induction files generalizing tally w with
  | nil =>
    cases h
    exact ⟨[], ⟨by simp, rfl, by simp⟩, fun _ _ _ => .nil g outputRoot w'.cwd w'.tree⟩
  | cons path files ih =>
    rw [List.foldlM_cons] at h
    obtain ⟨tally1, w1, hvisit, h⟩ := Action.exists_of_perform_bind h
    obtain ⟨docs, hmade, hwrote⟩ := ih h
    obtain ⟨hcwd, hlog1⟩ := visit_keeps hvisit
    refine ⟨g.documents w.tree w.cwd [path] ++ docs, (visit_cases rfl hvisit).1.made.append hmade,
      fun hwf hwd hlog => ?_⟩
    have htree := visit_tree hwf hwd hlog rfl hvisit
    rw [hcwd, hlog1] at hwrote
    refine Wrote.visit (hwrote ?_ ?_ hlog) htree
    · rcases htree with ⟨-, hsame⟩ | ⟨doc, -, hwrites⟩
      · rw [hsame]
        exact hwf
      · exact hwrites.wellFormed
    · rcases htree with ⟨-, hsame⟩ | ⟨doc, -, hwrites⟩
      · rw [hsame]
        exact hwd
      · exact hwrites.grows.directory hwd

/-- The documents of a run that ends without a fault. They are those of the source files of the
start if no page is named like a source file and there is no run log. -/
theorem exists_made_of_run {sourceRoot : Path}
    (h : (g.run sourceRoot outputRoot false).perform w = (.ok tally, w')) :
    ∃ docs, Made g outputRoot docs {} tally
      ∧ (w.tree.WellFormed → w.tree.get? w.cwd = some .directory → w.log.runLogs = [] →
        Wrote g outputRoot w.cwd docs w.tree w'.tree)
      ∧ (w.tree.WellFormed → w.tree.get? w.cwd = some .directory → w.log.runLogs = [] →
        (∀ doc ∈ g.documents w.tree w.cwd (listedFiles g.eligible w.tree w.cwd sourceRoot),
          g.eligible.hasExtension (g.outputPath outputRoot doc).name = false) →
        docs = g.documents w.tree w.cwd (listedFiles g.eligible w.tree w.cwd sourceRoot)) := by
  by_cases hstart : w.tree.WellFormed ∧ w.tree.get? w.cwd = some .directory ∧ w.log.runLogs = []
    ∧ ∀ doc ∈ g.documents w.tree w.cwd (listedFiles g.eligible w.tree w.cwd sourceRoot),
      g.eligible.hasExtension (g.outputPath outputRoot doc).name = false
  · obtain ⟨hwf, hwd, hlog, hname⟩ := hstart
    obtain ⟨-, hcounts, hwrote⟩ := run_spec hwf hwd hlog hname h
    exact ⟨_, hcounts.made, fun _ _ _ => hwrote, fun _ _ _ _ => rfl⟩
  · obtain ⟨w1, w2, haside, hwalk, haside'⟩ := run_cases h
    obtain ⟨files, hfiles⟩ := exists_files_of_walk hwalk
    obtain ⟨docs, hmade, hwrote⟩ := foldlM_visit_made hfiles
    refine ⟨docs, hmade, fun hwf hwd hlog => ?_, fun hwf hwd hlog hname => ?_⟩
    · have htree1 : w1.tree = w.tree := haside.tree hlog
      have hlog2 : w2.log = w1.log := Action.perform_foldlM_inv (I := fun w => w.log = w1.log)
        (fun _ _ _ _ _ _ hw hvisit => (visit_keeps hvisit).2.trans hw) rfl hfiles
      rw [htree1, haside.cwd, haside.log] at hwrote
      rw [haside'.tree (by rw [hlog2, haside.log]; exact hlog)]
      exact hwrote hwf hwd hlog
    · exact absurd ⟨hwf, hwd, hlog, hname⟩ hstart

/-! ## The pages that stay -/

/-- At the place of a page there is one, at least that of the last document that goes there. -/
theorem Wrote.get?_page {cwd : Location} {docs : List Document} {tree tree' : FileTree}
    (h : Wrote g outputRoot cwd docs tree tree') {doc : Document} (hdoc : doc ∈ docs) :
    ∃ last, g.lastAt? outputRoot cwd docs ((g.outputPath outputRoot doc).locate cwd) = some last
      ∧ tree'.get? ((g.outputPath outputRoot doc).locate cwd)
        = some (.file (utf8Encode last.page)) := by
  rw [h.get?]
  cases hlast : g.lastAt? outputRoot cwd docs ((g.outputPath outputRoot doc).locate cwd) with
  | some last => exact ⟨last, rfl, rfl⟩
  | none =>
    rw [lastAt?, List.getLast?_eq_none_iff, List.filter_eq_nil_iff] at hlast
    exact absurd (by simp) (hlast doc hdoc)

/-- A page that shares its place with no other is the last one there. -/
theorem lastAt?_of_nodup {cwd : Location} {docs : List Document}
    (h : (docs.map fun doc => (g.outputPath outputRoot doc).locate cwd).Nodup) {doc last : Document}
    (hdoc : doc ∈ docs)
    (hlast : g.lastAt? outputRoot cwd docs ((g.outputPath outputRoot doc).locate cwd) = some last) :
    last = doc := by
  obtain ⟨hmem, hplace⟩ := List.mem_filter.1 (List.mem_of_getLast? hlast)
  exact List.inj_on_of_nodup_map h hmem hdoc (by simpa using hplace)

/-- There are as many different places as pages exactly if no two pages have the same. -/
theorem nodup_iff_length_dedup (places : List Location) :
    places.Nodup ↔ places.dedup.length = places.length := by
  rw [← List.dedup_eq_self]
  refine ⟨fun h => by rw [h], fun h => ?_⟩
  exact (List.dedup_sublist places).eq_of_length h

/-- **The pages of a run that ends without a fault are all kept exactly if no two of its source
files clash.** The outputs are the paths of the pages of some documents, each counted once; as long
as every page is named by a single name, their places are different exactly if no two source files
of the documents clash, and exactly then there are as many pages as documents are counted. Without a
run log, the documents are those of the source files of the start, unless a page is named like a
source file; every place holds the page of the last document that goes there, so every page is
there if the places are different. -/
theorem run_outputs_nodup_iff (g : Generator) (sourceRoot outputRoot : Path) {w w' : Workspace}
    {tally : Tally} (h : (g.run sourceRoot outputRoot false).perform w = (.ok tally, w')) :
    ∃ docs : List Document, (∀ doc ∈ docs, Routed g doc)
      ∧ tally.outputs = docs.map (g.outputPath outputRoot)
      ∧ tally.generated = docs.length
      ∧ ((∀ doc ∈ docs, Path.isName (doc.name ++ g.outputExtension) = true) →
        ((tally.outputs.map (Path.locate w.cwd)).Nodup
          ↔ (docs.map (·.path)).Pairwise fun p q => ¬ g.Clash outputRoot w.cwd p q))
      ∧ ((tally.outputs.map (Path.locate w.cwd)).Nodup
        ↔ (tally.outputs.map (Path.locate w.cwd)).dedup.length = tally.generated)
      ∧ (w.tree.WellFormed → w.tree.get? w.cwd = some .directory → w.log.runLogs = [] →
        ((∀ doc ∈ g.documents w.tree w.cwd (listedFiles g.eligible w.tree w.cwd sourceRoot),
            g.eligible.hasExtension (g.outputPath outputRoot doc).name = false) →
          docs = g.documents w.tree w.cwd (listedFiles g.eligible w.tree w.cwd sourceRoot))
        ∧ (∀ doc ∈ docs, ∃ last,
          g.lastAt? outputRoot w.cwd docs ((g.outputPath outputRoot doc).locate w.cwd) = some last
            ∧ w'.tree.get? ((g.outputPath outputRoot doc).locate w.cwd)
              = some (.file (utf8Encode last.page)))
        ∧ ((tally.outputs.map (Path.locate w.cwd)).Nodup → ∀ doc ∈ docs,
          w'.tree.get? ((g.outputPath outputRoot doc).locate w.cwd)
            = some (.file (utf8Encode doc.page)))) := by
  obtain ⟨docs, hmade, hwrote, hdocs⟩ := exists_made_of_run h
  have houtputs : tally.outputs = docs.map (g.outputPath outputRoot) := hmade.outputs
  have hgenerated : tally.generated = docs.length := hmade.generated.trans (Nat.zero_add _)
  have hplaces : tally.outputs.map (Path.locate w.cwd)
      = docs.map fun doc => (g.outputPath outputRoot doc).locate w.cwd := by
    rw [houtputs, List.map_map]
    rfl
  refine ⟨docs, hmade.routed, houtputs, hgenerated, fun hname => ?_, ?_, fun hwf hwd hlog => ?_⟩
  · rw [hplaces, List.Nodup, List.pairwise_map, List.pairwise_map]
    refine List.Pairwise.iff_of_mem fun {doc doc'} hdoc hdoc' => not_congr ?_
    exact locate_outputPath_eq_iff (hmade.routed doc hdoc) (hmade.routed doc' hdoc')
      (hname doc hdoc) (hname doc' hdoc') w.cwd
  · rw [nodup_iff_length_dedup, hplaces, List.length_map, hgenerated]
  · have hpage := fun doc (hdoc : doc ∈ docs) => (hwrote hwf hwd hlog).get?_page hdoc
    refine ⟨hdocs hwf hwd hlog, hpage, fun hnodup doc hdoc => ?_⟩
    obtain ⟨last, hlast, hget⟩ := hpage doc hdoc
    rw [hplaces] at hnodup
    rw [hget, lastAt?_of_nodup hnodup hdoc hlast]

/-- The document of a source file `a.d` that declares a name and no more. -/
def documentOf (names : List String) (identifier : String) : Document where
  name := "a"
  path := ⟨.here, names⟩
  identifier? := some identifier

/-- Two of three source files clash: both are counted, and the page of the first is lost. -/
theorem run_outputs_nodup_iff_nested :
    ∃ tally w', (run { extractors := [.identifier] } ⟨.here, ["src"]⟩ ⟨.here, ["out"]⟩
        false).perform nested = (.ok tally, w')
      ∧ tally.generated = 2
      ∧ ¬ (tally.outputs.map (Path.locate nested.cwd)).Nodup
      ∧ (tally.outputs.map (Path.locate nested.cwd)).dedup.length ≠ tally.generated
      ∧ w'.tree.get? ["out", "other", "a.mdx"]
        = some (.file (utf8Encode (documentOf ["src", "more", "more", "a.d"] "second").page)) := by
  obtain ⟨tally, w', h⟩ := exists_run_nested
  obtain ⟨docs, -, -, hgenerated, hclash, hdistinct, htree⟩ := run_outputs_nodup_iff _ _ _ h
  obtain ⟨hdocs, hpage, -⟩ := htree (by decide) rfl rfl
  obtain rfl : docs = [documentOf ["src", "a.d"] "first",
      documentOf ["src", "more", "more", "a.d"] "second"] :=
    (hdocs (by decide +kernel)).trans (by decide +kernel)
  have hlost : ¬ (tally.outputs.map (Path.locate nested.cwd)).Nodup := by
    rw [hclash (by decide)]
    intro hpairwise
    exact (List.pairwise_cons.1 hpairwise).1 _ List.mem_cons_self ⟨by decide, by decide⟩
  obtain ⟨last, hlast, hget⟩ := hpage _ List.mem_cons_self
  obtain rfl : last = documentOf ["src", "more", "more", "a.d"] "second" :=
    Option.some.inj (hlast.symm.trans (by decide))
  exact ⟨tally, w', h, hgenerated, hlost, fun hsame => hlost (hdistinct.2 hsame), hget⟩

end Generator
end RefPages
