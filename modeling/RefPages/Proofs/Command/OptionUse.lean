import RefPages.Proofs.Command.Spelling
import RefPages.Proofs.Outcome

/-!
# The options that a command takes

A text that is taken as an option gives one of the command's own options, or is a spelling for
verbosity; what asks for help ends the command and is never taken.

* `OptionUse.GivenBy` says how the characters of a text can give an option, and
  `givenBy_of_ofText` that the options that texts are sorted as are given so.
* `Grammar.Extends.exists_letters_of_cluster` is about options that are written together.
* `Grammar.Extends.own_or_spells` is the result.
-/

set_option autoImplicit false
namespace RefPages
namespace Command

variable {g : Grammar} {own : List OptionSpec} {text : String}

/-! ## What texts are sorted as -/

/-- How characters give an option: by its spelling or the beginning of it, with a value behind an
equals sign, or with a value right behind the spelling. -/
inductive OptionUse.GivenBy (use : OptionUse) (cs : List Char) : Prop where
  | shortened (h : cs <+: use.spelling.toList) (hvalue : use.value? = none)
  | valued {start : List Char} {value : String} (hcs : cs = start ++ '=' :: value.toList)
    (hvalue : use.value? = some value)
    (hstart : start = use.spelling.toList ∨ ['-', '-'] <+: use.spelling.toList)
  | joined {value : String} (hcs : cs = use.spelling.toList ++ value.toList)
    (hvalue : use.value? = some value)

theorem mem_of_lookup_eq_some {α β : Type} [BEq α] [LawfulBEq α] {l : List (α × β)} {a : α} {b : β}
    (h : l.lookup a = some b) : (a, b) ∈ l := by
  obtain ⟨front, rest, rfl, -⟩ := List.lookup_eq_some_iff.1 h
  simp

theorem givenBy_of_named {use : OptionUse} (h : g.named? text = some use) :
    (use.spelling, use.spec) ∈ g.spellings ∧ use.GivenBy text.toList := by
  rw [Grammar.named?] at h
  split at h
  · rename_i spec hlookup
    cases h
    exact ⟨mem_of_lookup_eq_some hlookup, .shortened (List.prefix_refl _) rfl⟩
  · obtain ⟨⟨start, value⟩, hsplit, h⟩ := Option.bind_eq_some_iff.1 h
    obtain ⟨spec, hlookup, rfl⟩ := Option.map_eq_some_iff.1 h
    exact ⟨mem_of_lookup_eq_some hlookup,
      .valued (eq_append_of_splitAtEquals? hsplit) rfl (Or.inl rfl)⟩

theorem dashes_prefix_of_append {rest start value : List Char}
    (h : '-' :: '-' :: rest = start ++ '=' :: value) : ['-', '-'] <+: start := by
  match start with
  | [] => exact absurd (List.cons.inj h).1 (by decide)
  | [_] => exact absurd (List.cons.inj (List.cons.inj h).2).1 (by decide)
  | a :: b :: more =>
    simp only [List.cons_append, List.cons.injEq] at h
    obtain ⟨rfl, rfl, -⟩ := h
    exact ⟨more, rfl⟩

theorem givenBy_of_mem_candidates {use : OptionUse} (h : use ∈ g.candidates text) :
    (use.spelling, use.spec) ∈ g.spellings ∧ use.GivenBy text.toList := by
  unfold Grammar.candidates at h
  split at h
  · rename_i rest htext
    split at h
    rename_i start value? heq
    obtain ⟨⟨s, spec⟩, hmem, rfl⟩ := List.mem_map.1 h
    obtain ⟨hmem, hprefix⟩ := List.mem_filter.1 hmem
    refine ⟨hmem, ?_⟩
    have hprefix : start.toList <+: s.toList := List.isPrefixOf_iff_prefix.1 hprefix
    split at heq
    · rename_i start' value hsplit
      cases heq
      have htext' := eq_append_of_splitAtEquals? hsplit
      refine .valued htext' rfl (Or.inr (List.IsPrefix.trans ?_ hprefix))
      rw [htext] at htext'
      exact dashes_prefix_of_append htext'
    · cases heq
      exact .shortened hprefix rfl
  · obtain ⟨⟨s, spec⟩, hmem, heq⟩ := List.mem_filterMap.1 h
    dsimp only at heq
    split at heq
    · rename_i htake
      cases heq
      refine ⟨hmem, .joined ?_ rfl⟩
      rw [htake, String.toList_ofList, List.take_append_drop]
    · split at heq
      · rename_i hprefix
        cases heq
        exact ⟨hmem, .shortened (List.isPrefixOf_iff_prefix.1 hprefix) rfl⟩
      · cases heq

theorem givenBy_of_ofText {s : String} {use : OptionUse}
    (h : Argument.ofText g text = .ok (.option s (some use))) :
    (∃ c cs, text.toList = '-' :: c :: cs)
      ∧ (use.spelling, use.spec) ∈ g.spellings ∧ use.GivenBy text.toList := by
  obtain ⟨-, htext, hnamed | hcandidates⟩ := cases_of_ofText h
  · exact ⟨htext, givenBy_of_named hnamed⟩
  · exact ⟨htext, givenBy_of_mem_candidates (by rw [hcandidates]; exact List.mem_singleton_self _)⟩

/-! ## What options do -/

/-- What an option can do: take the value that came with it, take the operand behind it, do without
a value, or stand for several that are written together. -/
inductive OptionUse.Takes (g : Grammar) (given : Given) (use : OptionUse) (after : List Argument) :
    Given → Nat → Prop where
  | value {value : String} {given' : Given} (hvalue : use.value? = some value)
    (htakes : use.spec.takesValue = true) (h : given.take g use.spec value = .ok given') :
    Takes g given use after given' 0
  | next {value : String} {rest : List Argument} {given' : Given} (hvalue : use.value? = none)
    (htakes : use.spec.takesValue = true) (hafter : after = .operand value :: rest)
    (h : given.take g use.spec value = .ok given') : Takes g given use after given' 1
  | plain {given' : Given} (hvalue : use.value? = none) (htakes : use.spec.takesValue = false)
    (h : given.take g use.spec "" = .ok given') : Takes g given use after given' 0
  | together {value : String} {specs : List OptionSpec} {given' : Given}
    (hvalue : use.value? = some value) (htakes : use.spec.takesValue = false)
    (hshort : ¬ ['-', '-'] <+: use.spelling.toList) (hne : value ≠ "")
    (hcluster : cluster g use.spec value.toList = .ok specs)
    (hall : given.takeAll g specs = .ok given') : Takes g given use after given' 0

theorem takes_of_takeOption {use : OptionUse} {given given' : Given} {after : List Argument}
    {n : Nat} (h : takeOption g given use after = .ok (given', n)) :
    use.Takes g given after given' n := by
  unfold takeOption at h
  split at h
  · rename_i value hvalue
    split at h
    · rename_i htakes
      obtain ⟨given₁, htake, h⟩ := exists_of_bind_eq_ok h
      cases h
      exact .value hvalue htakes htake
    · rename_i htakes
      rw [Bool.not_eq_true] at htakes
      split at h
      · cases h
      · rename_i hshort
        rw [Bool.or_eq_true, not_or] at hshort
        obtain ⟨specs, hcluster, h⟩ := exists_of_bind_eq_ok h
        obtain ⟨given₁, hall, h⟩ := exists_of_bind_eq_ok h
        cases h
        refine .together hvalue htakes (fun hprefix => ?_) (fun hempty => ?_) hcluster hall
        · exact hshort.1 (List.isPrefixOf_iff_prefix.2 hprefix)
        · exact hshort.2 (decide_eq_true hempty)
  · rename_i hvalue
    split at h
    · rename_i htakes
      split at h
      · obtain ⟨given₁, htake, h⟩ := exists_of_bind_eq_ok h
        cases h
        exact .next hvalue htakes rfl htake
      · cases h
    · rename_i htakes
      rw [Bool.not_eq_true] at htakes
      obtain ⟨given₁, htake, h⟩ := exists_of_bind_eq_ok h
      cases h
      exact .plain hvalue htakes htake

theorem cases_of_mem_commonSpellings {s : String} {spec : OptionSpec}
    (h : (s, spec) ∈ spellingsOf commonOptions) :
    spec.switch = .help ∨ ∃ v : Verbosity, spec = v.spec
      ∧ (s.toList = ['-', v.letter] ∨ s.toList = '-' :: '-' :: v.word) := by
  have key : ∀ p ∈ spellingsOf commonOptions, p.2.switch = .help
      ∨ (p.2 = Verbosity.verbose.spec
        ∧ (p.1.toList = ['-', 'v'] ∨ p.1.toList = '-' :: '-' :: Verbosity.verbose.word))
      ∨ (p.2 = Verbosity.quiet.spec
        ∧ (p.1.toList = ['-', 'q'] ∨ p.1.toList = '-' :: '-' :: Verbosity.quiet.word)) := by
    decide
  rcases key _ h with hhelp | hverbose | hquiet
  · exact Or.inl hhelp
  · exact Or.inr ⟨.verbose, hverbose⟩
  · exact Or.inr ⟨.quiet, hquiet⟩

/-- Help is never taken without ending the command. -/
theorem Given.switch_ne_help_of_takeAll {given given' : Given} {specs : List OptionSpec}
    (h : given.takeAll g specs = .ok given') : ∀ spec ∈ specs, spec.switch ≠ .help := by
  induction specs generalizing given with
  | nil => simp
  | cons spec specs ih =>
    rw [Given.takeAll, List.foldlM_cons] at h
    obtain ⟨given₁, htake, h⟩ := exists_of_bind_eq_ok h
    refine List.forall_mem_cons.2 ⟨fun hhelp => ?_, ih h⟩
    simp [Given.take, hhelp] at htake

theorem exists_of_cluster_cons {spec : OptionSpec} {c : Char} {cs : List Char}
    {specs : List OptionSpec} (h : cluster g spec (c :: cs) = .ok specs) :
    ∃ next rest, (String.ofList ['-', c], next) ∈ g.spellings ∧ cluster g next cs = .ok rest
      ∧ specs = spec :: rest := by
  rw [cluster] at h
  split at h
  · rename_i next hlookup
    obtain ⟨rest, hrest, h⟩ := exists_of_bind_eq_ok h
    cases h
    exact ⟨next, rest, mem_of_lookup_eq_some hlookup, hrest, rfl⟩
  · cases h

theorem mem_of_cluster {spec : OptionSpec} {cs : List Char} {specs : List OptionSpec}
    (h : cluster g spec cs = .ok specs) : spec ∈ specs := by
  cases cs with
  | nil =>
    cases h
    exact List.mem_singleton_self _
  | cons c cs =>
    obtain ⟨_, _, -, -, rfl⟩ := exists_of_cluster_cons h
    exact List.mem_cons_self

/-- Options that are written together behind one that is not asking for help are for verbosity. -/
theorem Grammar.Extends.exists_letters_of_cluster (hg : g.Extends own) {spec : OptionSpec}
    {cs : List Char} {specs : List OptionSpec} (h : cluster g spec cs = .ok specs)
    (hhelp : ∀ spec ∈ specs, spec.switch ≠ .help) :
    ∃ vs : List Verbosity, cs = vs.map Verbosity.letter := by
  induction cs generalizing spec specs with
  | nil => exact ⟨[], rfl⟩
  | cons c cs ih =>
    obtain ⟨next, rest, hmem, hrest, rfl⟩ := exists_of_cluster_cons h
    have hrestHelp : ∀ spec ∈ rest, spec.switch ≠ .help :=
      fun spec hspec => hhelp spec (List.mem_cons_of_mem _ hspec)
    obtain ⟨vs, rfl⟩ := ih hrest hrestHelp
    rw [hg.spellings_eq] at hmem
    rcases List.mem_append.1 hmem with hcommon | hown
    · rcases cases_of_mem_commonSpellings hcommon with hnext | ⟨v, -, hshort | hlong⟩
      · exact absurd hnext (hrestHelp next (mem_of_cluster hrest))
      · rw [String.toList_ofList] at hshort
        cases hshort
        exact ⟨v :: vs, rfl⟩
      · cases v <;> simp [Verbosity.word] at hlong
    · obtain ⟨_, _, hlist, -⟩ := hg.exists_toList hown
      simp at hlist

/-- What has a value behind it is several options for verbosity written together. -/
theorem Grammar.Extends.exists_letters_of_takeOption (hg : g.Extends own) {v : Verbosity}
    {given given' : Given} {s value : String} {after : List Argument} {n : Nat}
    (h : takeOption g given ⟨v.spec, s, some value⟩ after = .ok (given', n)) :
    ¬ ['-', '-'] <+: s.toList ∧ ∃ w vs, value.toList = (w :: vs).map Verbosity.letter := by
  cases takes_of_takeOption h with
  | value hvalue htakes htake => cases v <;> cases htakes
  | next hvalue htakes hafter htake => cases hvalue
  | plain hvalue htakes htake => cases hvalue
  | together hvalue htakes hshort hne hcluster hall =>
    cases hvalue
    obtain ⟨vs, hvs⟩ :=
      hg.exists_letters_of_cluster hcluster (Given.switch_ne_help_of_takeAll hall)
    refine ⟨hshort, ?_⟩
    cases vs with
    | nil => exact absurd (String.toList_inj.1 hvs) hne
    | cons w vs => exact ⟨w, vs, hvs⟩

theorem switch_ne_help_of_takeOption {use : OptionUse} {given given' : Given}
    {after : List Argument} {n : Nat} (h : takeOption g given use after = .ok (given', n)) :
    use.spec.switch ≠ .help := by
  intro hhelp
  cases takes_of_takeOption h with
  | value _ _ htake => simp [Given.take, hhelp] at htake
  | next _ _ _ htake => simp [Given.take, hhelp] at htake
  | plain _ _ htake => simp [Given.take, hhelp] at htake
  | together _ _ _ _ hcluster hall =>
    exact Given.switch_ne_help_of_takeAll hall _ (mem_of_cluster hcluster) hhelp

/-- An option for verbosity is taken only if its text is a spelling of it. -/
theorem Grammar.Extends.spells_of_takeOption (hg : g.Extends own) {v : Verbosity} {s : String}
    {value? : Option String} (hs : s.toList = ['-', v.letter] ∨ s.toList = '-' :: '-' :: v.word)
    {c : Char} {cs : List Char} (hcs : '-' :: c :: cs ≠ ['-', '-'])
    (hgiven : OptionUse.GivenBy ⟨v.spec, s, value?⟩ ('-' :: c :: cs)) {given given' : Given}
    {after : List Argument} {n : Nat}
    (htake : takeOption g given ⟨v.spec, s, value?⟩ after = .ok (given', n)) :
    ∃ vs, Spells vs ('-' :: c :: cs) := by
  have hshort : ¬ ['-', '-'] <+: s.toList → s.toList = ['-', v.letter] := fun hno =>
    hs.resolve_right fun hlong => hno (by rw [hlong]; exact ⟨v.word, rfl⟩)
  cases hgiven with
  | shortened h hvalue =>
    rcases hs with hs | hs
    · rw [show (OptionUse.spelling ⟨v.spec, s, value?⟩) = s from rfl, hs] at h
      obtain ⟨more, hmore⟩ := h
      simp only [List.cons_append, List.cons.injEq, List.append_eq_nil_iff, true_and] at hmore
      obtain ⟨rfl, rfl, -⟩ := hmore
      exact ⟨_, .letters v []⟩
    · rw [show (OptionUse.spelling ⟨v.spec, s, value?⟩) = s from rfl, hs] at h
      obtain ⟨rfl, hword⟩ := List.cons_prefix_cons.1 (List.cons_prefix_cons.1 h).2
      cases cs with
      | nil => exact absurd rfl hcs
      | cons d ds =>
        refine ⟨[v], ?_⟩
        rw [List.prefix_iff_eq_take.1 hword]
        exact .word v ds.length
  | valued hcs' hvalue hstart =>
    cases hvalue
    obtain ⟨hlong, w, vs, hvalue⟩ := hg.exists_letters_of_takeOption htake
    have hstart := hstart.resolve_right hlong
    rw [hcs', hstart, hvalue]
    refine ⟨v :: w :: vs, ?_⟩
    rw [show (OptionUse.spelling ⟨v.spec, s, _⟩) = s from rfl, hshort hlong]
    exact .equals v w vs
  | joined hcs' hvalue =>
    cases hvalue
    obtain ⟨hlong, w, vs, hvalue⟩ := hg.exists_letters_of_takeOption htake
    rw [hcs', hvalue]
    refine ⟨v :: w :: vs, ?_⟩
    rw [show (OptionUse.spelling ⟨v.spec, s, _⟩) = s from rfl, hshort hlong]
    exact .letters v (w :: vs)

/-- An option that is taken is one of the command's own, or its text is a spelling for verbosity. -/
theorem Grammar.Extends.own_or_spells (hg : g.Extends own) {s : String} {use : OptionUse}
    (hdashes : text ≠ "--") (hsort : Argument.ofText g text = .ok (.option s (some use)))
    {given given' : Given} {after : List Argument} {n : Nat}
    (htake : takeOption g given use after = .ok (given', n)) :
    (use.spelling, use.spec) ∈ spellingsOf own ∨ ∃ vs, Spells vs text.toList := by
  obtain ⟨⟨c, cs, htext⟩, hmem, hgiven⟩ := givenBy_of_ofText hsort
  rw [hg.spellings_eq] at hmem
  rcases List.mem_append.1 hmem with hcommon | hown
  · right
    rcases cases_of_mem_commonSpellings hcommon with hhelp | ⟨v, hspec, hspelling⟩
    · exact absurd hhelp (switch_ne_help_of_takeOption htake)
    · obtain ⟨spec, spelling, value?⟩ := use
      subst hspec
      have hdashes : '-' :: c :: cs ≠ ['-', '-'] := fun heq =>
        hdashes (String.toList_inj.1 (htext.trans heq))
      rw [htext] at hgiven ⊢
      exact hg.spells_of_takeOption hspelling hdashes hgiven htake
  · exact Or.inl hown

end Command
end RefPages
