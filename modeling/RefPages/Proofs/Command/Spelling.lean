import RefPages.Command.Arguments

/-!
# The spellings of the options for verbosity

Every command understands the options that decide how much is reported, and understands them in the
same spellings, whatever long options it has of its own.

* `Spells vs cs` lists the spellings: a word, possibly shortened, behind two dashes, or letters
  behind one dash, which may stand for several options at once.
* `Grammar.Extends` says what a command's options are like: the common ones, and long ones of its
  own that do not begin like the words for verbosity.
* `Grammar.Extends.exists_use_of_spells` is the result: a command that is like this takes each of
  the spellings, whatever stands behind it, and sets what the spelling names.
-/

set_option autoImplicit false
namespace RefPages
namespace Command

/-- An option that decides how much is reported. -/
inductive Verbosity where
  | verbose
  | quiet
  deriving DecidableEq, Repr

namespace Verbosity

/-- The letter of the option. -/
def letter : Verbosity → Char
  | .verbose => 'v'
  | .quiet => 'q'

/-- The word of the option. -/
def word : Verbosity → List Char
  | .verbose => ['v', 'e', 'r', 'b', 'o', 's', 'e']
  | .quiet => ['q', 'u', 'i', 'e', 't']

/-- The option as the commands know it. -/
def spec : Verbosity → OptionSpec
  | .verbose => ⟨.verbose, ["-v", "--verbose"], false⟩
  | .quiet => ⟨.quiet, ["-q", "--quiet"], false⟩

/-- The option is set. -/
def IsSet : Verbosity → Given → Prop
  | .verbose, given => given.verbose = true
  | .quiet, given => given.quiet = true

theorem letter_ne_dash (v : Verbosity) : v.letter ≠ '-' := by
  cases v <;> decide

theorem equals_not_mem_word (v : Verbosity) (n : Nat) :
    '=' ∉ '-' :: '-' :: v.word.take (n + 1) := by
  have hword : '=' ∉ '-' :: '-' :: v.word := by cases v <;> decide
  exact fun h => hword (((List.take_sublist _ _).cons_cons _).cons_cons _ |>.subset h)

theorem equals_not_mem_letters (v : Verbosity) (vs : List Verbosity) :
    '=' ∉ '-' :: v.letter :: vs.map letter := by
  have hletter : ∀ w : Verbosity, '=' ≠ w.letter := fun w => by cases w <;> decide
  simp [hletter, fun w => (hletter w).symm]

theorem head?_word (v : Verbosity) : v.word.head? = some v.letter := by
  cases v <;> rfl

end Verbosity

/-- The spellings of options for verbosity: the beginning of a word behind two dashes, or letters
behind one dash, where an equals sign may stand behind the first of several. -/
inductive Spells : List Verbosity → List Char → Prop where
  | word (v : Verbosity) (n : Nat) : Spells [v] ('-' :: '-' :: v.word.take (n + 1))
  | letters (v : Verbosity) (vs : List Verbosity) :
    Spells (v :: vs) ('-' :: v.letter :: vs.map Verbosity.letter)
  | equals (v w : Verbosity) (vs : List Verbosity) :
    Spells (v :: w :: vs) ('-' :: v.letter :: '=' :: (w :: vs).map Verbosity.letter)

/-- The text gives the option, perhaps among others. -/
def Verbosity.GivenBy (v : Verbosity) (text : String) : Prop :=
  ∃ vs, Spells vs text.toList ∧ v ∈ vs

/-- What is set once some options for verbosity have been taken. -/
def Given.raise (given : Given) (vs : List Verbosity) : Given :=
  { given with
    verbose := given.verbose || decide (.verbose ∈ vs)
    quiet := given.quiet || decide (.quiet ∈ vs) }

@[simp] theorem Given.raise_nil (given : Given) : given.raise [] = given := by
  simp [Given.raise]

@[simp] theorem Given.raise_raise (given : Given) (vs ws : List Verbosity) :
    (given.raise vs).raise ws = given.raise (vs ++ ws) := by
  simp [Given.raise, Bool.or_assoc, Bool.decide_or]

theorem Given.raise_congr (given : Given) {vs ws : List Verbosity} (h : ∀ v, v ∈ vs ↔ v ∈ ws) :
    given.raise vs = given.raise ws := by
  simp [Given.raise, h]

theorem Verbosity.isSet_raise (v : Verbosity) (given : Given) (vs : List Verbosity) :
    v.IsSet (given.raise vs) ↔ v.IsSet given ∨ v ∈ vs := by
  cases v <;> simp [IsSet, Given.raise]

/-! ## The options of a command -/

/-- An option of a command's own: it is not among the common ones, and its spellings are long and do
not begin like the words for verbosity. -/
structure OptionSpec.IsOwn (spec : OptionSpec) : Prop where
  switch : spec.switch ∉ [.help, .verbose, .quiet]
  long : ∀ s ∈ spec.spellings, s.toList.take 2 = ['-', '-']
  apart : ∀ s ∈ spec.spellings, s.toList[2]? ∉ [none, some 'v', some 'q']

/-- The command has the common options and `own` ones. -/
structure Grammar.Extends (g : Grammar) (own : List OptionSpec) : Prop where
  options_eq : g.options = commonOptions ++ own
  isOwn : ∀ spec ∈ own, spec.IsOwn

theorem extends_mainGrammar : mainGrammar.Extends [] :=
  ⟨rfl, by simp⟩

theorem isOwn_of_mem {spec : OptionSpec} (h : spec ∈ extractGrammar.options.drop 3) :
    spec.IsOwn := by
  have key : ∀ spec ∈ extractGrammar.options.drop 3, spec.switch ∉ [.help, .verbose, .quiet]
      ∧ (∀ s ∈ spec.spellings, s.toList.take 2 = ['-', '-'])
      ∧ ∀ s ∈ spec.spellings, s.toList[2]? ∉ [none, some 'v', some 'q'] := by
    decide
  exact ⟨(key spec h).1, (key spec h).2.1, (key spec h).2.2⟩

theorem extends_extractGrammar : extractGrammar.Extends (extractGrammar.options.drop 3) :=
  ⟨rfl, fun _ => isOwn_of_mem⟩

theorem extends_showGrammar : showGrammar.Extends (showGrammar.options.drop 3) :=
  ⟨rfl, fun _ h => isOwn_of_mem (List.mem_of_mem_take (i := 1) h)⟩

/-- The spellings of some options, each with its option. -/
def spellingsOf (specs : List OptionSpec) : List (String × OptionSpec) :=
  specs.flatMap fun spec => spec.spellings.map (·, spec)

theorem mem_spellingsOf {specs : List OptionSpec} {s : String} {spec : OptionSpec} :
    (s, spec) ∈ spellingsOf specs ↔ spec ∈ specs ∧ s ∈ spec.spellings := by
  simp only [spellingsOf, List.mem_flatMap, List.mem_map, Prod.mk.injEq]
  constructor
  · rintro ⟨spec', hspec, s', hs, rfl, rfl⟩
    exact ⟨hspec, hs⟩
  · rintro ⟨hspec, hs⟩
    exact ⟨spec, hspec, s, hs, rfl, rfl⟩

variable {g : Grammar} {own : List OptionSpec} {text : String}

theorem Grammar.Extends.spellings_eq (hg : g.Extends own) :
    g.spellings = spellingsOf commonOptions ++ spellingsOf own := by
  rw [Grammar.spellings, hg.options_eq]
  exact List.flatMap_append

/-- A command's own spellings begin with two dashes, and go on unlike a word for verbosity. -/
theorem Grammar.Extends.exists_toList (hg : g.Extends own) {p : String × OptionSpec}
    (hp : p ∈ spellingsOf own) :
    ∃ c rest, p.1.toList = '-' :: '-' :: c :: rest ∧ ∀ v : Verbosity, c ≠ v.letter := by
  obtain ⟨hspec, hs⟩ := mem_spellingsOf.1 (show (p.1, p.2) ∈ spellingsOf own from hp)
  have hlong := (hg.isOwn _ hspec).long _ hs
  have hapart := (hg.isOwn _ hspec).apart _ hs
  match hlist : p.1.toList with
  | [] | [_] => simp [hlist] at hlong
  | [_, _] => simp [hlist] at hapart
  | a :: b :: c :: rest =>
    simp only [hlist, List.take_succ_cons, List.take_zero, List.cons.injEq, and_true] at hlong
    obtain ⟨rfl, rfl⟩ := hlong
    refine ⟨c, rest, rfl, fun v hv => hapart ?_⟩
    rw [hlist, hv]
    cases v <;> simp [Verbosity.letter]

/-! ## Spellings that are taken -/

/-- A spelling for verbosity begins like none of the command's own. -/
theorem Grammar.Extends.not_prefix (hg : g.Extends own) {cs : List Char} {vs : List Verbosity}
    (h : Spells vs cs) {p : String × OptionSpec} (hp : p ∈ spellingsOf own) :
    ¬ cs <+: p.1.toList := by
  obtain ⟨c, rest, hrest, hapart⟩ := hg.exists_toList hp
  rw [hrest]
  rintro ⟨more, hmore⟩
  cases h with
  | word v n =>
    obtain ⟨ws, hword⟩ : ∃ ws, v.word = v.letter :: ws := List.head?_eq_some_iff.1 v.head?_word
    rw [hword] at hmore
    exact hapart v (List.cons.inj (List.cons.inj (List.cons.inj hmore).2).2).1.symm
  | letters v vs => exact v.letter_ne_dash (List.cons.inj (List.cons.inj hmore).2).1
  | equals v w vs => exact v.letter_ne_dash (List.cons.inj (List.cons.inj hmore).2).1

theorem Grammar.Extends.lookup_of_spells (hg : g.Extends own) {vs : List Verbosity}
    (h : Spells vs text.toList) :
    g.spellings.lookup text = (spellingsOf commonOptions).lookup text := by
  have hown : (spellingsOf own).lookup text = none := by
    refine List.lookup_eq_none_iff.2 fun p hp => bne_iff_ne.2 ?_
    rintro rfl
    exact hg.not_prefix h hp (List.prefix_refl _)
  rw [hg.spellings_eq, List.lookup_append, hown, Option.or_none]

/-- The beginning of a word can only mean its option. -/
theorem Grammar.Extends.candidates_word (hg : g.Extends own) (v : Verbosity) (n : Nat) :
    g.candidates (String.ofList ('-' :: '-' :: v.word.take (n + 1)))
      = [⟨v.spec, String.ofList ('-' :: '-' :: v.word), none⟩] := by
  have hsplit : splitAtEquals? ('-' :: '-' :: v.word.take (n + 1)) = none :=
    splitAtEquals?_eq_none (v.equals_not_mem_word n)
  have hown : (spellingsOf own).filter (fun p =>
      ('-' :: '-' :: v.word.take (n + 1)).isPrefixOf p.1.toList) = [] := by
    refine List.filter_eq_nil_iff.2 fun p hp hprefix => ?_
    exact hg.not_prefix (.word v n) hp (List.isPrefixOf_iff_prefix.1 hprefix)
  simp only [Grammar.candidates, String.toList_ofList, hsplit, hg.spellings_eq,
    List.filter_append, hown]
  cases v <;> simp [spellingsOf, commonOptions, Verbosity.word, Verbosity.spec,
    List.isPrefixOf_iff_prefix, List.take_prefix]

/-- Letters behind one dash can only mean the option of the first, with the others behind it. -/
theorem Grammar.Extends.candidates_letters (hg : g.Extends own) (v w : Verbosity)
    (vs : List Verbosity) :
    g.candidates (String.ofList ('-' :: v.letter :: (w :: vs).map Verbosity.letter))
      = [⟨v.spec, String.ofList ['-', v.letter],
          some (String.ofList ((w :: vs).map Verbosity.letter))⟩] := by
  have hspells := Spells.letters v (w :: vs)
  have hown : (spellingsOf own).filterMap (fun p =>
      if p.1.toList = ['-', v.letter] then
        some (⟨p.2, p.1, some (String.ofList ((w :: vs).map Verbosity.letter))⟩ : OptionUse)
      else if ('-' :: v.letter :: (w :: vs).map Verbosity.letter).isPrefixOf p.1.toList then
        some ⟨p.2, p.1, none⟩
      else none) = [] := by
    refine List.filterMap_eq_nil_iff.2 fun p hp => ?_
    obtain ⟨c, rest, hrest, -⟩ := hg.exists_toList hp
    rw [if_neg (by simp [hrest]), if_neg fun h => ?_]
    exact hg.not_prefix hspells hp (List.isPrefixOf_iff_prefix.1 h)
  unfold Grammar.candidates
  rw [String.toList_ofList]
  split
  · rename_i hlong
    exact absurd (List.cons.inj (List.cons.inj hlong).2).1 v.letter_ne_dash
  · rw [hg.spellings_eq, List.filterMap_append]
    refine (congrArg (_ ++ ·) hown).trans ?_
    cases v <;> cases w <;> simp [spellingsOf, commonOptions, Verbosity.letter, Verbosity.spec]

theorem Verbosity.take_spec (v : Verbosity) (given : Given) (value : String) :
    given.take g v.spec value = .ok (given.raise [v]) := by
  cases v <;> simp [Given.take, Verbosity.spec, Given.raise]

theorem Given.takeAll_specs (given : Given) (vs : List Verbosity) :
    given.takeAll g (vs.map Verbosity.spec) = .ok (given.raise vs) := by
  induction vs generalizing given with
  | nil =>
    rw [Given.raise_nil]
    rfl
  | cons v vs ih =>
    rw [Given.takeAll, List.map_cons, List.foldlM_cons, v.take_spec]
    exact (ih _).trans (congrArg _ (Given.raise_raise _ _ _))

theorem Grammar.Extends.lookup_letter (hg : g.Extends own) (v : Verbosity) :
    g.spellings.lookup (String.ofList ['-', v.letter]) = some v.spec := by
  have hspells : Spells [v] (String.ofList ['-', v.letter]).toList := by
    rw [String.toList_ofList]
    exact .letters v []
  rw [hg.lookup_of_spells hspells]
  cases v <;> decide

theorem Grammar.Extends.cluster_letters (hg : g.Extends own) (v : Verbosity)
    (vs : List Verbosity) :
    cluster g v.spec (vs.map Verbosity.letter) = .ok ((v :: vs).map Verbosity.spec) := by
  induction vs generalizing v with
  | nil => rfl
  | cons w vs ih =>
    rw [List.map_cons, cluster, hg.lookup_letter]
    simp only [ih, bind, Except.bind, List.map_cons]

theorem Verbosity.takeOption_plain (v : Verbosity) (given : Given) (s : String)
    (after : List Argument) :
    takeOption g given ⟨v.spec, s, none⟩ after = .ok (given.raise [v], 0) := by
  have hvalue : v.spec.takesValue = false := by cases v <;> rfl
  simp only [takeOption, hvalue, Bool.false_eq_true, if_false, v.take_spec, bind, Except.bind]

theorem Grammar.Extends.takeOption_letters (hg : g.Extends own) (v w : Verbosity)
    (vs : List Verbosity) (given : Given) (after : List Argument) :
    takeOption g given ⟨v.spec, String.ofList ['-', v.letter],
        some (String.ofList ((w :: vs).map Verbosity.letter))⟩ after
      = .ok (given.raise (v :: w :: vs), 0) := by
  have hvalue : v.spec.takesValue = false := by cases v <;> rfl
  have hshort : ¬ ("--".toList.isPrefixOf ['-', v.letter]
      || decide (String.ofList ((w :: vs).map Verbosity.letter) = "")) = true := by
    cases v <;> simp [Verbosity.letter]
  simp only [takeOption, hvalue, Bool.false_eq_true, if_false, String.toList_ofList,
    hg.cluster_letters, Given.takeAll_specs, bind, Except.bind]
  exact if_neg hshort

theorem Verbosity.lookup_word (v : Verbosity) (n : Nat) :
    (spellingsOf commonOptions).lookup (String.ofList ('-' :: '-' :: v.word.take (n + 1)))
      = if v.word.length ≤ n + 1 then some v.spec else none := by
  split
  · rename_i hfull
    rw [List.take_of_length_le hfull]
    cases v <;> decide
  · rename_i hcut
    cases v with
    | verbose =>
      have key : ∀ n < 6, (spellingsOf commonOptions).lookup
          (String.ofList ('-' :: '-' :: verbose.word.take (n + 1))) = none := by decide
      exact key n (Nat.lt_of_succ_lt_succ (Nat.lt_of_not_le hcut))
    | quiet =>
      have key : ∀ n < 4, (spellingsOf commonOptions).lookup
          (String.ofList ('-' :: '-' :: quiet.word.take (n + 1))) = none := by decide
      exact key n (Nat.lt_of_succ_lt_succ (Nat.lt_of_not_le hcut))

theorem Verbosity.lookup_letters (v : Verbosity) (c : Char) (cs : List Char) :
    (spellingsOf commonOptions).lookup (String.ofList ('-' :: v.letter :: c :: cs)) = none := by
  refine List.lookup_eq_none_iff.2 fun p hp => bne_iff_ne.2 ?_
  intro heq
  have key : ∀ p ∈ spellingsOf commonOptions, p.1.toList.take 2 = ['-', '-']
      ∨ p.1.toList.length = 2 := by decide
  rw [← String.toList_inj, String.toList_ofList] at heq
  rcases key p hp with hlong | hlength
  · rw [← heq] at hlong
    exact v.letter_ne_dash (List.cons.inj (List.cons.inj hlong).2).1
  · rw [← heq] at hlength
    exact absurd hlength (by simp)

/-- A spelling for verbosity is taken in front of anything, and sets what it names. -/
theorem Grammar.Extends.exists_use_of_spells (hg : g.Extends own) {vs : List Verbosity}
    (h : Spells vs text.toList) :
    ∃ use, Argument.ofText g text = .ok (.option text (some use))
      ∧ ∀ given after, takeOption g given use after = .ok (given.raise vs, 0) := by
  have hlookup := hg.lookup_of_spells h
  obtain ⟨cs, rfl⟩ : ∃ cs, text = String.ofList cs := ⟨_, String.ofList_toList.symm⟩
  rw [String.toList_ofList] at h
  cases h with
  | word v n =>
    rw [v.lookup_word] at hlookup
    split at hlookup
    · exact ⟨_, ofText_of_named String.toList_ofList (by rw [Grammar.named?, hlookup]),
        fun given after => v.takeOption_plain given _ after⟩
    · have hnamed : g.named? (String.ofList ('-' :: '-' :: v.word.take (n + 1))) = none := by
        rw [Grammar.named?, hlookup, String.toList_ofList,
          splitAtEquals?_eq_none (v.equals_not_mem_word n)]
        rfl
      exact ⟨_, ofText_of_candidate String.toList_ofList hnamed (hg.candidates_word v n),
        fun given after => v.takeOption_plain given _ after⟩
  | letters v vs =>
    cases vs with
    | nil =>
      have hnamed : g.named? (String.ofList ['-', v.letter]) = some ⟨v.spec,
          String.ofList ['-', v.letter], none⟩ := by
        rw [Grammar.named?, hg.lookup_letter]
      exact ⟨_, ofText_of_named String.toList_ofList hnamed,
        fun given after => v.takeOption_plain given _ after⟩
    | cons w vs =>
      have hnamed : g.named? (String.ofList ('-' :: v.letter :: (w :: vs).map Verbosity.letter))
          = none := by
        rw [Grammar.named?, hlookup, List.map_cons, v.lookup_letters, ← List.map_cons,
          String.toList_ofList, splitAtEquals?_eq_none (v.equals_not_mem_letters _)]
        rfl
      exact ⟨_, ofText_of_candidate String.toList_ofList hnamed (hg.candidates_letters v w vs),
        hg.takeOption_letters v w vs⟩
  | equals v w vs =>
    have hsplit := splitAtEquals?_append (v.equals_not_mem_letters [])
      ((w :: vs).map Verbosity.letter)
    have hnamed : g.named? (String.ofList ('-' :: v.letter :: '='
        :: (w :: vs).map Verbosity.letter)) = some ⟨v.spec, String.ofList ['-', v.letter],
          some (String.ofList ((w :: vs).map Verbosity.letter))⟩ := by
      rw [Grammar.named?, hlookup, v.lookup_letters, String.toList_ofList]
      refine (congrArg (Option.bind · _) hsplit).trans ?_
      exact congrArg (Option.map _) (hg.lookup_letter v)
    exact ⟨_, ofText_of_named String.toList_ofList hnamed, hg.takeOption_letters v w vs⟩

end Command
end RefPages
