import RefPages.Proofs.Command.OptionUse

/-!
# Verbosity on either side of a command's name

The options for verbosity are understood in front of a command's name and behind it, and it does not
matter on which side they stand: what is set on one side is kept on the other.

* `Verbosity.isSet_takeOption` says what one option does to the verbosity, whichever it is: what its
  text spells.
* `Round` lists what can happen to the argument in front, and `Verbosity.isSet_takeArguments` is the
  result for all arguments, by induction over the rounds.
* `takeTexts` reads the texts of a command line, where those in front of the name can be followed
  one by one, and `parse_eq` is the command line with spellings for verbosity in front of the name.
* `isAccepted_iff` says that `Spells` has every spelling that is accepted.
* `parse_verbosity_eitherSide` is the result.
-/

set_option autoImplicit false
namespace RefPages
namespace Command

variable {g : Grammar} {own : List OptionSpec} {text : String} {v : Verbosity}

/-! ## One option -/

/-- A text spells the same options however it is read. -/
theorem Spells.mem_iff {vs ws : List Verbosity} (hvs : Spells vs text.toList)
    (hws : Spells ws text.toList) : v ∈ vs ↔ v ∈ ws := by
  obtain ⟨use, huse, htake⟩ := extends_mainGrammar.exists_use_of_spells hvs
  obtain ⟨use', huse', htake'⟩ := extends_mainGrammar.exists_use_of_spells hws
  cases huse.symm.trans huse'
  have heq := (Prod.mk.inj (Except.ok.inj ((htake {} []).symm.trans (htake' {} [])))).1
  have hset := v.isSet_raise {} vs
  rw [heq, v.isSet_raise] at hset
  have hunset : ¬ v.IsSet {} := by cases v <;> simp [Verbosity.IsSet]
  simpa [hunset] using hset.symm

theorem Spells.givenBy_iff {vs : List Verbosity} (h : Spells vs text.toList) :
    v.GivenBy text ↔ v ∈ vs :=
  ⟨fun ⟨_, hws, hv⟩ => (hws.mem_iff h).1 hv, fun hv => ⟨vs, h, hv⟩⟩

theorem Verbosity.isSet_take {spec : OptionSpec} (hspec : spec.switch ∉ [.help, .verbose, .quiet])
    {given given' : Given} {value : String} (h : given.take g spec value = .ok given') :
    v.IsSet given' ↔ v.IsSet given := by
  rw [Given.take] at h
  cases hswitch : spec.switch <;> simp [hswitch] at hspec h <;> subst h <;> cases v <;> rfl

theorem Verbosity.isSet_takeOption_own (hg : g.Extends own) {use : OptionUse}
    (hown : (use.spelling, use.spec) ∈ spellingsOf own) {given given' : Given}
    {after : List Argument} {n : Nat} (h : takeOption g given use after = .ok (given', n)) :
    v.IsSet given' ↔ v.IsSet given := by
  have hspec := (hg.isOwn _ (mem_spellingsOf.1 hown).1).switch
  cases takes_of_takeOption h with
  | value _ _ htake => exact isSet_take hspec htake
  | next _ _ _ htake => exact isSet_take hspec htake
  | plain _ _ htake => exact isSet_take hspec htake
  | together _ _ hshort _ _ _ =>
    obtain ⟨c, rest, hlist, -⟩ := hg.exists_toList hown
    exact absurd ⟨c :: rest, hlist.symm⟩ hshort

/-- What an option that is taken does to the verbosity is what its text spells. -/
theorem Verbosity.isSet_takeOption (hg : g.Extends own) (hdashes : text ≠ "--") {use : OptionUse}
    (hsort : Argument.ofText g text = .ok (.option text (some use))) {given given' : Given}
    {after : List Argument} {n : Nat} (h : takeOption g given use after = .ok (given', n)) :
    v.IsSet given' ↔ v.IsSet given ∨ v.GivenBy text := by
  by_cases hspells : ∃ vs, Spells vs text.toList
  · obtain ⟨vs, hvs⟩ := hspells
    obtain ⟨use', huse, htake⟩ := hg.exists_use_of_spells hvs
    cases huse.symm.trans hsort
    cases (htake given after).symm.trans h
    rw [v.isSet_raise, hvs.givenBy_iff]
  · have hown := (hg.own_or_spells hdashes hsort h).resolve_right hspells
    have hnot : ¬ v.GivenBy text := fun ⟨vs, hvs, _⟩ => hspells ⟨vs, hvs⟩
    rw [Verbosity.isSet_takeOption_own hg hown h]
    exact (or_iff_left hnot).symm

/-- An option takes nothing from behind it, or an operand. -/
theorem takeOption_count {given given' : Given} {use : OptionUse} {after : List Argument} {n : Nat}
    (h : takeOption g given use after = .ok (given', n)) :
    ∀ a ∈ after.take n, a.isOption = false := by
  cases takes_of_takeOption h with
  | value | plain | together => simp
  | next _ _ hafter _ => simp [hafter, Argument.isOption]

/-! ## A row of arguments -/

/-- The argument is an operand, or is what its text is sorted as. -/
def Argument.IsSorted (g : Grammar) (a : Argument) : Prop :=
  a.isOption = true → a.text ≠ "--" ∧ Argument.ofText g a.text = .ok a

/-- One of the options among the arguments is spelled as `v`. -/
def AmongOptions (v : Verbosity) (arguments : List Argument) : Prop :=
  ∃ a ∈ arguments, a.isOption = true ∧ v.GivenBy a.text

theorem amongOptions_append {xs ys : List Argument} :
    AmongOptions v (xs ++ ys) ↔ AmongOptions v xs ∨ AmongOptions v ys := by
  simp only [AmongOptions, List.mem_append, or_and_right, exists_or]

/-- Arguments that are no options can be dropped. -/
theorem amongOptions_drop {arguments : List Argument} {n : Nat}
    (h : ∀ a ∈ arguments.take n, a.isOption = false) :
    AmongOptions v (arguments.drop n) ↔ AmongOptions v arguments := by
  have hnot : ¬ AmongOptions v (arguments.take n) := by
    rintro ⟨a, ha, hoption, -⟩
    exact Bool.false_ne_true ((h a ha).symm.trans hoption)
  calc AmongOptions v (arguments.drop n)
      ↔ AmongOptions v (arguments.take n) ∨ AmongOptions v (arguments.drop n) :=
        (or_iff_right hnot).symm
    _ ↔ AmongOptions v arguments := by rw [← amongOptions_append, List.take_append_drop]

theorem amongOptions_cons {a : Argument} {rest : List Argument} :
    AmongOptions v (a :: rest) ↔ (a.isOption = true ∧ v.GivenBy a.text) ∨ AmongOptions v rest := by
  simp [AmongOptions]

/-- What is sorted as an option that nobody knows spells nothing. -/
theorem not_givenBy_of_unknown (hg : g.Extends own)
    (h : Argument.ofText g text = .ok (.option text none)) : ¬ v.GivenBy text := by
  rintro ⟨vs, hvs, -⟩
  obtain ⟨use, huse, -⟩ := hg.exists_use_of_spells hvs
  cases h.symm.trans huse

theorem take_length_takeWhile {α : Type} (p : α → Bool) (l : List α) :
    l.take (l.takeWhile p).length = l.takeWhile p :=
  (List.prefix_iff_eq_take.1 (List.takeWhile_prefix p)).symm

/-- An operand that is taken is no option, and neither is the mark `--`. -/
theorem isOption_of_mem_take_operandCount {operand : Operand} (h : operand ≠ .command)
    (arguments : List Argument) :
    ∀ a ∈ arguments.take (operandCount operand arguments), a.isOption = false := by
  have hdashes : ∀ l : List Argument, ∀ a ∈ l.takeWhile (· = .dashes), a.isOption = false := by
    intro l a ha
    have := List.all_eq_true.1 (List.all_takeWhile (p := (· = .dashes))) a ha
    rw [of_decide_eq_true this]
    rfl
  intro a ha
  unfold operandCount at ha
  dsimp only at ha
  split at ha
  · rename_i text rest hdrop
    rw [Nat.add_assoc, List.take_add, List.mem_append, take_length_takeWhile, hdrop, Nat.add_comm 1,
      List.take_succ_cons, take_length_takeWhile, List.mem_cons] at ha
    rcases ha with ha | rfl | ha
    · exact hdashes _ a ha
    · rfl
    · exact hdashes _ a ha
  · exact absurd rfl h
  · simp at ha

theorem takeOperand_spec (hoperand : g.operand ≠ .command) (t : Taken)
    (arguments : List Argument) :
    (t.takeOperand g arguments).1.given = t.given
      ∧ ∀ a ∈ arguments.take (t.takeOperand g arguments).2, a.isOption = false := by
  unfold Taken.takeOperand
  split
  · rename_i n _ hcount
    refine ⟨rfl, ?_⟩
    rw [show n + 1 = operandCount g.operand arguments from hcount.symm]
    exact isOption_of_mem_take_operandCount hoperand arguments
  · exact ⟨rfl, by simp⟩

/-- What happens to the argument in front: if there are options, an unknown one is left over, a
known one is taken, and operands are taken or left over; the rest is seen to afterwards. -/
inductive Round (g : Grammar) (fuel : Nat) (t t' : Taken) : List Argument → Prop where
  | last {arguments : List Argument} (hnone : ∀ a ∈ arguments, a.isOption = false)
    (h : t'.given = t.given) : Round g fuel t t' arguments
  | unknown {text : String} {rest : List Argument}
    (hrest : takeArguments g fuel { t with extras := t.extras ++ [text] } rest = .ok t') :
    Round g fuel t t' (.option text none :: rest)
  | known {text : String} {use : OptionUse} {rest : List Argument} {given : Given} {n : Nat}
    (htake : takeOption g t.given use rest = .ok (given, n))
    (hrest : takeArguments g fuel { t with given } (rest.drop n) = .ok t') :
    Round g fuel t t' (.option text (some use) :: rest)
  | operands {arguments : List Argument} {t₁ : Taken} {n : Nat} (hgiven : t₁.given = t.given)
    (hpos : 0 < (arguments.take n).length) (hnone : ∀ a ∈ arguments.take n, a.isOption = false)
    (hrest : takeArguments g fuel t₁ (arguments.drop n) = .ok t') : Round g fuel t t' arguments

theorem round_of_takeArguments (hoperand : g.operand ≠ .command) {fuel : Nat} {t t' : Taken}
    {arguments : List Argument} (h : takeArguments g (fuel + 1) t arguments = .ok t') :
    Round g fuel t t' arguments := by
  obtain ⟨hgiven, hnone⟩ := takeOperand_spec hoperand t arguments
  unfold takeArguments at h
  generalize t.takeOperand g arguments = taken at h hgiven hnone
  obtain ⟨t₁, count⟩ := taken
  split at h
  · rename_i hany
    split at h
    · exact .unknown h
    · obtain ⟨⟨given, n⟩, htake, h⟩ := exists_of_bind_eq_ok h
      exact .known htake h
    · rename_i hunknown hknown
      have hpassed : 0 < (arguments.takeWhile (!·.isOption)).length := by
        cases arguments with
        | nil => exact absurd hany Bool.false_ne_true
        | cons a rest =>
          cases a with
          | operand | dashes => simp [Argument.isOption]
          | option text use? =>
            cases use? with
            | none => exact (hunknown _ _ rfl).elim
            | some use => exact (hknown _ _ _ rfl).elim
      dsimp only at h hgiven hnone
      split at h
      · refine .operands ?_ ?_ (fun a ha => ?_) h
        · exact hgiven
        · rwa [take_length_takeWhile]
        · rw [take_length_takeWhile] at ha
          simpa using List.all_eq_true.1 (List.all_takeWhile (p := (!·.isOption))) a ha
      · rename_i hcount
        refine .operands hgiven ?_ hnone h
        rw [List.length_take, Nat.lt_min]
        have := (List.takeWhile_prefix (l := arguments) (!·.isOption)).length_le
        exact ⟨Nat.pos_of_ne_zero hcount, Nat.lt_of_lt_of_le hpassed this⟩
  · rename_i hnone
    cases h
    refine .last (fun a ha => ?_) hgiven
    exact Bool.eq_false_iff.2 fun hoption => hnone (List.any_eq_true.2 ⟨a, ha, hoption⟩)

/-- What all arguments together do to the verbosity is what the options among them spell. -/
theorem Verbosity.isSet_takeArguments (hg : g.Extends own) (hoperand : g.operand ≠ .command)
    {fuel : Nat} {t t' : Taken} {arguments : List Argument} (hfuel : arguments.length < fuel)
    (hsorted : ∀ a ∈ arguments, a.IsSorted g) (h : takeArguments g fuel t arguments = .ok t') :
    v.IsSet t'.given ↔ v.IsSet t.given ∨ AmongOptions v arguments := by
  induction fuel generalizing t arguments with
  | zero => exact absurd hfuel (Nat.not_lt_zero _)
  | succ fuel ih =>
    cases round_of_takeArguments hoperand h with
    | last hnone hgiven =>
      rw [hgiven]
      refine (or_iff_left ?_).symm
      rintro ⟨a, ha, hoption, -⟩
      exact Bool.false_ne_true ((hnone a ha).symm.trans hoption)
    | @unknown text rest hrest =>
      have hhead := (hsorted _ List.mem_cons_self rfl).2
      rw [ih (Nat.lt_of_succ_lt_succ hfuel)
        (fun a ha => hsorted a (List.mem_cons_of_mem _ ha)) hrest, amongOptions_cons]
      exact or_congr_right
        (or_iff_right fun hgiven => not_givenBy_of_unknown hg hhead hgiven.2).symm
    | @known text use rest given n htake hrest =>
      obtain ⟨hdashes, hhead⟩ := hsorted _ List.mem_cons_self rfl
      have hlength : (rest.drop n).length < fuel := by
        rw [List.length_drop]
        exact Nat.lt_of_le_of_lt (Nat.sub_le _ _) (Nat.lt_of_succ_lt_succ hfuel)
      rw [ih hlength
        (fun a ha => hsorted a (List.mem_cons_of_mem _ (List.mem_of_mem_drop ha))) hrest,
        amongOptions_drop (takeOption_count htake), amongOptions_cons,
        isSet_takeOption hg hdashes hhead htake, or_assoc]
      exact or_congr_right (or_congr_left (and_iff_right rfl).symm)
    | @operands _ t₁ n hgiven hpos hnone hrest =>
      have hlength : (arguments.drop n).length < fuel := by
        rw [List.length_take] at hpos
        rw [List.length_drop]
        omega
      rw [ih hlength (fun a ha => hsorted a (List.mem_of_mem_drop ha)) hrest, hgiven,
        amongOptions_drop hnone]

/-! ## A row of texts -/

theorem text_of_ofText {a : Argument} (h : Argument.ofText g text = .ok a) : a.text = text := by
  rw [Argument.ofText] at h
  split at h
  · cases h
    rfl
  · split at h
    · cases h
      rfl
    · split at h <;> cases h <;> rfl
    · cases h
  · cases h
    rfl

/-- A row of texts is sorted text by text, up to the mark `--`. -/
theorem exists_of_sortArguments_cons {rest : List String} {arguments : List Argument}
    (hdashes : text ≠ "--") (h : sortArguments g (text :: rest) = .ok arguments) :
    ∃ a as, Argument.ofText g text = .ok a ∧ sortArguments g rest = .ok as
      ∧ arguments = a :: as := by
  rw [sortArguments, if_neg hdashes] at h
  obtain ⟨a, ha, h⟩ := exists_of_bind_eq_ok h
  obtain ⟨as, has, h⟩ := exists_of_bind_eq_ok h
  cases h
  exact ⟨a, as, ha, has, rfl⟩

theorem map_text_of_sortArguments {texts : List String} {arguments : List Argument}
    (h : sortArguments g texts = .ok arguments) : arguments.map Argument.text = texts := by
  induction texts generalizing arguments with
  | nil =>
    cases h
    rfl
  | cons text rest ih =>
    by_cases hdashes : text = "--"
    · rw [sortArguments, if_pos hdashes] at h
      cases h
      rw [List.map_cons, List.map_map, hdashes]
      exact congrArg _ (List.map_id _)
    · obtain ⟨a, as, ha, has, rfl⟩ := exists_of_sortArguments_cons hdashes h
      rw [List.map_cons, ih has, text_of_ofText ha]

theorem isSorted_of_sortArguments {texts : List String} {arguments : List Argument}
    (h : sortArguments g texts = .ok arguments) : ∀ a ∈ arguments, a.IsSorted g := by
  induction texts generalizing arguments with
  | nil =>
    cases h
    simp
  | cons text rest ih =>
    by_cases hdashes : text = "--"
    · rw [sortArguments, if_pos hdashes] at h
      cases h
      refine List.forall_mem_cons.2 ⟨fun hoption => absurd hoption Bool.false_ne_true, ?_⟩
      intro a ha hoption
      obtain ⟨_, -, rfl⟩ := List.mem_map.1 ha
      cases hoption
    · obtain ⟨a, as, ha, has, rfl⟩ := exists_of_sortArguments_cons hdashes h
      refine List.forall_mem_cons.2 ⟨fun _ => ?_, ih has⟩
      rw [text_of_ofText ha]
      exact ⟨hdashes, ha⟩

/-- The options for verbosity among the arguments are the texts in front of `--` that spell one. -/
theorem amongOptions_of_sortArguments (hg : g.Extends own) {texts : List String}
    {arguments : List Argument} (h : sortArguments g texts = .ok arguments) :
    AmongOptions v arguments ↔ ∃ text ∈ texts.takeWhile (· ≠ "--"), v.GivenBy text := by
  induction texts generalizing arguments with
  | nil =>
    cases h
    simp [AmongOptions]
  | cons text rest ih =>
    by_cases hdashes : text = "--"
    · rw [sortArguments, if_pos hdashes] at h
      cases h
      simp [AmongOptions, Argument.isOption, hdashes]
    · obtain ⟨a, as, ha, has, rfl⟩ := exists_of_sortArguments_cons hdashes h
      have hhead : (a.isOption = true ∧ v.GivenBy a.text) ↔ v.GivenBy text := by
        rw [text_of_ofText ha]
        refine and_iff_right_of_imp fun hgiven => ?_
        obtain ⟨vs, hvs, -⟩ := hgiven
        obtain ⟨use, huse, -⟩ := hg.exists_use_of_spells hvs
        cases ha.symm.trans huse
        rfl
      rw [amongOptions_cons, hhead, ih has, List.takeWhile_cons_of_pos (by simpa using hdashes)]
      simp

/-- Sorts texts and takes them from the left. -/
def takeTexts (g : Grammar) (t : Taken) (texts : List String) : Except Stop Taken := do
  let arguments ← sortArguments g texts
  takeArguments g (arguments.length + 1) t arguments

theorem takeCommand_eq (given : Given) (texts : List String) :
    takeCommand g given texts = (do
      let taken ← takeTexts g { given } texts
      if g.operand ≠ .none ∧ taken.operand? = none then
        g.error ("the following arguments are required: " ++ g.operand.name)
      else .ok taken) := by
  rw [takeCommand, takeTexts]
  cases sortArguments g texts <;> rfl

theorem Spells.ne_dashes {vs : List Verbosity} (h : Spells vs text.toList) : text ≠ "--" := by
  have key : ∀ cs, Spells vs cs → cs ≠ ['-', '-'] := by
    intro cs h
    cases h with
    | word v n => cases v <;> simp [Verbosity.word]
    | letters v vs => simp [v.letter_ne_dash]
    | equals v w vs => simp
  rintro rfl
  exact key _ h rfl

theorem takeArguments_known (fuel : Nat) (t : Taken) (text : String) (use : OptionUse)
    (rest : List Argument) :
    takeArguments g (fuel + 1) t (.option text (some use) :: rest)
      = (takeOption g t.given use rest >>= fun (given, count) =>
          takeArguments g fuel { t with given } (rest.drop count)) := by
  rw [takeArguments]
  exact if_pos rfl

/-- A spelling for verbosity in front sets what it names, and the rest is taken as without it. -/
theorem Grammar.Extends.takeTexts_spells (hg : g.Extends own) {vs : List Verbosity}
    (h : Spells vs text.toList) (t : Taken) (rest : List String) :
    takeTexts g t (text :: rest) = takeTexts g { t with given := t.given.raise vs } rest := by
  obtain ⟨use, huse, htake⟩ := hg.exists_use_of_spells h
  rw [takeTexts, takeTexts, sortArguments, if_neg h.ne_dashes, huse]
  cases sortArguments g rest with
  | error stop => rfl
  | ok arguments =>
    refine (takeArguments_known (arguments.length + 1) t text use arguments).trans ?_
    rw [htake]
    rfl

theorem takeOperand_name {t : Taken} (ht : t.operand? = none) (name : String)
    (arguments : List Argument) :
    t.takeOperand mainGrammar (.operand name :: arguments)
      = ({ t with operand? := some (name :: arguments.map Argument.text) },
          arguments.length + 1) := by
  have hcount : operandCount mainGrammar.operand (.operand name :: arguments)
      = arguments.length + 1 := rfl
  unfold Taken.takeOperand
  rw [ht, hcount]
  dsimp only
  rw [List.take_of_length_le (Nat.le_of_eq List.length_cons)]
  rfl

theorem takeArguments_nil {fuel : Nat} {t : Taken} (ht : t.operand? ≠ none) :
    takeArguments g (fuel + 1) t [] = .ok t := by
  have hoperand : t.takeOperand g [] = (t, 0) := by
    unfold Taken.takeOperand
    split
    · rename_i hnone _
      exact absurd hnone ht
    · rfl
  unfold takeArguments
  rw [if_neg (by simp), hoperand]
  simp

theorem takeArguments_name {t : Taken} (ht : t.operand? = none) (name : String)
    (arguments : List Argument) (fuel : Nat) :
    takeArguments mainGrammar (fuel + 2) t (.operand name :: arguments)
      = .ok { t with operand? := some (name :: arguments.map Argument.text) } := by
  unfold takeArguments
  rw [takeOperand_name ht]
  dsimp only
  rw [List.drop_of_length_le (Nat.le_of_eq List.length_cons)]
  split
  · rw [if_neg (Nat.succ_ne_zero _)]
    exact takeArguments_nil (Option.some_ne_none _)
  · simp

/-- The name of a command takes everything behind it. -/
theorem takeTexts_name {name : String} (hname : name.toList.head? ≠ some '-') {t : Taken}
    (ht : t.operand? = none) (rest : List String) :
    takeTexts mainGrammar t (name :: rest)
      = (sortArguments mainGrammar rest).map fun _ =>
          { t with operand? := some (name :: rest) } := by
  have hdashes : name ≠ "--" := by
    rintro rfl
    exact hname rfl
  rw [takeTexts, sortArguments, if_neg hdashes, ofText_operand _ hname]
  cases hrest : sortArguments mainGrammar rest with
  | error stop => rfl
  | ok arguments =>
    refine (takeArguments_name ht name arguments arguments.length).trans ?_
    rw [map_text_of_sortArguments hrest]
    rfl

/-! ## The command line -/

/-- What the command of a name makes of the texts behind it. -/
def parseCommand (given : Given) (name : String) (rest : List String) : Except Stop Request :=
  if name = "extract" then do
    let taken ← takeCommand extractGrammar given rest
    checkExtras taken.extras (.extract taken.given)
  else do
    let taken ← takeCommand showGrammar given rest
    checkExtras taken.extras
      (.showPage taken.given (operandText (taken.operand?.getD [])))

/-- Spellings for verbosity in front of a name set what they name. -/
theorem exists_raise {texts : List String} (h : ∀ text ∈ texts, ∃ vs, Spells vs text.toList) :
    ∃ vs : List Verbosity, (∀ v, v ∈ vs ↔ ∃ text ∈ texts, v.GivenBy text)
      ∧ ∀ (t : Taken) (rest : List String), takeTexts mainGrammar t (texts ++ rest)
        = takeTexts mainGrammar { t with given := t.given.raise vs } rest := by
  induction texts with
  | nil => exact ⟨[], by simp, fun t rest => by rw [Given.raise_nil]; rfl⟩
  | cons text texts ih =>
    obtain ⟨hhead, htail⟩ := List.forall_mem_cons.1 h
    obtain ⟨vs, hvs⟩ := hhead
    obtain ⟨ws, hws, htake⟩ := ih htail
    refine ⟨vs ++ ws, fun v => ?_, fun t rest => ?_⟩
    · simp only [List.mem_append, hws, List.mem_cons, exists_eq_or_imp, hvs.givenBy_iff]
    · rw [List.cons_append, extends_mainGrammar.takeTexts_spells hvs, htake, Given.raise_raise]

/-- The command line with spellings for verbosity in front of a command's name. -/
theorem parse_eq {texts : List String} {given : Given} {name : String} {rest : List String}
    (hname : name ∈ commandNames)
    (htexts : takeTexts mainGrammar {} texts = takeTexts mainGrammar { given } (name :: rest)) :
    parse texts = (sortArguments mainGrammar rest >>= fun _ => parseCommand given name rest) := by
  have hdash : name.toList.head? ≠ some '-' := by
    have key : ∀ name ∈ commandNames, name.toList.head? ≠ some '-' := by decide
    exact key name hname
  rw [parse, takeCommand_eq, htexts, takeTexts_name hdash rfl]
  cases sortArguments mainGrammar rest with
  | error stop => rfl
  | ok arguments =>
    rcases List.mem_cons.1 hname with rfl | hname
    · rfl
    · rw [List.mem_singleton.1 hname]
      rfl

theorem parseCommand_spells {vs : List Verbosity} (h : Spells vs text.toList) (given : Given)
    (name : String) (rest : List String) :
    parseCommand given name (text :: rest) = parseCommand (given.raise vs) name rest := by
  rw [parseCommand, parseCommand]
  simp only [takeCommand_eq, extends_extractGrammar.takeTexts_spells h,
    extends_showGrammar.takeTexts_spells h]

theorem Verbosity.isSet_takeCommand (hg : g.Extends own) (hoperand : g.operand ≠ .command)
    {given : Given} {texts : List String} {taken : Taken}
    (h : takeCommand g given texts = .ok taken) :
    v.IsSet taken.given
      ↔ v.IsSet given ∨ ∃ text ∈ texts.takeWhile (· ≠ "--"), v.GivenBy text := by
  rw [takeCommand] at h
  obtain ⟨arguments, hsort, h⟩ := exists_of_bind_eq_ok h
  obtain ⟨t, htake, h⟩ := exists_of_bind_eq_ok h
  split at h
  · cases h
  · cases h
    have hsorted := isSorted_of_sortArguments hsort
    rw [isSet_takeArguments hg hoperand (Nat.lt_succ_self _) hsorted htake,
      amongOptions_of_sortArguments hg hsort]

theorem eq_of_checkExtras {extras : List String} {request request' : Request}
    (h : checkExtras extras request = .ok request') : request' = request := by
  rw [checkExtras] at h
  split at h <;> cases h
  rfl

theorem Verbosity.isSet_parseCommand {given : Given} {name : String} {rest : List String}
    {request : Request} (h : parseCommand given name rest = .ok request) :
    v.IsSet request.given
      ↔ v.IsSet given ∨ ∃ text ∈ rest.takeWhile (· ≠ "--"), v.GivenBy text := by
  rw [parseCommand] at h
  split at h
  · obtain ⟨taken, htaken, h⟩ := exists_of_bind_eq_ok h
    rw [eq_of_checkExtras h]
    exact isSet_takeCommand extends_extractGrammar (by decide) htaken
  · obtain ⟨taken, htaken, h⟩ := exists_of_bind_eq_ok h
    rw [eq_of_checkExtras h]
    exact isSet_takeCommand extends_showGrammar (by decide) htaken

theorem of_checkExtras_append {xs ys : List String} {request request' : Request}
    (h : checkExtras (xs ++ ys) request = .ok request') :
    xs = [] ∧ checkExtras ys request = .ok request' := by
  cases xs with
  | nil => exact ⟨rfl, h⟩
  | cons x xs => cases h

/-- A command line that is accepted has a command's name, and nothing in front is left over. -/
theorem exists_of_parse {texts : List String} {request : Request}
    (h : parse texts = .ok request) :
    ∃ outer name rest, takeTexts mainGrammar {} texts = .ok outer ∧ outer.extras = []
      ∧ outer.operand?.getD [] = name :: rest ∧ name ∈ commandNames
      ∧ parseCommand outer.given name rest = .ok request := by
  rw [parse, takeCommand_eq] at h
  obtain ⟨outer, houter, h⟩ := exists_of_bind_eq_ok h
  obtain ⟨taken, htaken, houter⟩ := exists_of_bind_eq_ok houter
  split at houter
  · cases houter
  · cases houter
    split at h
    · cases h
    · rename_i name rest hoperand
      split at h
      · rename_i hname
        obtain ⟨inner, hinner, h⟩ := exists_of_bind_eq_ok h
        obtain ⟨hextras, h⟩ := of_checkExtras_append h
        refine ⟨outer, name, rest, htaken, hextras, hoperand, by simp [hname, commandNames], ?_⟩
        rw [parseCommand, if_pos hname, hinner]
        exact h
      · rename_i hextract
        split at h
        · rename_i hname
          obtain ⟨inner, hinner, h⟩ := exists_of_bind_eq_ok h
          obtain ⟨hextras, h⟩ := of_checkExtras_append h
          refine ⟨outer, name, rest, htaken, hextras, hoperand, by simp [hname, commandNames], ?_⟩
          rw [parseCommand, if_neg hextract, hinner]
          exact h
        · cases h

/-- The text is an option of its own that is accepted in front of a command's name. -/
def IsAccepted (text : String) : Prop :=
  ∃ given, parse [text, "extract"] = .ok (.extract given)

/-- The spellings for verbosity are what is accepted in front of a command's name. -/
theorem isAccepted_iff : IsAccepted text ↔ ∃ vs, Spells vs text.toList := by
  symm
  constructor
  · rintro ⟨vs, hvs⟩
    refine ⟨Given.raise {} vs, ?_⟩
    rw [parse_eq (by decide) (extends_mainGrammar.takeTexts_spells hvs {} _)]
    rfl
  · rintro ⟨given, h⟩
    obtain ⟨outer, name, rest, htaken, hextras, hoperand, hname, hrest⟩ := exists_of_parse h
    obtain ⟨arguments, hsort, htake⟩ := exists_of_bind_eq_ok htaken
    have hdashes : text ≠ "--" := by
      rintro rfl
      cases hsort
      cases htake
      cases hoperand
      exact absurd hname (by decide)
    obtain ⟨a, as, ha, has, rfl⟩ := exists_of_sortArguments_cons hdashes hsort
    cases has
    cases a with
    | dashes => exact absurd (text_of_ofText ha).symm hdashes
    | operand s =>
      cases htake.symm.trans (takeArguments_name rfl s [.operand "extract"] 1)
      cases hoperand
      rcases List.mem_cons.1 hname with rfl | hname
      · cases hrest
      · cases List.mem_singleton.1 hname
        cases hrest
    | option s use? =>
      cases use? with
      | none =>
        cases htake.symm.trans
          (takeArguments_name (t := { extras := [s] }) rfl "extract" [] 0)
        cases hextras
      | some use =>
        obtain rfl : s = text := text_of_ofText ha
        rw [List.length_cons, takeArguments_known] at htake
        obtain ⟨⟨given₁, n⟩, htake, -⟩ := exists_of_bind_eq_ok htake
        refine (extends_mainGrammar.own_or_spells hdashes ha htake).resolve_left ?_
        simp [spellingsOf]

theorem isAccepted_of_mem {flag : String} (h : flag ∈ ["-v", "--verbose", "-q", "--quiet"]) :
    IsAccepted flag := by
  simp only [List.mem_cons, List.not_mem_nil, or_false] at h
  rcases h with rfl | rfl | rfl | rfl
  · exact ⟨{ verbose := true }, by rfl⟩
  · exact ⟨{ verbose := true }, by rfl⟩
  · exact ⟨{ quiet := true }, by rfl⟩
  · exact ⟨{ quiet := true }, by rfl⟩

/-- **Verbosity may be given on either side of a command's name.** An option that is accepted in
front of the name may as well stand behind it, and no option on one side undoes what the other side
has set. -/
theorem parse_verbosity_eitherSide {flag name : String} {front rest : List String}
    (hflag : IsAccepted flag) (hfront : ∀ text ∈ front, IsAccepted text)
    (hname : name ∈ commandNames) :
    parse (flag :: front ++ name :: rest) = parse (front ++ name :: flag :: rest)
      ∧ ∀ request, parse (flag :: front ++ name :: rest) = .ok request →
        ∀ v : Verbosity, v.IsSet request.given
          ↔ ∃ text ∈ flag :: front ++ rest.takeWhile (· ≠ "--"), v.GivenBy text := by
  obtain ⟨vs, hvs⟩ := isAccepted_iff.1 hflag
  obtain ⟨ws, hws, htake⟩ := exists_raise fun text h => isAccepted_iff.1 (hfront text h)
  have hbefore : parse (flag :: front ++ name :: rest) = (sortArguments mainGrammar rest
      >>= fun _ => parseCommand (Given.raise {} (vs ++ ws)) name rest) := by
    refine parse_eq hname ?_
    rw [List.cons_append, extends_mainGrammar.takeTexts_spells hvs, htake, Given.raise_raise]
  have hbehind : parse (front ++ name :: flag :: rest) = (sortArguments mainGrammar rest
      >>= fun _ => parseCommand (Given.raise {} (ws ++ vs)) name rest) := by
    obtain ⟨use, huse, -⟩ := extends_mainGrammar.exists_use_of_spells hvs
    rw [parse_eq hname (htake {} _), parseCommand_spells hvs, Given.raise_raise, sortArguments,
      if_neg hvs.ne_dashes, huse]
    cases sortArguments mainGrammar rest <;> rfl
  refine ⟨?_, fun request hrequest v => ?_⟩
  · have hcomm : ∀ v, v ∈ vs ++ ws ↔ v ∈ ws ++ vs := fun v => by
      rw [List.mem_append, List.mem_append, or_comm]
    rw [hbefore, hbehind, Given.raise_congr {} hcomm]
  · rw [hbefore] at hrequest
    obtain ⟨_, -, hrequest⟩ := exists_of_bind_eq_ok hrequest
    have hunset : ¬ v.IsSet {} := by cases v <;> simp [Verbosity.IsSet]
    rw [v.isSet_parseCommand hrequest, v.isSet_raise, or_iff_right hunset, List.mem_append, hws,
      ← hvs.givenBy_iff]
    simp only [List.cons_append, List.mem_cons, List.mem_append, or_and_right, exists_or,
      exists_eq_left, or_assoc]

/-- A request for the page of a file named like an option. -/
def marked : Request :=
  .showPage { verbose := true, config? := some "src" } "-q"

/-- The option behind the mark `--` is the file, and sets nothing. -/
theorem parse_verbosity_eitherSide_marked :
    IsAccepted "-v" ∧ IsAccepted "--verb"
      ∧ parse ["-v", "--verb", "show", "--config", "src", "--", "-q"] = .ok marked
      ∧ parse ["--verb", "show", "-v", "--config", "src", "--", "-q"] = .ok marked
      ∧ ∀ v : Verbosity, v.IsSet marked.given
        ↔ ∃ text ∈ ["-v", "--verb", "--config", "src"], v.GivenBy text := by
  have hflag : IsAccepted "-v" := isAccepted_of_mem (by decide)
  have hword : IsAccepted "--verb" := ⟨{ verbose := true }, by rfl⟩
  have hfront : ∀ text ∈ ["--verb"], IsAccepted text := by simpa using hword
  have hparse : parse ["-v", "--verb", "show", "--config", "src", "--", "-q"] = .ok marked :=
    rfl
  obtain ⟨hsides, hset⟩ := @parse_verbosity_eitherSide "-v" "show" ["--verb"]
    ["--config", "src", "--", "-q"] hflag hfront (by decide)
  exact ⟨hflag, hword, hparse, hsides.symm.trans hparse, hset marked hparse⟩

end Command
end RefPages
