import RefPages.Proofs.Source.Expectation
import RefPages.Proofs.Source.Found
import RefPages.Proofs.Source.Shape

/-!
# Aliases by their positions

One pass over a text takes aliases from the left and goes on behind each. What it passes over so is
no alias of its own, except where the target of one is the keyword of the next, as in
`alias a = alias b = c`.

* `PlacedAlias.StandsIn` says that an alias stands in a text, with whole words for its name and its
  target. At one position there is at most one (`StandsIn.unique`).
* `StandsIn.start_eq_target`: two aliases overlap in one way only.
* `Takes` says which aliases are taken from a position on. There is one such list (`Takes.unique`),
  and `exists_takes` says that it is the one that is found.
* `aliases_placed`: **the other names of an operation are the names in the aliases that are taken.**
-/

set_option autoImplicit false
namespace RefPages
namespace Source

open Text

/-! ## Aliases in a text -/

/-- An alias by the positions where it and its target start, with its name and the target. -/
@[ext]
structure PlacedAlias where
  start : Nat
  target : Nat
  name : List Char
  original : List Char

namespace PlacedAlias

/-- The position behind the alias. -/
def stop (a : PlacedAlias) : Nat :=
  a.target + a.original.length

/-- The alias stands in the text: it does not start inside a word, and its target is a word that
goes no further. -/
structure StandsIn (text : List Char) (a : PlacedAlias) : Prop where
  outside : (spotAt text a.start).inWord = false
  written : ∃ front rest, IsAlias a.name front ∧ IsWord a.original ∧ atWordEnd rest = true
    ∧ text.drop a.start = front ++ (a.original ++ rest) ∧ a.target = a.start + front.length

end PlacedAlias

theorem isWord_keyword : IsWord "alias".toList :=
  ⟨by decide, List.all_eq_true.1 (by decide)⟩

/-- What follows a part of a text. -/
theorem drop_of_drop_eq_append {text part rest : List Char} {start : Nat}
    (h : text.drop start = part ++ rest) : text.drop (start + part.length) = rest := by
  rw [← List.drop_drop, h, List.drop_left]

/-- A position in a part of a text. -/
theorem exists_mem_of_drop_eq_append {text part rest : List Char} {start i : Nat}
    (h : text.drop start = part ++ rest) (hstart : start ≤ i) (hi : i < start + part.length) :
    ∃ c ∈ part, ∃ tail, text.drop i = c :: tail := by
  obtain ⟨j, rfl⟩ := Nat.exists_eq_add_of_le hstart
  have hj : j < part.length := by omega
  refine ⟨part[j], List.getElem_mem hj, part.drop (j + 1) ++ rest, ?_⟩
  rw [← List.drop_drop, h, List.drop_append_of_le_length (Nat.le_of_lt hj),
    List.drop_eq_getElem_cons hj, List.cons_append]

/-- Behind each character of a word one is inside of it or just at its end. -/
theorem inWord_of_word {text word rest : List Char} {start i : Nat}
    (h : text.drop start = word ++ rest) (hword : ∀ c ∈ word, isWordChar c = true)
    (hstart : start < i) (hi : i ≤ start + word.length) : (spotAt text i).inWord = true := by
  obtain ⟨j, rfl⟩ : ∃ j, i = j + 1 := ⟨i - 1, by omega⟩
  obtain ⟨c, hc, tail, hat⟩ := exists_mem_of_drop_eq_append h (Nat.le_of_lt_succ hstart) hi
  rw [(inWord_spotAt_succ hat).1, hword c hc]

namespace PlacedAlias.StandsIn

variable {text : List Char} {a b : PlacedAlias}

/-- An alias that stands in the text is read there, and reading goes on behind it. -/
theorem read (h : a.StandsIn text) :
    aliasAt? (text.drop a.start) = some ((a.name, a.original), text.drop a.stop) := by
  obtain ⟨front, rest, hfront, horiginal, hend, hdrop, htarget⟩ := h.written
  have hrest : text.drop a.stop = rest := by
    rw [stop, htarget]
    exact drop_of_drop_eq_append (drop_of_drop_eq_append hdrop)
  exact aliasAt?_eq_some_iff.2 ⟨front, hfront, horiginal, hrest ▸ hend, by rw [hrest, hdrop]⟩

theorem start_lt_target (h : a.StandsIn text) : a.start < a.target := by
  obtain ⟨_, _, ⟨-, _, _, _, -, -, -, rfl⟩, -, -, -, htarget⟩ := h.written
  have hkeyword : "alias".toList.length = 5 := by decide
  rw [List.length_append] at htarget
  omega

theorem target_lt_stop (h : a.StandsIn text) : a.target < a.stop := by
  obtain ⟨_, _, -, horiginal, -⟩ := h.written
  have hpos := List.length_pos_iff.2 horiginal.1
  rw [stop]
  omega

theorem stop_le (h : a.StandsIn text) : a.stop ≤ text.length := by
  obtain ⟨front, rest, -, horiginal, -, hdrop, htarget⟩ := h.written
  have hpos := List.length_pos_iff.2 horiginal.1
  have hlength := congrArg List.length hdrop
  simp only [List.length_drop, List.length_append] at hlength
  rw [stop]
  omega

/-- One alias at most starts at a position. -/
theorem unique (ha : a.StandsIn text) (hb : b.StandsIn text) (h : a.start = b.start) : a = b := by
  have hread := ha.read
  rw [h, hb.read, Option.some.injEq, Prod.mk.injEq, Prod.mk.injEq] at hread
  obtain ⟨⟨hname, horiginal⟩, hrest⟩ := hread
  have hlength := congrArg List.length hrest
  have ha' := ha.stop_le
  have hb' := hb.stop_le
  simp only [List.length_drop] at hlength
  have hstop : a.stop = b.stop := by omega
  rw [stop, stop, horiginal] at hstop
  exact PlacedAlias.ext h (Nat.add_right_cancel hstop) hname.symm horiginal.symm

/-- At its start the text goes on with a word character. -/
theorem head (h : a.StandsIn text) : ∃ tail, text.drop a.start = 'a' :: tail := by
  obtain ⟨_, _, ⟨-, _, _, _, -, -, -, rfl⟩, -, -, hdrop, -⟩ := h.written
  exact ⟨_, hdrop⟩

/-! ## Overlaps -/

/-- An alias starts behind a word if it starts behind the first character of it. -/
theorem lt_start_of_word (h : a.StandsIn text) {word rest : List Char} {i : Nat}
    (hdrop : text.drop i = word ++ rest) (hword : ∀ c ∈ word, isWordChar c = true)
    (hi : i < a.start) : i + word.length < a.start := by
  refine Nat.lt_of_not_le fun hle => ?_
  have hinWord := inWord_of_word hdrop hword hi hle
  rw [h.outside] at hinWord
  exact absurd hinWord (by decide)

/-- An alias does not start between words. -/
theorem le_start_of_gap (h : a.StandsIn text) {gap rest : List Char} {i : Nat}
    (hdrop : text.drop i = gap ++ rest) (hgap : ∀ c ∈ gap, isWordChar c = false)
    (hi : i ≤ a.start) : i + gap.length ≤ a.start := by
  refine Nat.le_of_not_lt fun hlt => ?_
  obtain ⟨c, hc, tail, hat⟩ := exists_mem_of_drop_eq_append hdrop hi (by omega)
  obtain ⟨tail', hhead⟩ := h.head
  rw [hhead, List.cons.injEq] at hat
  rw [← hat.1] at hc
  exact absurd (hgap _ hc) (by decide)

/-- A name is not the keyword of another alias: `=` follows it and no name. -/
theorem start_ne_of_name (h : a.StandsIn text) {name gap rest : List Char} {i : Nat}
    (hname : IsWord name) (hgap : AllBlank gap)
    (hdrop : text.drop i = name ++ (gap ++ ("=".toList ++ rest))) : a.start ≠ i := by
  rintro rfl
  obtain ⟨_, rest', ⟨hname', gap₁, gap₂, gap₃, hgap₁, -, -, rfl⟩, -, -, hdrop', -⟩ := h.written
  have hkeyword : text.drop a.start = "alias".toList ++ (gap₁ ++ (a.name ++ (gap₂ ++ ("=".toList
      ++ (gap₃ ++ (a.original ++ rest')))))) := by
    rw [hdrop']
    simp only [List.append_assoc]
  -- The first word of the text is both the name and the keyword.
  have hread := word?_append hname
    (atWordEnd_blanks_append hgap (show atWordEnd ("=".toList ++ rest) = true from rfl))
  have hread' := word?_append isWord_keyword
    (hgap₁.atWordEnd (a.name ++ (gap₂ ++ ("=".toList ++ (gap₃ ++ (a.original ++ rest'))))))
  rw [← hkeyword, hdrop, hread, Option.some.injEq, Prod.mk.injEq] at hread'
  have hskip := congrArg skipBlanks hread'.2
  rw [skipBlanks_append hgap (head?_append_of_shows (by decide) _),
    skipBlanks_append hgap₁.2 fun _ => hname'.isBlank_head? _] at hskip
  obtain ⟨c, tail, hcons⟩ := List.exists_cons_of_ne_nil hname'.1
  rw [hcons] at hskip
  obtain rfl : '=' = c := (List.cons.inj hskip).1
  exact absurd (hname'.2 '=' (hcons ▸ List.mem_cons_self)) (by decide)

/-- **Two aliases overlap in one way only**: the later one starts at the target of the earlier
one. -/
theorem start_eq_target (ha : a.StandsIn text) (hb : b.StandsIn text) (hstart : a.start < b.start)
    (hstop : b.start < a.stop) : b.start = a.target := by
  obtain ⟨_, rest, ⟨hname, gap₁, gap₂, gap₃, hgap₁, hgap₂, hgap₃, rfl⟩, horiginal, hend, hdrop,
    htarget⟩ := ha.written
  have hkeyword : text.drop a.start = "alias".toList ++ (gap₁ ++ (a.name ++ ((gap₂ ++ ("=".toList
      ++ gap₃)) ++ (a.original ++ rest)))) := by
    rw [hdrop]
    simp only [List.append_assoc]
  have hspace := drop_of_drop_eq_append hkeyword
  have hnamed := drop_of_drop_eq_append hspace
  have hbetween := drop_of_drop_eq_append hnamed
  have haliased := drop_of_drop_eq_append hbetween
  have hequals : text.drop (a.start + "alias".toList.length + gap₁.length) = a.name ++ (gap₂
      ++ ("=".toList ++ (gap₃ ++ (a.original ++ rest)))) := by
    rw [hnamed]
    simp only [List.append_assoc]
  have hequal : ∀ c ∈ "=".toList, isWordChar c = false :=
    List.forall_mem_singleton.2 (show isWordChar '=' = false by decide)
  have hgap : ∀ c ∈ gap₂ ++ ("=".toList ++ gap₃), isWordChar c = false := by
    simp only [List.forall_mem_append]
    exact ⟨fun c hc => isWordChar_eq_false_of_isBlank (hgap₂ c hc), hequal,
      fun c hc => isWordChar_eq_false_of_isBlank (hgap₃ c hc)⟩
  -- From part to part the start of the second alias is pushed on, as far as the target.
  have h₁ := hb.lt_start_of_word hkeyword isWord_keyword.2 hstart
  have h₂ := hb.le_start_of_gap hspace (fun c hc => isWordChar_eq_false_of_isBlank (hgap₁.2 c hc))
    (Nat.le_of_lt h₁)
  have h₃ := hb.lt_start_of_word hnamed hname.2
    (Nat.lt_of_le_of_ne h₂ (hb.start_ne_of_name hname hgap₂ hequals).symm)
  have h₄ := hb.le_start_of_gap hbetween hgap (Nat.le_of_lt h₃)
  simp only [List.length_append] at h₄ haliased htarget
  refine Nat.le_antisymm (Nat.le_of_not_lt fun hlt => ?_) (by omega)
  have h₅ := hb.lt_start_of_word haliased horiginal.2 (by omega)
  rw [stop] at hstop
  omega

end PlacedAlias.StandsIn

/-! ## The aliases that are taken -/

/-- From `origin` on these are the aliases that are taken, from the left: all that stand there,
except for those that start at the target of one that is taken. -/
structure Takes (text : List Char) (origin : Nat) (taken : List PlacedAlias) : Prop where
  ascending : taken.Pairwise fun a b => a.start < b.start
  mem_iff : ∀ a, a ∈ taken ↔
    a.StandsIn text ∧ origin ≤ a.start ∧ ∀ b ∈ taken, b.target ≠ a.start

/-- An alias that is not taken is hidden by one. -/
theorem Takes.exists_of_not_mem {text : List Char} {origin : Nat} {taken : List PlacedAlias}
    (h : Takes text origin taken) {a : PlacedAlias} (ha : a.StandsIn text) (hle : origin ≤ a.start)
    (hnot : a ∉ taken) : ∃ b ∈ taken, b.target = a.start := by
  refine Classical.byContradiction fun hfree => hnot ((h.mem_iff a).2 ⟨ha, hle, fun b hb hat => ?_⟩)
  exact hfree ⟨b, hb, hat⟩

/-- Whether an alias is taken hangs on the aliases in front of it only, so there is no choice. -/
theorem Takes.mem_of_mem {text : List Char} {origin : Nat} {taken taken' : List PlacedAlias}
    (h : Takes text origin taken) (h' : Takes text origin taken') {a : PlacedAlias}
    (ha : a ∈ taken) : a ∈ taken' := by
  induction hn : a.start using Nat.strongRecOn generalizing a taken taken' with
  | _ n ih =>
    subst hn
    obtain ⟨hstands, hle, hfree⟩ := (h.mem_iff a).1 ha
    refine (h'.mem_iff a).2 ⟨hstands, hle, fun b hb hat => ?_⟩
    have hlt := ((h'.mem_iff b).1 hb).1.start_lt_target
    exact hfree b (ih b.start (by omega) h' h hb rfl) hat

theorem Takes.unique {text : List Char} {origin : Nat} {taken taken' : List PlacedAlias}
    (h : Takes text origin taken) (h' : Takes text origin taken') : taken' = taken := by
  have hnodup : ∀ {taken}, Takes text origin taken → taken.Nodup := fun h =>
    h.ascending.imp fun hlt heq => absurd (heq ▸ hlt) (Nat.lt_irrefl _)
  refine List.Perm.eq_of_pairwise (fun a b _ _ hab hba => absurd hab (Nat.lt_asymm hba))
    h'.ascending h.ascending ((List.perm_ext_iff_of_nodup (hnodup h') (hnodup h)).2 fun a => ?_)
  exact ⟨h'.mem_of_mem h, h.mem_of_mem h'⟩

/-- Behind the text there is nothing to take. -/
theorem takes_nil {text : List Char} {origin : Nat} (h : text.drop origin = []) :
    Takes text origin [] := by
  refine ⟨.nil, fun a => ⟨fun ha => absurd ha (by simp), fun ⟨ha, hle, _⟩ => ?_⟩⟩
  have hlength := List.drop_eq_nil_iff.1 h
  have hlt := ha.start_lt_target
  have hlt' := ha.target_lt_stop
  have hstop := ha.stop_le
  omega

/-- Where no alias starts, the pass goes on at the next position. -/
theorem Takes.of_succ {text : List Char} {origin : Nat} {taken : List PlacedAlias}
    (h : Takes text (origin + 1) taken)
    (hnone : ∀ a : PlacedAlias, a.StandsIn text → a.start ≠ origin) : Takes text origin taken := by
  refine ⟨h.ascending, fun a => (h.mem_iff a).trans ?_⟩
  constructor
  · rintro ⟨ha, hle, hfree⟩
    exact ⟨ha, by omega, hfree⟩
  · rintro ⟨ha, hle, hfree⟩
    exact ⟨ha, Nat.lt_of_le_of_ne hle (hnone a ha).symm, hfree⟩

/-- An alias is taken where it starts, and the pass goes on behind it. The aliases between start at
its target. -/
theorem Takes.cons {text : List Char} {a : PlacedAlias} {taken : List PlacedAlias}
    (h : Takes text a.stop taken) (ha : a.StandsIn text) : Takes text a.start (a :: taken) := by
  have hlt := ha.start_lt_target
  have hlt' := ha.target_lt_stop
  have hbehind : ∀ b ∈ taken, a.stop ≤ b.start ∧ b.start < b.target := fun b hb =>
    have hb := (h.mem_iff b).1 hb
    ⟨hb.2.1, hb.1.start_lt_target⟩
  refine ⟨List.pairwise_cons.2 ⟨fun b hb => by have := hbehind b hb; omega, h.ascending⟩,
    fun c => ?_⟩
  constructor
  · intro hc
    rcases List.mem_cons.1 hc with rfl | hc
    · refine ⟨ha, Nat.le_refl _, List.forall_mem_cons.2 ⟨by omega, fun b hb => ?_⟩⟩
      have := hbehind b hb
      omega
    · obtain ⟨hstands, hle, hfree⟩ := (h.mem_iff c).1 hc
      exact ⟨hstands, by omega, List.forall_mem_cons.2 ⟨by omega, hfree⟩⟩
  · rintro ⟨hc, hle, hfree⟩
    obtain ⟨hfree, hrest⟩ := List.forall_mem_cons.1 hfree
    rcases Nat.eq_or_lt_of_le hle with heq | hstart
    · rw [ha.unique hc heq]
      exact List.mem_cons_self
    · refine List.mem_cons_of_mem _ ((h.mem_iff c).2 ⟨hc, Nat.le_of_not_lt fun hin => ?_, hrest⟩)
      exact hfree (ha.start_eq_target hc hstart hin).symm

/-- What is read at a position stands there. -/
theorem exists_standsIn_of_aliasAt? {text rest : List Char} {start : Nat}
    {pair : List Char × List Char} (hout : (spotAt text start).inWord = false)
    (h : aliasAt? (text.drop start) = some (pair, rest)) :
    ∃ a : PlacedAlias, a.StandsIn text ∧ a.start = start ∧ (a.name, a.original) = pair
      ∧ text.drop a.stop = rest := by
  obtain ⟨name, original⟩ := pair
  obtain ⟨front, hfront, horiginal, hend, hdrop⟩ := aliasAt?_eq_some_iff.1 h
  refine ⟨⟨start, start + front.length, name, original⟩,
    ⟨hout, front, rest, hfront, horiginal, hend, hdrop, rfl⟩, rfl, rfl, ?_⟩
  exact drop_of_drop_eq_append (drop_of_drop_eq_append hdrop)

/-- A word has just ended behind an alias. -/
theorem PlacedAlias.StandsIn.inWord_stop {text : List Char} {a : PlacedAlias}
    (h : a.StandsIn text) : (spotAt text a.stop).inWord = true := by
  obtain ⟨front, rest, -, horiginal, -, hdrop, htarget⟩ := h.written
  have hafter := drop_of_drop_eq_append hdrop
  rw [← htarget] at hafter
  exact inWord_of_word hafter horiginal.2 h.target_lt_stop (Nat.le_refl _)

/-- The aliases from a position on. -/
theorem exists_takes (text : List Char) (origin : Nat) :
    ∃ taken, Takes text origin taken
      ∧ aliasPairs (spotAt text origin).inWord (text.drop origin) =
        taken.map fun a => (a.name, a.original) := by
  generalize hword : (spotAt text origin).inWord = inWord
  generalize hcs : text.drop origin = cs
  fun_induction aliasPairs inWord cs generalizing origin with
  | case1 inWord cs pair rest hread ih =>
    subst hcs
    obtain ⟨hout, hread⟩ : inWord = false ∧ aliasAt? (text.drop origin) = some (pair, rest) := by
      cases inWord
      · exact ⟨rfl, by simpa using hread⟩
      · simp at hread
    obtain ⟨a, ha, rfl, rfl, hrest⟩ := exists_standsIn_of_aliasAt? (hword.trans hout) hread
    obtain ⟨taken, htaken, hmap⟩ := ih a.stop ha.inWord_stop hrest
    exact ⟨a :: taken, htaken.cons ha, by rw [hmap, List.map_cons]⟩
  | case2 inWord hnone => exact ⟨[], takes_nil hcs, rfl⟩
  | case3 inWord c rest hnone ih =>
    obtain ⟨hnext, hrest⟩ := inWord_spotAt_succ hcs
    obtain ⟨taken, htaken, hmap⟩ := ih (origin + 1) hnext hrest
    refine ⟨taken, htaken.of_succ fun a ha hstart => ?_, hmap⟩
    have hread := ha.read
    have hout := ha.outside
    rw [hstart] at hread hout
    rw [← hcs, ← hword, hout, if_neg (by simp), hread] at hnone
    exact absurd hnone (by simp)

/-! ## The other names of an operation -/

/-- The alias gives the operation `name` another name: its target is that name, in any case, and its
own name is another one. -/
def PlacedAlias.Renames (name : String) (a : PlacedAlias) : Prop :=
  lowerCase (String.ofList a.original) = lowerCase name ∧ String.ofList a.name ≠ name

instance (name : String) : DecidablePred (PlacedAlias.Renames name) := fun _ =>
  inferInstanceAs (Decidable (_ ∧ _))

theorem aliases_eq {name : String} {text : List Char} {taken : List PlacedAlias}
    (h : Takes text 0 taken) :
    aliases name text =
      ((taken.filter fun a => a.Renames name).map fun a => String.ofList a.name).eraseDups := by
  obtain ⟨taken', htaken', hpairs⟩ := exists_takes text 0
  obtain rfl := h.unique htaken'
  replace hpairs : aliasPairs false text = taken'.map fun a => (a.name, a.original) := hpairs
  have hkept : ∀ a : PlacedAlias, decide (a.Renames name) =
      (decide (lowerCase (String.ofList a.original) = lowerCase name)
        && decide (String.ofList a.name ≠ name)) := fun _ => Bool.decide_and _ _
  rw [aliases, hpairs, distinct_eq_eraseDups, List.filter_map, List.map_map]
  simp only [hkept, Function.comp_def]

/-- **What is found of aliases.**

* One list of aliases is taken: all that stand in the text but those that start at the target of one
  that is taken.
* The other names are the names of those whose target is the name of the file, in any case, without
  that name itself. They stand in the order of the text, and of equal ones the first. -/
theorem aliases_placed (file : SourceFile) :
    ∃ taken, Takes file.text.toList 0 taken
      ∧ (∀ taken', Takes file.text.toList 0 taken' → taken' = taken)
      ∧ (∀ a : PlacedAlias, a.StandsIn file.text.toList → a ∉ taken →
        ∃ b ∈ taken, b.target = a.start)
      ∧ Extractor.aliases.facts file =
          (((taken.filter fun a => a.Renames file.name).map fun a =>
            String.ofList a.name).eraseDups).map (fun name => .synonym (.text name))
      ∧ (Extractor.aliases.facts file).Nodup
      ∧ ∀ name, Fact.synonym (.text name) ∈ Extractor.aliases.facts file ↔
          ∃ a : PlacedAlias, a.StandsIn file.text.toList ∧ (∀ b ∈ taken, b.target ≠ a.start)
            ∧ a.Renames file.name ∧ String.ofList a.name = name := by
  obtain ⟨taken, htaken, -⟩ := exists_takes file.text.toList 0
  have hnames : aliases file.name file.text.toList = _ := aliases_eq htaken
  refine ⟨taken, htaken, fun _ => htaken.unique,
    fun a ha => htaken.exists_of_not_mem ha (Nat.zero_le _), ?_, ?_, fun name => ?_⟩
  · rw [← hnames]
    rfl
  · exact List.Pairwise.map _ (fun _ _ hne heq => hne (by simpa using heq)) (nodup_aliases _ _)
  · rw [Extractor.facts, hnames]
    simp only [List.mem_map, List.mem_eraseDups, List.mem_filter, decide_eq_true_eq]
    constructor
    · rintro ⟨_, ⟨a, ⟨ha, hrenames⟩, rfl⟩, hfact⟩
      obtain ⟨hstands, -, hfree⟩ := (htaken.mem_iff a).1 ha
      exact ⟨a, hstands, hfree, hrenames, by simpa using hfact⟩
    · rintro ⟨a, hstands, hfree, hrenames, rfl⟩
      exact ⟨_, ⟨a, ⟨(htaken.mem_iff a).2 ⟨hstands, Nat.zero_le _, hfree⟩, hrenames⟩, rfl⟩, rfl⟩

-- An alias that starts at the target of another one gives no name.
example : Extractor.aliases.facts ⟨⟨.here, ["c.d"]⟩, "alias a = alias b = c; alias d = C;"⟩
    = [.synonym (.text "d")] := by
  decide +kernel

end Source
end RefPages
