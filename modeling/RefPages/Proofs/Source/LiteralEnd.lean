import Mathlib.Data.List.TakeWhile
import RefPages.Proofs.Source.TestBlock
import RefPages.Proofs.Source.Token

/-!
# Where a literal ends

Four readers of source text meet literals between double quotes: the one of blocks, the one of
statements, the one of descriptions and the one of labels. The first two let a backslash take the
next character with it. The other two end a literal at the next quote, whatever stands in front of
it.

* `closeBlock?_quoted_append` and `statementRest?_quoted_append`: a block and a statement are read
  past the quote that ends the literal; a statement is not read at all if a line feed is escaped in
  it.
* `descriptionAt?_describing`: a description is the literal up to its first quote.
* `not_mem_of_mem_testBlocks`: no label holds a quote.
* `literal_ends`: **the four agree exactly if no quote is escaped in the literal**, as long as no
  line feed is.
-/

set_option autoImplicit false
namespace RefPages
namespace Source

open Text

/-- A literal between double quotes. -/
def quoted (content : List Char) : List Char :=
  (Lexeme.literal '"' content).text

theorem quoted_append (content rest : List Char) :
    quoted content ++ rest = '"' :: (content ++ '"' :: rest) := by
  simp [quoted, Lexeme.text]

/-! ## Blocks and statements -/

/-- A block is read past the quote that ends the literal. -/
theorem closeBlock?_quoted_append {content : List Char}
    (h : Content '"' (fun _ => true) content) (depth : Nat) (rest : List Char) :
    closeBlock? .code depth (quoted content ++ rest)
      = appendBody (quoted content) (closeBlock? .code depth rest) :=
  closeBlock?_text_append (l := .literal '"' content) ⟨by decide, h⟩ (by simp) (by simp) depth

/-- A statement is read past the quote that ends the literal. -/
theorem statementRest?_quoted_append {content : List Char} (h : Content '"' (· != '\n') content)
    (progress : Progress) (rest : List Char) :
    statementRest? progress .code (quoted content ++ rest)
      = appendBody (quoted content) (statementRest? (progress.next false) .code rest) :=
  statementRest?_text_append (l := .literal '"' content) ⟨rfl, h⟩ progress rest

/-- A literal in which a line feed is escaped is no part of a statement. -/
theorem statementRest?_quoted_eq_none {content : List Char}
    (hcontent : Content '"' (fun _ => true) content) (h : ¬ Content '"' (· != '\n') content)
    (progress : Progress) (rest : List Char) :
    statementRest? progress .code (quoted content ++ rest) = none := by
  have hnone : literalRest? '"' (· != '\n') (content ++ '"' :: rest) = none := by
    rw [Option.eq_none_iff_forall_ne_some]
    rintro ⟨other, after⟩ hread
    obtain ⟨htext, hother⟩ := (literalRest?_eq_some_iff (by decide)).1 hread
    -- The literal would end at the same quote for both.
    have hsame : literalRest? '"' (fun _ => true) (content ++ '"' :: rest) = some (other, after) :=
      (literalRest?_eq_some_iff (by decide)).2 ⟨htext, hother.mono fun _ _ => rfl⟩
    rw [literalRest?_append (by decide) hcontent, Option.some.injEq, Prod.mk.injEq] at hsame
    exact h (hsame.1 ▸ hother)
  rw [quoted_append, statementRest?_code_cons, if_neg (by decide), if_pos rfl,
    statementRest?_literal, hnone]
  rfl

/-! ## Descriptions -/

theorem takeWhile_append_quote (content rest : List Char) :
    (content ++ '"' :: rest).takeWhile (· != '"') = content.takeWhile (· != '"') := by
  induction content with
  | nil => simp
  | cons c content ih => rw [List.cons_append, List.takeWhile_cons, List.takeWhile_cons, ih]

/-- The first quote of a literal is the one that ends it exactly if no other one stands in it. -/
theorem takeWhile_quote_eq_self_iff {content : List Char} :
    content.takeWhile (· != '"') = content ↔ '"' ∉ content := by
  rw [List.takeWhile_eq_self_iff]
  constructor
  · intro h hmem
    exact absurd (h _ hmem) (by decide)
  · intro h c hc
    exact bne_iff_ne.2 fun hquote => h (hquote ▸ hc)

/-- A literal that is not empty does not begin with a quote. -/
theorem takeWhile_quote_ne_nil {follows : Char → Bool} {content : List Char}
    (h : Content '"' follows content) (hne : content ≠ []) :
    content.takeWhile (· != '"') ≠ [] := by
  cases h with
  | nil => exact absurd rfl hne
  | escape _ _ _ => simp
  | plain hquote _ _ => simp [hquote]

/-- What is given to a name is the literal up to its first quote. -/
theorem descriptionValue?_append {name gap gap' : List Char} (hname : namesDescription name = true)
    (hgap : AllBlank gap) (hgap' : AllBlank gap') (content rest : List Char) :
    descriptionValue? name (gap ++ '=' :: (gap' ++ (quoted content ++ rest)))
      = some (content.takeWhile (· != '"')) := by
  have hequals : skip? "=" (skipBlanks (gap ++ '=' :: (gap' ++ (quoted content ++ rest))))
      = some (gap' ++ (quoted content ++ rest)) := by
    rw [skipBlanks_append hgap (by rintro c ⟨⟩; decide)]
    exact skip?_eq_some_iff.2 rfl
  have hquote : skip? "\"" (skipBlanks (gap' ++ (quoted content ++ rest)))
      = some (content ++ '"' :: rest) := by
    rw [quoted_append, skipBlanks_append hgap' (by rintro c ⟨⟩; decide)]
    exact skip?_eq_some_iff.2 rfl
  have hclosed : (content ++ '"' :: rest).dropWhile (· != '"') ≠ [] := by
    rw [Ne, List.dropWhile_eq_nil_iff]
    intro h
    exact absurd (h '"' (by simp)) (by decide)
  rw [descriptionValue?, hname]
  simp only [Bool.not_true, Bool.false_eq_true, if_false, hequals, hquote, Option.bind_eq_bind,
    Option.bind_some, takeWhile_append_quote]

/-- With one word after the keywords, that word is the name. -/
theorem descriptionAt?_of_word {gap gap' name after : List Char} (hgap : gap ≠ [] ∧ AllBlank gap)
    (hgap' : gap' ≠ [] ∧ AllBlank gap') (hname : word? (name ++ after) = some (name, after))
    (hafter : word? (skipBlanks after) = none) :
    descriptionAt? ("static".toList ++ (gap ++ ("immutable".toList ++ (gap' ++ (name ++ after)))))
      = descriptionValue? name after := by
  obtain ⟨-, hne, hword, -⟩ := word?_eq_some_iff.1 hname
  have hfirst : ∀ c, (name ++ after).head? = some c → isBlank c = false := by
    obtain ⟨d, rest, rfl⟩ := List.exists_cons_of_ne_nil hne
    rintro c ⟨⟩
    exact isBlank_eq_false_of_isWordChar (hword d List.mem_cons_self)
  have hblanks : someBlanks? (gap ++ ("immutable".toList ++ (gap' ++ (name ++ after))))
      = some ("immutable".toList ++ (gap' ++ (name ++ after))) :=
    someBlanks?_eq_some_iff.2 ⟨gap, hgap.1, hgap.2, rfl, by rintro c ⟨⟩; decide⟩
  have hblanks' : someBlanks? (gap' ++ (name ++ after)) = some (name ++ after) :=
    someBlanks?_eq_some_iff.2 ⟨gap', hgap'.1, hgap'.2, rfl, hfirst⟩
  rw [descriptionAt?, skip?_eq_some_iff.2 rfl]
  simp only [Option.bind_eq_bind, Option.bind_some, hblanks]
  rw [skip?_eq_some_iff.2 rfl]
  simp only [Option.bind_some, hblanks', hname, hafter]

/-- A text that begins with a description. -/
def describing (word content rest : List Char) : List Char :=
  "static immutable ".toList ++ (word ++ ("Description = ".toList ++ (quoted content ++ rest)))

theorem isWordChar_description : ∀ c ∈ "Description".toList, isWordChar c = true :=
  List.all_eq_true.1 (by decide)

theorem allBlank_space : AllBlank [' '] :=
  List.all_eq_true.1 (by decide)

theorem describing_eq (word content rest : List Char) :
    describing word content rest = "static".toList ++ ([' '] ++ ("immutable".toList ++ ([' ']
      ++ ((word ++ "Description".toList)
        ++ ([' '] ++ '=' :: ([' '] ++ (quoted content ++ rest))))))) :=
  calc describing word content rest
      = ("static".toList ++ ([' '] ++ ("immutable".toList ++ [' '])))
        ++ (word ++ (("Description".toList ++ [' ', '=', ' ']) ++ (quoted content ++ rest))) := rfl
    _ = _ := by simp only [List.append_assoc, List.cons_append, List.nil_append]

theorem descriptionAt?_describing {word : List Char} (hword : ∀ c ∈ word, isWordChar c = true)
    (content rest : List Char) :
    descriptionAt? (describing word content rest) = some (content.takeWhile (· != '"')) := by
  have hnames : namesDescription (word ++ "Description".toList) = true := by
    rw [namesDescription, List.isSuffixOf_iff_suffix.2 (List.suffix_append ..), Bool.true_or]
  have hname : word? ((word ++ "Description".toList)
        ++ ([' '] ++ '=' :: ([' '] ++ (quoted content ++ rest))))
      = some (word ++ "Description".toList,
        [' '] ++ '=' :: ([' '] ++ (quoted content ++ rest))) := by
    refine word?_eq_some_iff.2 ⟨rfl, by simp, fun c hc => ?_,
      atWordEnd_blanks_append allBlank_space (show (!isWordChar '=') = true by decide)⟩
    exact (List.mem_append.1 hc).elim (hword c) (isWordChar_description c)
  have hafter : word? (skipBlanks ([' '] ++ '=' :: ([' '] ++ (quoted content ++ rest))))
      = none := by
    rw [skipBlanks_append allBlank_space (by rintro c ⟨⟩; decide), word?,
      List.takeWhile_cons_of_neg (by decide)]
  rw [describing_eq, descriptionAt?_of_word ⟨by simp, allBlank_space⟩ ⟨by simp, allBlank_space⟩
    hname hafter, descriptionValue?_append hnames allBlank_space allBlank_space]

/-- The first description is the one that the text begins with. -/
theorem description?_describing {word content : List Char}
    (hword : ∀ c ∈ word, isWordChar c = true) (hcontent : Content '"' (fun _ => true) content)
    (hne : content ≠ []) (rest : List Char) :
    description? (describing word content rest) = some (content.takeWhile (· != '"')) := by
  rw [description?, findFirst_eq_of_eq_some (descriptionAt?_describing hword content rest),
    Option.filter_some, if_pos]
  simpa using takeWhile_quote_ne_nil hcontent hne

/-! ## Labels -/

/-- A text that begins with a block of tests. -/
def testing (content body rest : List Char) : List Char :=
  "@(".toList ++ (quoted content ++ (") unittest \x7b".toList ++ (body ++ '\x7d' :: rest)))

/-- A label without quotes is read to its end, and the block after it is the first one. -/
theorem testBlocks_testing {content body : List Char} (hne : content ≠ []) (hquote : '"' ∉ content)
    (hbody : IsBody body) (rest : List Char) :
    testBlocks (testing content body rest) = (content, body) :: testBlocks rest := by
  have hheader : IsHeader content ("@(\"".toList ++ (content ++ ("\")".toList
      ++ ([' '] ++ ([].flatten ++ ("unittest".toList ++ ([' '] ++ ['\x7b']))))))) :=
    ⟨hne, hquote, [' '], _, allBlank_space, ⟨[], [' '], rfl, by simp, allBlank_space⟩, rfl⟩
  have hread : header? (testing content body rest) = some (content, body ++ '\x7d' :: rest) :=
    header?_eq_some_iff.2 ⟨_, hheader, by simp [testing, quoted_append]⟩
  have hclosed : closeBlock? .code 0 (body ++ '\x7d' :: rest) = some (body, rest) :=
    closeBlock?_eq_some_iff.2 ⟨rfl, hbody⟩
  rw [testBlocks]
  split
  · rename_i hnone
    rw [findFirst_eq_of_eq_some hread] at hnone
    exact absurd hnone (by simp)
  · rename_i label inner hfound
    rw [findFirst_eq_of_eq_some hread] at hfound
    cases hfound
    split
    · rename_i hopen
      rw [hclosed] at hopen
      exact absurd hopen (by simp)
    · rename_i found after hfound
      rw [hclosed] at hfound
      cases hfound
      rfl

/-- No label holds a quote. -/
theorem not_mem_of_mem_testBlocks {cs label body : List Char} (h : (label, body) ∈ testBlocks cs) :
    '"' ∉ label := by
  fun_induction testBlocks cs with
  | case1 => exact absurd h (by simp)
  | case2 => exact absurd h (by simp)
  | case3 cs first inner hfound found rest hclosed ih =>
    rcases List.mem_cons.1 h with hfirst | hrest
    · cases hfirst
      obtain ⟨tail, -, hread⟩ := exists_of_findFirst hfound
      obtain ⟨header, hheader, -⟩ := header?_eq_some_iff.1 hread
      exact hheader.2.1
    · exact ih hrest

/-! ## The four together -/

/-- **Where a literal ends.** Let a literal that is not empty hold no quote and no backslash but
those of escapes.

* A block is read past it, and so is a statement, unless a line feed is escaped in it: then no
  statement holds it.
* Of a description only what is in front of its first quote is kept: all of it exactly if no quote
  is escaped in it.
* As a label it is the one of the first block of the text if no quote is escaped in it; else it is
  the label of no block, of that text or of any other. -/
theorem literal_ends (path : Path) {word content body : List Char}
    (hword : ∀ c ∈ word, isWordChar c = true) (hcontent : Content '"' (fun _ => true) content)
    (hne : content ≠ []) (hbody : IsBody body) (rest : List Char) :
    (∀ depth, closeBlock? .code depth (quoted content ++ rest)
        = appendBody (quoted content) (closeBlock? .code depth rest))
      ∧ (Content '"' (· != '\n') content → ∀ progress,
        statementRest? progress .code (quoted content ++ rest)
          = appendBody (quoted content) (statementRest? (progress.next false) .code rest))
      ∧ (¬ Content '"' (· != '\n') content → ∀ progress,
        statementRest? progress .code (quoted content ++ rest) = none)
      ∧ Extractor.description.facts ⟨path, String.ofList (describing word content rest)⟩
        = [.description (.text (String.ofList (content.takeWhile (· != '"'))))]
      ∧ (Extractor.description.facts ⟨path, String.ofList (describing word content rest)⟩
          = [.description (.text (String.ofList content))] ↔ '"' ∉ content)
      ∧ ('"' ∉ content → (labelledTests (String.ofList (testing content body rest))).head?
        = some (String.ofList content, String.ofList body))
      ∧ ('"' ∈ content → ∀ text body, (String.ofList content, body) ∉ labelledTests text) := by
  have hfacts : Extractor.description.facts ⟨path, String.ofList (describing word content rest)⟩
      = [.description (.text (String.ofList (content.takeWhile (· != '"'))))] := by
    rw [Extractor.facts, String.toList_ofList, description?_describing hword hcontent hne]
    rfl
  refine ⟨fun depth => closeBlock?_quoted_append hcontent depth rest,
    fun h progress => statementRest?_quoted_append h progress rest,
    fun h progress => statementRest?_quoted_eq_none hcontent h progress rest, hfacts, ?_, ?_, ?_⟩
  · rw [hfacts, ← takeWhile_quote_eq_self_iff]
    simp only [List.cons.injEq, and_true, Fact.description.injEq, FactValue.text.injEq,
      String.ofList_inj]
  · intro hquote
    rw [labelledTests, String.toList_ofList, testBlocks_testing hne hquote hbody]
    rfl
  · intro hquote text body hmem
    obtain ⟨⟨label, inner⟩, hblock, heq⟩ := List.mem_map.1 hmem
    obtain ⟨hlabel, -⟩ := Prod.mk.injEq .. ▸ heq
    rw [← String.ofList_inj.1 hlabel] at hquote
    exact not_mem_of_mem_testBlocks hblock hquote

/-- An escaped quote cuts a description short, and the block that it labels is not there. -/
theorem literal_ends_escapedQuote :
    Content '"' (fun _ => true) "a\\\"b".toList
      ∧ Extractor.description.facts
          ⟨⟨.here, ["equal.d"]⟩, "static immutable equalDescription = \"a\\\"b\";"⟩
        = [.description (.text "a\\")]
      ∧ ("a\\\"b", " ") ∉ labelledTests "@(\"a\\\"b\") unittest \x7b \x7d" := by
  have hcontent : Content '"' (fun _ => true) "a\\\"b".toList :=
    .plain (by decide) (by decide) (.escape (by decide) rfl (.plain (by decide) (by decide) .nil))
  have hclosed : closeBlock? .code 0 " \x7d".toList = some (" ".toList, []) := by decide
  have hbody : IsBody " ".toList := (closeBlock?_eq_some_iff.1 hclosed).2
  obtain ⟨-, -, -, hfacts, -, -, hlabel⟩ := @literal_ends ⟨.here, ["equal.d"]⟩
    "equal".toList _ _ (List.all_eq_true.1 (by decide)) hcontent (by decide) hbody [';']
  exact ⟨hcontent, hfacts, hlabel (by decide) _ _⟩

end Source
end RefPages
