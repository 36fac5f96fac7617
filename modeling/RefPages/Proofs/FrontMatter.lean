import RefPages.Page
import RefPages.Proofs.Yaml.TextMapping

/-!
# The front matter of a page

A page starts with a block between two lines of three dashes. The block is written as YAML, cut into
lines and joined again with the page, and whoever reads the page cuts it at line feeds, looks for
the second line of dashes and loads what is in between.

* `dashLine_writeScalar_append`: no line of a written text starts with a dash, so none of them can
  be mistaken for the closing delimiter.
* `lines_frontMatterText`: the lines of the block.
* `Document.Told`: what the front matter says about an operation.
* `page_frontMatter`: **the round trip**, for every document.
-/

set_option autoImplicit false
namespace RefPages

open Text

/-! ## Lines that start with a dash -/

namespace Yaml

theorem hasPair_cons (first second : Char → Bool) (c : Char) (cs : List Char) :
    hasPair first second (c :: cs)
      = ((first c && cs.head?.any second) || hasPair first second cs) := by
  cases cs <;> simp [hasPair]

/-- Does a line after the first start with a dash? -/
def dashLine (cs : List Char) : Bool :=
  hasPair isLineBoundary (· = '-') cs

theorem dashLine_append (xs : List Char) (h : ∀ x ∈ xs, isLineBoundary x = false)
    (tail : List Char) : dashLine (xs ++ tail) = dashLine tail := by
  induction xs with
  | nil => rfl
  | cons x xs ih =>
    have h := List.forall_mem_cons.1 h
    rw [dashLine, List.cons_append, hasPair_cons, h.1]
    exact ih h.2

theorem dashLine_reline (cs : List Char) : dashLine (reline cs) = dashLine cs := by
  have hbound : ∀ x, isLineBoundary (relineChar x) = isLineBoundary x := by
    intro x
    rw [relineChar]
    split
    · rename_i h
      rw [h]
      rfl
    · rfl
  have hdash : ∀ x, decide (relineChar x = '-') = decide (x = '-') := by
    intro x
    rw [relineChar]
    split
    · rename_i h
      have hx : x ≠ '-' := by
        rintro rfl
        exact absurd h (by decide)
      simp [hx]
    · rfl
  induction cs with
  | nil => rfl
  | cons x cs ih =>
    rw [dashLine, dashLine] at ih
    rw [dashLine, dashLine, reline_cons, hasPair_cons, hasPair_cons, ih, hbound]
    cases cs with
    | nil => rfl
    | cons y cs => simp [hdash]

/-- A line break between apostrophes is followed by another one or by the indentation. -/
theorem head?_singleBody_true {v : List Char} (tail : List Char) :
    (singleBody true v ++ '\'' :: tail).head?.any (· = '-') = false := by
  cases v with
  | nil => rfl
  | cons c rest =>
    rw [singleBody]
    split
    · rename_i hc
      have hdash : c ≠ '-' := by
        rintro rfl
        exact absurd hc (by decide)
      simp [hdash]
    · rfl

theorem dashLine_singleBody {afterBreak : Bool} {v : List Char}
    (hv : ∀ x ∈ v, isSpecial x = false) (tail : List Char) :
    dashLine (singleBody afterBreak v ++ '\'' :: tail) = dashLine tail := by
  induction v generalizing afterBreak with
  | nil =>
    cases afterBreak with
    | false => exact dashLine_append ['\''] (eq_false_of_any (by decide)) tail
    | true => exact dashLine_append [' ', ' ', '\''] (eq_false_of_any (by decide)) tail
  | cons c rest ih =>
    have h := List.forall_mem_cons.1 hv
    have hhead := head?_singleBody_true (v := rest) tail
    rw [singleBody]
    split
    · have hnext : ∀ x, dashLine (x :: (singleBody true rest ++ '\'' :: tail)) = dashLine tail := by
        intro x
        rw [dashLine, hasPair_cons, hhead, Bool.and_false, Bool.false_or]
        exact ih h.2
      split
      · have hfeed := hnext '\n'
        rw [dashLine] at hfeed
        rw [dashLine, List.append_assoc, List.cons_append, hasPair_cons]
        exact hfeed
      · rw [List.append_assoc]
        exact hnext c
    · rename_i hbreak
      have hc : isLineBoundary c = false := by
        rw [isLineBoundary_of_not_special h.1]
        simpa using hbreak
      have hblanks : ∀ x ∈ (if afterBreak then [' ', ' '] else []), isLineBoundary x = false := by
        cases afterBreak with
        | false => simp
        | true => exact eq_false_of_any (by decide)
      have hchar : ∀ x ∈ (if c = '\'' then ['\'', '\''] else [c]), isLineBoundary x = false := by
        split
        · exact eq_false_of_any (by decide)
        · simpa using hc
      rw [List.append_assoc, List.append_assoc, dashLine_append _ hblanks, dashLine_append _ hchar,
        ih h.2]

/-- **No line of a written text starts with a dash**, the first one apart. -/
theorem dashLine_writeScalar_append (v tail : List Char) :
    dashLine (writeScalar v ++ tail) = dashLine tail := by
  cases hstyle : Style.ofText v with
  | plain =>
    have hplain := plainText_of_fitsPlain (fitsPlain_of_style hstyle)
    rw [writeScalar_plain hstyle]
    refine dashLine_append _ (fun x hx => ?_) tail
    rw [isLineBoundary_of_not_special (hplain.chars x hx).1, (hplain.chars x hx).2]
  | single =>
    have hfits := fitsSingle_of_style hstyle
    simp only [fitsSingle, Bool.and_eq_true, Bool.not_eq_true', List.any_eq_false] at hfits
    have hquote : ∀ x ∈ ['\''], isLineBoundary x = false := eq_false_of_any (by decide)
    rw [writeScalar_single hstyle, List.append_assoc, List.cons_append, ← List.singleton_append,
      dashLine_append _ hquote]
    exact dashLine_singleBody (fun x hx => by simpa using hfits.1.1 x hx) tail
  | double =>
    rw [writeScalar_double hstyle]
    refine dashLine_append _ (fun x hx => ?_) tail
    simp only [List.cons_append, List.mem_cons, List.mem_append, List.not_mem_nil, or_false,
      List.mem_flatMap] at hx
    rcases hx with rfl | ⟨ch, -, hx⟩ | rfl
    · rfl
    · rcases mem_doubleChar hx with hx | rfl | rfl
      · exact (standsInDouble_bounds hx).2.2.2.2
      · rfl
      · rfl
    · rfl

/-! ## The block -/

/-- An entry before the page is cut into lines. -/
def writtenEntry (word v : List Char) : List Char :=
  word ++ ':' :: ' ' :: writeScalar v

theorem isLineBoundary_of_isKeyLetter {x : Char} (hx : isKeyLetter x = true) :
    isLineBoundary x = false := by
  rw [← Bool.not_eq_true]
  intro hb
  simp only [isLineBoundary, List.mem_cons, List.not_mem_nil, or_false, decide_eq_true_eq] at hb
  rcases hb with rfl | rfl | rfl | rfl | rfl | rfl | rfl | rfl | rfl | rfl <;>
    exact absurd hx (by decide)

theorem reline_writtenEntry {word : List Char} (hword : IsKey word) (v : List Char) :
    reline (writtenEntry word v) = entryText word v := by
  have hkeep : reline word = word := by
    refine reline_eq_self fun x hx hb => ?_
    rw [isLineBoundary_of_isKeyLetter (hword.letters x hx)] at hb
    exact absurd hb (by decide)
  rw [writtenEntry, reline_append, hkeep]
  rfl

theorem dashLine_writtenEntry_append {word : List Char} (hword : IsKey word) (v tail : List Char) :
    dashLine (writtenEntry word v ++ tail) = dashLine tail := by
  have hcolon : ∀ x ∈ [':', ' '], isLineBoundary x = false := eq_false_of_any (by decide)
  rw [writtenEntry, List.append_assoc,
    dashLine_append _ fun x hx => isLineBoundary_of_isKeyLetter (hword.letters x hx)]
  exact (dashLine_append _ hcolon _).trans (dashLine_writeScalar_append v tail)

/-- An entry starts with its key, not with a dash. -/
theorem dashLine_feed_writtenEntry {word : List Char} (hword : IsKey word) (v tail : List Char) :
    dashLine ('\n' :: (writtenEntry word v ++ tail)) = dashLine tail := by
  have hrest := dashLine_writtenEntry_append hword v tail
  obtain ⟨x, rest, rfl⟩ := List.exists_cons_of_ne_nil hword.ne_nil
  have hx : x ≠ '-' := ne_of_isKeyLetter (hword.letters x (by simp)) (by decide)
  rw [dashLine] at hrest
  rw [dashLine, hasPair_cons, hrest]
  simp [writtenEntry, hx]

theorem not_mem_writtenEntry {word : List Char} (hword : IsKey word) (v : List Char) :
    '\r' ∉ writtenEntry word v := by
  rw [writtenEntry, List.mem_append, List.mem_cons, List.mem_cons]
  rintro (h | h | h | h)
  · exact absurd (hword.letters _ h) (by decide)
  · exact absurd h (by decide)
  · exact absurd h (by decide)
  · exact absurd (isSpecial_of_mem_writeScalar h) (by decide)

/-- A text in which no line starts with a dash has no line of dashes. -/
theorem not_mem_splitOn_of_dashLine {cs : List Char} (h : dashLine ('\n' :: cs) = false)
    (line : List Char) : '-' :: line ∉ splitOn '\n' cs := by
  intro hmem
  obtain ⟨front, tail, hcs⟩ := isInfix_of_mem_splitOn hmem
  have htrue : dashLine ('\n' :: cs) = true :=
    hasPair_eq_true_iff.2 ⟨front, '\n', '-', line ++ tail, by rw [← hcs]; simp, rfl, rfl⟩
  rw [h] at htrue
  exact absurd htrue (by decide)

/-- The line breaks that cutting into lines turns into line feeds. -/
theorem onlyFeeds_iff {cs : List Char} :
    OnlyFeeds cs ↔ ∀ x ∈ cs, x ∉ ['\x85', '\u2028', '\u2029'] := by
  constructor
  · intro h x hx hmem
    simp only [List.mem_cons, List.not_mem_nil, or_false] at hmem
    rcases hmem with rfl | rfl | rfl <;> exact absurd (h _ hx rfl) (by decide)
  · intro h x hx hb
    have hnot := h x hx
    simp only [isWrittenBreak, Bool.or_eq_true, decide_eq_true_eq] at hb
    simp only [List.mem_cons, List.not_mem_nil, or_false] at hnot
    rcases hb with ((hb | hb) | hb) | hb
    · exact hb
    · exact absurd (Or.inl hb) hnot
    · exact absurd (Or.inr (Or.inl hb)) hnot
    · exact absurd (Or.inr (Or.inr hb)) hnot

end Yaml

/-! ## The page -/

namespace Document

open Yaml

theorem isKey_title : IsKey "title".toList :=
  ⟨by decide, List.all_eq_true.1 (by decide), by decide⟩

theorem isKey_description : IsKey "description".toList :=
  ⟨by decide, List.all_eq_true.1 (by decide), by decide⟩

/-- The block of the front matter without its last line feed. -/
def writtenBlock (doc : Document) : List Char :=
  writtenEntry "title".toList doc.displayName.toList
    ++ '\n' :: writtenEntry "description".toList doc.summary.toList

theorem toList_frontMatterText (doc : Document) :
    doc.frontMatterText.toList = doc.writtenBlock ++ ['\n'] := by
  simp [frontMatterText, writeMapping, writtenBlock, writtenEntry]

theorem reline_writtenBlock (doc : Document) :
    reline doc.writtenBlock = entryText "title".toList doc.displayName.toList
      ++ '\n' :: entryText "description".toList doc.summary.toList := by
  rw [writtenBlock, reline_append, reline_cons, reline_writtenEntry isKey_title,
    reline_writtenEntry isKey_description]
  rfl

theorem lines_frontMatterText (doc : Document) :
    Text.lines doc.frontMatterText
      = (splitOn '\n' (reline doc.writtenBlock)).map String.ofList := by
  have hreturn : '\r' ∉ doc.writtenBlock := by
    rw [writtenBlock, List.mem_append, List.mem_cons]
    rintro (h | h | h)
    · exact not_mem_writtenEntry isKey_title _ h
    · exact absurd h (by decide)
    · exact not_mem_writtenEntry isKey_description _ h
  rw [Text.lines, toList_frontMatterText, splitLines_snoc hreturn]

/-- No line of the block is a delimiter. -/
theorem not_mem_block (doc : Document) :
    "---".toList ∉ splitOn '\n' (reline doc.writtenBlock) := by
  have hdash : dashLine ('\n' :: reline doc.writtenBlock) = false := by
    have hreline : '\n' :: reline doc.writtenBlock = reline ('\n' :: doc.writtenBlock) := rfl
    have hlast := dashLine_feed_writtenEntry isKey_description doc.summary.toList []
    rw [List.append_nil] at hlast
    rw [hreline, dashLine_reline, writtenBlock, dashLine_feed_writtenEntry isKey_title, hlast]
    rfl
  exact not_mem_splitOn_of_dashLine hdash ['-', '-']

/-- The texts of the page below the front matter. -/
def bodyLines (doc : Document) : List String :=
  [""] ++ doc.introduction ++ doc.exampleLines ++ doc.typeLines ++ doc.aliasLines
    ++ doc.modifierLines

/-- The lines of the page: the block between its delimiters, and the texts below it. -/
theorem splitOn_page (doc : Document) :
    splitOn '\n' doc.page.toList = "---".toList :: splitOn '\n' (reline doc.writtenBlock)
      ++ "---".toList :: splitOn '\n' (joinLines doc.bodyLines).toList := by
  have hlines := lines_frontMatterText doc
  have hfront : ∀ line ∈ "---" :: Text.lines doc.frontMatterText ++ ["---"],
      '\n' ∉ line.toList := by
    intro line hline
    rw [hlines] at hline
    simp only [List.cons_append, List.mem_cons, List.mem_append, List.mem_map, List.not_mem_nil,
      or_false] at hline
    rcases hline with rfl | ⟨cs, hcs, rfl⟩ | rfl
    · decide
    · rw [String.toList_ofList]
      exact not_mem_of_mem_splitOn hcs
    · decide
  have hpage : doc.page
      = joinLines (("---" :: Text.lines doc.frontMatterText ++ ["---"]) ++ doc.bodyLines) := by
    simp [page, pageLines, frontMatter, bodyLines]
  rw [hpage, splitOn_joinLines_append hfront (by simp [bodyLines]), hlines]
  simp

theorem joinLines_block (doc : Document) :
    joinLines ((splitOn '\n' (reline doc.writtenBlock)).map String.ofList)
      = String.ofList (reline doc.writtenBlock) := by
  rw [← String.toList_inj, toList_joinLines, List.map_map, String.toList_ofList]
  have hid : String.toList ∘ String.ofList = id := funext fun cs => String.toList_ofList
  rw [hid, List.map_id, intercalate_splitOn]

/-- The block holds nothing but the two written texts, the two keys and two line feeds. -/
theorem onlyFeeds_frontMatterText (doc : Document) :
    OnlyFeeds doc.frontMatterText.toList ↔
      OnlyFeeds (writeScalar doc.displayName.toList)
        ∧ OnlyFeeds (writeScalar doc.summary.toList) := by
  have hentry : ∀ {word : List Char} (v : List Char), IsKey word →
      (OnlyFeeds (writtenEntry word v) ↔ OnlyFeeds (writeScalar v)) := by
    intro word v hword
    constructor
    · intro h x hx
      exact h x (by simp [writtenEntry, hx])
    · intro h x hx hb
      rw [writtenEntry, List.mem_append, List.mem_cons, List.mem_cons] at hx
      rcases hx with hx | rfl | rfl | hx
      · have hbreak := isBreak_of_isKeyLetter (hword.letters x hx)
        rw [isBreak, hb, Bool.or_true] at hbreak
        exact absurd hbreak (by decide)
      · exact absurd hb (by decide)
      · exact absurd hb (by decide)
      · exact h x hx hb
  rw [← hentry _ isKey_title, ← hentry _ isKey_description, toList_frontMatterText, writtenBlock]
  constructor
  · intro h
    refine ⟨fun x hx => h x ?_, fun x hx => h x ?_⟩
    · exact List.mem_append_left _ (List.mem_append_left _ hx)
    · exact List.mem_append_left _ (List.mem_append_right _ (List.mem_cons_of_mem _ hx))
  · rintro ⟨h, h'⟩ x hx hb
    simp only [List.mem_append, List.mem_cons, List.not_mem_nil, or_false] at hx
    rcases hx with (hx | rfl | hx) | rfl
    · exact h x hx hb
    · rfl
    · exact h' x hx hb
    · rfl

/-- What is told about an operation: its description, or else its narrative, or else a sentence with
its name. An empty text tells nothing. -/
inductive Told (doc : Document) : String → Prop where
  | description {text : String} (hdescription : doc.description? = some text)
    (hne : text ≠ "") : Told doc text
  | narrative {text : String} (hdescription : doc.description?.getD "" = "")
    (hnarrative : doc.narrative? = some text) (hne : text ≠ "") : Told doc text
  | name (hdescription : doc.description?.getD "" = "") (hnarrative : doc.narrative?.getD "" = "") :
    Told doc ("The " ++ doc.displayName ++ " assertion")

theorem told_iff {doc : Document} {text : String} : doc.Told text ↔ text = doc.summary := by
  constructor
  · rintro (⟨htext, hne⟩ | ⟨hnone, htext, hne⟩ | ⟨hnone, hnone'⟩)
    · rw [summary, nonEmpty?_eq_some_iff.2 ⟨htext, hne⟩]
      rfl
    · rw [summary, nonEmpty?_eq_none_iff.2 hnone, nonEmpty?_eq_some_iff.2 ⟨htext, hne⟩]
      rfl
    · rw [summary, nonEmpty?_eq_none_iff.2 hnone, nonEmpty?_eq_none_iff.2 hnone']
      rfl
  · rintro rfl
    rw [summary]
    cases hdescription : nonEmpty? doc.description? with
    | some text =>
      obtain ⟨htext, hne⟩ := nonEmpty?_eq_some_iff.1 hdescription
      exact .description htext hne
    | none =>
      have hdescription := nonEmpty?_eq_none_iff.1 hdescription
      cases hnarrative : nonEmpty? doc.narrative? with
      | some text =>
        obtain ⟨htext, hne⟩ := nonEmpty?_eq_some_iff.1 hnarrative
        exact .narrative hdescription htext hne
      | none => exact .name hdescription (nonEmpty?_eq_none_iff.1 hnarrative)

/-- **Front matter round trip.** The page cut at line feeds starts with the delimiter, the lines of
the block follow, none of which is the delimiter, and then the closing one. The block joined again
always loads, as a mapping of the title and the description. The title is the name shown and the
description what is told about the operation exactly if the written block holds no line break that
cutting it into lines loses: no `U+0085`, `U+2028` or `U+2029`. -/
theorem page_frontMatter (doc : Document) :
    ∃ block after data title description,
      splitOn '\n' doc.page.toList = "---".toList :: block ++ "---".toList :: after
      ∧ "---".toList ∉ block
      ∧ block.map String.ofList = Text.lines doc.frontMatterText
      ∧ Data.load (joinLines (block.map String.ofList)) = .ok (some data)
      ∧ data.textEntries? = some [("title", title), ("description", description)]
      ∧ ((title = doc.displayName ∧ doc.Told description) ↔
        ∀ x ∈ doc.frontMatterText.toList, x ∉ ['\x85', '\u2028', '\u2029']) := by
  have hlines := lines_frontMatterText doc
  obtain ⟨data, text, text', hload, hentries, htext, htext'⟩ := exists_load_entries isKey_title
    isKey_description (by decide) (by decide) (by decide) doc.displayName.toList doc.summary.toList
  refine ⟨splitOn '\n' (reline doc.writtenBlock), splitOn '\n' (joinLines doc.bodyLines).toList,
    data, String.ofList text, String.ofList text', splitOn_page doc, not_mem_block doc, hlines.symm,
    ?_, ?_, ?_⟩
  · rw [joinLines_block, reline_writtenBlock]
    exact hload
  · exact hentries
  · have hofList : ∀ (cs : List Char) (s : String), String.ofList cs = s ↔ cs = s.toList := by
      intro cs s
      rw [← String.toList_inj, String.toList_ofList]
    rw [told_iff, hofList, hofList, htext, htext', ← onlyFeeds_frontMatterText, onlyFeeds_iff]

end Document
end RefPages
