import RefPages.Proofs.FrontMatter

/-!
# What the front matter loses when it is cut into lines

The block of the front matter is cut into lines before it goes into the page, and the page joins its
lines with line feeds. Yet a line ends at other characters too, and the joined lines hold a line
feed in the place of each of them.

* `lostBreaks` are the characters that are written as they are and end a line all the same.
* `onlyFeeds_writeScalar_iff` says which texts are written without them: **every text in which they
  do not stand, and every text that is written between double quotes.**
* `frontMatter_lines`: **the lines are the block exactly if none of them is written**, and this is
  told from the title and the description alone.
-/

set_option autoImplicit false
namespace RefPages

open Text

namespace Yaml

/-! ## The characters that are lost -/

/-- The characters other than the line feed that are written as they are and end a line: the next
line, the line separator and the paragraph separator. -/
def lostBreaks : List Char :=
  ['\x85', '\u2028', '\u2029']

/-- A text of characters that need no escape is left as it is when it is cut into lines exactly if
it has no other line break than line feeds. -/
theorem reline_eq_self_iff_onlyFeeds {cs : List Char} (h : ∀ x ∈ cs, isSpecial x = false) :
    reline cs = cs ↔ OnlyFeeds cs := by
  rw [reline_eq_self_iff]
  refine forall₂_congr fun x hx => ?_
  rw [isLineBoundary_of_not_special (h x hx)]

/-- What is written of a key and its value needs no escape. -/
theorem isSpecial_of_mem_writtenEntry {word v : List Char} (hword : IsKey word) {x : Char}
    (h : x ∈ writtenEntry word v) : isSpecial x = false := by
  rw [writtenEntry, List.mem_append, List.mem_cons, List.mem_cons] at h
  rcases h with h | rfl | rfl | h
  · have hletter := hword.letters x h
    simp only [isKeyLetter, Bool.and_eq_true, decide_eq_true_eq] at hletter
    have hle : ' ' ≤ x ∧ x ≤ '~' :=
      ⟨Char.le_trans (by decide) hletter.1, Char.le_trans hletter.2 (by decide)⟩
    simp [isSpecial, hle.1, hle.2]
  · rfl
  · rfl
  · exact isSpecial_of_mem_writeScalar h

/-! ## Which texts lose something -/

/-- A text is written without the lost line breaks exactly if it has none of them, or if it cannot
be written between apostrophes, so that they are escaped. -/
theorem onlyFeeds_writeScalar_iff (v : List Char) :
    OnlyFeeds (writeScalar v) ↔ ((∃ x ∈ v, x ∈ lostBreaks) → fitsSingle v = false) := by
  have hlost : OnlyFeeds v ↔ ¬ ∃ x ∈ v, x ∈ lostBreaks := by
    rw [onlyFeeds_iff]
    simp [lostBreaks]
  cases hstyle : Style.ofText v with
  | plain =>
    -- No line break stands in a plain text.
    have hplain := plainText_of_fitsPlain (fitsPlain_of_style hstyle)
    have hfeeds : OnlyFeeds v := fun x hx hb => by
      rw [(hplain.chars x hx).2] at hb
      exact absurd hb (by decide)
    rw [writeScalar_plain hstyle]
    exact iff_of_true hfeeds fun hfound => absurd hfound (hlost.1 hfeeds)
  | single =>
    rw [onlyFeeds_writeScalar_single hstyle, hlost, fitsSingle_of_style hstyle]
    simp
  | double =>
    have hsingle : fitsSingle v = false := by
      rw [← Bool.not_eq_true]
      intro hfits
      rw [Style.ofText, if_pos hfits] at hstyle
      split at hstyle <;> exact absurd hstyle (by simp)
    exact iff_of_true ((scalarRead_double hstyle).text_eq_iff.1 rfl) fun _ => hsingle

end Yaml

/-! ## The lines of the front matter -/

namespace Document

open Yaml

theorem isSpecial_of_mem_frontMatterText {doc : Document} {x : Char}
    (h : x ∈ doc.frontMatterText.toList) : isSpecial x = false := by
  rw [toList_frontMatterText, writtenBlock, List.mem_append, List.mem_append, List.mem_cons,
    List.mem_singleton] at h
  rcases h with (h | rfl | h) | rfl
  · exact isSpecial_of_mem_writtenEntry isKey_title h
  · rfl
  · exact isSpecial_of_mem_writtenEntry isKey_description h
  · rfl

/-- The lines of the block, joined and ended by line feeds. -/
theorem toList_joinLines_frontMatterText (doc : Document) :
    (joinLines (Text.lines doc.frontMatterText) ++ "\n").toList
      = reline doc.frontMatterText.toList := by
  rw [lines_frontMatterText, joinLines_block, String.toList_append, String.toList_ofList,
    toList_frontMatterText, reline_append]
  rfl

/-- **What the front matter loses.** Between its delimiters, neither of which is one of them, stand
the lines of the block. Joined, and ended by a line feed, they are the block with a line feed for
every line break; so they are the block itself exactly if no `U+0085`, `U+2028` or `U+2029` is
written in it. That is the case exactly if the title and the description each hold none of these, or
cannot be written between apostrophes. -/
theorem frontMatter_lines (doc : Document) :
    ∃ block, doc.frontMatter = ["---"] ++ block ++ ["---", ""] ∧ "---" ∉ block
      ∧ joinLines block ++ "\n" = String.ofList (reline doc.frontMatterText.toList)
      ∧ (joinLines block ++ "\n" = doc.frontMatterText ↔
          ∀ x ∈ doc.frontMatterText.toList, x ∉ lostBreaks)
      ∧ (joinLines block ++ "\n" = doc.frontMatterText ↔
          ∀ s ∈ [doc.displayName, doc.summary],
            (∃ x ∈ s.toList, x ∈ lostBreaks) → fitsSingle s.toList = false) := by
  have hkept : joinLines (Text.lines doc.frontMatterText) ++ "\n" = doc.frontMatterText ↔
      OnlyFeeds doc.frontMatterText.toList := by
    rw [← String.toList_inj, toList_joinLines_frontMatterText]
    exact reline_eq_self_iff_onlyFeeds fun _ => isSpecial_of_mem_frontMatterText
  refine ⟨Text.lines doc.frontMatterText, rfl, fun hmem => ?_, ?_, ?_, ?_⟩
  · rw [lines_frontMatterText, List.mem_map] at hmem
    obtain ⟨line, hline, hdashes⟩ := hmem
    refine not_mem_block doc ?_
    rwa [← hdashes, String.toList_ofList]
  · rw [← toList_joinLines_frontMatterText, String.ofList_toList]
  · rw [hkept, onlyFeeds_iff]
    rfl
  · rw [hkept, onlyFeeds_frontMatterText, onlyFeeds_writeScalar_iff, onlyFeeds_writeScalar_iff,
      List.forall_mem_cons, List.forall_mem_singleton]

/-- A line separator in the description becomes a line feed. -/
example :
    let doc : Document := { name := "equal", description? := some "a\u2028b" }
    doc.frontMatterText = "title: equal\ndescription: 'a\u2028  b'\n"
      ∧ doc.frontMatter = ["---", "title: equal", "description: 'a", "  b'", "---", ""] := by
  decide +kernel

end Document
end RefPages
