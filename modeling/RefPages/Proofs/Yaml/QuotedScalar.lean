import RefPages.Yaml.ScalarReader

/-!
# Reading quoted scalars, round by round

A quoted scalar is read in rounds: a run of blanks, a run of line breaks, an escape, a doubled
apostrophe, or one other character.

* `Cursor.StopsAt` says that a text does not go on with a character of a class, which is what ends
  a run.
* `QuotedReads` says what is read from a place inside quotes, whatever fuel is left over, and
  `QuotedReads.round` is one round of it.
* The lemmas `quotedReads_close`, `quotedReads_apostrophe`, `quotedReads_char`,
  `quotedReads_blanks` and `quotedReads_breaks` are the rounds by the kind of piece.
-/

set_option autoImplicit false
namespace RefPages
namespace Yaml

/-! ## Cursors -/

namespace Cursor

theorem skip_skip (c : Cursor) (m n : Nat) : (c.skip m).skip n = c.skip (m + n) := by
  induction m generalizing c with
  | zero => rw [Nat.zero_add]; rfl
  | succ m ih => rw [Nat.add_right_comm, skip, skip, ih]

theorem advance_skip (c : Cursor) (n : Nat) : (c.skip n).advance = c.skip (n + 1) :=
  skip_skip c n 1

theorem skip_advance (c : Cursor) (n : Nat) : c.advance.skip n = c.skip (n + 1) := rfl

/-- The text goes on with no character of the class. -/
def StopsAt (p : Char → Bool) (cs : List Char) : Prop :=
  ∀ ch ∈ cs.head?, p ch = false

theorem StopsAt.mono {p q : Char → Bool} {cs : List Char} (h : StopsAt q cs)
    (hpq : ∀ x, p x = true → q x = true) : StopsAt p cs := by
  intro ch hch
  rw [← Bool.not_eq_true]
  intro hp
  have hq := h ch hch
  rw [hpq ch hp] at hq
  exact absurd hq (by decide)

theorem StopsAt.sees_eq_false {p : Char → Bool} {c : Cursor} (h : StopsAt p c.rest) :
    c.sees p = false := by
  rw [sees]
  cases hr : c.rest with
  | nil => rfl
  | cons x rest => exact h x (by rw [hr]; rfl)

theorem takeWhile_eq {c : Cursor} {p : Char → Bool} (run : List Char) {tail : List Char}
    (hc : c.rest = run ++ tail) (hrun : ∀ ch ∈ run, p ch = true) (htail : StopsAt p tail) :
    c.takeWhile p = (run, c.skip run.length) := by
  have h : c.rest.takeWhile p = run := by
    rw [hc, List.takeWhile_append_of_pos hrun]
    cases tail with
    | nil => simp
    | cons ch tail =>
      have hch : p ch = false := htail ch rfl
      rw [List.takeWhile_cons_of_neg (by simp [hch]), List.append_nil]
  rw [takeWhile, h]

theorem dropWhile_eq {c : Cursor} {p : Char → Bool} (run : List Char) {tail : List Char}
    (hc : c.rest = run ++ tail) (hrun : ∀ ch ∈ run, p ch = true) (htail : StopsAt p tail) :
    c.dropWhile p = c.skip run.length := by
  rw [dropWhile, takeWhile_eq run hc hrun htail]

theorem exists_run (p : Char → Bool) (cs : List Char) :
    ∃ run rest, cs = run ++ rest ∧ (∀ ch ∈ run, p ch = true) ∧ StopsAt p rest := by
  refine ⟨cs.takeWhile p, cs.dropWhile p, List.takeWhile_append_dropWhile.symm,
    fun ch hch => ?_, fun ch hch => ?_⟩
  · exact List.all_eq_true.1 List.all_takeWhile ch hch
  · have := List.head?_dropWhile_not p cs
    rw [Option.mem_def.1 hch] at this
    simpa using this

theorem lineBreak?_newline {c : Cursor} {tail : List Char} (hc : c.rest = '\n' :: tail) :
    c.lineBreak? = some ('\n', c.advance) := by
  rw [lineBreak?, hc]
  rfl

theorem lineBreak?_eq_none {c : Cursor} (h : StopsAt isBreak c.rest) : c.lineBreak? = none := by
  rw [lineBreak?]
  split
  · rename_i hr
    have := h '\r' (by rw [hr]; rfl)
    simp [isBreak] at this
  · rename_i ch tail _ hr
    have hb : isBreak ch = false := h ch (by rw [hr]; rfl)
    have hne : ch ≠ '\u2028' ∧ ch ≠ '\u2029' := by
      constructor <;> rintro rfl <;> simp [isBreak, isWrittenBreak] at hb
    simp [hb, hne.1, hne.2]
  · rfl

end Cursor

open Cursor

/-! ## Rounds of the reader -/

/-- From the place `c`, inside the quotes, `text` is read and the place after the closing quote is
`c'`, as long as the fuel covers the characters that are left. -/
def QuotedReads (quote : Char) (c : Cursor) (text : List Char) (c' : Cursor) : Prop :=
  ∀ fuel, c.rest.length ≤ fuel → quotedRest quote fuel c = .ok (text.map .char, c')

/-- One round: from `c` the reader takes `piece`, passes `n` characters and goes on. -/
theorem QuotedReads.round {quote : Char} {c c' : Cursor} (piece : List Char) {text : List Char}
    {n : Nat} (hn : 0 < n) (hlen : n ≤ c.rest.length)
    (hround : ∀ fuel, c.rest.length ≤ fuel + 1 →
      quotedRest quote fuel (c.skip n) = .ok (text.map .char, c') →
      quotedRest quote (fuel + 1) c = .ok ((piece ++ text).map .char, c'))
    (h : QuotedReads quote (c.skip n) text c') : QuotedReads quote c (piece ++ text) c' := by
  intro fuel hfuel
  obtain ⟨fuel, rfl⟩ : ∃ k, fuel = k + 1 := ⟨fuel - 1, by omega⟩
  exact hround fuel hfuel (h fuel (by rw [rest_skip, List.length_drop]; omega))

/-- The closing quote ends the scalar. -/
theorem quotedReads_close {quote : Char} {c : Cursor} {tail : List Char}
    (hc : c.rest = quote :: tail) (htail : tail.head? ≠ some '\'') :
    QuotedReads quote c [] c.advance := by
  intro fuel hfuel
  rw [hc, List.length_cons] at hfuel
  obtain ⟨fuel, rfl⟩ : ∃ k, fuel = k + 1 := ⟨fuel - 1, by omega⟩
  rw [quotedRest, hc]
  simp [htail]

/-- Two apostrophes stand for one. -/
theorem quotedReads_apostrophe {c c' : Cursor} {tail text : List Char}
    (hc : c.rest = '\'' :: '\'' :: tail) (h : QuotedReads '\'' (c.skip 2) text c') :
    QuotedReads '\'' c ('\'' :: text) c' := by
  refine QuotedReads.round ['\''] (by omega) (by rw [hc]; simp) ?_ h
  intro fuel _ hmore
  rw [quotedRest, hc]
  simp [hmore, bind, Except.bind]

/-- A character without a meaning of its own stands for itself. -/
theorem quotedReads_char {quote ch : Char} {c c' : Cursor} {tail text : List Char}
    (hc : c.rest = ch :: tail) (hquote : ch ≠ quote) (hslash : ¬(quote = '"' ∧ ch = '\\'))
    (hblank : isBlankOrTab ch = false) (hbreak : isBreak ch = false)
    (h : QuotedReads quote (c.skip 1) text c') : QuotedReads quote c (ch :: text) c' := by
  refine QuotedReads.round [ch] (by omega) (by rw [hc]; simp) ?_ h
  intro fuel _ hmore
  have hmore : quotedRest quote fuel c.advance = .ok (text.map .char, c') := hmore
  rw [quotedRest, hc]
  simp only [hquote, hslash, if_false]
  simp [hblank, hbreak, hmore, bind, Except.bind]

/-- A run of blanks that no line break follows stands for itself. -/
theorem quotedReads_blanks {quote : Char} {c c' : Cursor} {run tail text : List Char}
    (hc : c.rest = run ++ tail) (hne : run ≠ []) (hrun : ∀ ch ∈ run, ch = ' ')
    (hquote : quote = '\'' ∨ quote = '"') (hblank : StopsAt isBlankOrTab tail)
    (hbreak : StopsAt isBreak tail) (h : QuotedReads quote (c.skip run.length) text c') :
    QuotedReads quote c (run ++ text) c' := by
  refine QuotedReads.round run (List.length_pos_iff.2 hne) (by rw [hc]; simp) ?_ h
  intro fuel _ hmore
  have hrun' : ∀ ch ∈ run, isBlankOrTab ch = true := by
    intro ch hch
    rw [hrun ch hch]
    rfl
  have hskip : (c.skip run.length).rest = tail := by simp [hc]
  have hnone : (c.skip run.length).lineBreak? = none :=
    lineBreak?_eq_none (by rw [hskip]; exact hbreak)
  obtain ⟨ch, run', rfl⟩ := List.exists_cons_of_ne_nil hne
  obtain rfl : ch = ' ' := hrun ch (by simp)
  have hsp : ' ' ≠ quote := by rcases hquote with rfl | rfl <;> decide
  rw [quotedRest, hc]
  simp only [List.cons_append, hsp, if_false]
  rw [if_neg (by simp), if_pos (by decide), takeWhile_eq _ hc hrun' hblank]
  simp only [hnone, hmore, bind, Except.bind]
  rw [← List.map_append]
  rfl

/-- Line feeds, and then the two blanks that indent the next line. -/
theorem quotedBreaks_eq {m : Nat} {c : Cursor} {tail : List Char}
    (hc : c.rest = List.replicate m '\n' ++ ' ' :: ' ' :: tail)
    (hblank : StopsAt isBlankOrTab tail) (hbreak : StopsAt isBreak tail) :
    ∀ fuel, m < fuel → quotedBreaks fuel c = .ok (List.replicate m '\n', c.skip (m + 2)) := by
  induction m generalizing c with
  | zero =>
    intro fuel hfuel
    obtain ⟨fuel, rfl⟩ : ∃ k, fuel = k + 1 := ⟨fuel - 1, by omega⟩
    have hmark : c.atDocumentMark = false := by
      rw [atDocumentMark, hc]
      rfl
    have hdrop : c.dropWhile isBlankOrTab = c.skip 2 :=
      dropWhile_eq [' ', ' '] hc (List.all_eq_true.1 (by decide)) hblank
    have hnone : (c.skip 2).lineBreak? = none :=
      lineBreak?_eq_none (by rw [rest_skip, hc]; exact hbreak)
    rw [quotedBreaks, hmark]
    simp only [Bool.false_eq_true, if_false, hdrop, hnone]
    rfl
  | succ m ih =>
    intro fuel hfuel
    obtain ⟨fuel, rfl⟩ : ∃ k, fuel = k + 1 := ⟨fuel - 1, by omega⟩
    rw [List.replicate_succ, List.cons_append] at hc
    have hmark : c.atDocumentMark = false := by
      rw [atDocumentMark, hc]
      rfl
    have hdrop : c.dropWhile isBlankOrTab = c := by
      rw [dropWhile_eq [] hc (by simp) (by rintro ch ⟨⟩; rfl)]
      rfl
    have hrest : c.advance.rest = List.replicate m '\n' ++ ' ' :: ' ' :: tail := by
      rw [rest_advance, hc]
      rfl
    rw [quotedBreaks, hmark]
    simp only [Bool.false_eq_true, if_false, hdrop, lineBreak?_newline hc]
    rw [ih hrest fuel (by omega), skip_advance, Nat.add_right_comm]
    rfl

/-- A run of line feeds and the indentation of the next line stand for the folded run. -/
theorem quotedReads_breaks {quote : Char} {m : Nat} {c c' : Cursor} (tail : List Char)
    {text : List Char} (hc : c.rest = '\n' :: (List.replicate m '\n' ++ ' ' :: ' ' :: tail))
    (hquote : quote = '\'' ∨ quote = '"') (hblank : StopsAt isBlankOrTab tail)
    (hbreak : StopsAt isBreak tail) (h : QuotedReads quote (c.skip (m + 3)) text c') :
    QuotedReads quote c (foldBreaks '\n' (List.replicate m '\n') ++ text) c' := by
  refine QuotedReads.round _ (by omega) (by rw [hc]; simp) ?_ h
  intro fuel hfuel hmore
  have hfuel : m < fuel := by
    rw [hc] at hfuel
    simp only [List.length_cons, List.length_append, List.length_replicate] at hfuel
    omega
  have hnl : '\n' ≠ quote := by rcases hquote with rfl | rfl <;> decide
  have htake : c.takeWhile isBlankOrTab = ([], c) :=
    takeWhile_eq [] hc (by simp) (by rintro ch ⟨⟩; rfl)
  have hrest : c.advance.rest = List.replicate m '\n' ++ ' ' :: ' ' :: tail := by
    rw [rest_advance, hc]
    rfl
  rw [quotedRest, hc]
  simp only [hnl, if_false]
  rw [if_neg (by simp), if_pos (by decide), htake]
  simp only [lineBreak?_newline hc]
  rw [quotedBreaks_eq hrest hblank hbreak fuel hfuel, skip_advance]
  simp only [bind, Except.bind, hmore]
  rw [← List.map_append]

end Yaml
end RefPages
