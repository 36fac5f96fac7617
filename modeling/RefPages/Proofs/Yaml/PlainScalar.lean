import RefPages.Proofs.Yaml.SingleQuoted

/-!
# Reading plain scalars as they are written

A plain scalar is cut into runs of characters with blanks between them. A text that `fitsPlain`
holds no mark that would end a run early, so the runs and the blanks put together are the text.

* `PlainText` collects what `fitsPlain` promises to the reader, and `plainText_of_fitsPlain` that
  it does.
* `PlainEnds` says that a plain scalar ends at a place, and where the reader goes on: behind the
  line break if there is one.
* `plainRest_eq` and `readPlain_eq`: the text is read, all of it and nothing more.
-/

set_option autoImplicit false
namespace RefPages
namespace Yaml

open Text Cursor

/-! ## Columns -/

/-- On one line the column does not go back. -/
theorem column_le_skip {c : Cursor} {run tail : List Char} (hc : c.rest = run ++ tail)
    (hrun : ∀ x ∈ run, isBreak x = false) : c.column ≤ (c.skip run.length).column := by
  induction run generalizing c with
  | nil => exact Nat.le_refl _
  | cons x run ih =>
    have h := List.forall_mem_cons.1 hrun
    have hbreak : x ≠ '\r' ∧ isWrittenBreak x = false := by
      simpa [isBreak] using h.1
    have hstep : c.column ≤ c.advance.column := by
      rw [advance, hc]
      simp only [List.cons_append, hbreak.2, hbreak.1, decide_false, Bool.false_and, Bool.or_self,
        Bool.false_eq_true, if_false]
      split <;> omega
    exact Nat.le_trans hstep (ih (by rw [rest_advance, hc]; rfl) h.2)

/-! ## Runs -/

/-- What a plain text promises to the reader. -/
structure PlainText (cs : List Char) : Prop where
  /-- It is not empty. -/
  ne_nil : cs ≠ []
  /-- It holds no line breaks and nothing that needs an escape. -/
  chars : ∀ x ∈ cs, isSpecial x = false ∧ isWrittenBreak x = false
  /-- It holds no colon before a separator, and no number sign after one or in front. -/
  marks : holdsMark true cs = false
  /-- It starts with no blank. -/
  first : StopsAt isSpace cs
  /-- It ends with no blank. -/
  last : ∀ x ∈ cs.getLast?, isSpace x = false

theorem plainText_of_fitsPlain {cs : List Char} (h : fitsPlain cs = true) : PlainText cs := by
  cases cs with
  | nil => simp [fitsPlain] at h
  | cons x tail =>
    simp only [fitsPlain, Bool.and_eq_true, Bool.not_eq_true', List.any_eq_false] at h
    obtain ⟨⟨⟨⟨⟨⟨hstart, hmark⟩, hbreak⟩, hspecial⟩, hfirst⟩, hlast⟩, -⟩ := h
    refine ⟨by simp, fun y hy => ⟨by simpa using hspecial y hy, by simpa using hbreak y hy⟩, ?_, ?_,
      fun y hy => ?_⟩
    · simp only [startsWithMark, Bool.or_eq_false_iff, Bool.and_eq_false_iff,
        decide_eq_false_iff_not] at hstart
      obtain ⟨⟨⟨hnot, hcolon⟩, -⟩, -⟩ := hstart
      have hhash : x ≠ '#' := by
        rintro rfl
        exact hnot (by decide)
      simp only [holdsMark, Bool.or_eq_false_iff, Bool.and_eq_false_iff, decide_eq_false_iff_not]
      refine ⟨⟨?_, Or.inl hhash⟩, hmark⟩
      rcases hcolon with hx | hsep
      · exact Or.inl fun hx' => hx (by simp [hx'])
      · exact Or.inr hsep
    · rintro y ⟨⟩
      exact hfirst
    · rw [Option.mem_def.1 hy] at hlast
      exact hlast

theorem isSeparator_of_plain {x : Char} (h : isSpecial x = false ∧ isWrittenBreak x = false) :
    isSeparator x = isSpace x := by
  have hnul : x ≠ '\x00' := by
    rintro rfl
    exact absurd h.1 (by decide)
  rw [isSeparator, isBreak_of_not_special h.1, h.2, isBlankOrTab_of_not_special h.1]
  simp [hnul]

theorem holdsMark_append {after : Bool} {xs ys : List Char} {x : Char}
    (h : holdsMark after (xs ++ x :: ys) = false) : holdsMark (isSeparator x) ys = false := by
  induction xs generalizing after with
  | nil =>
    simp only [List.nil_append, holdsMark, Bool.or_eq_false_iff] at h
    exact h.2
  | cons y xs ih =>
    simp only [List.cons_append, holdsMark, Bool.or_eq_false_iff] at h
    exact ih h.2

/-- A run is read up to the separator that follows it. -/
theorem plainRun_append {after : Bool} {run tail : List Char} (more : List Char)
    (hrun : ∀ x ∈ run, isSeparator x = false) (hmark : holdsMark after (run ++ more) = false)
    (htail : atSeparator (more ++ tail) = true) :
    plainRun false (run ++ (more ++ tail)) = run := by
  induction run generalizing after with
  | nil =>
    rw [List.nil_append]
    cases hm : more ++ tail with
    | nil => rfl
    | cons y rest =>
      rw [hm] at htail
      have hy : isSeparator y = true := htail
      simp [plainRun, hy]
  | cons x run ih =>
    have h := List.forall_mem_cons.1 hrun
    simp only [List.cons_append, holdsMark, Bool.or_eq_false_iff, Bool.and_eq_false_iff] at hmark
    obtain ⟨⟨hcolon, -⟩, hmark⟩ := hmark
    have hcolon : (decide (x = ':') && atSeparator (run ++ (more ++ tail))) = false := by
      rw [Bool.and_eq_false_iff]
      rcases hcolon with hx | hsep
      · exact Or.inl hx
      · right
        cases run with
        | nil =>
          cases more with
          | nil => simp [atSeparator] at hsep
          | cons y more => exact hsep
        | cons y run => exact hsep
    rw [List.cons_append, plainRun, h.1, ih h.2 hmark]
    simp [hcolon]

/-! ## The end of a plain scalar -/

/-- A plain scalar in a collection at a column before `indent` ends at `c`; the reader goes on at
`after`, and `lineEnded` says whether a line ended on the way. -/
def PlainEnds (indent : Int) (c after : Cursor) (lineEnded : Bool) : Prop :=
  ∃ gap, plainGap c = (gap, after, lineEnded) ∧
    (gap.isEmpty || after.sees (· = '#') || decide (after.column < indent)) = true

/-- Where neither a blank nor a line break follows, there is no gap to go on behind. -/
theorem plainEnds_of_stopsAt (indent : Int) {c : Cursor} (hspace : StopsAt isSpace c.rest)
    (hbreak : StopsAt isBreak c.rest) : PlainEnds indent c c false := by
  refine ⟨[], ?_, rfl⟩
  have htake : c.takeWhile isSpace = ([], c) := takeWhile_eq [] rfl (by simp) hspace
  rw [plainGap, htake]
  simp only [lineBreak?_eq_none hbreak]

/-- At the end of a line the next one decides: it is not indented. -/
theorem plainEnds_newline {indent : Int} {c : Cursor} {next : List Char}
    (hc : c.rest = '\n' :: next) (hindent : 0 < indent) (hspace : StopsAt isSpace next)
    (hbreak : StopsAt isBreak next) (hmark : c.advance.atDocumentMark = false) :
    PlainEnds indent c c.advance true := by
  have hcol : c.advance.column = 0 := by
    rw [advance, hc]
    rfl
  have hrest : c.advance.rest = next := by
    rw [rest_advance, hc]
    rfl
  have htake : c.takeWhile isSpace = ([], c) :=
    takeWhile_eq [] hc (by simp) (by rintro ch ⟨⟩; rfl)
  have hnone : c.advance.lineBreak? = none := lineBreak?_eq_none (by rw [hrest]; exact hbreak)
  have hsees : c.advance.sees isSpace = false :=
    StopsAt.sees_eq_false (by rw [hrest]; exact hspace)
  have hbreaks : ∀ fuel, plainBreaks fuel c.advance = (some [], c.advance) := by
    intro fuel
    cases fuel with
    | zero => rfl
    | succ fuel =>
      rw [plainBreaks, hsees]
      simp [hnone]
  refine ⟨[' '], ?_, ?_⟩
  · rw [plainGap, htake]
    simp only [lineBreak?_newline hc, hmark, Bool.false_eq_true, if_false, hbreaks]
    rfl
  · rw [hcol]
    simp only [Bool.or_eq_true, decide_eq_true_eq]
    exact Or.inr hindent

/-! ## The whole scalar -/

theorem PlainText.sees_hash {cs : List Char} {c : Cursor} (h : PlainText cs) (tail : List Char)
    (hc : c.rest = cs ++ tail) : c.sees (· = '#') = false := by
  obtain ⟨x, cs, rfl⟩ := List.exists_cons_of_ne_nil h.ne_nil
  have hmark := h.marks
  simp only [holdsMark, Bool.or_eq_false_iff, Bool.and_eq_false_iff] at hmark
  rw [sees, hc]
  rcases hmark.1.2 with hx | hx
  · exact hx
  · exact absurd hx (by decide)

/-- What follows the blanks inside a plain text is a plain text. -/
theorem PlainText.of_append {front blanks rest : List Char}
    (h : PlainText (front ++ (blanks ++ rest))) (hne : blanks ≠ [])
    (hblanks : ∀ x ∈ blanks, isSpace x = true) (hrest : StopsAt isSpace rest) :
    PlainText rest := by
  obtain ⟨blanks, last, rfl⟩ : ∃ xs x, blanks = xs ++ [x] :=
    ⟨blanks.dropLast, blanks.getLast hne, (List.dropLast_concat_getLast hne).symm⟩
  have hlast : isSpace last = true := hblanks last (by simp)
  have hmark := h.marks
  rw [List.append_assoc, ← List.append_assoc] at hmark
  have hmark : holdsMark (isSeparator last) rest = false := holdsMark_append hmark
  rw [isSeparator_of_plain (h.chars last (by simp)), hlast] at hmark
  have hne : rest ≠ [] := by
    rintro rfl
    have := h.last last (by simp [List.getLast?_append])
    rw [hlast] at this
    exact absurd this (by decide)
  refine ⟨hne, fun x hx => h.chars x (by simp [hx]), hmark, hrest, fun x hx => h.last x ?_⟩
  rw [← List.append_assoc, Option.mem_def, List.getLast?_append, Option.mem_def.1 hx]
  rfl

/-- Blanks between two runs are read as themselves. -/
theorem plainGap_blanks {c : Cursor} {blanks rest : List Char} (hc : c.rest = blanks ++ rest)
    (hblanks : ∀ x ∈ blanks, isSpace x = true) (hspace : StopsAt isSpace rest)
    (hbreak : StopsAt isBreak rest) : plainGap c = (blanks, c.skip blanks.length, false) := by
  have hnone : (c.skip blanks.length).lineBreak? = none :=
    lineBreak?_eq_none (by rw [rest_skip, hc, List.drop_left]; exact hbreak)
  rw [plainGap, takeWhile_eq _ hc hblanks hspace]
  simp only [hnone]

theorem isBreak_of_plain {cs : List Char} (hcs : PlainText cs) {x : Char} (hx : x ∈ cs) :
    isBreak x = false := by
  rw [isBreak_of_not_special (hcs.chars x hx).1]
  exact (hcs.chars x hx).2

/-- Passing the front of a plain text keeps to the line. -/
theorem PlainText.skip (front tail : List Char) {rest : List Char} {c : Cursor}
    (h : PlainText (front ++ rest)) (hc : c.rest = front ++ (rest ++ tail)) :
    (c.skip front.length).rest = rest ++ tail ∧ c.column ≤ (c.skip front.length).column := by
  constructor
  · rw [rest_skip, hc]
    exact List.drop_left
  · exact column_le_skip hc fun x hx => isBreak_of_plain h (List.mem_append_left rest hx)

/-- One round: a run, the blanks after it, and then the rest of the text on the same line. -/
theorem plainRest_round {indent : Int} {fuel : Nat} {gap run blanks rest tail : List Char}
    {lineEnded : Bool} {c : Cursor} (hcs : PlainText (run ++ (blanks ++ rest))) (hne : run ≠ [])
    (hrun : ∀ x ∈ run, isSeparator x = false) (hne' : blanks ≠ [])
    (hblanks : ∀ x ∈ blanks, isSpace x = true) (hrest : StopsAt isSpace rest)
    (hc : c.rest = run ++ (blanks ++ (rest ++ tail))) (hcol : indent ≤ c.column) :
    plainRest false indent (fuel + 1) gap lineEnded c =
      (gap ++ run ++ (plainRest false indent fuel blanks false
          (c.skip (run.length + blanks.length))).1,
        (plainRest false indent fuel blanks false (c.skip (run.length + blanks.length))).2) := by
  have hplain : PlainText rest := hcs.of_append hne' hblanks hrest
  have hruneq : plainRun false c.rest = run := by
    rw [hc, ← List.append_assoc blanks]
    refine plainRun_append _ hrun hcs.marks ?_
    obtain ⟨y, blanks, rfl⟩ := List.exists_cons_of_ne_nil hne'
    rw [show y = ' ' by simpa [isSpace] using hblanks y (by simp)]
    rfl
  have hc1 : (c.skip run.length).rest = blanks ++ (rest ++ tail) := by
    rw [rest_skip, hc]
    exact List.drop_left
  obtain ⟨hc2, hcol'⟩ := PlainText.skip (c := c) (run ++ blanks) tail
    (by rw [List.append_assoc]; exact hcs) (by rw [hc, List.append_assoc])
  rw [List.length_append] at hc2 hcol'
  have hstop : ∀ {p : Char → Bool}, StopsAt p rest → StopsAt p (rest ++ tail) := by
    intro p hp x hx
    obtain ⟨z, rest, rfl⟩ := List.exists_cons_of_ne_nil hplain.ne_nil
    exact hp x hx
  have hgap := plainGap_blanks hc1 hblanks (hstop hrest)
    (hstop fun x hx => isBreak_of_plain hplain (List.mem_of_mem_head? hx))
  have hhash : c.sees (· = '#') = false :=
    hcs.sees_hash tail (by rw [hc, List.append_assoc, List.append_assoc])
  rw [skip_skip] at hgap
  rw [plainRest, hhash]
  simp only [Bool.false_eq_true, if_false, hruneq, List.isEmpty_iff, hne, hgap, Bool.not_false,
    Bool.true_and, hplain.sees_hash tail hc2]
  rw [if_neg (by simp [hne']; omega)]

/-- The last round: a run behind which the scalar ends. -/
theorem plainRest_last {indent : Int} {fuel : Nat} {gap run tail : List Char}
    {lineEnded lineEnded' : Bool} {c after : Cursor} (hcs : PlainText run)
    (hrun : ∀ x ∈ run, isSeparator x = false) (hc : c.rest = run ++ tail)
    (htail : atSeparator tail = true)
    (hend : PlainEnds indent (c.skip run.length) after lineEnded') :
    plainRest false indent (fuel + 1) gap lineEnded c = (gap ++ run, after, lineEnded') := by
  have hruneq : plainRun false c.rest = run := by
    rw [hc]
    exact plainRun_append [] hrun (by rw [List.append_nil]; exact hcs.marks) htail
  obtain ⟨next, hgap, hstop⟩ := hend
  rw [plainRest, hcs.sees_hash tail hc]
  simp only [Bool.false_eq_true, if_false, hruneq, List.isEmpty_iff, hcs.ne_nil, hgap,
    Bool.not_false, Bool.true_and]
  rw [if_pos hstop]

/-- **A plain text is read, all of it and nothing more.** -/
theorem plainRest_eq (cs : List Char) {indent : Int} (fuel : Nat) (gap : List Char)
    (lineEnded : Bool) {tail : List Char} {lineEnded' : Bool} {c after : Cursor}
    (hcs : PlainText cs) (hc : c.rest = cs ++ tail) (htail : atSeparator tail = true)
    (hcol : indent ≤ c.column) (hfuel : cs.length ≤ fuel)
    (hend : PlainEnds indent (c.skip cs.length) after lineEnded') :
    plainRest false indent fuel gap lineEnded c = (gap ++ cs, after, lineEnded') := by
  obtain ⟨fuel, rfl⟩ : ∃ k, fuel = k + 1 :=
    ⟨fuel - 1, by have := List.length_pos_iff.2 hcs.ne_nil; omega⟩
  obtain ⟨run, more, rfl, hrun, hmore⟩ := exists_run (fun x => !isSpace x) cs
  have hsep : ∀ x ∈ run, isSeparator x = false := fun x hx => by
    rw [isSeparator_of_plain (hcs.chars x (by simp [hx]))]
    simpa using hrun x hx
  cases more with
  | nil =>
    rw [List.append_nil] at hcs hc hend ⊢
    exact plainRest_last hcs hsep hc htail hend
  | cons y more =>
    have hy : isSpace y = true := by simpa using hmore y rfl
    have hne : run ≠ [] := by
      rintro rfl
      have h : isSpace y = false := hcs.first y rfl
      rw [hy] at h
      exact absurd h (by decide)
    obtain ⟨blanks, rest, hm, hblanks, hrest⟩ := exists_run isSpace more
    have hblanks : ∀ x ∈ y :: blanks, isSpace x = true := List.forall_mem_cons.2 ⟨hy, hblanks⟩
    rw [hm, ← List.cons_append] at hcs hc hend hfuel ⊢
    have hc : c.rest = run ++ ((y :: blanks) ++ (rest ++ tail)) := by
      rw [hc, List.append_assoc, List.append_assoc]
    have hplain : PlainText rest := hcs.of_append (by simp) hblanks hrest
    obtain ⟨hc', hcol'⟩ := PlainText.skip (c := c) (run ++ (y :: blanks)) tail
      (by rw [List.append_assoc]; exact hcs) (by rw [hc, List.append_assoc])
    rw [← List.append_assoc, List.length_append, ← skip_skip] at hend
    rw [← List.append_assoc, List.length_append] at hfuel
    have hpos : 0 < (run ++ (y :: blanks)).length := List.length_pos_iff.2 (by simp)
    have ih := plainRest_eq rest fuel (y :: blanks) false hplain hc' htail
      (by omega) (by omega) hend
    rw [List.length_append] at ih
    rw [plainRest_round hcs hne hsep (by simp) hblanks hrest hc hcol, ih, List.append_assoc]
termination_by cs.length
decreasing_by subst_vars; simp only [List.length_cons, List.length_append]; omega

/-- A plain text is read from its first character on. -/
theorem readPlain_eq {cs tail : List Char} {indent : Int} {c after : Cursor} {lineEnded : Bool}
    (hcs : PlainText cs) (hc : c.rest = cs ++ tail) (htail : atSeparator tail = true)
    (hcol : indent ≤ c.column) (hend : PlainEnds indent (c.skip cs.length) after lineEnded) :
    readPlain false indent c = (cs, after, lineEnded) := by
  have hfuel : cs.length ≤ c.rest.length + 1 := by
    rw [hc, List.length_append]
    omega
  rw [readPlain, plainRest_eq cs _ _ _ hcs hc htail hcol hfuel hend]
  rfl

end Yaml
end RefPages
