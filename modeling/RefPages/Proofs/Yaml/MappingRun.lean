import RefPages.Proofs.Yaml.ScalarToken

/-!
# The run of the scanner over a mapping of texts

* `exists_run_entry`: three steps pass one entry and give its tokens.
* `BehindValue.exists_next` and `BehindValue.run_end`: behind a value comes the next entry, or the
  end of the mapping.
* `exists_scan_entries`: **the tokens of two entries**, whatever their values.
-/

set_option autoImplicit false
namespace RefPages
namespace Yaml

open Text Cursor

/-! ## From token to token -/

namespace TokenState

theorem run_step {s s1 s2 : TokenState} {ch : Char} {rest : List Char}
    (hnext : s.toNextToken = .ok s1) (hrest : s1.cursor.rest = ch :: rest)
    (htoken : s1.token ch rest = .ok s2) (fuel : Nat) : run (fuel + 1) s = run fuel s2 := by
  have hround : s.round = .ok (true, s2) := by
    rw [round, hnext]
    simp only [bind, Except.bind, hrest, htoken]
  rw [run, hround]

/-- Behind a key the scanner already stands at the next token. -/
theorem toNextToken_atColon {s : TokenState} {word more : List Char}
    (hs : s.AtEntry (word ++ ':' :: ' ' :: more)) (hword : ∀ y ∈ word, isKeyLetter y = true)
    (hlen : word.length ≤ 1024) : (s.atColon word).toNextToken = .ok (s.atColon word) := by
  have hskip := skip_word hs.rest hword
  have hrest : (s.atColon word).cursor.rest = ':' :: ' ' :: more := by
    rw [atColon, hskip]
  have hbom : (s.atColon word).cursor.sees (· = '\ufeff') = false := by
    rw [sees, hrest]
    rfl
  have hgap := gap_here (c := (s.atColon word).cursor) (by rw [hrest]; rintro x ⟨⟩; rfl)
    (s.atColon word).cursor.rest.length false
  have hindent : s.indent ≤ 0 := by
    rcases hs.indent with ⟨h, -⟩ | ⟨h, -⟩ <;> omega
  rw [toNextToken_eq hbom hgap rfl ?_ hindent, Bool.or_false]
  intro key hkey k hk
  rw [atColon, List.mem_singleton] at hkey
  rw [hkey, Option.mem_some_iff] at hk
  rw [← hk, atColon, hskip]
  exact ⟨rfl, by simp only; omega⟩

/-- The blank behind a colon leads to the value. -/
theorem exists_toNextToken_afterKey {s : TokenState} {word more : List Char}
    (hs : s.AtEntry (word ++ ':' :: ' ' :: more)) (hstop : StopsAt isTokenGap more) :
    ∃ s1, (s.afterKey word).toNextToken = .ok s1 ∧ s1.tokens = (s.afterKey word).tokens
      ∧ s1.InValue more := by
  have hrest : (s.afterKey word).cursor.rest = ' ' :: more := by
    rw [afterKey, rest_skip, hs.rest, ← List.singleton_append, ← List.append_assoc]
    exact List.drop_left' (by simp)
  have hbom : (s.afterKey word).cursor.sees (· = '\ufeff') = false := by
    rw [sees, hrest]
    rfl
  have hgap := gap_space hrest hstop (s.afterKey word).cursor.rest.length false
  refine ⟨_, toNextToken_eq hbom hgap rfl (by simp [afterKey]) (Int.le_refl 0), rfl, ?_⟩
  refine ⟨?_, ?_, rfl, rfl, rfl, rfl⟩
  · rw [rest_advance, hrest]
    rfl
  · simp only [advance, hrest]
    simp [isWrittenBreak]

/-- A value does not start like a gap between tokens. -/
theorem stopsAt_writeScalar (v tail : List Char) :
    StopsAt isTokenGap (reline (writeScalar v) ++ tail) := by
  cases hstyle : Style.ofText v with
  | plain =>
    have hplain := plainText_of_fitsPlain (fitsPlain_of_style hstyle)
    rw [writeScalar_plain hstyle, hplain.reline_eq]
    have hhash := hplain.sees_hash (c := ⟨v ++ tail, 0, 0, 0⟩) tail rfl
    obtain ⟨x, v, rfl⟩ := List.exists_cons_of_ne_nil hplain.ne_nil
    rintro y ⟨⟩
    have hspace : isSpace x = false := hplain.first x rfl
    have hbreak : isBreak x = false := isBreak_of_plain hplain (by simp)
    have hhash : decide (x = '#') = false := hhash
    have hbom : x ≠ '\ufeff' := by
      rintro rfl
      exact absurd (hplain.chars '\ufeff' (by simp)).1 (by decide)
    rw [isTokenGap, hspace, hbreak, hhash]
    simp [hbom]
  | single =>
    rw [writeScalar_single hstyle]
    rintro y ⟨⟩
    rfl
  | double =>
    rw [writeScalar_double hstyle]
    rintro y ⟨⟩
    rfl

/-! ## Entries -/

/-- The tokens of an entry. -/
def entryTokens (word text : List Char) (plain : Bool) : List Token :=
  [.key, .ofChars word true, .value, .ofChars text plain]

/-- **Three steps pass an entry**: its key, its colon and its value. -/
theorem exists_run_entry {s s0 : TokenState} {word v tail : List Char}
    (hne : word ≠ []) (hword : ∀ y ∈ word, isKeyLetter y = true) (hlen : word.length ≤ 1024)
    (htail : EntryEnds tail) (hnext : s.toNextToken = .ok s0)
    (hs : s0.AtEntry (word ++ ':' :: ' ' :: (reline (writeScalar v) ++ tail))) :
    ∃ text plain s', ScalarRead v text plain
      ∧ s'.tokens = s0.tokens ++ s0.mappingStart ++ entryTokens word text plain
      ∧ s'.BehindValue tail ∧ ∀ fuel, run (fuel + 3) s = run fuel s' := by
  obtain ⟨s1, hnext1, htokens, hvalue⟩ :=
    exists_toNextToken_afterKey hs (stopsAt_writeScalar v tail)
  obtain ⟨text, plain, hread, ch, rest, s', hrest, htoken, hemit, hbehind⟩ :=
    exists_passesScalar v hvalue htail
  refine ⟨text, plain, s', hread, ?_, hbehind, fun fuel => ?_⟩
  · rw [hemit, htokens, afterKey, entryTokens, List.append_assoc (s0.tokens ++ s0.mappingStart)]
    rfl
  · have hcolon : (s0.atColon word).cursor.rest
        = ':' :: ' ' :: (reline (writeScalar v) ++ tail) := by
      rw [atColon, rest_skip, hs.rest]
      exact List.drop_left
    have hnext0 := toNextToken_atColon hs hword hlen
    obtain ⟨x, word, rfl⟩ := List.exists_cons_of_ne_nil hne
    rw [run_step hnext hs.rest (token_key hs hword), run_step hnext0 hcolon (token_colon hs),
      run_step hnext1 hrest htoken]

theorem stopsAt_word {x : Char} {next : List Char} (hx : isKeyLetter x = true) :
    StopsAt isTokenGap (x :: next) := by
  rintro y ⟨⟩
  rw [isTokenGap, isSpace_of_isKeyLetter hx, isBreak_of_isKeyLetter hx]
  simp [ne_of_isKeyLetter hx (y := '#') (by decide),
    ne_of_isKeyLetter hx (y := '\ufeff') (by decide)]

/-- In front of an entry the scanner already stands at its key. -/
theorem AtEntry.toNextToken_eq_self {s : TokenState} {x : Char} {next : List Char}
    (hs : s.AtEntry (x :: next)) (hx : isKeyLetter x = true) : s.toNextToken = .ok s := by
  have hbom : s.cursor.sees (· = '\ufeff') = false := by
    rw [sees, hs.rest]
    exact decide_eq_false (ne_of_isKeyLetter hx (by decide))
  have hgap := gap_here (c := s.cursor) (by rw [hs.rest]; exact stopsAt_word hx)
    s.cursor.rest.length false
  have hindent : s.indent ≤ 0 := by
    rcases hs.indent with ⟨h, -⟩ | ⟨h, -⟩ <;> omega
  rw [toNextToken_eq hbom hgap (by rw [hs.keys]; rfl) (by rw [hs.keys]; simp) hindent,
    Bool.or_false]

/-- Behind a value at the end of a line comes the next entry. -/
theorem BehindValue.exists_next {s : TokenState} {x : Char} {next : List Char}
    (hs : s.BehindValue ('\n' :: x :: next)) (hx : isKeyLetter x = true) :
    ∃ s', s.toNextToken = .ok s' ∧ s'.AtEntry (x :: next) ∧ s'.tokens = s.tokens
      ∧ s'.mappingStart = [] := by
  have hstart : s.mappingStart = [] := by
    rw [mappingStart, hs.indent]
    rfl
  rcases hs.place with ⟨hrest, -⟩ | ⟨hrest, hcol, hallowed⟩
  · -- The line has still to be left.
    have hbom : s.cursor.sees (· = '\ufeff') = false := by
      rw [sees, hrest]
      rfl
    have hgap : gap (s.cursor.rest.length + 1) false s.cursor = (s.cursor.advance, true) := by
      rw [hrest]
      exact gap_newline hrest (stopsAt_word hx) (x :: next).length false
    refine ⟨_, toNextToken_eq hbom hgap (by rw [hs.keys]; rfl) (by rw [hs.keys]; simp)
      (Int.le_of_eq hs.indent), ?_, rfl, hstart⟩
    refine ⟨?_, ?_, hs.keys, Bool.or_true _, Or.inr ⟨hs.indent, hs.indents⟩⟩
    · rw [rest_advance, hrest]
      rfl
    · rw [advance, hrest]
      rfl
  · have hentry : s.AtEntry (x :: next) :=
      ⟨by simpa using hrest.symm, hcol, hs.keys, hallowed, Or.inr ⟨hs.indent, hs.indents⟩⟩
    exact ⟨s, hentry.toNextToken_eq_self hx, hentry, rfl, hstart⟩

/-- Behind the last value the mapping ends. -/
theorem BehindValue.run_end {s : TokenState} (hs : s.BehindValue []) (fuel : Nat) :
    run (fuel + 1) s = { tokens := s.tokens ++ [.blockEnd] } := by
  have hrest : s.cursor.rest = [] := by
    rcases hs.place with ⟨hrest, -⟩ | ⟨hrest, -⟩
    · exact hrest
    · exact absurd hrest (by simp)
  have hbom : s.cursor.sees (· = '\ufeff') = false := by
    rw [sees, hrest]
    rfl
  have hgap := gap_here (c := s.cursor) (by rw [hrest]; rintro x ⟨⟩) s.cursor.rest.length false
  have hnext := toNextToken_eq hbom hgap (by rw [hs.keys]; rfl) (by rw [hs.keys]; simp)
    (Int.le_of_eq hs.indent)
  rw [run, round, hnext]
  simp only [bind, Except.bind, hrest]
  rw [leaveBlocks, unwind, inFlow, dropKey]
  simp [hs.keys, hs.indent, hs.indents, outdent, bind, Except.bind]

end TokenState

/-! ## The whole text -/

theorem isReadable_of_not_special {x : Char} (h : isSpecial x = false) : isReadable x = true := by
  simp only [isSpecial, Bool.not_eq_false', Bool.or_eq_true, Bool.and_eq_true,
    decide_eq_true_eq] at h
  simp only [isReadable, Bool.or_eq_true, Bool.and_eq_true, decide_eq_true_eq]
  rcases h with (((h | h) | h) | h) | h
  · simp [h]
  · simp [h]
  · simp [h]
  · simp [h.1.1, h.1.2]
  · simp [h.1]

theorem isReadable_relineChar {x : Char} (h : isReadable x = true) :
    isReadable (relineChar x) = true := by
  rw [relineChar]
  split
  · rfl
  · exact h

/-- An entry as it stands in a page. -/
def entryText (word v : List Char) : List Char :=
  word ++ ':' :: ' ' :: reline (writeScalar v)

theorem isReadable_of_mem_entryText {word v : List Char} {x : Char}
    (hword : ∀ y ∈ word, isKeyLetter y = true) (h : x ∈ entryText word v) :
    isReadable x = true := by
  rw [entryText, List.mem_append, List.mem_cons, List.mem_cons] at h
  rcases h with h | rfl | rfl | h
  · have hx := hword x h
    simp only [isKeyLetter, Bool.and_eq_true, decide_eq_true_eq] at hx
    have hle : ' ' ≤ x ∧ x ≤ '~' := ⟨Char.le_trans (by decide) hx.1, Char.le_trans hx.2 (by decide)⟩
    simp [isReadable, hle.1, hle.2]
  · rfl
  · rfl
  · obtain ⟨y, hy, rfl⟩ := List.mem_map.1 h
    exact isReadable_relineChar (isReadable_of_not_special (isSpecial_of_mem_writeScalar hy))

/-- A key of a mapping, short enough to be one. -/
structure IsKey (word : List Char) : Prop where
  ne_nil : word ≠ []
  letters : ∀ y ∈ word, isKeyLetter y = true
  length_le : word.length ≤ 1024

open TokenState in
/-- **The tokens of two entries**, whatever their values. -/
theorem exists_scan_entries {word word' : List Char} (hword : IsKey word) (hword' : IsKey word')
    (v v' : List Char) :
    ∃ text plain text' plain', ScalarRead v text plain ∧ ScalarRead v' text' plain'
      ∧ Scan.ofChars (entryText word v ++ '\n' :: entryText word' v') =
        { tokens := .blockMappingStart :: entryTokens word text plain
            ++ entryTokens word' text' plain' ++ [.blockEnd] } := by
  have hreadable : (entryText word v ++ '\n' :: entryText word' v').all isReadable = true := by
    rw [List.all_eq_true]
    intro x hx
    rcases List.mem_append.1 hx with hx | hx
    · exact isReadable_of_mem_entryText hword.letters hx
    · rcases List.mem_cons.1 hx with rfl | hx
      · rfl
      · exact isReadable_of_mem_entryText hword'.letters hx
  have hfirst : ∀ {word : List Char} (v : List Char), IsKey word →
      ∃ x next, entryText word v = x :: next ∧ isKeyLetter x = true := by
    intro word v hword
    obtain ⟨x, rest, rfl⟩ := List.exists_cons_of_ne_nil hword.ne_nil
    exact ⟨x, _, rfl, hword.letters x (by simp)⟩
  obtain ⟨x, next, hx, hletter⟩ := hfirst v hword
  obtain ⟨x', next', hx', hletter'⟩ := hfirst v' hword'
  -- The first entry is met at once, and the second one behind the value of the first.
  let start : TokenState := { cursor := { rest := entryText word v ++ '\n' :: entryText word' v' } }
  have hstart : start.AtEntry (entryText word v ++ '\n' :: entryText word' v') :=
    ⟨rfl, rfl, rfl, rfl, Or.inl ⟨rfl, rfl⟩⟩
  have hnext : start.toNextToken = .ok start := by
    rw [hx] at hstart
    exact hstart.toNextToken_eq_self hletter
  rw [entryText, List.append_assoc, List.cons_append, List.cons_append] at hstart
  obtain ⟨text, plain, s, hread, htokens, hbehind, hrun⟩ := exists_run_entry hword.ne_nil
    hword.letters hword.length_le (Or.inr ⟨x', next', by rw [hx'], hletter'⟩) hnext hstart
  rw [hx'] at hbehind
  obtain ⟨s', hnext', hentry', htokens', hstart'⟩ := hbehind.exists_next hletter'
  rw [← hx', entryText, ← List.append_nil (reline (writeScalar v'))] at hentry'
  obtain ⟨text', plain', s'', hread', htokens'', hbehind', hrun'⟩ := exists_run_entry
    hword'.ne_nil hword'.letters hword'.length_le (Or.inl rfl) hnext' hentry'
  refine ⟨text, plain, text', plain', hread, hread', ?_⟩
  obtain ⟨fuel, hfuel⟩ : ∃ fuel,
      (entryText word v ++ '\n' :: entryText word' v').length + 1 = fuel + 1 + 3 + 3 := by
    refine ⟨(entryText word v ++ '\n' :: entryText word' v').length - 6, ?_⟩
    have h := List.length_pos_iff.2 hword.ne_nil
    have h' := List.length_pos_iff.2 hword'.ne_nil
    simp only [entryText, List.length_append, List.length_cons]
    omega
  rw [Scan.ofChars, if_pos hreadable, hfuel, hrun, hrun', hbehind'.run_end, htokens'', htokens',
    hstart', htokens, List.append_nil]
  rfl

end Yaml
end RefPages
