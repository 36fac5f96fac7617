import RefPages.Proofs.Yaml.DoubleQuoted
import RefPages.Proofs.Yaml.PlainScalar
import RefPages.Yaml.Token

/-!
# The tokens of a mapping of texts

The entries of a written mapping are cut into tokens one after the other: the key, its colon, and
the value in the style it was written in. Here is the way up to the value.

* `toNextToken_eq` is the way from one token to the next.
* `token_eq_plain` says when a token is a plain scalar, so that no later proof has to go through the
  marks again.
* `AtEntry` is the state of the scanner in front of an entry; `token_key` and `token_colon` pass its
  key and its colon.
-/

set_option autoImplicit false
namespace RefPages
namespace Yaml

open Text Cursor

/-! ## Characters of keys -/

/-- A letter that keys are made of. -/
def isKeyLetter (x : Char) : Bool :=
  'a' ≤ x && x ≤ 'z'

/-- What holds of no key letter is not the case at one. -/
theorem ne_of_isKeyLetter {x y : Char} (hx : isKeyLetter x = true) (hy : isKeyLetter y = false) :
    x ≠ y := by
  rintro rfl
  rw [hx] at hy
  exact absurd hy (by decide)

theorem isBreak_of_isKeyLetter {x : Char} (hx : isKeyLetter x = true) : isBreak x = false := by
  simp [isBreak, isWrittenBreak, ne_of_isKeyLetter hx (y := '\r') (by decide),
    ne_of_isKeyLetter hx (y := '\n') (by decide), ne_of_isKeyLetter hx (y := '\x85') (by decide),
    ne_of_isKeyLetter hx (y := '\u2028') (by decide),
    ne_of_isKeyLetter hx (y := '\u2029') (by decide)]

theorem isSpace_of_isKeyLetter {x : Char} (hx : isKeyLetter x = true) : isSpace x = false := by
  simp [isSpace, ne_of_isKeyLetter hx (y := ' ') (by decide)]

theorem isSeparator_of_isKeyLetter {x : Char} (hx : isKeyLetter x = true) :
    isSeparator x = false := by
  simp [isSeparator, isBlankOrTab, isBreak_of_isKeyLetter hx,
    ne_of_isKeyLetter hx (y := ' ') (by decide), ne_of_isKeyLetter hx (y := '\t') (by decide),
    ne_of_isKeyLetter hx (y := '\x00') (by decide)]

/-- Passing a word moves the place along its line. -/
theorem skip_word {c : Cursor} {word tail : List Char} (hc : c.rest = word ++ tail)
    (hword : ∀ x ∈ word, isKeyLetter x = true) :
    c.skip word.length = ⟨tail, c.index + word.length, c.line, c.column + word.length⟩ := by
  induction word generalizing c with
  | nil => rw [← List.nil_append tail, ← hc]; rfl
  | cons x word ih =>
    have h := List.forall_mem_cons.1 hword
    have hbreak : x ≠ '\r' ∧ isWrittenBreak x = false := by
      simpa [isBreak] using isBreak_of_isKeyLetter h.1
    have hbom : x ≠ '\ufeff' := ne_of_isKeyLetter h.1 (by decide)
    have hstep : c.advance = ⟨word ++ tail, c.index + 1, c.line, c.column + 1⟩ := by
      rw [advance, hc]
      simp [hbreak.1, hbreak.2, hbom]
    rw [List.length_cons, skip, hstep, ih rfl h.2]
    simp only [Cursor.mk.injEq, true_and]
    omega

theorem plainRun_word {word more : List Char} (hword : ∀ x ∈ word, isKeyLetter x = true) :
    plainRun false (word ++ ':' :: ' ' :: more) = word := by
  induction word with
  | nil => rfl
  | cons x word ih =>
    have h := List.forall_mem_cons.1 hword
    rw [List.cons_append, plainRun, ih h.2, isSeparator_of_isKeyLetter h.1]
    simp [ne_of_isKeyLetter h.1 (y := ':') (by decide)]

/-- A key is read up to its colon. -/
theorem readPlain_word (indent : Int) {c : Cursor} {word more : List Char} (hne : word ≠ [])
    (hword : ∀ x ∈ word, isKeyLetter x = true) (hc : c.rest = word ++ ':' :: ' ' :: more) :
    readPlain false indent c = (word, c.skip word.length, false) := by
  have hrest : (c.skip word.length).rest = ':' :: ' ' :: more := by
    rw [rest_skip, hc]
    exact List.drop_left
  obtain ⟨gap, hgap, hstop⟩ := plainEnds_of_stopsAt indent (c := c.skip word.length)
    (by rw [hrest]; rintro x ⟨⟩; rfl) (by rw [hrest]; rintro x ⟨⟩; rfl)
  have hhash : c.sees (· = '#') = false := by
    obtain ⟨x, word, rfl⟩ := List.exists_cons_of_ne_nil hne
    rw [sees, hc]
    exact decide_eq_false (ne_of_isKeyLetter (hword x (by simp)) (by decide))
  rw [readPlain, plainRest, hhash, hc, plainRun_word hword]
  simp only [Bool.false_eq_true, if_false, List.isEmpty_iff, hne, hgap, Bool.not_false,
    Bool.true_and]
  rw [if_pos hstop]
  rfl

/-! ## Between two tokens -/

namespace TokenState

/-- A token may start here: no blank, no comment, no line break and no byte order mark. -/
def isTokenGap (x : Char) : Bool :=
  isSpace x || isBreak x || x = '#' || x = '\ufeff'

theorem gap_here {c : Cursor} (h : StopsAt isTokenGap c.rest) (fuel : Nat) (lineEnded : Bool) :
    gap (fuel + 1) lineEnded c = (c, lineEnded) := by
  have hspace : StopsAt isSpace c.rest := h.mono (by simp +contextual [isTokenGap])
  have hbreak : StopsAt isBreak c.rest := h.mono (by simp +contextual [isTokenGap])
  have hhash : c.sees (· = '#') = false :=
    StopsAt.sees_eq_false (h.mono (by simp +contextual [isTokenGap]))
  have hdrop : c.dropWhile isSpace = c := dropWhile_eq [] rfl (by simp) hspace
  rw [gap, hdrop, skipComment, hhash]
  simp only [Bool.false_eq_true, if_false, lineBreak?_eq_none hbreak]

theorem gap_space {c : Cursor} {tail : List Char} (hc : c.rest = ' ' :: tail)
    (h : StopsAt isTokenGap tail) (fuel : Nat) (lineEnded : Bool) :
    gap (fuel + 1) lineEnded c = (c.advance, lineEnded) := by
  have hrest : c.advance.rest = tail := by rw [rest_advance, hc]; rfl
  have hspace : StopsAt isSpace tail := h.mono (by simp +contextual [isTokenGap])
  have hdrop : c.dropWhile isSpace = c.advance :=
    dropWhile_eq [' '] hc (List.all_eq_true.1 (by decide)) hspace
  have hdrop' : c.advance.dropWhile isSpace = c.advance :=
    dropWhile_eq [] hrest (by simp) hspace
  have hhere := gap_here (c := c.advance) (by rw [hrest]; exact h) fuel lineEnded
  rw [gap, hdrop'] at hhere
  rw [gap, hdrop]
  exact hhere

theorem gap_newline {c : Cursor} {tail : List Char} (hc : c.rest = '\n' :: tail)
    (h : StopsAt isTokenGap tail) (fuel : Nat) (lineEnded : Bool) :
    gap (fuel + 2) lineEnded c = (c.advance, true) := by
  have hdrop : c.dropWhile isSpace = c :=
    dropWhile_eq [] hc (by simp) (by rintro x ⟨⟩; rfl)
  have hhash : c.sees (· = '#') = false := by rw [sees, hc]; rfl
  rw [gap, hdrop, skipComment, hhash]
  simp only [Bool.false_eq_true, if_false, lineBreak?_newline hc]
  exact gap_here (by rw [rest_advance, hc]; exact h) fuel true

theorem outdent_eq_self {column indent : Int} (h : indent ≤ column) (outer : List Int) :
    outdent column indent outer = (indent, outer, 0) := by
  cases outer with
  | nil => rfl
  | cons next outer => rw [outdent, if_neg (by omega)]

/-- The way to the next token, where no key start is left behind and no block ends. -/
theorem toNextToken_eq {s : TokenState} {c : Cursor} {lineEnded : Bool}
    (hbom : s.cursor.sees (· = '\ufeff') = false)
    (hgap : gap (s.cursor.rest.length + 1) false s.cursor = (c, lineEnded))
    (hlen : s.keys.length = 1)
    (hkeys : ∀ key ∈ s.keys, ∀ k ∈ key, k.line = c.line ∧ c.index - k.index ≤ 1024)
    (hindent : s.indent ≤ 0) :
    s.toNextToken = .ok { s with cursor := c, keyAllowed := s.keyAllowed || lineEnded } := by
  have hflow : s.inFlow = false := by simp [inFlow, hlen]
  have hfresh : ∀ ka, ∀ key ∈ s.keys, ∀ k ∈ key,
      isStale { s with cursor := c, keyAllowed := ka } k = false := by
    intro ka key hkey k hk
    obtain ⟨hline, hindex⟩ := hkeys key hkey k hk
    simp [isStale, hline, hindex]
  have hstale : ∀ ka, dropStale { s with cursor := c, keyAllowed := ka }
      = .ok { s with cursor := c, keyAllowed := ka } := by
    intro ka
    have hmap : s.keys.map (·.filter fun k => !isStale { s with cursor := c, keyAllowed := ka } k)
        = s.keys := by
      rw [List.map_congr_left (g := id), List.map_id]
      intro key hkey
      cases key with
      | none => rfl
      | some k => simp [hfresh ka _ hkey k rfl]
    rw [dropStale, if_neg, hmap]
    rw [List.any_eq_true]
    rintro ⟨key, hkey, hk⟩
    cases key with
    | none => simp at hk
    | some k => simp [hfresh ka _ hkey k rfl] at hk
  rw [toNextToken, hbom]
  simp only [Bool.false_eq_true, and_false, if_false, hgap, hflow, Bool.not_false, Bool.and_true,
    hstale]
  simp only [bind, Except.bind]
  rw [unwind, show inFlow { s with cursor := c, keyAllowed := s.keyAllowed || lineEnded } = false
    from hflow]
  simp [outdent_eq_self (show s.indent ≤ (c.column : Int) by omega)]

/-! ## Plain tokens -/

/-- The characters that are a mark wherever they start a token. -/
theorem markList_eq : "#,[]\x7b\x7d&*!|>'\"%@\x60".toList
    = ['#', ',', '[', ']', '\x7b', '\x7d', '&', '*', '!', '|', '>', '\'', '"', '%', '@',
      '\x60'] := by
  decide

theorem token_eq_plain {s : TokenState} {ch : Char} {rest : List Char}
    (hmark : ch ∉ "#,[]\x7b\x7d&*!|>'\"%@\x60".toList) (hsep : isSeparator ch = false)
    (hfollow : ch ∈ ['?', ':', '-'] → atSeparator rest = false) (hflow : s.inFlow = false)
    (hdoc : s.cursor.column = 0 → s.cursor.atDocumentMark = false) :
    s.token ch rest = s.plain := by
  have hdoc : (decide (s.cursor.column = 0) && s.cursor.atDocumentMark) = false := by
    by_cases h : s.cursor.column = 0 <;> simp [h, hdoc]
  have hplain : s.startsPlain ch rest = true := by
    rw [startsPlain, hsep, hflow]
    by_cases hch : ch ∈ ['?', ':', '-']
    · simp only [hfollow hch]
      simp only [List.mem_cons, List.not_mem_nil, or_false] at hch
      rcases hch with rfl | rfl | rfl <;> simp
    · have hlist : ∀ y ∈ "-?:,[]\x7b\x7d#&*!|>'\"%@\x60".toList,
          (['?', ':', '-'] ++ "#,[]\x7b\x7d&*!|>'\"%@\x60".toList).contains y = true :=
        List.all_eq_true.1 (by decide)
      have hnot : ch ∉ "-?:,[]\x7b\x7d#&*!|>'\"%@\x60".toList := by
        intro hmem
        rcases List.mem_append.1 (List.contains_iff_mem.1 (hlist ch hmem)) with h | h
        · exact hch h
        · exact hmark h
      rw [decide_eq_false hnot]
      rfl
  have hsigns : ∀ y ∈ ['?', ':', '-'], (decide (ch = y) && atSeparator rest) = false := by
    intro y hy
    by_cases h : ch = y
    · rw [hfollow (h ▸ hy), Bool.and_false]
    · rw [decide_eq_false h, Bool.false_and]
  rw [markList_eq] at hmark
  simp only [List.mem_cons, List.not_mem_nil, or_false, not_or] at hmark
  rw [token]
  simp only [hmark, hdoc, hflow, hplain, hsigns '-' (by simp), hsigns '?' (by simp),
    hsigns ':' (by simp), decide_false, Bool.false_and, Bool.false_or, Bool.or_self,
    Bool.false_eq_true, if_false, if_true]

/-- No document starts or ends in front of a text that starts with neither a dash nor a stop. -/
theorem atDocumentMark_eq_false {c : Cursor} {x : Char} {tail : List Char} (hc : c.rest = x :: tail)
    (hx : x ≠ '-' ∧ x ≠ '.') : c.atDocumentMark = false := by
  rw [atDocumentMark, hc, show "---".toList = ['-', '-', '-'] by decide,
    show "...".toList = ['.', '.', '.'] by decide]
  simp [List.isPrefixOf, hx.1.symm, hx.2.symm]

/-! ## Keys -/

/-- The scanner stands in front of an entry, the first one or a later one. -/
structure AtEntry (s : TokenState) (text : List Char) : Prop where
  rest : s.cursor.rest = text
  column : s.cursor.column = 0
  keys : s.keys = [none]
  allowed : s.keyAllowed = true
  indent : (s.indent = -1 ∧ s.indents = []) ∨ (s.indent = 0 ∧ s.indents = [-1])

/-- The token that starts the mapping, before its first entry. -/
def mappingStart (s : TokenState) : List Token :=
  if s.indent = -1 then [.blockMappingStart] else []

/-- The state behind the colon of a key. -/
def afterKey (s : TokenState) (word : List Char) : TokenState where
  cursor := s.cursor.skip (word.length + 1)
  tokens := s.tokens ++ s.mappingStart ++ [.key, .ofChars word true, .value]
  indent := 0
  indents := [-1]
  keys := [none]
  keyAllowed := false

/-- The state behind a key, in front of its colon. -/
def atColon (s : TokenState) (word : List Char) : TokenState where
  cursor := s.cursor.skip word.length
  tokens := s.tokens ++ [.ofChars word true]
  indent := s.indent
  indents := s.indents
  keys := [some ⟨s.tokens.length, s.indent == s.cursor.column, s.cursor.index, s.cursor.line,
    s.cursor.column⟩]
  keyAllowed := false

theorem saveKey_of_allowed {s : TokenState} (hkeys : s.keys = [none]) (h : s.keyAllowed = true) :
    s.saveKey = .ok { s with keys := [some ⟨s.tokens.length, s.indent == s.cursor.column,
      s.cursor.index, s.cursor.line, s.cursor.column⟩] } := by
  have hdrop : s.dropKey = .ok s := by rw [dropKey, hkeys]
  have hflow : s.inFlow = false := by simp [inFlow, hkeys]
  rw [saveKey, if_pos h, hdrop, hflow]
  simp only [bind, Except.bind, hkeys]
  rfl

theorem saveKey_of_not_allowed {s : TokenState} (h : s.keyAllowed = false) :
    s.saveKey = .ok s := by
  rw [saveKey, h]
  rfl

theorem token_key {s : TokenState} {x : Char} {word more : List Char}
    (hs : s.AtEntry (x :: word ++ ':' :: ' ' :: more))
    (hword : ∀ y ∈ x :: word, isKeyLetter y = true) :
    s.token x (word ++ ':' :: ' ' :: more) = .ok (s.atColon (x :: word)) := by
  have hx : isKeyLetter x = true := hword x (by simp)
  have hflow : s.inFlow = false := by simp [inFlow, hs.keys]
  have hmark : x ∉ "#,[]\x7b\x7d&*!|>'\"%@\x60".toList := by
    intro hmem
    have hlist : ∀ y ∈ "#,[]\x7b\x7d&*!|>'\"%@\x60".toList, isKeyLetter y = false :=
      eq_false_of_any (by decide)
    exact ne_of_isKeyLetter hx (hlist x hmem) rfl
  have hsign : x ∈ ['?', ':', '-'] → atSeparator (word ++ ':' :: ' ' :: more) = false := by
    intro hmem
    have hlist : ∀ y ∈ ['?', ':', '-'], isKeyLetter y = false := eq_false_of_any (by decide)
    exact absurd rfl (ne_of_isKeyLetter hx (hlist x hmem))
  have hdoc : s.cursor.atDocumentMark = false :=
    atDocumentMark_eq_false hs.rest
      ⟨ne_of_isKeyLetter hx (by decide), ne_of_isKeyLetter hx (by decide)⟩
  have hread := readPlain_word (s.indent + 1) (List.cons_ne_nil x word) hword hs.rest
  rw [token_eq_plain hmark (isSeparator_of_isKeyLetter hx) hsign hflow fun _ => hdoc, plain,
    saveKey_of_allowed hs.keys hs.allowed]
  simp only [bind, Except.bind, inFlow, List.length_cons, List.length_nil, Nat.zero_add,
    Nat.lt_irrefl, decide_false, hread]
  rfl

/-- The colon of a key puts its token in front of it, and in front of that the start of the mapping
if the key is its first. -/
theorem valueMark_atColon {s : TokenState} {word : List Char} (hcol : s.cursor.column = 0)
    (hindent : (s.indent = -1 ∧ s.indents = []) ∨ (s.indent = 0 ∧ s.indents = [-1])) :
    (s.atColon word).valueMark = .ok (s.afterKey word) := by
  have htake : (s.tokens ++ [Token.ofChars word true]).take s.tokens.length = s.tokens :=
    List.take_left
  have hdrop : (s.tokens ++ [Token.ofChars word true]).drop s.tokens.length
      = [Token.ofChars word true] := List.drop_left
  rw [valueMark, atColon]
  simp only [inFlow, List.length_cons, List.length_nil, Nat.zero_add, Nat.lt_irrefl, decide_false,
    Bool.false_eq_true, if_false, indentTo?, hcol]
  rcases hindent with ⟨h1, h2⟩ | ⟨h1, h2⟩
  · simp only [h1, h2]
    simp [bind, Except.bind, pure, Except.pure, moveTo, emit, afterKey, mappingStart, h1, htake,
      hdrop, advance_skip]
  · simp only [h1, h2]
    simp [bind, Except.bind, pure, Except.pure, moveTo, emit, afterKey, mappingStart, h1, htake,
      hdrop, advance_skip]

theorem token_colon {s : TokenState} {word more : List Char}
    (hs : s.AtEntry (word ++ ':' :: ' ' :: more)) :
    (s.atColon word).token ':' (' ' :: more) = .ok (s.afterKey word) := by
  have hdoc : (s.atColon word).cursor.atDocumentMark = false := by
    have hrest : (s.atColon word).cursor.rest = ':' :: ' ' :: more := by
      rw [atColon, rest_skip, hs.rest]
      exact List.drop_left
    exact atDocumentMark_eq_false hrest (by decide)
  rw [token, hdoc]
  have hsep : atSeparator (' ' :: more) = true := rfl
  simp [hsep, valueMark_atColon hs.column hs.indent]

end TokenState

end Yaml
end RefPages
