import RefPages.Proofs.Yaml.MappingTokens

/-!
# The token of a written value

A value is written in one of three styles, and stands in the page after it has been cut into lines.
The scanner makes one scalar token of it, whatever the style.

* `ScalarRead` says what the token tells of the text: it is `v` exactly if `v` was written without a
  line break other than the line feed.
* `InValue` is the state of the scanner in front of a value, and `BehindValue` the one behind it.
* `exists_token_value`: **every** value is passed by one token.
-/

set_option autoImplicit false
namespace RefPages
namespace Yaml

open Text Cursor

/-! ## What is written -/

/-- What a scalar token tells of the text `v` that it was written for. -/
structure ScalarRead (v text : List Char) (plain : Bool) : Prop where
  /-- It stands for a text, and not for anything else that a plain scalar may stand for. -/
  tag : plain = true → Tag.ofPlain text = .text
  /-- The text is `v`, if no line break was written that cutting into lines changes. -/
  text_eq_iff : text = v ↔ OnlyFeeds (writeScalar v)

theorem writeScalar_plain {v : List Char} (h : Style.ofText v = .plain) : writeScalar v = v := by
  rw [writeScalar, h]

theorem writeScalar_single {v : List Char} (h : Style.ofText v = .single) :
    writeScalar v = '\'' :: singleBody false v ++ ['\''] := by
  rw [writeScalar, h]

theorem writeScalar_double {v : List Char} (h : Style.ofText v = .double) :
    writeScalar v = '"' :: v.flatMap doubleChar ++ ['"'] := by
  rw [writeScalar, h]

theorem fitsPlain_of_style {v : List Char} (h : Style.ofText v = .plain) : fitsPlain v = true := by
  rw [Style.ofText] at h
  split at h
  · assumption
  · split at h <;> exact absurd h (by simp)

theorem fitsSingle_of_style {v : List Char} (h : Style.ofText v = .single) :
    fitsSingle v = true := by
  rw [Style.ofText] at h
  split at h
  · exact absurd h (by simp)
  · split at h
    · assumption
    · exact absurd h (by simp)

/-- A plain text is not touched when the page is cut into lines. -/
theorem PlainText.reline_eq {cs : List Char} (h : PlainText cs) : reline cs = cs := by
  refine reline_eq_self fun x hx hb => ?_
  rw [isLineBoundary_of_not_special (h.chars x hx).1, (h.chars x hx).2] at hb
  exact absurd hb (by decide)

theorem isSpecial_of_standsInDouble {x : Char} (h : standsInDouble x = true) :
    isSpecial x = false := by
  simp only [standsInDouble, Bool.or_eq_true, Bool.and_eq_true, decide_eq_true_eq, List.mem_cons,
    List.not_mem_nil, or_false, not_or] at h
  simp only [isSpecial, Bool.not_eq_false', Bool.or_eq_true, Bool.and_eq_true, decide_eq_true_eq]
  rcases h with ⟨⟨hascii, -⟩, -⟩ | ⟨hrange, -, -, hbom⟩
  · exact Or.inl (Or.inl (Or.inl (Or.inr hascii)))
  · refine Or.inl (Or.inr ⟨hrange, fun h => hbom ?_⟩)
    rw [← Char.ofNat_toNat x, h]

/-- In every style, nothing is written that needs an escape. -/
theorem isSpecial_of_mem_writeScalar {v : List Char} {x : Char} (h : x ∈ writeScalar v) :
    isSpecial x = false := by
  cases hstyle : Style.ofText v with
  | plain =>
    rw [writeScalar_plain hstyle] at h
    exact ((plainText_of_fitsPlain (fitsPlain_of_style hstyle)).chars x h).1
  | single =>
    have hfits := fitsSingle_of_style hstyle
    simp only [fitsSingle, Bool.and_eq_true, Bool.not_eq_true', List.any_eq_false] at hfits
    rw [writeScalar_single hstyle] at h
    simp only [List.cons_append, List.mem_cons, List.mem_append, List.not_mem_nil, or_false] at h
    rcases h with rfl | h | rfl
    · rfl
    · rcases mem_singleBody h with h | rfl
      · simpa using hfits.1.1 x h
      · rfl
    · rfl
  | double =>
    rw [writeScalar_double hstyle] at h
    simp only [List.cons_append, List.mem_cons, List.mem_append, List.not_mem_nil, or_false,
      List.mem_flatMap] at h
    rcases h with rfl | ⟨ch, -, h⟩ | rfl
    · rfl
    · rcases mem_doubleChar h with h | rfl | rfl
      · exact isSpecial_of_standsInDouble h
      · rfl
      · rfl
    · rfl

theorem scalarRead_plain {v : List Char} (h : Style.ofText v = .plain) : ScalarRead v v true := by
  have hfits := fitsPlain_of_style h
  refine ⟨fun _ => ?_, fun _ x hx hb => ?_, fun _ => rfl⟩
  · cases v with
    | nil => simp [fitsPlain] at hfits
    | cons x v =>
      simp only [fitsPlain, Bool.and_eq_true, decide_eq_true_eq] at hfits
      exact hfits.2
  · rw [writeScalar_plain h] at hx
    rw [((plainText_of_fitsPlain hfits).chars x hx).2] at hb
    exact absurd hb (by decide)

/-- Between apostrophes the line breaks of the text are written, and no other ones. -/
theorem onlyFeeds_writeScalar_single {v : List Char} (h : Style.ofText v = .single) :
    OnlyFeeds (writeScalar v) ↔ OnlyFeeds v := by
  rw [writeScalar_single h]
  constructor
  · intro hall x hx
    exact hall x (by simp [mem_singleBody_of_mem hx])
  · intro hall x hx hb
    simp only [List.cons_append, List.mem_cons, List.mem_append, List.not_mem_nil, or_false] at hx
    rcases hx with rfl | hx | rfl
    · exact absurd hb (by decide)
    · rcases mem_singleBody hx with hx | rfl
      · exact hall x hx hb
      · exact absurd hb (by decide)
    · exact absurd hb (by decide)

theorem scalarRead_single {v text : List Char} (h : Style.ofText v = .single)
    (hfeeds : OnlyFeeds text) (hsame : OnlyFeeds v → text = v) : ScalarRead v text false := by
  refine ⟨fun h => absurd h (by decide), ?_⟩
  rw [onlyFeeds_writeScalar_single h]
  exact ⟨fun htext => htext ▸ hfeeds, hsame⟩

theorem scalarRead_double {v : List Char} (h : Style.ofText v = .double) :
    ScalarRead v v false := by
  refine ⟨fun h => absurd h (by decide), fun _ x hx hb => ?_, fun _ => rfl⟩
  rw [writeScalar_double h] at hx
  simp only [List.cons_append, List.mem_cons, List.mem_append, List.not_mem_nil, or_false,
    List.mem_flatMap] at hx
  rcases hx with rfl | ⟨ch, -, hx⟩ | rfl
  · exact absurd hb (by decide)
  · rcases mem_doubleChar hx with hx | rfl | rfl
    · have hbreak := (standsInDouble_bounds hx).1
      rw [isBreak, hb, Bool.or_true] at hbreak
      exact absurd hbreak (by decide)
    · exact absurd hb (by decide)
    · exact absurd hb (by decide)
  · exact absurd hb (by decide)

/-! ## The states around a value -/

/-- The text behind a value: nothing, or a line feed and the key of the next entry. -/
def EntryEnds (tail : List Char) : Prop :=
  tail = [] ∨ ∃ x next, tail = '\n' :: x :: next ∧ isKeyLetter x = true

namespace TokenState

/-- The scanner stands in front of a value. -/
structure InValue (s : TokenState) (text : List Char) : Prop where
  rest : s.cursor.rest = text
  column : 0 < s.cursor.column
  keys : s.keys = [none]
  allowed : s.keyAllowed = false
  indent : s.indent = 0
  indents : s.indents = [-1]

/-- The scanner stands behind a value, at the end of its line or already on the next one. -/
structure BehindValue (s : TokenState) (tail : List Char) : Prop where
  keys : s.keys = [none]
  indent : s.indent = 0
  indents : s.indents = [-1]
  place : (s.cursor.rest = tail ∧ s.keyAllowed = false) ∨
    (tail = '\n' :: s.cursor.rest ∧ s.cursor.column = 0 ∧ s.keyAllowed = true)

/-- The token in front is one scalar, and behind it the value is over. -/
def PassesScalar (s : TokenState) (text : List Char) (plain : Bool) (tail : List Char) : Prop :=
  ∃ ch rest s', s.cursor.rest = ch :: rest ∧ s.token ch rest = .ok s'
    ∧ s'.tokens = s.tokens ++ [.ofChars text plain] ∧ s'.BehindValue tail

/-- Behind a plain text the scanner goes on to the next line, if there is one. -/
theorem exists_plainEnds {c : Cursor} {tail : List Char} (hc : c.rest = tail)
    (htail : EntryEnds tail) :
    ∃ after lineEnded, PlainEnds 1 c after lineEnded ∧
      ((after.rest = tail ∧ lineEnded = false) ∨
        (tail = '\n' :: after.rest ∧ after.column = 0 ∧ lineEnded = true)) := by
  rcases htail with rfl | ⟨x, next, rfl, hx⟩
  · refine ⟨c, false, plainEnds_of_stopsAt _ ?_ ?_, Or.inl ⟨hc, rfl⟩⟩
    · rw [hc]
      rintro y ⟨⟩
    · rw [hc]
      rintro y ⟨⟩
  · have hrest : c.advance.rest = x :: next := by
      rw [rest_advance, hc]
      rfl
    refine ⟨c.advance, true, plainEnds_newline hc (by decide) ?_ ?_ ?_, Or.inr ⟨?_, ?_, rfl⟩⟩
    · rintro y ⟨⟩
      exact isSpace_of_isKeyLetter hx
    · rintro y ⟨⟩
      exact isBreak_of_isKeyLetter hx
    · exact atDocumentMark_eq_false hrest
        ⟨ne_of_isKeyLetter hx (by decide), ne_of_isKeyLetter hx (by decide)⟩
    · rw [hrest]
    · rw [advance, hc]
      rfl

theorem passesScalar_plain {s : TokenState} {v tail : List Char} (hv : fitsPlain v = true)
    (hs : s.InValue (v ++ tail)) (htail : EntryEnds tail) : s.PassesScalar v true tail := by
  have hplain : PlainText v := plainText_of_fitsPlain hv
  have hsep : atSeparator tail = true := by
    rcases htail with rfl | ⟨x, next, rfl, -⟩ <;> rfl
  have hflow : s.inFlow = false := by simp [inFlow, hs.keys]
  obtain ⟨after, lineEnded, hend, hplace⟩ := exists_plainEnds (c := s.cursor.skip v.length)
    (by rw [rest_skip, hs.rest]; exact List.drop_left) htail
  have hread : readPlain false (s.indent + 1) s.cursor = (v, after, lineEnded) := by
    rw [hs.indent]
    exact readPlain_eq hplain hs.rest hsep (by have := hs.column; omega) hend
  have htoken : s.plain = .ok { s with
      cursor := after, keyAllowed := lineEnded, tokens := s.tokens ++ [.ofChars v true] } := by
    rw [plain, saveKey_of_not_allowed hs.allowed]
    simp only [bind, Except.bind, hflow, hread]
    rfl
  obtain ⟨x, v, rfl⟩ := List.exists_cons_of_ne_nil hplain.ne_nil
  refine ⟨x, v ++ tail, { s with
      cursor := after, keyAllowed := lineEnded, tokens := s.tokens ++ [.ofChars (x :: v) true] },
    hs.rest, ?_, rfl, ⟨hs.keys, hs.indent, hs.indents, hplace⟩⟩
  simp only [fitsPlain, startsWithMark, Bool.and_eq_true, Bool.not_eq_true', Bool.or_eq_false_iff,
    decide_eq_false_iff_not, Bool.and_eq_false_iff] at hv
  obtain ⟨⟨⟨⟨⟨⟨⟨⟨⟨hmark, hfollow⟩, -⟩, -⟩, -⟩, -⟩, -⟩, hspace⟩, -⟩, -⟩ := hv
  rw [← htoken]
  refine token_eq_plain hmark ?_ (fun hx => ?_) hflow (fun hcol => ?_)
  · rw [isSeparator_of_plain (hplain.chars x (by simp)), hspace]
  · -- A mark is followed by a character of the text itself.
    rcases hfollow with hfollow | hfollow
    · exact absurd hx hfollow
    · cases v with
      | nil => exact absurd hfollow (by decide)
      | cons y v => exact hfollow
  · have := hs.column
    omega

/-- A quoted scalar. -/
theorem passesScalar_quoted {s : TokenState} {quote : Char} {text body tail : List Char} {n : Nat}
    (hquote : quote = '\'' ∨ quote = '"') (hs : s.InValue (quote :: body))
    (hread : QuotedReads quote s.cursor.advance text (s.cursor.advance.skip n))
    (hbody : body.drop n = tail) : s.PassesScalar text false tail := by
  have hadvance : s.cursor.advance.rest = body := by
    rw [rest_advance, hs.rest]
    rfl
  have hquoted : readQuoted quote s.cursor = .ok (text.map .char, s.cursor.advance.skip n) :=
    hread _ (by rw [hadvance, hs.rest]; simp)
  have hcol : s.cursor.column ≠ 0 := by
    have := hs.column
    omega
  refine ⟨quote, body, { s with
      cursor := s.cursor.advance.skip n, tokens := s.tokens ++ [.ofChars text false] },
    hs.rest, ?_, rfl, ⟨hs.keys, hs.indent, hs.indents, Or.inl ⟨?_, hs.allowed⟩⟩⟩
  · rw [token]
    rcases hquote with rfl | rfl <;>
      simp [hcol, content, saveKey_of_not_allowed hs.allowed, bind, Except.bind, hquoted, moveTo,
        emit, hs.allowed, Token.ofChars]
  · rw [rest_skip, hadvance, hbody]

/-- **Every value is passed by one token**, which tells what was written. -/
theorem exists_passesScalar (v : List Char) {s : TokenState} {tail : List Char}
    (hs : s.InValue (reline (writeScalar v) ++ tail)) (htail : EntryEnds tail) :
    ∃ text plain, ScalarRead v text plain ∧ s.PassesScalar text plain tail := by
  have hquote : tail.head? ≠ some '\'' := by
    rcases htail with rfl | ⟨x, next, rfl, -⟩ <;> simp
  cases hstyle : Style.ofText v with
  | plain =>
    have hplain := fitsPlain_of_style hstyle
    rw [writeScalar_plain hstyle, (plainText_of_fitsPlain hplain).reline_eq] at hs
    exact ⟨v, true, scalarRead_plain hstyle, passesScalar_plain hplain hs htail⟩
  | single =>
    have hfits := fitsSingle_of_style hstyle
    simp only [fitsSingle, Bool.and_eq_true, Bool.not_eq_true', List.any_eq_false] at hfits
    obtain ⟨⟨hspecial, hbs⟩, hsb⟩ := hfits
    have hs : s.InValue ('\'' :: (reline (singleBody false v) ++ '\'' :: tail)) := by
      rw [writeScalar_single hstyle] at hs
      simpa [relineChar, isLineBoundary] using hs
    obtain ⟨text, hread, hfeeds, hsame⟩ := readsSingle v (c := s.cursor.advance) tail
      (fun x hx => by simpa using hspecial x hx) hbs hsb (by rw [rest_advance, hs.rest]; rfl) hquote
    refine ⟨text, false, scalarRead_single hstyle hfeeds hsame,
      passesScalar_quoted (Or.inl rfl) hs hread ?_⟩
    rw [← List.singleton_append, ← List.append_assoc]
    exact List.drop_left' (by simp)
  | double =>
    have hs : s.InValue ('"' :: (v.flatMap doubleChar ++ '"' :: tail)) := by
      rw [writeScalar_double hstyle, List.cons_append, reline_cons, reline_append,
        reline_double] at hs
      simpa [relineChar, isLineBoundary] using hs
    have hread := quotedReads_double v (c := s.cursor.advance) tail
      (by rw [rest_advance, hs.rest]; rfl) hquote
    refine ⟨v, false, scalarRead_double hstyle, passesScalar_quoted (Or.inr rfl) hs hread ?_⟩
    rw [← List.singleton_append, ← List.append_assoc]
    exact List.drop_left' (by simp)

end TokenState

end Yaml
end RefPages
