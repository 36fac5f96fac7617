import RefPages.Proofs.Source.Nesting

/-!
# The body of a block

`closeBlock?` reads a body character by character, with a count of the braces that are open. Its
grammar is simpler: a body is a list of lexemes in which the braces are balanced.

* `closeBlock?_text_append` is one step of the scanner over a whole lexeme.
* `closeBlock?_textOf_append`: a balanced text is read through, whatever is open around it.
* `exists_lexemes_of_closeBlock?`: what is read consists of lexemes that close what is open.
* `IsBody` is the grammar, and `blockBody` is the scanner on a text from a position on.
* `blockBody_grammar`: **the scanner finds the one body in front of a closing brace, if there is
  one.**
-/

set_option autoImplicit false
namespace RefPages
namespace Source

/-! ## One lexeme -/

theorem consBody_eq_appendBody (c : Char) (result : Option (List Char × List Char)) :
    consBody c result = appendBody [c] result :=
  rfl

theorem closeBlock?_literal (quote : Char) (depth : Nat) (cs : List Char) :
    closeBlock? (.literal quote) depth cs =
      (literalRest? quote (fun _ => true) cs).bind fun (content, after) =>
        appendBody (content ++ [quote]) (closeBlock? .code depth after) := by
  fun_induction literalRest? quote (fun _ => true) cs with
  | case1 => rfl
  | case2 c hc =>
    rw [closeBlock?, if_pos hc]
    rfl
  | case3 c hc d rest _ ih =>
    rw [closeBlock?, if_pos hc, closeBlock?, ih, hc.1, bind_appendBody]
    simp [consBody_eq_appendBody]
  | case4 c hc d rest hfalse => exact absurd rfl hfalse
  | case5 rest hback =>
    rw [closeBlock?, if_neg hback, if_pos rfl]
    rfl
  | case6 c rest hback hne ih =>
    rw [closeBlock?, if_neg hback, if_neg hne, ih, bind_appendBody]
    rfl

theorem closeBlock?_blockComment (depth : Nat) (cs : List Char) :
    closeBlock? .blockComment depth cs =
      (commentRest? cs).bind fun (content, after) =>
        appendBody (content ++ ['*', '/']) (closeBlock? .code depth after) := by
  fun_induction commentRest? cs with
  | case1 => rfl
  | case2 rest => simp [closeBlock?, consBody_eq_appendBody]
  | case3 c rest hne ih =>
    rw [closeBlock?.eq_10 depth c rest hne, ih, bind_appendBody]
    rfl

theorem closeBlock?_cons {c : Char} {rest : List Char} (h : ¬ StartsComment (c :: rest))
    (depth : Nat) :
    closeBlock? .code depth (c :: rest) =
      if isQuote c then appendBody [c] (closeBlock? (.literal c) depth rest)
      else if c = '\x7b' then appendBody [c] (closeBlock? .code (depth + 1) rest)
      else if c = '\x7d' then
        match depth with
        | 0 => some ([], rest)
        | depth + 1 => appendBody [c] (closeBlock? .code depth rest)
      else appendBody [c] (closeBlock? .code depth rest) := by
  have hline : ∀ tail, c = '/' → rest = '/' :: tail → False := by
    rintro tail rfl rfl
    exact h (.inl ⟨tail, rfl⟩)
  have hblock : ∀ tail, c = '/' → rest = '*' :: tail → False := by
    rintro tail rfl rfl
    exact h (.inr ⟨tail, rfl⟩)
  cases depth with
  | zero => exact closeBlock?.eq_4 c rest hline hblock
  | succ depth => exact closeBlock?.eq_5 c rest depth hline hblock

theorem closeBlock?_lineComment (depth : Nat) (cs : List Char) :
    closeBlock? .lineComment depth cs =
      (lineRest? cs).bind fun (content, after) =>
        appendBody content (closeBlock? .code depth after) := by
  fun_induction lineRest? cs with
  | case1 => rfl
  | case2 rest =>
    have hcomment : ¬ StartsComment ('\n' :: rest) := by simp [startsComment_cons_iff]
    show _ = appendBody [] (closeBlock? .code depth ('\n' :: rest))
    rw [closeBlock?, if_pos rfl, appendBody_nil, closeBlock?_cons hcomment]
    rfl
  | case3 c rest hc ih =>
    rw [closeBlock?, if_neg hc, ih]
    cases lineRest? rest <;> simp [appendBody, consBody, Function.comp_def]

/-- A lexeme that is no brace is read through. -/
theorem closeBlock?_text_append {l : Lexeme} {after : List Char} (hfits : l.Fits after)
    (hopen : l ≠ .char '\x7b') (hclose : l ≠ .char '\x7d') (depth : Nat) :
    closeBlock? .code depth (l.text ++ after) =
      appendBody l.text (closeBlock? .code depth after) := by
  cases l with
  | literal quote content =>
    obtain ⟨hquote, hcontent⟩ := hfits
    have htext : (Lexeme.literal quote content).text ++ after
        = quote :: (content ++ quote :: after) := by simp [Lexeme.text]
    rw [htext, closeBlock?_cons (not_startsComment_of_isQuote hquote), if_pos hquote,
      closeBlock?_literal, literalRest?_append hquote hcontent]
    simp [Lexeme.text]
  | lineComment content =>
    obtain ⟨hcontent, hafter⟩ := hfits
    show closeBlock? .code depth ('/' :: '/' :: (content ++ after)) = _
    rw [closeBlock?, closeBlock?_lineComment, lineRest?_append hcontent hafter]
    simp [Lexeme.text, consBody_eq_appendBody]
  | blockComment content =>
    have htext : (Lexeme.blockComment content).text ++ after
        = '/' :: '*' :: (content ++ '*' :: '/' :: after) := by simp [Lexeme.text]
    rw [htext, closeBlock?, closeBlock?_blockComment, commentRest?_append hfits]
    simp [Lexeme.text, consBody_eq_appendBody]
  | char c =>
    obtain ⟨hquote, hcomment⟩ := hfits
    show closeBlock? .code depth (c :: after) = _
    rw [closeBlock?_cons hcomment, if_neg (by simp [hquote]), if_neg (by simpa using hopen),
      if_neg (by simpa using hclose)]
    rfl

theorem closeBlock?_opened (depth : Nat) (after : List Char) :
    closeBlock? .code depth ('\x7b' :: after) =
      appendBody ['\x7b'] (closeBlock? .code (depth + 1) after) := by
  have hcomment : ¬ StartsComment ('\x7b' :: after) := by simp [startsComment_cons_iff]
  rw [closeBlock?_cons hcomment]
  rfl

theorem closeBlock?_closed (depth : Nat) (after : List Char) :
    closeBlock? .code depth ('\x7d' :: after) =
      match depth with
      | 0 => some ([], after)
      | depth + 1 => appendBody ['\x7d'] (closeBlock? .code depth after) := by
  have hcomment : ¬ StartsComment ('\x7d' :: after) := by simp [startsComment_cons_iff]
  rw [closeBlock?_cons hcomment]
  rfl

/-- No block is closed after a literal or a comment that is left open. -/
theorem closeBlock?_eq_none {cs : List Char} (h : lexeme? cs = none) (depth : Nat) :
    closeBlock? .code depth cs = none := by
  fun_cases lexeme? cs with
  | case1 => rfl
  | case2 rest =>
    rw [lexeme?, Option.map_eq_none_iff] at h
    rw [closeBlock?, closeBlock?_lineComment, h]
    rfl
  | case3 rest =>
    rw [lexeme?, Option.map_eq_none_iff] at h
    rw [closeBlock?, closeBlock?_blockComment, h]
    rfl
  | case4 c rest hline hblock hquote =>
    have hcomment : ¬ StartsComment (c :: rest) := not_startsComment_of_isQuote hquote
    rw [lexeme?_cons hcomment, if_pos hquote, Option.map_eq_none_iff] at h
    rw [closeBlock?_cons hcomment, if_pos hquote, closeBlock?_literal, h]
    rfl
  | case5 c rest hline hblock hquote =>
    rw [lexeme?.eq_4 c rest hline hblock, if_neg hquote] at h
    exact absurd h (by simp)

/-! ## Bodies -/

/-- The brackets that make blocks. -/
def braces : List (Char × Char) :=
  [('\x7b', '\x7d')]

theorem eq_of_closerOf?_braces {l : Lexeme} {c : Char} (h : closerOf? braces l = some c) :
    l = .char '\x7b' ∧ c = '\x7d' := by
  cases l with
  | char d =>
    simp only [closerOf?, braces, List.lookup_cons, List.lookup_nil] at h
    grind
  | _ => exact absurd h (by simp [closerOf?])

theorem ne_brace_iff {l : Lexeme} :
    closerOf? braces l = none ∧ isCloser braces l = false ↔
      l ≠ .char '\x7b' ∧ l ≠ .char '\x7d' := by
  cases l with
  | char d => grind [closerOf?, isCloser, braces]
  | _ => simp [closerOf?, isCloser]

theorem parts_closer (rest : List Char) : Parts ('\x7d' :: rest) := by
  rintro c ⟨⟩
  decide

/-- A balanced text is read through, whatever is open around it. -/
theorem closeBlock?_textOf_append {lexemes more : List Lexeme} {tail : List Char}
    (hbalanced : Balanced braces lexemes) (hlexed : Lexed (lexemes ++ more)) (htail : Parts tail)
    (depth : Nat) :
    closeBlock? .code depth (textOf lexemes ++ (textOf more ++ tail)) =
      appendBody (textOf lexemes) (closeBlock? .code depth (textOf more ++ tail)) := by
  induction hbalanced generalizing depth more with
  | nil => simp
  | @plain l rest hopen hclose _ ih =>
    rw [List.cons_append, lexed_cons] at hlexed
    obtain ⟨hfits, hrest⟩ := hlexed
    obtain ⟨hl, hl'⟩ := ne_brace_iff.1 ⟨hopen, hclose⟩
    rw [← Lexeme.fits_append_iff htail, textOf_append, List.append_assoc] at hfits
    rw [textOf_cons, List.append_assoc, closeBlock?_text_append hfits hl hl', ih hrest,
      appendBody_appendBody]
  | @nest l c inner rest hopen _ _ ihinner ihrest =>
    obtain ⟨rfl, rfl⟩ := eq_of_closerOf?_braces hopen
    rw [List.cons_append, lexed_cons, List.append_assoc, List.cons_append] at hlexed
    obtain ⟨-, hlexed⟩ := hlexed
    have hrest : Lexed (rest ++ more) := hlexed.of_append.2
    have htext : textOf (.char '\x7b' :: (inner ++ .char '\x7d' :: rest)) ++ (textOf more ++ tail)
        = '\x7b' :: (textOf inner ++ (textOf (.char '\x7d' :: (rest ++ more)) ++ tail)) := by
      simp [Lexeme.text]
    have hclosed : textOf (.char '\x7d' :: (rest ++ more)) ++ tail
        = '\x7d' :: (textOf rest ++ (textOf more ++ tail)) := by simp [Lexeme.text]
    rw [htext, closeBlock?_opened, ihinner hlexed, hclosed, closeBlock?_closed]
    simp only
    rw [ihrest hrest]
    simp [Lexeme.text]

/-- What is read consists of lexemes that close what is open. -/
theorem exists_lexemes_of_closeBlock? {depth : Nat} {cs body rest : List Char}
    (h : closeBlock? .code depth cs = some (body, rest)) :
    ∃ lexemes, body = textOf lexemes ∧ Lexed lexemes
      ∧ Closing braces (List.replicate depth '\x7d') lexemes := by
  -- The induction is on the length of the text, since a step reads a whole lexeme.
  induction hn : cs.length using Nat.strongRecOn generalizing depth cs body with
  | ind n ih =>
    subst hn
    cases hlexeme : lexeme? cs with
    | none =>
      rw [closeBlock?_eq_none hlexeme] at h
      exact absurd h (by simp)
    | some found =>
      obtain ⟨l, after⟩ := found
      have hlt := length_of_lexeme? hlexeme
      obtain ⟨rfl, hfits⟩ := lexeme?_eq_some_iff.1 hlexeme
      -- What is read after `l` gives lexemes that `l` fits in front of.
      have hstep : ∀ {depth tail}, closeBlock? .code depth after = some (tail, rest) →
          ∃ lexemes, tail = textOf lexemes ∧ Lexed (l :: lexemes)
            ∧ Closing braces (List.replicate depth '\x7d') lexemes := by
        intro depth tail htail
        obtain ⟨lexemes, rfl, hlexed, hclosing⟩ := ih _ hlt htail rfl
        rw [eq_append_of_closeBlock? htail, Lexeme.fits_append_iff (parts_closer rest)] at hfits
        exact ⟨lexemes, rfl, ⟨hfits, hlexed⟩, hclosing⟩
      by_cases hopen : l = .char '\x7b'
      · subst hopen
        rw [Lexeme.text, List.singleton_append, closeBlock?_opened] at h
        obtain ⟨tail, rfl, htail⟩ := appendBody_eq_some_iff.1 h
        obtain ⟨lexemes, rfl, hlexed, hclosing⟩ := hstep htail
        exact ⟨_ :: lexemes, rfl, hlexed, Closing.opened rfl hclosing⟩
      by_cases hclose : l = .char '\x7d'
      · subst hclose
        rw [Lexeme.text, List.singleton_append, closeBlock?_closed] at h
        cases depth with
        | zero =>
          cases h
          exact ⟨[], rfl, trivial, .nil⟩
        | succ depth =>
          obtain ⟨tail, rfl, htail⟩ := appendBody_eq_some_iff.1 h
          obtain ⟨lexemes, rfl, hlexed, hclosing⟩ := hstep htail
          exact ⟨_ :: lexemes, rfl, hlexed, hclosing.closed _⟩
      · rw [closeBlock?_text_append hfits hopen hclose] at h
        obtain ⟨tail, rfl, htail⟩ := appendBody_eq_some_iff.1 h
        obtain ⟨lexemes, rfl, hlexed, hclosing⟩ := hstep htail
        obtain ⟨hplain, hplain'⟩ := ne_brace_iff.2 ⟨hopen, hclose⟩
        exact ⟨_ :: lexemes, rfl, hlexed, hclosing.plain hplain hplain'⟩

/-- A body: literals, comments and other characters that are no braces, and bodies in braces. -/
def IsBody (body : List Char) : Prop :=
  ∃ lexemes, body = textOf lexemes ∧ Lexed lexemes ∧ Balanced braces lexemes

theorem closeBlock?_eq_some_iff {cs body rest : List Char} :
    closeBlock? .code 0 cs = some (body, rest) ↔ cs = body ++ '\x7d' :: rest ∧ IsBody body := by
  constructor
  · intro h
    exact ⟨eq_append_of_closeBlock? h, exists_lexemes_of_closeBlock? h⟩
  · rintro ⟨rfl, lexemes, rfl, hlexed, hbalanced⟩
    have hlexed' : Lexed (lexemes ++ []) := by rwa [List.append_nil]
    have := closeBlock?_textOf_append hbalanced hlexed' (parts_closer rest) 0
    rw [textOf_nil, List.nil_append, closeBlock?_closed] at this
    rw [this]
    simp

/-! ## Blocks in a text -/

/-- The body of the block opened just before a position of the text and the position after the brace
that closes it; without such a brace, no body and the end of the text. -/
def blockBody (text : List Char) (start : Nat) : Option (List Char) × Nat :=
  match closeBlock? .code 0 (text.drop start) with
  | some (body, rest) => (some body, text.length - rest.length)
  | none => (none, text.length)

theorem blockBody_eq_some_iff {text body : List Char} {start stop : Nat} :
    blockBody text start = (some body, stop) ↔
      IsBody body ∧ body ++ ['\x7d'] <+: text.drop start ∧ stop = start + body.length + 1 := by
  have hlength := List.length_drop (i := start) (l := text)
  rw [blockBody]
  constructor
  · intro h
    split at h
    · rename_i found rest hfound
      cases h
      obtain ⟨htext, hbody⟩ := closeBlock?_eq_some_iff.1 hfound
      refine ⟨hbody, ⟨rest, by simp [htext]⟩, ?_⟩
      simp only [htext, List.length_append, List.length_cons] at hlength
      omega
    · exact absurd h (by simp)
  · rintro ⟨hbody, ⟨rest, htext⟩, rfl⟩
    rw [List.append_assoc, List.singleton_append] at htext
    rw [closeBlock?_eq_some_iff.2 ⟨htext.symm, hbody⟩]
    simp only [← htext, List.length_append, List.length_cons] at hlength
    simp only [Prod.mk.injEq, true_and]
    omega

theorem blockBody_eq_none_iff {text : List Char} {start : Nat} :
    blockBody text start = (none, text.length) ↔
      ∀ body, IsBody body → ¬ body ++ ['\x7d'] <+: text.drop start := by
  constructor
  · intro h body hbody hprefix
    have := blockBody_eq_some_iff.2 ⟨hbody, hprefix, rfl⟩
    rw [h] at this
    exact absurd this (by simp)
  · intro h
    rw [blockBody]
    split
    · rename_i body rest hfound
      obtain ⟨htext, hbody⟩ := closeBlock?_eq_some_iff.1 hfound
      exact absurd ⟨rest, by simp [htext]⟩ (h body hbody)
    · rfl

/-- **Where a block ends.** From any position on there is one body at most that a closing brace
follows. If there is one, the scanner gives it, with the position after the brace, which lies inside
of the text and behind the start. Otherwise it gives none, and the end of the text. -/
theorem blockBody_grammar (text : List Char) (start : Nat) :
    (∀ body stop, blockBody text start = (some body, stop) ↔
      IsBody body ∧ body ++ ['\x7d'] <+: text.drop start ∧ stop = start + body.length + 1)
    ∧ (∀ body stop, blockBody text start = (some body, stop) →
      start < stop ∧ stop ≤ text.length
        ∧ ∀ other, IsBody other → other ++ ['\x7d'] <+: text.drop start → other = body)
    ∧ (blockBody text start = (none, text.length) ↔
      ∀ body, IsBody body → ¬ body ++ ['\x7d'] <+: text.drop start)
    ∧ ((blockBody text start).1 = none → blockBody text start = (none, text.length)) := by
  refine ⟨fun body stop => blockBody_eq_some_iff, fun body stop h => ?_, blockBody_eq_none_iff,
    fun h => ?_⟩
  · obtain ⟨-, hprefix, rfl⟩ := blockBody_eq_some_iff.1 h
    have hlength := hprefix.length_le
    rw [List.length_append, List.length_singleton, List.length_drop] at hlength
    refine ⟨by omega, by omega, fun other hother hprefix' => ?_⟩
    have := blockBody_eq_some_iff.2 ⟨hother, hprefix', rfl⟩
    rw [h] at this
    exact (Option.some.inj (Prod.mk.inj this).1).symm
  · rw [blockBody] at h ⊢
    split at h
    · exact absurd h (by simp)
    · rfl

end Source
end RefPages
