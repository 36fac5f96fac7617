import RefPages.Source.TestBlock

/-!
# Lexemes

Literals and comments are passed over as a whole, whatever stands in them. So source text is cut
into lexemes: literals, comments, and all other characters one by one.

* `Content` is what can stand in a literal before the quote that ends it.
* `Lexeme` is a piece of text; `Lexeme.Fits` says what makes it one in front of what follows, and
  `Lexed` that lexemes can follow one another.
* `lexeme?` reads the lexeme in front of a text, and `lexemes?` cuts a whole text.
* `lexeme?_eq_some_iff` and `lexemes?_eq_some_iff`: **both find exactly what fits.** So a text is
  cut in one way only, and not at all if it ends inside of a literal or a comment.
-/

set_option autoImplicit false
namespace RefPages
namespace Source

/-- Puts a text in front of one that has been read. -/
def appendBody (front : List Char) (result : Option (List Char × List Char)) :
    Option (List Char × List Char) :=
  result.map fun (body, rest) => (front ++ body, rest)

theorem appendBody_eq_some_iff {front : List Char} {result : Option (List Char × List Char)}
    {body rest : List Char} :
    appendBody front result = some (body, rest) ↔
      ∃ tail, body = front ++ tail ∧ result = some (tail, rest) := by
  cases result with
  | none => simp [appendBody]
  | some found =>
    obtain ⟨tail, after⟩ := found
    simp only [appendBody, Option.map_some, Option.some.injEq, Prod.mk.injEq]
    constructor
    · rintro ⟨rfl, rfl⟩
      exact ⟨tail, rfl, rfl, rfl⟩
    · rintro ⟨_, rfl, rfl, rfl⟩
      exact ⟨rfl, rfl⟩

@[simp] theorem appendBody_none (front : List Char) : appendBody front none = none :=
  rfl

@[simp] theorem appendBody_some (front body rest : List Char) :
    appendBody front (some (body, rest)) = some (front ++ body, rest) :=
  rfl

@[simp] theorem appendBody_nil (result : Option (List Char × List Char)) :
    appendBody [] result = result := by
  cases result <;> rfl

@[simp] theorem appendBody_appendBody (first second : List Char)
    (result : Option (List Char × List Char)) :
    appendBody first (appendBody second result) = appendBody (first ++ second) result := by
  cases result <;> simp [appendBody]

theorem bind_appendBody (front tail : List Char) (result : Option (List Char × List Char))
    (read : List Char → Option (List Char × List Char)) :
    (appendBody front result).bind
        (fun (content, after) => appendBody (content ++ tail) (read after))
      = appendBody front
        (result.bind fun (content, after) => appendBody (content ++ tail) (read after)) := by
  cases result with
  | none => rfl
  | some found => simp [appendBody, Function.comp_def]

/-! ## Literals -/

/-- What can stand in a literal before the quote that ends it. A backslash takes the next character
with it if `follows` allows it, except between backticks, where it is a character like others. -/
inductive Content (quote : Char) (follows : Char → Bool) : List Char → Prop where
  | nil : Content quote follows []
  | escape {c : Char} {rest : List Char} : quote ≠ '\x60' → follows c = true →
      Content quote follows rest → Content quote follows ('\\' :: c :: rest)
  | plain {c : Char} {rest : List Char} : c ≠ quote → (c = '\\' → quote = '\x60') →
      Content quote follows rest → Content quote follows (c :: rest)

/-- The content of the literal in front, whose opening quote has been read, and what follows the
quote that ends it. -/
def literalRest? (quote : Char) (follows : Char → Bool) :
    List Char → Option (List Char × List Char)
  | [] => none
  | c :: rest =>
    if c = '\\' ∧ quote ≠ '\x60' then
      match rest with
      | [] => none
      | d :: rest =>
        if follows d then appendBody ['\\', d] (literalRest? quote follows rest) else none
    else if c = quote then some ([], rest)
    else appendBody [c] (literalRest? quote follows rest)

theorem isQuote_cases {quote : Char} (h : isQuote quote = true) :
    quote = '"' ∨ quote = '\'' ∨ quote = '\x60' := by
  simpa [isQuote, or_assoc] using h

theorem ne_backslash_of_isQuote {quote : Char} (h : isQuote quote = true) : quote ≠ '\\' := by
  rcases isQuote_cases h with rfl | rfl | rfl <;> decide

theorem literalRest?_append {quote : Char} {follows : Char → Bool} {content : List Char}
    (hquote : isQuote quote = true) (h : Content quote follows content) (after : List Char) :
    literalRest? quote follows (content ++ quote :: after) = some (content, after) := by
  induction h with
  | nil =>
    rw [List.nil_append, literalRest?.eq_def]
    simp [ne_backslash_of_isQuote hquote]
  | escape hback hfollows _ ih =>
    rw [List.cons_append, List.cons_append, literalRest?.eq_def]
    simp [hback, hfollows, ih]
  | plain hne hback _ ih =>
    rw [List.cons_append, literalRest?.eq_def]
    simp only
    rw [if_neg (fun hc => hc.2 (hback hc.1)), if_neg hne, ih]
    rfl

theorem literalRest?_eq_some_iff {quote : Char} {follows : Char → Bool}
    {cs content after : List Char} (hquote : isQuote quote = true) :
    literalRest? quote follows cs = some (content, after) ↔
      cs = content ++ quote :: after ∧ Content quote follows content := by
  constructor
  · intro h
    fun_induction literalRest? quote follows cs generalizing content with
    | case1 => exact absurd h (by simp)
    | case2 => exact absurd h (by simp)
    | case3 c hc d rest hd ih =>
      obtain ⟨tail, rfl, htail⟩ := appendBody_eq_some_iff.1 h
      obtain ⟨rfl, hcontent⟩ := ih htail
      obtain ⟨rfl, hback⟩ := hc
      exact ⟨rfl, .escape hback hd hcontent⟩
    | case4 => exact absurd h (by simp)
    | case5 rest hback =>
      cases h
      exact ⟨rfl, .nil⟩
    | case6 c rest hback hne ih =>
      obtain ⟨tail, rfl, htail⟩ := appendBody_eq_some_iff.1 h
      obtain ⟨rfl, hcontent⟩ := ih htail
      exact ⟨rfl, .plain hne (fun hc => Decidable.byContradiction fun hq => hback ⟨hc, hq⟩)
        hcontent⟩
  · rintro ⟨rfl, hcontent⟩
    exact literalRest?_append hquote hcontent after

theorem Content.mono {quote : Char} {follows follows' : Char → Bool} {content : List Char}
    (hle : ∀ c, follows c = true → follows' c = true) (h : Content quote follows content) :
    Content quote follows' content := by
  induction h with
  | nil => exact .nil
  | escape hback hc _ ih => exact .escape hback (hle _ hc) ih
  | plain hne hback _ ih => exact .plain hne hback ih

/-! ## Comments -/

/-- What stands in front of the first line feed, and what starts with it. -/
def lineRest? : List Char → Option (List Char × List Char)
  | [] => none
  | c :: rest => if c = '\n' then some ([], c :: rest) else appendBody [c] (lineRest? rest)

theorem lineRest?_append {content after : List Char} (h : '\n' ∉ content)
    (hafter : after.head? = some '\n') : lineRest? (content ++ after) = some (content, after) := by
  induction content with
  | nil =>
    obtain ⟨tail, rfl⟩ := List.head?_eq_some_iff.1 hafter
    rfl
  | cons c rest ih =>
    rw [List.mem_cons, not_or] at h
    obtain ⟨hc, hrest⟩ := h
    rw [List.cons_append, lineRest?, if_neg (Ne.symm hc), ih hrest]
    rfl

theorem lineRest?_eq_some_iff {cs content after : List Char} :
    lineRest? cs = some (content, after) ↔
      cs = content ++ after ∧ '\n' ∉ content ∧ after.head? = some '\n' := by
  constructor
  · intro h
    fun_induction lineRest? cs generalizing content with
    | case1 => exact absurd h (by simp)
    | case2 rest =>
      cases h
      exact ⟨rfl, by simp, rfl⟩
    | case3 c rest hc ih =>
      obtain ⟨tail, rfl, htail⟩ := appendBody_eq_some_iff.1 h
      obtain ⟨rfl, hcontent, hafter⟩ := ih htail
      refine ⟨rfl, fun hmem => ?_, hafter⟩
      rcases List.mem_cons.1 hmem with rfl | hmem
      · exact hc rfl
      · exact hcontent hmem
  · rintro ⟨rfl, hcontent, hafter⟩
    exact lineRest?_append hcontent hafter

/-- What stands in front of the first `*/`, and what follows it. -/
def commentRest? : List Char → Option (List Char × List Char)
  | [] => none
  | '*' :: '/' :: rest => some ([], rest)
  | c :: rest => appendBody [c] (commentRest? rest)

theorem commentRest?_append {content : List Char} (h : ¬ ['*', '/'] <:+: content)
    (after : List Char) :
    commentRest? (content ++ '*' :: '/' :: after) = some (content, after) := by
  induction content with
  | nil => rfl
  | cons c rest ih =>
    have hrest : ¬ ['*', '/'] <:+: rest := fun hin =>
      h (hin.trans (List.suffix_cons c rest).isInfix)
    -- A closer that starts at `c` would lie in the content, since it cannot overlap the real one.
    have hne : ∀ tail, c = '*' → rest ++ '*' :: '/' :: after = '/' :: tail → False := by
      rintro tail rfl htail
      cases rest with
      | nil => exact absurd htail (by simp)
      | cons d rest =>
        obtain ⟨rfl, -⟩ := List.cons.inj htail
        exact h ⟨[], rest, rfl⟩
    rw [List.cons_append, commentRest?.eq_3 c _ hne, ih hrest]
    rfl

theorem commentRest?_eq_some_iff {cs content after : List Char} :
    commentRest? cs = some (content, after) ↔
      cs = content ++ '*' :: '/' :: after ∧ ¬ ['*', '/'] <:+: content := by
  constructor
  · intro h
    fun_induction commentRest? cs generalizing content with
    | case1 => exact absurd h (by simp)
    | case2 rest =>
      cases h
      exact ⟨rfl, by simp⟩
    | case3 c rest hne ih =>
      obtain ⟨tail, rfl, htail⟩ := appendBody_eq_some_iff.1 h
      obtain ⟨rfl, hin⟩ := ih htail
      refine ⟨rfl, fun hinfix => ?_⟩
      rw [List.singleton_append, List.infix_cons_iff] at hinfix
      rcases hinfix with hprefix | hinfix
      · obtain ⟨more, hmore⟩ := hprefix
        obtain ⟨rfl, rfl⟩ := List.cons.inj hmore
        exact hne _ rfl rfl
      · exact hin hinfix
  · rintro ⟨rfl, hin⟩
    exact commentRest?_append hin after

/-! ## Lexemes -/

/-- A piece of source text. -/
inductive Lexeme where
  | literal (quote : Char) (content : List Char)
  | lineComment (content : List Char)
  | blockComment (content : List Char)
  | char (c : Char)
  deriving DecidableEq, Repr

/-- The characters of a lexeme. The line feed that ends a comment is not one of them. -/
def Lexeme.text : Lexeme → List Char
  | .literal quote content => quote :: (content ++ [quote])
  | .lineComment content => '/' :: '/' :: content
  | .blockComment content => '/' :: '*' :: (content ++ ['*', '/'])
  | .char c => [c]

/-- Does a comment start here? -/
def StartsComment (cs : List Char) : Prop :=
  ['/', '/'] <+: cs ∨ ['/', '*'] <+: cs

instance (cs : List Char) : Decidable (StartsComment cs) :=
  inferInstanceAs (Decidable (_ ∨ _))

/-- Can the lexeme be read in front of `after`? A literal ends at its first quote that no backslash
takes, a comment at the first line feed, which has to be there, or at the first `*/`. -/
def Lexeme.Fits (after : List Char) : Lexeme → Prop
  | .literal quote content => isQuote quote = true ∧ Content quote (fun _ => true) content
  | .lineComment content => '\n' ∉ content ∧ after.head? = some '\n'
  | .blockComment content => ¬ ['*', '/'] <:+: content
  | .char c => isQuote c = false ∧ ¬ StartsComment (c :: after)

/-- The lexeme in front and what follows it. -/
def lexeme? : List Char → Option (Lexeme × List Char)
  | [] => none
  | '/' :: '/' :: rest =>
    (lineRest? rest).map fun (content, after) => (.lineComment content, after)
  | '/' :: '*' :: rest =>
    (commentRest? rest).map fun (content, after) => (.blockComment content, after)
  | c :: rest =>
    if isQuote c then
      (literalRest? c (fun _ => true) rest).map fun (content, after) => (.literal c content, after)
    else some (.char c, rest)

theorem startsComment_cons_iff {c : Char} {rest : List Char} :
    StartsComment (c :: rest) ↔ c = '/' ∧ (rest.head? = some '/' ∨ rest.head? = some '*') := by
  cases rest with
  | nil => simp [StartsComment]
  | cons d rest => grind [StartsComment]

/-- In front of all but comments a lexeme starts with its first character. -/
theorem lexeme?_cons {c : Char} {rest : List Char} (h : ¬ StartsComment (c :: rest)) :
    lexeme? (c :: rest) =
      if isQuote c then
        (literalRest? c (fun _ => true) rest).map fun (content, after) =>
          (.literal c content, after)
      else some (.char c, rest) := by
  refine lexeme?.eq_4 c rest (fun tail hc htail => h (.inl ?_)) (fun tail hc htail => h (.inr ?_))
  · exact ⟨tail, by rw [hc, htail]; rfl⟩
  · exact ⟨tail, by rw [hc, htail]; rfl⟩

theorem not_startsComment_of_isQuote {c : Char} {rest : List Char} (h : isQuote c = true) :
    ¬ StartsComment (c :: rest) := by
  rw [startsComment_cons_iff]
  rintro ⟨rfl, -⟩
  exact absurd h (by decide)

theorem lexeme?_text_append {l : Lexeme} {after : List Char} (h : l.Fits after) :
    lexeme? (l.text ++ after) = some (l, after) := by
  cases l with
  | literal quote content =>
    obtain ⟨hquote, hcontent⟩ := h
    have htext : (Lexeme.literal quote content).text ++ after
        = quote :: (content ++ quote :: after) := by simp [Lexeme.text]
    rw [htext, lexeme?_cons (not_startsComment_of_isQuote hquote), if_pos hquote,
      literalRest?_append hquote hcontent]
    rfl
  | lineComment content =>
    obtain ⟨hcontent, hafter⟩ := h
    show lexeme? ('/' :: '/' :: (content ++ after)) = _
    rw [lexeme?, lineRest?_append hcontent hafter]
    rfl
  | blockComment content =>
    have htext : (Lexeme.blockComment content).text ++ after
        = '/' :: '*' :: (content ++ '*' :: '/' :: after) := by simp [Lexeme.text]
    rw [htext, lexeme?, commentRest?_append h]
    rfl
  | char c =>
    obtain ⟨hquote, hcomment⟩ := h
    show lexeme? (c :: after) = _
    rw [lexeme?_cons hcomment, if_neg (by simp [hquote])]

/-- The lexeme in front is the one that fits. -/
theorem lexeme?_eq_some_iff {cs after : List Char} {l : Lexeme} :
    lexeme? cs = some (l, after) ↔ cs = l.text ++ after ∧ l.Fits after := by
  constructor
  · intro h
    fun_cases lexeme? cs with
    | case1 => exact absurd h (by simp [lexeme?])
    | case2 rest =>
      simp only [lexeme?, Option.map_eq_some_iff, Prod.exists, Prod.mk.injEq] at h
      obtain ⟨content, tail, hcontent, rfl, rfl⟩ := h
      obtain ⟨rfl, hin, hafter⟩ := lineRest?_eq_some_iff.1 hcontent
      exact ⟨rfl, hin, hafter⟩
    | case3 rest =>
      simp only [lexeme?, Option.map_eq_some_iff, Prod.exists, Prod.mk.injEq] at h
      obtain ⟨content, tail, hcontent, rfl, rfl⟩ := h
      obtain ⟨rfl, hin⟩ := commentRest?_eq_some_iff.1 hcontent
      exact ⟨by simp [Lexeme.text], hin⟩
    | case4 c rest hline hblock hquote =>
      rw [lexeme?_cons (not_startsComment_of_isQuote hquote), if_pos hquote] at h
      simp only [Option.map_eq_some_iff, Prod.exists, Prod.mk.injEq] at h
      obtain ⟨content, tail, hcontent, rfl, rfl⟩ := h
      obtain ⟨rfl, hin⟩ := (literalRest?_eq_some_iff hquote).1 hcontent
      exact ⟨by simp [Lexeme.text], hquote, hin⟩
    | case5 c rest hline hblock hquote =>
      have hcomment : ¬ StartsComment (c :: rest) := by
        rintro (⟨tail, htail⟩ | ⟨tail, htail⟩)
        · obtain ⟨rfl, rfl⟩ := List.cons.inj htail
          exact hline tail rfl rfl
        · obtain ⟨rfl, rfl⟩ := List.cons.inj htail
          exact hblock tail rfl rfl
      rw [lexeme?_cons hcomment, if_neg hquote] at h
      cases h
      exact ⟨rfl, by simpa using hquote, hcomment⟩
  · rintro ⟨rfl, hfits⟩
    exact lexeme?_text_append hfits

theorem Lexeme.text_ne_nil (l : Lexeme) : l.text ≠ [] := by
  cases l <;> simp [Lexeme.text]

theorem length_of_lexeme? {cs after : List Char} {l : Lexeme} (h : lexeme? cs = some (l, after)) :
    after.length < cs.length := by
  have hpos := List.length_pos_iff.2 l.text_ne_nil
  rw [(lexeme?_eq_some_iff.1 h).1, List.length_append]
  omega

/-! ## Whole texts -/

/-- The characters of lexemes. -/
def textOf (lexemes : List Lexeme) : List Char :=
  lexemes.flatMap Lexeme.text

@[simp] theorem textOf_nil : textOf [] = [] :=
  rfl

@[simp] theorem textOf_cons (l : Lexeme) (lexemes : List Lexeme) :
    textOf (l :: lexemes) = l.text ++ textOf lexemes :=
  rfl

@[simp] theorem textOf_append (first second : List Lexeme) :
    textOf (first ++ second) = textOf first ++ textOf second :=
  List.flatMap_append

/-- Can the lexemes follow one another? -/
def Lexed : List Lexeme → Prop
  | [] => True
  | l :: rest => l.Fits (textOf rest) ∧ Lexed rest

theorem lexed_cons {l : Lexeme} {rest : List Lexeme} :
    Lexed (l :: rest) ↔ l.Fits (textOf rest) ∧ Lexed rest :=
  Iff.rfl

theorem Lexed.of_append {first second : List Lexeme} (h : Lexed (first ++ second)) :
    Lexed second := by
  induction first with
  | nil => exact h
  | cons l rest ih => exact ih h.2

/-- The lexemes of a text; nothing if it ends inside of one. -/
def lexemes? (cs : List Char) : Option (List Lexeme) :=
  if cs = [] then some []
  else
    match _h : lexeme? cs with
    | none => none
    | some (l, after) => (lexemes? after).map (l :: ·)
termination_by cs.length
decreasing_by exact length_of_lexeme? _h

/-- The lexemes of a text are those that can follow one another and make up the text. -/
theorem lexemes?_eq_some_iff {cs : List Char} {lexemes : List Lexeme} :
    lexemes? cs = some lexemes ↔ cs = textOf lexemes ∧ Lexed lexemes := by
  constructor
  · intro h
    fun_induction lexemes? cs generalizing lexemes with
    | case1 =>
      cases h
      exact ⟨rfl, trivial⟩
    | case2 => exact absurd h (by simp)
    | case3 cs hne l after hlexeme ih =>
      obtain ⟨rest, hrest, rfl⟩ := Option.map_eq_some_iff.1 h
      obtain ⟨rfl, hlexed⟩ := ih hrest
      obtain ⟨rfl, hfits⟩ := lexeme?_eq_some_iff.1 hlexeme
      exact ⟨rfl, hfits, hlexed⟩
  · rintro ⟨rfl, hlexed⟩
    induction lexemes with
    | nil =>
      rw [lexemes?]
      rfl
    | cons l rest ih =>
      obtain ⟨hfits, hrest⟩ := hlexed
      have hne : textOf (l :: rest) ≠ [] := by simp [l.text_ne_nil]
      rw [lexemes?, if_neg hne]
      split
      · rename_i hnone
        rw [textOf_cons, lexeme?_text_append hfits] at hnone
        exact absurd hnone (by simp)
      · rename_i l' after hsome
        rw [textOf_cons, lexeme?_text_append hfits] at hsome
        cases hsome
        rw [ih hrest]
        rfl

/-- A text after which a lexeme can be read as if it were the last one: it does not go on with a
line feed or with something that makes a comment of a slash. -/
def Parts (after : List Char) : Prop :=
  ∀ c, after.head? = some c → c ≠ '\n' ∧ c ≠ '/' ∧ c ≠ '*'

theorem Lexeme.fits_append_iff {l : Lexeme} {between after : List Char} (h : Parts after) :
    l.Fits (between ++ after) ↔ l.Fits between := by
  cases between with
  | cons c rest => cases l <;> simp [Lexeme.Fits, startsComment_cons_iff]
  | nil =>
    cases after with
    | nil => rfl
    | cons c rest =>
      obtain ⟨h1, h2, h3⟩ := h c rfl
      cases l <;> simp [Lexeme.Fits, startsComment_cons_iff, h1, h2, h3]

/-- Lexemes can be followed by what parts from them. -/
theorem Lexed.append {first second : List Lexeme} (hfirst : Lexed first) (hsecond : Lexed second)
    (hparts : Parts (textOf second)) : Lexed (first ++ second) := by
  induction first with
  | nil => exact hsecond
  | cons l rest ih =>
    refine ⟨?_, ih hfirst.2⟩
    show l.Fits (textOf (rest ++ second))
    rw [textOf_append, Lexeme.fits_append_iff hparts]
    exact hfirst.1

/-- Characters that can open neither a literal nor a comment can stand in front. -/
theorem lexed_map_char_append {chars : List Char} {lexemes : List Lexeme}
    (hchars : chars.all (fun c => !isQuote c && c != '/') = true) (h : Lexed lexemes) :
    Lexed (chars.map .char ++ lexemes) := by
  induction chars with
  | nil => exact h
  | cons c rest ih =>
    rw [List.all_cons, Bool.and_eq_true, Bool.and_eq_true, Bool.not_eq_true', bne_iff_ne] at hchars
    obtain ⟨⟨hquote, hslash⟩, hrest⟩ := hchars
    refine ⟨⟨hquote, fun hcomment => ?_⟩, ih hrest⟩
    exact hslash (startsComment_cons_iff.1 hcomment).1

end Source
end RefPages
