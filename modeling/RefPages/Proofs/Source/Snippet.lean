import RefPages.Proofs.Source.Expectation
import RefPages.Proofs.Source.Nesting

/-!
# Statements that are found, read as source text

Statements are found by tokens, which know literals between double quotes only and no brackets.
Blocks are read by lexemes, which know all literals and comments. This file says what a statement
that is found looks like to a reader of the second kind.

* `IsWhole` is a statement in which the parenthesis of the call is closed by its counterpart, with a
  chain after it.
* `EndsInside`, `Unbalanced` and `Bare` are the ways in which it can fall short.
* `readsAs_of_unmarked`: the two ways of reading agree if no character among the tokens opens a
  literal or a comment.
* `captured_isWhole_iff`: **a statement that is found is whole exactly if it has none of the three
  flaws.** All of them occur.
-/

set_option autoImplicit false
namespace RefPages
namespace Source

open Text

/-- The brackets of source text. -/
def brackets : List (Char × Char) :=
  [('(', ')'), ('[', ']'), ('\x7b', '\x7d')]

theorem unambiguous_brackets : Unambiguous brackets := by
  simp [Unambiguous, brackets]

/-- Is it neither white space nor a comment? -/
def Lexeme.shows : Lexeme → Bool
  | .literal _ _ => true
  | .char c => !isBlank c
  | _ => false

/-- The beginning of a call. -/
def entry : List Lexeme :=
  "expect(".toList.map .char

/-- Read as source text, the call is `expect(`, some lexemes, and a semicolon that is one of its
own. -/
def ReadsAs (call : List Char) (lexemes : List Lexeme) : Prop :=
  lexemes? call = some (entry ++ (lexemes ++ [.char ';']))

/-- A whole statement: the arguments are balanced, so that the parenthesis after them closes the
call, and so is the chain after it, which shows something. -/
def IsWhole (call : List Char) : Prop :=
  ∃ args chain, ReadsAs call (args ++ .char ')' :: chain) ∧ Balanced brackets args
    ∧ Balanced brackets chain ∧ ∃ l ∈ chain, l.shows = true

/-! ## Flaws -/

/-- The semicolon belongs to a literal or a comment, or one of these is left open. -/
def EndsInside (call : List Char) : Prop :=
  ∀ lexemes, ¬ ReadsAs call lexemes

/-- The brackets of the call do not close. -/
def Unbalanced (call : List Char) : Prop :=
  ∃ lexemes, ReadsAs call lexemes ∧ ¬ Closing brackets [')'] lexemes

/-- Nothing but white space and comments stands after the call. -/
def Bare (call : List Char) : Prop :=
  ∃ args gap, ReadsAs call (args ++ .char ')' :: gap) ∧ Balanced brackets args
    ∧ ∀ l ∈ gap, l.shows = false

theorem ReadsAs.unique {call : List Char} {first second : List Lexeme} (h : ReadsAs call first)
    (h' : ReadsAs call second) : first = second := by
  have heq := Option.some.inj (h.symm.trans h')
  exact List.append_cancel_right (List.append_cancel_left heq)

/-- The parenthesis that closes the call is determined by its arguments being balanced. -/
theorem eq_of_append_parenthesis {args args' chain chain' : List Lexeme}
    (hargs : Balanced brackets args) (hargs' : Balanced brackets args')
    (h : args ++ .char ')' :: chain = args' ++ .char ')' :: chain') :
    args = args' ∧ chain = chain' :=
  hargs.eq_of_append_closer unambiguous_brackets (by decide) hargs' h

theorem isWhole_iff {call : List Char} :
    IsWhole call ↔ ¬ EndsInside call ∧ ¬ Unbalanced call ∧ ¬ Bare call := by
  constructor
  · rintro ⟨args, chain, hread, hargs, hchain, l, hl, hshows⟩
    refine ⟨fun hends => hends _ hread, ?_, ?_⟩
    · rintro ⟨lexemes, hread', hnot⟩
      rw [← hread.unique hread'] at hnot
      exact hnot ⟨args, chain, rfl, hargs, hchain⟩
    · rintro ⟨args', gap, hread', hargs', hgap⟩
      obtain ⟨-, rfl⟩ := eq_of_append_parenthesis hargs hargs' (hread.unique hread')
      exact absurd hshows (by simp [hgap l hl])
  · rintro ⟨hends, hbalanced, hbare⟩
    obtain ⟨lexemes, hread⟩ : ∃ lexemes, ReadsAs call lexemes :=
      Classical.byContradiction fun hnone => hends fun lexemes hread => hnone ⟨lexemes, hread⟩
    have hclosing : Closing brackets [')'] lexemes :=
      Classical.byContradiction fun hnot => hbalanced ⟨lexemes, hread, hnot⟩
    obtain ⟨args, chain, rfl, hargs, hchain⟩ := hclosing
    refine ⟨args, chain, hread, hargs, hchain, ?_⟩
    have hnot : ¬ ∀ l ∈ chain, l.shows = false := fun hgap =>
      hbare ⟨args, chain, hread, hargs, hgap⟩
    simpa using hnot

/-! ## Where the two ways of reading agree -/

/-- No character among the tokens opens a literal or a comment. -/
def Unmarked (tokens : List Lexeme) : Prop :=
  ∀ front c back, tokens = front ++ .char c :: back →
    isQuote c = false ∧ ¬ StartsComment (c :: textOf back)

theorem Unmarked.of_cons {l : Lexeme} {rest : List Lexeme} (h : Unmarked (l :: rest)) :
    Unmarked rest :=
  fun front c back heq => h (l :: front) c back (by rw [heq]; rfl)

theorem lexed_of_unmarked {tokens : List Lexeme} (htokens : ∀ l ∈ tokens, IsToken l)
    (h : Unmarked tokens) : Lexed tokens := by
  induction tokens with
  | nil => trivial
  | cons l rest ih =>
    obtain ⟨hl, hrest⟩ := List.forall_mem_cons.1 htokens
    refine ⟨?_, ih hrest h.of_cons⟩
    cases l with
    | literal quote content =>
      obtain ⟨rfl, hcontent⟩ := hl
      exact ⟨by decide, hcontent.mono fun _ _ => rfl⟩
    | char c => exact h [] c rest rfl
    | lineComment _ => exact hl.elim
    | blockComment _ => exact hl.elim

theorem readsAs_of_unmarked {tokens : List Lexeme} (htokens : ∀ l ∈ tokens, IsToken l)
    (h : Unmarked tokens) : ReadsAs ("expect(".toList ++ (textOf tokens ++ [';'])) tokens := by
  have hsemicolon : Lexed [.char ';'] :=
    @lexed_map_char_append [';'] [] (by decide) trivial
  have hparts : Parts (textOf [.char ';']) := by
    rintro c ⟨⟩
    decide
  refine lexemes?_eq_some_iff.2 ⟨?_, ?_⟩
  · rw [textOf_append, textOf_append]
    rfl
  · exact lexed_map_char_append (by decide)
      ((lexed_of_unmarked htokens h).append hsemicolon hparts)

/-! ## Statements that are found -/

/-- The statements that are found in the blocks of tests of a text. -/
def captured (text : String) : List (List Char) :=
  (labelledTests text).flatMap fun (_, body) => expectations false body.toList

/-- A call without anything after it has a closing parenthesis among its arguments. -/
theorem mem_of_chains {tokens : List Lexeme} {args : List Char} (h : Chains tokens)
    (htext : textOf tokens = args ++ [')']) : ')' ∈ args := by
  obtain ⟨front, next, back, rfl⟩ := h
  have hne : next.text ++ textOf back ≠ [] := by simp [next.text_ne_nil]
  have hsplit : textOf (front ++ .char ')' :: next :: back) =
      (textOf front ++ ')' :: (next.text ++ textOf back).dropLast)
        ++ [(next.text ++ textOf back).getLast hne] := by
    rw [List.append_assoc, List.cons_append, List.dropLast_concat_getLast]
    simp [Lexeme.text]
  obtain ⟨hargs, -⟩ := List.append_inj' (hsplit.symm.trans htext) rfl
  rw [← hargs]
  simp

/-- **Statements that are found** begin with a call of `expect` and end in a semicolon, with tokens
in between. One is whole exactly if its semicolon is outside of literals and comments, its brackets
close, and something is chained to the call. The first cannot fail, and the tokens alone decide, if
no character among them opens a literal or a comment. A call with no closing parenthesis among its
arguments is not found without a chain. -/
theorem captured_isWhole_iff {text : String} {call : List Char} (hcall : call ∈ captured text) :
    ∃ tokens, (∀ l ∈ tokens, IsToken l) ∧ call = "expect(".toList ++ (textOf tokens ++ [';'])
      ∧ (IsWhole call ↔ ¬ EndsInside call ∧ ¬ Unbalanced call ∧ ¬ Bare call)
      ∧ (Unmarked tokens → ¬ EndsInside call
          ∧ (IsWhole call ↔ ∃ args chain, tokens = args ++ .char ')' :: chain
            ∧ Balanced brackets args ∧ Balanced brackets chain ∧ ∃ l ∈ chain, l.shows = true))
      ∧ ∀ args, call = "expect(".toList ++ (args ++ ");".toList) → ')' ∈ args := by
  obtain ⟨⟨label, body⟩, -, hbody⟩ := List.mem_flatMap.1 hcall
  obtain ⟨tokens, htokens, hchains, rfl⟩ := exists_tokens_of_mem_expectations hbody
  refine ⟨tokens, htokens, rfl, isWhole_iff, fun hunmarked => ?_, fun args hargs => ?_⟩
  · have hread := readsAs_of_unmarked htokens hunmarked
    refine ⟨fun hends => hends _ hread, ?_⟩
    constructor
    · rintro ⟨args, chain, hread', hwhole⟩
      exact ⟨args, chain, hread.unique hread', hwhole⟩
    · rintro ⟨args, chain, rfl, hwhole⟩
      exact ⟨args, chain, hread, hwhole⟩
  · refine mem_of_chains hchains ?_
    have hinside := List.append_cancel_left hargs
    exact List.append_cancel_right (hinside.trans (List.append_assoc args [')'] [';']).symm)

/-- A nested call closes a parenthesis, and so a call with nothing chained to it is found. -/
theorem captured_isWhole_iff_nestedCall :
    "expect(f(1));".toList ∈ captured "@(\"t\") unittest \x7b expect(f(1)); \x7d"
      ∧ Bare "expect(f(1));".toList ∧ ¬ IsWhole "expect(f(1));".toList := by
  have hcall : "expect(f(1));".toList ∈ captured "@(\"t\") unittest \x7b expect(f(1)); \x7d" := by
    decide +kernel
  have hread : ReadsAs "expect(f(1));".toList ("f(1)".toList.map .char ++ [.char ')']) := by
    refine lexemes?_eq_some_iff.2 ⟨by decide, ?_⟩
    exact @lexed_map_char_append "expect(f(1));".toList [] (by decide) trivial
  have hargs : Balanced brackets ("f(1)".toList.map .char) :=
    (balanced_iff unambiguous_brackets).2 (by decide)
  have hbare : Bare "expect(f(1));".toList := ⟨_, [], hread, hargs, by simp⟩
  obtain ⟨tokens, -, -, hwhole, -⟩ := captured_isWhole_iff hcall
  exact ⟨hcall, hbare, fun h => (hwhole.1 h).2.2 hbare⟩

-- Between backticks a semicolon ends the statement that is found.
example :
    let call := "expect(a).to.equal(\x60;".toList
    call ∈ captured "@(\"t\") unittest \x7b expect(a).to.equal(\x60;\x60); \x7d"
      ∧ EndsInside call := by
  have hnone : lexemes? "expect(a).to.equal(\x60;".toList = none := by decide +kernel
  exact ⟨by decide +kernel, fun lexemes hread => absurd (hnone.symm.trans hread) (by simp)⟩

-- In an argument that is a block, so does the first semicolon of the block.
example :
    let call := "expect(\x7b f(1) ;".toList
    call ∈ captured "@(\"t\") unittest \x7b expect(\x7b f(1) ; \x7d).to.pass; \x7d"
      ∧ Unbalanced call := by
  have hread : ReadsAs "expect(\x7b f(1) ;".toList ("\x7b f(1) ".toList.map .char) := by
    refine lexemes?_eq_some_iff.2 ⟨by decide, ?_⟩
    exact @lexed_map_char_append "expect(\x7b f(1) ;".toList [] (by decide) trivial
  refine ⟨by decide +kernel, _, hread, ?_⟩
  rw [← closes_iff unambiguous_brackets (by simp [isCloser, brackets])]
  decide

end Source
end RefPages
