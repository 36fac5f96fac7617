import RefPages.Proofs.Source.Lexeme
import RefPages.Source.Expectation

/-!
# Statements by their tokens

* `IsToken` is a token of a statement, `Cut` cuts a text into tokens as far as there are any, and
  `Chains` asks for a closing parenthesis with something after it.
* `statementRest?_textOf_append` says how tokens are read through, and `Progress.through` how far a
  statement has been read after them.
* `statementRest?_eq_some_iff` and `expectationAt?_eq_some_iff`: **a statement is its tokens and the
  semicolon at which they end.**
-/

set_option autoImplicit false
namespace RefPages
namespace Source

/-! ## Tokens -/

/-- A token of a statement: a literal between double quotes, in which no line feed is escaped, or
one other character that is no semicolon. -/
def IsToken : Lexeme → Prop
  | .literal quote content => quote = '"' ∧ Content '"' (· != '\n') content
  | .char c => c ≠ ';' ∧ c ≠ '"'
  | _ => False

/-- The text is cut into tokens, up to a place where no token can be read. -/
structure Cut (cs : List Char) (tokens : List Lexeme) (stop : List Char) : Prop where
  text_eq : cs = textOf tokens ++ stop
  token : ∀ l ∈ tokens, IsToken l
  done : ∀ l after, IsToken l → stop ≠ l.text ++ after

theorem exists_cut (cs : List Char) : ∃ tokens stop, Cut cs tokens stop := by
  induction hn : cs.length using Nat.strongRecOn generalizing cs with
  | ind n ih =>
    subst hn
    by_cases hread : ∃ l after, IsToken l ∧ cs = l.text ++ after
    · obtain ⟨l, after, hl, rfl⟩ := hread
      have hlt : after.length < (l.text ++ after).length := by
        have := List.length_pos_iff.2 l.text_ne_nil
        rw [List.length_append]
        omega
      obtain ⟨tokens, stop, hcut⟩ := ih _ hlt after rfl
      refine ⟨l :: tokens, stop, ?_, List.forall_mem_cons.2 ⟨hl, hcut.token⟩, hcut.done⟩
      rw [hcut.text_eq, textOf_cons, List.append_assoc]
    · exact ⟨[], cs, rfl, by simp, fun l after hl heq => hread ⟨l, after, hl, heq⟩⟩

/-- Some closing parenthesis has a token after it. -/
def Chains (tokens : List Lexeme) : Prop :=
  ∃ front next back, tokens = front ++ .char ')' :: next :: back

/-! ## Statements -/

/-- How far a statement has been read after some tokens. -/
def Progress.through (progress : Progress) (tokens : List Lexeme) : Progress :=
  tokens.foldl (fun progress l => progress.next (l = .char ')')) progress

theorem through_chained (tokens : List Lexeme) : Progress.chained.through tokens = .chained := by
  induction tokens with
  | nil => rfl
  | cons l rest ih => exact ih

theorem through_closed_eq_chained_iff {tokens : List Lexeme} :
    Progress.closed.through tokens = .chained ↔ tokens ≠ [] := by
  cases tokens with
  | nil => simp [Progress.through]
  | cons l rest => exact ⟨fun _ => by simp, fun _ => through_chained rest⟩

theorem chains_cons_iff {l : Lexeme} {rest : List Lexeme} :
    Chains (l :: rest) ↔ l = .char ')' ∧ rest ≠ [] ∨ Chains rest := by
  constructor
  · rintro ⟨front, next, back, htokens⟩
    cases front with
    | nil =>
      obtain ⟨rfl, rfl⟩ := List.cons.inj htokens
      exact .inl ⟨rfl, by simp⟩
    | cons _ front => exact .inr ⟨front, next, back, (List.cons.inj htokens).2⟩
  · rintro (⟨rfl, hne⟩ | ⟨front, next, back, rfl⟩)
    · obtain ⟨next, back, rfl⟩ := List.exists_cons_of_ne_nil hne
      exact ⟨[], next, back, rfl⟩
    · exact ⟨l :: front, next, back, rfl⟩

/-- A statement is chained after its tokens exactly if some closing parenthesis among them has one
after it. -/
theorem through_arguments_eq_chained_iff {tokens : List Lexeme} :
    Progress.arguments.through tokens = .chained ↔ Chains tokens := by
  induction tokens with
  | nil => simp [Progress.through, Chains]
  | cons l rest ih =>
    rw [chains_cons_iff]
    by_cases hl : l = .char ')'
    · have hstep : Progress.arguments.through (l :: rest) = Progress.closed.through rest := by
        rw [hl]
        rfl
      have hrest : Chains rest → rest ≠ [] := by
        rintro ⟨front, next, back, rfl⟩
        simp
      rw [hstep, through_closed_eq_chained_iff]
      exact ⟨fun hne => .inl ⟨hl, hne⟩, fun h => h.elim And.right hrest⟩
    · have hstep : Progress.arguments.through (l :: rest) = Progress.arguments.through rest := by
        simp [Progress.through, Progress.next, hl]
      rw [hstep, ih]
      exact ⟨.inr, fun h => h.resolve_left fun hclose => hl hclose.1⟩

theorem statementRest?_code_cons (progress : Progress) (c : Char) (rest : List Char) :
    statementRest? progress .code (c :: rest) =
      if c = ';' then if progress = .chained then some ([c], rest) else none
      else if c = '"' then appendBody [c] (statementRest? progress .literal rest)
      else appendBody [c] (statementRest? (progress.next (c = ')')) .code rest) :=
  rfl

theorem statementRest?_literal_cons (progress : Progress) (c : Char) (rest : List Char) :
    statementRest? progress .literal (c :: rest) =
      if c = '"' then appendBody [c] (statementRest? (progress.next false) .code rest)
      else if c = '\\' then appendBody [c] (statementRest? progress .escape rest)
      else appendBody [c] (statementRest? progress .literal rest) :=
  rfl

theorem statementRest?_escape_cons (progress : Progress) (c : Char) (rest : List Char) :
    statementRest? progress .escape (c :: rest) =
      if c = '\n' then none else appendBody [c] (statementRest? progress .literal rest) :=
  rfl

theorem statementRest?_literal (progress : Progress) (cs : List Char) :
    statementRest? progress .literal cs =
      (literalRest? '"' (· != '\n') cs).bind fun (content, after) =>
        appendBody (content ++ ['"']) (statementRest? (progress.next false) .code after) := by
  fun_induction literalRest? '"' (· != '\n') cs with
  | case1 => rfl
  | case2 c hc =>
    rw [hc.1]
    rfl
  | case3 c hc d rest hd ih =>
    rw [hc.1, statementRest?_literal_cons, if_neg (by decide), if_pos rfl,
      statementRest?_escape_cons, if_neg (by simpa using hd), ih, bind_appendBody]
    simp
  | case4 c hc d rest hd =>
    rw [hc.1, statementRest?_literal_cons, if_neg (by decide), if_pos rfl,
      statementRest?_escape_cons, if_pos (by simpa using hd)]
    rfl
  | case5 rest hback => rfl
  | case6 c rest hback hne ih =>
    rw [statementRest?_literal_cons, if_neg hne, if_neg (fun hc => hback ⟨hc, by decide⟩), ih,
      bind_appendBody]

/-- A token is read through. -/
theorem statementRest?_text_append {l : Lexeme} (hl : IsToken l) (progress : Progress)
    (after : List Char) :
    statementRest? progress .code (l.text ++ after) =
      appendBody l.text (statementRest? (progress.next (l = .char ')')) .code after) := by
  cases l with
  | literal quote content =>
    obtain ⟨rfl, hcontent⟩ := hl
    have htext : (Lexeme.literal '"' content).text ++ after = '"' :: (content ++ '"' :: after) := by
      simp [Lexeme.text]
    rw [htext, statementRest?_code_cons, if_neg (by decide), if_pos rfl, statementRest?_literal,
      literalRest?_append (by decide) hcontent]
    simp [Lexeme.text]
  | char c =>
    show statementRest? progress .code (c :: after) = _
    rw [statementRest?_code_cons, if_neg hl.1, if_neg hl.2]
    simp [Lexeme.text]
  | lineComment _ => exact hl.elim
  | blockComment _ => exact hl.elim

theorem statementRest?_textOf_append {tokens : List Lexeme} (h : ∀ l ∈ tokens, IsToken l)
    (progress : Progress) (after : List Char) :
    statementRest? progress .code (textOf tokens ++ after) =
      appendBody (textOf tokens) (statementRest? (progress.through tokens) .code after) := by
  induction tokens generalizing progress with
  | nil => simp [Progress.through]
  | cons l rest ih =>
    obtain ⟨hl, hrest⟩ := List.forall_mem_cons.1 h
    rw [textOf_cons, List.append_assoc, statementRest?_text_append hl, ih hrest,
      appendBody_appendBody]
    rfl

/-- Where no token can be read, only a semicolon ends a statement. -/
theorem statementRest?_stop {progress : Progress} {stop text rest : List Char}
    (hdone : ∀ l after, IsToken l → stop ≠ l.text ++ after) :
    statementRest? progress .code stop = some (text, rest) ↔
      stop = ';' :: rest ∧ progress = .chained ∧ text = [';'] := by
  cases stop with
  | nil => simp [statementRest?]
  | cons c tail =>
    rw [statementRest?_code_cons]
    by_cases hsemi : c = ';'
    · subst hsemi
      by_cases hchained : progress = .chained
      · simp [hchained]
        grind
      · simp [hchained]
    · rw [if_neg hsemi]
      by_cases hquote : c = '"'
      · subst hquote
        have hnone : literalRest? '"' (· != '\n') tail = none := by
          rw [Option.eq_none_iff_forall_ne_some]
          rintro ⟨content, after⟩ hsome
          obtain ⟨rfl, hcontent⟩ := (literalRest?_eq_some_iff (by decide)).1 hsome
          exact hdone (.literal '"' content) after ⟨rfl, hcontent⟩ (by simp [Lexeme.text])
        rw [if_pos rfl, statementRest?_literal, hnone]
        simp
      · exact absurd rfl (hdone (.char c) tail ⟨hsemi, hquote⟩)

/-- A statement is its tokens and the semicolon at which they end. -/
theorem statementRest?_eq_some_iff {cs text rest : List Char} :
    statementRest? .arguments .code cs = some (text, rest) ↔
      ∃ tokens, Cut cs tokens (';' :: rest) ∧ Chains tokens ∧ text = textOf tokens ++ [';'] := by
  constructor
  · intro h
    obtain ⟨tokens, stop, hcut⟩ := exists_cut cs
    rw [hcut.text_eq, statementRest?_textOf_append hcut.token] at h
    obtain ⟨tail, rfl, htail⟩ := appendBody_eq_some_iff.1 h
    obtain ⟨rfl, hchained, rfl⟩ := (statementRest?_stop hcut.done).1 htail
    exact ⟨tokens, hcut, through_arguments_eq_chained_iff.1 hchained, rfl⟩
  · rintro ⟨tokens, hcut, hchains, rfl⟩
    rw [hcut.text_eq, statementRest?_textOf_append hcut.token,
      (statementRest?_stop hcut.done).2 ⟨rfl, through_arguments_eq_chained_iff.2 hchains, rfl⟩]
    rfl

/-- At a semicolon there is no token. -/
theorem cut_semicolon {tokens : List Lexeme} {rest : List Char} (h : ∀ l ∈ tokens, IsToken l) :
    Cut (textOf tokens ++ ';' :: rest) tokens (';' :: rest) := by
  refine ⟨rfl, h, fun l after hl heq => ?_⟩
  cases l with
  | literal quote content =>
    obtain ⟨rfl, -⟩ := hl
    exact absurd (List.cons.inj heq).1 (by decide)
  | char c => exact hl.1 (List.cons.inj heq).1.symm
  | lineComment _ => exact hl.elim
  | blockComment _ => exact hl.elim

theorem expectationAt?_eq_some_iff {cs text rest : List Char} :
    expectationAt? cs = some (text, rest) ↔
      ∃ tokens, (∀ l ∈ tokens, IsToken l) ∧ Chains tokens
        ∧ text = "expect(".toList ++ (textOf tokens ++ [';']) ∧ cs = text ++ rest := by
  simp only [expectationAt?, Option.bind_eq_bind, Option.bind_eq_some_iff, Prod.exists,
    Option.some.injEq, Prod.mk.injEq, skip?_eq_some_iff, statementRest?_eq_some_iff]
  constructor
  · rintro ⟨after, rfl, _, _, ⟨tokens, hcut, hchains, rfl⟩, rfl, rfl⟩
    exact ⟨tokens, hcut.token, hchains, rfl, by rw [hcut.text_eq]; simp⟩
  · rintro ⟨tokens, htokens, hchains, rfl, rfl⟩
    exact ⟨textOf tokens ++ ';' :: rest, by simp, _, _,
      ⟨tokens, cut_semicolon htokens, hchains, rfl⟩, rfl, rfl⟩

end Source
end RefPages
