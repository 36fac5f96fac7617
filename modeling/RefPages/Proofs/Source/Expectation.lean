import RefPages.Extractor
import RefPages.Proofs.Source.Pattern
import RefPages.Proofs.Source.Token

/-!
# Statements by their pattern and by their positions

* `expectPattern` is the pattern of a statement, and `mem_reads_expectPattern` says that however it
  is read, it reads the statement in front and nothing else. So all of its choices end alike.
* `findAll_expectPattern`: the pattern and `expectations` find the same.
* `EntryAt` and `TakenAt` place a statement in a text, and `Scanned` a list of them, one after the
  other; `exists_scanned` places those that are found.
* `expectations_scanned`: **the statements that are found are those of the pattern, and those that
  stand in the text by their tokens.**
-/

set_option autoImplicit false
namespace RefPages
namespace Source

open Text

/-! ## The pattern of a statement -/

/-- A literal between double quotes. -/
def literalPattern : Pattern :=
  .seq (.one (· = '"'))
    (.seq
      (.many true
        (.either (.one fun c => c != '"' && c != '\\') (.seq (.one (· = '\\')) (.one (· != '\n')))))
      (.one (· = '"')))

/-- A literal between double quotes, or one character that is neither a semicolon nor a quote. -/
def chunkPattern : Pattern :=
  .either literalPattern (.one fun c => c != ';' && c != '"')

/-- `expect(`, as few chunks as possible, a closing parenthesis, as many further chunks as possible
but one at least, and a semicolon. -/
def statementPattern : Pattern :=
  .seq (.text "expect(".toList)
    (.seq (.many false chunkPattern)
      (.seq (.one (· = ')'))
        (.seq (.seq chunkPattern (.many true chunkPattern)) (.one (· = ';')))))

/-- A statement that starts with a word of its own. -/
def expectPattern : Pattern :=
  .seq .wordEdge statementPattern

theorem reads_char (c : Char) : (Pattern.one (· = c)).Reads (· = [c]) := by
  refine (Pattern.reads_one _).congr fun read => ?_
  simp

theorem content_iff_flatten {follows : Char → Bool} {content : List Char} :
    (∃ pieces : List (List Char), content = pieces.flatten
      ∧ ∀ piece ∈ pieces, (∃ c, piece = [c] ∧ (c != '"' && c != '\\') = true)
        ∨ ∃ c, piece = ['\\', c] ∧ follows c = true) ↔ Content '"' follows content := by
  constructor
  · rintro ⟨pieces, rfl, hpieces⟩
    induction pieces with
    | nil => exact .nil
    | cons piece pieces ih =>
      obtain ⟨hpiece, hrest⟩ := List.forall_mem_cons.1 hpieces
      rcases hpiece with ⟨c, rfl, hc⟩ | ⟨c, rfl, hc⟩
      · rw [Bool.and_eq_true, bne_iff_ne, bne_iff_ne] at hc
        exact .plain hc.1 (fun hback => absurd hback hc.2) (ih hrest)
      · exact .escape (by decide) hc (ih hrest)
  · intro h
    induction h with
    | nil => exact ⟨[], rfl, by simp⟩
    | @escape c rest _ hc _ ih =>
      obtain ⟨pieces, rfl, hpieces⟩ := ih
      exact ⟨['\\', c] :: pieces, rfl, List.forall_mem_cons.2 ⟨.inr ⟨c, rfl, hc⟩, hpieces⟩⟩
    | @plain c rest hne hback _ ih =>
      obtain ⟨pieces, rfl, hpieces⟩ := ih
      refine ⟨[c] :: pieces, rfl, List.forall_mem_cons.2 ⟨.inl ⟨c, rfl, ?_⟩, hpieces⟩⟩
      rw [Bool.and_eq_true, bne_iff_ne, bne_iff_ne]
      exact ⟨hne, fun hc => absurd (hback hc) (by decide)⟩

theorem reads_literalPattern : literalPattern.Reads fun read =>
    ∃ content, Content '"' (· != '\n') content ∧ read = '"' :: (content ++ ['"']) := by
  have hescape : (Pattern.seq (.one (· = '\\')) (.one (· != '\n'))).Reads fun read =>
      ∃ c, read = ['\\', c] ∧ (c != '\n') = true := by
    refine ((reads_char _).seq (Pattern.reads_one _)).congr fun read => ?_
    constructor
    · rintro ⟨_, _, rfl, rfl, c, rfl, hc⟩
      exact ⟨c, rfl, hc⟩
    · rintro ⟨c, rfl, hc⟩
      exact ⟨['\\'], [c], rfl, rfl, c, rfl, hc⟩
  have hround := (Pattern.reads_one fun c => c != '"' && c != '\\').either hescape
  have hne : ∀ read : List Char, ((∃ c, read = [c] ∧ (c != '"' && c != '\\') = true)
      ∨ ∃ c, read = ['\\', c] ∧ (c != '\n') = true) → read ≠ [] := by
    rintro read (⟨c, rfl, -⟩ | ⟨c, rfl, -⟩) <;> simp
  refine ((reads_char '"').seq ((hround.many true hne).seq (reads_char '"'))).congr fun read => ?_
  constructor
  · rintro ⟨_, _, rfl, rfl, content, _, rfl, hcontent, rfl⟩
    exact ⟨content, content_iff_flatten.1 hcontent, rfl⟩
  · rintro ⟨content, hcontent, rfl⟩
    exact ⟨['"'], _, rfl, rfl, content, ['"'], rfl, content_iff_flatten.2 hcontent, rfl⟩

/-- A chunk is a token. -/
theorem reads_chunkPattern :
    chunkPattern.Reads fun read => ∃ l, IsToken l ∧ read = l.text := by
  refine (reads_literalPattern.either (Pattern.reads_one _)).congr fun read => ?_
  constructor
  · rintro (⟨content, hcontent, rfl⟩ | ⟨c, rfl, hc⟩)
    · exact ⟨.literal '"' content, ⟨rfl, hcontent⟩, rfl⟩
    · rw [Bool.and_eq_true, bne_iff_ne, bne_iff_ne] at hc
      exact ⟨.char c, hc, rfl⟩
  · rintro ⟨l, hl, rfl⟩
    cases l with
    | literal quote content =>
      obtain ⟨rfl, hcontent⟩ := hl
      exact .inl ⟨content, hcontent, rfl⟩
    | char c => exact .inr ⟨c, rfl, by simpa [IsToken] using hl⟩
    | lineComment _ => exact hl.elim
    | blockComment _ => exact hl.elim

theorem reads_chunks (greedy : Bool) :
    (Pattern.many greedy chunkPattern).Reads fun read =>
      ∃ tokens, (∀ l ∈ tokens, IsToken l) ∧ read = textOf tokens := by
  have hne : ∀ read, (∃ l, IsToken l ∧ read = l.text) → read ≠ [] := by
    rintro _ ⟨l, -, rfl⟩
    exact l.text_ne_nil
  refine (reads_chunkPattern.many greedy hne).congr fun read => ?_
  constructor
  · rintro ⟨pieces, rfl, hpieces⟩
    induction pieces with
    | nil => exact ⟨[], by simp, rfl⟩
    | cons piece pieces ih =>
      obtain ⟨⟨l, hl, rfl⟩, hrest⟩ := List.forall_mem_cons.1 hpieces
      obtain ⟨tokens, htokens, hflatten⟩ := ih hrest
      exact ⟨l :: tokens, List.forall_mem_cons.2 ⟨hl, htokens⟩, by simp [hflatten]⟩
  · rintro ⟨tokens, htokens, rfl⟩
    refine ⟨tokens.map Lexeme.text, List.flatMap_def .., fun piece hpiece => ?_⟩
    obtain ⟨l, hl, rfl⟩ := List.mem_map.1 hpiece
    exact ⟨l, htokens l hl, rfl⟩

theorem reads_statementPattern : statementPattern.Reads fun read =>
    ∃ tokens, (∀ l ∈ tokens, IsToken l) ∧ Chains tokens
      ∧ read = "expect(".toList ++ (textOf tokens ++ [';']) := by
  have hparts := (Pattern.reads_text "expect(".toList).seq ((reads_chunks false).seq
    ((reads_char ')').seq ((reads_chunkPattern.seq (reads_chunks true)).seq (reads_char ';'))))
  refine hparts.congr fun read => ?_
  constructor
  · rintro ⟨_, _, rfl, rfl, _, _, rfl, ⟨front, hfront, rfl⟩, _, _, rfl, rfl, _, _, rfl,
      ⟨_, _, rfl, ⟨next, hnext, rfl⟩, back, hback, rfl⟩, rfl⟩
    refine ⟨front ++ .char ')' :: next :: back, ?_, ⟨front, next, back, rfl⟩, by simp [Lexeme.text]⟩
    simp only [List.forall_mem_append, List.forall_mem_cons]
    exact ⟨hfront, by simp [IsToken], hnext, hback⟩
  · rintro ⟨_, htokens, ⟨front, next, back, rfl⟩, rfl⟩
    simp only [List.forall_mem_append, List.forall_mem_cons] at htokens
    obtain ⟨hfront, -, hnext, hback⟩ := htokens
    have htext : textOf (front ++ .char ')' :: next :: back) ++ [';'] =
        textOf front ++ ([')'] ++ ((next.text ++ textOf back) ++ [';'])) := by
      simp [Lexeme.text]
    exact ⟨_, _, rfl, rfl, _, _, htext, ⟨front, hfront, rfl⟩, _, _, rfl, rfl, _, _, rfl,
      ⟨_, _, rfl, ⟨next, hnext, rfl⟩, back, hback, rfl⟩, rfl⟩

/-- However it is read, the statement in front is read. -/
theorem mem_reads_statementPattern {s t : Spot} :
    t ∈ statementPattern.reads s ↔
      ∃ text, expectationAt? s.after = some (text, t.after)
        ∧ t.before = text.reverse ++ s.before := by
  rw [reads_statementPattern s t]
  constructor
  · rintro ⟨text, ⟨tokens, htokens, hchains, htext⟩, hafter, hbefore⟩
    exact ⟨text, expectationAt?_eq_some_iff.2 ⟨tokens, htokens, hchains, htext, hafter⟩, hbefore⟩
  · rintro ⟨text, hread, hbefore⟩
    obtain ⟨tokens, htokens, hchains, htext, hafter⟩ := expectationAt?_eq_some_iff.1 hread
    exact ⟨text, ⟨tokens, htokens, hchains, htext⟩, hafter, hbefore⟩

/-- A statement begins with a word character. -/
theorem head?_of_expectationAt? {cs text rest : List Char}
    (h : expectationAt? cs = some (text, rest)) : cs.head?.any isWordChar = true := by
  obtain ⟨tokens, -, -, rfl, hcs⟩ := expectationAt?_eq_some_iff.1 h
  have hhead : cs.head? = some 'e' := by
    rw [hcs]
    rfl
  rw [hhead]
  decide

/-- However the pattern is read, it reads the statement in front, where a word can start. -/
theorem mem_reads_expectPattern {s t : Spot} :
    t ∈ expectPattern.reads s ↔
      s.inWord = false ∧ ∃ text, expectationAt? s.after = some (text, t.after)
        ∧ t.before = text.reverse ++ s.before := by
  rw [expectPattern, Pattern.mem_reads_wordEdge_seq, mem_reads_statementPattern]
  constructor
  · rintro ⟨hedge, text, hread, hbefore⟩
    rw [head?_of_expectationAt? hread] at hedge
    exact ⟨by simpa using hedge, text, hread, hbefore⟩
  · rintro ⟨hword, text, hread, hbefore⟩
    rw [hword, head?_of_expectationAt? hread]
    exact ⟨by decide, text, hread, hbefore⟩

/-! ## One after the other -/

theorem expectations_nil (inWord : Bool) : expectations inWord [] = [] := by
  have hnone : (if inWord then none else expectationAt? []) = none := by
    cases inWord <;> rfl
  rw [expectations.eq_def]
  split
  · simp_all
  · rfl

theorem expectations_of_read {cs text rest : List Char}
    (h : expectationAt? cs = some (text, rest)) :
    expectations false cs = text :: expectations false rest := by
  have hsome : (if false then none else expectationAt? cs) = some (text, rest) := h
  rw [expectations.eq_def]
  split
  · simp_all
  · rename_i hnone
    exact absurd (hsome.symm.trans hnone) (by simp)

theorem expectations_cons {inWord : Bool} {c : Char} {rest : List Char}
    (h : inWord = false → expectationAt? (c :: rest) = none) :
    expectations inWord (c :: rest) = expectations (isWordChar c) rest := by
  have hnone : (if inWord then none else expectationAt? (c :: rest)) = none := by
    cases inWord
    · exact h rfl
    · rfl
  rw [expectations.eq_def]
  split
  · simp_all
  · rfl

/-- After a statement no word goes on. -/
theorem inWord_of_expectationAt? {s t : Spot} {text : List Char}
    (h : expectationAt? s.after = some (text, t.after))
    (hbefore : t.before = text.reverse ++ s.before) : t.inWord = false := by
  obtain ⟨tokens, -, -, rfl, -⟩ := expectationAt?_eq_some_iff.1 h
  have hhead : t.before.head? = some ';' := by
    rw [hbefore]
    simp
  rw [Spot.inWord, hhead]
  decide

/-- What the pattern finds are the statements. -/
theorem findAll_expectPattern (s : Spot) :
    expectPattern.findAll s = expectations s.inWord s.after := by
  fun_induction Pattern.findAll expectPattern s with
  | case1 s t hfound ih =>
    obtain ⟨hword, text, hread, hbefore⟩ :=
      mem_reads_expectPattern.1 (List.mem_of_find?_eq_some hfound)
    obtain ⟨_, -, -, -, hafter⟩ := expectationAt?_eq_some_iff.1 hread
    have htext : s.after.take (s.after.length - t.after.length) = text := by
      rw [hafter, List.length_append, Nat.add_sub_cancel, List.take_left]
    rw [htext, ih, hword, expectations_of_read hread, inWord_of_expectationAt? hread hbefore]
  | case2 before hnone => exact (expectations_nil _).symm
  | case3 before c rest hnone ih =>
    -- A statement would be among the ends of the pattern.
    have hread : (Spot.mk before (c :: rest)).inWord = false →
        expectationAt? (c :: rest) = none := by
      intro hword
      rw [Option.eq_none_iff_forall_ne_some]
      rintro ⟨text, after⟩ hread
      have hmem :
          Spot.mk (text.reverse ++ before) after ∈ expectPattern.reads ⟨before, c :: rest⟩ :=
        mem_reads_expectPattern.2 ⟨hword, text, hread, rfl⟩
      have hlong := List.find?_eq_none.1 hnone _ hmem
      exact hlong (by simpa using length_of_expectationAt? hread)
    rw [ih, expectations_cons hread]
    rfl

/-! ## Positions -/

/-- The spot at a position of a text. -/
def spotAt (body : List Char) (start : Nat) : Spot :=
  ⟨(body.take start).reverse, body.drop start⟩

/-- A call of `expect` starts at `start`, and not inside a word. -/
def EntryAt (body : List Char) (start : Nat) : Prop :=
  (spotAt body start).inWord = false ∧ "expect(".toList <+: body.drop start

/-- The first call from a position on. -/
def FirstEntry (body : List Char) (origin start : Nat) : Prop :=
  origin ≤ start ∧ EntryAt body start ∧ ∀ earlier, origin ≤ earlier → earlier < start →
    ¬ EntryAt body earlier

/-- The statement of the call at `start` is taken: where its tokens end there is a semicolon, which
`stop` follows, and some closing parenthesis has a token after it. -/
def TakenAt (body : List Char) (start stop : Nat) : Prop :=
  ∃ tokens rest, Cut (body.drop (start + "expect(".length)) tokens (';' :: rest) ∧ Chains tokens
    ∧ stop = start + "expect(".length + (textOf tokens).length + 1

/-- From a position on these are the statements that are taken, from their starts to their stops:
each call is looked at in turn, except for those inside a statement that is taken. -/
inductive Scanned (body : List Char) : Nat → List (Nat × Nat) → Prop
  | done {origin} : (∀ start, origin ≤ start → ¬ EntryAt body start) → Scanned body origin []
  | taken {origin start stop spans} : FirstEntry body origin start → TakenAt body start stop →
      Scanned body stop spans → Scanned body origin ((start, stop) :: spans)
  | rejected {origin start spans} : FirstEntry body origin start →
      (∀ stop, ¬ TakenAt body start stop) → Scanned body (start + 1) spans →
        Scanned body origin spans

/-- A statement at a position. -/
theorem takenAt_of_expectationAt? {body text rest : List Char} {start : Nat}
    (h : expectationAt? (body.drop start) = some (text, rest)) :
    "expect(".toList <+: body.drop start ∧ TakenAt body start (start + text.length)
      ∧ rest = body.drop (start + text.length) := by
  obtain ⟨tokens, htokens, hchains, rfl, hdrop⟩ := expectationAt?_eq_some_iff.1 h
  have hlength : "expect(".length = "expect(".toList.length := by decide
  have hafter : body.drop (start + "expect(".length) = textOf tokens ++ ';' :: rest := by
    rw [hlength, ← List.drop_drop, hdrop, List.append_assoc, List.drop_left]
    simp
  refine ⟨⟨_, by rw [hdrop, List.append_assoc]⟩, ⟨tokens, rest, ?_, hchains, ?_⟩, ?_⟩
  · rw [hafter]
    exact cut_semicolon htokens
  · rw [hlength]
    simp only [List.length_append, List.length_cons, List.length_nil]
    omega
  · rw [← List.drop_drop, hdrop, List.drop_left]

theorem exists_expectationAt?_of_takenAt {body : List Char} {start stop : Nat}
    (hentry : EntryAt body start) (h : TakenAt body start stop) :
    ∃ text, expectationAt? (body.drop start) = some (text, body.drop stop)
      ∧ stop = start + text.length := by
  obtain ⟨tokens, rest, hcut, hchains, rfl⟩ := h
  obtain ⟨after, hafter⟩ := hentry.2
  have hlength : "expect(".length = "expect(".toList.length := by decide
  have hdrop : after = body.drop (start + "expect(".length) := by
    rw [hlength, ← List.drop_drop, ← hafter, List.drop_left]
  have htext : body.drop start = ("expect(".toList ++ (textOf tokens ++ [';'])) ++ rest := by
    rw [← hafter, hdrop, hcut.text_eq]
    simp
  have hread := expectationAt?_eq_some_iff.2 ⟨tokens, hcut.token, hchains, rfl, htext⟩
  obtain ⟨-, -, hrest⟩ := takenAt_of_expectationAt? hread
  have hstop : start + "expect(".length + (textOf tokens).length + 1
      = start + ("expect(".toList ++ (textOf tokens ++ [';'])).length := by
    rw [hlength]
    simp only [List.length_append, List.length_cons, List.length_nil]
    omega
  exact ⟨_, by rw [hread, hstop, hrest], hstop⟩

theorem TakenAt.unique {body : List Char} {start stop stop' : Nat} (hentry : EntryAt body start)
    (h : TakenAt body start stop) (h' : TakenAt body start stop') : stop = stop' := by
  obtain ⟨text, hread, hstop⟩ := exists_expectationAt?_of_takenAt hentry h
  obtain ⟨text', hread', hstop'⟩ := exists_expectationAt?_of_takenAt hentry h'
  rw [hread, Option.some.injEq, Prod.mk.injEq] at hread'
  rw [hstop, hstop', hread'.1]

theorem FirstEntry.unique {body : List Char} {origin start start' : Nat}
    (h : FirstEntry body origin start) (h' : FirstEntry body origin start') : start = start' := by
  rcases Nat.lt_trichotomy start start' with hlt | heq | hlt
  · exact absurd h.2.1 (h'.2.2 _ h.1 hlt)
  · exact heq
  · exact absurd h'.2.1 (h.2.2 _ h'.1 hlt)

theorem Scanned.unique {body : List Char} {origin : Nat} {spans spans' : List (Nat × Nat)}
    (h : Scanned body origin spans) (h' : Scanned body origin spans') : spans' = spans := by
  induction h generalizing spans' with
  | done hnone =>
    cases h' with
    | done _ => rfl
    | taken hfirst _ _ => exact absurd hfirst.2.1 (hnone _ hfirst.1)
    | rejected hfirst _ _ => exact absurd hfirst.2.1 (hnone _ hfirst.1)
  | taken hfirst htaken _ ih =>
    cases h' with
    | done hnone => exact absurd hfirst.2.1 (hnone _ hfirst.1)
    | taken hfirst' htaken' hrest =>
      obtain rfl := hfirst.unique hfirst'
      obtain rfl := htaken.unique hfirst.2.1 htaken'
      rw [ih hrest]
    | rejected hfirst' hnot _ =>
      obtain rfl := hfirst.unique hfirst'
      exact absurd htaken (hnot _)
  | rejected hfirst hnot _ ih =>
    cases h' with
    | done hnone => exact absurd hfirst.2.1 (hnone _ hfirst.1)
    | taken hfirst' htaken' _ =>
      obtain rfl := hfirst.unique hfirst'
      exact absurd htaken' (hnot _)
    | rejected hfirst' _ hrest =>
      obtain rfl := hfirst.unique hfirst'
      exact ih hrest

theorem FirstEntry.of_succ {body : List Char} {origin start : Nat} (hnot : ¬ EntryAt body origin)
    (h : FirstEntry body (origin + 1) start) : FirstEntry body origin start := by
  refine ⟨by have := h.1; omega, h.2.1, fun earlier hle hlt => ?_⟩
  rcases Nat.eq_or_lt_of_le hle with rfl | hlt'
  · exact hnot
  · exact h.2.2 earlier hlt' hlt

/-- Where no call starts, one goes on at the next position. -/
theorem Scanned.of_succ {body : List Char} {origin : Nat} {spans : List (Nat × Nat)}
    (hnot : ¬ EntryAt body origin) (h : Scanned body (origin + 1) spans) :
    Scanned body origin spans := by
  cases h with
  | done hnone =>
    refine .done fun start hle => ?_
    rcases Nat.eq_or_lt_of_le hle with rfl | hlt
    · exact hnot
    · exact hnone start hlt
  | taken hfirst htaken hrest => exact .taken (hfirst.of_succ hnot) htaken hrest
  | rejected hfirst hreject hrest => exact .rejected (hfirst.of_succ hnot) hreject hrest

/-- Statements that are taken follow one another. -/
theorem Scanned.apart {body : List Char} {origin : Nat} {spans : List (Nat × Nat)}
    (h : Scanned body origin spans) :
    (∀ span ∈ spans, origin ≤ span.1 ∧ span.1 < span.2 ∧ span.2 ≤ body.length)
      ∧ spans.Pairwise fun span later => span.2 ≤ later.1 := by
  induction h with
  | done _ => simp
  | @taken origin start stop spans hfirst htaken _ ih =>
    obtain ⟨hspans, hpairs⟩ := ih
    obtain ⟨text, hread, hstop⟩ := exists_expectationAt?_of_takenAt hfirst.2.1 htaken
    have hlt : start < stop ∧ stop ≤ body.length := by
      obtain ⟨tokens, -, -, rfl, hdrop⟩ := expectationAt?_eq_some_iff.1 hread
      have hlength := congrArg List.length hdrop
      simp only [List.length_append, List.length_drop, List.length_cons, List.length_nil]
        at hlength hstop
      omega
    have hle := hfirst.1
    constructor
    · refine List.forall_mem_cons.2 ⟨⟨hle, hlt⟩, fun span hspan => ?_⟩
      obtain ⟨hafter, hinside⟩ := hspans span hspan
      exact ⟨by omega, hinside⟩
    · exact List.pairwise_cons.2 ⟨fun later hlater => (hspans later hlater).1, hpairs⟩
  | rejected hfirst _ _ ih =>
    obtain ⟨hspans, hpairs⟩ := ih
    refine ⟨fun span hspan => ?_, hpairs⟩
    obtain ⟨hafter, hinside⟩ := hspans span hspan
    have := hfirst.1
    exact ⟨by omega, hinside⟩

/-- The word before the next position. -/
theorem inWord_spotAt_succ {body rest : List Char} {c : Char} {start : Nat}
    (h : body.drop start = c :: rest) :
    (spotAt body (start + 1)).inWord = isWordChar c ∧ body.drop (start + 1) = rest := by
  have hget : body[start]? = some c := by
    rw [← List.head?_drop, h]
    rfl
  constructor
  · rw [Spot.inWord, spotAt, List.take_add_one, hget]
    simp
  · rw [← List.drop_drop, h]
    rfl

/-- The statements from a position on. -/
theorem exists_scanned (body : List Char) (origin : Nat) :
    ∃ spans, Scanned body origin spans
      ∧ expectations (spotAt body origin).inWord (body.drop origin) =
        spans.map fun span => (body.drop span.1).take (span.2 - span.1) := by
  generalize hword : (spotAt body origin).inWord = inWord
  generalize hcs : body.drop origin = cs
  fun_induction expectations inWord cs generalizing origin with
  | case1 inWord cs text rest hread ih =>
    subst hcs
    obtain ⟨hout, hread⟩ :
        inWord = false ∧ expectationAt? (body.drop origin) = some (text, rest) := by
      cases inWord
      · exact ⟨rfl, by simpa using hread⟩
      · simp at hread
    obtain ⟨hcall, htaken, hrest⟩ := takenAt_of_expectationAt? hread
    obtain ⟨_, -, -, -, hdrop⟩ := expectationAt?_eq_some_iff.1 hread
    have htext : (body.drop origin).take text.length = text := by
      rw [hdrop, List.take_left]
    have hbefore : (spotAt body (origin + text.length)).before =
        text.reverse ++ (spotAt body origin).before := by
      rw [spotAt, spotAt, List.take_add, htext, List.reverse_append]
    have hafter : (spotAt body (origin + text.length)).inWord = false :=
      inWord_of_expectationAt? (hread.trans (by rw [hrest]; rfl)) hbefore
    obtain ⟨spans, hspans, hmap⟩ := ih (origin + text.length) hafter hrest.symm
    refine ⟨(origin, origin + text.length) :: spans,
      .taken ⟨Nat.le_refl _, ⟨hword.trans hout, hcall⟩, fun _ _ _ => by omega⟩ htaken hspans, ?_⟩
    rw [hmap, List.map_cons, Nat.add_sub_cancel_left, htext]
  | case2 inWord hnone =>
    refine ⟨[], .done fun start hle hentry => ?_, rfl⟩
    obtain ⟨rest, hrest⟩ := hentry.2
    have hlength := congrArg List.length hrest
    have hshort := congrArg List.length hcs
    simp only [List.length_append, List.length_drop, List.length_nil] at hlength hshort
    have : "expect(".toList.length = 7 := by decide
    omega
  | case3 inWord c rest hnone ih =>
    obtain ⟨hnext, hrest⟩ := inWord_spotAt_succ hcs
    obtain ⟨spans, hspans, hmap⟩ := ih (origin + 1) hnext hrest
    refine ⟨spans, ?_, hmap⟩
    by_cases hentry : EntryAt body origin
    · refine .rejected ⟨Nat.le_refl _, hentry, fun _ _ _ => by omega⟩ (fun stop htaken => ?_) hspans
      obtain ⟨text, hread, -⟩ := exists_expectationAt?_of_takenAt hentry htaken
      rw [hcs] at hread
      rw [← hword, hentry.1, if_neg (by simp), hread] at hnone
      exact absurd hnone (by simp)
    · exact hspans.of_succ hentry

/-! ## Statements and examples -/

/-- Every statement that is found is made of tokens. -/
theorem exists_tokens_of_mem_expectations {inWord : Bool} {cs call : List Char}
    (h : call ∈ expectations inWord cs) :
    ∃ tokens, (∀ l ∈ tokens, IsToken l) ∧ Chains tokens
      ∧ call = "expect(".toList ++ (textOf tokens ++ [';']) := by
  fun_induction expectations inWord cs with
  | case1 inWord cs text rest hread ih =>
    rcases List.mem_cons.1 h with rfl | hrest
    · obtain ⟨-, hread⟩ : ¬ inWord = true ∧ expectationAt? cs = some (call, rest) := by
        simpa using hread
      obtain ⟨tokens, htokens, hchains, htext, -⟩ := expectationAt?_eq_some_iff.1 hread
      exact ⟨tokens, htokens, hchains, htext⟩
    · exact ih hrest
  | case2 inWord hnone => exact absurd h (by simp)
  | case3 inWord c rest hnone ih => exact ih h

/-- No white space stands around a statement. -/
theorem trim_of_mem_expectations {inWord : Bool} {cs call : List Char}
    (h : call ∈ expectations inWord cs) : trim call = call := by
  obtain ⟨tokens, -, -, rfl⟩ := exists_tokens_of_mem_expectations h
  have hends : "expect(".toList ++ (textOf tokens ++ [';']) =
      'e' :: (("xpect(".toList ++ textOf tokens) ++ [';']) := by
    simp
  rw [hends, trim_cons_append_singleton _ (by decide) (by decide)]

theorem exampleOfTest?_isSome_iff {label body : String} :
    (exampleOfTest? label body).isSome = true ↔ expectations false body.toList ≠ [] := by
  rw [exampleOfTest?]
  split <;> simp_all

theorem code_of_exampleOfTest? {label body : String} {shown : Example}
    (h : exampleOfTest? label body = some shown) :
    shown.code = joinLines ((expectations false body.toList).map String.ofList) := by
  rw [exampleOfTest?] at h
  split at h
  · exact absurd h (by simp)
  · rw [← Option.some.inj h]

/-- **The statements of a body**: those that the pattern finds are the spans of the body that one
reading by tokens takes. They stand one after the other, no white space is trimmed from them, and
the body gives an example, with the statements as its lines, exactly if there are any. -/
theorem expectations_scanned (label body : String) :
    ∃ spans, Scanned body.toList 0 spans
      ∧ (∀ spans', Scanned body.toList 0 spans' → spans' = spans)
      ∧ expectPattern.findAll ⟨[], body.toList⟩ =
          spans.map (fun span => (body.toList.drop span.1).take (span.2 - span.1))
      ∧ expectations false body.toList = expectPattern.findAll ⟨[], body.toList⟩
      ∧ (∀ span ∈ spans, span.1 < span.2 ∧ span.2 ≤ body.toList.length)
      ∧ spans.Pairwise (fun span later => span.2 ≤ later.1)
      ∧ (∀ call ∈ expectations false body.toList, trim call = call)
      ∧ ((exampleOfTest? label body).isSome = true ↔ spans ≠ [])
      ∧ ∀ shown, exampleOfTest? label body = some shown →
          shown.code = joinLines ((expectPattern.findAll ⟨[], body.toList⟩).map fun call =>
            String.ofList (trim call)) := by
  obtain ⟨spans, hscanned, hcalls⟩ := exists_scanned body.toList 0
  obtain ⟨hinside, hpairs⟩ := hscanned.apart
  have hfound : expectPattern.findAll ⟨[], body.toList⟩ = expectations false body.toList :=
    findAll_expectPattern ⟨[], body.toList⟩
  replace hcalls : expectations false body.toList =
      spans.map fun span => (body.toList.drop span.1).take (span.2 - span.1) := hcalls
  refine ⟨spans, hscanned, fun _ => hscanned.unique, hfound.trans hcalls, hfound.symm,
    fun span hspan => (hinside span hspan).2, hpairs, fun _ => trim_of_mem_expectations, ?_, ?_⟩
  · rw [exampleOfTest?_isSome_iff, hcalls, ne_eq, List.map_eq_nil_iff]
  · intro shown hshown
    rw [code_of_exampleOfTest? hshown, hfound]
    congr 1
    refine List.map_congr_left fun call hcall => ?_
    rw [trim_of_mem_expectations hcall]

end Source
end RefPages
