import RefPages.Proofs.Source.CommentPiece
import RefPages.Proofs.Source.Pattern

/-!
# The comment by its pattern

The comment that the narrative is taken from can also be given by a pattern: any number of comment
lines, and after them a declaration with attributes. A matcher that goes through the text from the
left and tries all ways to read the pattern has much to choose from, as comment lines may be read in
part and white space in several ways, but one way only leads to a declaration.

* `runPattern` is the pattern of the comment lines and `belowPattern` that of what is below them.
  What they read is said by `reads_runPattern` and `belowPattern_reads_ne_nil_iff`.
* `captureAt?` is what the first of two patterns reads in the preferred way among those in which the
  second can follow, and `searchLines?` looks for it at the starts of lines.
* `searchLines?_run`: the pattern finds the first run of comment lines on a declaration.
* `narrative_topmost`: **the narrative is taken from the topmost run that sits on a declaration**,
  which is what the pattern finds.
-/

set_option autoImplicit false
namespace RefPages
namespace Source

open Text

/-! ## The patterns -/

/-- Any number of characters of a kind. -/
def anyOf (p : Char → Bool) : Pattern :=
  .many true (.one p)

/-- One or more characters of a kind. -/
def someOf (p : Char → Bool) : Pattern :=
  .seq (.one p) (anyOf p)

/-- A comment line. -/
def commentPattern : Pattern :=
  .seq (anyOf isIndent) (.seq (.text "///".toList) (anyOf (· != '\n')))

/-- Comment lines, one after the other. -/
def runPattern : Pattern :=
  .seq commentPattern (.many true (.seq (.text ['\n']) commentPattern))

/-- An attribute. -/
def markPattern : Pattern :=
  .either
    (.seq (.text ['@']) (.seq (someOf isWordChar)
      (.either (.seq (.text ['(']) (.seq (anyOf fun c => c != ')' && c != '\n') (.text [')'])))
        .nothing)))
    (.either (.text "public".toList) (.either (.text "package".toList) (.either
      (.text "static".toList) (.either (.text "pure".toList) (.text "nothrow".toList)))))

/-- The space after an attribute. -/
def gapPattern : Pattern :=
  .either (someOf isIndent) (.seq (anyOf isIndent) (.seq (.text ['\n']) (anyOf isIndent)))

/-- A declaration, up to the type of the first parameter. -/
def declarationPattern : Pattern :=
  .seq (.text "void".toList) (.seq (someOf isBlank) (.seq (someOf isWordChar) (.seq (anyOf isBlank)
    (.seq (.text "(".toList) (.seq (anyOf isBlank) (.seq (.text "ref".toList)
      (.seq (someOf isBlank) (.text "Evaluation".toList))))))))

/-- The next line: a declaration after blanks, tabs and attributes. -/
def introPattern : Pattern :=
  .seq (.text ['\n']) (.seq (anyOf isIndent)
    (.seq (.many true (.seq markPattern gapPattern)) declarationPattern))

/-- The next line, with no word going on where it ends. -/
def belowPattern : Pattern :=
  .seq introPattern .wordEdge

/-! ## What they read -/

theorem reads_anyOf (p : Char → Bool) : (anyOf p).Reads fun read => ∀ c ∈ read, p c = true := by
  refine ((Pattern.reads_one p).many true (by rintro _ ⟨c, rfl, -⟩; simp)).congr fun read => ?_
  constructor
  · rintro ⟨pieces, rfl, hpieces⟩ c hc
    obtain ⟨piece, hpiece, hc⟩ := List.mem_flatten.1 hc
    obtain ⟨d, rfl, hd⟩ := hpieces piece hpiece
    rwa [List.mem_singleton.1 hc]
  · intro h
    refine ⟨read.map fun c => [c], ?_, ?_⟩
    · induction read with
      | nil => rfl
      | cons c rest ih =>
        rw [List.map_cons, List.flatten_cons, ← ih (List.forall_mem_cons.1 h).2,
          List.singleton_append]
    · intro piece hpiece
      obtain ⟨c, hc, rfl⟩ := List.mem_map.1 hpiece
      exact ⟨c, rfl, h c hc⟩

theorem reads_someOf (p : Char → Bool) :
    (someOf p).Reads fun read => read ≠ [] ∧ ∀ c ∈ read, p c = true := by
  refine ((Pattern.reads_one p).seq (reads_anyOf p)).congr fun read => ?_
  constructor
  · rintro ⟨_, rest, rfl, ⟨c, rfl, hc⟩, hrest⟩
    exact ⟨by simp, List.forall_mem_cons.2 ⟨hc, hrest⟩⟩
  · rintro ⟨hne, h⟩
    obtain ⟨c, rest, rfl⟩ := List.exists_cons_of_ne_nil hne
    obtain ⟨hc, hrest⟩ := List.forall_mem_cons.1 h
    exact ⟨[c], rest, rfl, ⟨c, rfl, hc⟩, hrest⟩

theorem reads_commentPattern :
    commentPattern.Reads fun read => IsComment read ∧ '\n' ∉ read := by
  refine ((reads_anyOf isIndent).seq ((Pattern.reads_text "///".toList).seq
    (reads_anyOf (· != '\n')))).congr fun read => ?_
  constructor
  · rintro ⟨indent, _, rfl, hindent, _, rest, rfl, rfl, hrest⟩
    refine ⟨⟨indent, rest, hindent, rfl⟩, fun hmem => ?_⟩
    rcases List.mem_append.1 hmem with hmem | hmem
    · exact ne_lineFeed_of_isIndent (hindent _ hmem) rfl
    · rcases List.mem_append.1 hmem with hmem | hmem
      · exact absurd hmem (by decide)
      · exact absurd (hrest _ hmem) (by decide)
  · rintro ⟨⟨indent, rest, hindent, rfl⟩, hline⟩
    refine ⟨indent, _, rfl, hindent, _, rest, rfl, rfl, fun c hc => bne_iff_ne.2 ?_⟩
    rintro rfl
    exact hline (by simp [hc])

theorem unlines_cons (line : List Char) (lines : List (List Char)) :
    unlines (line :: lines) = line ++ (lines.map ('\n' :: ·)).flatten := by
  induction lines generalizing line with
  | nil => simp [unlines]
  | cons next rest ih =>
    have hstep : unlines (line :: next :: rest) = line ++ '\n' :: unlines (next :: rest) := rfl
    rw [hstep, ih, List.map_cons, List.flatten_cons, List.cons_append]

theorem reads_runPattern : runPattern.Reads fun read => ∃ run : List (List Char), run ≠ []
    ∧ (∀ line ∈ run, IsComment line ∧ '\n' ∉ line) ∧ read = unlines run := by
  have hround := (Pattern.reads_text ['\n']).seq reads_commentPattern
  have hne : ∀ read, (∃ x y, read = x ++ y ∧ x = ['\n'] ∧ IsComment y ∧ '\n' ∉ y) → read ≠ [] := by
    rintro _ ⟨_, y, rfl, rfl, -⟩
    simp
  refine (reads_commentPattern.seq (hround.many true hne)).congr fun read => ?_
  constructor
  · rintro ⟨first, _, rfl, hfirst, pieces, rfl, hpieces⟩
    refine ⟨first :: pieces.map List.tail, by simp, List.forall_mem_cons.2 ⟨hfirst, ?_⟩, ?_⟩
    · intro line hline
      obtain ⟨piece, hpiece, rfl⟩ := List.mem_map.1 hline
      obtain ⟨_, y, rfl, rfl, hy⟩ := hpieces piece hpiece
      exact hy
    · rw [unlines_cons, List.map_map]
      congr 2
      refine (List.map_id pieces).symm.trans (List.map_congr_left fun piece hpiece => ?_)
      obtain ⟨_, y, rfl, rfl, -⟩ := hpieces piece hpiece
      rfl
  · rintro ⟨run, hne, hrun, rfl⟩
    obtain ⟨first, rest, rfl⟩ := List.exists_cons_of_ne_nil hne
    obtain ⟨hfirst, hrest⟩ := List.forall_mem_cons.1 hrun
    refine ⟨first, _, unlines_cons first rest, hfirst, _, rfl, fun piece hpiece => ?_⟩
    obtain ⟨line, hline, rfl⟩ := List.mem_map.1 hpiece
    exact ⟨['\n'], line, rfl, rfl, hrest line hline⟩

theorem reads_markPattern : markPattern.Reads IsMark := by
  have hargument := (Pattern.reads_text ['(']).seq
    ((reads_anyOf fun c => c != ')' && c != '\n').seq (Pattern.reads_text [')']))
  have hword := (Pattern.reads_text ['@']).seq
    ((reads_someOf isWordChar).seq (hargument.either Pattern.reads_nothing))
  refine (hword.either ((Pattern.reads_text _).either ((Pattern.reads_text _).either
    ((Pattern.reads_text _).either ((Pattern.reads_text _).either (Pattern.reads_text _)))))).congr
    fun read => ?_
  constructor
  · rintro (⟨_, _, rfl, rfl, word, _, rfl, ⟨hne, hword⟩,
      ⟨_, _, rfl, rfl, argument, _, rfl, hall, rfl⟩ | rfl⟩ | h)
    · refine .argument hne hword (fun hmem => ?_) fun hmem => ?_
      · exact absurd (hall _ hmem) (by decide)
      · exact absurd (hall _ hmem) (by decide)
    · rw [List.append_nil]
      exact .word hne hword
    · rcases h with rfl | rfl | rfl | rfl | rfl <;> exact .keyword (by decide)
  · intro h
    cases h with
    | @word word hne hword =>
      exact .inl ⟨['@'], word, rfl, rfl, word, [], (List.append_nil _).symm, ⟨hne, hword⟩, .inr rfl⟩
    | @argument word argument hne hword hparen hline =>
      refine .inl ⟨['@'], _, rfl, rfl, word, _, rfl, ⟨hne, hword⟩,
        .inl ⟨['('], _, rfl, rfl, argument, [')'], rfl, fun c hc => ?_, rfl⟩⟩
      rw [Bool.and_eq_true, bne_iff_ne, bne_iff_ne]
      exact ⟨fun h => hparen (h ▸ hc), fun h => hline (h ▸ hc)⟩
    | @keyword keyword hmem =>
      simp only [List.mem_cons, List.not_mem_nil, or_false] at hmem
      refine .inr ?_
      rcases hmem with rfl | rfl | rfl | rfl | rfl
      · exact .inl rfl
      · exact .inr (.inl rfl)
      · exact .inr (.inr (.inl rfl))
      · exact .inr (.inr (.inr (.inl rfl)))
      · exact .inr (.inr (.inr (.inr rfl)))

theorem reads_gapPattern : gapPattern.Reads IsGap := by
  refine ((reads_someOf isIndent).either ((reads_anyOf isIndent).seq
    ((Pattern.reads_text ['\n']).seq (reads_anyOf isIndent)))).congr fun read => ?_
  rw [isGap_iff]
  refine or_congr Iff.rfl ?_
  constructor
  · rintro ⟨front, _, rfl, hfront, _, back, rfl, rfl, hback⟩
    exact ⟨front, back, rfl, hfront, hback⟩
  · rintro ⟨front, back, rfl, hfront, hback⟩
    exact ⟨front, _, rfl, hfront, _, back, rfl, rfl, hback⟩

theorem reads_declarationPattern : declarationPattern.Reads fun read =>
    ∃ name, IsDeclaration name read := by
  have hblanks := reads_anyOf isBlank
  have hsome := reads_someOf isBlank
  refine ((Pattern.reads_text _).seq (hsome.seq ((reads_someOf isWordChar).seq (hblanks.seq
    ((Pattern.reads_text _).seq (hblanks.seq ((Pattern.reads_text _).seq
      (hsome.seq (Pattern.reads_text _))))))))).congr fun read => ?_
  constructor
  · rintro ⟨_, _, rfl, rfl, gap₁, _, rfl, hgap₁, name, _, rfl, ⟨hne, hname⟩, gap₂, _, rfl, hgap₂,
      _, _, rfl, rfl, gap₃, _, rfl, hgap₃, _, _, rfl, rfl, gap₄, _, rfl, hgap₄, rfl⟩
    exact ⟨name, hne, hname, gap₁, gap₂, gap₃, gap₄, hgap₁, hgap₂, hgap₃, hgap₄, rfl⟩
  · rintro ⟨name, hne, hname, gap₁, gap₂, gap₃, gap₄, hgap₁, hgap₂, hgap₃, hgap₄, rfl⟩
    exact ⟨_, _, rfl, rfl, gap₁, _, rfl, hgap₁, name, _, rfl, ⟨hne, hname⟩, gap₂, _, rfl, hgap₂,
      _, _, rfl, rfl, gap₃, _, rfl, hgap₃, _, _, rfl, rfl, gap₄, _, rfl, hgap₄, rfl⟩

theorem reads_introPattern : introPattern.Reads fun read =>
    ∃ (indent : List Char) (marks : List (List Char)) (name text : List Char), AllIndent indent
      ∧ (∀ piece ∈ marks, ∃ mark gap, IsMark mark ∧ IsGap gap ∧ piece = mark ++ gap)
      ∧ IsDeclaration name text ∧ read = '\n' :: (indent ++ (marks.flatten ++ text)) := by
  have hpiece : (Pattern.seq markPattern gapPattern).Reads fun read =>
      ∃ mark gap, IsMark mark ∧ IsGap gap ∧ read = mark ++ gap := by
    refine (reads_markPattern.seq reads_gapPattern).congr fun read => ?_
    exact exists₂_congr fun mark gap => ⟨fun ⟨h, hmark, hgap⟩ => ⟨hmark, hgap, h⟩,
      fun ⟨hmark, hgap, h⟩ => ⟨h, hmark, hgap⟩⟩
  have hne : ∀ read, (∃ mark gap, IsMark mark ∧ IsGap gap ∧ read = mark ++ gap) → read ≠ [] := by
    rintro _ ⟨mark, gap, -, hgap, rfl⟩
    simp [hgap.1]
  refine ((Pattern.reads_text ['\n']).seq ((reads_anyOf isIndent).seq
    ((hpiece.many true hne).seq reads_declarationPattern))).congr fun read => ?_
  constructor
  · rintro ⟨_, _, rfl, rfl, indent, _, rfl, hindent, _, text, rfl, ⟨marks, rfl, hmarks⟩, name,
      htext⟩
    exact ⟨indent, marks, name, text, hindent, hmarks, htext, rfl⟩
  · rintro ⟨indent, marks, name, text, hindent, hmarks, htext, rfl⟩
    exact ⟨_, _, rfl, rfl, indent, _, rfl, hindent, _, text, rfl, ⟨marks, rfl, hmarks⟩, name, htext⟩

/-- The last letter of a declaration is one of a word. -/
theorem IsDeclaration.inWord {name text front : List Char} {s t : Spot}
    (h : IsDeclaration name text) (hpast : s.Past (front ++ text) t) : t.inWord = true := by
  obtain ⟨-, -, gap₁, gap₂, gap₃, gap₄, -, -, -, -, rfl⟩ := h
  rw [Spot.inWord, hpast.2]
  simp
  decide

/-- Within a word, an edge is where the word does not go on. -/
theorem mem_reads_wordEdge {s t : Spot} (h : s.inWord = true) :
    t ∈ Pattern.wordEdge.reads s ↔ t = s ∧ atWordEnd s.after = true := by
  rw [Pattern.reads, h]
  cases s.after with
  | nil => simp [atWordEnd]
  | cons c rest => cases hc : isWordChar c <;> simp [atWordEnd, hc]

/-- The line below can be read exactly where a line feed is followed by what introduces an
operation. -/
theorem belowPattern_reads_ne_nil_iff {t : Spot} :
    belowPattern.reads t ≠ [] ↔ ∃ indent rest, AllIndent indent ∧ Introduces rest
      ∧ t.after = '\n' :: (indent ++ rest) := by
  constructor
  · intro h
    obtain ⟨v, hv⟩ := List.exists_mem_of_ne_nil _ h
    rw [belowPattern, Pattern.reads, List.mem_flatMap] at hv
    obtain ⟨u, hu, hv⟩ := hv
    obtain ⟨_, ⟨indent, marks, name, text, hindent, hmarks, htext, rfl⟩, hpast⟩ :=
      (reads_introPattern t u).1 hu
    have hfront : '\n' :: (indent ++ (marks.flatten ++ text))
        = ('\n' :: (indent ++ marks.flatten)) ++ text := by simp
    have hword := htext.inWord (hfront ▸ hpast)
    obtain ⟨rfl, hend⟩ := (mem_reads_wordEdge hword).1 hv
    refine ⟨indent, _, hindent, ⟨marks, name, text, _, rfl, hmarks, htext, hend⟩, ?_⟩
    rw [hpast.1]
    simp
  · rintro ⟨indent, _, hindent, ⟨marks, name, text, rest, rfl, hmarks, htext, hend⟩, hafter⟩
    have hfront : '\n' :: (indent ++ (marks.flatten ++ text))
        = ('\n' :: (indent ++ marks.flatten)) ++ text := by simp
    obtain ⟨u, hpast, rfl⟩ : ∃ u : Spot,
        t.Past ('\n' :: (indent ++ (marks.flatten ++ text))) u ∧ u.after = rest :=
      ⟨⟨_, rest⟩, ⟨by rw [hafter]; simp, rfl⟩, rfl⟩
    have hmem : u ∈ introPattern.reads t := (reads_introPattern t u).2
      ⟨_, ⟨indent, marks, name, text, hindent, hmarks, htext, rfl⟩, hpast⟩
    have hedge : u ∈ Pattern.wordEdge.reads u :=
      (mem_reads_wordEdge (htext.inWord (hfront ▸ hpast))).2 ⟨rfl, hend⟩
    rw [belowPattern, Pattern.reads]
    exact List.ne_nil_of_mem (List.mem_flatMap.2 ⟨u, hmem, hedge⟩)

/-! ## Looking for the pattern -/

/-- Is the spot at the start of a line? -/
def Spot.atLineStart (s : Spot) : Bool :=
  s.before.head?.all (· = '\n')

/-- What the first pattern reads from a spot on, in the preferred way among those in which the
second pattern can follow. -/
def captureAt? (first second : Pattern) (s : Spot) : Option (List Char) :=
  ((first.reads s).find? fun t => !(second.reads t).isEmpty).map fun t =>
    s.after.take (s.after.length - t.after.length)

/-- The same at the first start of a line at which both patterns can be read. -/
def searchLines? (first second : Pattern) (before : List Char) : List Char → Option (List Char)
  | [] => if (Spot.mk before []).atLineStart then captureAt? first second ⟨before, []⟩ else none
  | c :: rest =>
    (if (Spot.mk before (c :: rest)).atLineStart then captureAt? first second ⟨before, c :: rest⟩
      else none).or (searchLines? first second (c :: before) rest)

/-- Within a line, the search goes on to the next one. -/
theorem searchLines?_within (first second : Pattern) {before line : List Char} {c : Char}
    (hc : before.head? = some c) (hne : c ≠ '\n') (hline : '\n' ∉ line) :
    searchLines? first second before line = none
      ∧ ∀ rest, searchLines? first second before (line ++ '\n' :: rest)
        = searchLines? first second ('\n' :: (line.reverse ++ before)) rest := by
  have hinside : ∀ after, (Spot.mk before after).atLineStart = false := by
    intro after
    rw [Spot.atLineStart, hc]
    simpa using hne
  induction line generalizing before c with
  | nil =>
    refine ⟨by rw [searchLines?, hinside]; rfl, fun rest => ?_⟩
    rw [List.nil_append, searchLines?, hinside]
    rfl
  | cons d line ih =>
    rw [List.mem_cons, not_or] at hline
    obtain ⟨hnone, hnext⟩ := ih (show (d :: before).head? = some d from rfl) (Ne.symm hline.1)
      hline.2 fun after => by simpa [Spot.atLineStart] using Ne.symm hline.1
    refine ⟨by rw [searchLines?, hinside, hnone]; rfl, fun rest => ?_⟩
    rw [List.cons_append, searchLines?, hinside, hnext]
    simp

/-- At the start of a line, the search takes what can be read there, or goes on to the next line. -/
theorem searchLines?_lineStart (first second : Pattern) {before line : List Char}
    (hbefore : (Spot.mk before []).atLineStart = true) (hline : '\n' ∉ line) :
    searchLines? first second before line = captureAt? first second ⟨before, line⟩
      ∧ ∀ rest, searchLines? first second before (line ++ '\n' :: rest)
        = (captureAt? first second ⟨before, line ++ '\n' :: rest⟩).or
          (searchLines? first second ('\n' :: (line.reverse ++ before)) rest) := by
  have hstart : ∀ after, (Spot.mk before after).atLineStart = true := fun _ => hbefore
  cases line with
  | nil =>
    refine ⟨by rw [searchLines?, if_pos (hstart _)], fun rest => ?_⟩
    rw [List.nil_append, searchLines?, if_pos (hstart _)]
    rfl
  | cons c line =>
    rw [List.mem_cons, not_or] at hline
    obtain ⟨hnone, hnext⟩ := searchLines?_within first second
      (show (c :: before).head? = some c from rfl) (Ne.symm hline.1) hline.2
    refine ⟨by rw [searchLines?, if_pos (hstart _), hnone, Option.or_none], fun rest => ?_⟩
    rw [List.cons_append, searchLines?, if_pos (hstart _), hnext]
    simp

/-! ## The run that the pattern finds -/

theorem unlines_append {lines lines' : List (List Char)} (h : lines ≠ []) (h' : lines' ≠ []) :
    unlines (lines ++ lines') = unlines lines ++ '\n' :: unlines lines' := by
  obtain ⟨line, rest, rfl⟩ := List.exists_cons_of_ne_nil h
  obtain ⟨line', rest', rfl⟩ := List.exists_cons_of_ne_nil h'
  rw [List.cons_append, unlines_cons, unlines_cons, unlines_cons]
  simp

theorem splitOn_unlines {lines : List (List Char)} (hne : lines ≠ [])
    (h : ∀ line ∈ lines, '\n' ∉ line) : splitOn '\n' (unlines lines) = lines := by
  induction lines with
  | nil => exact absurd rfl hne
  | cons line rest ih =>
    obtain ⟨hline, hrest⟩ := List.forall_mem_cons.1 h
    cases rest with
    | nil =>
      rw [unlines_cons, List.map_nil, List.flatten_nil, List.append_nil, splitOn_eq_self hline]
    | cons next rest =>
      have hstep : unlines (line :: next :: rest) = line ++ '\n' :: unlines (next :: rest) := rfl
      rw [hstep, splitOn_append hline, ih (by simp) hrest]

/-- What introduces an operation is on no comment line. -/
theorem not_isComment_of_introduces {indent rest : List Char} (hindent : AllIndent indent)
    (hrest : Introduces rest) {line : List Char} {lines : List (List Char)}
    (h : unlines (line :: lines) = indent ++ rest) : ¬ IsComment line := by
  rintro ⟨indent', text, hindent', rfl⟩
  have hdrop : (unlines ((indent' ++ ("///".toList ++ text)) :: lines)).dropWhile isIndent
      = "///".toList ++ (text ++ (lines.map ('\n' :: ·)).flatten) := by
    rw [unlines_cons, List.append_assoc, List.append_assoc,
      dropWhile_isIndent_append hindent' (by rintro c ⟨⟩; decide)]
  rw [h, dropWhile_isIndent_append hindent fun c hc => (hrest.endsGap c hc).1] at hdrop
  exact absurd (hrest.head?_mem (c := '/') (by rw [hdrop]; rfl)) (by decide)

/-- However the comment lines are read, all of those in front are read if a declaration follows. -/
theorem eq_takeWhile_of_unlines {lines run : List (List Char)} {indent rest : List Char}
    (hne : lines ≠ []) (hlines : ∀ line ∈ lines, '\n' ∉ line) (hrun : run ≠ [])
    (hcomment : ∀ line ∈ run, IsComment line ∧ '\n' ∉ line) (hindent : AllIndent indent)
    (hrest : Introduces rest) (h : unlines lines = unlines run ++ '\n' :: (indent ++ rest)) :
    run = lines.takeWhile isCommentLine
      ∧ unlines (lines.dropWhile isCommentLine) = indent ++ rest := by
  have hsplit : lines = run ++ splitOn '\n' (indent ++ rest) := by
    rw [← splitOn_unlines hne hlines, h, splitOn_append_cons,
      splitOn_unlines hrun fun line hline => (hcomment line hline).2]
  have hbelow : unlines (splitOn '\n' (indent ++ rest)) = indent ++ rest :=
    intercalate_splitOn '\n' _
  have hon : RunOn lines [] run (splitOn '\n' (indent ++ rest)) := by
    refine ⟨hsplit, hrun, fun line hline => (hcomment line hline).1, by simp, fun line hline => ?_,
      indent, rest, hindent, hrest, hbelow⟩
    obtain ⟨more, hmore⟩ := List.head?_eq_some_iff.1 hline
    rw [hmore] at hbelow
    exact not_isComment_of_introduces hindent hrest hbelow
  obtain ⟨htake, hdrop⟩ := hon.eq_of_nil
  exact ⟨htake, hdrop ▸ hbelow⟩

/-- **At the start of a line** the pattern reads the comment lines in front if they sit on a
declaration. -/
theorem captureAt?_run {line : List Char} {rest : List (List Char)}
    (hlines : ∀ l ∈ line :: rest, '\n' ∉ l) (before : List Char) :
    captureAt? runPattern belowPattern ⟨before, unlines (line :: rest)⟩ =
      if isCommentLine line = true ∧ sitsAbove (line :: rest) = true then
        some (unlines ((line :: rest).takeWhile isCommentLine))
      else none := by
  rw [captureAt?]
  cases hfound : (runPattern.reads ⟨before, unlines (line :: rest)⟩).find?
      fun t => !(belowPattern.reads t).isEmpty with
  | none =>
    rw [Option.map_none, if_neg]
    rintro ⟨hline, hsits⟩
    obtain ⟨indent, tail, hindent, htail, hbelow⟩ := sitsAbove_iff.1 hsits
    have hafter : (line :: rest).dropWhile isCommentLine ≠ [] := by
      intro hnil
      rw [hnil] at hbelow
      exact htail.ne_nil (List.append_eq_nil_iff.1 hbelow.symm).2
    have hblock : (line :: rest).takeWhile isCommentLine ≠ [] := by
      rw [List.takeWhile_cons_of_pos hline]
      simp
    have htext : unlines (line :: rest)
        = unlines ((line :: rest).takeWhile isCommentLine) ++ '\n' :: (indent ++ tail) := by
      rw [← hbelow, ← unlines_append hblock hafter, List.takeWhile_append_dropWhile]
    have hcomment : ∀ l ∈ (line :: rest).takeWhile isCommentLine, IsComment l ∧ '\n' ∉ l :=
      fun l hl => ⟨isCommentLine_iff.1 (List.all_eq_true.1 List.all_takeWhile l hl),
        hlines l ((List.takeWhile_sublist _).subset hl)⟩
    -- All the comment lines in front are one way to read the first pattern.
    obtain ⟨t, hpast, hbelow⟩ : ∃ t : Spot, (Spot.mk before (unlines (line :: rest))).Past
        (unlines ((line :: rest).takeWhile isCommentLine)) t ∧ t.after = '\n' :: (indent ++ tail) :=
      ⟨⟨_, _⟩, ⟨htext, rfl⟩, rfl⟩
    have hmem : t ∈ runPattern.reads ⟨before, unlines (line :: rest)⟩ :=
      (reads_runPattern _ t).2 ⟨_, ⟨_, hblock, hcomment, rfl⟩, hpast⟩
    have hreads : belowPattern.reads t ≠ [] :=
      belowPattern_reads_ne_nil_iff.2 ⟨indent, tail, hindent, htail, hbelow⟩
    exact absurd (List.find?_eq_none.1 hfound t hmem) (by simpa using hreads)
  | some t =>
    have hreads : belowPattern.reads t ≠ [] := by
      simpa using List.find?_some hfound
    obtain ⟨_, ⟨run, hrun, hcomment, rfl⟩, hpast⟩ :=
      (reads_runPattern _ t).1 (List.mem_of_find?_eq_some hfound)
    obtain ⟨indent, tail, hindent, htail, hafter⟩ := belowPattern_reads_ne_nil_iff.1 hreads
    have htext : unlines (line :: rest) = unlines run ++ t.after := hpast.1
    obtain ⟨hblock, hbelow⟩ := eq_takeWhile_of_unlines (by simp) hlines hrun hcomment hindent htail
      (hafter ▸ htext)
    have hline : isCommentLine line = true := by
      refine Decidable.byContradiction fun hnot => ?_
      rw [List.takeWhile_cons_of_neg hnot] at hblock
      exact hrun hblock
    rw [if_pos ⟨hline, sitsAbove_iff.2 ⟨indent, tail, hindent, htail, hbelow⟩⟩, ← hblock]
    simp [htext]

/-- **The pattern finds the first run of comment lines on a declaration.** -/
theorem searchLines?_run {lines : List (List Char)} (hne : lines ≠ [])
    (hlines : ∀ line ∈ lines, '\n' ∉ line) {before : List Char}
    (hbefore : (Spot.mk before []).atLineStart = true) :
    searchLines? runPattern belowPattern before (unlines lines)
      = (firstRun? lines).map unlines := by
  induction lines generalizing before with
  | nil => exact absurd rfl hne
  | cons line rest ih =>
    obtain ⟨hline, hrest⟩ := List.forall_mem_cons.1 hlines
    obtain ⟨hlast, hnext⟩ := searchLines?_lineStart runPattern belowPattern hbefore hline
    have hread := captureAt?_run hlines before
    rw [firstRun?]
    cases rest with
    | nil =>
      have htext : unlines [line] = line := by simp [unlines]
      rw [htext] at hread ⊢
      rw [hlast, hread]
      split <;> rfl
    | cons next rest =>
      have htext : unlines (line :: next :: rest) = line ++ '\n' :: unlines (next :: rest) := rfl
      rw [htext] at hread ⊢
      rw [hnext, hread, ih (by simp) hrest rfl]
      split <;> rfl

/-! ## The narrative -/

/-- **The narrative and the run that it is taken from.** If some run of comment lines sits on a
declaration, there is a topmost one. Its lines tell pieces, which are determined by the run. Those
that are not empty, with blanks between them, are the narrative, and if all of them are empty there
is none, whatever runs are below. The narrative has no white space around it and no line boundary in
it. Without such a run there is no narrative either. The pattern finds the same run, or nothing. -/
theorem narrative_topmost (file : SourceFile) :
    ((∀ front block after, ¬ RunOn (splitOn '\n' file.text.toList) front block after) →
        Extractor.narrative.facts file = []
          ∧ searchLines? runPattern belowPattern [] file.text.toList = none)
      ∧ ((∃ front block after, RunOn (splitOn '\n' file.text.toList) front block after) →
        ∃ front block after, IsTopmost (splitOn '\n' file.text.toList) front block after)
      ∧ ∀ front block after, IsTopmost (splitOn '\n' file.text.toList) front block after →
        ∃ pieces, (∀ found, Pieces (unlines block) found ↔ found = pieces)
          ∧ Extractor.narrative.facts file =
            (if pieces = [] then []
            else [.narrative (.text (String.ofList ([' '].intercalate pieces)))])
          ∧ NoBlankEnds ([' '].intercalate pieces)
          ∧ (∀ c ∈ [' '].intercalate pieces, isLineBoundary c = false)
          ∧ searchLines? runPattern belowPattern [] file.text.toList = some (unlines block) := by
  have hsearch : searchLines? runPattern belowPattern [] file.text.toList
      = (firstRun? (splitOn '\n' file.text.toList)).map unlines := by
    have htext : unlines (splitOn '\n' file.text.toList) = file.text.toList :=
      intercalate_splitOn '\n' _
    have hrun : searchLines? runPattern belowPattern []
        (unlines (splitOn '\n' file.text.toList)) = _ :=
      searchLines?_run (splitOn_ne_nil '\n' file.text.toList)
        (fun line hline => not_mem_of_mem_splitOn hline) rfl
    rwa [htext] at hrun
  refine ⟨fun hnone => ⟨facts_narrative_of_not_runOn hnone, ?_⟩, ?_,
    fun front block after htop => ?_⟩
  · rw [hsearch, Option.map_eq_none_iff, Option.eq_none_iff_forall_ne_some]
    intro block hfound
    obtain ⟨front, after, hrun, -⟩ := exists_isTopmost_of_firstRun? hfound
    exact hnone front block after hrun
  · rintro ⟨front, block, after, hrun⟩
    cases hfound : firstRun? (splitOn '\n' file.text.toList) with
    | none => exact absurd hrun (not_runOn_of_firstRun? hfound)
    | some first =>
      obtain ⟨front', after', htop⟩ := exists_isTopmost_of_firstRun? hfound
      exact ⟨front', first, after', htop⟩
  · obtain ⟨pieces, hpieces, hfacts⟩ := facts_narrative_of_isTopmost htop
    obtain ⟨hends, hline⟩ := intercalate_pieces fun piece => ((hpieces pieces).2 rfl).of_mem
    refine ⟨pieces, hpieces, hfacts, hends, hline, ?_⟩
    rw [hsearch, firstRun?_of_isTopmost htop]
    rfl

/-- An empty comment on a declaration hides the one after it. -/
example : Extractor.narrative.facts ⟨⟨.here, ["a.d"]⟩,
    "///\n@safe pure\nvoid a(ref Evaluation e)\n/// Tells b.\nvoid b(ref Evaluation e)"⟩ = [] := by
  decide +kernel

end Source
end RefPages
