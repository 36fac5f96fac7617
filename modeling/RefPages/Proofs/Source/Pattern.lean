import RefPages.Source.Scan

/-!
# Patterns with backtracking

A pattern can be read at a spot of a text in several ways: repetitions may take more or fewer
rounds, and alternatives are tried in turn. `Pattern.reads` lists where each way ends, the
preferred one first, so whoever goes on with the first end that suits tries them in the order of a
backtracking matcher.

* `Spot` is a place in a text, and `Spot.Past` a later one with what stands in between.
* `Pattern.reads` are the ends, and `Pattern.findAll` the texts that a pattern finds one after the
  other, each as the preferred way has it.
* `Pattern.Reads` says what texts a pattern reads in any way at all. It is put together along the
  pattern: `Pattern.Reads.seq`, `Pattern.Reads.either` and `Pattern.Reads.many`.
-/

set_option autoImplicit false
namespace RefPages
namespace Source

open Text

/-- A place in a text: what stands before it, the nearest character first, and what follows. -/
structure Spot where
  before : List Char
  after : List Char
  deriving DecidableEq, Repr

/-- From `s` the text `read` leads to `t`. -/
def Spot.Past (s : Spot) (read : List Char) (t : Spot) : Prop :=
  s.after = read ++ t.after ∧ t.before = read.reverse ++ s.before

/-- Does a word character stand before the spot? -/
def Spot.inWord (s : Spot) : Bool :=
  s.before.head?.any isWordChar

/-- What can be looked for in a text. -/
inductive Pattern where
  | nothing
  | one (p : Char → Bool)
  | wordEdge
  | seq (first second : Pattern)
  | either (first second : Pattern)
  | many (greedy : Bool) (round : Pattern)

/-- The spots after any number of rounds. If `greedy`, further rounds are preferred; a round that
reads nothing is not taken. -/
def rounds (read : Spot → List Spot) (greedy : Bool) (s : Spot) : List Spot :=
  let further := (read s).flatMap fun t =>
    if _h : t.after.length < s.after.length then rounds read greedy t else []
  if greedy then further ++ [s] else s :: further
termination_by s.after.length

namespace Pattern

/-- The spots at which a pattern read from `s` on can end, in the order in which they are tried. -/
def reads : Pattern → Spot → List Spot
  | nothing, s => [s]
  | one p, s =>
    match s.after with
    | [] => []
    | c :: rest => if p c then [⟨c :: s.before, rest⟩] else []
  | wordEdge, s => if s.inWord = s.after.head?.any isWordChar then [] else [s]
  | seq first second, s => (first.reads s).flatMap second.reads
  | either first second, s => first.reads s ++ second.reads s
  | many greedy round, s => rounds round.reads greedy s

/-- The texts that the pattern finds from `s` on: the preferred one at the first spot at which it
reads something, and so on from its end. -/
def findAll (pattern : Pattern) (s : Spot) : List (List Char) :=
  match _h : (pattern.reads s).find? fun t => t.after.length < s.after.length with
  | some t => s.after.take (s.after.length - t.after.length) :: pattern.findAll t
  | none =>
    match s with
    | ⟨_, []⟩ => []
    | ⟨before, c :: rest⟩ => pattern.findAll ⟨c :: before, rest⟩
termination_by s.after.length
decreasing_by
  · simpa using List.find?_some _h
  · simp

/-- A fixed text. -/
def text (chars : List Char) : Pattern :=
  chars.foldr (fun c rest => seq (one (· = c)) rest) nothing

/-! ## What is read -/

/-- The texts that the pattern reads, in whatever way. -/
def Reads (pattern : Pattern) (texts : List Char → Prop) : Prop :=
  ∀ s t, t ∈ pattern.reads s ↔ ∃ read, texts read ∧ s.Past read t

variable {first second : Pattern} {texts texts' : List Char → Prop}

theorem Reads.congr (h : first.Reads texts) (heq : ∀ read, texts read ↔ texts' read) :
    first.Reads texts' := by
  intro s t
  rw [h s t]
  exact exists_congr fun read => and_congr_left' (heq read)

theorem reads_nothing : nothing.Reads (· = []) := by
  intro s t
  rw [reads, List.mem_singleton]
  constructor
  · rintro rfl
    exact ⟨[], rfl, rfl, rfl⟩
  · rintro ⟨_, rfl, hafter, hbefore⟩
    cases s
    cases t
    simp_all

theorem reads_one (p : Char → Bool) : (one p).Reads fun read => ∃ c, read = [c] ∧ p c = true := by
  intro s t
  obtain ⟨before, after⟩ := s
  cases after with
  | nil =>
    constructor
    · intro h
      exact absurd h (by simp [reads])
    · rintro ⟨_, ⟨c, rfl, -⟩, hafter, -⟩
      exact absurd hafter (by simp)
  | cons c rest =>
    simp only [reads]
    constructor
    · intro h
      split at h
      · rename_i hc
        rw [List.mem_singleton] at h
        subst h
        exact ⟨[c], ⟨c, rfl, hc⟩, rfl, rfl⟩
      · exact absurd h (by simp)
    · rintro ⟨_, ⟨d, rfl, hd⟩, hafter, hbefore⟩
      obtain ⟨rfl, rfl⟩ := List.cons.inj hafter
      rw [if_pos hd, List.mem_singleton]
      cases t
      simp_all

/-- A word edge parts a word character from one that is none. -/
theorem mem_reads_wordEdge_seq {pattern : Pattern} {s t : Spot} :
    t ∈ (seq wordEdge pattern).reads s ↔
      s.inWord ≠ s.after.head?.any isWordChar ∧ t ∈ pattern.reads s := by
  rw [reads, reads]
  split <;> simp_all

theorem past_append {s t u : Spot} {read read' : List Char} (h : s.Past read t)
    (h' : t.Past read' u) : s.Past (read ++ read') u := by
  refine ⟨?_, ?_⟩
  · rw [h.1, h'.1, List.append_assoc]
  · rw [h'.2, h.2, List.reverse_append, List.append_assoc]

theorem exists_past_of_append {s u : Spot} {read read' : List Char}
    (h : s.Past (read ++ read') u) : ∃ t, s.Past read t ∧ t.Past read' u := by
  refine ⟨⟨read.reverse ++ s.before, read' ++ u.after⟩, ⟨?_, rfl⟩, rfl, ?_⟩
  · rw [h.1, List.append_assoc]
  · rw [h.2, List.reverse_append, List.append_assoc]

theorem Reads.seq (h : first.Reads texts) (h' : second.Reads texts') :
    (seq first second).Reads fun read => ∃ x y, read = x ++ y ∧ texts x ∧ texts' y := by
  intro s u
  rw [reads, List.mem_flatMap]
  constructor
  · rintro ⟨t, ht, hu⟩
    obtain ⟨x, hx, hpast⟩ := (h s t).1 ht
    obtain ⟨y, hy, hpast'⟩ := (h' t u).1 hu
    exact ⟨x ++ y, ⟨x, y, rfl, hx, hy⟩, past_append hpast hpast'⟩
  · rintro ⟨_, ⟨x, y, rfl, hx, hy⟩, hpast⟩
    obtain ⟨t, hpast, hpast'⟩ := exists_past_of_append hpast
    exact ⟨t, (h s t).2 ⟨x, hx, hpast⟩, (h' t u).2 ⟨y, hy, hpast'⟩⟩

theorem Reads.either (h : first.Reads texts) (h' : second.Reads texts') :
    (either first second).Reads fun read => texts read ∨ texts' read := by
  intro s t
  rw [reads, List.mem_append, h s t, h' s t, ← exists_or]
  exact exists_congr fun read => or_and_right.symm

/-- All rounds but the last one lead to a spot at which a further one is read. -/
theorem mem_rounds {read : Spot → List Spot} {greedy : Bool} {s u : Spot} :
    u ∈ rounds read greedy s ↔
      u = s ∨ ∃ t ∈ read s, t.after.length < s.after.length ∧ u ∈ rounds read greedy t := by
  have hround : ∀ t, (u ∈ if t.after.length < s.after.length then rounds read greedy t else []) ↔
      t.after.length < s.after.length ∧ u ∈ rounds read greedy t := by
    intro t
    by_cases hlt : t.after.length < s.after.length <;> simp [hlt]
  rw [rounds]
  cases greedy
  · simp [hround]
  · simp [hround, or_comm]

theorem Reads.many (greedy : Bool) (h : first.Reads texts) (hne : ∀ read, texts read → read ≠ []) :
    (many greedy first).Reads fun read =>
      ∃ pieces : List (List Char), read = pieces.flatten ∧ ∀ piece ∈ pieces, texts piece := by
  intro s u
  rw [reads]
  constructor
  · -- The induction is on what follows the spot, which a round makes shorter.
    intro hu
    induction hn : s.after.length using Nat.strongRecOn generalizing s with
    | ind n ih =>
      subst hn
      rcases mem_rounds.1 hu with rfl | ⟨t, ht, hlt, hu⟩
      · exact ⟨[], ⟨[], rfl, by simp⟩, rfl, rfl⟩
      · obtain ⟨piece, hpiece, hpast⟩ := (h s t).1 ht
        obtain ⟨_, ⟨pieces, rfl, hpieces⟩, hpast'⟩ := ih _ hlt t hu rfl
        exact ⟨piece ++ pieces.flatten, ⟨piece :: pieces, rfl,
          List.forall_mem_cons.2 ⟨hpiece, hpieces⟩⟩, past_append hpast hpast'⟩
  · rintro ⟨_, ⟨pieces, rfl, hpieces⟩, hpast⟩
    induction pieces generalizing s with
    | nil =>
      refine mem_rounds.2 (.inl ?_)
      cases s
      cases u
      obtain ⟨hafter, hbefore⟩ := hpast
      simp_all
    | cons piece pieces ih =>
      obtain ⟨hpiece, hpieces⟩ := List.forall_mem_cons.1 hpieces
      obtain ⟨t, hpast, hpast'⟩ := exists_past_of_append hpast
      refine mem_rounds.2 (.inr ⟨t, (h s t).2 ⟨piece, hpiece, hpast⟩, ?_, ih t hpieces hpast'⟩)
      have := List.length_pos_iff.2 (hne piece hpiece)
      rw [hpast.1, List.length_append]
      omega

theorem reads_text (chars : List Char) : (text chars).Reads (· = chars) := by
  induction chars with
  | nil => exact reads_nothing
  | cons c rest ih =>
    refine ((reads_one _).seq ih).congr fun read => ?_
    constructor
    · rintro ⟨_, _, rfl, ⟨d, rfl, hd⟩, rfl⟩
      rw [decide_eq_true_eq] at hd
      rw [hd]
      rfl
    · rintro rfl
      exact ⟨[c], rest, rfl, ⟨c, rfl, by simp⟩, rfl⟩

end Pattern

end Source
end RefPages
