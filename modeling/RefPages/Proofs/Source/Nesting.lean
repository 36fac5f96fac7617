import RefPages.Proofs.Source.Lexeme

/-!
# Nested brackets

Brackets count only where they are lexemes of their own: what stands in literals and comments is no
bracket. All notions here take the brackets that count as pairs, so that a reader which knows braces
only can be told from one which knows all brackets.

* `Balanced` says by its rules how brackets are nested.
* `Closing` is the same for a text in which brackets are still to be closed that were opened before
  it; its lemmas say what one more lexeme in front does.
* `closes` decides it with a stack of closing brackets, which makes `Balanced` decidable.
-/

set_option autoImplicit false
namespace RefPages
namespace Source

variable {pairs : List (Char × Char)} {stack : List Char} {l : Lexeme} {lexemes : List Lexeme}

/-- The bracket that closes the one that `l` opens. -/
def closerOf? (pairs : List (Char × Char)) : Lexeme → Option Char
  | .char c => pairs.lookup c
  | _ => none

/-- Is `l` a closing bracket? -/
def isCloser (pairs : List (Char × Char)) : Lexeme → Bool
  | .char c => pairs.any (·.2 = c)
  | _ => false

/-- Every bracket is closed by its counterpart, and what stands between the two is balanced. -/
inductive Balanced (pairs : List (Char × Char)) : List Lexeme → Prop where
  | nil : Balanced pairs []
  | plain {l : Lexeme} {rest : List Lexeme} : closerOf? pairs l = none → isCloser pairs l = false →
      Balanced pairs rest → Balanced pairs (l :: rest)
  | nest {l : Lexeme} {c : Char} {inner rest : List Lexeme} : closerOf? pairs l = some c →
      Balanced pairs inner → Balanced pairs rest → Balanced pairs (l :: (inner ++ .char c :: rest))

/-- The brackets of `stack` are closed one after the other, and all else is balanced. -/
def Closing (pairs : List (Char × Char)) : List Char → List Lexeme → Prop
  | [], lexemes => Balanced pairs lexemes
  | c :: stack, lexemes => ∃ inner rest, lexemes = inner ++ .char c :: rest
      ∧ Balanced pairs inner ∧ Closing pairs stack rest

theorem Closing.plain (hopen : closerOf? pairs l = none) (hclose : isCloser pairs l = false)
    (h : Closing pairs stack lexemes) : Closing pairs stack (l :: lexemes) := by
  cases stack with
  | nil => exact .plain hopen hclose h
  | cons c stack =>
    obtain ⟨inner, rest, rfl, hinner, hrest⟩ := h
    exact ⟨l :: inner, rest, rfl, .plain hopen hclose hinner, hrest⟩

theorem Closing.opened {c : Char} (hopen : closerOf? pairs l = some c)
    (h : Closing pairs (c :: stack) lexemes) : Closing pairs stack (l :: lexemes) := by
  obtain ⟨inner, rest, rfl, hinner, hrest⟩ := h
  cases stack with
  | nil => exact .nest hopen hinner hrest
  | cons d stack =>
    obtain ⟨inner', rest', rfl, hinner', hrest'⟩ := hrest
    exact ⟨l :: (inner ++ .char c :: inner'), rest', by simp, .nest hopen hinner hinner', hrest'⟩

theorem Closing.closed (c : Char) (h : Closing pairs stack lexemes) :
    Closing pairs (c :: stack) (.char c :: lexemes) :=
  ⟨[], lexemes, rfl, .nil, h⟩

/-! ## The decision -/

/-- Are the brackets of `stack` closed one after the other, and all else balanced? -/
def closes (pairs : List (Char × Char)) : (stack : List Char) → List Lexeme → Bool
  | stack, [] => stack.isEmpty
  | stack, l :: rest =>
    match closerOf? pairs l with
    | some c => closes pairs (c :: stack) rest
    | none =>
      if isCloser pairs l then
        match stack with
        | [] => false
        | c :: stack => l = .char c && closes pairs stack rest
      else closes pairs stack rest

/-- No bracket both opens and closes. -/
def Unambiguous (pairs : List (Char × Char)) : Prop :=
  ∀ p ∈ pairs, pairs.lookup p.2 = none

theorem isCloser_of_closerOf? {c : Char} (h : closerOf? pairs l = some c) :
    isCloser pairs (.char c) = true := by
  cases l with
  | char d =>
    obtain ⟨_, hmem⟩ : ∃ d, (d, c) ∈ pairs := by
      simp only [closerOf?, List.lookup_eq_some_iff] at h
      obtain ⟨front, back, rfl, -⟩ := h
      exact ⟨d, by simp⟩
    exact List.any_eq_true.2 ⟨_, hmem, by simp⟩
  | _ => exact absurd h (by simp [closerOf?])

theorem Unambiguous.closerOf?_eq_none (h : Unambiguous pairs) {c : Char}
    (hclose : isCloser pairs (.char c) = true) : closerOf? pairs (.char c) = none := by
  obtain ⟨p, hp, hpc⟩ := List.any_eq_true.1 hclose
  rw [decide_eq_true_eq] at hpc
  rw [closerOf?, ← hpc]
  exact h p hp

theorem closes_opener {c : Char} (hopen : closerOf? pairs l = some c) (stack : List Char)
    (rest : List Lexeme) : closes pairs stack (l :: rest) = closes pairs (c :: stack) rest := by
  rw [closes.eq_def]
  simp only [hopen]

theorem closes_plain (hopen : closerOf? pairs l = none) (hclose : isCloser pairs l = false)
    (stack : List Char) (rest : List Lexeme) :
    closes pairs stack (l :: rest) = closes pairs stack rest := by
  rw [closes.eq_def]
  simp [hopen, hclose]

theorem closes_closer (h : Unambiguous pairs) {c : Char}
    (hclose : isCloser pairs (.char c) = true) (stack : List Char) (rest : List Lexeme) :
    closes pairs (c :: stack) (.char c :: rest) = closes pairs stack rest := by
  simp [closes, h.closerOf?_eq_none hclose, hclose]

/-- A balanced text leaves the stack as it is. -/
theorem Balanced.closes_append (hpairs : Unambiguous pairs) (h : Balanced pairs lexemes)
    (stack : List Char) (rest : List Lexeme) :
    closes pairs stack (lexemes ++ rest) = closes pairs stack rest := by
  induction h generalizing stack rest with
  | nil => rfl
  | plain hopen hclose _ ih =>
    rw [List.cons_append, closes_plain hopen hclose, ih]
  | nest hopen _ _ ihinner ihrest =>
    rw [List.cons_append, closes_opener hopen, List.append_assoc, List.cons_append, ihinner,
      closes_closer hpairs (isCloser_of_closerOf? hopen), ihrest]

theorem closes_iff (hpairs : Unambiguous pairs)
    (hstack : ∀ c ∈ stack, isCloser pairs (.char c) = true) :
    closes pairs stack lexemes = true ↔ Closing pairs stack lexemes := by
  constructor
  · intro h
    clear hstack
    fun_induction closes pairs stack lexemes with
    | case1 stack =>
      rw [List.isEmpty_iff] at h
      subst h
      exact .nil
    | case2 stack l rest c hopen ih => exact (ih h).opened hopen
    | case3 l rest hopen hclose => exact absurd h (by simp)
    | case4 l rest hopen hclose c stack ih =>
      rw [Bool.and_eq_true, decide_eq_true_eq] at h
      obtain ⟨rfl, h⟩ := h
      exact (ih h).closed c
    | case5 stack l rest hopen hclose ih => exact (ih h).plain hopen (by simpa using hclose)
  · intro h
    induction stack generalizing lexemes with
    | nil =>
      have := Balanced.closes_append hpairs h [] []
      rwa [List.append_nil] at this
    | cons c stack ih =>
      obtain ⟨inner, rest, rfl, hinner, hrest⟩ := h
      obtain ⟨hc, hstack⟩ := List.forall_mem_cons.1 hstack
      rw [hinner.closes_append hpairs, closes_closer hpairs hc]
      exact ih hstack hrest

theorem balanced_iff (hpairs : Unambiguous pairs) :
    Balanced pairs lexemes ↔ closes pairs [] lexemes = true := by
  show Closing pairs [] lexemes ↔ _
  exact (closes_iff hpairs (by simp)).symm

/-- After a balanced text a closing bracket has nothing to close. -/
theorem Balanced.not_append_closer (hpairs : Unambiguous pairs) {c : Char}
    (hclose : isCloser pairs (.char c) = true) (h : Balanced pairs lexemes) (more : List Lexeme) :
    ¬ Balanced pairs (lexemes ++ .char c :: more) := by
  intro hmore
  rw [balanced_iff hpairs, h.closes_append hpairs] at hmore
  simp [closes, hpairs.closerOf?_eq_none hclose, hclose] at hmore

/-- The closing bracket that ends a balanced text is determined. -/
theorem Balanced.eq_of_append_closer (hpairs : Unambiguous pairs) {c : Char}
    (hclose : isCloser pairs (.char c) = true) {first second rest rest' : List Lexeme}
    (hfirst : Balanced pairs first) (hsecond : Balanced pairs second)
    (h : first ++ .char c :: rest = second ++ .char c :: rest') :
    first = second ∧ rest = rest' := by
  rcases List.append_eq_append_iff.1 h with ⟨between, rfl, hrest⟩ | ⟨between, rfl, hrest⟩
  · cases between with
    | nil => exact ⟨by simp, (List.cons.inj hrest).2⟩
    | cons l between =>
      obtain ⟨rfl, -⟩ := List.cons.inj hrest
      exact absurd hsecond (hfirst.not_append_closer hpairs hclose between)
  · cases between with
    | nil => exact ⟨by simp, (List.cons.inj hrest).2.symm⟩
    | cons l between =>
      obtain ⟨rfl, -⟩ := List.cons.inj hrest
      exact absurd hfirst (hsecond.not_append_closer hpairs hclose between)

end Source
end RefPages
