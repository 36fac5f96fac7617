import RefPages.Proofs.Text.Reline
import RefPages.Proofs.Yaml.QuotedScalar
import RefPages.Yaml.Scalar

/-!
# What stands between apostrophes

What `singleBody` writes is read back by `quotedRest`. The body is taken after it has been cut into
lines and joined again (`reline`), since that is how it reaches a page.

* `ReadsSingle`: something is read, it holds no line break other than the line feed, and it is the
  text itself if that holds none.
* `readsSingle`: this is so for every text that may be written between apostrophes.

The proof goes through the text piece by piece: a run of line breaks, a run of blanks, or one other
character. That no blank stands next to a line break is what keeps the runs apart.
-/

set_option autoImplicit false
namespace RefPages
namespace Yaml

open Text Cursor

/-! ## Pairs of neighbours -/

theorem hasPair_eq_true_iff {p q : Char → Bool} {cs : List Char} :
    hasPair p q cs = true ↔ ∃ xs a b ys, cs = xs ++ a :: b :: ys ∧ p a = true ∧ q b = true := by
  fun_induction hasPair p q cs with
  | case1 c d rest ih =>
    rw [Bool.or_eq_true, Bool.and_eq_true, ih]
    constructor
    · rintro (⟨hc, hd⟩ | ⟨xs, a, b, ys, h, ha, hb⟩)
      · exact ⟨[], c, d, rest, rfl, hc, hd⟩
      · exact ⟨c :: xs, a, b, ys, by rw [h]; rfl, ha, hb⟩
    · rintro ⟨xs, a, b, ys, h, ha, hb⟩
      cases xs with
      | nil =>
        simp only [List.nil_append, List.cons.injEq] at h
        obtain ⟨rfl, rfl, -⟩ := h
        exact Or.inl ⟨ha, hb⟩
      | cons x xs =>
        simp only [List.cons_append, List.cons.injEq] at h
        exact Or.inr ⟨xs, a, b, ys, h.2, ha, hb⟩
  | case2 cs h =>
    simp only [Bool.false_eq_true, false_iff, not_exists, not_and]
    rintro (_ | ⟨x, _ | ⟨y, xs⟩⟩) a b ys rfl
    · exact absurd rfl (h a b ys)
    · exact absurd rfl (h x a (b :: ys))
    · exact absurd rfl (h x y (xs ++ a :: b :: ys))

/-- Where no pair stands in a text, none stands in an end of it. -/
theorem hasPair_append_right {p q : Char → Bool} {xs ys : List Char}
    (h : hasPair p q (xs ++ ys) = false) : hasPair p q ys = false := by
  rw [← Bool.not_eq_true] at h ⊢
  intro hy
  obtain ⟨us, a, b, vs, rfl, ha, hb⟩ := hasPair_eq_true_iff.1 hy
  exact h (hasPair_eq_true_iff.2 ⟨xs ++ us, a, b, vs, by rw [List.append_assoc], ha, hb⟩)

/-- After a run of the first class the text goes on with no character of the second. -/
theorem stopsAt_of_hasPair {p q : Char → Bool} {run tail : List Char} (hne : run ≠ [])
    (hrun : ∀ ch ∈ run, p ch = true) (h : hasPair p q (run ++ tail) = false) : StopsAt q tail := by
  intro ch hch
  obtain ⟨front, last, rfl⟩ : ∃ front last, run = front ++ [last] :=
    ⟨run.dropLast, run.getLast hne, (List.dropLast_concat_getLast hne).symm⟩
  cases tail with
  | nil => simp at hch
  | cons d tail =>
    obtain rfl : d = ch := by simpa using hch
    rw [← Bool.not_eq_true] at h ⊢
    intro hq
    refine h (hasPair_eq_true_iff.2 ⟨front, last, d, tail, ?_, hrun last (by simp), hq⟩)
    rw [List.append_assoc]
    rfl

/-! ## Characters that are written as they are -/

/-- What is not special ends a line only as a written line break. -/
theorem isLineBoundary_of_not_special {c : Char} (h : isSpecial c = false) :
    isLineBoundary c = isWrittenBreak c := by
  by_cases hb : isLineBoundary c = true
  · simp only [isLineBoundary, List.mem_cons, List.not_mem_nil, or_false, decide_eq_true_eq] at hb
    rcases hb with rfl | rfl | rfl | rfl | rfl | rfl | rfl | rfl | rfl | rfl <;>
      first | rfl | exact absurd h (by decide)
  · have hw : isWrittenBreak c = false := by
      rw [← Bool.not_eq_true]
      intro hw
      simp only [isWrittenBreak, Bool.or_eq_true, decide_eq_true_eq] at hw
      rcases hw with ((rfl | rfl) | rfl) | rfl <;> exact hb (by decide)
    rw [hw, Bool.eq_false_iff.2 hb]

theorem isLineBoundary_of_isWrittenBreak {c : Char} (h : isWrittenBreak c = true) :
    isLineBoundary c = true := by
  simp only [isWrittenBreak, Bool.or_eq_true, decide_eq_true_eq] at h
  rcases h with ((rfl | rfl) | rfl) | rfl <;> rfl

theorem isBreak_of_not_special {c : Char} (h : isSpecial c = false) :
    isBreak c = isWrittenBreak c := by
  rw [isBreak]
  have hc : c ≠ '\r' := by
    rintro rfl
    exact absurd h (by decide)
  simp [hc]

theorem isBlankOrTab_of_not_special {c : Char} (h : isSpecial c = false) :
    isBlankOrTab c = isSpace c := by
  have hc : c ≠ '\t' := by
    rintro rfl
    exact absurd h (by decide)
  simp [isBlankOrTab, isSpace, hc]

/-- A character that is neither special nor a line break is kept when the text is relined. -/
theorem relineChar_eq_self {c : Char} (h : isSpecial c = false) (hb : isWrittenBreak c = false) :
    relineChar c = c := by
  rw [relineChar, isLineBoundary_of_not_special h, hb]
  rfl

theorem relineChar_of_isWrittenBreak {c : Char} (h : isWrittenBreak c = true) :
    relineChar c = '\n' := by
  rw [relineChar, isLineBoundary_of_isWrittenBreak h]
  rfl

/-! ## Between apostrophes -/

theorem singleBody_true {rest : List Char} (h : StopsAt isWrittenBreak rest) :
    singleBody true rest = ' ' :: ' ' :: singleBody false rest := by
  cases rest with
  | nil => rfl
  | cons c rest =>
    have hc : isWrittenBreak c = false := h c rfl
    simp [singleBody, hc]

theorem singleBody_true_append {breaks rest : List Char}
    (hbreaks : ∀ c ∈ breaks, isWrittenBreak c = true) :
    singleBody true (breaks ++ rest) = breaks ++ singleBody true rest := by
  induction breaks with
  | nil => rfl
  | cons c breaks ih =>
    have h := List.forall_mem_cons.1 hbreaks
    simp [singleBody, h.1, ih h.2]

theorem reline_breaks {breaks : List Char} (h : ∀ c ∈ breaks, isWrittenBreak c = true) :
    reline breaks = List.replicate breaks.length '\n' := by
  induction breaks with
  | nil => rfl
  | cons c breaks ih =>
    have h := List.forall_mem_cons.1 h
    rw [reline_cons, relineChar_of_isWrittenBreak h.1, ih h.2, List.length_cons,
      List.replicate_succ]

/-- A run of line breaks is written as line feeds, one more of them if it starts with one, and the
next line is indented. -/
theorem reline_singleBody_breaks {b : Char} {breaks rest : List Char}
    (hb : isWrittenBreak b = true) (hbreaks : ∀ c ∈ breaks, isWrittenBreak c = true)
    (hrest : StopsAt isWrittenBreak rest) :
    reline (singleBody false (b :: (breaks ++ rest))) =
      '\n' :: (List.replicate (breaks.length + if b = '\n' then 1 else 0) '\n'
        ++ ' ' :: ' ' :: reline (singleBody false rest)) := by
  have hbody : singleBody false (b :: (breaks ++ rest)) =
      (if b = '\n' then ['\n', '\n'] else [b])
        ++ (breaks ++ ' ' :: ' ' :: singleBody false rest) := by
    rw [← singleBody_true hrest, ← singleBody_true_append hbreaks]
    simp [singleBody, hb]
  rw [hbody, reline_append, reline_append, reline_breaks hbreaks]
  split
  · rw [List.replicate_succ]
    rfl
  · rw [reline_cons, relineChar_of_isWrittenBreak hb]
    rfl

/-- The body of a text that starts with no line break starts with its first character. -/
theorem stopsAt_reline_singleBody {p : Char → Bool} {rest after : List Char}
    (hplain : ∀ c ∈ rest, isSpecial c = false) (hbreak : StopsAt isWrittenBreak rest)
    (hp : StopsAt p rest) (hquote : p '\'' = false) :
    StopsAt p (reline (singleBody false rest) ++ '\'' :: after) := by
  intro ch hch
  cases rest with
  | nil =>
    obtain rfl : '\'' = ch := by simpa [singleBody] using hch
    exact hquote
  | cons c rest =>
    have hc : isWrittenBreak c = false := hbreak c rfl
    have hkeep : relineChar c = c := relineChar_eq_self (hplain c (by simp)) hc
    by_cases hq : c = '\''
    · subst hq
      have : '\'' = ch := by simpa [singleBody, hc, hkeep] using hch
      rw [← this]
      exact hquote
    · have : c = ch := by simpa [singleBody, hc, hq, hkeep] using hch
      rw [← this]
      exact hp c rfl

theorem singleBody_blanks {run rest : List Char} (hrun : ∀ x ∈ run, x = ' ') :
    singleBody false (run ++ rest) = run ++ singleBody false rest := by
  induction run with
  | nil => rfl
  | cons x run ih =>
    have h := List.forall_mem_cons.1 hrun
    obtain rfl := h.1
    simp [singleBody, ih h.2, isWrittenBreak]

theorem reline_blanks {run : List Char} (hrun : ∀ x ∈ run, x = ' ') : reline run = run :=
  reline_eq_self fun x hx hb => by rw [hrun x hx] at hb; exact absurd hb (by decide)

theorem foldBreaks_newlines (m : Nat) :
    foldBreaks '\n' (List.replicate m '\n') = if m = 0 then [' '] else List.replicate m '\n' := by
  cases m <;> simp [foldBreaks, List.replicate_succ]

/-- Nothing is written between apostrophes but the characters of the text and blanks. -/
theorem mem_singleBody {afterBreak : Bool} {cs : List Char} {x : Char}
    (h : x ∈ singleBody afterBreak cs) : x ∈ cs ∨ x = ' ' := by
  induction cs generalizing afterBreak with
  | nil => cases afterBreak <;> simp_all [singleBody]
  | cons c rest ih =>
    rw [List.mem_cons]
    rw [singleBody] at h
    split at h
    · rcases List.mem_append.1 h with h | h
      · exact Or.inl (Or.inl (by split at h <;> simp_all))
      · exact (ih h).imp Or.inr id
    · rcases List.mem_append.1 h with h | h
      · rcases List.mem_append.1 h with h | h
        · exact Or.inr (by split at h <;> simp_all)
        · exact Or.inl (Or.inl (by split at h <;> simp_all))
      · exact (ih h).imp Or.inr id

theorem mem_singleBody_of_mem {afterBreak : Bool} {cs : List Char} {x : Char} (h : x ∈ cs) :
    x ∈ singleBody afterBreak cs := by
  induction cs generalizing afterBreak with
  | nil => exact absurd h (by simp)
  | cons c rest ih =>
    rw [singleBody]
    rcases List.mem_cons.1 h with rfl | h
    · split
      · exact List.mem_append_left _ (by split <;> simp_all)
      · exact List.mem_append_left _ (List.mem_append_right _ (by split <;> simp_all))
    · split
      · exact List.mem_append_right _ (ih h)
      · exact List.mem_append_right _ (ih h)

/-- The text holds no line break but line feeds. -/
def OnlyFeeds (cs : List Char) : Prop :=
  ∀ x ∈ cs, isWrittenBreak x = true → x = '\n'

/-- From the place `c`, something is read up to the apostrophe that closes the body of `cs`. It
holds no line break but line feeds, and is `cs` itself if that holds no other one. -/
def ReadsSingle (cs : List Char) (c : Cursor) : Prop :=
  ∃ text, QuotedReads '\'' c text (c.skip ((singleBody false cs).length + 1))
    ∧ OnlyFeeds text ∧ (OnlyFeeds cs → text = cs)

/-- One round on the way: the characters `run` are written in `n` characters and read as `piece`. -/
theorem ReadsSingle.append (run piece : List Char) (n : Nat) {rest : List Char} {c : Cursor}
    (hlen : (singleBody false (run ++ rest)).length = n + (singleBody false rest).length)
    (hread : ∀ text c', QuotedReads '\'' (c.skip n) text c' →
      QuotedReads '\'' c (piece ++ text) c')
    (hfeeds : OnlyFeeds piece) (hsame : OnlyFeeds run → piece = run)
    (h : ReadsSingle rest (c.skip n)) : ReadsSingle (run ++ rest) c := by
  obtain ⟨text, h1, h2, h3⟩ := h
  refine ⟨piece ++ text, ?_, ?_, fun hall => ?_⟩
  · rw [hlen, Nat.add_assoc, ← skip_skip]
    exact hread _ _ h1
  · intro x hx
    rcases List.mem_append.1 hx with hx | hx
    · exact hfeeds x hx
    · exact h2 x hx
  · rw [hsame fun x hx => hall x (List.mem_append_left _ hx),
      h3 fun x hx => hall x (List.mem_append_right _ hx)]

/-- A run of line breaks, which no blank follows. -/
theorem readsSingle_breaks {b : Char} {breaks rest after : List Char} {c : Cursor}
    (hb : isWrittenBreak b = true) (hbreaks : ∀ x ∈ breaks, isWrittenBreak x = true)
    (hplain : ∀ x ∈ rest, isSpecial x = false) (hrest : StopsAt isWrittenBreak rest)
    (hspace : StopsAt isSpace rest)
    (hc : c.rest = reline (singleBody false (b :: breaks ++ rest)) ++ '\'' :: after)
    (ih : ∀ c' : Cursor, c'.rest = reline (singleBody false rest) ++ '\'' :: after →
      ReadsSingle rest c') :
    ReadsSingle (b :: breaks ++ rest) c := by
  have hbody := reline_singleBody_breaks hb hbreaks hrest
  have hlen := congrArg List.length hbody
  rw [List.cons_append, hbody] at hc
  generalize hm : breaks.length + (if b = '\n' then 1 else 0) = m at hc hlen
  have hc : c.rest = ('\n' :: List.replicate m '\n' ++ [' ', ' '])
      ++ (reline (singleBody false rest) ++ '\'' :: after) := by
    rw [hc]
    simp
  have hblank : StopsAt isBlankOrTab rest := fun x hx => by
    rw [isBlankOrTab_of_not_special (hplain x (List.mem_of_mem_head? hx))]
    exact hspace x hx
  have hbreak : StopsAt isBreak rest := fun x hx => by
    rw [isBreak_of_not_special (hplain x (List.mem_of_mem_head? hx))]
    exact hrest x hx
  refine ReadsSingle.append (b :: breaks) (foldBreaks '\n' (List.replicate m '\n')) (m + 3)
    ?_ (fun text c' h => ?_) ?_ (fun hall => ?_) (ih _ ?_)
  · simp only [length_reline, List.length_cons, List.length_append, List.length_replicate] at hlen
    rw [List.cons_append, hlen]
    omega
  · exact quotedReads_breaks (reline (singleBody false rest) ++ '\'' :: after)
      (hc.trans (by simp)) (Or.inl rfl) (stopsAt_reline_singleBody hplain hrest hblank rfl)
      (stopsAt_reline_singleBody hplain hrest hbreak rfl) h
  · rw [foldBreaks_newlines]
    intro x hx hbr
    split at hx
    · obtain rfl : x = ' ' := by simpa using hx
      exact absurd hbr (by decide)
    · exact List.eq_of_mem_replicate hx
  · -- All line breaks are line feeds, so the run was written with one more of them.
    have hall' : ∀ x ∈ breaks, x = '\n' := fun x hx => hall x (by simp [hx]) (hbreaks x hx)
    obtain rfl : b = '\n' := hall b (by simp) hb
    rw [foldBreaks_newlines, ← hm, if_pos rfl, if_neg (by omega), List.replicate_succ,
      ← List.eq_replicate_iff.2 ⟨rfl, hall'⟩]
  · rw [rest_skip, hc]
    exact List.drop_left' (by simp)

/-- A run of blanks, which no line break follows. -/
theorem readsSingle_blanks {run rest after : List Char} {c : Cursor} (hne : run ≠ [])
    (hrun : ∀ x ∈ run, x = ' ') (hplain : ∀ x ∈ rest, isSpecial x = false)
    (hspace : StopsAt isSpace rest) (hbreak : StopsAt isWrittenBreak rest)
    (hc : c.rest = reline (singleBody false (run ++ rest)) ++ '\'' :: after)
    (ih : ∀ c' : Cursor, c'.rest = reline (singleBody false rest) ++ '\'' :: after →
      ReadsSingle rest c') :
    ReadsSingle (run ++ rest) c := by
  rw [singleBody_blanks hrun, reline_append, reline_blanks hrun, List.append_assoc] at hc
  have hblank' : StopsAt isBlankOrTab rest := fun x hx => by
    rw [isBlankOrTab_of_not_special (hplain x (List.mem_of_mem_head? hx))]
    exact hspace x hx
  have hbreak' : StopsAt isBreak rest := fun x hx => by
    rw [isBreak_of_not_special (hplain x (List.mem_of_mem_head? hx))]
    exact hbreak x hx
  refine ReadsSingle.append run run run.length ?_ (fun text c' h => ?_)
    (fun x hx hb => ?_) (fun _ => rfl) (ih _ ?_)
  · rw [singleBody_blanks hrun, List.length_append]
  · exact quotedReads_blanks hc hne hrun (Or.inl rfl)
      (stopsAt_reline_singleBody hplain hbreak hblank' rfl)
      (stopsAt_reline_singleBody hplain hbreak hbreak' rfl) h
  · rw [hrun x hx] at hb
    exact absurd hb (by decide)
  · rw [rest_skip, hc]
    exact List.drop_left

/-- A character that is neither a blank nor a line break. -/
theorem readsSingle_char {x : Char} {rest after : List Char} {c : Cursor}
    (hx : isSpecial x = false) (hbreak : isWrittenBreak x = false) (hspace : isSpace x = false)
    (hc : c.rest = reline (singleBody false (x :: rest)) ++ '\'' :: after)
    (ih : ∀ c' : Cursor, c'.rest = reline (singleBody false rest) ++ '\'' :: after →
      ReadsSingle rest c') :
    ReadsSingle (x :: rest) c := by
  have hkeep : relineChar x = x := relineChar_eq_self hx hbreak
  have hfeeds : OnlyFeeds [x] := by
    intro y hy hb
    rw [List.mem_singleton.1 hy, hbreak] at hb
    exact absurd hb (by decide)
  by_cases hq : x = '\''
  · subst hq
    have hbody : singleBody false ('\'' :: rest) = '\'' :: '\'' :: singleBody false rest := by
      simp [singleBody, hbreak]
    rw [hbody] at hc
    refine ReadsSingle.append ['\''] ['\''] 2 ?_ (fun text c' h => ?_)
      hfeeds (fun _ => rfl) (ih _ ?_)
    · rw [List.singleton_append, hbody, List.length_cons, List.length_cons]
      omega
    · exact quotedReads_apostrophe hc h
    · rw [rest_skip, hc]
      rfl
  · have hbody : singleBody false (x :: rest) = x :: singleBody false rest := by
      simp [singleBody, hbreak, hq]
    rw [hbody, reline_cons, hkeep] at hc
    refine ReadsSingle.append [x] [x] 1 ?_ (fun text c' h => ?_)
      hfeeds (fun _ => rfl) (ih _ ?_)
    · rw [List.singleton_append, hbody, List.length_cons]
      omega
    · have hspace : isBlankOrTab x = false := by rw [isBlankOrTab_of_not_special hx, hspace]
      have hbreak : isBreak x = false := by rw [isBreak_of_not_special hx, hbreak]
      exact quotedReads_char hc hq (by simp) hspace hbreak h
    · rw [rest_skip, hc]
      rfl

/-- **What is written between apostrophes is read.** Cutting the text into lines makes a line feed
of every line break, so what is read holds no other one; where the text held no other one to begin
with, it is read as it was. -/
theorem readsSingle (cs : List Char) {c : Cursor} (after : List Char)
    (hplain : ∀ x ∈ cs, isSpecial x = false) (hbs : hasPair isWrittenBreak isSpace cs = false)
    (hsb : hasPair isSpace isWrittenBreak cs = false)
    (hc : c.rest = reline (singleBody false cs) ++ '\'' :: after)
    (hafter : after.head? ≠ some '\'') : ReadsSingle cs c := by
  match cs with
  | [] => exact ⟨[], quotedReads_close hc hafter, by simp [OnlyFeeds], fun _ => rfl⟩
  | x :: tail =>
    by_cases hbr : isWrittenBreak x = true
    · obtain ⟨breaks, rest, rfl, hbreaks, hrest⟩ := exists_run isWrittenBreak tail
      rw [← List.cons_append] at hplain hbs hsb hc ⊢
      have hplain : ∀ y ∈ rest, isSpecial y = false := fun y hy => hplain y (by simp [hy])
      have hspace : StopsAt isSpace rest :=
        stopsAt_of_hasPair (by simp) (List.forall_mem_cons.2 ⟨hbr, hbreaks⟩) hbs
      exact readsSingle_breaks hbr hbreaks hplain hrest hspace hc fun c' hc' =>
        readsSingle rest after hplain (hasPair_append_right hbs) (hasPair_append_right hsb) hc'
          hafter
    by_cases hsp : isSpace x = true
    · obtain ⟨run, rest, rfl, hrun, hrest⟩ := exists_run isSpace tail
      rw [← List.cons_append] at hplain hbs hsb hc ⊢
      have hrun : ∀ y ∈ x :: run, isSpace y = true := List.forall_mem_cons.2 ⟨hsp, hrun⟩
      have hplain : ∀ y ∈ rest, isSpecial y = false := fun y hy => hplain y (by simp [hy])
      exact readsSingle_blanks (by simp) (fun y hy => by simpa [isSpace] using hrun y hy) hplain
        hrest (stopsAt_of_hasPair (by simp) hrun hsb) hc fun c' hc' =>
          readsSingle rest after hplain (hasPair_append_right hbs) (hasPair_append_right hsb) hc'
            hafter
    · rw [← List.singleton_append] at hbs hsb
      exact readsSingle_char (hplain x (by simp)) (by simpa using hbr) (by simpa using hsp) hc
        fun c' hc' => readsSingle tail after (fun y hy => hplain y (by simp [hy]))
          (hasPair_append_right hbs) (hasPair_append_right hsb) hc' hafter
termination_by cs.length
decreasing_by all_goals (subst_vars; simp only [List.length_cons, List.length_append]; omega)

end Yaml
end RefPages
