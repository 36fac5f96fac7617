import RefPages.Proofs.Text.Reline
import RefPages.Proofs.Yaml.QuotedScalar
import RefPages.Yaml.Scalar

/-!
# What stands between double quotes

* `hexNumber?_hexPadded`: digits of a fixed width are read as the number they were written for.
* `readEscape_doubleChar`: an escape is read as the character it was written for.
* `quotedReads_double`: **every** text is read back from between double quotes.
* `reline_double`: no line ends between double quotes, so cutting a page into lines does not touch
  what stands there.
-/

set_option autoImplicit false
namespace RefPages
namespace Text

/-- Digits of a fixed width read back as the number they were written for. -/
theorem hexNumber?_hexPadded (case : HexCase) {width n : Nat} (h : n < Nat.pow 16 width) :
    hexNumber? (hexPadded case width n) = some n := by
  induction width generalizing n with
  | zero =>
    obtain rfl : n = 0 := Nat.lt_one_iff.1 h
    rfl
  | succ width ih =>
    have hdiv : n / 16 < Nat.pow 16 width := by
      rw [Nat.div_lt_iff_lt_mul (by omega)]
      exact h
    have ih := ih hdiv
    rw [hexNumber?] at ih ⊢
    rw [hexPadded, List.foldlM_append, ih]
    simp only [bind, Option.bind, List.foldlM_cons, List.foldlM_nil,
      hexValue?_digit case (Nat.mod_lt n (by omega : 0 < 16)), Option.map_some, pure]
    rw [Nat.div_add_mod]

theorem exists_of_mem_hexPadded {case : HexCase} {width n : Nat} {x : Char}
    (h : x ∈ hexPadded case width n) : ∃ d, d < 16 ∧ x = case.digit d := by
  induction width generalizing n with
  | zero => simp [hexPadded] at h
  | succ width ih =>
    rw [hexPadded, List.mem_append, List.mem_singleton] at h
    rcases h with h | h
    · exact ih h
    · exact ⟨n % 16, Nat.mod_lt n (by omega), h⟩

end Text

namespace Yaml

open Text Cursor

/-! ## Escapes -/

theorem toNat_not_surrogate (c : Char) : ¬(0xD800 ≤ c.toNat ∧ c.toNat ≤ 0xDFFF) := by
  have := c.valid
  simp only [UInt32.isValidChar, Nat.isValidChar] at this
  simp only [Char.toNat]
  omega

theorem toNat_lt (c : Char) : c.toNat < 0x110000 := by
  have := c.valid
  simp only [UInt32.isValidChar, Nat.isValidChar] at this
  simp only [Char.toNat]
  omega

theorem pointOfCode_toNat (c : Char) : pointOfCode c.toNat = .ok (.char c) := by
  rw [pointOfCode, Point.ofCode?, if_pos (toNat_lt c), if_neg (toNat_not_surrogate c),
    Char.ofNat_toNat]

theorem escapeLetters_lookup {c letter : Char} (h : letterEscapes.lookup c = some letter) :
    escapeLetters.lookup letter = some c := by
  have key : ∀ pair ∈ letterEscapes, escapeLetters.lookup pair.2 = some pair.1 := by decide
  obtain ⟨xs, ys, hxs, -⟩ := List.lookup_eq_some_iff.1 h
  exact key (c, letter) (by rw [hxs]; simp)

/-- An escape by code point: the letter tells how many digits follow. -/
theorem readEscape_hex {ch letter : Char} {width fuel : Nat} {c : Cursor} {tail : List Char}
    (hletter : escapeLetters.lookup letter = none) (hwidth : escapeWidth? letter = some width)
    (hch : ch.toNat < Nat.pow 16 width)
    (hc : c.rest = letter :: hexPadded .upper width ch.toNat ++ tail) :
    readEscape fuel c = .ok ([.char ch], c.skip (1 + width)) := by
  have htake : (hexPadded .upper width ch.toNat ++ tail).take width
      = hexPadded .upper width ch.toNat := List.take_left' (length_hexPadded _ _ _)
  rw [readEscape, hc]
  simp only [List.cons_append, hletter, hwidth, htake, hexNumber?_hexPadded .upper hch,
    length_hexPadded, if_true, pointOfCode_toNat]
  rfl

/-- **An escape reads back as its character.** -/
theorem readEscape_doubleChar {ch : Char} (h : standsInDouble ch = false) :
    ∃ esc, doubleChar ch = '\\' :: esc ∧
      ∀ (fuel : Nat) (c : Cursor) (tail : List Char), c.rest = esc ++ tail →
        readEscape fuel c = .ok ([.char ch], c.skip esc.length) := by
  rw [doubleChar, h]
  simp only [Bool.false_eq_true, if_false]
  cases hl : letterEscapes.lookup ch with
  | some letter =>
    refine ⟨[letter], rfl, fun fuel c tail hc => ?_⟩
    rw [readEscape, hc]
    simp only [List.cons_append, escapeLetters_lookup hl]
    rfl
  | none =>
    have hmax := toNat_lt ch
    -- The three widths differ in nothing but the letter and the bound.
    have key : ∀ (letter : Char) (width : Nat), escapeLetters.lookup letter = none →
        escapeWidth? letter = some width → ch.toNat < Nat.pow 16 width →
        ∃ esc, ['\\', letter] ++ hexPadded .upper width ch.toNat = '\\' :: esc ∧
          ∀ (fuel : Nat) (c : Cursor) (tail : List Char), c.rest = esc ++ tail →
            readEscape fuel c = .ok ([.char ch], c.skip esc.length) := by
      intro letter width hletter hwidth hch
      refine ⟨letter :: hexPadded .upper width ch.toNat, rfl, fun fuel c tail hc => ?_⟩
      rw [readEscape_hex hletter hwidth hch hc, List.length_cons, length_hexPadded, Nat.add_comm]
    simp only
    split
    · exact key 'x' 2 rfl rfl (Nat.lt_succ_of_le ‹_›)
    · split
      · exact key 'u' 4 rfl rfl (Nat.lt_succ_of_le ‹_›)
      · exact key 'U' 8 rfl rfl (Nat.lt_trans hmax (by decide))

/-- A backslash and what follows it stand for what the escape means. -/
theorem quotedReads_escape {ch : Char} {c c' : Cursor} {esc tail text : List Char}
    (hc : c.rest = '\\' :: (esc ++ tail))
    (hesc : ∀ fuel, readEscape fuel c.advance = .ok ([.char ch], c.skip (esc.length + 1)))
    (h : QuotedReads '"' (c.skip (esc.length + 1)) text c') :
    QuotedReads '"' c (ch :: text) c' := by
  refine QuotedReads.round [ch] (by omega) (by rw [hc]; simp) ?_ h
  intro fuel _ hmore
  rw [quotedRest, hc]
  simp only [show ¬('\\' = '"') by decide, if_false, and_self, if_true, hesc]
  simp only [bind, Except.bind, hmore]
  rfl

/-! ## The whole text -/

theorem standsInDouble_bounds {ch : Char} (h : standsInDouble ch = true) :
    isBreak ch = false ∧ ch ≠ '\t' ∧ ch ≠ '"' ∧ ch ≠ '\\' ∧ isLineBoundary ch = false := by
  have key : ∀ x ∈ ['\n', '\r', '\x0b', '\x0c', '\x1c', '\x1d', '\x1e', '\x85', '\u2028', '\u2029',
      '\t', '"', '\\'], standsInDouble x = false := eq_false_of_any (by decide)
  have hne : ∀ x, standsInDouble x = false → ch ≠ x := by
    rintro x hx rfl
    rw [h] at hx
    exact absurd hx (by decide)
  refine ⟨?_, hne _ (by decide), hne _ (by decide), hne _ (by decide), ?_⟩
  · simp [isBreak, isWrittenBreak, hne '\r' (by decide), hne '\n' (by decide),
      hne '\x85' (by decide), hne '\u2028' (by decide), hne '\u2029' (by decide)]
  · rw [isLineBoundary, decide_eq_false_iff_not]
    intro hmem
    exact hne ch (key ch (List.mem_append_left ['\t', '"', '\\'] hmem)) rfl

theorem doubleChar_of_standsInDouble {ch : Char} (h : standsInDouble ch = true) :
    doubleChar ch = [ch] := by
  rw [doubleChar, h]
  rfl

theorem flatMap_doubleChar_blanks {run : List Char} (hrun : ∀ x ∈ run, x = ' ') :
    run.flatMap doubleChar = run := by
  induction run with
  | nil => rfl
  | cons x run ih =>
    have h := List.forall_mem_cons.1 hrun
    rw [List.flatMap_cons, ih h.2, h.1]
    rfl

/-- Between double quotes nothing but a blank of the text is written as a blank, and no line
ends. -/
theorem stopsAt_double {rest : List Char} (hspace : StopsAt isSpace rest) (after : List Char) :
    StopsAt isBlankOrTab (rest.flatMap doubleChar ++ '"' :: after)
      ∧ StopsAt isBreak (rest.flatMap doubleChar ++ '"' :: after) := by
  cases rest with
  | nil => exact ⟨by rintro ch ⟨⟩; rfl, by rintro ch ⟨⟩; rfl⟩
  | cons x rest =>
    by_cases hx : standsInDouble x = true
    · obtain ⟨hbreak, htab, -⟩ := standsInDouble_bounds hx
      have hsp : isSpace x = false := hspace x rfl
      rw [List.flatMap_cons, doubleChar_of_standsInDouble hx]
      refine ⟨?_, ?_⟩
      · rintro ch ⟨⟩
        simpa [isBlankOrTab, isSpace, htab] using hsp
      · rintro ch ⟨⟩
        exact hbreak
    · obtain ⟨esc, hesc, -⟩ := readEscape_doubleChar (by simpa using hx)
      rw [List.flatMap_cons, hesc]
      exact ⟨by rintro ch ⟨⟩; rfl, by rintro ch ⟨⟩; rfl⟩

/-- **Every text is read back from between double quotes.** -/
theorem quotedReads_double (cs : List Char) {c : Cursor} (after : List Char)
    (hc : c.rest = cs.flatMap doubleChar ++ '"' :: after) (hafter : after.head? ≠ some '\'') :
    QuotedReads '"' c cs (c.skip ((cs.flatMap doubleChar).length + 1)) := by
  match cs with
  | [] => exact quotedReads_close hc hafter
  | x :: tail =>
    by_cases hsp : isSpace x = true
    · obtain ⟨run, rest, rfl, hrun, hrest⟩ := exists_run isSpace tail
      have hrun : ∀ y ∈ x :: run, isSpace y = true := List.forall_mem_cons.2 ⟨hsp, hrun⟩
      have hrun : ∀ y ∈ x :: run, y = ' ' := fun y hy => by simpa [isSpace] using hrun y hy
      rw [← List.cons_append, List.flatMap_append, flatMap_doubleChar_blanks hrun] at hc ⊢
      rw [List.append_assoc] at hc
      have hc' : (c.skip (x :: run).length).rest = rest.flatMap doubleChar ++ '"' :: after := by
        rw [rest_skip, hc]
        exact List.drop_left
      have ih := quotedReads_double rest after hc' hafter
      obtain ⟨hblank, hbreak⟩ := stopsAt_double hrest after
      rw [skip_skip] at ih
      rw [List.length_append, Nat.add_assoc]
      exact quotedReads_blanks hc (by simp) hrun (Or.inr rfl) hblank hbreak ih
    · rw [List.flatMap_cons] at hc ⊢
      by_cases hx : standsInDouble x = true
      · obtain ⟨hbreak, htab, hquote, hslash, -⟩ := standsInDouble_bounds hx
        rw [doubleChar_of_standsInDouble hx] at hc ⊢
        have hc' : (c.skip 1).rest = tail.flatMap doubleChar ++ '"' :: after := by
          rw [rest_skip, hc]
          rfl
        have ih := quotedReads_double tail after hc' hafter
        rw [skip_skip] at ih
        rw [List.length_append, Nat.add_assoc]
        have hblank : isBlankOrTab x = false := by simpa [isBlankOrTab, isSpace, htab] using hsp
        exact quotedReads_char hc hquote (fun h => hslash h.2) hblank hbreak ih
      · obtain ⟨esc, hesc, hread⟩ := readEscape_doubleChar (by simpa using hx)
        rw [hesc] at hc ⊢
        have hc : c.rest = '\\' :: (esc ++ (tail.flatMap doubleChar ++ '"' :: after)) := by
          rw [hc, List.cons_append, List.cons_append, List.append_assoc]
        have hc' : (c.skip (esc.length + 1)).rest = tail.flatMap doubleChar ++ '"' :: after := by
          rw [rest_skip, hc, List.drop_succ_cons]
          exact List.drop_left
        have ih := quotedReads_double tail after hc' hafter
        rw [skip_skip] at ih
        rw [List.length_append, List.length_cons, Nat.add_assoc]
        refine quotedReads_escape hc (fun fuel => ?_) ih
        rw [hread fuel c.advance _ (by rw [rest_advance, hc]; rfl), skip_advance]
termination_by cs.length
decreasing_by all_goals (subst_vars; simp only [List.length_cons, List.length_append]; omega)

/-! ## The characters that are written -/

theorem standsInDouble_digit {case : HexCase} {d : Nat} (h : d < 16) :
    standsInDouble (case.digit d) = true := by
  have key : ∀ d : Fin 16, standsInDouble (case.digit d) = true := by
    cases case <;> decide
  exact key ⟨d, h⟩

/-- Nothing is written but what stands for itself, double quotes and backslashes. -/
theorem mem_doubleChar {ch x : Char} (h : x ∈ doubleChar ch) :
    standsInDouble x = true ∨ x = '"' ∨ x = '\\' := by
  rw [doubleChar] at h
  split at h
  · rename_i hch
    rw [List.mem_singleton.1 h]
    exact Or.inl hch
  · have hletter : ∀ pair ∈ letterEscapes,
        standsInDouble pair.2 = true ∨ pair.2 = '"' ∨ pair.2 = '\\' := by decide
    -- The letters that announce digits, and the digits, stand for themselves.
    have hhex : ∀ (letter : Char) (width : Nat), standsInDouble letter = true →
        x ∈ ['\\', letter] ++ hexPadded .upper width ch.toNat →
        standsInDouble x = true ∨ x = '"' ∨ x = '\\' := by
      intro letter width hl hx
      rcases List.mem_append.1 hx with hx | hx
      · simp only [List.mem_cons, List.not_mem_nil, or_false] at hx
        rcases hx with rfl | rfl
        · exact Or.inr (Or.inr rfl)
        · exact Or.inl hl
      · obtain ⟨d, hd, rfl⟩ := exists_of_mem_hexPadded hx
        exact Or.inl (standsInDouble_digit hd)
    split at h
    · rename_i letter hl
      simp only [List.mem_cons, List.not_mem_nil, or_false] at h
      rcases h with rfl | rfl
      · exact Or.inr (Or.inr rfl)
      · obtain ⟨xs, ys, hxs, -⟩ := List.lookup_eq_some_iff.1 hl
        exact hletter (ch, x) (by rw [hxs]; simp)
    · split at h
      · exact hhex 'x' 2 rfl h
      · split at h
        · exact hhex 'u' 4 rfl h
        · exact hhex 'U' 8 rfl h

/-- No line ends between double quotes. -/
theorem reline_double (cs : List Char) :
    reline (cs.flatMap doubleChar) = cs.flatMap doubleChar := by
  refine reline_eq_self fun x hx hb => ?_
  obtain ⟨ch, -, hx⟩ := List.mem_flatMap.1 hx
  rcases mem_doubleChar hx with h | rfl | rfl
  · rw [(standsInDouble_bounds h).2.2.2.2] at hb
    exact absurd hb (by decide)
  · exact absurd hb (by decide)
  · exact absurd hb (by decide)

end Yaml
end RefPages
