import RefPages.Extractor

/-!
# What is found in a source text

What the readers of a source text give is never empty, and the lists among it hold nothing twice.
So whoever collects the results has nothing to filter out of them.

* `ne_nil_of_identifier?`, `ne_nil_of_description?` and `ne_empty_of_narrative?` are about the
  single texts.
* `ne_nil_of_mem_supportedTypes` and `nodup_supportedTypes` are about the list of types.
* `exists_word_of_mem_aliases`, `ne_of_mem_aliases` and `nodup_aliases` are about the other names,
  which are words, and of which none is the name itself.
-/

set_option autoImplicit false
namespace RefPages
namespace Source

open Text

/-! ## Single texts -/

theorem ne_nil_of_word? {cs word rest : List Char} (h : word? cs = some (word, rest)) :
    word ≠ [] := by
  rw [word?] at h
  split at h
  · exact absurd h (by simp)
  · rename_i hne
    cases h
    exact hne

theorem isWordChar_of_word? {cs word rest : List Char} (h : word? cs = some (word, rest)) :
    ∀ c ∈ word, isWordChar c = true := by
  rw [word?] at h
  split at h
  · exact absurd h (by simp)
  · cases h
    exact List.all_eq_true.1 List.all_takeWhile

theorem ne_nil_of_declaration? {cs name : List Char} (h : declaration? cs = some name) :
    name ≠ [] := by
  simp only [declaration?, Option.bind_eq_bind, Option.bind_eq_some_iff, Prod.exists] at h
  obtain ⟨_, -, _, -, word, rest, hword, _, -, _, -, _, -, _, -, h⟩ := h
  rw [Option.ite_none_right_eq_some] at h
  cases h.2
  exact ne_nil_of_word? hword

theorem ne_nil_of_identifier? {cs name : List Char} (h : identifier? cs = some name) :
    name ≠ [] := by
  obtain ⟨tail, -, hdecl⟩ := exists_of_findFirst h
  exact ne_nil_of_declaration? hdecl

theorem ne_nil_of_description? {cs text : List Char} (h : description? cs = some text) :
    text ≠ [] := by
  rw [description?, Option.filter_eq_some_iff] at h
  simpa using h.2

theorem ne_empty_of_narrative? {cs : List Char} {text : String} (h : narrative? cs = some text) :
    text ≠ "" := by
  simp only [narrative?, Option.bind_eq_bind, Option.bind_eq_some_iff] at h
  obtain ⟨run, -, h⟩ := h
  split at h
  · exact absurd h (by simp)
  · rename_i hne
    cases h
    obtain ⟨piece, rest, hpieces⟩ := List.exists_cons_of_ne_nil hne
    have hpiece : piece ≠ [] := by
      have hmem := List.mem_filter.1 (hpieces ▸ List.mem_cons_self)
      simpa using hmem.2
    rw [hpieces, List.map_cons]
    exact joinWith_ne_empty (by simpa using hpiece) _

/-! ## Lists -/

theorem ne_nil_of_mem_supportedTypes {cs entry : List Char} (h : entry ∈ supportedTypes cs) :
    entry ≠ [] := by
  rw [supportedTypes] at h
  split at h
  · exact absurd h (by simp)
  · rw [mem_distinct, List.mem_filter] at h
    simpa using h.2

theorem nodup_supportedTypes (cs : List Char) : (supportedTypes cs).Nodup := by
  rw [supportedTypes]
  split
  · exact List.nodup_nil
  · exact nodup_distinct _

theorem exists_word_of_aliasAt? {cs rest : List Char} {pair : List Char × List Char}
    (h : aliasAt? cs = some (pair, rest)) : ∃ cs rest, word? cs = some (pair.1, rest) := by
  simp only [aliasAt?, Option.bind_eq_bind, Option.bind_eq_some_iff, Prod.exists,
    Option.some.injEq, Prod.mk.injEq] at h
  obtain ⟨_, -, _, -, name, _, hname, _, -, target, _, -, rfl, -⟩ := h
  exact ⟨_, _, hname⟩

/-- The other names are words. -/
theorem exists_word_of_mem_aliasPairs {inWord : Bool} {cs : List Char}
    {pair : List Char × List Char} (h : pair ∈ aliasPairs inWord cs) :
    ∃ cs rest, word? cs = some (pair.1, rest) := by
  fun_induction aliasPairs inWord cs with
  | case1 inWord cs found rest hfound ih =>
    rcases List.mem_cons.1 h with rfl | h
    · split at hfound
      · exact absurd hfound (by simp)
      · exact exists_word_of_aliasAt? hfound
    · exact ih h
  | case2 inWord hfound => exact absurd h (by simp)
  | case3 inWord c rest hfound ih => exact ih h

theorem exists_word_of_mem_aliases {name s : String} {cs : List Char} (h : s ∈ aliases name cs) :
    ∃ cs rest, word? cs = some (s.toList, rest) := by
  rw [aliases, mem_distinct, List.mem_map] at h
  obtain ⟨pair, hpair, rfl⟩ := h
  rw [String.toList_ofList]
  exact exists_word_of_mem_aliasPairs (List.mem_filter.1 hpair).1

theorem ne_empty_of_mem_aliases {name s : String} {cs : List Char} (h : s ∈ aliases name cs) :
    s ≠ "" := by
  obtain ⟨_, _, hword⟩ := exists_word_of_mem_aliases h
  rintro rfl
  exact ne_nil_of_word? hword rfl

/-- The name itself is not one of the other names. -/
theorem ne_of_mem_aliases {name s : String} {cs : List Char} (h : s ∈ aliases name cs) :
    s ≠ name := by
  rw [aliases, mem_distinct, List.mem_map] at h
  obtain ⟨pair, hpair, rfl⟩ := h
  have hkept := (List.mem_filter.1 hpair).2
  rw [Bool.and_eq_true, decide_eq_true_eq, decide_eq_true_eq] at hkept
  exact hkept.2

theorem nodup_aliases (name : String) (cs : List Char) : (aliases name cs).Nodup :=
  nodup_distinct _

end Source
end RefPages
