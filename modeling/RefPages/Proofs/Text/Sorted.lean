import RefPages.Extractor

/-!
# Texts in order

* `pairwise_sortTexts` and `mem_sortTexts` say what `sortTexts` does.
* `InOrder` is a list of different texts in order; `InOrder.ext` says that two such lists are the
  same if they have the same members.
-/

set_option autoImplicit false
namespace RefPages

theorem pairwise_sortTexts (texts : List String) : (sortTexts texts).Pairwise (· ≤ ·) := by
  have h : (sortTexts texts).Pairwise fun a b => (!decide (b < a)) = true := by
    refine List.pairwise_mergeSort (fun a b c hab hbc => ?_) (fun a b => ?_) texts
    · simp only [Bool.not_eq_true', decide_eq_false_iff_not, String.not_lt] at hab hbc ⊢
      exact String.le_trans hab hbc
    · simp only [Bool.or_eq_true, Bool.not_eq_true', decide_eq_false_iff_not, String.not_lt]
      exact String.le_total a b
  refine h.imp fun hab => ?_
  rw [Bool.not_eq_true', decide_eq_false_iff_not] at hab
  exact String.not_lt.1 hab

theorem mem_sortTexts {name : String} {texts : List String} :
    name ∈ sortTexts texts ↔ name ∈ texts :=
  List.mem_mergeSort

/-- A list of different names in order. -/
structure InOrder (names : List String) : Prop where
  pairwise : names.Pairwise (· ≤ ·)
  nodup : names.Nodup

theorem InOrder.filter {names : List String} (h : InOrder names) (p : String → Bool) :
    InOrder (names.filter p) :=
  ⟨h.pairwise.filter p, h.nodup.filter p⟩

theorem inOrder_sortTexts {texts : List String} (h : texts.Nodup) : InOrder (sortTexts texts) :=
  ⟨pairwise_sortTexts texts, (List.mergeSort_perm texts _).nodup_iff.2 h⟩

/-- There is only one order. -/
theorem InOrder.ext {xs ys : List String} (hxs : InOrder xs) (hys : InOrder ys)
    (h : ∀ name, name ∈ xs ↔ name ∈ ys) : xs = ys :=
  List.Perm.eq_of_pairwise (fun _ _ _ _ => String.le_antisymm) hxs.pairwise hys.pairwise
    ((List.perm_ext_iff_of_nodup hxs.nodup hys.nodup).2 h)

end RefPages
