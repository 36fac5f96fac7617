import RefPages.Source.Scan
import RefPages.Text.Split

/-!
# The types an operation supports

They are listed once, where the tests are generated: `static foreach (Type; AliasSeq!(int, long))`.

* `typeListAt?` reads such a list, `supportedTypes` gives the entries of the first one in a text,
  trimmed, in order and without repetition.
* `distinct` drops repetitions; `distinct_eq_eraseDups` says that it keeps first occurrences,
  `mem_distinct` that no value is lost, `nodup_distinct` that none is left twice, and
  `distinct_eq_self` that nothing happens to different values.
-/

set_option autoImplicit false
namespace RefPages
namespace Source

open Text

/-- The list in parentheses of the loop in front. -/
def typeListAt? (cs : List Char) : Option (List Char) := do
  let cs ← skip? "static" cs
  let cs ← someBlanks? cs
  let cs ← skip? "foreach" cs
  let cs ← skip? "(" (skipBlanks cs)
  let cs ← skip? "Type" (skipBlanks cs)
  let cs ← skip? ";" (skipBlanks cs)
  let cs ← skip? "AliasSeq!(" (skipBlanks cs)
  match cs.takeWhile (· != ')'), cs.dropWhile (· != ')') with
  | [], _ => none
  | _, [] => none
  | entries, _ => some entries

/-- The members of a list in the order of their first occurrence. -/
def distinct {α : Type} [DecidableEq α] (values : List α) : List α :=
  values.foldl (fun seen v => if v ∈ seen then seen else seen ++ [v]) []

theorem foldl_distinct {α : Type} [DecidableEq α] (values seen : List α) :
    values.foldl (fun seen v => if v ∈ seen then seen else seen ++ [v]) seen
      = seen ++ (values.filter (· ∉ seen)).eraseDups := by
  induction values generalizing seen with
  | nil => simp
  | cons v rest ih =>
    by_cases hv : v ∈ seen
    · rw [List.foldl_cons, if_pos hv, ih, List.filter_cons_of_neg (by simpa using hv)]
    · have hrest : (rest.filter (· ∉ seen)).filter (fun x => !x == v)
          = rest.filter (· ∉ seen ++ [v]) := by
        rw [List.filter_filter]
        refine List.filter_congr fun x _ => ?_
        by_cases hx : x = v <;> simp [hx]
      rw [List.foldl_cons, if_neg hv, ih, List.filter_cons_of_pos (by simpa using hv),
        List.eraseDups_cons, hrest, List.append_assoc]
      rfl

/-- Of every value the first occurrence is kept. -/
theorem distinct_eq_eraseDups {α : Type} [DecidableEq α] (values : List α) :
    distinct values = values.eraseDups := by
  rw [distinct, foldl_distinct, List.nil_append, List.filter_eq_self.2 (by simp)]

theorem mem_distinct {α : Type} [DecidableEq α] {v : α} {values : List α} :
    v ∈ distinct values ↔ v ∈ values := by
  rw [distinct_eq_eraseDups, List.mem_eraseDups]

theorem nodup_distinct {α : Type} [DecidableEq α] (values : List α) : (distinct values).Nodup := by
  have key : ∀ seen : List α, seen.Nodup →
      (values.foldl (fun seen v => if v ∈ seen then seen else seen ++ [v]) seen).Nodup := by
    induction values with
    | nil => exact fun _ hseen => hseen
    | cons v rest ih =>
      intro seen hseen
      rw [List.foldl_cons]
      refine ih _ ?_
      split
      · exact hseen
      · rename_i hv
        rw [List.nodup_append]
        refine ⟨hseen, by simp, fun x hx y hy => ?_⟩
        rw [List.mem_singleton.1 hy]
        exact fun hxv => hv (hxv ▸ hx)
  exact key [] List.nodup_nil

theorem distinct_eq_self {α : Type} [DecidableEq α] {values : List α} (h : values.Nodup) :
    distinct values = values := by
  rw [distinct_eq_eraseDups]
  induction values with
  | nil => rfl
  | cons v rest ih =>
    obtain ⟨hv, hrest⟩ := List.nodup_cons.1 h
    have hother : rest.filter (fun x => !x == v) = rest :=
      List.filter_eq_self.2 fun x hx => by simpa using fun hxv : x = v => hv (hxv ▸ hx)
    rw [List.eraseDups_cons, hother, ih hrest]

/-- The entries of the first list of types. -/
def supportedTypes (cs : List Char) : List (List Char) :=
  match findFirst typeListAt? cs with
  | none => []
  | some entries => distinct (((splitOn ',' entries).map trim).filter (!·.isEmpty))

end Source
end RefPages
