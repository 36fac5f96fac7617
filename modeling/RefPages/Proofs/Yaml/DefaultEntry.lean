import Mathlib.Data.Fintype.Pigeonhole
import Mathlib.Logic.Relation
import RefPages.Proofs.Yaml.ValueFault
import RefPages.Yaml.Value

/-!
# Default entries

A mapping can stand where a scalar is needed: its default entry is taken, which may be a mapping
again. Since nodes can be their own descendants, this need not come to an end.

* `Graph.Defaults` leads from a mapping to its default entry, and `Graph.Endless` says that a node
  leads to one that leads back to itself.
* `Graph.endless_of_walk`: a walk of as many steps as there are nodes comes back somewhere.
* `ValueState.scalarText_eq_value_iff`: the text of a scalar is sought without end for **exactly**
  the nodes that are endless.
-/

set_option autoImplicit false
namespace RefPages
namespace Yaml

open Relation Text

namespace Graph

variable {g : Graph} {id id' : Nat}

/-- The node is a mapping, and the other one its default entry. -/
def Defaults (g : Graph) (id id' : Nat) : Prop :=
  ∃ tag entries, g.get? id = some ⟨tag, .mapping entries⟩
    ∧ ValueState.defaultEntry? g entries = some id'

/-- Default entries lead from the node to one that leads back to itself. -/
def Endless (g : Graph) (id : Nat) : Prop :=
  ∃ id', ReflTransGen g.Defaults id id' ∧ TransGen g.Defaults id' id'

theorem Defaults.lt_size (h : g.Defaults id id') : id < g.nodes.size := by
  obtain ⟨tag, entries, hnode, -⟩ := h
  rw [get?] at hnode
  exact (Array.getElem?_eq_some_iff.1 hnode).1

theorem Endless.exists_default (h : g.Endless id) : ∃ id', g.Defaults id id' ∧ g.Endless id' := by
  obtain ⟨back, hreach, hback⟩ := h
  rcases hreach.cases_head with rfl | ⟨next, hnext, hreach⟩
  · obtain ⟨next, hnext, hreach⟩ := TransGen.head'_iff.1 hback
    exact ⟨next, hnext, id, hreach, hback⟩
  · exact ⟨next, hnext, back, hreach, hback⟩

theorem reflTransGen_of_walk {walk : Nat → Nat} {n : Nat}
    (h : ∀ k < n, g.Defaults (walk k) (walk (k + 1))) (i m : Nat) (hm : i + m ≤ n) :
    ReflTransGen g.Defaults (walk i) (walk (i + m)) := by
  induction m with
  | zero => exact .refl
  | succ m ih => exact (ih (by omega)).tail (h (i + m) (by omega))

/-- A walk along default entries that is longer than there are nodes meets one of them twice. -/
theorem endless_of_walk {walk : Nat → Nat}
    (h : ∀ k < g.nodes.size + 1, g.Defaults (walk k) (walk (k + 1))) : g.Endless (walk 0) := by
  let place : Fin (g.nodes.size + 1) → Fin g.nodes.size :=
    fun k => ⟨walk k, (h k k.isLt).lt_size⟩
  obtain ⟨k, l, hne, heq⟩ := Fintype.exists_ne_map_eq_of_card_lt place (by simp)
  have key : ∀ i j : Fin (g.nodes.size + 1), i < j → walk i = walk j → g.Endless (walk 0) := by
    intro i j hij hwalk
    have hto := reflTransGen_of_walk h 0 i (by omega)
    have hround := reflTransGen_of_walk h (i + 1) (j - (i + 1)) (by omega)
    rw [Nat.zero_add] at hto
    rw [Nat.add_sub_cancel' (by omega), ← hwalk] at hround
    exact ⟨walk i, hto, .head' (h i i.isLt) hround⟩
  have heq : walk k = walk l := congrArg Fin.val heq
  rcases lt_or_gt_of_ne hne with hlt | hgt
  · exact key k l hlt heq
  · exact key l k hgt heq.symm

end Graph

namespace ValueState

variable {g : Graph}

theorem scalarText_of_defaults {id id' : Nat} (h : g.Defaults id id') (fuel : Nat) :
    scalarText g (fuel + 1) id = scalarText g fuel id' := by
  obtain ⟨tag, entries, hnode, hdefault⟩ := h
  rw [scalarText, hnode]
  simp only [hdefault]

/-- While the text of a scalar is sought, a value fault is met only if there is always another
default entry. -/
theorem blames_scalarText (fuel id : Nat) :
    Blames (fun v => v = .endlessDefault
        ∧ ∃ walk : Nat → Nat, walk 0 = id ∧ ∀ k < fuel, g.Defaults (walk k) (walk (k + 1)))
      (scalarText g fuel id) := by
  induction fuel generalizing id with
  | zero => exact ⟨rfl, fun _ => id, rfl, fun _ hk => absurd hk (Nat.not_lt_zero _)⟩
  | succ fuel ih =>
    rw [scalarText]
    split
    · exact trivial
    · rename_i tag entries hnode
      split
      · rename_i value hdefault
        refine (ih value).weaken (LoadFault.Blamed.mono fun v hv => ?_)
        obtain ⟨rfl, walk, rfl, hwalk⟩ := hv
        refine ⟨rfl, fun k => if k = 0 then id else walk (k - 1), rfl, fun k hk => ?_⟩
        rcases Nat.eq_zero_or_pos k with rfl | hpos
        · exact ⟨tag, entries, hnode, hdefault⟩
        · have hstep := hwalk (k - 1) (by omega)
          rw [Nat.sub_add_cancel hpos] at hstep
          simpa [Nat.ne_of_gt hpos] using hstep
      · exact trivial
    · exact trivial

/-- **The text of a scalar is sought without end for exactly the endless nodes.** -/
theorem scalarText_eq_value_iff {id : Nat} {v : ValueFault} :
    scalarText g (g.nodes.size + 1) id = .error (.value v)
      ↔ v = .endlessDefault ∧ g.Endless id := by
  constructor
  · intro h
    obtain ⟨rfl, walk, rfl, hwalk⟩ := (blames_scalarText _ _).of_eq_error h
    exact ⟨rfl, Graph.endless_of_walk hwalk⟩
  · rintro ⟨rfl, h⟩
    generalize g.nodes.size + 1 = fuel
    induction fuel generalizing id with
    | zero => rfl
    | succ fuel ih =>
      obtain ⟨id', hdefault, hendless⟩ := h.exists_default
      rw [scalarText_of_defaults hdefault, ih hendless]

end ValueState
end Yaml
end RefPages
