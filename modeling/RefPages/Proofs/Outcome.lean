import RefPages.Yaml.Fault

/-!
# Outcomes and faults

A computation that may fail is described by what its outcome satisfies and what its fault satisfies.

* `Ends E Q result`: a fault of the result satisfies `E`, and its outcome `Q`.
* `Ends.bind`, `Ends.mapM` and `Ends.foldlM` are the rules for steps that follow each other.
* `exists_of_bind_eq_ok` and `bind_eq_error_iff` take apart an outcome and a fault of steps that
  follow each other.
* `Ends.self` lets the result itself be used in what is said about it.
-/

set_option autoImplicit false
namespace RefPages

variable {ε ε' α β : Type} {E : ε → Prop} {Q : α → Prop} {R : β → Prop} {result : Except ε α}

theorem exists_of_bind_eq_ok {next : α → Except ε β} {b : β} (h : result >>= next = .ok b) :
    ∃ a, result = .ok a ∧ next a = .ok b := by
  cases result with
  | error _ => cases h
  | ok a => exact ⟨a, rfl, h⟩

/-- A fault of the result satisfies `E`, and its outcome satisfies `Q`. -/
def Ends (E : ε → Prop) (Q : α → Prop) : Except ε α → Prop
  | .ok a => Q a
  | .error fault => E fault

namespace Ends

@[simp] theorem ok {a : α} : Ends E Q (.ok a) ↔ Q a := Iff.rfl

theorem of_eq_ok (h : Ends E Q result) {a : α} (heq : result = .ok a) : Q a := by
  rw [heq] at h
  exact h

theorem of_eq_error (h : Ends E Q result) {fault : ε} (heq : result = .error fault) : E fault := by
  rw [heq] at h
  exact h

theorem mono {Q' : α → Prop} (h : Ends E Q result) (himp : ∀ a, Q a → Q' a) : Ends E Q' result := by
  cases result with
  | ok a => exact himp a h
  | error _ => exact h

theorem weaken {E' : ε → Prop} (h : Ends E Q result) (himp : ∀ fault, E fault → E' fault) :
    Ends E' Q result := by
  cases result with
  | ok _ => exact h
  | error fault => exact himp fault h

/-- A result ends as it does. -/
theorem self (result : Except ε α) :
    Ends (fun fault => result = .error fault) (fun a => result = .ok a) result := by
  cases result with
  | ok _ => rfl
  | error _ => rfl

theorem of_error (h : ∀ fault, result = .error fault → E fault) : Ends E (fun _ => True) result :=
  ((self result).weaken h).mono fun _ _ => trivial

theorem bind {next : α → Except ε β} (h : Ends E Q result) (hnext : ∀ a, Q a → Ends E R (next a)) :
    Ends E R (result >>= next) := by
  cases result with
  | ok a => exact hnext a h
  | error _ => exact h

/-- The rule for a step whose outcome does not matter. -/
theorem andThen {next : α → Except ε β} (h : Ends E (fun _ => True) result)
    (hnext : ∀ a, Ends E R (next a)) : Ends E R (result >>= next) :=
  h.bind fun a _ => hnext a

theorem ite {c : Prop} [Decidable c] {result' : Except ε α} (h : Ends E Q result)
    (h' : Ends E Q result') : Ends E Q (if c then result else result') := by
  split
  · exact h
  · exact h'

theorem mapError {E' : ε' → Prop} {f : ε → ε'} (h : Ends (fun fault => E' (f fault)) Q result) :
    Ends E' Q (result.mapError f) := by
  cases result with
  | ok _ => exact h
  | error _ => exact h

theorem map {f : α → β} (h : Ends E (fun a => R (f a)) result) : Ends E R (result.map f) := by
  cases result with
  | ok _ => exact h
  | error _ => exact h

theorem mapM {f : α → Except ε β} {as : List α} (h : ∀ a ∈ as, Ends E (fun _ => True) (f a)) :
    Ends E (fun _ => True) (as.mapM f) := by
  induction as with
  | nil => exact trivial
  | cons a as ih =>
    rw [List.mapM_cons]
    refine (h a List.mem_cons_self).andThen fun _ => ?_
    exact (ih fun a ha => h a (List.mem_cons_of_mem _ ha)).andThen fun _ => trivial

theorem foldlM {f : β → α → Except ε β} {as : List α} (b : β)
    (h : ∀ b, ∀ a ∈ as, Ends E (fun _ => True) (f b a)) :
    Ends E (fun _ => True) (as.foldlM f b) := by
  induction as generalizing b with
  | nil => exact trivial
  | cons a as ih =>
    rw [List.foldlM_cons]
    refine (h b a List.mem_cons_self).andThen fun b => ?_
    exact ih b fun b a ha => h b a (List.mem_cons_of_mem _ ha)

end Ends
end RefPages
