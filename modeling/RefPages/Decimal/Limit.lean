/-!
# Long integers

An integer of more than 4300 digits is not written in the decimal notation, and not read from it.

* `digitLimit` is the greatest number of digits, and `writingLimit` the least number that has more.
-/

set_option autoImplicit false
namespace RefPages
namespace Decimal

/-- The greatest number of digits that are written or read. -/
def digitLimit : Nat := 4300

/-- The least number that is too long to be written. -/
@[irreducible] def writingLimit : Nat :=
  Nat.pow 10 digitLimit

theorem lt_writingLimit {n k : Nat} (hk : k ≤ digitLimit) (h : n < Nat.pow 10 k) :
    n < writingLimit := by
  -- The limit is not computed: it is a power like any other.
  have hpow : ∀ limit, k ≤ limit → n < Nat.pow 10 limit := fun limit hlimit =>
    Nat.lt_of_lt_of_le h (Nat.pow_le_pow_right (by decide) hlimit)
  unfold writingLimit
  exact hpow digitLimit hk

end Decimal
end RefPages
