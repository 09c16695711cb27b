import Mathlib.Algebra.Order.Ring.Int

/-!
# Integers of Go

An `int` or `int64` has 64 bits, and its operations wrap.
-/

namespace LmmApi.Go

/-- The `int64` that an operation returns. -/
def wrap (n : ℤ) : ℤ := n.bmod (2 ^ 64)

theorem wrap_of_lt {n : ℤ} (hnn : 0 ≤ n) (hlt : n < 2 ^ 63) : wrap n = n :=
  Int.bmod_eq_of_le (by omega) (by omega)

end LmmApi.Go
