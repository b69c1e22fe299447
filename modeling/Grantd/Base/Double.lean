import Mathlib.Algebra.Group.Nat.Defs
import Mathlib.Data.Nat.Log

/-!
# Numbers of double precision

The double nearest to a natural number. Up to 2^53 that is the number itself.
-/

namespace Base.Double

/-- Of two that are as near, the one with the even significand. -/
def nearest (n : Nat) : Nat :=
  if n < 2 ^ 53 then n
  else
    let ulp := 2 ^ (n.log2 - 52)
    let q := n / ulp
    if 2 * (n % ulp) < ulp ∨ 2 * (n % ulp) = ulp ∧ q % 2 = 0 then q * ulp else (q + 1) * ulp

theorem nearest_of_lt (h : n < 2 ^ 53) : nearest n = n := if_pos h

theorem iterate_succ (n : Nat) : (fun i => nearest (i + 1))^[n] 0 = min n (2 ^ 53) := by
  induction n with
  | zero => rfl
  | succ n ih =>
    rw [Function.iterate_succ_apply', ih]
    have hlast : nearest (2 ^ 53) = 2 ^ 53 ∧ nearest (2 ^ 53 + 1) = 2 ^ 53 := by decide +kernel
    rcases Nat.lt_or_ge n (2 ^ 53 - 1) with hlt | hge
    · rw [Nat.min_eq_left (by omega), Nat.min_eq_left (by omega), nearest_of_lt (by omega)]
    · rcases Nat.eq_or_lt_of_le hge with heq | hgt
      · rw [← heq, Nat.min_eq_left (by omega), Nat.min_eq_left (by omega)]
        exact hlast.1
      · rw [Nat.min_eq_right (by omega), Nat.min_eq_right (by omega), hlast.2]

end Base.Double
