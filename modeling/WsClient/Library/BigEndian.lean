import Mathlib.Algebra.Order.Ring.Nat
import Mathlib.Tactic.Common
import Mathlib.Tactic.Ring

/-!
# Big-endian numbers

A natural number as a fixed number of bytes, most significant byte first, and back.

## Main definitions

* `bigEndian`: the last `k` base-256 digits of a number as bytes.
* `ofBigEndian`: the number that a list of bytes stands for.

## Main results

* `ofBigEndian_bigEndian`: the round trip, for a number that fits.
-/

namespace WsClient

/-- The `k` least significant bytes of `n`, most significant first. -/
def bigEndian : ℕ → ℕ → List UInt8
  | 0, _ => []
  | k + 1, n => UInt8.ofNat (n / 256 ^ k) :: bigEndian k n

/-- The number with the given base-256 digits, most significant first. -/
def ofBigEndian (s : List UInt8) : ℕ := s.foldl (fun n b => n * 256 + b.toNat) 0

@[simp] theorem length_bigEndian (k n : ℕ) : (bigEndian k n).length = k := by
  induction k with
  | zero => rfl
  | succ k ih => simp [bigEndian, ih]

private theorem foldl_bigEndian (k n m : ℕ) :
    (bigEndian k n).foldl (fun n b => n * 256 + b.toNat) m = m * 256 ^ k + n % 256 ^ k := by
  induction k generalizing m with
  | zero => simp [bigEndian, Nat.mod_one]
  | succ k ih =>
    have hdiv : n % 256 ^ (k + 1) = n / 256 ^ k % 256 * 256 ^ k + n % 256 ^ k := by
      rw [pow_succ, Nat.mod_mul, Nat.mul_comm (256 ^ k), Nat.add_comm]
    rw [bigEndian, List.foldl_cons, ih, hdiv, UInt8.toNat_ofNat']
    ring

/-- A number below `256 ^ k` is recovered from its `k` bytes. -/
theorem ofBigEndian_bigEndian {k n : ℕ} (h : n < 256 ^ k) : ofBigEndian (bigEndian k n) = n := by
  rw [ofBigEndian, foldl_bigEndian, Nat.zero_mul, Nat.zero_add, Nat.mod_eq_of_lt h]

end WsClient
