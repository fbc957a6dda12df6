import Mathlib.Tactic.Common

/-!
# Unsigned machine words as natural numbers

Arithmetic of an unsigned machine type on natural numbers: every result is reduced modulo the
number `M` of values of the type. The lemmas give the exact value of an operation whenever the
mathematical result is in range, which is how a bound on the operands is used to discharge
a possible wrap-around.

## Main definitions

* `Word.wrap`: conversion of a natural number to a word.
* `Word.add`, `Word.sub`, `Word.mul`: the arithmetic operations of the word type.

## Main results

* `Word.add_of_lt`, `Word.sub_of_le`, `Word.mul_of_lt`: the operations without wrap-around.
* `Word.sub_add_of_le`: a wrap-around of an intermediate sum does not change a difference that
  is in range.
-/

namespace WsClient.Word

variable {M a b c : ℕ}

/-- Conversion to an unsigned word. -/
def wrap (M n : ℕ) : ℕ := n % M

/-- Addition of unsigned words. -/
def add (M a b : ℕ) : ℕ := (a + b) % M

/-- Subtraction of unsigned words. -/
def sub (M a b : ℕ) : ℕ := (a + (M - b % M)) % M

/-- Multiplication of unsigned words. -/
def mul (M a b : ℕ) : ℕ := (a * b) % M

theorem wrap_lt (n : ℕ) (hM : 0 < M) : wrap M n < M := Nat.mod_lt _ hM

theorem sub_lt (a b : ℕ) (hM : 0 < M) : sub M a b < M := Nat.mod_lt _ hM

theorem wrap_le (M n : ℕ) : wrap M n ≤ n := Nat.mod_le _ _

theorem wrap_of_lt (h : a < M) : wrap M a = a := Nat.mod_eq_of_lt h

theorem add_of_lt (h : a + b < M) : add M a b = a + b := Nat.mod_eq_of_lt h

/-- A sum that wraps around once. -/
theorem add_of_ge (h : M ≤ a + b) (h' : a + b < 2 * M) : add M a b = a + b - M := by
  rw [add, Nat.mod_eq_sub_mod h]
  exact Nat.mod_eq_of_lt (by omega)

theorem mul_of_lt (h : a * b < M) : mul M a b = a * b := Nat.mod_eq_of_lt h

theorem sub_of_le (hb : b ≤ a) (ha : a < M) : sub M a b = a - b := by
  have hb' : b % M = b := Nat.mod_eq_of_lt (by omega)
  rw [sub, hb', show a + (M - b) = a - b + M by omega, Nat.add_mod_right]
  exact Nat.mod_eq_of_lt (by omega)

theorem sub_zero (h : a < M) : sub M a 0 = a := sub_of_le (Nat.zero_le a) h

/-- Adding a converted operand is converting the sum. -/
theorem add_wrap (M a b : ℕ) : add M a (wrap M b) = wrap M (a + b) := by
  simp only [add, wrap, Nat.add_mod_mod]

/-- A sum may wrap around before a subtraction brings it back into range. -/
theorem sub_add_of_le (hc : c ≤ a + b) (hc' : c < M) (h : a + b - c < M) :
    sub M (add M a b) c = a + b - c := by
  have hc'' : c % M = c := Nat.mod_eq_of_lt hc'
  rw [sub, add, hc'', Nat.mod_add_mod, show a + b + (M - c) = a + b - c + M by omega,
    Nat.add_mod_right]
  exact Nat.mod_eq_of_lt h

end WsClient.Word
