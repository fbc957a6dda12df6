import Mathlib.Data.List.Basic
import Mathlib.Data.List.TakeWhile
import Mathlib.Logic.Function.Basic
import Mathlib.Tactic.Common

/-!
# Strings in memory

A C string is stored in consecutive cells of a memory and ends with a NUL. Text is written to memory
and copied one cell at a time, so `Stored` speaks about the front of a string and `Holds` about
a whole one.

## Main definitions

* `CString.text`: the string in a buffer.
* `CString.Stored`, `CString.Holds`: the cells hold these characters; they hold this string.

## Main results

* `CString.Holds.text_eq`: the string in a buffer that holds it.
* `CString.Stored.push`, `CString.Stored.terminate`: writing a string.
* `CString.Holds.copy_char`, `CString.Holds.copy_end`: one step of `strcpy`.
* `CString.Holds.cut`: removing the last character.
-/

namespace WsClient

namespace CString

/-- The string in a buffer of `n` characters. -/
def text (b : ℕ → UInt8) (n : ℕ) : List UInt8 := ((List.range n).map b).takeWhile (· != 0)

/-- The characters of `s` are stored from the first cell on. -/
def Stored (b : ℕ → UInt8) (s : List UInt8) : Prop := ∀ i (h : i < s.length), b i = s[i]

/-- The memory holds the string `s`. -/
structure Holds (b : ℕ → UInt8) (s : List UInt8) : Prop where
  stored : Stored b s
  ends : b s.length = 0
  nul_notMem : 0 ∉ s

variable {b b' : ℕ → UInt8} {s : List UInt8} {n i : ℕ} {c : UInt8}

theorem Stored.map_range (h : Stored b s) : (List.range s.length).map b = s :=
  List.ext_getElem (by simp) fun i hi hi' => by simpa using h i hi'

/-- The string in a buffer ends before its first NUL. -/
theorem text_eq_of_stored (hlen : s.length < n) (h : Stored b s) (hend : b s.length = 0) :
    text b n = s.takeWhile (· != 0) := by
  obtain ⟨k, rfl⟩ := Nat.exists_eq_add_of_lt hlen
  have hback : (List.range (k + 1)).map (fun i => b (s.length + i)) =
      0 :: (List.range k).map fun i => b (s.length + (i + 1)) := by
    rw [List.range_succ_eq_map, List.map_cons, Nat.add_zero, hend, List.map_map]
    rfl
  rw [text, Nat.add_assoc, List.range_add, List.map_append, h.map_range, List.map_map,
    show b ∘ (fun i => s.length + i) = fun i => b (s.length + i) from rfl, hback,
    List.takeWhile_append]
  split_ifs with h
  · rw [List.takeWhile_cons_of_neg (by simp), List.append_nil]
    exact ((List.takeWhile_prefix _).eq_of_length h).symm
  · rfl

theorem Stored.nil : Stored b [] := fun _ h => absurd h (Nat.not_lt_zero _)

/-- The next character of a string is written. -/
theorem Stored.push (h : Stored b s) (c : UInt8) :
    Stored (Function.update b s.length c) (s ++ [c]) := by
  intro i hi
  rw [List.length_append, List.length_singleton] at hi
  rcases Nat.lt_succ_iff_lt_or_eq.mp hi with hlt | rfl
  · rw [Function.update_of_ne (Nat.ne_of_lt hlt), h i hlt, List.getElem_append_left hlt]
  · rw [Function.update_self, List.getElem_concat_length rfl]

/-- A cell behind the characters is written. -/
theorem Stored.update (h : Stored b s) (hle : s.length ≤ i) (c : UInt8) :
    Stored (Function.update b i c) s := by
  intro j hj
  rw [Function.update_of_ne (by omega), h j hj]

/-- The NUL behind the characters is written. -/
theorem Stored.terminate (h : Stored b s) (hnul : 0 ∉ s) :
    Holds (Function.update b s.length 0) s where
  stored := h.update (Nat.le_refl _) 0
  ends := Function.update_self ..
  nul_notMem := hnul

/-- A character of a string is not NUL. -/
theorem Holds.ne_zero (h : Holds b s) (hi : i < s.length) : b i ≠ 0 := by
  rw [h.stored i hi]
  exact fun hzero => h.nul_notMem (hzero ▸ List.getElem_mem hi)

theorem Holds.text_eq (h : Holds b s) (hlen : s.length < n) : text b n = s := by
  rw [text_eq_of_stored hlen h.stored h.ends, List.takeWhile_eq_self_iff]
  intro c hc
  simpa using fun hzero : c = 0 => h.nul_notMem (hzero ▸ hc)

/-- `strcpy` copies a character. -/
theorem Holds.copy_char (h : Holds b s) (h' : Stored b' (s.take i)) (hi : i < s.length) :
    Stored (Function.update b' i (b i)) (s.take (i + 1)) := by
  have hpush := h'.push s[i]
  rw [List.length_take_of_le hi.le, List.take_append_getElem hi] at hpush
  rwa [h.stored i hi]

/-- `strcpy` copies the NUL. -/
theorem Holds.copy_end (h : Holds b s) (h' : Stored b' s) :
    Holds (Function.update b' s.length (b s.length)) s := by
  rw [h.ends]
  exact h'.terminate h.nul_notMem

/-- The last character of a string is overwritten by a NUL. -/
theorem Holds.cut (h : Holds b s) : Holds (Function.update b (s.length - 1) 0) s.dropLast := by
  rw [← List.length_dropLast]
  refine Stored.terminate (fun i hi => ?_) fun hmem => h.nul_notMem (List.dropLast_subset s hmem)
  rw [List.getElem_dropLast, h.stored]

/-- The last character of a string in memory. -/
theorem Holds.getLast? (h : Holds b s) (hne : s ≠ []) : s.getLast? = some (b (s.length - 1)) := by
  have hpos : 0 < s.length := List.length_pos_of_ne_nil hne
  rw [List.getLast?_eq_getElem?, List.getElem?_eq_getElem (by omega), h.stored _ (by omega)]

end CString

end WsClient
