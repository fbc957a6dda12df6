import Mathlib.Data.Nat.Digits.Lemmas
import Mathlib.Tactic.Common

/-!
# Scanning and printing C strings

The conversions of the C library's formatted input and output, on lists of bytes: literals,
character sets, words and decimal integers. A conversion returns what it read and the rest of the
input, or nothing on a matching failure.

## Main definitions

* `ascii`: the bytes of a string literal.
* `Scan.literal`, `Scan.set`, `Scan.word`, `Scan.int`: literal text, `%[..]`, `%s` and `%d`.
* `Scan.toInt32`: the value that `%d` stores.
* `Scan.Directive`, `Scan.sscanf`: a pattern, and what it stores.
* `printInt`, `printNat`: `%d` of formatted output.

## Main results

* `Scan.set_append`, `Scan.int_append`: reading what was written.
* `mem_printInt`, `length_printInt_le`: the characters of a printed number, and their count.
* `printInt_injective`: different integers are printed differently.
-/

namespace WsClient

/-- The bytes of an ASCII string. -/
def ascii (s : String) : List UInt8 := s.toList.map fun c => UInt8.ofNat c.toNat

namespace Scan

/-- The white-space characters of the C locale. -/
def isSpace (c : UInt8) : Bool := c == 32 || (9 ≤ c && c ≤ 13)

/-- The decimal digits. -/
def isDigit (c : UInt8) : Bool := 48 ≤ c && c ≤ 57

/-- A white-space directive: any amount of white space. -/
def skipSpace (s : List UInt8) : List UInt8 := s.dropWhile isSpace

/-- Literal text. -/
def literal (p s : List UInt8) : Option (List UInt8) :=
  if p.isPrefixOf s then some (s.drop p.length) else none

theorem literal_append (p s : List UInt8) : literal p (p ++ s) = some s := by
  rw [literal, if_pos (List.isPrefixOf_iff_prefix.mpr (List.prefix_append p s)), List.drop_left]

/-- `%[..]`: a nonempty sequence of characters of a set. -/
def set (p : UInt8 → Bool) (s : List UInt8) : Option (List UInt8 × List UInt8) :=
  if s.takeWhile p = [] then none else some (s.takeWhile p, s.dropWhile p)

/-- `%s`: a nonempty sequence of characters that are not white space, after white space. -/
def word (s : List UInt8) : Option (List UInt8 × List UInt8) := set (!isSpace ·) (skipSpace s)

/-- The value of a sequence of decimal digits. -/
def digits (s : List UInt8) : ℕ := s.foldl (fun n c => n * 10 + (c.toNat - 48)) 0

/-- `%d`: an optional sign and decimal digits, after white space. -/
def int (s : List UInt8) : Option (ℤ × List UInt8) :=
  match skipSpace s with
  | 45 :: t => (set isDigit t).map fun r => (-(digits r.1 : ℤ), r.2)
  | 43 :: t => (set isDigit t).map fun r => ((digits r.1 : ℤ), r.2)
  | t => (set isDigit t).map fun r => ((digits r.1 : ℤ), r.2)

/-- What `%d` stores for a number: it is converted to a 64-bit integer with saturation, of which
an `int` keeps the low 32 bits. -/
def toInt32 (v : ℤ) : ℤ :=
  (max (-9223372036854775808) (min v 9223372036854775807) + 2147483648) % 4294967296 - 2147483648

theorem toInt32_lt (v : ℤ) : -2147483648 ≤ toInt32 v ∧ toInt32 v < 2147483648 := by
  unfold toInt32
  omega

theorem toInt32_of_lt {v : ℤ} (h : -2147483648 ≤ v) (h' : v < 2147483648) : toInt32 v = v := by
  unfold toInt32
  omega

/-! ### Patterns -/

/-- A part of a pattern; a conversion says how it stores what it reads. -/
inductive Directive (σ : Type*)
  | literal (text : List UInt8)
  | set (p : UInt8 → Bool) (store : σ → List UInt8 → σ)
  | int (store : σ → ℤ → σ)
  | word (store : σ → List UInt8 → σ)

/-- `sscanf`: the objects after the conversions, and the number of the values that were stored. It
stops at the first directive that fails. -/
def sscanf {σ : Type*} : List (Directive σ) → List UInt8 → σ → σ × ℕ
  | [], _, x => (x, 0)
  | .literal text :: ds, s, x =>
    match literal text s with
    | none => (x, 0)
    | some rest => sscanf ds rest x
  | .set p store :: ds, s, x =>
    match set p s with
    | none => (x, 0)
    | some (t, rest) => (sscanf ds rest (store x t)).map id (· + 1)
  | .int store :: ds, s, x =>
    match int s with
    | none => (x, 0)
    | some (v, rest) => (sscanf ds rest (store x (toInt32 v))).map id (· + 1)
  | .word store :: ds, s, x =>
    match word s with
    | none => (x, 0)
    | some (t, rest) => (sscanf ds rest (store x t)).map id (· + 1)

/-! ### Reading what was written -/

theorem literal_eq_some {p s t : List UInt8} : literal p s = some t ↔ s = p ++ t := by
  constructor
  · intro h
    rw [literal] at h
    split_ifs at h with hp
    obtain ⟨u, rfl⟩ := List.isPrefixOf_iff_prefix.mp hp
    rw [List.drop_left] at h
    rw [Option.some.inj h]
  · rintro rfl
    exact literal_append p t

/-- The characters of a set are read up to the first one that is not in it. -/
theorem set_append {p : UInt8 → Bool} {t rest : List UInt8} (ht : t ≠ []) (hp : ∀ c ∈ t, p c)
    (hrest : ∀ c ∈ rest.head?, p c = false) : set p (t ++ rest) = some (t, rest) := by
  have htake : rest.takeWhile p = [] ∧ rest.dropWhile p = rest := by
    cases rest with
    | nil => exact ⟨rfl, rfl⟩
    | cons c rest =>
      have hc : ¬p c = true := by simp [hrest c rfl]
      exact ⟨List.takeWhile_cons_of_neg hc, List.dropWhile_cons_of_neg hc⟩
  rw [set, List.takeWhile_append_of_pos hp, List.dropWhile_append_of_pos hp, htake.1, htake.2,
    List.append_nil, if_neg ht]

theorem set_eq_some {p : UInt8 → Bool} {s t rest : List UInt8} (h : set p s = some (t, rest)) :
    s = t ++ rest ∧ t ≠ [] ∧ (∀ c ∈ t, p c) ∧ ∀ c ∈ rest.head?, p c = false := by
  rw [set] at h
  split_ifs at h with hne
  obtain ⟨rfl, rfl⟩ := Prod.mk.inj (Option.some.inj h)
  refine ⟨List.takeWhile_append_dropWhile.symm, hne,
    fun c hc => List.all_eq_true.mp List.all_takeWhile c hc, ?_⟩
  intro c hc
  have hhead := List.head?_dropWhile_not p s
  rw [Option.mem_def.mp hc] at hhead
  simpa using hhead

/-- A digit is neither white space nor a sign. -/
theorem isDigit_spec {c : UInt8} (h : isDigit c = true) : isSpace c = false ∧ c ≠ 45 ∧ c ≠ 43 := by
  simp only [isDigit, Bool.and_eq_true, decide_eq_true_eq] at h
  have hlo : 48 ≤ c.toNat := h.1
  refine ⟨?_, ?_, ?_⟩
  · have hne : c ≠ 32 := by
      rintro rfl
      exact absurd hlo (by decide)
    have hgt : ¬c ≤ 13 := fun hc => by
      have hc : c.toNat ≤ 13 := hc
      omega
    simp [isSpace, hne, hgt]
  · rintro rfl
    exact absurd hlo (by decide)
  · rintro rfl
    exact absurd hlo (by decide)

/-- Decimal digits are read as a number. -/
theorem int_append {t rest : List UInt8} (ht : t ≠ []) (hp : ∀ c ∈ t, isDigit c)
    (hrest : ∀ c ∈ rest.head?, isDigit c = false) :
    int (t ++ rest) = some ((digits t : ℤ), rest) := by
  have hset := set_append ht hp hrest
  cases t with
  | nil => exact absurd rfl ht
  | cons c t =>
    obtain ⟨hspace, hminus, hplus⟩ := isDigit_spec (hp c List.mem_cons_self)
    have hskip : skipSpace (c :: t ++ rest) = c :: (t ++ rest) :=
      List.dropWhile_cons_of_neg (by simp [hspace])
    rw [int, hskip]
    split
    · rename_i heq
      exact absurd (List.cons.inj heq).1 hminus
    · rename_i heq
      exact absurd (List.cons.inj heq).1 hplus
    · rw [← List.cons_append, hset]
      rfl

end Scan

/-- `%d` of formatted output. -/
def printInt (v : ℤ) : List UInt8 :=
  (if v < 0 then [45] else []) ++
    (if v = 0 then [48] else (Nat.digits 10 v.natAbs).reverse.map fun d => UInt8.ofNat (48 + d))

/-- A printed number consists of digits and possibly a minus sign. -/
theorem mem_printInt {v : ℤ} {c : UInt8} (h : c ∈ printInt v) : c = 45 ∨ 48 ≤ c.toNat := by
  unfold printInt at h
  rcases List.mem_append.mp h with h | h
  · split_ifs at h
    · exact .inl (List.mem_singleton.mp h)
    · cases h
  · right
    split_ifs at h
    · rw [List.mem_singleton.mp h]
      decide
    · obtain ⟨d, hd, rfl⟩ := List.mem_map.mp h
      have hlt := Nat.digits_lt_base (by norm_num) (List.mem_reverse.mp hd)
      rw [UInt8.toNat_ofNat', Nat.mod_eq_of_lt (by omega)]
      omega

/-- A printed 32-bit integer has at most eleven characters. -/
theorem length_printInt_le {v : ℤ} (h : -2147483648 ≤ v) (h' : v < 2147483648) :
    (printInt v).length ≤ 11 := by
  have hdig : (Nat.digits 10 v.natAbs).length ≤ 10 :=
    Nat.digits_length_le_iff (by norm_num) _ |>.mpr (by norm_num; omega)
  unfold printInt
  split_ifs <;> simp <;> omega

/-- The digits of a natural number. -/
def printNat (n : ℕ) : List UInt8 :=
  if n = 0 then [48] else (Nat.digits 10 n).reverse.map fun d => UInt8.ofNat (48 + d)

theorem printInt_eq (v : ℤ) :
    printInt v = (if v < 0 then [45] else []) ++ printNat v.natAbs := by
  simp only [printInt, printNat, Int.natAbs_eq_zero]

/-- A natural number is read back from its digits. -/
theorem ofDigits_printNat (n : ℕ) :
    Nat.ofDigits 10 (((printNat n).map fun c : UInt8 => c.toNat - 48).reverse) = n := by
  unfold printNat
  split_ifs with hzero
  · rw [hzero]
    rfl
  · have hdigits : ((Nat.digits 10 n).reverse.map fun d => UInt8.ofNat (48 + d)).map
        (fun c : UInt8 => c.toNat - 48) = (Nat.digits 10 n).reverse := by
      rw [List.map_map]
      refine (List.map_congr_left fun d hd => ?_).trans (List.map_id _)
      have hlt := Nat.digits_lt_base (by norm_num) (List.mem_reverse.mp hd)
      rw [Function.comp_apply, UInt8.toNat_ofNat', Nat.mod_eq_of_lt (by omega)]
      simp
    rw [hdigits, List.reverse_reverse, Nat.ofDigits_digits]

theorem printNat_injective : Function.Injective printNat := fun n m h => by
  rw [← ofDigits_printNat n, ← ofDigits_printNat m, h]

/-- A natural number is printed without a sign. -/
theorem minus_notMem_printNat (n : ℕ) : 45 ∉ printNat n := by
  intro hmem
  unfold printNat at hmem
  split_ifs at hmem with hzero
  · exact absurd hmem (by decide)
  · obtain ⟨d, hd, hchar⟩ := List.mem_map.mp hmem
    have hlt := Nat.digits_lt_base (by norm_num) (List.mem_reverse.mp hd)
    have hnat := congrArg UInt8.toNat hchar
    rw [UInt8.toNat_ofNat', Nat.mod_eq_of_lt (by omega), show (45 : UInt8).toNat = 45 from rfl]
      at hnat
    omega

/-- Different integers are printed differently. -/
theorem printInt_injective : Function.Injective printInt := by
  intro v w h
  -- only a negative integer has a minus sign
  have hsign (v : ℤ) : 45 ∈ printInt v ↔ v < 0 := by
    rw [printInt_eq, List.mem_append, or_iff_left (minus_notMem_printNat _)]
    split_ifs with hneg <;> simp [hneg]
  have hneg : v < 0 ↔ w < 0 := by rw [← hsign, ← hsign, h]
  rw [printInt_eq, printInt_eq, if_congr hneg rfl rfl] at h
  have habs := printNat_injective (List.append_cancel_left h)
  omega

end WsClient
