import Mathlib.Data.List.Infix
import Mathlib.Tactic.Common

/-!
# Incremental decoding of framed streams

A decoder reads one frame off the front of a stream, or finds that the stream does not hold
a whole frame yet. It must be *stable*: once a frame is complete, what follows it does not change
how it is read. Then decoding a stream as it arrives, piece by piece, reads the frames of the whole
stream.

## Main definitions

* `Decoder`: a parser for one frame that consumes input and is stable.
* `Decoder.Reads`: the frames read off the front of a stream, with what is left.
* `Decoder.decode`: all frames of a stream.
* `Decoder.Encodes`: an encoding of which the frame is read back.

## Main results

* `Decoder.Reads.append_right`: what was read stays read when more arrives.
* `Decoder.Reads.decode_eq`: incremental decoding agrees with decoding at once.
* `Decoder.Reads.of_prefix_flatMap`: what is read off a part of an encoded stream was encoded.
-/

namespace WsClient

/-- A parser for one frame at the front of a stream. -/
structure Decoder (α β : Type*) where
  /-- The first frame and what follows it, unless the frame is incomplete. -/
  parse : List α → Option (β × List α)
  /-- A frame is at least one symbol long. -/
  length_lt : ∀ {s f r}, parse s = some (f, r) → r.length < s.length
  /-- What follows a complete frame does not matter. -/
  stable : ∀ {s f r} (t : List α), parse s = some (f, r) → parse (s ++ t) = some (f, r ++ t)

namespace Decoder

variable {α β : Type*} (D : Decoder α β)

/-- `D.Reads s fs r`: the frames `fs` stand at the front of the stream `s`, and `r` follows. -/
inductive Reads : List α → List β → List α → Prop
  | done (s : List α) : Reads s [] s
  | frame {s f r fs t} (h : D.parse s = some (f, r)) (hrest : Reads r fs t) :
      Reads s (f :: fs) t

/-- Read frames off the front of a stream, at most `n` of them. -/
def decodeFuel : ℕ → List α → List β × List α
  | 0, s => ([], s)
  | n + 1, s =>
    match D.parse s with
    | none => ([], s)
    | some (f, r) => (f :: (decodeFuel n r).1, (decodeFuel n r).2)

/-- All complete frames of a stream, and what is left. -/
def decode (s : List α) : List β × List α := D.decodeFuel s.length s

variable {D} {s r t : List α} {fs gs : List β} {f : β}

theorem Reads.trans (h : D.Reads s fs r) (h' : D.Reads r gs t) : D.Reads s (fs ++ gs) t := by
  induction h with
  | done => exact h'
  | frame hp _ ih => exact .frame hp (ih h')

theorem Reads.snoc (h : D.Reads s fs r) (hp : D.parse r = some (f, t)) :
    D.Reads s (fs ++ [f]) t := h.trans (.frame hp (.done t))

/-- More input does not change what was read. -/
theorem Reads.append_right (h : D.Reads s fs r) (t : List α) :
    D.Reads (s ++ t) fs (r ++ t) := by
  induction h with
  | done s => exact .done _
  | frame hp _ ih => exact .frame (D.stable t hp) ih

/-- An empty stream holds no frame. -/
theorem parse_nil (D : Decoder α β) : D.parse [] = none := by
  cases hp : D.parse [] with
  | none => rfl
  | some q => exact absurd (D.length_lt (f := q.1) (r := q.2) hp) (Nat.not_lt_zero _)

private theorem decodeFuel_eq (hr : D.parse r = none) (h : D.Reads s fs r) :
    ∀ n, s.length ≤ n → D.decodeFuel n s = (fs, r) := by
  induction h with
  | done s =>
    intro n _
    cases n <;> simp [decodeFuel, hr]
  | frame hp _ ih =>
    intro n hn
    have hlt := D.length_lt hp
    cases n with
    | zero => omega
    | succ n => simp only [decodeFuel, hp, ih hr n (by omega)]

/-- Reading frames one by one until none is complete is decoding at once. -/
theorem Reads.decode_eq_of_none (h : D.Reads s fs r) (hr : D.parse r = none) :
    D.decode s = (fs, r) := decodeFuel_eq hr h _ le_rfl

private theorem reads_decodeFuel (n : ℕ) (s : List α) (hn : s.length ≤ n) :
    D.Reads s (D.decodeFuel n s).1 (D.decodeFuel n s).2 ∧
      D.parse (D.decodeFuel n s).2 = none := by
  induction n generalizing s with
  | zero =>
    cases hp : D.parse s with
    | none => exact ⟨.done s, hp⟩
    | some q =>
      have hlt := D.length_lt (f := q.1) (r := q.2) hp
      omega
  | succ n ih =>
    cases hp : D.parse s with
    | none => simpa only [decodeFuel, hp] using And.intro (Reads.done s) trivial
    | some q =>
      obtain ⟨f, r⟩ := q
      have hlt := D.length_lt hp
      obtain ⟨hreads, hnone⟩ := ih r (by omega)
      simp only [decodeFuel, hp]
      exact ⟨.frame hp hreads, hnone⟩

theorem reads_decode (s : List α) : D.Reads s (D.decode s).1 (D.decode s).2 :=
  (reads_decodeFuel _ s le_rfl).1

theorem parse_decode (s : List α) : D.parse (D.decode s).2 = none :=
  (reads_decodeFuel _ s le_rfl).2

/-- After some frames are read, the rest of the stream decodes to the remaining frames. -/
theorem Reads.decode_eq (h : D.Reads s fs r) :
    D.decode s = (fs ++ (D.decode r).1, (D.decode r).2) :=
  (h.trans (reads_decode r)).decode_eq_of_none (parse_decode r)

/-! ### Encoded streams -/

variable {γ : Type*}

/-- `D.Encodes enc dec x`: the frame `dec x` is read off the encoding of `x`, whatever follows. -/
def Encodes (D : Decoder α β) (enc : γ → List α) (dec : γ → β) (x : γ) : Prop :=
  ∀ r, D.parse (enc x ++ r) = some (dec x, r)

variable {enc : γ → List α} {dec : γ → β} {xs : List γ}

/-- What is read off the front of a stream of encodings is what was encoded first, and the
encodings of the others are left. -/
theorem Reads.of_flatMap (h : D.Reads (xs.flatMap enc) fs r)
    (hxs : ∀ x ∈ xs, D.Encodes enc dec x) :
    ∃ ys zs, xs = ys ++ zs ∧ fs = ys.map dec ∧ r = zs.flatMap enc := by
  generalize hs : xs.flatMap enc = s at h
  induction h generalizing xs with
  | done s => exact ⟨[], xs, rfl, rfl, hs.symm⟩
  | @frame s f u fs t hp _ ih =>
    cases xs with
    | nil =>
      obtain rfl : [] = s := hs
      cases (D.parse_nil).symm.trans hp
    | cons x xs =>
      have hx := hxs x List.mem_cons_self (xs.flatMap enc)
      rw [← List.flatMap_cons, hs, hp] at hx
      obtain ⟨rfl, rfl⟩ := Prod.mk.inj (Option.some.inj hx)
      obtain ⟨ys, zs, rfl, rfl, rfl⟩ := ih (fun y hy => hxs y (List.mem_cons_of_mem _ hy)) rfl
      exact ⟨x :: ys, zs, rfl, rfl, rfl⟩

/-- The same of a part of the stream: some more of it, up to the end of an encoding, may be
missing. -/
theorem Reads.of_prefix_flatMap (h : D.Reads s fs r) (hs : s <+: xs.flatMap enc)
    (hxs : ∀ x ∈ xs, D.Encodes enc dec x) :
    ∃ ys zs, xs = ys ++ zs ∧ fs = ys.map dec ∧ r <+: zs.flatMap enc := by
  obtain ⟨u, hu⟩ := hs
  have hread := h.append_right u
  rw [hu] at hread
  obtain ⟨ys, zs, hsplit, hfs, hr⟩ := hread.of_flatMap hxs
  exact ⟨ys, zs, hsplit, hfs, u, hr⟩

/-- A frame that is complete in a part of a stream of encodings is the first that was encoded. -/
theorem parse_of_prefix_flatMap (hp : D.parse s = some (f, r)) (hs : s <+: xs.flatMap enc)
    (hxs : ∀ x ∈ xs, D.Encodes enc dec x) : ∃ x ∈ xs, f = dec x := by
  obtain ⟨ys, zs, rfl, hfs, -⟩ := (Reads.frame hp (.done r)).of_prefix_flatMap hs hxs
  obtain ⟨y, rfl, rfl⟩ := List.map_eq_singleton_iff.mp hfs.symm
  exact ⟨y, by simp, rfl⟩

end Decoder

end WsClient
