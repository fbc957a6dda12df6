import Mathlib.Data.List.Infix
import Mathlib.Tactic.Common

/-!
# Readers of lines

A reader of lines takes a stream one symbol at a time, collects a line up to a terminator and then
decides by its phase and the line whether to go on, to accept or to reject. It also rejects when a
line reaches a maximal length without its terminator. Having accepted or rejected it takes nothing
more.

## Main definitions

* `LineReader`, `LineReader.Reading`, `LineReader.read`: the reader and what it is at after
  a stream.
* `LineReader.IsLine`, `LineReader.join`: lines without their terminator, and the stream of them.
* `LineReader.Passes`: the phases that a list of lines leads through.

## Main results

* `LineReader.read_eq_reading_iff`, `LineReader.read_eq_accepted_iff`,
  `LineReader.read_eq_rejected_iff`: the streams on which a reader goes on, accepts and rejects.
* `LineReader.isPrefix_of_final`: a reader takes nothing behind the stream that it accepts.
-/

namespace WsClient

/-- A reader of lines with phases `φ` over the alphabet `α`. -/
structure LineReader (φ α : Type*) where
  /-- The symbol that ends a line. -/
  terminator : α
  /-- The length at which a line is too long. -/
  maxLen : ℕ
  /-- What follows a line: the next phase, or the end with acceptance or not. -/
  next : φ → List α → φ ⊕ Bool

namespace LineReader

variable {φ α : Type*}

/-- What a reader is at: in a phase with a part of a line, or at the end. -/
inductive Reading (φ α : Type*)
  | reading (phase : φ) (line : List α)
  | accepted
  | rejected
  /-- A symbol was given to a reader that had accepted or rejected. -/
  | overrun

/-- The reader behind a line. -/
def afterLine : φ ⊕ Bool → Reading φ α
  | .inl phase => .reading phase []
  | .inr true => .accepted
  | .inr false => .rejected

variable [DecidableEq α] (R : LineReader φ α)

/-- Take one symbol. -/
def readOne : Reading φ α → α → Reading φ α
  | .reading phase line, c =>
    if c = R.terminator then afterLine (R.next phase line)
    else if line.length + 1 = R.maxLen then .rejected
    else .reading phase (line ++ [c])
  | _, _ => .overrun

/-- Take a stream. -/
def read (r : Reading φ α) (s : List α) : Reading φ α := s.foldl R.readOne r

omit [DecidableEq α] in
/-- A line, without its terminator. -/
def IsLine (l : List α) : Prop := R.terminator ∉ l ∧ l.length < R.maxLen

instance (l : List α) : Decidable (R.IsLine l) := inferInstanceAs (Decidable (_ ∧ _))

/-- A list of lines as a stream. -/
def join (ls : List (List α)) : List α := ls.flatMap (· ++ [R.terminator])

/-- The lines lead from one phase to another. -/
inductive Passes : φ → List (List α) → φ → Prop
  | nil (phase : φ) : Passes phase [] phase
  | snoc {phase ls phase' l phase''} (h : Passes phase ls phase') (hl : R.IsLine l)
      (hnext : R.next phase' l = .inl phase'') : Passes phase (ls ++ [l]) phase''

variable {R} {r : Reading φ α} {phase phase' : φ} {l p s t : List α} {ls : List (List α)}

@[simp] theorem read_nil (R : LineReader φ α) (r : Reading φ α) : R.read r [] = r := rfl

theorem read_append (R : LineReader φ α) (r : Reading φ α) (s t : List α) :
    R.read r (s ++ t) = R.read (R.read r s) t := List.foldl_append

theorem read_snoc (R : LineReader φ α) (r : Reading φ α) (s : List α) (c : α) :
    R.read r (s ++ [c]) = R.readOne (R.read r s) c := by
  rw [read_append]
  rfl

omit [DecidableEq α] in
@[simp] theorem join_append (R : LineReader φ α) (ls ls' : List (List α)) :
    R.join (ls ++ ls') = R.join ls ++ R.join ls' := List.flatMap_append

omit [DecidableEq α] in
@[simp] theorem join_singleton (R : LineReader φ α) (l : List α) :
    R.join [l] = l ++ [R.terminator] := by simp [join]

@[simp] theorem read_overrun (R : LineReader φ α) (s : List α) :
    R.read .overrun s = .overrun := by
  induction s with
  | nil => rfl
  | cons c s ih => exact ih

/-! ### Reading lines -/

/-- A part of a line is collected. -/
theorem read_line (hl : R.terminator ∉ l) (hlen : p.length + l.length < R.maxLen) :
    R.read (.reading phase p) l = .reading phase (p ++ l) := by
  induction l generalizing p with
  | nil => simp
  | cons c l ih =>
    rw [List.mem_cons, not_or] at hl
    rw [List.length_cons] at hlen
    have hc : R.readOne (.reading phase p) c = .reading phase (p ++ [c]) := by
      rw [readOne, if_neg (Ne.symm hl.1), if_neg (by omega)]
    change R.read (R.readOne (.reading phase p) c) l = _
    rw [hc, ih hl.2 (by simp; omega), List.append_assoc, List.singleton_append]

theorem read_terminated (hl : R.IsLine l) :
    R.read (.reading phase []) (l ++ [R.terminator]) = afterLine (R.next phase l) := by
  rw [read_snoc, read_line hl.1 (by simpa using hl.2), List.nil_append, readOne, if_pos rfl]

theorem Passes.read (h : R.Passes phase ls phase') :
    R.read (.reading phase []) (R.join ls) = .reading phase' [] := by
  induction h with
  | nil => rfl
  | snoc h hl hnext ih =>
    rw [join_append, join_singleton, read_append, ih, read_terminated hl, hnext]
    rfl

theorem Passes.read_append (h : R.Passes phase ls phase') (s : List α) :
    R.read (.reading phase []) (R.join ls ++ s) = R.read (.reading phase' []) s := by
  rw [LineReader.read_append, h.read]

theorem read_too_long (hl : R.terminator ∉ l) (hpos : 0 < R.maxLen) (hlen : l.length = R.maxLen) :
    R.read (.reading phase []) l = .rejected := by
  rcases List.eq_nil_or_concat l with rfl | ⟨l, c, rfl⟩
  · simp at hlen
    omega
  · rw [List.concat_eq_append] at hl hlen ⊢
    simp only [List.mem_append, List.mem_singleton, not_or] at hl
    rw [List.length_append, List.length_singleton] at hlen
    rw [read_snoc, read_line hl.1 (by simp; omega), readOne, if_neg (Ne.symm hl.2),
      if_pos (by simpa using hlen)]

/-! ### What a reader has read -/

/-- The stream that leads a reader to what it is at. -/
def Describes (R : LineReader φ α) (phase : φ) (s : List α) : Reading φ α → Prop
  | .reading phase' l => ∃ ls, R.Passes phase ls phase' ∧ R.IsLine l ∧ s = R.join ls ++ l
  | .accepted => ∃ ls phase' l, R.Passes phase ls phase' ∧ R.IsLine l ∧
      R.next phase' l = .inr true ∧ s = R.join ls ++ (l ++ [R.terminator])
  | .rejected => ∃ ls phase' l, R.Passes phase ls phase' ∧
      (R.IsLine l ∧ R.next phase' l = .inr false ∧ s = R.join ls ++ (l ++ [R.terminator]) ∨
        R.terminator ∉ l ∧ l.length = R.maxLen ∧ s = R.join ls ++ l)
  | .overrun => True

theorem describes_read (hpos : 0 < R.maxLen) (phase : φ) (s : List α) :
    R.Describes phase s (R.read (.reading phase []) s) := by
  induction s using List.reverseRecOn with
  | nil => exact ⟨[], .nil phase, ⟨by simp, by simpa using hpos⟩, rfl⟩
  | append_singleton s c ih =>
    rw [read_snoc]
    cases hr : R.read (.reading phase []) s with
    | reading phase' l =>
      rw [hr] at ih
      obtain ⟨ls, hpass, hl, rfl⟩ := ih
      rw [readOne]
      split_ifs with hc hlen
      · subst hc
        cases hnext : R.next phase' l with
        | inl phase'' =>
          exact ⟨ls ++ [l], hpass.snoc hl hnext, ⟨by simp, by simpa using hpos⟩, by simp⟩
        | inr b =>
          cases b with
          | true => exact ⟨ls, phase', l, hpass, hl, hnext, by simp⟩
          | false => exact ⟨ls, phase', l, hpass, .inl ⟨hl, hnext, by simp⟩⟩
      · refine ⟨ls, phase', l ++ [c], hpass, .inr ⟨?_, by simpa using hlen, by simp⟩⟩
        simpa [hl.1] using Ne.symm hc
      · have := hl.2
        refine ⟨ls, hpass, ⟨by simpa [hl.1] using Ne.symm hc, ?_⟩, by simp⟩
        rw [List.length_append, List.length_singleton]
        omega
    | accepted | rejected | overrun => trivial

theorem read_eq_reading_iff (hpos : 0 < R.maxLen) :
    R.read (.reading phase []) s = .reading phase' l ↔
      ∃ ls, R.Passes phase ls phase' ∧ R.IsLine l ∧ s = R.join ls ++ l := by
  constructor
  · intro h
    have := describes_read hpos phase s
    rwa [h] at this
  · rintro ⟨ls, hpass, hl, rfl⟩
    rw [hpass.read_append, read_line hl.1 (by simpa using hl.2), List.nil_append]

theorem read_eq_accepted_iff (hpos : 0 < R.maxLen) :
    R.read (.reading phase []) s = .accepted ↔
      ∃ ls phase' l, R.Passes phase ls phase' ∧ R.IsLine l ∧ R.next phase' l = .inr true ∧
        s = R.join ls ++ (l ++ [R.terminator]) := by
  constructor
  · intro h
    have := describes_read hpos phase s
    rwa [h] at this
  · rintro ⟨ls, phase', l, hpass, hl, hnext, rfl⟩
    rw [hpass.read_append, read_terminated hl, hnext]
    rfl

theorem read_eq_rejected_iff (hpos : 0 < R.maxLen) :
    R.read (.reading phase []) s = .rejected ↔
      ∃ ls phase' l, R.Passes phase ls phase' ∧
        (R.IsLine l ∧ R.next phase' l = .inr false ∧ s = R.join ls ++ (l ++ [R.terminator]) ∨
          R.terminator ∉ l ∧ l.length = R.maxLen ∧ s = R.join ls ++ l) := by
  constructor
  · intro h
    have := describes_read hpos phase s
    rwa [h] at this
  · rintro ⟨ls, phase', l, hpass, ⟨hl, hnext, rfl⟩ | ⟨hl, hlen, rfl⟩⟩
    · rw [hpass.read_append, read_terminated hl, hnext]
      rfl
    · rw [hpass.read_append, read_too_long hl hpos hlen]

/-! ### The end -/

/-- Behind acceptance every symbol is too much. -/
theorem read_final_append (hs : R.read r s = .accepted) (ht : t ≠ []) :
    R.read r (s ++ t) = .overrun := by
  obtain ⟨c, t, rfl⟩ := List.exists_cons_of_ne_nil ht
  rw [read_append, hs]
  exact read_overrun R t

/-- A reader that takes the front of a stream takes nothing behind what it accepts, and accepts
there. -/
theorem isPrefix_of_final {head stream : List α} (hhead : R.read r head = .accepted)
    (hstream : head <+: stream) (hs : s <+: stream) (hover : R.read r s ≠ .overrun) :
    s <+: head ∧ (R.read r s = .accepted ↔ s = head) := by
  rcases List.prefix_or_prefix_of_prefix hs hstream with hle | ⟨t, rfl⟩
  · refine ⟨hle, fun hacc => ?_, fun heq => heq ▸ hhead⟩
    obtain ⟨t, rfl⟩ := hle
    by_contra hne
    have ht : t ≠ [] := fun ht => hne (by simp [ht])
    rw [read_final_append hacc ht] at hhead
    cases hhead
  · by_cases ht : t = []
    · subst ht
      rw [List.append_nil]
      exact ⟨List.prefix_rfl, fun _ => rfl, fun _ => hhead⟩
    · exact absurd (read_final_append hhead ht) hover

end LineReader

end WsClient
