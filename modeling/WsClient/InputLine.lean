import WsClient.Library.CString
import WsClient.Library.Transition

/-!
# Lines from the console

The input thread of `InputLineImpl` reads a piece of standard input with `fgets` into `mInputBuffer`
and sets `mHaveNewData`; `getInputLine` copies the piece to `mResultBuffer` and clears the flag.
Both are programs of single accesses to shared memory, run in any order. The mutex is taken by one
side only: it is the flag that says which side owns the buffer.

The destructor, which alone sets `mExit`, is not part of the model.

## Main definitions

* `InputLineImpl`, `InputLineImpl.threadStep`, `InputLineImpl.consumerStep`.
* `InputLineImpl.machine`: the two programs under a scheduler.
* `pieces`: what the calls of `fgets` return for an input.
* `Handoff`: the invariant.

## Main results

* `Handoff.threadStep`, `Handoff.consumerStep`: every step keeps the invariant.
* `InputLineImpl.line_handoff`: every piece is returned once, in order, from a buffer that is not
  written meanwhile.
-/

namespace WsClient

/-! ### The two programs -/

/-- `MAX_INPUT`. -/
def maxInput : ℕ := 512

/-- Where the input thread is. -/
inductive ThreadPc
  /-- At the test of `mHaveNewData`. -/
  | testing
  | clearing
  /-- In `fgets`, with `n` characters stored. -/
  | reading (n : ℕ)
  /-- In `fgets`, before the NUL is stored. -/
  | ending (n : ℕ)
  /-- At the test of `strlen`. -/
  | checking
  | setting

/-- Where the consumer is in `getInputLine`. -/
inductive ConsumerPc
  | idle
  | locking
  /-- In `strcpy`, with `i` characters copied. -/
  | copying (i : ℕ)
  | stripping
  | releasing
  | unlocking
  | returning

/-- The object, what is left of standard input, and where the two programs are. -/
structure InputLineImpl where
  mInputBuffer : ℕ → UInt8
  mResultBuffer : ℕ → UInt8
  mMutex : Bool
  mHaveNewData : Bool
  stdin : List UInt8
  thread : ThreadPc
  consumer : ConsumerPc

/-- What can be observed. -/
inductive InputEvent
  | flagSet
  /-- `strcpy` is finished. -/
  | copied
  /-- A store to `mInputBuffer`. -/
  | wrote (i : ℕ) (c : UInt8)
  /-- `fgets` returns a piece of the input. -/
  | piece (p : List UInt8)
  /-- `getInputLine` returns a null pointer or the string in `mResultBuffer`. -/
  | returned (r : Option (List UInt8))

namespace InputLineImpl

/-- A new object, with uninitialised buffers. -/
def create (inputBuffer resultBuffer : ℕ → UInt8) (stdin : List UInt8) : InputLineImpl where
  mInputBuffer := inputBuffer
  mResultBuffer := resultBuffer
  mMutex := false
  mHaveNewData := false
  stdin := stdin
  thread := .testing
  consumer := .idle

/-- A step of the input thread. `fgets` stores characters up to a newline, the end of the input or
the size of the buffer, and then a NUL; at the end of the input it stores nothing. -/
def threadStep (s : InputLineImpl) : InputLineImpl × List InputEvent :=
  match s.thread with
  | .testing => (if s.mHaveNewData then s else { s with thread := .clearing }, [])
  | .clearing =>
    ({ s with mInputBuffer := Function.update s.mInputBuffer 0 0, thread := .reading 0 },
      [.wrote 0 0])
  | .reading n =>
    match s.stdin with
    | [] => ({ s with thread := if n = 0 then .testing else .ending n }, [])
    | c :: rest =>
      ({ s with
          mInputBuffer := Function.update s.mInputBuffer n c
          stdin := rest
          thread := if c = 10 ∨ n + 2 = maxInput then .ending (n + 1) else .reading (n + 1) },
        [.wrote n c])
  | .ending n =>
    ({ s with mInputBuffer := Function.update s.mInputBuffer n 0, thread := .checking },
      [.wrote n 0, .piece ((List.range n).map s.mInputBuffer)])
  | .checking =>
    ({ s with
        thread := if (CString.text s.mInputBuffer maxInput).length ≠ 0 then .setting
          else .testing }, [])
  | .setting => ({ s with mHaveNewData := true, thread := .testing }, [.flagSet])

/-- A final newline of the string in a buffer is overwritten. -/
def stripNewline (b : ℕ → UInt8) : ℕ → UInt8 :=
  let len := (CString.text b maxInput).length
  if len ≠ 0 ∧ b (len - 1) = 0x0A then Function.update b (len - 1) 0 else b

/-- A step of the consumer; an idle one calls `getInputLine`. -/
def consumerStep (s : InputLineImpl) : InputLineImpl × List InputEvent :=
  match s.consumer with
  | .idle => if s.mHaveNewData then ({ s with consumer := .locking }, []) else (s, [.returned none])
  | .locking =>
    (if s.mMutex then s else { s with mMutex := true, consumer := .copying 0 }, [])
  | .copying i =>
    let c := s.mInputBuffer i
    ({ s with
        mResultBuffer := Function.update s.mResultBuffer i c
        consumer := if c = 0 then .stripping else .copying (i + 1) },
      if c = 0 then [.copied] else [])
  | .stripping =>
    ({ s with mResultBuffer := stripNewline s.mResultBuffer, consumer := .releasing }, [])
  | .releasing => ({ s with mHaveNewData := false, consumer := .unlocking }, [])
  | .unlocking => ({ s with mMutex := false, consumer := .returning }, [])
  | .returning =>
    ({ s with consumer := .idle }, [.returned (some (CString.text s.mResultBuffer maxInput))])

/-- The scheduler lets the input thread or the consumer take a step. -/
inductive Turn
  | thread
  | consumer

/-- The two programs under a scheduler. -/
def machine : Machine InputLineImpl Turn InputEvent where
  step s i :=
    match i with
    | .thread => some s.threadStep
    | .consumer => some s.consumerStep

end InputLineImpl

/-! ### The pieces of an input -/

/-- What the calls of `fgets` return when `acc` has been stored of the first piece. -/
def piecesFrom (acc : List UInt8) : List UInt8 → List (List UInt8)
  | [] => if acc = [] then [] else [acc]
  | c :: s =>
    if c = 10 ∨ acc.length + 2 = maxInput then (acc ++ [c]) :: piecesFrom [] s
    else piecesFrom (acc ++ [c]) s

/-- What the calls of `fgets` return for an input. -/
def pieces (stdin : List UInt8) : List (List UInt8) := piecesFrom [] stdin

/-- A piece without its final newline. -/
def chomp (p : List UInt8) : List UInt8 := if p.getLast? = some 10 then p.dropLast else p

/-- The pieces of an input make up the input. -/
theorem piecesFrom_flatten (acc s : List UInt8) : (piecesFrom acc s).flatten = acc ++ s := by
  induction s generalizing acc with
  | nil =>
    by_cases h : acc = []
    · simp [piecesFrom, h]
    · simp [piecesFrom, h]
  | cons c s ih =>
    by_cases h : c = 10 ∨ acc.length + 2 = maxInput
    · simp [piecesFrom, h, ih]
    · simp [piecesFrom, h, ih]

theorem pieces_flatten (s : List UInt8) : (pieces s).flatten = s := piecesFrom_flatten [] s

/-- A piece is not empty, has at most 511 characters, and a newline only at its end. -/
theorem mem_piecesFrom {acc s p : List UInt8} (hp : p ∈ piecesFrom acc s)
    (hlen : acc.length + 1 < maxInput) (hline : 10 ∉ acc) :
    p ≠ [] ∧ p.length < maxInput ∧ 10 ∉ p.dropLast := by
  induction s generalizing acc with
  | nil =>
    by_cases h : acc = []
    · simp [piecesFrom, h] at hp
    · obtain rfl : p = acc := by simpa [piecesFrom, h] using hp
      exact ⟨h, by omega, fun hmem => hline (List.dropLast_subset p hmem)⟩
  | cons c s ih =>
    by_cases h : c = 10 ∨ acc.length + 2 = maxInput
    · rw [piecesFrom, if_pos h] at hp
      rcases List.mem_cons.mp hp with rfl | hp
      · exact ⟨by simp, by simpa using hlen, by simpa using hline⟩
      · exact ih hp (by decide) (by simp)
    · rw [piecesFrom, if_neg h] at hp
      obtain ⟨hc, hne⟩ := not_or.mp h
      refine ih hp ?_ ?_
      · rw [List.length_append, List.length_singleton]
        omega
      · simp [hline, Ne.symm hc]

theorem mem_pieces {s p : List UInt8} (hp : p ∈ pieces s) :
    p ≠ [] ∧ p.length < maxInput ∧ 10 ∉ p.dropLast :=
  mem_piecesFrom hp (by decide) (by simp)

/-! ### The invariant -/

/-- The piece that `fgets` returned, if the event is its return. -/
def InputEvent.piece? : InputEvent → Option (List UInt8)
  | .flagSet => none
  | .copied => none
  | .wrote _ _ => none
  | .piece p => some p
  | .returned _ => none

/-- The string that `getInputLine` returned, if the event is its return and it is not null. -/
def InputEvent.string? : InputEvent → Option (List UInt8)
  | .flagSet => none
  | .copied => none
  | .wrote _ _ => none
  | .piece _ => none
  | .returned r => r

/-- A store to `mInputBuffer`. -/
def InputEvent.IsWrote (e : InputEvent) : Prop := ∃ i c, e = .wrote i c

/-- The pieces read. -/
def piecesRead (es : List InputEvent) : List (List UInt8) := es.filterMap InputEvent.piece?

/-- The strings returned, without the null pointers. -/
def stringsReturned (es : List InputEvent) : List (List UInt8) := es.filterMap InputEvent.string?

/-- What a buffer holds when it is handed over. -/
structure HoldsPiece (b : ℕ → UInt8) (waiting : List (List UInt8)) (p : List UInt8) : Prop where
  waiting_eq : waiting = [p]
  holds : CString.Holds b p
  length_lt : p.length < maxInput

/-- Where the input thread is: `acc` is the part of a piece in the buffer, and `waiting` the piece
that has not been copied. The thread owns the buffer while the flag is clear. -/
def ThreadAt (b : ℕ → UInt8) (acc : List UInt8) (waiting : List (List UInt8)) (flag : Bool) :
    ThreadPc → Prop
  | .testing =>
    acc = [] ∧ (flag = false ∧ waiting = [] ∨ flag = true ∧ ∃ p, HoldsPiece b waiting p)
  | .clearing => flag = false ∧ acc = [] ∧ waiting = []
  | .reading n =>
    flag = false ∧ waiting = [] ∧ n = acc.length ∧ n + 1 < maxInput ∧ CString.Stored b acc
  | .ending n =>
    flag = false ∧ waiting = [] ∧ n = acc.length ∧ n < maxInput ∧ CString.Stored b acc ∧ acc ≠ []
  | .checking => flag = false ∧ acc = [] ∧ ∃ p, HoldsPiece b waiting p ∧ p ≠ []
  | .setting => flag = false ∧ acc = [] ∧ ∃ p, HoldsPiece b waiting p

/-- Where the consumer is: `taken` is the string that it is about to return. It owns the buffer
while the flag is set. -/
def ConsumerAt (r : ℕ → UInt8) (waiting taken : List (List UInt8)) (flag : Bool) :
    ConsumerPc → Prop
  | .idle => taken = []
  | .locking => flag = true ∧ taken = []
  | .copying i =>
    flag = true ∧ taken = [] ∧ ∃ p, waiting = [p] ∧ i ≤ p.length ∧ CString.Stored r (p.take i)
  | .stripping => flag = true ∧ taken = [] ∧ ∃ p, waiting = [p] ∧ CString.Holds r p
  | .releasing => flag = true ∧ taken = [] ∧ ∃ p, waiting = [p] ∧ CString.Holds r (chomp p)
  | .unlocking | .returning => ∃ p, HoldsPiece r taken p

/-- What `fgets` has still to return. -/
def remaining (acc stdin : List UInt8) : ThreadPc → List (List UInt8)
  | .ending _ => acc :: pieces stdin
  | _ => piecesFrom acc stdin

/-- The buffer is not written while the flag is set, nor while it is copied. -/
structure Exclusion (es : List InputEvent) (flag : Bool) (pc : ConsumerPc) : Prop where
  flag_of_isOpen : Machine.IsOpen (· = .flagSet) (· = .copied) es →
    flag = true ∧ pc ≠ .stripping ∧ pc ≠ .releasing
  excludes : Machine.Excludes (· = .flagSet) (· = .copied) InputEvent.IsWrote es

/-- The invariant, after the events `es` of a run on the input `stdin`. -/
structure Handoff (stdin : List UInt8) (es : List InputEvent) (s : InputLineImpl)
    (acc : List UInt8) (waiting taken : List (List UInt8)) : Prop where
  nul_notMem : 0 ∉ acc ++ s.stdin
  threadAt : ThreadAt s.mInputBuffer acc waiting s.mHaveNewData s.thread
  consumerAt : ConsumerAt s.mResultBuffer waiting taken s.mHaveNewData s.consumer
  pieces_eq : pieces stdin = piecesRead es ++ remaining acc s.stdin s.thread
  returned_eq : stringsReturned es ++ taken ++ waiting.map chomp = (piecesRead es).map chomp
  exclusion : Exclusion es s.mHaveNewData s.consumer

/-- A step that reports no store to `mInputBuffer` leaves it as it is. -/
theorem InputLineImpl.step_mInputBuffer {s t : InputLineImpl} {turn : Turn} {es : List InputEvent}
    (hstep : machine.step s turn = some (t, es)) (hquiet : ∀ e ∈ es, ¬e.IsWrote) :
    t.mInputBuffer = s.mInputBuffer := by
  cases turn with
  | thread =>
    obtain ⟨rfl, rfl⟩ : s.threadStep.1 = t ∧ s.threadStep.2 = es :=
      Prod.mk.inj (Option.some.inj hstep)
    unfold threadStep at hquiet ⊢
    split
    · split_ifs <;> rfl
    · simp [InputEvent.IsWrote, *] at hquiet
    · split
      · rfl
      · simp [InputEvent.IsWrote, *] at hquiet
    · simp [InputEvent.IsWrote, *] at hquiet
    · rfl
    · rfl
  | consumer =>
    obtain ⟨rfl, -⟩ : s.consumerStep.1 = t ∧ s.consumerStep.2 = es :=
      Prod.mk.inj (Option.some.inj hstep)
    unfold consumerStep
    split
    · split_ifs <;> rfl
    · split_ifs <;> rfl
    all_goals rfl

variable {es es' : List InputEvent} {flag flag' : Bool} {pc pc' : ConsumerPc} {stdin : List UInt8}
  {s : InputLineImpl} {acc : List UInt8} {waiting taken : List (List UInt8)} {b r : ℕ → UInt8}

@[simp] theorem piecesRead_append : piecesRead (es ++ es') = piecesRead es ++ piecesRead es' :=
  List.filterMap_append

@[simp] theorem stringsReturned_append :
    stringsReturned (es ++ es') = stringsReturned es ++ stringsReturned es' :=
  List.filterMap_append

/-- Events that do not set the flag keep the exclusion, if nothing is written unless the flag is
clear. -/
theorem Exclusion.append (h : Exclusion es flag pc) (hset : ∀ e ∈ es', e ≠ .flagSet)
    (hwrote : ∀ e ∈ es', e.IsWrote → flag = false)
    (hkeep : flag = true → pc ≠ .stripping → pc ≠ .releasing → (∀ e ∈ es', e ≠ .copied) →
      flag' = true ∧ pc' ≠ .stripping ∧ pc' ≠ .releasing) : Exclusion (es ++ es') flag' pc' where
  flag_of_isOpen hopen := by
    obtain ⟨hopen, hcopied⟩ := (Machine.isOpen_append hset).mp hopen
    obtain ⟨hflag, hstripping, hreleasing⟩ := h.flag_of_isOpen hopen
    exact hkeep hflag hstripping hreleasing hcopied
  excludes := h.excludes.append hset fun e he hw hopen => by
    rw [(h.flag_of_isOpen hopen).1] at hwrote
    cases hwrote e he hw

/-- While the flag is clear, the input thread does what it likes. -/
theorem Exclusion.of_released (h : Exclusion es false pc) (hset : ∀ e ∈ es', e ≠ .flagSet) :
    Exclusion (es ++ es') flag' pc' :=
  h.append hset (fun _ _ _ => rfl) fun hflag => by cases hflag

/-- The flag is set. -/
theorem Exclusion.set (h : Exclusion es false pc) (hstripping : pc ≠ .stripping)
    (hreleasing : pc ≠ .releasing) : Exclusion (es ++ [.flagSet]) true pc where
  flag_of_isOpen _ := ⟨rfl, hstripping, hreleasing⟩
  excludes := h.excludes.snoc fun hw => by
    obtain ⟨i, c, hw⟩ := hw
    cases hw

/-- The string without its final newline is left in the buffer. -/
theorem holds_stripNewline {p : List UInt8} (h : CString.Holds b p) (hlen : p.length < maxInput) :
    CString.Holds (InputLineImpl.stripNewline b) (chomp p) := by
  unfold InputLineImpl.stripNewline chomp
  rw [h.text_eq hlen]
  by_cases hp : p = []
  · subst hp
    simpa using h
  · have hlast := h.getLast? hp
    have hpos : p.length ≠ 0 := fun hzero => hp (List.length_eq_zero_iff.mp hzero)
    by_cases hline : b (p.length - 1) = 0x0A
    · rw [if_pos ⟨hpos, hline⟩, if_pos (by rw [hlast, hline])]
      exact h.cut
    · rw [if_neg fun hand => hline hand.2, if_neg (by simpa [hlast] using hline)]
      exact h

theorem length_chomp_le (p : List UInt8) : (chomp p).length ≤ p.length := by
  unfold chomp
  split_ifs
  · simp
  · exact le_rfl

/-- The consumer is not affected by what the thread does while the flag is clear. -/
theorem ConsumerAt.of_released (h : ConsumerAt r waiting taken false pc)
    (waiting' : List (List UInt8)) (flag' : Bool) : ConsumerAt r waiting' taken flag' pc := by
  cases pc with
  | idle => exact h
  | locking => cases h.1
  | copying i => cases h.1
  | stripping => cases h.1
  | releasing => cases h.1
  | unlocking => exact h
  | returning => exact h

/-- The thread waits while the flag is set. -/
theorem ThreadAt.testing_of_flag {pc : ThreadPc} (h : ThreadAt b acc waiting true pc) :
    pc = .testing ∧ acc = [] ∧ ∃ p, HoldsPiece b waiting p := by
  cases pc with
  | testing =>
    obtain ⟨hacc, ⟨hflag, -⟩ | ⟨-, hp⟩⟩ := h
    · cases hflag
    · exact ⟨rfl, hacc, hp⟩
  | clearing => cases h.1
  | reading n => cases h.1
  | ending n => cases h.1
  | checking => cases h.1
  | setting => cases h.1

namespace Handoff

theorem create (inputBuffer resultBuffer : ℕ → UInt8) (hnul : 0 ∉ stdin) :
    Handoff stdin [] (.create inputBuffer resultBuffer stdin) [] [] [] where
  nul_notMem := hnul
  threadAt := ⟨rfl, .inl ⟨rfl, rfl⟩⟩
  consumerAt := rfl
  pieces_eq := rfl
  returned_eq := rfl
  exclusion := ⟨fun h => absurd h Machine.not_isOpen_nil, .nil⟩

variable (h : Handoff stdin es s acc waiting taken)
include h

/-- A step of the thread while the flag is clear. -/
theorem released {t : InputLineImpl} {acc' waiting'} (hflag : s.mHaveNewData = false)
    (hresult : t.mResultBuffer = s.mResultBuffer) (hconsumer : t.consumer = s.consumer)
    (hset : ∀ e ∈ es', e ≠ .flagSet) (hnul : 0 ∉ acc' ++ t.stdin)
    (hat : ThreadAt t.mInputBuffer acc' waiting' t.mHaveNewData t.thread)
    (hpieces : remaining acc s.stdin s.thread = piecesRead es' ++ remaining acc' t.stdin t.thread)
    (hstrings : stringsReturned es' = []) (hwaiting : waiting' = waiting ++ piecesRead es') :
    Handoff stdin (es ++ es') t acc' waiting' taken where
  nul_notMem := hnul
  threadAt := hat
  consumerAt := by
    have hc := h.consumerAt
    rw [hflag] at hc
    rw [hresult, hconsumer]
    exact hc.of_released _ _
  pieces_eq := by rw [h.pieces_eq, hpieces, piecesRead_append, List.append_assoc]
  returned_eq := by
    rw [stringsReturned_append, hstrings, List.append_nil, hwaiting, List.map_append,
      ← List.append_assoc, h.returned_eq, piecesRead_append, List.map_append]
  exclusion := by
    have hx := h.exclusion
    rw [hflag] at hx
    exact hx.of_released hset

/-- The thread stores the next character of a piece, or ends it at the end of the input. -/
theorem threadStep_reading {n : ℕ} (hpc : s.thread = .reading n) :
    ∃ acc' waiting', Handoff stdin (es ++ s.threadStep.2) s.threadStep.1 acc' waiting' taken := by
  have hnul := h.nul_notMem
  have hat := h.threadAt
  rw [hpc] at hat
  obtain ⟨hflag, rfl, rfl, hlen, hstored⟩ := hat
  have hpieces : remaining acc s.stdin s.thread = piecesFrom acc s.stdin := by
    rw [hpc]
    rfl
  cases hstdin : s.stdin with
  | nil =>
    by_cases hacc : acc = []
    · subst hacc
      have hstep : s.threadStep = ({ s with thread := .testing }, []) := by
        simp [InputLineImpl.threadStep, hpc, hstdin]
      rw [hstep]
      exact ⟨[], [], h.released hflag rfl rfl (by simp) hnul ⟨rfl, .inl ⟨hflag, rfl⟩⟩ hpieces rfl
        rfl⟩
    · have hstep : s.threadStep = ({ s with thread := .ending acc.length }, []) := by
        simp [InputLineImpl.threadStep, hpc, hstdin, hacc]
      rw [hstep]
      refine ⟨acc, [], h.released hflag rfl rfl (by simp) hnul
        ⟨hflag, rfl, rfl, by omega, hstored, hacc⟩ ?_ rfl rfl⟩
      rw [hpieces, hstdin, piecesFrom, if_neg hacc]
      rfl
  | cons c rest =>
    have hnul' : 0 ∉ acc ++ [c] ++ rest := by simpa [hstdin] using hnul
    have hpush : CString.Stored (Function.update s.mInputBuffer acc.length c) (acc ++ [c]) :=
      hstored.push c
    have hlen' : (acc ++ [c]).length = acc.length + 1 := by simp
    by_cases hend : c = 10 ∨ acc.length + 2 = maxInput
    · have hstep : s.threadStep =
          ({ s with
              mInputBuffer := Function.update s.mInputBuffer acc.length c
              stdin := rest
              thread := .ending (acc.length + 1) }, [.wrote acc.length c]) := by
        simp [InputLineImpl.threadStep, hpc, hstdin, hend]
      rw [hstep]
      refine ⟨acc ++ [c], [], h.released hflag rfl rfl (by simp) hnul'
        ⟨hflag, rfl, hlen'.symm, hlen, hpush, by simp⟩ ?_ rfl rfl⟩
      rw [hpieces, hstdin, piecesFrom, if_pos hend]
      rfl
    · have hstep : s.threadStep =
          ({ s with
              mInputBuffer := Function.update s.mInputBuffer acc.length c
              stdin := rest
              thread := .reading (acc.length + 1) }, [.wrote acc.length c]) := by
        simp [InputLineImpl.threadStep, hpc, hstdin, hend]
      have hne := (not_or.mp hend).2
      rw [hstep]
      refine ⟨acc ++ [c], [], h.released hflag rfl rfl (by simp) hnul'
        ⟨hflag, rfl, hlen'.symm, by omega, hpush⟩ ?_ rfl rfl⟩
      rw [hpieces, hstdin, piecesFrom, if_neg hend]
      rfl

/-- The thread sets the flag. -/
theorem threadStep_setting (hpc : s.thread = .setting) :
    ∃ acc' waiting', Handoff stdin (es ++ s.threadStep.2) s.threadStep.1 acc' waiting' taken := by
  have hat := h.threadAt
  have hc := h.consumerAt
  have hx := h.exclusion
  rw [hpc] at hat
  obtain ⟨hflag, rfl, p, hp⟩ := hat
  rw [hflag] at hc hx
  have hstep : s.threadStep =
      ({ s with mHaveNewData := true, thread := .testing }, [.flagSet]) := by
    simp only [InputLineImpl.threadStep, hpc]
  have hout : s.consumer ≠ .stripping ∧ s.consumer ≠ .releasing := by
    refine ⟨fun hcon => ?_, fun hcon => ?_⟩
    · rw [hcon] at hc
      cases hc.1
    · rw [hcon] at hc
      cases hc.1
  have hpiece : piecesRead [.flagSet] = [] := rfl
  have hstring : stringsReturned [.flagSet] = [] := rfl
  rw [hstep]
  refine ⟨[], waiting, ?_⟩
  exact {
    nul_notMem := h.nul_notMem
    threadAt := ⟨rfl, .inr ⟨rfl, p, hp⟩⟩
    consumerAt := hc.of_released _ _
    pieces_eq := by
      rw [h.pieces_eq, hpc, piecesRead_append, hpiece, List.append_nil]
      rfl
    returned_eq := by
      rw [stringsReturned_append, piecesRead_append, hpiece, hstring, List.append_nil,
        List.append_nil, h.returned_eq]
    exclusion := hx.set hout.1 hout.2 }

/-- A step of the input thread keeps the invariant. -/
theorem threadStep : ∃ acc' waiting', Handoff stdin (es ++ s.threadStep.2) s.threadStep.1
    acc' waiting' taken := by
  have hat := h.threadAt
  have hnul := h.nul_notMem
  have hpieces (pc : ThreadPc) (hpc : s.thread = pc) :
      remaining acc s.stdin s.thread = remaining acc s.stdin pc := by rw [hpc]
  cases hpc : s.thread with
  | testing =>
    rw [hpc] at hat
    obtain ⟨rfl, ⟨hflag, rfl⟩ | ⟨hflag, -⟩⟩ := hat
    · have hstep : s.threadStep = ({ s with thread := .clearing }, []) := by
        simp [InputLineImpl.threadStep, hpc, hflag]
      rw [hstep]
      exact ⟨[], [], h.released hflag rfl rfl (by simp) hnul ⟨hflag, rfl, rfl⟩ (hpieces _ hpc) rfl
        rfl⟩
    · have hstep : s.threadStep = (s, []) := by simp [InputLineImpl.threadStep, hpc, hflag]
      rw [hstep, List.append_nil]
      exact ⟨[], waiting, h⟩
  | clearing =>
    rw [hpc] at hat
    obtain ⟨hflag, rfl, rfl⟩ := hat
    have hstep : s.threadStep =
        ({ s with mInputBuffer := Function.update s.mInputBuffer 0 0, thread := .reading 0 },
          [.wrote 0 0]) := by
      simp only [InputLineImpl.threadStep, hpc]
    rw [hstep]
    exact ⟨[], [], h.released hflag rfl rfl (by simp) hnul
      ⟨hflag, rfl, rfl, by decide, .nil⟩ (hpieces _ hpc) rfl rfl⟩
  | reading n => exact h.threadStep_reading hpc
  | ending n =>
    rw [hpc] at hat
    obtain ⟨hflag, rfl, rfl, hlen, hstored, hne⟩ := hat
    have hstep : s.threadStep =
        ({ s with
            mInputBuffer := Function.update s.mInputBuffer acc.length 0
            thread := .checking }, [.wrote acc.length 0, .piece acc]) := by
      simp only [InputLineImpl.threadStep, hpc, hstored.map_range]
    obtain ⟨hacc, hrest⟩ := not_or.mp (List.mem_append.not.mp hnul)
    rw [hstep]
    exact ⟨[], [acc], h.released hflag rfl rfl (by simp) hrest
      ⟨hflag, rfl, acc, ⟨rfl, hstored.terminate hacc, hlen⟩, hne⟩ (hpieces _ hpc) rfl rfl⟩
  | checking =>
    rw [hpc] at hat
    obtain ⟨hflag, rfl, p, hp, hne⟩ := hat
    have htext : (CString.text s.mInputBuffer maxInput).length ≠ 0 := by
      rw [hp.holds.text_eq hp.length_lt]
      exact fun hzero => hne (List.length_eq_zero_iff.mp hzero)
    have hstep : s.threadStep = ({ s with thread := .setting }, []) := by
      simp only [InputLineImpl.threadStep, hpc, if_pos htext]
    rw [hstep]
    exact ⟨[], waiting, h.released hflag rfl rfl (by simp) hnul ⟨hflag, rfl, p, hp⟩
      (hpieces _ hpc) rfl (by simp [piecesRead])⟩
  | setting => exact h.threadStep_setting hpc

/-- A step of the consumer that does not clear the flag. -/
theorem moved {result : ℕ → UInt8} {mutex : Bool} {taken'}
    (hat : ConsumerAt result waiting taken' s.mHaveNewData pc')
    (htaken : taken = stringsReturned es' ++ taken') (hpiece : piecesRead es' = [])
    (hx : Exclusion (es ++ es') s.mHaveNewData pc') :
    Handoff stdin (es ++ es') { s with mResultBuffer := result, mMutex := mutex, consumer := pc' }
      acc waiting taken' where
  nul_notMem := h.nul_notMem
  threadAt := h.threadAt
  consumerAt := hat
  pieces_eq := by rw [h.pieces_eq, piecesRead_append, hpiece, List.append_nil]
  returned_eq := by
    rw [piecesRead_append, hpiece, List.append_nil, ← h.returned_eq, htaken]
    simp
  exclusion := hx

/-- The buffers while the consumer owns them. -/
theorem owned (hflag : s.mHaveNewData = true) {p : List UInt8} (hp : waiting = [p]) :
    s.thread = .testing ∧ acc = [] ∧ CString.Holds s.mInputBuffer p ∧ p.length < maxInput := by
  have hat := h.threadAt
  rw [hflag] at hat
  obtain ⟨hpc, hacc, q, hq⟩ := hat.testing_of_flag
  obtain rfl : p = q := by simpa [hp] using hq.waiting_eq
  exact ⟨hpc, hacc, hq.holds, hq.length_lt⟩

/-- A step of the consumer keeps the invariant. -/
theorem consumerStep : ∃ waiting' taken', Handoff stdin (es ++ s.consumerStep.2) s.consumerStep.1
    acc waiting' taken' := by
  have hc := h.consumerAt
  have hx := h.exclusion
  cases hpc : s.consumer with
  | idle =>
    rw [hpc] at hc hx
    by_cases hflag : s.mHaveNewData = true
    · have hstep : s.consumerStep = ({ s with consumer := .locking }, []) := by
        simp only [InputLineImpl.consumerStep, hpc, hflag, if_true]
      rw [hstep]
      exact ⟨waiting, taken, h.moved ⟨hflag, hc⟩ rfl rfl
        (hx.append (by simp) (by simp) (by simp [hflag]))⟩
    · have hs : s = { s with consumer := .idle } := by rw [← hpc]
      have hstep : s.consumerStep = ({ s with consumer := .idle }, [.returned none]) := by
        rw [← hs]
        simp [InputLineImpl.consumerStep, hpc, hflag]
      rw [hstep]
      exact ⟨waiting, taken, h.moved hc rfl rfl
        (hx.append (by simp) (by simp [InputEvent.IsWrote]) (by simp [hflag]))⟩
  | locking =>
    rw [hpc] at hc hx
    obtain ⟨hflag, rfl⟩ := hc
    by_cases hmutex : s.mMutex = true
    · have hstep : s.consumerStep = (s, []) := by
        simp only [InputLineImpl.consumerStep, hpc, hmutex, if_true]
      rw [hstep, List.append_nil]
      exact ⟨waiting, [], h⟩
    · have hstep : s.consumerStep = ({ s with mMutex := true, consumer := .copying 0 }, []) := by
        simp [InputLineImpl.consumerStep, hpc, hmutex]
      have hat := h.threadAt
      rw [hflag] at hat
      obtain ⟨-, -, p, hp⟩ := hat.testing_of_flag
      rw [hstep]
      refine ⟨waiting, [], h.moved ⟨hflag, rfl, p, hp.waiting_eq, Nat.zero_le _, .nil⟩ rfl rfl
        (hx.append (by simp) (by simp) (by simp [hflag]))⟩
  | copying i =>
    rw [hpc] at hc hx
    obtain ⟨hflag, rfl, p, rfl, hi, hstored⟩ := hc
    obtain ⟨-, -, hp, -⟩ := h.owned hflag rfl
    rcases Nat.lt_or_eq_of_le hi with hlt | rfl
    · have hstep : s.consumerStep =
          ({ s with
              mResultBuffer := Function.update s.mResultBuffer i (s.mInputBuffer i)
              consumer := .copying (i + 1) }, []) := by
        simp [InputLineImpl.consumerStep, hpc, hp.ne_zero hlt]
      rw [hstep]
      exact ⟨[p], [], h.moved ⟨hflag, rfl, p, rfl, hlt, hp.copy_char hstored hlt⟩ rfl rfl
        (hx.append (by simp) (by simp) (by simp [hflag]))⟩
    · have hstep : s.consumerStep =
          ({ s with
              mResultBuffer := Function.update s.mResultBuffer p.length (s.mInputBuffer p.length)
              consumer := .stripping }, [.copied]) := by
        simp [InputLineImpl.consumerStep, hpc, hp.ends]
      rw [List.take_length] at hstored
      rw [hstep]
      exact ⟨[p], [], h.moved ⟨hflag, rfl, p, rfl, hp.copy_end hstored⟩ rfl rfl
        (hx.append (by simp) (by simp [InputEvent.IsWrote]) (by simp))⟩
  | stripping =>
    rw [hpc] at hc hx
    obtain ⟨hflag, rfl, p, rfl, hp⟩ := hc
    obtain ⟨-, -, -, hlen⟩ := h.owned hflag rfl
    have hstep : s.consumerStep =
        ({ s with
            mResultBuffer := InputLineImpl.stripNewline s.mResultBuffer
            consumer := .releasing }, []) := by
      simp only [InputLineImpl.consumerStep, hpc]
    rw [hstep]
    exact ⟨[p], [], h.moved ⟨hflag, rfl, p, rfl, holds_stripNewline hp hlen⟩ rfl rfl
      (hx.append (by simp) (by simp) (by simp))⟩
  | releasing =>
    rw [hpc] at hc hx
    obtain ⟨hflag, rfl, p, rfl, hp⟩ := hc
    obtain ⟨hthread, rfl, -, hlen⟩ := h.owned hflag rfl
    have hstep : s.consumerStep =
        ({ s with mHaveNewData := false, consumer := .unlocking }, []) := by
      simp only [InputLineImpl.consumerStep, hpc]
    rw [hstep]
    refine ⟨[], [chomp p], ?_⟩
    exact {
      nul_notMem := h.nul_notMem
      threadAt := by
        rw [hthread]
        exact ⟨rfl, .inl ⟨rfl, rfl⟩⟩
      consumerAt := ⟨chomp p, rfl, hp, (length_chomp_le p).trans_lt hlen⟩
      pieces_eq := by simpa using h.pieces_eq
      returned_eq := by simpa using h.returned_eq
      exclusion := hx.append (by simp) (by simp) (by simp) }
  | unlocking =>
    rw [hpc] at hc hx
    have hstep : s.consumerStep = ({ s with mMutex := false, consumer := .returning }, []) := by
      simp only [InputLineImpl.consumerStep, hpc]
    rw [hstep]
    exact ⟨waiting, taken, h.moved hc rfl rfl (hx.append (by simp) (by simp) (by simp +contextual))⟩
  | returning =>
    rw [hpc] at hc hx
    obtain ⟨p, hp⟩ := hc
    have hstep : s.consumerStep = ({ s with consumer := .idle }, [.returned (some p)]) := by
      simp only [InputLineImpl.consumerStep, hpc, hp.holds.text_eq hp.length_lt]
    rw [hstep]
    exact ⟨waiting, [], h.moved rfl hp.waiting_eq rfl
      (hx.append (by simp) (by simp [InputEvent.IsWrote]) (by simp +contextual))⟩

omit h in
/-- The invariant holds in every run. -/
theorem run {inputBuffer resultBuffer : ℕ → UInt8} {tr : List (InputLineImpl.Turn × _)}
    (hnul : 0 ∉ stdin) (hrun : InputLineImpl.machine.Run Machine.anyStep
      (.create inputBuffer resultBuffer stdin) tr s) :
    ∃ acc waiting taken, Handoff stdin (Machine.events tr) s acc waiting taken := by
  refine hrun.invariant_events
    (P := fun (es : List InputEvent) (s : InputLineImpl) =>
      ∃ acc waiting taken, Handoff stdin es s acc waiting taken)
    ⟨[], [], [], .create inputBuffer resultBuffer hnul⟩ ?_
  rintro es s turn es' t ⟨acc, waiting, taken, h⟩ hstep -
  cases turn with
  | thread =>
    have heq : s.threadStep = (t, es') := Option.some.inj hstep
    obtain ⟨acc', waiting', h'⟩ := h.threadStep
    rw [heq] at h'
    exact ⟨acc', waiting', taken, h'⟩
  | consumer =>
    have heq : s.consumerStep = (t, es') := Option.some.inj hstep
    obtain ⟨waiting', taken', h'⟩ := h.consumerStep
    rw [heq] at h'
    exact ⟨acc, waiting', taken', h'⟩

end Handoff

/-- The strings that `getInputLine` returns are the pieces that `fgets` has read, in order and each
once, without their final newlines, and the pieces are those of the input. Between the store that
sets the flag and the end of the copy, nothing is stored to `mInputBuffer`. -/
theorem InputLineImpl.line_handoff {inputBuffer resultBuffer : ℕ → UInt8}
    {tr : List (Turn × List InputEvent)} (hnul : 0 ∉ stdin)
    (hrun : machine.Run Machine.anyStep (.create inputBuffer resultBuffer stdin) tr s) :
    stringsReturned (Machine.events tr) <+: (piecesRead (Machine.events tr)).map chomp ∧
      piecesRead (Machine.events tr) <+: pieces stdin ∧
      Machine.Excludes (· = .flagSet) (· = .copied) InputEvent.IsWrote (Machine.events tr) := by
  obtain ⟨acc, waiting, taken, h⟩ := Handoff.run hnul hrun
  refine ⟨⟨taken ++ waiting.map chomp, ?_⟩, ⟨_, h.pieces_eq.symm⟩, h.exclusion.excludes⟩
  rw [← List.append_assoc, h.returned_eq]

/-- The consumer returns the first of two lines while the thread reads the second. -/
theorem InputLineImpl.line_handoff_two :
    ∃ tr s,
      machine.Run Machine.anyStep (.create (fun _ => 7) (fun _ => 7) [104, 105, 10, 111]) tr s ∧
      stringsReturned (Machine.events tr) = [[104, 105]] ∧
      piecesRead (Machine.events tr) = [[104, 105, 10], [111]] ∧
      Machine.Excludes (· = .flagSet) (· = .copied) InputEvent.IsWrote (Machine.events tr) := by
  obtain ⟨tr, s, hrun, hP⟩ := Machine.exists_run_of_exec (G := Machine.anyStep) (M := machine)
    (s := .create (fun _ => 7) (fun _ => 7) [104, 105, 10, 111])
    (l := List.replicate 8 .thread ++ List.replicate 9 .consumer ++ List.replicate 6 .thread ++
      [.consumer])
    (P := fun r => decide (stringsReturned (Machine.events r.2) = [[104, 105]] ∧
      piecesRead (Machine.events r.2) = [[104, 105, 10], [111]]))
    (by decide +kernel)
  obtain ⟨hstrings, hpieces⟩ := of_decide_eq_true hP
  exact ⟨tr, s, hrun, hstrings, hpieces, (line_handoff (by decide) hrun).2.2⟩

end WsClient
