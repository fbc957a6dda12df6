import WsClient.Library.Transition
import WsClient.SimpleBuffer

/-!
# The buffer as a queue of bytes

Sequences of calls on a `SimpleBuffer`, and the queue of bytes that they describe. The receive loop
of `poll` appends in two steps: it reserves room, lets the socket write into it, and advances over
what was written.

The size of a larger block is a 32-bit sum of the doubled old size and the request, and it is
compared with the limit after it was computed. `buffer_arithmetic` says for which requests the sum
does damage: those for which it wraps around to less than the old size.

## Main definitions

* `BufferCall`, `BufferEvent`, `bufferMachine`: sequences of calls.
* `queueOf`: the queue that the events of a sequence describe.
* `SimpleBuffer.Sound`: what a request must keep.

## Main results

* `buffer_fifo`: the buffer shows the queue.
* `buffer_arithmetic`: the requests that are sound.
-/

namespace WsClient

/-- The calls on a buffer. -/
inductive BufferCall
  | addBuffer (data : Bytes)
  /-- `confirmCapacity` and, if it does not return a null pointer, writing data through the pointer
  and `addBuffer` with a null pointer and the length of the data. -/
  | receive (capacity : ℕ) (data : Bytes)
  | consume (removeLen : ℕ)
  | clear
  deriving DecidableEq

/-- What the calls return. -/
inductive BufferEvent
  /-- The result of `addBuffer` with data. -/
  | added (data : Bytes) (ok : Bool)
  /-- Whether `confirmCapacity` returned a pointer that is not null. -/
  | reserved (capacity : ℕ) (ok : Bool)
  /-- The result of `addBuffer` without data, for data that was written before. -/
  | advanced (data : Bytes) (ok : Bool)
  | consumed (removeLen : ℕ)
  | cleared
  deriving DecidableEq

namespace SimpleBuffer

/-- One call on a buffer. -/
def call (b : SimpleBuffer) : BufferCall → Option (SimpleBuffer × List BufferEvent)
  | .addBuffer data =>
    some ((b.addBuffer (some data) data.length).1,
      [.added data (b.addBuffer (some data) data.length).2])
  | .receive capacity data =>
    let c := b.confirmCapacity capacity
    if data.length ≤ capacity then
      if c.2 then
        some (((c.1.writeAtEnd data).addBuffer none data.length).1,
          [.reserved capacity true,
            .advanced data ((c.1.writeAtEnd data).addBuffer none data.length).2])
      else some (c.1, [.reserved capacity false])
    else none
  | .consume removeLen => some (b.consume removeLen, [.consumed removeLen])
  | .clear => some (b.clear, [.cleared])

end SimpleBuffer

/-- The machine whose runs are the sequences of calls. -/
def bufferMachine : Machine SimpleBuffer BufferCall BufferEvent := ⟨SimpleBuffer.call⟩

/-- What a call does to the queue: accepted bytes are appended, consumed bytes leave at the
front. -/
def BufferEvent.apply (q : Bytes) : BufferEvent → Bytes
  | .added data true | .advanced data true => q ++ data
  | .consumed removeLen => q.drop removeLen
  | .cleared => []
  | _ => q

/-- The queue after a sequence of calls. -/
def queueOf (es : List BufferEvent) : Bytes := es.foldl BufferEvent.apply []

/-- The bounds on the arguments of the calls of the source. -/
def BufferCall.Bounded (b : SimpleBuffer) (c : BufferCall) (_ : List BufferEvent) : Prop :=
  match c with
  | .addBuffer data => data.length ≤ 2 ^ 29
  | .receive capacity _ => capacity ≤ 2 ^ 29
  | .consume removeLen => removeLen ≤ b.getSize
  | .clear => True

/-- A request is any 32-bit number for which the size of a larger block does not wrap around. -/
def BufferCall.NoWrap (b : SimpleBuffer) (c : BufferCall) (_ : List BufferEvent) : Prop :=
  match c with
  | .addBuffer data => data.length < 2 ^ 32 ∧ b.NoWrap data.length
  | .receive capacity _ => capacity < 2 ^ 32 ∧ b.NoWrap capacity
  | _ => True

instance (b : SimpleBuffer) (c : BufferCall) (es : List BufferEvent) :
    Decidable (c.Bounded b es) := by
  cases c <;> unfold BufferCall.Bounded <;> infer_instance

instance (b : SimpleBuffer) (c : BufferCall) (es : List BufferEvent) :
    Decidable (c.NoWrap b es) := by
  cases c <;> unfold BufferCall.NoWrap <;> infer_instance

variable {b b' : SimpleBuffer} {c : BufferCall} {es es' : List BufferEvent}

theorem BufferCall.Bounded.noWrap (hb : b.WF) (h : c.Bounded b es) : c.NoWrap b es := by
  cases c with
  | addBuffer data => exact ⟨lt_of_le_of_lt h (by decide), hb.noWrap h⟩
  | receive capacity data => exact ⟨lt_of_le_of_lt h (by decide), hb.noWrap h⟩
  | consume => trivial
  | clear => trivial

/-- The state of a buffer against the queue. -/
structure BufferInv (es : List BufferEvent) (b : SimpleBuffer) : Prop where
  wf : b.WF
  queue : b.getData = queueOf es
  advanced : ∀ data ok, .advanced data ok ∈ es → ok = true

theorem BufferInv.of_create (heap : ℕ → Block UInt8) {defaultLen maxGrowSize : ℕ}
    (h : defaultLen ≤ 2 ^ 29) (h' : maxGrowSize ≤ 2 ^ 29) :
    BufferInv [] (.create heap defaultLen maxGrowSize) :=
  ⟨SimpleBuffer.create_wf_of_le heap h h', SimpleBuffer.getData_create heap _ _, by simp⟩

/-- One call keeps the buffer and the queue together. -/
theorem BufferInv.step (h : BufferInv es b) (hcall : b.call c = some (b', es'))
    (hguard : c.NoWrap b es') : BufferInv (es ++ es') b' := by
  obtain ⟨hwf, hqueue, hadv⟩ := h
  -- the queue after the events of the call, from the content before it
  have hsplit : queueOf (es ++ es') = es'.foldl BufferEvent.apply b.getData := by
    rw [hqueue, queueOf, List.foldl_append]
    rfl
  have hback (hes' : ∀ data ok, .advanced data ok ∈ es' → ok = true) :
      ∀ data ok, .advanced data ok ∈ es ++ es' → ok = true := fun data ok hmem =>
    (List.mem_append.mp hmem).elim (hadv data ok) (hes' data ok)
  cases c with
  | addBuffer data =>
    obtain ⟨rfl, rfl⟩ : _ ∧ _ := by simpa [SimpleBuffer.call] using hcall
    obtain ⟨hwf', -, -, -, hdata, -⟩ := SimpleBuffer.addBuffer_of_noWrap hwf hguard.1 hguard.2 rfl
    refine ⟨hwf', ?_, hback (by simp)⟩
    rw [hsplit, hdata]
    cases (b.addBuffer (some data) data.length).2 <;> simp [BufferEvent.apply]
  | receive capacity data =>
    obtain ⟨hwf', hdata, -, -, -, hroom⟩ :=
      SimpleBuffer.confirmCapacity_of_noWrap hwf hguard.1 hguard.2
    simp only [SimpleBuffer.call] at hcall
    split_ifs at hcall with hlen hok
    · obtain ⟨rfl, rfl⟩ : _ ∧ _ := by simpa using hcall
      obtain ⟨hok', hwf'', -, hdata'⟩ :=
        SimpleBuffer.receiveInto_spec hwf' (hlen.trans (hroom hok))
      refine ⟨hwf'', ?_, hback (by simp [hok'])⟩
      rw [hsplit, hdata', hok', hdata]
      rfl
    · obtain ⟨rfl, rfl⟩ : _ ∧ _ := by simpa using hcall
      refine ⟨hwf', ?_, hback (by simp)⟩
      rw [hsplit, hdata]
      rfl
  | consume removeLen =>
    obtain ⟨rfl, rfl⟩ : _ ∧ _ := by simpa [SimpleBuffer.call] using hcall
    obtain ⟨hwf', -, hdata⟩ := SimpleBuffer.consume_spec hwf removeLen
    refine ⟨hwf', ?_, hback (by simp)⟩
    rw [hsplit, hdata]
    rfl
  | clear =>
    obtain ⟨rfl, rfl⟩ : _ ∧ _ := by simpa [SimpleBuffer.call] using hcall
    refine ⟨hwf.clear, ?_, hback (by simp)⟩
    rw [hsplit, SimpleBuffer.getData_clear]
    rfl

/-- Sequences of calls without a request that wraps around. -/
theorem BufferInv.run {G : SimpleBuffer → BufferCall → List BufferEvent → Prop}
    (hG : ∀ b c es, b.WF → G b c es → c.NoWrap b es) {tr : List (BufferCall × List BufferEvent)}
    (hb : BufferInv [] b) (h : bufferMachine.Run G b tr b') : BufferInv (Machine.events tr) b' :=
  h.invariant_events (P := BufferInv) hb fun _ _ _ _ _ ih hstep hguard =>
    ih.step hstep (hG _ _ _ ih.wf hguard)

/-- The buffer is a queue of bytes. After any sequence of calls `getData` and `getSize` show the
bytes that were appended and not consumed, in order; a refused request leaves the queue as it is;
advancing over reserved and written bytes is never refused; and the cursors are ordered. -/
theorem buffer_fifo (heap : ℕ → Block UInt8) {defaultLen maxGrowSize : ℕ}
    (hdefault : defaultLen ≤ 2 ^ 29) (hmax : maxGrowSize ≤ 2 ^ 29)
    {tr : List (BufferCall × List BufferEvent)}
    (h : bufferMachine.Run (fun b c es => c.Bounded b es)
      (.create heap defaultLen maxGrowSize) tr b) :
    b.getData = queueOf (Machine.events tr) ∧
      b.getSize = (queueOf (Machine.events tr)).length ∧
      (∀ data ok, .advanced data ok ∈ Machine.events tr → ok = true) ∧
      b.mStartLoc ≤ b.mEndLoc ∧ b.mEndLoc ≤ b.mMaxLen ∧ b.mMaxLen ≤ b.mMaxGrowSize := by
  have hinv := BufferInv.run (fun _ _ _ hwf => BufferCall.Bounded.noWrap hwf)
    (.of_create heap hdefault hmax) h
  obtain ⟨hse, hem, hmg, -, -⟩ := hinv.wf
  exact ⟨hinv.queue, by rw [← hinv.queue, SimpleBuffer.length_getData], hinv.advanced, hse, hem,
    hmg⟩

/-- A small buffer that moves its content, reallocates and refuses. -/
theorem buffer_fifo_small :
    ∃ tr b, bufferMachine.Run (fun b c es => c.Bounded b es)
      (.create (fun _ => ⟨0, 0, fun _ => 0⟩) 4 8) tr b ∧
      b.getData = queueOf (Machine.events tr) ∧ queueOf (Machine.events tr) = [3, 4, 5, 6, 7] := by
  obtain ⟨tr, b, hrun, hq⟩ := Machine.exists_run_of_exec (M := bufferMachine)
    (G := fun b c es => c.Bounded b es) (s := .create (fun _ => ⟨0, 0, fun _ => 0⟩) 4 8)
    (l := [.addBuffer [1, 2, 3, 4], .consume 2, .receive 1 [5], .receive 3 [6, 7],
      .addBuffer [8, 9, 10, 11]])
    (P := fun r => queueOf (Machine.events r.2) == [3, 4, 5, 6, 7]) (by decide +kernel)
  exact ⟨tr, b, hrun, (buffer_fifo _ (by decide) (by decide) hrun).1, beq_iff_eq.mp hq⟩

/-! ### Requests of any size -/

namespace SimpleBuffer

/-- What a request must keep, accepted or refused: the block does not shrink and holds the bytes up
to the end location, the cursors are ordered, a request that does not fit is refused, and
a refusal leaves the content alone. -/
structure Sound (b b' : SimpleBuffer) (n : ℕ) (ok : Bool) : Prop where
  max_le : b.mMaxLen ≤ b'.mMaxLen
  size_le : b'.mEndLoc ≤ b'.mBuffer.size
  start_le : b'.mStartLoc ≤ b'.mEndLoc
  end_le : b'.mEndLoc ≤ b'.mMaxLen
  grow_le : b'.mMaxLen ≤ b'.mMaxGrowSize
  refused : b.mMaxGrowSize < b.getSize + n → ok = false
  content : ok = false → b'.getData = b.getData

private theorem Sound.of_noWrap {n : ℕ} {ok : Bool} (h : b.WF) (h' : b'.WF)
    (hle : b.mMaxLen ≤ b'.mMaxLen)
    (hok : ok = decide (b.Accepts n)) (hcontent : ok = false → b'.getData = b.getData) :
    Sound b b' n ok where
  max_le := hle
  size_le := h'.end_le.trans h'.size_le
  start_le := h'.start_le
  end_le := h'.end_le
  grow_le := h'.max_le
  refused hlt := by
    rw [hok, decide_eq_false_iff_not]
    intro ha
    have := h.le_of_accepts ha
    omega
  content := hcontent

/-- The block shrinks if the sum wraps around to less than the old size. -/
theorem mMaxLen_ensure_lt (h : b.WF) {n : ℕ} (hw : ¬b.NoWrap n) :
    (b.ensure n).mMaxLen < b.mMaxLen := by
  have havailable := h.available_eq
  obtain ⟨hse, hem, hmg, hg, -⟩ := h
  obtain ⟨hlo, hhi⟩ : 4294967296 ≤ b.mMaxLen * 2 + n ∧ b.mMaxLen + n < 4294967296 := by
    unfold NoWrap at hw
    omega
  have hdouble : mul32 b.mMaxLen 2 = b.mMaxLen * 2 := mul32_of_lt (by omega)
  have havail : sub32 (b.mMaxLen * 2) b.mEndLoc = b.mMaxLen * 2 - b.mEndLoc :=
    sub32_of_le (by omega) (by omega)
  have hadd : add32 (b.mMaxLen * 2) n = b.mMaxLen * 2 + n - 4294967296 :=
    add32_of_ge hlo (by omega)
  have hgrow : (b.growBuffer n).1.mMaxLen = b.mMaxLen * 2 + n - 4294967296 := by
    simp only [growBuffer, if_neg (show ¬n < b.mStartLoc by omega), hdouble, havail, hadd,
      if_pos (show b.mMaxLen * 2 - b.mEndLoc < n by omega),
      if_neg (show ¬b.mMaxLen * 2 + n - 4294967296 > b.mMaxGrowSize by omega)]
  rw [ensure, havailable, if_pos (by omega), hgrow]
  omega

theorem mMaxLen_addBuffer (b : SimpleBuffer) (data : Option Bytes) (n : ℕ) :
    (b.addBuffer data n).1.mMaxLen = (b.ensure n).mMaxLen := by
  unfold addBuffer
  simp only
  split <;> rfl

end SimpleBuffer

/-- In every sequence of calls in which no request wraps around, the next 32-bit request is sound
if and only if it does not wrap around either: the doubled size of the block and the request add
up to less than `2 ^ 32`, or the size itself and the request to at least as much. -/
theorem buffer_arithmetic (heap : ℕ → Block UInt8) {defaultLen maxGrowSize : ℕ}
    (hdefault : defaultLen ≤ 2 ^ 29) (hmax : maxGrowSize ≤ 2 ^ 29)
    {tr : List (BufferCall × List BufferEvent)}
    (h : bufferMachine.Run (fun b c es => c.NoWrap b es)
      (.create heap defaultLen maxGrowSize) tr b) (data : Bytes) (hn : data.length < 2 ^ 32) :
    (b.Sound (b.addBuffer (some data) data.length).1 data.length
        (b.addBuffer (some data) data.length).2 ∧
      b.Sound (b.confirmCapacity data.length).1 data.length
        (b.confirmCapacity data.length).2) ↔ b.NoWrap data.length := by
  have hwf := (BufferInv.run (fun _ _ _ _ => id) (.of_create heap hdefault hmax) h).wf
  constructor
  · rintro ⟨hsound, -⟩
    by_contra hw
    have hle := hsound.max_le
    rw [SimpleBuffer.mMaxLen_addBuffer] at hle
    exact absurd (SimpleBuffer.mMaxLen_ensure_lt hwf hw) (by omega)
  · intro hw
    obtain ⟨hwf₁, -, hle₁, hok₁, hdata₁, -⟩ :=
      SimpleBuffer.addBuffer_of_noWrap hwf hn hw (d := data) rfl
    obtain ⟨hwf₂, hdata₂, -, hle₂, hok₂, -⟩ := SimpleBuffer.confirmCapacity_of_noWrap hwf hn hw
    exact ⟨.of_noWrap hwf hwf₁ hle₁ hok₁ fun hno => by simpa [hno] using hdata₁,
      .of_noWrap hwf hwf₂ hle₂ hok₂ fun _ => hdata₂⟩

/-- A buffer that holds two bytes and is asked for more than it can have. -/
theorem buffer_arithmetic_small :
    ∃ tr b, bufferMachine.Run (fun b c es => c.NoWrap b es)
      (.create (fun _ => ⟨0, 0, fun _ => 0⟩) 4 8) tr b ∧ b.getData = [1, 2] ∧
      ((b.Sound (b.addBuffer (some [3, 4, 5]) 3).1 3 (b.addBuffer (some [3, 4, 5]) 3).2 ∧
        b.Sound (b.confirmCapacity 3).1 3 (b.confirmCapacity 3).2) ↔ b.NoWrap 3) := by
  obtain ⟨tr, b, hrun, hdata⟩ := Machine.exists_run_of_exec (M := bufferMachine)
    (G := fun b c es => c.NoWrap b es) (s := .create (fun _ => ⟨0, 0, fun _ => 0⟩) 4 8)
    (l := [.addBuffer [1, 2]]) (P := fun r => r.1.getData == [1, 2]) (by decide +kernel)
  exact ⟨tr, b, hrun, beq_iff_eq.mp hdata,
    buffer_arithmetic _ (by decide) (by decide) hrun [3, 4, 5] (by simp)⟩

/-- A new buffer of the default size accepts a request of `2 ^ 32 - 32768` bytes by shrinking to
a block of no bytes at all. -/
theorem buffer_shrinks :
    ¬∀ (heap : ℕ → Block UInt8) (defaultLen maxGrowSize : ℕ) (data : Bytes),
      defaultLen ≤ 2 ^ 29 → maxGrowSize ≤ 2 ^ 29 → data.length < 2 ^ 32 →
        ∀ b, b = SimpleBuffer.create heap defaultLen maxGrowSize →
          b.Sound (b.addBuffer (some data) data.length).1 data.length
            (b.addBuffer (some data) data.length).2 := by
  intro h
  have hlen : (List.replicate 4294934528 (0 : UInt8)).length = 4294934528 := List.length_replicate
  have hsound := h (fun _ => ⟨0, 0, fun _ => 0⟩) 16384 536870912
    (List.replicate 4294934528 0) (by decide) (by decide) (by rw [hlen]; decide) _ rfl
  have hwf := SimpleBuffer.create_wf (fun _ => ⟨0, 0, fun _ => 0⟩)
    (show 16384 ≤ 536870912 by decide) (by decide)
  have hle := hsound.max_le
  rw [SimpleBuffer.mMaxLen_addBuffer, hlen] at hle
  refine absurd (SimpleBuffer.mMaxLen_ensure_lt hwf (n := 4294934528) ?_) (by omega)
  rintro (hw | hw) <;> revert hw <;> decide

end WsClient
