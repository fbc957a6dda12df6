import WsClient.FirstFrame

/-!
# The connection state machine

How the ready state moves over a run, what the transmit buffer accepts when the connection closes,
and when everything that it accepted gets to the socket.

`sendData` ignores whether the transmit buffer accepted the payload, and masks the last bytes of the
buffer in any case. A refused payload therefore alters frames that were queued before it, and
`PayloadsKept` is what has to hold of the buffer before a step so that it does not.

## Main results

* `Session.state_machine`: the ready state moves forward, at most one close frame is queued and
  nothing after it, and a clean close flushes the transmit buffer.
* `Session.refused_payload_alters_queue`: a run with a refused payload that does not.
-/

namespace WsClient

/-- A receive or a send failed or had the length zero. -/
def Event.isFailure : Event → Bool
  | .receiveFailed _ | .transmit _ .zero | .transmit _ .error => true
  | _ => false

namespace Session

variable {s t : Session} {i : Input} {es : List Event}

/-! ### The connection state machine -/

/-- The frame loop does not close the socket. -/
private theorem dispatchIteration_closing {w : WebSocketImpl} (h : w.mReadyState = .closing)
    (key : MaskingKey) : (w.dispatchIteration key).1.mReadyState = .closing := by
  obtain ⟨reads, -, ⟨es, -, heq, -⟩ | ⟨ws, -, -, -, heq⟩⟩ :=
    WebSocketImpl.dispatchIteration_cases w key
  · rw [heq]
    exact h
  · rw [heq]
    cases hop : ws.opcode.isStop with
    | true =>
      rw [WebSocketImpl.dispatchFrame_of_isStop hop]
      simp [WebSocketImpl.close, h]
    | false => exact (WebSocketImpl.dispatchFrame_mReadyState hop key).trans h

/-- A connection that is closing becomes `CLOSED` by a failure or when everything was sent. -/
theorem step_closed (hc : s.Consistent) (h : s.step i = some (t, es))
    (hs : s.impl.mReadyState = .closing) (ht : t.impl.mReadyState = .closed)
    (hok : ∀ e ∈ es, e.isFailure = false) : t.impl.mTransmitBuffer.getData = [] := by
  have hopen : s.impl.mReadyState ≠ .closed := by simp [hs]
  have hclose : s.impl.close.1 = s.impl := by simp [WebSocketImpl.close, hs]
  cases step_cases h with
  | call _ hcall =>
    obtain ⟨type, data, key, -, rfl⟩ | ⟨-, rfl⟩ := WebSocketImpl.call_cases hcall
    · obtain ⟨b, hb⟩ := WebSocketImpl.exists_sendData_eq s.impl type data (data.getD []).length key
      rw [hb] at ht
      exact (hopen ht).elim
    · rw [hclose] at ht
      exact (hopen ht).elim
  | poll => exact (hopen ht).elim
  | destroy =>
    rw [hclose] at ht
    exact (hopen ht).elim
  | connect expired v hstack =>
    have := hc.connecting _ hstack
    rw [hs] at this
    cases this
  | @receive callback rest r hstack hr =>
    revert hok
    unfold WebSocketImpl.receiveIteration at ht ⊢
    simp only at ht ⊢
    split_ifs at ht ⊢
    · cases r with
      | data => exact (hopen ht).elim
      | wouldBlock => exact (hopen ht).elim
      | endOfStream => simp [Event.isFailure]
      | error => simp [Event.isFailure]
    · exact (hopen ht).elim
  | @transmit callback rest r hstack hr =>
    revert hok
    unfold WebSocketImpl.transmitIteration at ht ⊢
    split_ifs at ht ⊢ with hsize
    · have hempty := SimpleBuffer.getSize_eq_zero_iff.mp hsize
      unfold WebSocketImpl.leaveTransmit
      split_ifs <;> exact fun _ => hempty
    · cases r with
      | accepted => exact (hopen ht).elim
      | wouldBlock => simp [WebSocketImpl.leaveTransmit, hsize, hs] at ht
      | zero => simp [Event.isFailure]
      | error => simp [Event.isFailure]
  | dispatch key hstack =>
    have := dispatchIteration_closing hs key
    simp only at ht
    rw [ht] at this
    cases this
  | @ret frameSize clear rest hstack => cases clear <;> exact (hopen ht).elim
  | destroyLoop => exact (hopen ht).elim

/-- A list in which nothing is queued behind a close frame has at most one. -/
theorem countP_isCloseFrame_le {es : List Event} (h : es.Pairwise NothingAfterClose) :
    es.countP Event.isCloseFrame ≤ 1 := by
  induction h with
  | nil => simp
  | @cons e es he _ ih =>
    by_cases hc : e.isCloseFrame = true
    · have hzero : es.countP Event.isCloseFrame = 0 := List.countP_eq_zero.mpr fun e' he' hc' => by
        simpa [he e' he' hc] using Event.isQueued_of_isCloseFrame hc'
      rw [List.countP_cons_of_pos hc, hzero]
    · rwa [List.countP_cons_of_neg hc]

/-- What the events of a run say of the ready state, whatever the transmit buffer refuses. -/
structure Advanced (es : List Event) (s : Session) : Prop where
  consistent : s.Consistent
  wf : s.impl.mTransmitBuffer.WF
  closing : ∀ e ∈ es, e.isCloseFrame = true → 2 ≤ s.impl.mReadyState.rank
  order : es.Pairwise NothingAfterClose

theorem step_advanced {es' : List Event} (hs : Advanced es s) (h : s.step i = some (t, es'))
    (hguard : Bounded s i es') : Advanced (es ++ es') t := by
  obtain ⟨htr, -, hadv⟩ := step_sends hs.wf hs.consistent h hguard.1 (hguard.frontFits h)
  refine ⟨step_consistent hs.consistent h, htr.wf, fun e he hc => ?_, ?_⟩
  · exact (List.mem_append.mp he).elim (fun he => (hs.closing e he hc).trans hadv.rank_le)
      fun he => hadv.closing e he hc
  · exact List.pairwise_append.mpr ⟨hs.order, hadv.order, fun e he e' he' hc =>
      hadv.silent (hs.closing e he hc) e' he'⟩

theorem run_advanced {tr : List (Input × List Event)} (hs : Constructed s)
    (h : sessionMachine.Run Bounded s tr t) : Advanced (Machine.events tr) t :=
  h.invariant_events (P := Advanced) ⟨hs.sender.consistent, hs.sender.wf, by simp, .nil⟩
    fun _ _ _ _ _ ih hstep hguard => step_advanced ih hstep hguard

/-- The bounds on payloads and frames, and the payload that the step queues is accepted if it is to
be masked. -/
def BoundedKept (s : Session) (i : Input) (es : List Event) : Prop :=
  Bounded s i es ∧ PayloadsKept s i es

instance (s : Session) (i : Input) (es : List Event) : Decidable (BoundedKept s i es) :=
  inferInstanceAs (Decidable ((_ ∧ _) ∧ _))

theorem step_sender_kept {es' : List Event} (hs : Sender es s) (h : s.step i = some (t, es'))
    (hguard : BoundedKept s i es') : Sender (es ++ es') t :=
  step_sender hs h ⟨hguard.1, (step_extends hs.wf hs.consistent h hguard.2).masked⟩

theorem run_sender_kept {tr : List (Input × List Event)} (hs : Constructed s)
    (h : sessionMachine.Run BoundedKept s tr t) : Sender (Machine.events tr) t :=
  h.invariant_events (P := Sender) hs.sender fun _ _ _ _ _ ih hstep hguard =>
    step_sender_kept ih hstep hguard

/-- The connection state machine. From every state reached, the ready state moves forward only; at
most one close frame is queued and nothing after it. If the transmit buffer accepted every payload
that was to be masked: when a connection that is closing becomes `CLOSED` without a failure, the
socket has accepted every byte that the transmit buffer accepted, in order. -/
theorem state_machine {tr : List (Input × List Event)} (hs : Constructed s)
    (h : sessionMachine.Run Bounded s tr t) :
    (∀ tr' u, sessionMachine.Run Machine.anyStep t tr' u →
        t.impl.mReadyState.rank ≤ u.impl.mReadyState.rank) ∧
      ((Machine.events tr).Pairwise NothingAfterClose ∧
        (Machine.events tr).countP Event.isCloseFrame ≤ 1) ∧
      (sessionMachine.Run BoundedKept s tr t → ∀ i u es, t.step i = some (u, es) →
        BoundedKept t i es → t.impl.mReadyState = .closing → u.impl.mReadyState = .closed →
        (∀ e ∈ es, e.isFailure = false) →
          (Machine.events tr ++ es).flatMap Event.acceptedBytes =
            (Machine.events tr ++ es).flatMap Event.queuedBytes) := by
  have hadvanced := run_advanced hs h
  refine ⟨fun tr' u h' => ?_, ⟨hadvanced.order, countP_isCloseFrame_le hadvanced.order⟩,
    fun hkept i u es hstep hguard ht hu hok => ?_⟩
  · exact (h'.invariant_state (P := fun u => u.Consistent ∧
      t.impl.mReadyState.rank ≤ u.impl.mReadyState.rank) ⟨hadvanced.consistent, le_rfl⟩
      fun u i es v hu hstep _ =>
        ⟨step_consistent hu.1 hstep, hu.2.trans (step_rank_le hu.1 hstep)⟩).2
  · have hsender := run_sender_kept hs hkept
    have hempty := step_closed hsender.consistent hstep ht hu hok
    have hbytes := (step_sender_kept hsender hstep hguard).bytes
    rwa [hempty, List.append_nil] at hbytes

theorem state_machine_server :
    ∃ tr t u es,
      sessionMachine.Run BoundedKept (start (.ofSocket zeroPlatform true true)) tr t ∧
      t.step (.send .wouldBlock) = some (u, es) ∧ u.impl.mReadyState = .closed ∧
      (Machine.events tr).countP Event.isCloseFrame ≤ 1 ∧
      (Machine.events tr ++ es).flatMap Event.acceptedBytes =
        (Machine.events tr ++ es).flatMap Event.queuedBytes := by
  obtain ⟨tr, t, h, hlast⟩ := Machine.exists_run_of_exec (M := sessionMachine)
    (G := BoundedKept) (s := start (.ofSocket zeroPlatform true true))
    (l := handshakeInputs (ascii "GET / HTTP/1.1\r\n\r\n") ++ [.sendText (some (ascii "A")) 0,
      .close, .poll true 0, .receive .wouldBlock, .send (.accepted 6), .send (.accepted 7)])
    (P := fun r => r.1.impl.mReadyState == .closing &&
      (r.1.step (.send .wouldBlock)).any fun q => q.1.impl.mReadyState == .closed &&
        decide (BoundedKept r.1 (.send .wouldBlock) q.2) &&
          q.2.all fun e => !e.isFailure) (by decide +kernel)
  simp only [Bool.and_eq_true, beq_iff_eq, Option.any_eq_true, decide_eq_true_eq,
    List.all_eq_true, Bool.not_eq_true'] at hlast
  obtain ⟨hclosing, ⟨u, es⟩, hstep, ⟨hclosed, hguard⟩, hok⟩ := hlast
  obtain ⟨-, ⟨-, hcount⟩, hflush⟩ :=
    state_machine (.server _ _ _) (h.mono fun _ _ _ hguard => hguard.1)
  exact ⟨tr, t, u, es, h, hstep, hclosed, hcount,
    hflush h _ _ _ hstep hguard hclosing hclosed hok⟩

/-! ### A refused payload -/

/-- The cursors of a buffer whose content starts at the front of its block, with the limit of the
buffers of a connection. -/
structure Cursors (b : SimpleBuffer) (endLoc maxLen : ℕ) : Prop where
  start : b.mStartLoc = 0
  last : b.mEndLoc = endLoc
  max : b.mMaxLen = maxLen
  limit : b.mMaxGrowSize = maximumBufferSize

section Cursors

variable {b : SimpleBuffer} {endLoc maxLen n : ℕ}

theorem Cursors.ensure_of_le (h : Cursors b endLoc maxLen) (hn : endLoc + n ≤ maxLen)
    (hmax : maxLen ≤ maximumBufferSize) : b.ensure n = b := by
  unfold maximumBufferSize at hmax
  rw [SimpleBuffer.ensure, h.last, h.max, sub32_of_le (by omega) (by omega), if_neg (by omega)]

/-- There is room for the data. -/
theorem Cursors.addBuffer_of_le (h : Cursors b endLoc maxLen) (d : Bytes)
    (hn : endLoc + n ≤ maxLen) (hmax : maxLen ≤ maximumBufferSize) :
    (b.addBuffer (some d) n).2 = true ∧ Cursors (b.addBuffer (some d) n).1 (endLoc + n) maxLen := by
  have hens := h.ensure_of_le hn hmax
  unfold maximumBufferSize at hmax
  have hsub : sub32 maxLen endLoc = maxLen - endLoc := sub32_of_le (by omega) (by omega)
  have hadd : add32 endLoc n = endLoc + n := add32_of_lt (by omega)
  simp only [SimpleBuffer.addBuffer, hens, h.last, h.max, hsub, hadd,
    if_pos (show n ≤ maxLen - endLoc by omega)]
  exact ⟨trivial, h.start, rfl, rfl, h.limit⟩

/-- There is no room for the data, and the block can grow for it. -/
theorem Cursors.addBuffer_of_grow (h : Cursors b endLoc maxLen) (d : Bytes)
    (hend : endLoc ≤ maxLen) (hn : 2 * maxLen < endLoc + n)
    (hlimit : 2 * maxLen + n ≤ maximumBufferSize) :
    (b.addBuffer (some d) n).2 = true ∧
      Cursors (b.addBuffer (some d) n).1 (endLoc + n) (2 * maxLen + n) := by
  unfold maximumBufferSize at hlimit
  have hsub : sub32 maxLen endLoc = maxLen - endLoc := sub32_of_le (by omega) (by omega)
  have hdouble : mul32 maxLen 2 = 2 * maxLen := by
    rw [mul32_of_lt (by omega), Nat.mul_comm]
  have havail : sub32 (2 * maxLen) endLoc = 2 * maxLen - endLoc :=
    sub32_of_le (by omega) (by omega)
  have hnew : add32 (2 * maxLen) n = 2 * maxLen + n := add32_of_lt (by omega)
  have hsize : b.getSize = endLoc := by
    rw [SimpleBuffer.getSize, h.start, h.last, sub32_zero (by omega)]
  have hgrown : Cursors (b.ensure n) endLoc (2 * maxLen + n) := by
    rw [SimpleBuffer.ensure, h.last, h.max, hsub, if_pos (by omega)]
    simp only [SimpleBuffer.growBuffer, h.start, h.last, h.max, hdouble, havail, hnew, hsize,
      h.limit, Nat.not_lt_zero, if_false, if_pos (show 2 * maxLen - endLoc < n by omega)]
    rw [if_neg (by unfold maximumBufferSize; omega)]
    exact ⟨rfl, rfl, rfl, rfl⟩
  have hroom : sub32 (2 * maxLen + n) endLoc = 2 * maxLen + n - endLoc :=
    sub32_of_le (by omega) (by omega)
  have hadd : add32 endLoc n = endLoc + n := add32_of_lt (by omega)
  simp only [SimpleBuffer.addBuffer, hgrown.last, hgrown.max, hroom, hadd,
    if_pos (show n ≤ 2 * maxLen + n - endLoc by omega)]
  exact ⟨trivial, hgrown.start, rfl, rfl, hgrown.limit⟩

/-- There is no room for the data, and twice the block is more than the limit. -/
theorem Cursors.addBuffer_of_refused (h : Cursors b endLoc maxLen) (d : Bytes)
    (hend : endLoc ≤ maxLen) (hmax : maxLen ≤ maximumBufferSize) (hn : maxLen < endLoc + n)
    (hn' : n ≤ maximumBufferSize) (hlimit : maximumBufferSize < 2 * maxLen) :
    b.addBuffer (some d) n = (b, false) := by
  unfold maximumBufferSize at hmax hn' hlimit
  have hsub : sub32 maxLen endLoc = maxLen - endLoc := sub32_of_le (by omega) (by omega)
  have hdouble : mul32 maxLen 2 = 2 * maxLen := by
    rw [mul32_of_lt (by omega), Nat.mul_comm]
  have hnew : add32 (2 * maxLen) n = 2 * maxLen + n := add32_of_lt (by omega)
  have hgrow : b.growBuffer n = (b, false) := by
    simp only [SimpleBuffer.growBuffer, h.start, h.max, hdouble, hnew, h.limit, Nat.not_lt_zero,
      if_false]
    rw [if_pos]
    unfold maximumBufferSize
    split_ifs <;> omega
  have hens : b.ensure n = b := by
    rw [SimpleBuffer.ensure, hgrow, ite_self]
  simp only [SimpleBuffer.addBuffer, hens, h.last, h.max, hsub,
    if_neg (show ¬n ≤ maxLen - endLoc by omega)]

end Cursors

section RefusedPayload

variable {w : WebSocketImpl} {d : Bytes} {endLoc maxLen : ℕ} {key : MaskingKey}

/-- Masking does not move the cursors. -/
theorem cursors_maskTransmit {b : SimpleBuffer} (h : Cursors b endLoc maxLen) (n : ℕ)
    (key : MaskingKey) :
    Cursors ((w.setTransmit b).maskTransmit n key).mTransmitBuffer endLoc maxLen :=
  ⟨h.start, h.last, h.max, h.limit⟩

/-- A payload that the block grows for. -/
theorem sendBinary_of_grow (hstate : w.mReadyState = .opened) (hmask : w.mUseMask = true)
    (hc : Cursors w.mTransmitBuffer 0 16384) (hd : d.length = 268435456) (key : MaskingKey) :
    Cursors (w.sendBinary (some d) key).1.mTransmitBuffer (14 + 268435456)
        (2 * 16384 + 268435456) ∧
      ∀ e ∈ (w.sendBinary (some d) key).2, e.isMaskedRefusal = false := by
  have hhead : (frameHeader true .binaryFrame 268435456 key).length = 14 := by
    simp [frameHeader]
  obtain ⟨hflag, hc'⟩ := hc.addBuffer_of_le (n := 14) (frameHeader true .binaryFrame 268435456 key)
    (by omega) (by decide)
  obtain ⟨hflag', hc''⟩ := hc'.addBuffer_of_grow (n := 268435456) d (by omega) (by omega)
    (by decide)
  have hu : u32 268435456 = 268435456 := u32_of_lt (by omega)
  simp only [WebSocketImpl.sendBinary, WebSocketImpl.sendData, Option.getD_some, hd, hmask, hhead,
    hstate]
  simp only [WebSocketImpl.queuePayload, WebSocketImpl.addTransmit, hflag, hflag', hu, hmask,
    WebSocketImpl.setTransmit_mTransmitBuffer, WebSocketImpl.setTransmit_mUseMask, if_true,
    WebSocketImpl.setTransmit_setTransmit]
  rw [if_neg (by simp)]
  exact ⟨cursors_maskTransmit hc'' _ _, by simp [Event.isMaskedRefusal]⟩

/-- A payload that is refused behind its header. -/
theorem sendBinary_of_refused {n headerLen : ℕ} (hstate : w.mReadyState = .opened)
    (hmask : w.mUseMask = true) (hc : Cursors w.mTransmitBuffer endLoc maxLen)
    (hhead : (frameHeader true .binaryFrame n key).length = headerLen)
    (hend : endLoc + headerLen ≤ maxLen) (hmax : maxLen ≤ maximumBufferSize)
    (hlimit : maximumBufferSize < 2 * maxLen) (hd : d.length = n) (hn : maxLen < endLoc + n)
    (hle : n ≤ maximumBufferSize) :
    w.sendBinary (some d) key =
      ((w.addTransmit .header (frameHeader true .binaryFrame n key) headerLen).1.maskTransmit n key,
        [.sendData .opened .binaryFrame d key,
          .added .header (frameHeader true .binaryFrame n key),
          .refused (.payload (some key)) n]) := by
  obtain ⟨hflag, hc'⟩ := hc.addBuffer_of_le (frameHeader true .binaryFrame n key) hend hmax
  have hrefused := hc'.addBuffer_of_refused d hend hmax (by omega) hle hlimit
  have hu : u32 n = n := u32_of_lt (by unfold maximumBufferSize at hle; omega)
  simp only [WebSocketImpl.sendBinary, WebSocketImpl.sendData, Option.getD_some, hd, hmask, hhead,
    hstate]
  simp only [WebSocketImpl.queuePayload, WebSocketImpl.addTransmit, hflag, hu, hmask, hrefused,
    WebSocketImpl.setTransmit_mTransmitBuffer, WebSocketImpl.setTransmit_mUseMask, if_true,
    WebSocketImpl.setTransmit_setTransmit]
  rfl

/-- A refused payload masks the last bytes that were queued before it. -/
theorem getData_sendBinary_of_refused {n headerLen : ℕ} (hwf : w.mTransmitBuffer.WF)
    (hstate : w.mReadyState = .opened) (hmask : w.mUseMask = true)
    (hc : Cursors w.mTransmitBuffer endLoc maxLen)
    (hhead : (frameHeader true .binaryFrame n key).length = headerLen)
    (hend : endLoc + headerLen ≤ maxLen) (hmax : maxLen ≤ maximumBufferSize)
    (hlimit : maximumBufferSize < 2 * maxLen) (hd : d.length = n) (hn : maxLen < endLoc + n)
    (hle : n ≤ maximumBufferSize) (hn' : n ≤ endLoc + headerLen) :
    ∃ c d', d'.length = n ∧
      w.mTransmitBuffer.getData ++ frameHeader true .binaryFrame n key = c ++ d' ∧
      (w.sendBinary (some d) key).1.mTransmitBuffer.getData = c ++ maskBytes key d' := by
  rw [sendBinary_of_refused hstate hmask hc hhead hend hmax hlimit hd hn hle]
  have hle' := length_frameHeader_le true .binaryFrame n key
  obtain ⟨hflag, hc'⟩ := hc.addBuffer_of_le (frameHeader true .binaryFrame n key) hend hmax
  obtain ⟨hwf', -, hadded, -⟩ := SimpleBuffer.addBuffer_spec hwf (by omega) hhead
  have hdata := hadded hflag
  have hlen : n ≤ (w.mTransmitBuffer.getData ++ frameHeader true .binaryFrame n key).length := by
    rw [List.length_append, SimpleBuffer.length_getData, hwf.getSize_eq, hc.start, hc.last]
    omega
  generalize w.mTransmitBuffer.getData ++ frameHeader true .binaryFrame n key = l at hdata hlen
  have hdrop : (l.drop (l.length - n)).length = n := by
    rw [List.length_drop]
    omega
  refine ⟨l.take (l.length - n), l.drop (l.length - n), hdrop,
    (List.take_append_drop _ l).symm, ?_⟩
  obtain ⟨b, -, heq, hmasked⟩ := WebSocketImpl.maskTransmit_spec
    (w := (w.addTransmit .header (frameHeader true .binaryFrame n key) headerLen).1) hwf'
    (hdata.trans (List.take_append_drop (l.length - n) l).symm) hdrop key
  rw [heq]
  exact hmasked

end RefusedPayload

/-- A poll of a connection that has something to send: nothing is received, and the socket accepts
some bytes. -/
theorem poll_steps {w : WebSocketImpl} (hsock : w.mSocket = true)
    (hstate : w.mReadyState = .opened ∨ w.mReadyState = .closing) {n : ℕ} (hpos : 0 < n)
    (hn : n ≤ w.mTransmitBuffer.getSize) :
    ∃ w₁ es, sessionMachine.step ⟨w, []⟩ (.poll true 0) = some (⟨w, [.receiving true]⟩, []) ∧
      sessionMachine.step ⟨w, [.receiving true]⟩ (.receive .wouldBlock) =
        some (⟨w₁, [.transmitting true]⟩, es) ∧
      sessionMachine.step ⟨w₁, [.transmitting true]⟩ (.send (.accepted n)) =
        some (⟨w₁.setTransmit (w₁.mTransmitBuffer.consume n), [.transmitting true]⟩,
          [.transmit w.mTransmitBuffer.getData (.accepted n)]) ∧
      w₁.mReadyState = w.mReadyState ∧ w₁.mTransmitBuffer = w.mTransmitBuffer ∧
      ∀ e ∈ es, ∃ m, e = .refused .receive m := by
  have hrecv := WebSocketImpl.receiveIteration_unrelated w true .wouldBlock
  have hstate₁ : (w.receiveIteration true .wouldBlock).1.mReadyState = w.mReadyState := by
    rw [WebSocketImpl.receiveIteration]
    split_ifs <;> rfl
  have hopen : w.mReadyState ≠ .connecting ∧ w.mReadyState ≠ .closed := by
    rcases hstate with h | h <;> simp [h]
  have hnext : (w.receiveIteration true .wouldBlock).2.1 = [.transmitting true] := by
    simp only [WebSocketImpl.receiveIteration, WebSocketImpl.leaveReceive]
    split_ifs <;> simp_all
  have hsize : w.mTransmitBuffer.getSize ≠ 0 := by omega
  refine ⟨(w.receiveIteration true .wouldBlock).1, (w.receiveIteration true .wouldBlock).2.2,
    ?_, ?_, ?_, hstate₁, hrecv.transmitBuffer, ?_⟩
  · simp [step, enter, callable, WebSocketImpl.poll, hsock, hopen.1, hopen.2]
  · simp [step, WebSocketImpl.resume, RecvResult.Valid, hnext]
  · simp [step, WebSocketImpl.resume, SendResult.Valid, WebSocketImpl.transmitIteration,
      hrecv.transmitBuffer, hsize, hpos, hn]
  · simp only [WebSocketImpl.receiveIteration]
    split_ifs <;> simp

/-- A connection that is closing, with no function entered and something to send: one poll sends
everything and closes the socket. -/
theorem flush_run {w : WebSocketImpl} (hwf : w.mTransmitBuffer.WF) (hsock : w.mSocket = true)
    (hstate : w.mReadyState = .closing) (hdata : w.mTransmitBuffer.getData ≠ []) :
    ∃ tr t u, sessionMachine.Run Bounded ⟨w, []⟩ tr t ∧
      t.step (.send .wouldBlock) = some (u, [.socketClose]) ∧
      t.impl.mReadyState = .closing ∧ u.impl.mReadyState = .closed ∧
      (Machine.events tr).flatMap Event.acceptedBytes = w.mTransmitBuffer.getData ∧
      (Machine.events tr).flatMap Event.queuedBytes = [] := by
  have hsize : w.mTransmitBuffer.getSize ≠ 0 := fun h =>
    hdata (SimpleBuffer.getSize_eq_zero_iff.mp h)
  obtain ⟨w₁, es, hpoll, hreceive, hsend, hstate₁, hbuf, hes⟩ :=
    poll_steps hsock (.inr hstate) (Nat.pos_of_ne_zero hsize) le_rfl
  set w₂ := w₁.setTransmit (w₁.mTransmitBuffer.consume w.mTransmitBuffer.getSize) with hw₂
  have hempty : w₂.mTransmitBuffer.getSize = 0 := by
    rw [SimpleBuffer.getSize_eq_zero_iff, hw₂, WebSocketImpl.setTransmit_mTransmitBuffer,
      hbuf, (SimpleBuffer.consume_spec hwf _).2.2, ← SimpleBuffer.length_getData,
      List.drop_length]
  have hstate₂ : w₂.mReadyState = .closing := hstate₁.trans hstate
  have hlast : sessionMachine.step ⟨w₂, [.transmitting true]⟩ (.send .wouldBlock) =
      some (⟨w₂.setReadyState .closed, [.dispatching]⟩, [.socketClose]) := by
    simp [step, WebSocketImpl.resume, SendResult.Valid, WebSocketImpl.transmitIteration,
      WebSocketImpl.leaveTransmit, WebSocketImpl.beginDispatch, hempty, hstate₂]
  have hguard₁ : Bounded ⟨w, []⟩ (.poll true 0) [] :=
    ⟨by simp [Input.payload, Input.frame], by simp⟩
  have hguard₂ : Bounded ⟨w, [.receiving true]⟩ (.receive .wouldBlock) es := by
    refine ⟨by simp [Input.payload, Input.frame], fun e he => ?_⟩
    obtain ⟨m, rfl⟩ := hes e he
    trivial
  have hguard₃ : Bounded ⟨w₁, [.transmitting true]⟩ (.send (.accepted w.mTransmitBuffer.getSize))
      [.transmit w.mTransmitBuffer.getData (.accepted w.mTransmitBuffer.getSize)] :=
    ⟨by simp [Input.payload, Input.frame], by simp [Event.ParsedBelow]⟩
  have hrun := ((Machine.Run.single hpoll hguard₁).snoc hreceive hguard₂).snoc hsend hguard₃
  refine ⟨_, _, _, hrun, hlast, hstate₂, rfl, ?_, ?_⟩
  · have hacc : es.flatMap Event.acceptedBytes = [] := List.flatMap_eq_nil_iff.mpr fun e he => by
      obtain ⟨m, rfl⟩ := hes e he
      rfl
    have htake : w.mTransmitBuffer.getData.take w.mTransmitBuffer.getSize =
        w.mTransmitBuffer.getData := List.take_of_length_le (by simp)
    simp [hacc, Event.acceptedBytes, htake]
  · have hq : es.flatMap Event.queuedBytes = [] := List.flatMap_eq_nil_iff.mpr fun e he => by
      obtain ⟨m, rfl⟩ := hes e he
      rfl
    simp [hq, Event.queuedBytes]

/-- Two messages of which the second is refused: the bytes that go over the wire are not those that
were queued. -/
theorem refused_payload_run {w : WebSocketImpl} (hwf : w.mTransmitBuffer.WF)
    (hdata : w.mTransmitBuffer.getData = []) (hstate : w.mReadyState = .opened)
    (hsock : w.mSocket = true) (hmask : w.mUseMask = true)
    (hc : Cursors w.mTransmitBuffer 0 16384) :
    ∃ tr t u, sessionMachine.Run Bounded ⟨w, []⟩ tr t ∧
      t.step (.send .wouldBlock) = some (u, [.socketClose]) ∧
      t.impl.mReadyState = .closing ∧ u.impl.mReadyState = .closed ∧
      (Machine.events tr).flatMap Event.acceptedBytes ≠
        (Machine.events tr).flatMap Event.queuedBytes := by
  obtain ⟨d₁, hlen₁⟩ : ∃ d : Bytes, d.length = 268435456 :=
    ⟨List.replicate 268435456 0, List.length_replicate⟩
  obtain ⟨d₂, hlen₂⟩ : ∃ d : Bytes, d.length = 40000 :=
    ⟨List.replicate 40000 0, List.length_replicate⟩
  obtain ⟨key, hkey⟩ : ∃ key : MaskingKey, key 0 = 1 := ⟨fun _ => 1, rfl⟩
  have haccepted {es : List Event} (h : ∀ e ∈ es, e.isFrame = false) :
      es.flatMap Event.acceptedBytes = [] :=
    List.flatMap_eq_nil_iff.mpr fun e he => Event.acceptedBytes_of_isFrame (h e he)
  -- the first message is queued
  obtain ⟨hc₁, hok₁⟩ := sendBinary_of_grow hstate hmask hc hlen₁ key
  have htr₁ : Transmits w (w.sendBinary (some d₁) key).1 (w.sendBinary (some d₁) key).2 :=
    WebSocketImpl.sendData_transmits hwf .binaryFrame
      (hlen₁.le.trans (by norm_num)) rfl key
  have hkeep₁ : Keeps w (w.sendBinary (some d₁) key).1 := WebSocketImpl.sendData_keeps _ _ _ _ _
  have hstate₁ : (w.sendBinary (some d₁) key).1.mReadyState = .opened :=
    (WebSocketImpl.sendData_mReadyState _ _ _ _ _).trans hstate
  have hacc₁ := haccepted (WebSocketImpl.sendData_isFrame w .binaryFrame (some d₁) d₁.length key)
  have hbytes₁ := htr₁.bytes hok₁
  have hmask₁ := htr₁.useMask.trans hmask
  have hwf₁ := htr₁.wf
  change (w.sendBinary (some d₁) key).2.flatMap Event.acceptedBytes = [] at hacc₁
  have hstep₁ : sessionMachine.step ⟨w, []⟩ (.sendBinary (some d₁) key) =
    some (⟨(w.sendBinary (some d₁) key).1, []⟩, (w.sendBinary (some d₁) key).2) := rfl
  have hguard₁ : Bounded ⟨w, []⟩ (.sendBinary (some d₁) key) (w.sendBinary (some d₁) key).2 :=
    ⟨by simp [Input.payload, Input.frame, hlen₁],
      fun e he => Event.parsedBelow_of_isFrame (WebSocketImpl.sendData_isFrame _ _ _ _ _ e he) _⟩
  generalize (w.sendBinary (some d₁) key).1 = w₁ at *
  generalize (w.sendBinary (some d₁) key).2 = es₁ at *
  -- the second message is refused behind its header
  have hhead : (frameHeader true .binaryFrame 40000 key).length = 8 := by simp [frameHeader]
  obtain ⟨c, d', hlen', hsplit, hdata₂⟩ := getData_sendBinary_of_refused hwf₁ hstate₁ hmask₁ hc₁
    hhead (by omega) (by decide) (by decide) hlen₂ (by omega) (by decide) (by omega)
  have hes₂ := congrArg Prod.snd (sendBinary_of_refused hstate₁ hmask₁ hc₁ hhead (by omega)
    (by decide) (by decide) hlen₂ (by omega) (by decide))
  have hwf₂ : (w₁.sendBinary (some d₂) key).1.mTransmitBuffer.WF :=
    (WebSocketImpl.sendData_transmits hwf₁ .binaryFrame
      (hlen₂.le.trans (by norm_num)) rfl key).wf
  have hkeep₂ : Keeps w₁ (w₁.sendBinary (some d₂) key).1 := WebSocketImpl.sendData_keeps _ _ _ _ _
  have hstep₂ : sessionMachine.step ⟨w₁, []⟩ (.sendBinary (some d₂) key) =
    some (⟨(w₁.sendBinary (some d₂) key).1, []⟩, (w₁.sendBinary (some d₂) key).2) := rfl
  have hguard₂ : Bounded ⟨w₁, []⟩ (.sendBinary (some d₂) key) (w₁.sendBinary (some d₂) key).2 :=
    ⟨by simp [Input.payload, Input.frame, hlen₂], by rw [hes₂]; simp [Event.ParsedBelow]⟩
  have hstate₂ : (w₁.sendBinary (some d₂) key).1.mReadyState = .opened :=
    (WebSocketImpl.sendData_mReadyState _ _ _ _ _).trans hstate₁
  rw [hes₂] at hstep₂ hguard₂
  generalize (w₁.sendBinary (some d₂) key).1 = w₂ at *
  -- the connection is closed, and everything is sent
  have htr₃ := WebSocketImpl.close_transmits hwf₂
  have hbytes₃ := htr₃.bytes (WebSocketImpl.close_isMaskedRefusal w₂)
  rw [haccepted (WebSocketImpl.close_isFrame w₂), List.nil_append] at hbytes₃
  have hstep₃ : sessionMachine.step ⟨w₂, []⟩ .close = some (⟨w₂.close.1, []⟩, w₂.close.2) := rfl
  have hguard₃ : Bounded ⟨w₂, []⟩ .close w₂.close.2 :=
    ⟨by simp [Input.payload, Input.frame],
      fun e he => Event.parsedBelow_of_isFrame (WebSocketImpl.close_isFrame _ e he) _⟩
  have hstate₃ : w₂.close.1.mReadyState = .closing := by
    simp [WebSocketImpl.close, hstate₂]
  have hsock₃ := ((hkeep₁.trans hkeep₂).trans (WebSocketImpl.close_keeps w₂)).socket.trans hsock
  have hne : w₂.close.1.mTransmitBuffer.getData ≠ [] := fun hnil => by
    have := congrArg List.length (hbytes₃.symm.trans hnil)
    simp [hdata₂, hlen'] at this
  obtain ⟨tr, t, u, hrun, hlast, ht, hu, hacc, hqueued⟩ := flush_run htr₃.wf hsock₃ hstate₃ hne
  have hall := (((Machine.Run.single hstep₁ hguard₁).snoc hstep₂ hguard₂).snoc hstep₃ hguard₃).trans
    hrun
  refine ⟨_, t, u, hall, hlast, ht, hu, fun heq => ?_⟩
  have hdata₁ : w₁.mTransmitBuffer.getData = es₁.flatMap Event.queuedBytes := by
    simpa [hacc₁, hdata] using hbytes₁
  rw [hdata₁] at hsplit
  have hmasked : maskBytes key d' = d' := by
    simpa [hacc, hqueued, hacc₁, hbytes₃, hdata₂, haccepted (WebSocketImpl.close_isFrame w₂),
      Event.acceptedBytes, Event.queuedBytes, ← List.append_assoc, hsplit] using heq
  -- masking with a key that is not zero changes the first byte
  obtain ⟨x, l, rfl⟩ := List.exists_cons_of_length_pos (by omega : 0 < d'.length)
  have hx : x ^^^ key 0 = x := by
    simpa [maskBytes] using congrArg List.head? hmasked
  rw [hkey] at hx
  have hone := congrArg (x ^^^ ·) hx
  simp only [← UInt8.xor_assoc, UInt8.xor_self, UInt8.zero_xor] at hone
  cases hone

/-- A masked payload that is refused alters what was queued before it: a connection that is closed
cleanly can have sent bytes that its transmit buffer never accepted. -/
theorem refused_payload_alters_queue :
    ¬∀ (s t u : Session) (tr : List (Input × List Event)) (i : Input) (es : List Event),
      Constructed s → sessionMachine.Run Bounded s tr t → t.step i = some (u, es) →
        Bounded t i es → t.impl.mReadyState = .closing → u.impl.mReadyState = .closed →
        (∀ e ∈ es, e.isFailure = false) →
          (Machine.events tr ++ es).flatMap Event.acceptedBytes =
            (Machine.events tr ++ es).flatMap Event.queuedBytes := by
  intro h
  have h₁ : sessionMachine.Run Bounded _ _ openServer :=
    run_openServer.mono fun _ _ _ hguard => hguard.1
  have hsender := run_sender (.server _ _ _)
    (run_openServer.mono fun _ _ _ => NoTransmitRefusal.noMaskedRefusal)
  have hstart : openServer = ⟨openServer.impl, []⟩ := by
    have : openServer.stack = [] := by decide +kernel
    rw [← this]
  have hdata : openServer.impl.mTransmitBuffer.getData = [] := by decide +kernel
  have hcursors : Cursors openServer.impl.mTransmitBuffer 0 16384 :=
    ⟨by decide +kernel, by decide +kernel, by decide +kernel, by decide +kernel⟩
  have hnone : (Machine.events (serverHandshake.get serverHandshake_isSome).2).flatMap
      Event.acceptedBytes = [] ∧
      (Machine.events (serverHandshake.get serverHandshake_isSome).2).flatMap
        Event.queuedBytes = [] := by decide +kernel
  obtain ⟨tr, t, u, hrun, hlast, ht, hu, hne⟩ := refused_payload_run hsender.wf hdata
    (by decide +kernel) (by decide +kernel) (by decide +kernel) hcursors
  rw [hstart] at h₁
  have heq := h _ t u _ _ _ (.server zeroPlatform true true) (h₁.trans hrun) hlast
    ⟨by simp [Input.payload, Input.frame], by simp [Event.ParsedBelow]⟩ ht hu
    (by simp [Event.isFailure])
  refine hne ?_
  simpa [hnone.1, hnone.2, Event.acceptedBytes, Event.queuedBytes] using heq

end Session

end WsClient
