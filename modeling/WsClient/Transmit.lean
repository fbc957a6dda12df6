import WsClient.Lifecycle

/-!
# The sending side

What a step does to the transmit buffer, and what a run puts on the wire. Every operation is
described by two relations between the objects before and after it: `Transmits` accounts for each
byte that enters or leaves the transmit buffer, and `Advances` says how the ready state moves and
that nothing is queued behind a close frame. Both relations compose, so that a step is described by
its parts and a run by its steps.

## Main definitions

* `Unrelated`, `Transmits`, `Advances`, `Sends`: what an operation does to the sending side.

## Main results

* `WebSocketImpl.sendData_transmits`, `WebSocketImpl.close_transmits`,
  `WebSocketImpl.dispatchIteration_transmits`: the operations.
* `Session.step_sends`: one step of a session.
-/

namespace WsClient

/-- The transmit buffer does not change, no event concerns it, and the ready state does not move
back. -/
structure Unrelated (w w' : WebSocketImpl) (es : List Event) : Prop where
  transmitBuffer : w'.mTransmitBuffer = w.mTransmitBuffer
  useMask : w'.mUseMask = w.mUseMask
  rank_le : w.mReadyState.rank ≤ w'.mReadyState.rank
  quiet : ∀ e ∈ es, e.isQuiet = true

/-- The bytes that the socket accepted, followed by the bytes that are in the transmit buffer
afterwards, are those that were in it before, followed by those that it accepted. -/
structure Transmits (w w' : WebSocketImpl) (es : List Event) : Prop where
  wf : w'.mTransmitBuffer.WF
  useMask : w'.mUseMask = w.mUseMask
  bytes : (∀ e ∈ es, e.isMaskedRefusal = false) →
    es.flatMap Event.acceptedBytes ++ w'.mTransmitBuffer.getData =
      w.mTransmitBuffer.getData ++ es.flatMap Event.queuedBytes

/-- Unless the transmit buffer refused something, it accepted the frames that were to be sent. -/
def QueuesFrames (useMask : Bool) (es : List Event) : Prop :=
  (∀ e ∈ es, e.isTransmitRefusal = false) →
    es.flatMap Event.queuedBytes = es.flatMap (Event.issuedBytes useMask)

/-- Nothing is queued after the close frame. -/
def NothingAfterClose (e e' : Event) : Prop := e.isCloseFrame = true → e'.isQueued = false

/-- The ready state moves forward, and nothing is queued once the connection is closing. -/
structure Advances (w w' : WebSocketImpl) (es : List Event) : Prop where
  rank_le : w.mReadyState.rank ≤ w'.mReadyState.rank
  silent : 2 ≤ w.mReadyState.rank → ∀ e ∈ es, e.isQueued = false
  closing : ∀ e ∈ es, e.isCloseFrame = true → 2 ≤ w'.mReadyState.rank
  order : es.Pairwise NothingAfterClose

/-- What an operation does to the sending side. -/
structure Sends (w w' : WebSocketImpl) (es : List Event) : Prop where
  transmits : Transmits w w' es
  frames : QueuesFrames w.mUseMask es
  advances : Advances w w' es

variable {w w' w'' : WebSocketImpl} {es es' : List Event}

/-! ### Composition -/

theorem Unrelated.refl (w : WebSocketImpl) : Unrelated w w [] :=
  ⟨rfl, rfl, le_rfl, by simp⟩

theorem Unrelated.trans (h : Unrelated w w' es) (h' : Unrelated w' w'' es') :
    Unrelated w w'' (es ++ es') where
  transmitBuffer := h'.transmitBuffer.trans h.transmitBuffer
  useMask := h'.useMask.trans h.useMask
  rank_le := h.rank_le.trans h'.rank_le
  quiet e he := (List.mem_append.mp he).elim (h.quiet e) (h'.quiet e)

theorem Unrelated.transmits (h : Unrelated w w' es) (hwf : w.mTransmitBuffer.WF) :
    Transmits w w' es where
  wf := h.transmitBuffer ▸ hwf
  useMask := h.useMask
  bytes _ := by
    rw [List.flatMap_eq_nil_iff.mpr fun e he => Event.acceptedBytes_of_isQuiet (h.quiet e he),
      List.flatMap_eq_nil_iff.mpr fun e he => Event.queuedBytes_of_isQuiet (h.quiet e he),
      h.transmitBuffer, List.nil_append, List.append_nil]

theorem QueuesFrames.of_isQuiet {useMask : Bool} (h : ∀ e ∈ es, e.isQuiet = true) :
    QueuesFrames useMask es := fun _ => by
  rw [List.flatMap_eq_nil_iff.mpr fun e he => Event.queuedBytes_of_isQuiet (h e he),
    List.flatMap_eq_nil_iff.mpr fun e he => Event.issuedBytes_of_isQuiet (h e he) useMask]

/-- An operation that queues nothing and does not move the ready state back. -/
theorem Advances.of_not_queued (hrank : w.mReadyState.rank ≤ w'.mReadyState.rank)
    (h : ∀ e ∈ es, e.isQueued = false) : Advances w w' es := by
  have hclose (e : Event) (he : e ∈ es) : ¬e.isCloseFrame = true := fun hc => by
    simpa [h e he] using Event.isQueued_of_isCloseFrame hc
  refine ⟨hrank, fun _ => h, fun e he hc => absurd hc (hclose e he), ?_⟩
  exact List.pairwise_of_forall_mem_list fun e _ e' he' _ => h e' he'

theorem Unrelated.advances (h : Unrelated w w' es) : Advances w w' es :=
  .of_not_queued h.rank_le fun e he => Event.isQueued_of_isQuiet (h.quiet e he)

theorem Transmits.trans (h : Transmits w w' es) (h' : Transmits w' w'' es') :
    Transmits w w'' (es ++ es') where
  wf := h'.wf
  useMask := h'.useMask.trans h.useMask
  bytes hes := by
    have h1 := h.bytes fun e he => hes e (List.mem_append_left _ he)
    have h2 := h'.bytes fun e he => hes e (List.mem_append_right _ he)
    rw [List.flatMap_append, List.flatMap_append, List.append_assoc, h2, ← List.append_assoc, h1,
      List.append_assoc]

theorem QueuesFrames.append {useMask : Bool} (h : QueuesFrames useMask es)
    (h' : QueuesFrames useMask es') : QueuesFrames useMask (es ++ es') := fun hes => by
  have h1 := h fun e he => hes e (List.mem_append_left _ he)
  have h2 := h' fun e he => hes e (List.mem_append_right _ he)
  rw [List.flatMap_append, List.flatMap_append, h1, h2]

theorem Advances.trans (h : Advances w w' es) (h' : Advances w' w'' es') :
    Advances w w'' (es ++ es') where
  rank_le := h.rank_le.trans h'.rank_le
  silent hw e he := (List.mem_append.mp he).elim (h.silent hw e)
    (h'.silent (hw.trans h.rank_le) e)
  closing e he hc := (List.mem_append.mp he).elim
    (fun he => (h.closing e he hc).trans h'.rank_le) (fun he => h'.closing e he hc)
  order := List.pairwise_append.mpr ⟨h.order, h'.order, fun e he e' he' hc =>
    h'.silent (h.closing e he hc) e' he'⟩

theorem Sends.trans (h : Sends w w' es) (h' : Sends w' w'' es') : Sends w w'' (es ++ es') where
  transmits := h.transmits.trans h'.transmits
  frames := h.frames.append (h.transmits.useMask ▸ h'.frames)
  advances := h.advances.trans h'.advances

theorem Unrelated.sends (h : Unrelated w w' es) (hwf : w.mTransmitBuffer.WF) : Sends w w' es :=
  ⟨h.transmits hwf, .of_isQuiet h.quiet, h.advances⟩

/-! ### Queuing -/

namespace WebSocketImpl

variable {use : BufferUse} {d : Bytes} {data : Option Bytes} {n : ℕ} {type : Opcode}

/-- Appending to the transmit buffer: the data is accepted, or refused without a trace. -/
theorem addTransmit_cases (hwf : w.mTransmitBuffer.WF) (use : BufferUse) (hn : n ≤ 2 ^ 29)
    (hd : d.length = n) :
    ∃ b : SimpleBuffer, b.WF ∧ (w.addTransmit use d n).1 = w.setTransmit b ∧
      ((w.addTransmit use d n).2 = [.added use d] ∧ b.getData = w.mTransmitBuffer.getData ++ d ∨
        (w.addTransmit use d n).2 = [.refused use n] ∧ b.getData = w.mTransmitBuffer.getData) := by
  obtain ⟨hwf', -, hadded, hrefused⟩ := SimpleBuffer.addBuffer_spec hwf hn hd
  refine ⟨_, hwf', rfl, ?_⟩
  cases hok : (w.mTransmitBuffer.addBuffer (some d) n).2 with
  | true => exact .inl ⟨by simp [addTransmit, hok], hadded hok⟩
  | false => exact .inr ⟨by simp [addTransmit, hok], by rw [hrefused hok]⟩

/-- Masking the last bytes of the transmit buffer. -/
theorem maskTransmit_spec (hwf : w.mTransmitBuffer.WF) {c : Bytes}
    (hc : w.mTransmitBuffer.getData = c ++ d) (hd : d.length = n) (key : MaskingKey) :
    ∃ b : SimpleBuffer, b.WF ∧ w.maskTransmit n key = w.setTransmit b ∧
      b.getData = c ++ maskBytes key d := by
  refine ⟨_, hwf.xorData _ _ _ key, rfl, ?_⟩
  have hsize : w.mTransmitBuffer.getSize = c.length + n := by
    rw [← SimpleBuffer.length_getData, hc, List.length_append, hd]
  have hle := hwf.getSize_le
  have hoff : sub32 w.mTransmitBuffer.getSize n = c.length := by
    rw [sub32_of_le (by omega) (by omega), hsize, Nat.add_sub_cancel]
  have hdrop : (c ++ d).drop (c.length + n) = [] := List.drop_eq_nil_of_le (by simp [hd])
  rw [hoff, SimpleBuffer.getData_xorData _ _ (by omega), hc, List.take_left', List.drop_left',
    List.take_of_length_le hd.le, hdrop, List.append_nil] <;> rfl

/-- Queuing the payload: it is appended as it goes over the wire, or refused. A refused payload
leaves the content alone if nothing is masked. -/
theorem queuePayload_cases (hwf : w.mTransmitBuffer.WF) (hn : n ≤ 2 ^ 29)
    (hlen : (data.getD []).length = n) (key : MaskingKey) :
    ∃ b : SimpleBuffer, b.WF ∧ (w.queuePayload data n key).1 = w.setTransmit b ∧
      ((w.queuePayload data n key).2 = [] ∧ data.getD [] = [] ∧
          b.getData = w.mTransmitBuffer.getData ∨
        (w.queuePayload data n key).2 =
            [.added (.payload (if w.mUseMask then some key else none)) (data.getD [])] ∧
          b.getData = w.mTransmitBuffer.getData ++
            applyMask (if w.mUseMask then some key else none) (data.getD []) ∨
        (w.queuePayload data n key).2 =
            [.refused (.payload (if w.mUseMask then some key else none)) n] ∧
          (w.mUseMask = false → b.getData = w.mTransmitBuffer.getData)) := by
  have hu : u32 n = n := u32_of_lt (by omega)
  cases data with
  | none =>
    obtain rfl : 0 = n := hlen
    simp only [queuePayload, hu]
    by_cases hm : w.mUseMask = true
    · obtain ⟨b, hb, heq, hdata⟩ :=
        maskTransmit_spec hwf (List.append_nil w.mTransmitBuffer.getData).symm rfl key
      rw [if_pos hm]
      exact ⟨b, hb, heq, .inl ⟨trivial, rfl, hdata.trans (List.append_nil _)⟩⟩
    · rw [if_neg hm]
      exact ⟨_, hwf, w.setTransmit_self.symm, .inl ⟨trivial, rfl, rfl⟩⟩
  | some d =>
    replace hlen : d.length = n := hlen
    simp only [queuePayload, hu, Option.getD_some]
    obtain ⟨b, hb, heq, h⟩ := addTransmit_cases hwf
      (.payload (if w.mUseMask then some key else none)) hn hlen
    rw [heq]
    by_cases hm : w.mUseMask = true
    · simp only [hm, if_true] at h ⊢
      rcases h with ⟨hes, hdata⟩ | ⟨hes, hdata⟩
      · obtain ⟨b', hb', heq', hdata'⟩ :=
          maskTransmit_spec (w := w.setTransmit b) hb hdata hlen key
        exact ⟨b', hb', heq', .inr (.inl ⟨hes, hdata'⟩)⟩
      · exact ⟨_, hb.xorData _ _ _ key, rfl, .inr (.inr ⟨hes, fun h => by cases h⟩)⟩
    · simp only [hm, Bool.false_eq_true, if_false] at h ⊢
      exact ⟨b, hb, rfl, .inr (h.imp id fun h => ⟨h.1, fun _ => h.2⟩)⟩

/-- The header is queued as a part of the frame. -/
private theorem addTransmit_transmits (hwf : w.mTransmitBuffer.WF) (use : BufferUse)
    (huse : use = .header ∨ use = .closeFrame) (hd : d.length ≤ 2 ^ 29) :
    Transmits w (w.addTransmit use d d.length).1 (w.addTransmit use d d.length).2 := by
  obtain ⟨b, hb, heq, h⟩ := addTransmit_cases hwf use hd rfl
  rw [heq]
  refine ⟨hb, rfl, fun _ => ?_⟩
  rcases h with ⟨hes, hdata⟩ | ⟨hes, hdata⟩ <;> rcases huse with rfl | rfl <;>
    simp [hes, hdata, Event.acceptedBytes, Event.queuedBytes]

private theorem queuePayload_transmits (hwf : w.mTransmitBuffer.WF) (hn : n ≤ 2 ^ 29)
    (hlen : (data.getD []).length = n) (key : MaskingKey) :
    Transmits w (w.queuePayload data n key).1 (w.queuePayload data n key).2 := by
  obtain ⟨b, hb, heq, h⟩ := queuePayload_cases hwf hn hlen key
  rw [heq]
  refine ⟨hb, rfl, fun hno => ?_⟩
  rcases h with ⟨hes, -, hdata⟩ | ⟨hes, hdata⟩ | ⟨hes, hdata⟩
  · simp [hes, hdata]
  · simp [hes, hdata, Event.acceptedBytes, Event.queuedBytes]
  · have hm : w.mUseMask = false := by
      by_contra hm
      have hkey : (if w.mUseMask then some key else none) = some key := if_pos (by simpa using hm)
      rw [hes, hkey] at hno
      simpa [Event.isMaskedRefusal] using hno _ (List.mem_singleton.mpr rfl)
    simp [hes, hdata hm, Event.acceptedBytes, Event.queuedBytes]

/-- Queuing a frame, byte by byte. -/
theorem sendData_transmits (hwf : w.mTransmitBuffer.WF) (type : Opcode) (hn : n ≤ 2 ^ 29)
    (hlen : (data.getD []).length = n) (key : MaskingKey) :
    Transmits w (w.sendData type data n key).1 (w.sendData type data n key).2 := by
  have hcalled : Transmits w w [.sendData w.mReadyState type (data.getD []) key] :=
    ⟨hwf, rfl, fun _ => by simp [Event.acceptedBytes, Event.queuedBytes]⟩
  unfold sendData
  split_ifs with hclosed
  · exact hcalled
  · have hheader := length_frameHeader_le w.mUseMask type n key
    have h1 := addTransmit_transmits hwf .header (.inl rfl)
      (d := frameHeader w.mUseMask type n key) (by omega)
    exact hcalled.trans (h1.trans (queuePayload_transmits h1.wf hn hlen key))

/-- Queuing a frame: what is queued is the frame of the call. -/
theorem sendData_queuesFrames (hwf : w.mTransmitBuffer.WF) (hop : ∀ n, type ≠ .reserved n)
    (hn : n ≤ 2 ^ 29) (hlen : (data.getD []).length = n) (key : MaskingKey) :
    QueuesFrames w.mUseMask (w.sendData type data n key).2 := by
  unfold sendData
  split_ifs with hclosed
  · have hrank := ReadyState.two_le_rank.mpr hclosed
    intro _
    simp [Event.queuedBytes, Event.issuedBytes, hrank]
  · have hrank : ¬2 ≤ w.mReadyState.rank := mt ReadyState.two_le_rank.mp hclosed
    have hframe := frameHeader_append w.mUseMask (data.getD []) key hop
    rw [hlen] at hframe
    have hheader := length_frameHeader_le w.mUseMask type n key
    obtain ⟨b, hb, heq, h⟩ := addTransmit_cases hwf .header
      (d := frameHeader w.mUseMask type n key) (by omega) rfl
    obtain ⟨b', -, -, h'⟩ := queuePayload_cases (w := w.setTransmit b) hb hn hlen key
    rw [setTransmit_mUseMask] at h'
    simp only [heq]
    generalize (w.addTransmit _ _ _).2 = es at h ⊢
    generalize ((w.setTransmit b).queuePayload data n key).2 = es' at h' ⊢
    intro hno
    rcases h with ⟨rfl, -⟩ | ⟨rfl, -⟩
    · rcases h' with ⟨rfl, hnil, -⟩ | ⟨rfl, -⟩ | ⟨rfl, -⟩
      · have hmask : applyMask (if w.mUseMask then some key else none) [] = [] := by
          split_ifs <;> rfl
        rw [hnil, hmask, List.append_nil] at hframe
        simp [hnil, hrank, hframe, Event.queuedBytes, Event.issuedBytes]
      · simp [hrank, ← hframe, Event.queuedBytes, Event.issuedBytes]
      · cases hno (.refused (.payload (if w.mUseMask then some key else none)) n) (by simp)
    · cases hno (.refused .header (frameHeader w.mUseMask type n key).length) (by simp)

/-- Queuing a frame does not concern the ready state. -/
theorem sendData_advances (hwf : w.mTransmitBuffer.WF) (type : Opcode) (hn : n ≤ 2 ^ 29)
    (hlen : (data.getD []).length = n) (key : MaskingKey) :
    Advances w (w.sendData type data n key).1 (w.sendData type data n key).2 := by
  unfold sendData
  split_ifs with hclosed
  · exact .of_not_queued le_rfl fun e he => List.mem_singleton.mp he ▸ rfl
  · have hheader := length_frameHeader_le w.mUseMask type n key
    obtain ⟨b, hb, heq, h⟩ := addTransmit_cases hwf .header
      (d := frameHeader w.mUseMask type n key) (by omega) rfl
    obtain ⟨b', -, heq', h'⟩ := queuePayload_cases (w := w.setTransmit b) hb hn hlen key
    have hopen : ∀ e ∈ .sendData w.mReadyState type (data.getD []) key ::
        ((w.addTransmit .header (frameHeader w.mUseMask type n key)
          (frameHeader w.mUseMask type n key).length).2 ++
          ((w.setTransmit b).queuePayload data n key).2), e.isCloseFrame = false := by
      rcases h with ⟨hes, -⟩ | ⟨hes, -⟩ <;>
        rcases h' with ⟨hes', -⟩ | ⟨hes', -⟩ | ⟨hes', -⟩ <;>
        simp [hes, hes', Event.isCloseFrame]
    simp only [heq, heq', setTransmit_setTransmit]
    refine ⟨le_rfl, fun h => absurd (ReadyState.two_le_rank.mp h) hclosed, ?_, ?_⟩
    · exact fun e he hc => absurd (hopen e he) (by simp [hc])
    · exact List.pairwise_of_forall_mem_list fun e he _ _ hc => absurd (hopen e he) (by simp [hc])

/-- The frames that `close` queues. -/
theorem close_transmits (hwf : w.mTransmitBuffer.WF) : Transmits w w.close.1 w.close.2 := by
  have hcalled (w' : WebSocketImpl) (hb : w'.mTransmitBuffer = w.mTransmitBuffer)
      (hm : w'.mUseMask = w.mUseMask) : Transmits w w' [.closeCall w.mReadyState] :=
    ⟨hb ▸ hwf, hm, fun _ => by simp [Event.acceptedBytes, Event.queuedBytes, hb]⟩
  unfold close
  split_ifs
  · exact hcalled w rfl rfl
  · exact (hcalled (w.setReadyState .closing) rfl rfl).trans
      (addTransmit_transmits (w := w.setReadyState .closing) hwf .closeFrame (.inr rfl)
        (d := closeFrame) (by decide))

theorem close_queuesFrames (hwf : w.mTransmitBuffer.WF) : QueuesFrames w.mUseMask w.close.2 := by
  unfold close
  split_ifs with hclosed
  · have hrank := ReadyState.two_le_rank.mpr hclosed
    intro _
    simp [Event.queuedBytes, Event.issuedBytes, hrank]
  · have hrank : ¬2 ≤ w.mReadyState.rank := mt ReadyState.two_le_rank.mp hclosed
    obtain ⟨b, -, -, ⟨hes, -⟩ | ⟨hes, -⟩⟩ :=
      addTransmit_cases (w := w.setReadyState .closing) hwf .closeFrame
        (d := closeFrame) (by decide) rfl
    · intro _
      simp [hes, hrank, Event.queuedBytes, Event.issuedBytes]
    · intro hno
      have := hno _ (List.mem_cons_of_mem _ (hes ▸ List.mem_singleton_self _))
      cases this

theorem close_advances (hwf : w.mTransmitBuffer.WF) : Advances w w.close.1 w.close.2 := by
  unfold close
  split_ifs with hclosed
  · exact .of_not_queued le_rfl fun e he => List.mem_singleton.mp he ▸ rfl
  · have hrank : ¬2 ≤ w.mReadyState.rank := mt ReadyState.two_le_rank.mp hclosed
    obtain ⟨b, -, heq, h⟩ :=
      addTransmit_cases (w := w.setReadyState .closing) hwf .closeFrame
        (d := closeFrame) (by decide) rfl
    simp only [heq]
    have hstate : ((w.setReadyState .closing).setTransmit b).mReadyState.rank = 2 := rfl
    refine ⟨by omega, fun h => absurd h hrank, fun _ _ _ => hstate.ge, ?_⟩
    rcases h with ⟨hes, -⟩ | ⟨hes, -⟩ <;>
      simp [hes, NothingAfterClose, Event.isCloseFrame]

theorem sendData_sends (hwf : w.mTransmitBuffer.WF) (hop : ∀ n, type ≠ .reserved n)
    (hn : n ≤ 2 ^ 29) (hlen : (data.getD []).length = n) (key : MaskingKey) :
    Sends w (w.sendData type data n key).1 (w.sendData type data n key).2 :=
  ⟨sendData_transmits hwf type hn hlen key, sendData_queuesFrames hwf hop hn hlen key,
    sendData_advances hwf type hn hlen key⟩

theorem close_sends (hwf : w.mTransmitBuffer.WF) : Sends w w.close.1 w.close.2 :=
  ⟨close_transmits hwf, close_queuesFrames hwf, close_advances hwf⟩

/-! ### The frame loop -/

variable {ws : WsHeader}

theorem unmaskPayload_unrelated (w : WebSocketImpl) (ws : WsHeader) :
    Unrelated w (w.unmaskPayload ws).1 (w.unmaskPayload ws).2 := by
  unfold unmaskPayload
  split_ifs
  · exact ⟨rfl, rfl, le_rfl, by simp [Event.isQuiet]⟩
  · exact .refl w

theorem consumeFrame_unrelated (w : WebSocketImpl) (frameSize : ℕ) :
    Unrelated w (w.consumeFrame frameSize).1 (w.consumeFrame frameSize).2 :=
  ⟨rfl, rfl, le_rfl, by simp [consumeFrame, Event.isQuiet]⟩

theorem finishDelivery_unrelated (w : WebSocketImpl) (frameSize : ℕ) (clear : Bool) :
    Unrelated w (w.finishDelivery frameSize clear).1 (w.finishDelivery frameSize clear).2 := by
  cases clear <;> exact ⟨rfl, rfl, le_rfl, by simp [finishDelivery, consumeFrame, Event.isQuiet]⟩

theorem appendFragment_unrelated (w : WebSocketImpl) (ws : WsHeader) :
    Unrelated w (w.appendFragment ws).1 (w.appendFragment ws).2 := by
  refine ⟨rfl, rfl, le_rfl, ?_⟩
  simp only [appendFragment]
  split_ifs <;> simp [Event.isQuiet]

theorem deliverAccumulated_unrelated (w : WebSocketImpl) (ws : WsHeader) :
    Unrelated w (w.deliverAccumulated ws).1 (w.deliverAccumulated ws).2.2 := by
  unfold deliverAccumulated
  split_ifs
  · exact ⟨rfl, rfl, le_rfl, by simp [Event.isQuiet]⟩
  · exact finishDelivery_unrelated w _ _
  · exact consumeFrame_unrelated w _

theorem dispatchData_unrelated (w : WebSocketImpl) (ws : WsHeader) :
    Unrelated w (w.dispatchData ws).1 (w.dispatchData ws).2.2 := by
  have hr := unmaskPayload_unrelated w ws
  unfold dispatchData
  simp only
  split_ifs
  · exact hr.trans ⟨rfl, rfl, le_rfl, by simp [deliverDirectly, Event.isQuiet]⟩
  · exact (hr.trans (appendFragment_unrelated _ ws)).trans (deliverAccumulated_unrelated _ ws)

/-- The payload of a `PING` is read in place for the answer, when there is one. -/
theorem readAnswer_unrelated (w : WebSocketImpl) (ws : WsHeader) :
    Unrelated w w (if ws.N ≠ 0 then [.access .answer ws.headerSize (u32 ws.N)] else []) := by
  refine ⟨rfl, rfl, le_rfl, ?_⟩
  split_ifs <;> simp [Event.isQuiet]

theorem dispatchPing_sends (hwf : w.mTransmitBuffer.WF) (hN : ws.N ≤ 2 ^ 29) (key : MaskingKey) :
    Sends w (w.dispatchPing ws key).1 (w.dispatchPing ws key).2.2 := by
  have hr := unmaskPayload_unrelated w ws
  have hwf' : (w.unmaskPayload ws).1.mTransmitBuffer.WF := hr.transmitBuffer ▸ hwf
  have hu : u32 ws.N = ws.N := u32_of_lt (by omega)
  have hlen : ((if ws.N ≠ 0 then some ((w.unmaskPayload ws).1.payload ws) else none).getD
      []).length = ws.N := by
    split_ifs with h
    · simp [payload, SimpleBuffer.slice, hu]
    · simpa using Eq.symm (not_not.mp h)
  have hsend : Sends _ ((w.unmaskPayload ws).1.sendData .pong _ ws.N key).1 _ :=
    sendData_sends hwf' (by simp) hN hlen key
  exact (((hr.trans (readAnswer_unrelated _ ws)).sends hwf).trans hsend).trans
    ((consumeFrame_unrelated _ _).sends hsend.transmits.wf)

theorem dispatchFrame_sends (hwf : w.mTransmitBuffer.WF) (hN : ws.N ≤ 2 ^ 29)
    (key : MaskingKey) :
    Sends w (w.dispatchFrame ws key).1 (w.dispatchFrame ws key).2.2 := by
  unfold dispatchFrame
  split
  · exact (dispatchData_unrelated w ws).sends hwf
  · exact (dispatchData_unrelated w ws).sends hwf
  · exact (dispatchData_unrelated w ws).sends hwf
  · exact dispatchPing_sends hwf hN key
  · exact (consumeFrame_unrelated w _).sends hwf
  · exact close_sends hwf
  · exact close_sends hwf

/-- Reading the header of a frame. -/
theorem readHeader_unrelated (w : WebSocketImpl) (reads : List ℕ) {es : List Event}
    (hes : ∀ e ∈ es, ∃ ws n, e = .parsed ws n) :
    Unrelated w w ((reads.map fun i => .access .header i 1) ++ es) := by
  refine ⟨rfl, rfl, le_rfl, fun e he => ?_⟩
  rcases List.mem_append.mp he with he | he
  · obtain ⟨i, -, rfl⟩ := List.mem_map.mp he
    rfl
  · obtain ⟨ws, n, rfl⟩ := hes e he
    rfl

/-- The frame that the loop processes next, if there is one, has at most `2 ^ 29` bytes of
payload. -/
def FrontFits (w : WebSocketImpl) : Prop :=
  let ws := headerOf w.mReceiveBuffer.byteAt
  ws.headerSize ≤ w.mReceiveBuffer.getSize → ws.frameSize ≤ w.mReceiveBuffer.getSize →
    ws.N ≤ 2 ^ 29

theorem frontFits_of_parsed (h : ∀ e ∈ (w.dispatchIteration key).2.2, e.ParsedBelow (2 ^ 29)) :
    w.FrontFits := by
  intro hsize hframe
  obtain ⟨reads, -, ⟨_, -, -, hshort⟩ | ⟨ws, rfl, -, -, heq⟩⟩ := dispatchIteration_cases w key
  · exact absurd hshort (by omega)
  · rw [heq] at h
    have hlt : (headerOf w.mReceiveBuffer.byteAt).headerSize +
        (headerOf w.mReceiveBuffer.byteAt).N < 2 ^ 29 :=
      h (.parsed _ w.mReceiveBuffer.getSize) (by simp)
    omega

/-- An iteration of the frame loop queues an answer to `PING`, or the close frame, or nothing. -/
theorem dispatchIteration_sends (hwf : w.mTransmitBuffer.WF) (hfront : w.FrontFits)
    (key : MaskingKey) : Sends w (w.dispatchIteration key).1 (w.dispatchIteration key).2.2 := by
  obtain ⟨reads, -, ⟨es, hes, heq, -⟩ | ⟨ws, rfl, hsize, hframe, heq⟩⟩ :=
    dispatchIteration_cases w key
  · rw [heq]
    exact (readHeader_unrelated w reads hes).sends hwf
  · have hhead : Sends w w ((reads.map fun i => .access .header i 1) ++
        [.parsed (headerOf w.mReceiveBuffer.byteAt) w.mReceiveBuffer.getSize]) :=
      (readHeader_unrelated w reads (by simp)).sends hwf
    rw [heq]
    simpa using hhead.trans (dispatchFrame_sends hwf (hfront hsize hframe) key)

/-! ### The socket -/

theorem processLine_unrelated (hstate : w.mReadyState = .connecting) :
    Unrelated w w.processLine.1 w.processLine.2.2 := by
  have hopen : Unrelated w w.openConnection.1 w.openConnection.2 :=
    ⟨rfl, rfl, by simp [hstate], by simp [openConnection, Event.isQuiet]⟩
  have hlines : ∀ e ∈ responseLines.map Event.handshakeSend, e.isQuiet = true := by
    simp [Event.isQuiet]
  unfold processLine
  split
  · split_ifs
    · exact hopen
    · exact .refl w
  · split_ifs
    · exact ⟨rfl, rfl, le_rfl, hlines⟩
    · exact .refl w
    · exact ⟨rfl, rfl, le_rfl, by simp⟩
    · exact .refl w
  · exact ⟨rfl, rfl, le_rfl, by simp⟩
  · exact ⟨rfl, rfl, le_rfl, by simp⟩
  · exact ⟨rfl, rfl, le_rfl, by simp⟩
  · exact ⟨rfl, rfl, le_rfl, by simp⟩
  · exact hopen

theorem releaseSocket_unrelated (w : WebSocketImpl) :
    Unrelated w w.releaseSocket.1 w.releaseSocket.2 := by
  refine ⟨rfl, rfl, ?_, by simp [releaseSocket, Event.isQuiet]⟩
  simp [releaseSocket]

theorem processConnection_unrelated (hstate : w.mReadyState = .connecting) (expired : Bool)
    (v : Option UInt8) :
    Unrelated w (w.processConnection expired v).1 (w.processConnection expired v).2 := by
  unfold processConnection
  split_ifs
  · exact .refl w
  · exact releaseSocket_unrelated w
  cases v with
  | none => exact .refl w
  | some c =>
    simp only
    split_ifs
    · have hline := processLine_unrelated (w := (w.storeChar c).setConnection
        (cutLine (w.storeChar c).mConnectionBuffer (w.storeChar c).mConnectionIndex) 0) hstate
      have hset : Unrelated w ((w.storeChar c).setConnection
          (cutLine (w.storeChar c).mConnectionBuffer (w.storeChar c).mConnectionIndex) 0)
          [.handshakeByte c] := ⟨rfl, rfl, le_rfl, by simp [Event.isQuiet]⟩
      unfold endLine
      simp only
      split_ifs
      · exact hset.trans hline
      · exact hset.trans (hline.trans (releaseSocket_unrelated _))
    · have hset : Unrelated w ((w.storeChar c).setConnection (w.storeChar c).mConnectionBuffer
          ((w.storeChar c).mConnectionIndex + 1)) [.handshakeByte c] :=
        ⟨rfl, rfl, le_rfl, by simp [Event.isQuiet]⟩
      unfold extendLine
      simp only
      split_ifs
      · exact hset.trans (releaseSocket_unrelated _)
      · exact hset

theorem receiveIteration_unrelated (w : WebSocketImpl) (callback : Bool) (r : RecvResult) :
    Unrelated w (w.receiveIteration callback r).1 (w.receiveIteration callback r).2.2 := by
  have hclosed (b : SimpleBuffer) (r : RecvResult) :
      Unrelated w ((w.setReceive b).setReadyState .closed) [.receiveFailed r, .socketClose] := by
    refine ⟨rfl, rfl, ?_, by simp [Event.isQuiet]⟩
    simp
  unfold receiveIteration
  simp only
  split_ifs
  · cases r with
    | data d => exact ⟨rfl, rfl, le_rfl, by simp [Event.isQuiet]⟩
    | wouldBlock => exact ⟨rfl, rfl, le_rfl, by simp⟩
    | endOfStream => exact hclosed _ _
    | error => exact hclosed _ _
  · exact ⟨rfl, rfl, le_rfl, by simp [Event.isQuiet]⟩

theorem leaveTransmit_unrelated (w : WebSocketImpl) (callback : Bool) :
    Unrelated w (w.leaveTransmit callback).1 (w.leaveTransmit callback).2.2 := by
  unfold leaveTransmit
  split_ifs with _ h
  · exact .refl w
  · exact ⟨rfl, rfl, by simp [h.2], by simp [Event.isQuiet]⟩
  · exact .refl w

/-- The bytes that the socket accepts leave the buffer at the front. -/
theorem transmitIteration_sends (hwf : w.mTransmitBuffer.WF) (callback : Bool) {r : SendResult}
    (hr : r.Valid w.mTransmitBuffer.getSize) :
    Sends w (w.transmitIteration callback r).1 (w.transmitIteration callback r).2.2 := by
  have hnone (w' : WebSocketImpl) (hb : w'.mTransmitBuffer = w.mTransmitBuffer)
      (hm : w'.mUseMask = w.mUseMask) (hrank : w.mReadyState.rank ≤ w'.mReadyState.rank)
      (r : SendResult) (hr : ∀ n, r ≠ .accepted n) :
      Sends w w' [.transmit w.mTransmitBuffer.getData r] := by
    have hacc : Event.acceptedBytes (.transmit w.mTransmitBuffer.getData r) = [] := by
      cases r <;> first | rfl | exact absurd rfl (hr _)
    refine ⟨⟨hb ▸ hwf, hm, fun _ => ?_⟩, fun _ => ?_, .of_not_queued hrank ?_⟩
    · simp [hacc, hb, Event.queuedBytes]
    · simp [Event.queuedBytes, Event.issuedBytes]
    · simp [Event.isQueued]
  have hrank : w.mReadyState.rank ≤ (w.setReadyState .closed).mReadyState.rank := by
    simp
  unfold transmitIteration
  simp only
  split_ifs
  · exact (leaveTransmit_unrelated w callback).sends hwf
  cases r with
  | accepted n =>
    obtain ⟨hwf', -, hdata⟩ := SimpleBuffer.consume_spec hwf n
    refine ⟨⟨hwf', rfl, fun _ => ?_⟩, fun _ => ?_, .of_not_queued le_rfl ?_⟩
    · simp [Event.acceptedBytes, Event.queuedBytes, hdata]
    · simp [Event.queuedBytes, Event.issuedBytes]
    · simp [Event.isQueued]
  | wouldBlock =>
    exact (hnone w rfl rfl le_rfl _ (by simp)).trans
      ((leaveTransmit_unrelated w callback).sends hwf)
  | zero =>
    have hclose : Unrelated (w.setReadyState .closed) (w.setReadyState .closed) [.socketClose] :=
      ⟨rfl, rfl, le_rfl, by simp [Event.isQuiet]⟩
    exact (hnone (w.setReadyState .closed) rfl rfl hrank _ (by simp)).trans (hclose.sends hwf)
  | error =>
    have hclose : Unrelated (w.setReadyState .closed) (w.setReadyState .closed) [.socketClose] :=
      ⟨rfl, rfl, le_rfl, by simp [Event.isQuiet]⟩
    exact (hnone (w.setReadyState .closed) rfl rfl hrank _ (by simp)).trans (hclose.sends hwf)

end WebSocketImpl

/-! ### Steps -/

namespace Session

variable {s t : Session} {i : Input}

/-- The sending side of every step. -/
theorem step_sends (hwf : s.impl.mTransmitBuffer.WF) (hs : s.Consistent)
    (h : s.step i = some (t, es)) (hpay : i.payload.length < 2 ^ 29)
    (hfront : ∀ key, i = .dispatch key → s.impl.FrontFits) : Sends s.impl t.impl es := by
  cases step_cases h with
  | call _ hcall =>
    obtain ⟨type, data, key, hframe, rfl⟩ | ⟨-, rfl⟩ := WebSocketImpl.call_cases hcall
    · have hlen : (data.getD []).length < 2 ^ 29 := by simpa [Input.payload, hframe] using hpay
      exact WebSocketImpl.sendData_sends hwf (Input.frame_ne_reserved hframe) hlen.le rfl key
    · exact WebSocketImpl.close_sends hwf
  | poll callback timeout _ =>
    refine Unrelated.sends ⟨rfl, rfl, le_rfl, ?_⟩ hwf
    unfold WebSocketImpl.poll
    split_ifs <;> simp [Event.isQuiet]
  | destroy => exact WebSocketImpl.close_sends hwf
  | connect expired v hstack =>
    exact (WebSocketImpl.processConnection_unrelated (hs.connecting _ hstack) expired v).sends hwf
  | receive => exact (WebSocketImpl.receiveIteration_unrelated _ _ _).sends hwf
  | transmit _ hr => exact WebSocketImpl.transmitIteration_sends hwf _ hr
  | dispatch key => exact WebSocketImpl.dispatchIteration_sends hwf (hfront key rfl) key
  | ret => exact (WebSocketImpl.finishDelivery_unrelated _ _ _).sends hwf
  | destroyLoop timedOut _ _ hes =>
    refine Unrelated.sends ⟨rfl, rfl, le_rfl, ?_⟩ hwf
    rcases hes with rfl | rfl <;> simp [Event.isQuiet]

end Session

end WsClient
