import WsClient.Observation

/-!
# The life of a connection

The ready state moves forward only, the functions on the stack fit the ready state, and the frames
of a connection come after its handshake. Nothing here depends on the sizes of payloads or frames.

The one way around the handshake is to close a connection that is still `CONNECTING`: `poll` then
treats it like one that has been `OPEN`. `frames_after_handshake` is the order of events in all
other runs, and `frames_before_handshake` a run in which the close frame goes out in place of the
handshake.

## Main definitions

* `Session.Consistent`: the stack fits the ready state.
* `Session.Constructed`: the sessions that the constructors start.

## Main results

* `Session.step_rank_le`, `Session.step_consistent`: what a step keeps.
* `Session.frames_after_handshake`.
-/

namespace WsClient

namespace WebSocketImpl

variable {w : WebSocketImpl}

/-! ### The ready state -/

@[simp] theorem addTransmit_mReadyState (w : WebSocketImpl) (use : BufferUse) (d : Bytes) (n : ℕ) :
    (w.addTransmit use d n).1.mReadyState = w.mReadyState := rfl

@[simp] theorem addTransmit_mSocket (w : WebSocketImpl) (use : BufferUse) (d : Bytes) (n : ℕ) :
    (w.addTransmit use d n).1.mSocket = w.mSocket := rfl

/-- Queuing a frame changes nothing but the transmit buffer. -/
theorem exists_sendData_eq (w : WebSocketImpl) (type : Opcode) (data : Option Bytes) (n : ℕ)
    (key : MaskingKey) : ∃ b, (w.sendData type data n key).1 = w.setTransmit b := by
  unfold sendData
  split_ifs
  · exact ⟨_, rfl⟩
  · cases data <;> simp only [queuePayload] <;> split_ifs <;> exact ⟨_, rfl⟩

theorem sendData_mReadyState (w : WebSocketImpl) (type : Opcode) (data : Option Bytes) (n : ℕ)
    (key : MaskingKey) : (w.sendData type data n key).1.mReadyState = w.mReadyState := by
  obtain ⟨b, h⟩ := exists_sendData_eq w type data n key
  rw [h, setTransmit_mReadyState]

/-- Closing changes nothing but the transmit buffer and the ready state. -/
theorem exists_close_eq (w : WebSocketImpl) :
    w.close.1 = w ∨ ¬2 ≤ w.mReadyState.rank ∧
      ∃ b, w.close.1 = (w.setReadyState .closing).setTransmit b := by
  unfold close
  split_ifs with h
  · exact .inl rfl
  · exact .inr ⟨mt ReadyState.two_le_rank.mp h, _, rfl⟩

end WebSocketImpl

/-- The operation keeps the socket, and the ready state does not move back. -/
structure Keeps (w w' : WebSocketImpl) : Prop where
  socket : w'.mSocket = w.mSocket
  rank_le : w.mReadyState.rank ≤ w'.mReadyState.rank

theorem Keeps.trans {w w' w'' : WebSocketImpl} (h : Keeps w w') (h' : Keeps w' w'') : Keeps w w'' :=
  ⟨h'.socket.trans h.socket, h.rank_le.trans h'.rank_le⟩

namespace WebSocketImpl

variable {w : WebSocketImpl}

theorem sendData_keeps (w : WebSocketImpl) (type : Opcode) (data : Option Bytes) (n : ℕ)
    (key : MaskingKey) : Keeps w (w.sendData type data n key).1 := by
  obtain ⟨b, h⟩ := exists_sendData_eq w type data n key
  exact h ▸ ⟨rfl, le_rfl⟩

theorem close_keeps (w : WebSocketImpl) : Keeps w w.close.1 := by
  obtain h | ⟨hrank, b, h⟩ := exists_close_eq w
  · exact h.symm ▸ ⟨rfl, le_rfl⟩
  · refine h ▸ ⟨rfl, ?_⟩
    simp only [setTransmit_mReadyState, setReadyState_mReadyState, ReadyState.rank_closing]
    omega

theorem unmaskPayload_keeps (w : WebSocketImpl) (ws : WsHeader) :
    Keeps w (w.unmaskPayload ws).1 := by
  unfold unmaskPayload
  split_ifs <;> exact ⟨rfl, le_rfl⟩

theorem finishDelivery_keeps (w : WebSocketImpl) (frameSize : ℕ) (clear : Bool) :
    Keeps w (w.finishDelivery frameSize clear).1 := by
  cases clear <;> exact ⟨rfl, le_rfl⟩

theorem dispatchData_keeps (w : WebSocketImpl) (ws : WsHeader) :
    Keeps w (w.dispatchData ws).1 := by
  refine (unmaskPayload_keeps w ws).trans ?_
  simp only [dispatchData, deliverAccumulated, deliverDirectly]
  split_ifs <;> exact ⟨rfl, le_rfl⟩

theorem dispatchFrame_keeps (w : WebSocketImpl) (ws : WsHeader) (key : MaskingKey) :
    Keeps w (w.dispatchFrame ws key).1 := by
  unfold dispatchFrame
  split
  · exact dispatchData_keeps w ws
  · exact dispatchData_keeps w ws
  · exact dispatchData_keeps w ws
  · exact ((unmaskPayload_keeps w ws).trans (sendData_keeps _ _ _ _ _)).trans ⟨rfl, le_rfl⟩
  · exact ⟨rfl, le_rfl⟩
  · exact close_keeps w
  · exact close_keeps w

@[simp] theorem unmaskPayload_mReadyState (w : WebSocketImpl) (ws : WsHeader) :
    (w.unmaskPayload ws).1.mReadyState = w.mReadyState := by
  unfold unmaskPayload
  split_ifs <;> rfl

/-- A frame that does not stop the loop does not concern the ready state. -/
theorem dispatchFrame_mReadyState {w : WebSocketImpl} {ws : WsHeader}
    (hop : ws.opcode.isStop = false) (key : MaskingKey) :
    (w.dispatchFrame ws key).1.mReadyState = w.mReadyState := by
  have hunmask := unmaskPayload_mReadyState w ws
  cases hdata : ws.opcode.isData with
  | true =>
    rw [dispatchFrame_of_isData hdata]
    obtain ⟨es, -, hstep⟩ := dispatchData_step w ws
    generalize w.dispatchData ws = r at hstep ⊢
    obtain ⟨w', flow, es'⟩ := r
    cases hstep <;> exact hunmask
  | false =>
    cases hws : ws.opcode <;> simp [hws, Opcode.isData, Opcode.isStop] at hdata hop
    · rw [dispatchFrame, hws]
      exact (sendData_mReadyState _ _ _ _ _).trans hunmask
    · rw [dispatchFrame, hws]
      rfl

theorem dispatchIteration_keeps (w : WebSocketImpl) (key : MaskingKey) :
    Keeps w (w.dispatchIteration key).1 := by
  obtain ⟨reads, -, ⟨es, -, heq, -⟩ | ⟨ws, -, -, -, heq⟩⟩ := dispatchIteration_cases w key
  · rw [heq]
    exact ⟨rfl, le_rfl⟩
  · rw [heq]
    exact dispatchFrame_keeps w ws key

theorem receiveIteration_keeps (w : WebSocketImpl) (callback : Bool) (r : RecvResult) :
    Keeps w (w.receiveIteration callback r).1 := by
  unfold receiveIteration
  simp only
  split_ifs
  · cases r <;> exact ⟨rfl, by simp⟩
  · exact ⟨rfl, le_rfl⟩

theorem leaveTransmit_keeps (w : WebSocketImpl) (callback : Bool) :
    Keeps w (w.leaveTransmit callback).1 := by
  unfold leaveTransmit
  split_ifs <;> exact ⟨rfl, by simp⟩

theorem transmitIteration_keeps (w : WebSocketImpl) (callback : Bool) (r : SendResult) :
    Keeps w (w.transmitIteration callback r).1 := by
  unfold transmitIteration
  split_ifs
  · exact leaveTransmit_keeps w callback
  · cases r with
    | wouldBlock => exact leaveTransmit_keeps w callback
    | _ => exact ⟨rfl, by simp⟩

end WebSocketImpl

/-- A function that waits for another function of the object to return. -/
def Activation.isCaller : Activation → Bool
  | .delivering _ _ => true
  | .destroying _ => true
  | _ => false

/-- A function that `poll` gets to only after the check for `CONNECTING`. -/
def Activation.isPast : Activation → Bool
  | .receiving _ | .transmitting _ | .dispatching | .delivering _ _ => true
  | _ => false

namespace Session

variable {s t : Session} {i : Input} {es : List Event}

/-- Only the innermost function can be in a loop of `poll`, the handshake goes on only while the
connection is `CONNECTING`, and the rest of `poll` only when it is not. -/
structure Consistent (s : Session) : Prop where
  connecting : ∀ rest, s.stack = .connecting :: rest → s.impl.mReadyState = .connecting
  past : ∀ a ∈ s.stack, a.isPast = true → 1 ≤ s.impl.mReadyState.rank
  callers : ∀ a ∈ s.stack.tail, a.isCaller = true

theorem consistent_start (w : WebSocketImpl) : (start w).Consistent :=
  ⟨fun _ h => by simp [start] at h, by simp [start], by simp [start]⟩

/-- The ready state does not move back. -/
theorem step_rank_le (hs : s.Consistent) (h : s.step i = some (t, es)) :
    s.impl.mReadyState.rank ≤ t.impl.mReadyState.rank := by
  cases step_cases h with
  | call _ hcall =>
    obtain ⟨_, _, _, _, rfl⟩ | ⟨_, rfl⟩ := WebSocketImpl.call_cases hcall
    · exact (WebSocketImpl.sendData_keeps _ _ _ _ _).rank_le
    · exact (WebSocketImpl.close_keeps _).rank_le
  | poll => exact le_rfl
  | destroy => exact (WebSocketImpl.close_keeps _).rank_le
  | connect expired v hstack =>
    simp [hs.connecting _ hstack]
  | receive => exact (WebSocketImpl.receiveIteration_keeps _ _ _).rank_le
  | transmit => exact (WebSocketImpl.transmitIteration_keeps _ _ _).rank_le
  | dispatch => exact (WebSocketImpl.dispatchIteration_keeps _ _).rank_le
  | ret => exact (WebSocketImpl.finishDelivery_keeps _ _ _).rank_le
  | destroyLoop => exact le_rfl

/-- At most one function is entered above the callers. -/
private theorem consistent_append {w : WebSocketImpl} (next rest : List Activation)
    (hrest : ∀ a ∈ rest, a.isCaller = true)
    (hpast : ∀ a ∈ next ++ rest, a.isPast = true → 1 ≤ w.mReadyState.rank)
    (hlen : next.length ≤ 1) (hnext : .connecting ∈ next → w.mReadyState = .connecting) :
    Consistent ⟨w, next ++ rest⟩ := by
  match next with
  | [] =>
    refine ⟨fun l hl => ?_, hpast, fun a ha => hrest a (List.mem_of_mem_tail ha)⟩
    have := hrest .connecting (by simp only [List.nil_append] at hl; simp [hl])
    cases this
  | [a] =>
    refine ⟨fun l hl => hnext ?_, hpast, hrest⟩
    obtain ⟨rfl, -⟩ : a = .connecting ∧ rest = l := by simpa using hl
    exact List.mem_singleton_self _

theorem Consistent.callers_of_cons {a : Activation} {rest : List Activation} (hs : s.Consistent)
    (h : s.stack = a :: rest) : ∀ a ∈ rest, a.isCaller = true := by
  have := hs.callers
  rwa [h] at this

/-- When the application runs, all functions that have been entered wait for it. -/
theorem Consistent.callers_of_callable (hs : s.Consistent) (h : callable s.stack = true) :
    ∀ a ∈ s.stack, a.isCaller = true := by
  have hc := hs.callers
  revert h hc
  cases s.stack with
  | nil => simp
  | cons a rest => cases a <;> simp [callable, Activation.isCaller]

theorem length_poll_le (w : WebSocketImpl) (callback : Bool) (timeout : ℤ) :
    (w.poll callback timeout).1.length ≤ 1 := by
  unfold WebSocketImpl.poll
  split_ifs <;> simp

theorem connecting_mem_poll {w : WebSocketImpl} {callback : Bool} {timeout : ℤ}
    (h : .connecting ∈ (w.poll callback timeout).1) : w.mReadyState = .connecting := by
  unfold WebSocketImpl.poll at h
  split_ifs at h <;> first | assumption | simp at h

/-- A loop of `poll` is entered only past the check for `CONNECTING`. -/
theorem isPast_of_mem_poll {w : WebSocketImpl} {callback : Bool} {timeout : ℤ} {a : Activation}
    (h : a ∈ (w.poll callback timeout).1) (ha : a.isPast = true) : 1 ≤ w.mReadyState.rank := by
  unfold WebSocketImpl.poll at h
  split_ifs at h
  · simp at h
  · rw [List.mem_singleton.mp h] at ha
    cases ha
  · simp at h
  · simp at h
  · cases hstate : w.mReadyState <;> simp_all

theorem step_consistent (hs : s.Consistent) (h : s.step i = some (t, es)) : t.Consistent := by
  have hrank := step_rank_le hs h
  have hold : ∀ a ∈ s.stack, a.isPast = true → 1 ≤ t.impl.mReadyState.rank := fun a ha hp =>
    (hs.past a ha hp).trans hrank
  cases step_cases h with
  | call hc _ =>
    exact consistent_append [] _ (hs.callers_of_callable hc) hold (by simp) (by simp)
  | poll callback timeout hc =>
    refine consistent_append _ _ (hs.callers_of_callable hc) (fun a ha hp => ?_)
      (length_poll_le _ _ _) connecting_mem_poll
    exact (List.mem_append.mp ha).elim (isPast_of_mem_poll · hp) (hold a · hp)
  | destroy =>
    exact consistent_append [.destroying false] [] (by simp)
      (by simp [Activation.isPast]) (by simp) (by simp)
  | connect expired v hstack =>
    exact consistent_append [] _ (hs.callers_of_cons hstack)
      (fun a ha => hold a (hstack ▸ List.mem_cons_of_mem _ ha)) (by simp) (by simp)
  | receive hstack hr =>
    have hhead := hold _ (hstack ▸ List.mem_cons_self) rfl
    refine consistent_append _ _ (hs.callers_of_cons hstack) (fun _ _ _ => hhead) ?_ ?_ <;>
      unfold WebSocketImpl.receiveIteration WebSocketImpl.leaveReceive <;> grind
  | transmit hstack hr =>
    have hhead := hold _ (hstack ▸ List.mem_cons_self) rfl
    refine consistent_append _ _ (hs.callers_of_cons hstack) (fun _ _ _ => hhead) ?_ ?_ <;>
      unfold WebSocketImpl.transmitIteration WebSocketImpl.leaveTransmit
        WebSocketImpl.beginDispatch <;> grind
  | dispatch key hstack =>
    have hhead := hold _ (hstack ▸ List.mem_cons_self) rfl
    refine consistent_append _ _ (hs.callers_of_cons hstack) (fun _ _ _ => hhead) ?_ ?_ <;>
      cases (s.impl.dispatchIteration key).2.1 <;> simp [WebSocketImpl.Flow.next]
  | ret hstack =>
    have hhead := hold _ (hstack ▸ List.mem_cons_self) rfl
    exact consistent_append [.dispatching] _ (hs.callers_of_cons hstack)
      (fun _ _ _ => hhead) (by simp) (by simp)
  | destroyLoop timedOut hstack hnext _ =>
    have hrest := hs.callers_of_cons hstack
    have hpast := fun a ha => hold a (hstack ▸ List.mem_cons_of_mem _ ha)
    rcases hnext with rfl | rfl | rfl
    · exact consistent_append _ _ hrest (by simpa [Activation.isPast] using hpast) (by simp)
        (by simp)
    · exact consistent_append _ _ hrest (by simpa [Activation.isPast] using hpast) (by simp)
        (by simp)
    · rw [List.append_assoc]
      refine consistent_append _ _ ?_ (fun a ha hp => ?_) (length_poll_le _ _ _) connecting_mem_poll
      · simpa [Activation.isCaller] using hrest
      · refine (List.mem_append.mp ha).elim (isPast_of_mem_poll · hp) fun ha => ?_
        rcases List.mem_cons.mp ha with rfl | ha
        · cases hp
        · exact hpast a ha hp

/-! ### The order of handshake and frames -/

end Session

/-- Bytes of a frame go through the socket or through the frame loop. -/
def Event.isFrame : Event → Bool
  | .transmit _ _ | .parsed _ _ | .access _ _ _ => true
  | _ => false

namespace Event

variable {e : Event}

theorem acceptedBytes_of_isFrame (h : e.isFrame = false) : e.acceptedBytes = [] := by
  cases e <;> first | rfl | cases h

theorem parsedBelow_of_isFrame (h : e.isFrame = false) (bound : ℕ) : e.ParsedBelow bound := by
  cases e <;> trivial

end Event

namespace WebSocketImpl

theorem sendData_isFrame (w : WebSocketImpl) (type : Opcode) (data : Option Bytes) (n : ℕ)
    (key : MaskingKey) : ∀ e ∈ (w.sendData type data n key).2, e.isFrame = false := by
  unfold sendData
  split_ifs
  · simp [Event.isFrame]
  · cases data <;> simp only [queuePayload, addTransmit] <;> grind [Event.isFrame]

theorem close_isFrame (w : WebSocketImpl) : ∀ e ∈ w.close.2, e.isFrame = false := by
  unfold close
  split_ifs
  · simp [Event.isFrame]
  · simp only [addTransmit]
    grind [Event.isFrame]

/-- A part of the handshake touches no frame, and the connection is open after it only if the
handshake is complete. -/
structure Handshakes (w' : WebSocketImpl) (es : List Event) : Prop where
  isFrame : ∀ e ∈ es, e.isFrame = false
  not_closing : w'.mReadyState ≠ .closing
  opened : w'.mReadyState = .opened → .handshakeDone ∈ es

theorem releaseSocket_handshakes (w : WebSocketImpl) :
    Handshakes w.releaseSocket.1 w.releaseSocket.2 :=
  ⟨by simp [releaseSocket, Event.isFrame], by simp [releaseSocket], by simp [releaseSocket]⟩

/-- Nothing happens, and the connection is still `CONNECTING`. -/
theorem handshakes_of_connecting {w' : WebSocketImpl} {es : List Event}
    (hstate : w'.mReadyState = .connecting) (hes : ∀ e ∈ es, e.isFrame = false) :
    Handshakes w' es := ⟨hes, by simp [hstate], by simp [hstate]⟩

theorem Handshakes.cons {w' : WebSocketImpl} {e : Event} {es : List Event} (h : Handshakes w' es)
    (he : e.isFrame = false) : Handshakes w' (e :: es) :=
  ⟨by simpa [he] using h.isFrame, h.not_closing, fun ho => List.mem_cons_of_mem _ (h.opened ho)⟩

theorem processLine_handshakes {w : WebSocketImpl} (hstate : w.mReadyState = .connecting) :
    Handshakes w.processLine.1 w.processLine.2.2 := by
  have hopen : Handshakes w.openConnection.1 w.openConnection.2 :=
    ⟨by simp [openConnection, Event.isFrame], by simp [openConnection], by simp [openConnection]⟩
  have hnext (w' : WebSocketImpl) (h : w'.mReadyState = w.mReadyState) : Handshakes w' [] :=
    handshakes_of_connecting (h.trans hstate) (by simp)
  unfold processLine
  split
  · split_ifs
    · exact hopen
    · exact hnext w rfl
  · split_ifs
    · exact handshakes_of_connecting hstate (by simp [Event.isFrame])
    · exact hnext w rfl
    · exact hnext _ rfl
    · exact hnext w rfl
  · exact hnext _ rfl
  · exact hnext _ rfl
  · exact hnext _ rfl
  · exact hnext _ rfl
  · exact hopen

theorem processConnection_handshakes {w : WebSocketImpl} (hstate : w.mReadyState = .connecting)
    (expired : Bool) (v : Option UInt8) :
    Handshakes (w.processConnection expired v).1 (w.processConnection expired v).2 := by
  unfold processConnection
  split_ifs
  · exact handshakes_of_connecting hstate (by simp)
  · exact releaseSocket_handshakes w
  cases v with
  | none => exact handshakes_of_connecting hstate (by simp)
  | some c =>
    refine Handshakes.cons ?_ rfl
    split_ifs
    · have hline := processLine_handshakes (w := (w.storeChar c).setConnection
        (cutLine (w.storeChar c).mConnectionBuffer (w.storeChar c).mConnectionIndex) 0) hstate
      unfold endLine
      simp only
      split_ifs
      · exact hline
      · have hrelease := releaseSocket_handshakes ((w.storeChar c).setConnection
          (cutLine (w.storeChar c).mConnectionBuffer (w.storeChar c).mConnectionIndex)
          0).processLine.1
        refine ⟨fun e he => (List.mem_append.mp he).elim (hline.isFrame e) (hrelease.isFrame e),
          hrelease.not_closing, fun ho => ?_⟩
        exact List.mem_append_right _ (hrelease.opened ho)
    · unfold extendLine
      simp only
      split_ifs
      · exact releaseSocket_handshakes _
      · exact handshakes_of_connecting hstate (by simp)

end WebSocketImpl

namespace Session

variable {s t : Session} {i : Input} {es es' : List Event}

/-- Frames are touched only by the functions that `poll` gets to past the handshake. -/
theorem step_isFrame (hs : s.Consistent) (h : s.step i = some (t, es'))
    (hframe : ∃ e ∈ es', e.isFrame = true) : ∃ a ∈ s.stack, a.isPast = true := by
  obtain ⟨e, he, hf⟩ := hframe
  have hno (hall : ∀ e ∈ es', e.isFrame = false) : False := by simp [hall e he] at hf
  cases step_cases h with
  | call _ hcall =>
    obtain ⟨_, _, _, _, rfl⟩ | ⟨_, rfl⟩ := WebSocketImpl.call_cases hcall
    · exact (hno (WebSocketImpl.sendData_isFrame _ _ _ _ _)).elim
    · exact (hno (WebSocketImpl.close_isFrame _)).elim
  | poll =>
    refine (hno ?_).elim
    unfold WebSocketImpl.poll
    split_ifs <;> simp [Event.isFrame]
  | destroy => exact (hno (WebSocketImpl.close_isFrame _)).elim
  | connect expired v hstack =>
    exact (hno
      (WebSocketImpl.processConnection_handshakes (hs.connecting _ hstack) _ _).isFrame).elim
  | receive hstack | transmit hstack | dispatch _ hstack | ret hstack =>
    exact ⟨_, hstack ▸ List.mem_cons_self, rfl⟩
  | destroyLoop timedOut _ _ hes =>
    refine (hno ?_).elim
    rcases hes with rfl | rfl <;> simp [Event.isFrame]

/-- The functions past the handshake are entered from one another, or by `poll` on a connection
that has a socket and is neither `CONNECTING` nor `CLOSED`. -/
theorem step_isPast (h : s.step i = some (t, es')) {a : Activation} (ha : a ∈ t.stack)
    (hp : a.isPast = true) :
    (∃ a ∈ s.stack, a.isPast = true) ∨
      s.impl.mSocket = true ∧ 1 ≤ s.impl.mReadyState.rank ∧ s.impl.mReadyState.rank ≤ 2 := by
  have hpoll {callback : Bool} {timeout : ℤ} (ha : a ∈ (s.impl.poll callback timeout).1) :
      s.impl.mSocket = true ∧ 1 ≤ s.impl.mReadyState.rank ∧ s.impl.mReadyState.rank ≤ 2 := by
    have hrank := isPast_of_mem_poll ha hp
    unfold WebSocketImpl.poll at ha
    split_ifs at ha with hsock _ _
    · simp at ha
    · simp only [List.mem_singleton] at ha
      subst ha
      cases hp
    · simp at ha
    · simp at ha
    · refine ⟨by simpa using hsock, hrank, ?_⟩
      cases hstate : s.impl.mReadyState <;> simp_all
  cases step_cases h with
  | call => exact .inl ⟨a, ha, hp⟩
  | poll callback timeout =>
    exact (List.mem_append.mp ha).elim (fun ha => .inr (hpoll ha)) fun ha => .inl ⟨a, ha, hp⟩
  | destroy =>
    rw [List.mem_singleton.mp ha] at hp
    cases hp
  | connect expired v hstack => exact .inl ⟨a, hstack ▸ List.mem_cons_of_mem _ ha, hp⟩
  | receive hstack | transmit hstack | dispatch _ hstack | ret hstack =>
    exact .inl ⟨_, hstack ▸ List.mem_cons_self, rfl⟩
  | destroyLoop timedOut hstack hnext _ =>
    rcases List.mem_append.mp ha with ha | ha
    · rcases hnext with rfl | rfl | rfl
      · rw [List.mem_singleton.mp ha] at hp
        cases hp
      · rw [List.mem_singleton.mp ha] at hp
        cases hp
      · refine (List.mem_append.mp ha).elim (fun ha => .inr (hpoll ha)) fun ha => ?_
        rw [List.mem_singleton.mp ha] at hp
        cases hp
    · exact .inl ⟨a, hstack ▸ List.mem_cons_of_mem _ ha, hp⟩

/-- The invariant of a run in which the handshake is not cut off by closing. -/
structure AfterHandshake (es : List Event) (s : Session) : Prop where
  consistent : s.Consistent
  opened : s.impl.mSocket = true → 1 ≤ s.impl.mReadyState.rank → s.impl.mReadyState.rank ≤ 2 →
    .handshakeDone ∈ es
  past : ∀ a ∈ s.stack, a.isPast = true → .handshakeDone ∈ es
  order : Machine.Precedes (· = .handshakeDone) (·.isFrame = true) es

/-- Neither `close` nor the destructor is called while the connection has a socket and is still
`CONNECTING`. -/
def NoEarlyClose (s : Session) (i : Input) (_ : List Event) : Prop :=
  s.impl.mReadyState = .connecting → s.impl.mSocket = true → i ≠ .close ∧ i ≠ .destroy

instance (s : Session) (i : Input) (es : List Event) : Decidable (NoEarlyClose s i es) :=
  inferInstanceAs (Decidable (_ → _ → _))

private theorem close_opened (hs : AfterHandshake es s)
    (hguard : s.impl.mReadyState = .connecting → s.impl.mSocket = false)
    (hsock : s.impl.close.1.mSocket = true) (h2 : s.impl.close.1.mReadyState.rank ≤ 2) :
    .handshakeDone ∈ es := by
  have hsock' : s.impl.mSocket = true := (WebSocketImpl.close_keeps _).socket.symm.trans hsock
  by_cases hrank : s.impl.mReadyState.rank = 0
  · have hstate : s.impl.mReadyState = .connecting := by
      cases hst : s.impl.mReadyState <;> simp_all
    simp [hguard hstate] at hsock'
  · exact hs.opened hsock' (by omega) ((WebSocketImpl.close_keeps _).rank_le.trans h2)

/-- One step of a run in which the handshake is not cut off. -/
theorem step_afterHandshake (hs : AfterHandshake es s) (h : s.step i = some (t, es'))
    (hguard : NoEarlyClose s i es') : AfterHandshake (es ++ es') t := by
  refine ⟨step_consistent hs.consistent h, fun hsock h1 h2 => ?_, fun a ha hp => ?_,
    hs.order.append fun e he hf => ?_⟩
  · cases step_cases h with
    | call _ hcall =>
      refine List.mem_append_left _ ?_
      obtain ⟨type, data, key, -, rfl⟩ | ⟨rfl, rfl⟩ := WebSocketImpl.call_cases hcall
      · obtain ⟨b, hb⟩ :=
          WebSocketImpl.exists_sendData_eq s.impl type data (data.getD []).length key
        rw [hb] at hsock h1 h2
        exact hs.opened hsock h1 h2
      · refine close_opened hs (fun hst => ?_) hsock h2
        by_contra hne
        exact (hguard hst (by simpa using hne)).1 rfl
    | poll => exact List.mem_append_left _ (hs.opened hsock h1 h2)
    | destroy =>
      refine List.mem_append_left _ (close_opened hs (fun hst => ?_) hsock h2)
      by_contra hne
      exact (hguard hst (by simpa using hne)).2 rfl
    | connect expired v hstack =>
      have hspec := WebSocketImpl.processConnection_handshakes
        (hs.consistent.connecting _ hstack) expired v
      refine List.mem_append_right _ (hspec.opened ?_)
      have := hspec.not_closing
      simp only at h1 h2
      cases hst : (s.impl.processConnection expired v).1.mReadyState <;> simp_all
    | receive hstack | transmit hstack | dispatch _ hstack | ret hstack =>
      exact List.mem_append_left _ (hs.past _ (hstack ▸ List.mem_cons_self) rfl)
    | destroyLoop => exact List.mem_append_left _ (hs.opened hsock h1 h2)
  · refine List.mem_append_left _ ?_
    obtain ⟨a', ha', hp'⟩ | ⟨hsock, h1, h2⟩ := step_isPast h ha hp
    · exact hs.past a' ha' hp'
    · exact hs.opened hsock h1 h2
  · obtain ⟨a, ha, hp⟩ := step_isFrame hs.consistent h ⟨e, he, hf⟩
    exact ⟨_, hs.past a ha hp, rfl⟩

/-- The sessions that the constructors start. -/
inductive Constructed : Session → Prop
  | server (p : Platform) (clientSocket useMask : Bool) :
    Constructed (start (.ofSocket p clientSocket useMask))
  | client (p : Platform) (url origin : Bytes) (useMask connected : Bool) :
    Constructed (start (WebSocketImpl.ofUrl p url origin useMask connected).1)

/-- A constructed object is waiting for the handshake, or has no socket. -/
theorem Constructed.spec (hs : Constructed s) :
    s.stack = [] ∧ (s.impl.mReadyState = .connecting ∨ s.impl.mReadyState = .opened) ∧
      (s.impl.mReadyState = .opened → s.impl.mSocket = false) := by
  cases hs with
  | server => exact ⟨rfl, .inl rfl, fun h => by cases h⟩
  | client p url origin useMask connected =>
    refine ⟨rfl, ?_⟩
    simp only [start, WebSocketImpl.ofUrl]
    split_ifs
    · exact ⟨.inr rfl, fun _ => rfl⟩
    · exact ⟨.inr rfl, fun _ => rfl⟩
    · split
      · exact ⟨.inr rfl, fun _ => rfl⟩
      · split_ifs
        · exact ⟨.inl rfl, fun h => by cases h⟩
        · exact ⟨.inr rfl, fun _ => rfl⟩

theorem newBuffer_spec (heap : ℕ → Block UInt8) :
    (WebSocketImpl.newBuffer heap).WF ∧ (WebSocketImpl.newBuffer heap).getData = [] :=
  ⟨SimpleBuffer.create_wf heap (by decide) (by decide), SimpleBuffer.getData_create heap _ _⟩

/-- The buffers of a constructed object are new. -/
theorem Constructed.buffers (hs : Constructed s) :
    ∃ heap : Fin 3 → ℕ → Block UInt8,
      s.impl.mReceiveBuffer = WebSocketImpl.newBuffer (heap 0) ∧
        s.impl.mTransmitBuffer = WebSocketImpl.newBuffer (heap 1) ∧
        s.impl.mReceivedData = WebSocketImpl.newBuffer (heap 2) := by
  cases hs with
  | server p => exact ⟨p.heap, rfl, rfl, rfl⟩
  | client p url origin useMask connected =>
    refine ⟨p.heap, ?_⟩
    simp only [start, WebSocketImpl.ofUrl]
    split_ifs
    · exact ⟨rfl, rfl, rfl⟩
    · exact ⟨rfl, rfl, rfl⟩
    · split
      · exact ⟨rfl, rfl, rfl⟩
      · split_ifs <;> exact ⟨rfl, rfl, rfl⟩

theorem Constructed.consistent (hs : Constructed s) : s.Consistent := by
  cases hs <;> exact consistent_start _

theorem Constructed.afterHandshake (hs : Constructed s) : AfterHandshake [] s := by
  obtain ⟨hstack, hstate, hsock⟩ := hs.spec
  refine ⟨hs.consistent, fun h h1 _ => ?_, fun a ha => ?_, .nil⟩
  · rcases hstate with hst | hst
    · simp [hst] at h1
    · simp [hsock hst] at h
  · simp [hstack] at ha

/-- Unless the connection is closed while it is still `CONNECTING`, no byte of a frame is handed
to the socket and no received byte gets to the frame loop before the handshake is complete; if the
handshake never completes, none ever is. -/
theorem frames_after_handshake {tr : List (Input × List Event)} (hs : Constructed s)
    (h : sessionMachine.Run NoEarlyClose s tr t) :
    Machine.Precedes (· = .handshakeDone) (·.isFrame = true) (Machine.events tr) ∧
      (.handshakeDone ∉ Machine.events tr → ∀ e ∈ Machine.events tr, e.isFrame = false) := by
  have horder := (h.invariant_events (P := AfterHandshake) hs.afterHandshake
    fun _ _ _ _ _ ih hstep hguard => step_afterHandshake ih hstep hguard).order
  refine ⟨horder, fun hno e he => ?_⟩
  obtain ⟨pre, post, heq⟩ := List.append_of_mem he
  cases hf : e.isFrame with
  | false => rfl
  | true =>
    obtain ⟨_, he', rfl⟩ := horder pre e post heq hf
    exact absurd (heq ▸ List.mem_append_left _ he') hno

/-- A platform whose memory is all zero. -/
def zeroPlatform : Platform := ⟨false, fun _ _ => ⟨0, 0, fun _ => 0⟩, fun _ => 0⟩

/-- The inputs of a connection that reads the given bytes as its handshake. -/
def handshakeInputs (s : Bytes) : List Input :=
  s.flatMap fun b => [.poll true 0, .connect false (some b)]

/-- A server that takes a request and sends a message behind it. -/
theorem frames_after_handshake_server :
    ∃ tr t, sessionMachine.Run NoEarlyClose (start (.ofSocket zeroPlatform true true)) tr t ∧
      (Machine.events tr).any Event.isFrame = true ∧
      Machine.Precedes (· = .handshakeDone) (·.isFrame = true) (Machine.events tr) := by
  obtain ⟨tr, t, hrun, hframe⟩ := Machine.exists_run_of_exec (M := sessionMachine)
    (G := NoEarlyClose) (s := start (.ofSocket zeroPlatform true true))
    (l := handshakeInputs (ascii "GET / HTTP/1.1\r\n\r\n") ++
      [.sendText (some (ascii "A")) 0, .poll true 0, .receive .wouldBlock, .send (.accepted 7)])
    (P := fun r => (Machine.events r.2).any Event.isFrame) (by decide +kernel)
  exact ⟨tr, t, hrun, hframe, (frames_after_handshake (.server _ _ _) hrun).1⟩

/-- A connection that is closed while it is still `CONNECTING`: the next poll sends the close
frame, and no handshake has taken place. -/
theorem frames_before_handshake :
    ¬∀ (s t : Session) (tr : List (Input × List Event)), Constructed s →
      sessionMachine.Run Machine.anyStep s tr t →
        Machine.Precedes (· = .handshakeDone) (·.isFrame = true) (Machine.events tr) := by
  intro h
  obtain ⟨tr, t, hrun, hes⟩ := Machine.exists_run_of_exec (M := sessionMachine)
    (G := Machine.anyStep) (s := start (.ofSocket zeroPlatform true true))
    (l := [.close, .poll true 0, .receive .wouldBlock, .send (.accepted 6)])
    (P := fun r => Machine.events r.2 == [.closeCall .connecting,
      .added .closeFrame WebSocketImpl.closeFrame,
      .transmit WebSocketImpl.closeFrame (.accepted 6)]) (by decide +kernel)
  have horder := h _ t tr (.server _ _ _) hrun
  rw [beq_iff_eq.mp hes] at horder
  obtain ⟨e, he, rfl⟩ := horder [_, _] _ [] rfl rfl
  simp at he

end Session

end WsClient
