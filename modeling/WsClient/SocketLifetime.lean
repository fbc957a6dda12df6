import WsClient.Handshake
import WsClient.Wsocket

/-!
# The life of a socket

Which calls a connection makes on its socket, and which system calls `WsocketImpl` makes for them on
its descriptor. The object closes its socket when a transfer fails or the close frame is sent, and
releases it when the handshake fails or in the destructor; the application may call in between in
any order, also from the callback.

The calls are recorded along the runs of a session. A read that would block leaves no event, so the
calls of a step are read off the state and the input, too.

## Main definitions

* `SocketCall`, `Session.socketCalls`, `callMachine`: the calls on the socket.
* `SystemCall`, `WsocketImpl.perform`: the system calls.
* `SocketCall.AllowedAfter`: which call may come after which.
* `Session.Disciplined`: the invariant.

## Main results

* `Session.step_isInternal`: only the loops of `poll` and the handshake call the socket.
* `Session.step_disciplined`: one step.
* `Session.descriptor_lifetime`: the descriptor is not used after it is closed, and it is closed
  once.
-/

namespace WsClient

/-! ### The calls -/

/-- A call of a connection on its socket. -/
inductive SocketCall
  | receive (maxLen : ℕ)
  | send (data : Bytes)
  | disableNaglesAlgorithm
  | nullSelect (timeout : ℤ)
  | close
  | release
  deriving DecidableEq

/-- Whether the call transfers bytes. -/
def SocketCall.isTransfer : SocketCall → Bool
  | .receive _ | .send _ => true
  | _ => false

/-- Whether the socket stays open. -/
def SocketCall.isUse : SocketCall → Bool
  | .close | .release => false
  | _ => true

/-- After a socket is closed it is only released, or passed over by a wait; after it is released it
is not called. -/
def SocketCall.AllowedAfter : SocketCall → SocketCall → Prop
  | .release, _ => False
  | .close, c => c = .release ∨ ∃ timeout, c = .nullSelect timeout
  | _, _ => True

namespace Event

/-- The calls on the socket that leave an event. -/
def socketCalls : Event → List SocketCall
  | .received _ | .receiveFailed _ => [.receive maxReadSize]
  | .handshakeByte _ => [.receive 1]
  | .transmit data _ => [.send data]
  | .handshakeSend line => [.send line]
  | .handshakeDone => [.disableNaglesAlgorithm]
  | .socketClose => [.close]
  | .socketRelease => [.release]
  | .nullSelect timeout => [.nullSelect timeout]
  | .access _ _ _ | .parsed _ _ | .receiveMessage _ _ | .consumed _ | .sendData _ _ _ _
  | .closeCall _ | .added _ _ | .refused _ _ => []

/-- The event is not about the socket. -/
def isInternal (e : Event) : Bool := e.socketCalls.isEmpty

end Event

/-- The function calls the socket. -/
def Activation.isBusy : Activation → Bool
  | .connecting | .receiving _ | .transmitting _ => true
  | _ => false

namespace Session

/-- The calls on the socket that leave no event: reads for which there is nothing. -/
def silentCalls (s : Session) (i : Input) : List SocketCall :=
  match s.stack, i with
  | .connecting :: _, .connect false none => if s.impl.mSocket then [.receive 1] else []
  | .receiving _ :: _, .receive .wouldBlock =>
    if (s.impl.mReceiveBuffer.confirmCapacity maxReadSize).2 then [.receive maxReadSize] else []
  | _, _ => []

/-- The calls that a step makes on the socket. -/
def socketCalls (s : Session) (i : Input) : List SocketCall :=
  match s.step i with
  | none => []
  | some (_, es) => s.silentCalls i ++ es.flatMap Event.socketCalls

end Session

/-- The session, with the calls on the socket recorded along. -/
def callMachine : Machine (Session × List SocketCall) Input Event :=
  sessionMachine.withHistory fun calls s i => calls ++ s.socketCalls i

/-- A system call of `WsocketImpl`, with the descriptor it is about. -/
inductive SystemCall
  | recv (socket : ℤ) (maxLen : ℕ)
  | send (socket : ℤ) (data : Bytes)
  /-- `setsockopt` and `fcntl`, of `disableNaglesAlgorithm`. -/
  | setOptions (socket : ℤ)
  | select (timeout : ℤ)
  | closesocket (socket : ℤ)
  deriving DecidableEq

/-- The descriptor of a system call. -/
def SystemCall.socket? : SystemCall → Option ℤ
  | .recv socket _ | .send socket _ | .setOptions socket | .closesocket socket => some socket
  | .select _ => none

namespace WsocketImpl

/-- A method of `WsocketImpl`, with its system calls; `release` runs the destructor. -/
def perform (w : WsocketImpl) : SocketCall → WsocketImpl × List SystemCall
  | .receive maxLen => (w, if w.mSocket ≠ 0 then [.recv w.mSocket maxLen] else [])
  | .send data => (w, [.send w.mSocket data])
  | .disableNaglesAlgorithm => (w, [.setOptions w.mSocket])
  | .nullSelect timeout => (w, [.select timeout])
  | .close | .release =>
    (w.close.1, if w.mSocket ≠ 0 then [.closesocket w.mSocket] else [])

/-- The system calls of a sequence of methods. -/
def systemCalls : WsocketImpl → List SocketCall → List SystemCall
  | _, [] => []
  | w, c :: calls => (w.perform c).2 ++ systemCalls (w.perform c).1 calls

end WsocketImpl

/-! ### Which steps call the socket -/

theorem Event.isInternal_of_isQueuing {e : Event} (h : e.isQueuing = true) :
    e.isInternal = true := by
  cases e <;> first | rfl | cases h

namespace WebSocketImpl

theorem dispatchData_isInternal (w : WebSocketImpl) (ws : WsHeader) :
    ∀ e ∈ (w.dispatchData ws).2.2, e.isInternal = true := by
  simp only [dispatchData, unmaskPayload, deliverDirectly, appendFragment, deliverAccumulated]
  split_ifs <;> simp [Event.isInternal, Event.socketCalls, finishDelivery, consumeFrame]

theorem dispatchPing_isInternal (w : WebSocketImpl) (ws : WsHeader) (key : MaskingKey) :
    ∀ e ∈ (w.dispatchPing ws key).2.2, e.isInternal = true := by
  have hunmask : ∀ e ∈ (w.unmaskPayload ws).2, e.isInternal = true := by
    unfold unmaskPayload
    split_ifs <;> simp [Event.isInternal, Event.socketCalls]
  intro e he
  simp only [dispatchPing, List.mem_append] at he
  rcases he with ((he | he) | he) | he
  · exact hunmask e he
  · split_ifs at he
    · rw [List.mem_singleton.mp he]
      rfl
    · cases he
  · exact Event.isInternal_of_isQueuing (sendData_isQueuing _ _ _ _ _ e he)
  · rw [consumeFrame, List.mem_singleton] at he
    rw [he]
    rfl

theorem dispatchIteration_isInternal (w : WebSocketImpl) (key : MaskingKey) :
    ∀ e ∈ (w.dispatchIteration key).2.2, e.isInternal = true := by
  have hframe (ws : WsHeader) : ∀ e ∈ (w.dispatchFrame ws key).2.2, e.isInternal = true := by
    unfold dispatchFrame
    split
    · exact dispatchData_isInternal w ws
    · exact dispatchData_isInternal w ws
    · exact dispatchData_isInternal w ws
    · exact dispatchPing_isInternal w ws key
    · simp [consumeFrame, Event.isInternal, Event.socketCalls]
    · exact fun e he => Event.isInternal_of_isQueuing (close_isQueuing w e he)
    · exact fun e he => Event.isInternal_of_isQueuing (close_isQueuing w e he)
  have hreads {reads : List ℕ} {e : Event}
      (he : e ∈ reads.map fun i => Event.access .header i 1) : e.isInternal = true := by
    obtain ⟨i, -, rfl⟩ := List.mem_map.mp he
    rfl
  obtain ⟨reads, -, ⟨es, hes, heq, -⟩ | ⟨ws, -, -, -, heq⟩⟩ := dispatchIteration_cases w key
  · rw [heq]
    intro e he
    refine (List.mem_append.mp he).elim hreads fun he => ?_
    obtain ⟨ws, n, rfl⟩ := hes e he
    rfl
  · rw [heq]
    intro e he
    refine (List.mem_append.mp he).elim hreads fun he => ?_
    rcases List.mem_cons.mp he with rfl | he
    · rfl
    · exact hframe ws e he

end WebSocketImpl

namespace Session

variable {s t : Session} {i : Input} {es : List Event} {calls : List SocketCall}

/-- Only the handshake and the first two loops of `poll` transfer bytes. -/
theorem step_isInternal (h : s.step i = some (t, es))
    (hconnecting : ∀ rest, s.stack ≠ .connecting :: rest)
    (hreceiving : ∀ callback rest, s.stack ≠ .receiving callback :: rest)
    (htransmitting : ∀ callback rest, s.stack ≠ .transmitting callback :: rest) :
    ∀ e ∈ es, ∀ c ∈ e.socketCalls, c.isTransfer = false := by
  have hinternal {es : List Event} (hes : ∀ e ∈ es, e.isInternal = true) :
      ∀ e ∈ es, ∀ c ∈ e.socketCalls, c.isTransfer = false := fun e he c hc => by
    rw [List.isEmpty_iff.mp (hes e he)] at hc
    cases hc
  cases step_cases h with
  | call _ hcall =>
    obtain ⟨_, _, _, _, rfl⟩ | ⟨_, rfl⟩ := WebSocketImpl.call_cases hcall
    · exact hinternal fun e he =>
        Event.isInternal_of_isQueuing (WebSocketImpl.sendData_isQueuing _ _ _ _ _ e he)
    · exact hinternal fun e he =>
        Event.isInternal_of_isQueuing (WebSocketImpl.close_isQueuing _ e he)
  | poll =>
    unfold WebSocketImpl.poll
    split_ifs <;> simp [Event.socketCalls, SocketCall.isTransfer]
  | destroy =>
    exact hinternal fun e he =>
      Event.isInternal_of_isQueuing (WebSocketImpl.close_isQueuing _ e he)
  | connect _ _ hstack => exact absurd hstack (hconnecting _)
  | receive hstack => exact absurd hstack (hreceiving _ _)
  | transmit hstack => exact absurd hstack (htransmitting _ _)
  | dispatch => exact hinternal (WebSocketImpl.dispatchIteration_isInternal _ _)
  | ret =>
    simp [WebSocketImpl.finishDelivery, WebSocketImpl.consumeFrame, Event.socketCalls]
  | destroyLoop timedOut _ _ hes =>
    rcases hes with rfl | rfl <;> simp [Event.socketCalls, SocketCall.isTransfer]

/-! ### One step -/

/-- What the calls so far have made of the socket. -/
structure Disciplined (calls : List SocketCall) (s : Session) : Prop where
  consistent : s.Consistent
  ordered : calls.Pairwise SocketCall.AllowedAfter
  busy : ∀ a ∈ s.stack, a.isBusy = true → s.impl.mSocket = true ∧ .close ∉ calls
  closed : .close ∈ calls → s.impl.mReadyState = .closed
  released : .release ∈ calls ↔ s.impl.mSocket = false ∨ s.stack.head? = some .destroyed

theorem socketCalls_of_step (h : s.step i = some (t, es)) :
    s.socketCalls i = s.silentCalls i ++ es.flatMap Event.socketCalls := by
  rw [socketCalls, h]

theorem silentCalls_eq_nil (hconnect : i ≠ .connect false none)
    (hreceive : i ≠ .receive .wouldBlock) :
    s.silentCalls i = [] := by
  unfold silentCalls
  split
  · exact absurd rfl hconnect
  · exact absurd rfl hreceive
  · rfl

theorem flatMap_socketCalls_of_isInternal (h : ∀ e ∈ es, e.isInternal = true) :
    es.flatMap Event.socketCalls = [] :=
  List.flatMap_eq_nil_iff.mpr fun e he => List.isEmpty_iff.mp (h e he)

/-- Nothing follows the destructor. -/
theorem step_head (h : s.step i = some (t, es)) : s.stack.head? ≠ some .destroyed := by
  intro hhead
  obtain ⟨rest, hstack⟩ := List.head?_eq_some_iff.mp hhead
  have hnone : s.step i = none := by
    simp [step, hstack, WebSocketImpl.resume, enter, callable]
  simp [hnone] at h

theorem closed_of_step (hs : s.Consistent) (h : s.step i = some (t, es))
    (hclosed : s.impl.mReadyState = .closed) : t.impl.mReadyState = .closed := by
  have hrank := step_rank_le hs h
  rw [hclosed] at hrank
  cases hstate : t.impl.mReadyState <;> simp_all

/-- A step that does not call the socket. -/
theorem Disciplined.quiet (hs : Disciplined calls s) (h : s.step i = some (t, es))
    (hsock : t.impl.mSocket = s.impl.mSocket)
    (hbusy : ∀ a ∈ t.stack, a.isBusy = true →
      a ∈ s.stack ∨ s.impl.mSocket = true ∧ s.impl.mReadyState ≠ .closed)
    (hhead : s.impl.mSocket = true → t.stack.head? ≠ some .destroyed) : Disciplined calls t where
  consistent := step_consistent hs.consistent h
  ordered := hs.ordered
  busy a ha hb := by
    rw [hsock]
    exact (hbusy a ha hb).elim (hs.busy a · hb) fun ⟨hsock, hopen⟩ =>
      ⟨hsock, fun hclose => hopen (hs.closed hclose)⟩
  closed hclose := closed_of_step hs.consistent h (hs.closed hclose)
  released := by
    rw [hs.released, hsock, or_iff_left (step_head h)]
    cases hs : s.impl.mSocket with
    | false => simp
    | true => simp [hhead hs]

/-- A step that waits or releases the socket, which may be closed. -/
theorem Disciplined.late (hs : Disciplined calls s) (h : s.step i = some (t, es)) {c : SocketCall}
    (hc : SocketCall.AllowedAfter .close c) (hsock : s.impl.mSocket = true)
    (hsame : t.impl.mSocket = true) (hbusy : ∀ a ∈ t.stack, a.isBusy = false)
    (hreleased : c = .release ↔ t.stack.head? = some .destroyed) :
    Disciplined (calls ++ [c]) t := by
  have hrelease : .release ∉ calls := fun hr => by
    simpa [hsock, step_head h] using hs.released.mp hr
  have hne : .close ∉ [c] := by
    rintro hmem
    rw [← List.mem_singleton.mp hmem] at hc
    obtain hc | ⟨_, hc⟩ := hc <;> cases hc
  refine ⟨step_consistent hs.consistent h, List.pairwise_append.mpr ⟨hs.ordered, by simp, ?_⟩,
    fun a ha hb => ?_, fun hmem => ?_, ?_⟩
  · intro d hd c' hc'
    rw [List.mem_singleton.mp hc']
    cases d with
    | close => exact hc
    | release => exact absurd hd hrelease
    | _ => trivial
  · rw [hbusy a ha] at hb
    cases hb
  · exact closed_of_step hs.consistent h
      (hs.closed ((List.mem_append.mp hmem).resolve_right hne))
  · rw [List.mem_append, or_iff_right hrelease, List.mem_singleton, eq_comm, hreleased, hsame]
    simp

/-- A step that calls the socket while the function that calls it is the innermost. -/
theorem Disciplined.call (hs : Disciplined calls s) (h : s.step i = some (t, es))
    {cs : List SocketCall} (hsock : s.impl.mSocket = true) (hclose : .close ∉ calls)
    (hcs : cs.Pairwise SocketCall.AllowedAfter)
    (hbusy : ∀ a ∈ t.stack, a.isBusy = true → t.impl.mSocket = true ∧ .close ∉ cs)
    (hclosed : .close ∈ cs → t.impl.mReadyState = .closed)
    (hreleased : .release ∈ cs ↔ t.impl.mSocket = false ∨ t.stack.head? = some .destroyed) :
    Disciplined (calls ++ cs) t := by
  have hrelease : .release ∉ calls := fun hr => by
    simpa [hsock, step_head h] using hs.released.mp hr
  refine ⟨step_consistent hs.consistent h, List.pairwise_append.mpr ⟨hs.ordered, hcs, ?_⟩,
    fun a ha hb => ?_, fun hmem => ?_, ?_⟩
  · intro c hc c' _
    cases c with
    | close => exact absurd hc hclose
    | release => exact absurd hc hrelease
    | _ => trivial
  · rw [List.mem_append, not_or]
    exact ⟨(hbusy a ha hb).1, hclose, (hbusy a ha hb).2⟩
  · exact hclosed ((List.mem_append.mp hmem).resolve_left hclose)
  · rw [List.mem_append, or_iff_right hrelease, hreleased]

theorem pairwise_of_isUse {cs cs' : List SocketCall} (h : ∀ c ∈ cs, c.isUse = true)
    (h' : cs'.Pairwise SocketCall.AllowedAfter) :
    (cs ++ cs').Pairwise SocketCall.AllowedAfter := by
  induction cs with
  | nil => exact h'
  | cons c cs ih =>
    refine List.pairwise_cons.mpr
      ⟨fun c' _ => ?_, ih fun c' hc' => h c' (List.mem_cons_of_mem _ hc')⟩
    have hc := h c List.mem_cons_self
    cases c <;> trivial

/-- A line is processed on a socket that stays open. -/
theorem processLine_socketCalls (w : WebSocketImpl) :
    w.processLine.1.mSocket = w.mSocket ∧
      ∀ c ∈ w.processLine.2.2.flatMap Event.socketCalls, c.isUse = true := by
  have hopen : ∀ c ∈ w.openConnection.2.flatMap Event.socketCalls, c.isUse = true := by
    simp [WebSocketImpl.openConnection, Event.socketCalls, SocketCall.isUse]
  have hanswer : ∀ c ∈ (responseLines.map Event.handshakeSend).flatMap Event.socketCalls,
      c.isUse = true := by
    rw [List.flatMap_map]
    intro c hc
    obtain ⟨line, -, hc⟩ := List.mem_flatMap.mp hc
    rw [List.mem_singleton.mp hc]
    rfl
  unfold WebSocketImpl.processLine
  split <;> try split_ifs
  all_goals first
    | exact ⟨rfl, hopen⟩
    | exact ⟨rfl, hanswer⟩
    | exact ⟨rfl, by simp⟩

/-- What the handshake does with a socket when it has read a byte. -/
theorem processConnection_socketCalls (w : WebSocketImpl) (hsock : w.mSocket = true) (c : UInt8) :
    ∃ cs, (∀ c ∈ cs, c.isUse = true) ∧
      ((w.processConnection false (some c)).2.flatMap Event.socketCalls = cs ∧
          (w.processConnection false (some c)).1.mSocket = true ∨
        (w.processConnection false (some c)).2.flatMap Event.socketCalls = cs ++ [.release] ∧
          (w.processConnection false (some c)).1.mSocket = false) := by
  have hread {cs : List SocketCall} (hcs : ∀ c ∈ cs, c.isUse = true) :
      ∀ c ∈ .receive 1 :: cs, c.isUse = true := by
    simpa [SocketCall.isUse] using hcs
  simp only [WebSocketImpl.processConnection, hsock, Bool.not_true, Bool.false_eq_true, if_false,
    List.flatMap_cons]
  split_ifs with hlf
  · obtain ⟨hsame, huse⟩ := processLine_socketCalls
      ((w.storeChar c).setConnection (WebSocketImpl.cutLine (w.storeChar c).mConnectionBuffer
        (w.storeChar c).mConnectionIndex) 0)
    refine ⟨_, hread huse, ?_⟩
    simp only [WebSocketImpl.endLine]
    split_ifs
    · exact .inl ⟨rfl, hsame.trans hsock⟩
    · exact .inr ⟨by simp [WebSocketImpl.releaseSocket, Event.socketCalls], rfl⟩
  · refine ⟨[.receive 1], by simp [SocketCall.isUse], ?_⟩
    simp only [WebSocketImpl.extendLine]
    split_ifs
    · exact .inr ⟨rfl, rfl⟩
    · exact .inl ⟨rfl, hsock⟩

theorem Consistent.not_isBusy_of_cons {a b : Activation} {rest : List Activation}
    (hs : s.Consistent) (hstack : s.stack = a :: rest) (hb : b ∈ rest) : b.isBusy = false := by
  have := hs.callers_of_cons hstack b hb
  cases b <;> first | rfl | cases this

theorem Consistent.head_ne_destroyed {a : Activation} {next rest : List Activation}
    (hs : s.Consistent) (hstack : s.stack = a :: rest) (hnext : .destroyed ∉ next) :
    (next ++ rest).head? ≠ some .destroyed := fun hhead =>
  (List.mem_append.mp (List.mem_of_mem_head? hhead)).elim hnext fun hmem => by
    have := hs.callers_of_cons hstack _ hmem
    cases this

/-- The handshake. -/
theorem connect_disciplined {rest : List Activation} {expired : Bool} {v : Option UInt8}
    (hs : Disciplined calls s) (h : s.step (.connect expired v) = some (t, es))
    (hstack : s.stack = .connecting :: rest)
    (ht : t = ⟨(s.impl.processConnection expired v).1, rest⟩)
    (hes : es = (s.impl.processConnection expired v).2) :
    Disciplined (calls ++ s.socketCalls (.connect expired v)) t := by
  obtain ⟨hsock, hclose⟩ := hs.busy _ (hstack ▸ List.mem_cons_self) rfl
  have hrest (b : Activation) (hb : b ∈ t.stack) : b.isBusy = false := by
    subst ht
    exact hs.consistent.not_isBusy_of_cons hstack hb
  have hnot {b : Activation} (hb : b ∈ t.stack) (hbusy : b.isBusy = true) : False := by
    rw [hrest b hb] at hbusy
    cases hbusy
  have hhead : t.stack.head? ≠ some .destroyed := by
    subst ht
    exact show ([] ++ rest).head? ≠ _ from hs.consistent.head_ne_destroyed hstack (by simp)
  rw [socketCalls_of_step h]
  cases expired with
  | true =>
    have hcs : s.silentCalls (.connect true v) ++ es.flatMap Event.socketCalls = [.release] := by
      rw [silentCalls_eq_nil (by simp) (by simp), hes]
      simp [WebSocketImpl.processConnection, hsock, WebSocketImpl.releaseSocket, Event.socketCalls]
    have hgone : t.impl.mSocket = false := by
      subst ht
      simp [WebSocketImpl.processConnection, hsock, WebSocketImpl.releaseSocket]
    rw [hcs]
    exact hs.call h hsock hclose (by simp) (fun b hb hbusy => (hnot hb hbusy).elim) (by simp)
      (by simp [hgone])
  | false =>
    cases v with
    | none =>
      have hcs : s.silentCalls (.connect false none) ++ es.flatMap Event.socketCalls =
          [.receive 1] := by
        simp [silentCalls, hstack, hsock, hes, WebSocketImpl.processConnection]
      have hstay : t.impl.mSocket = true := by
        subst ht
        simpa [WebSocketImpl.processConnection] using hsock
      rw [hcs]
      exact hs.call h hsock hclose (by simp) (fun b hb hbusy => (hnot hb hbusy).elim) (by simp)
        (by simp [hstay, hhead])
    | some c =>
      obtain ⟨cs, huse, hcs⟩ := processConnection_socketCalls s.impl hsock c
      rw [← hes] at hcs
      have himpl : t.impl = (s.impl.processConnection false (some c)).1 := by rw [ht]
      rw [← himpl] at hcs
      have hnotUse {c : SocketCall} (hc : c.isUse = false) : c ∉ cs := fun hmem => by
        rw [huse c hmem] at hc
        cases hc
      rw [silentCalls_eq_nil (by simp) (by simp), List.nil_append]
      rcases hcs with ⟨hcs, hstay⟩ | ⟨hcs, hgone⟩
      · have hpair := pairwise_of_isUse huse .nil
        rw [List.append_nil] at hpair
        rw [hcs]
        exact hs.call h hsock hclose hpair (fun b hb hbusy => (hnot hb hbusy).elim)
          (fun hmem => absurd hmem (hnotUse rfl))
          (by simpa [hstay, hhead] using hnotUse (c := .release) rfl)
      · rw [hcs]
        refine hs.call h hsock hclose (pairwise_of_isUse huse (by simp))
          (fun b hb hbusy => (hnot hb hbusy).elim) (fun hmem => ?_) (by simp [hgone])
        simp only [List.mem_append, List.mem_singleton, reduceCtorEq, or_false] at hmem
        exact absurd hmem (hnotUse rfl)

/-- A loop of `poll`: the socket is kept, or closed and the connection with it. -/
theorem Disciplined.loop {a : Activation} {next rest : List Activation} {w : WebSocketImpl}
    {cs : List SocketCall} (hs : Disciplined calls s) (h : s.step i = some (⟨w, next ++ rest⟩, es))
    (hstack : s.stack = a :: rest) (ha : a.isBusy = true) (hsock : w.mSocket = s.impl.mSocket)
    (hnext : .destroyed ∉ next)
    (hcs : (∃ c, c.isUse = true ∧ (cs = [] ∨ cs = [c])) ∨
      ∃ cs', (∀ c ∈ cs', c.isUse = true) ∧ cs = cs' ++ [.close] ∧ w.mReadyState = .closed ∧
        ∀ b ∈ next, b.isBusy = false) :
    Disciplined (calls ++ cs) ⟨w, next ++ rest⟩ := by
  obtain ⟨hopen, hclose⟩ := hs.busy a (hstack ▸ List.mem_cons_self) ha
  have hhead := hs.consistent.head_ne_destroyed hstack hnext
  have hrest (b : Activation) (hb : b ∈ rest) : b.isBusy = false :=
    hs.consistent.not_isBusy_of_cons hstack hb
  rw [← hsock] at hopen
  rcases hcs with ⟨c, hc, hcs⟩ | ⟨cs', hcs', rfl, hclosed, hidle⟩
  · have hmem {d : SocketCall} (hd : d.isUse = false) : d ∉ cs := by
      rcases hcs with rfl | rfl
      · simp
      · rintro hmem
        rw [List.mem_singleton.mp hmem, hc] at hd
        cases hd
    refine hs.call h (hsock ▸ hopen) hclose ?_ (fun b _ _ => ⟨hopen, hmem rfl⟩)
      (fun hmem' => absurd hmem' (hmem rfl)) ?_
    · rcases hcs with rfl | rfl <;> simp
    · exact iff_of_false (hmem rfl) (not_or.mpr ⟨by simp [hopen], hhead⟩)
  · refine hs.call h (hsock ▸ hopen) hclose (pairwise_of_isUse hcs' (by simp)) ?_
      (fun _ => hclosed) ?_
    · intro b hb hbusy
      have : b.isBusy = false := (List.mem_append.mp hb).elim (hidle b) (hrest b)
      rw [this] at hbusy
      cases hbusy
    · have hrelease : .release ∉ cs' := fun hmem => by cases hcs' _ hmem
      exact iff_of_false (by simpa using hrelease) (not_or.mpr ⟨by simp [hopen], hhead⟩)

theorem receive_disciplined {callback : Bool} {r : RecvResult} {rest : List Activation}
    (hs : Disciplined calls s) (hstack : s.stack = .receiving callback :: rest)
    (h : s.step (.receive r) = some
      (⟨(s.impl.receiveIteration callback r).1,
        (s.impl.receiveIteration callback r).2.1 ++ rest⟩,
        (s.impl.receiveIteration callback r).2.2)) :
    Disciplined (calls ++ s.socketCalls (.receive r))
      ⟨(s.impl.receiveIteration callback r).1,
        (s.impl.receiveIteration callback r).2.1 ++ rest⟩ := by
  have hleave (w : WebSocketImpl) : .destroyed ∉ w.leaveReceive callback := by
    unfold WebSocketImpl.leaveReceive
    split_ifs <;> simp
  refine hs.loop h hstack rfl (WebSocketImpl.receiveIteration_keeps _ _ _).socket ?_ ?_
  · unfold WebSocketImpl.receiveIteration
    simp only
    split_ifs
    · cases r with
      | wouldBlock => exact hleave _
      | _ => simp
    · exact hleave _
  · rw [socketCalls_of_step h]
    unfold WebSocketImpl.receiveIteration
    simp only
    split_ifs with hroom
    · cases r with
      | data d =>
        exact .inl ⟨.receive maxReadSize, rfl,
          .inr (by simp [silentCalls, hstack, Event.socketCalls])⟩
      | wouldBlock =>
        exact .inl ⟨.receive maxReadSize, rfl, .inr (by simp [silentCalls, hstack, hroom])⟩
      | endOfStream | error =>
        exact .inr ⟨[.receive maxReadSize], by simp [SocketCall.isUse],
          by simp [silentCalls, hstack, Event.socketCalls], rfl, by simp⟩
    · refine .inl ⟨.receive maxReadSize, rfl, .inl ?_⟩
      cases r <;> simp [silentCalls, hstack, hroom, Event.socketCalls]

theorem transmit_disciplined {callback : Bool} {r : SendResult} {rest : List Activation}
    (hs : Disciplined calls s) (hstack : s.stack = .transmitting callback :: rest)
    (h : s.step (.send r) = some
      (⟨(s.impl.transmitIteration callback r).1,
        (s.impl.transmitIteration callback r).2.1 ++ rest⟩,
        (s.impl.transmitIteration callback r).2.2)) :
    Disciplined (calls ++ s.socketCalls (.send r))
      ⟨(s.impl.transmitIteration callback r).1,
        (s.impl.transmitIteration callback r).2.1 ++ rest⟩ := by
  have hdispatch : .destroyed ∉ WebSocketImpl.beginDispatch callback := by
    unfold WebSocketImpl.beginDispatch
    split_ifs <;> simp
  have hidle : ∀ b ∈ WebSocketImpl.beginDispatch callback, b.isBusy = false := by
    unfold WebSocketImpl.beginDispatch
    split_ifs <;> simp [Activation.isBusy]
  refine hs.loop h hstack rfl (WebSocketImpl.transmitIteration_keeps _ _ _).socket ?_ ?_
  · unfold WebSocketImpl.transmitIteration WebSocketImpl.leaveTransmit
    split_ifs <;> cases r <;> simp_all
  · rw [socketCalls_of_step h, silentCalls_eq_nil (by simp) (by simp), List.nil_append]
    unfold WebSocketImpl.transmitIteration WebSocketImpl.leaveTransmit
    split_ifs with hsize hclosed hdone
    · exact .inl ⟨.receive 1, rfl, .inl rfl⟩
    · exact .inr ⟨[], by simp, rfl, rfl, hidle⟩
    · exact .inl ⟨.receive 1, rfl, .inl rfl⟩
    all_goals
      cases r with
      | accepted n =>
        exact .inl ⟨.send s.impl.mTransmitBuffer.getData, rfl, .inr rfl⟩
      | wouldBlock =>
        first
          | exact .inl ⟨.send s.impl.mTransmitBuffer.getData, rfl, .inr rfl⟩
          | exact .inr ⟨[.send s.impl.mTransmitBuffer.getData], by simp [SocketCall.isUse], rfl,
              rfl, hidle⟩
      | zero | error =>
        exact .inr ⟨[.send s.impl.mTransmitBuffer.getData], by simp [SocketCall.isUse], rfl, rfl,
          by simp⟩

theorem poll_socketCalls (w : WebSocketImpl) (callback : Bool) (timeout : ℤ) :
    (∀ a ∈ (w.poll callback timeout).1, a ≠ .destroyed ∧
      (a.isBusy = true → w.mSocket = true ∧ w.mReadyState ≠ .closed)) ∧
    ((w.poll callback timeout).2 = [] ∨ w.mSocket = true ∧ w.mReadyState = .closed ∧
      (w.poll callback timeout).1 = [] ∧ (w.poll callback timeout).2 = [.nullSelect timeout]) := by
  unfold WebSocketImpl.poll
  split_ifs <;> simp_all

theorem callable_isBusy (hs : s.Consistent) (hcall : callable s.stack = true) :
    ∀ a ∈ s.stack, a.isBusy = false := fun a ha => by
  have := hs.callers_of_callable hcall a ha
  cases a <;> first | rfl | cases this

/-- What an iteration of the destructor does. -/
theorem destroyLoop_cases {polled timedOut : Bool} {rest : List Activation}
    (h : s.step (.destroyLoop timedOut) = some (t, es))
    (hstack : s.stack = .destroying polled :: rest) :
    (t = ⟨s.impl, .destroyed :: rest⟩ ∧
      es = if s.impl.mSocket then [.socketRelease] else []) ∨
    (t = ⟨s.impl, .destroying false :: rest⟩ ∧ es = []) ∨
    (s.impl.mReadyState ≠ .closed ∧ es = (s.impl.poll false 1).2 ∧
      t = ⟨s.impl, ((s.impl.poll false 1).1 ++ [.destroying true]) ++ rest⟩) := by
  simp only [step, hstack] at h
  cases polled with
  | false =>
    simp only [WebSocketImpl.resume] at h
    by_cases hclosed : s.impl.mReadyState = .closed
    · rw [if_pos hclosed] at h
      obtain ⟨rfl, rfl⟩ : _ ∧ _ := by simpa using h
      exact .inl ⟨rfl, rfl⟩
    · rw [if_neg hclosed] at h
      obtain ⟨rfl, rfl⟩ : _ ∧ _ := by simpa using h
      exact .inr (.inr ⟨hclosed, rfl, by simp⟩)
  | true =>
    simp only [WebSocketImpl.resume] at h
    cases timedOut with
    | true =>
      obtain ⟨rfl, rfl⟩ : _ ∧ _ := by simpa using h
      exact .inl ⟨rfl, rfl⟩
    | false =>
      obtain ⟨rfl, rfl⟩ : _ ∧ _ := by simpa using h
      exact .inr (.inl ⟨rfl, rfl⟩)

/-- The destructor. -/
theorem destroyLoop_disciplined {polled timedOut : Bool} {rest : List Activation}
    (hs : Disciplined calls s) (h : s.step (.destroyLoop timedOut) = some (t, es))
    (hstack : s.stack = .destroying polled :: rest) :
    Disciplined (calls ++ s.socketCalls (.destroyLoop timedOut)) t := by
  have hidle {a : Activation} (ha : a ∈ rest) : a.isBusy = false :=
    hs.consistent.not_isBusy_of_cons hstack ha
  have hcalls : s.socketCalls (.destroyLoop timedOut) = es.flatMap Event.socketCalls := by
    rw [socketCalls_of_step h, silentCalls_eq_nil (by simp) (by simp), List.nil_append]
  -- the destructor returns, and releases the socket if it is still there
  have hreturn (ht : t = ⟨s.impl, .destroyed :: rest⟩)
      (hes : es = if s.impl.mSocket then [.socketRelease] else []) :
      Disciplined (calls ++ s.socketCalls (.destroyLoop timedOut)) t := by
    subst ht
    have hbusy : ∀ a ∈ Activation.destroyed :: rest, a.isBusy = false := fun a ha =>
      (List.mem_cons.mp ha).elim (fun ha => ha ▸ rfl) hidle
    rw [hcalls, hes]
    cases hsock : s.impl.mSocket with
    | true => exact hs.late h (.inl rfl) hsock hsock hbusy (by simp)
    | false =>
      rw [if_neg (by simp), List.flatMap_nil, List.append_nil]
      exact hs.quiet h rfl (fun a ha hb => by simp [hbusy a ha] at hb) (by simp [hsock])
  -- the destructor goes on
  have hloop {next : List Activation} (ht : t = ⟨s.impl, next ++ rest⟩) (hes : es = [])
      (hnext : .destroyed ∉ next)
      (hbusy : ∀ a ∈ next, a.isBusy = true →
        s.impl.mSocket = true ∧ s.impl.mReadyState ≠ .closed) :
      Disciplined (calls ++ s.socketCalls (.destroyLoop timedOut)) t := by
    subst ht
    rw [hcalls, hes, List.flatMap_nil, List.append_nil]
    refine hs.quiet h rfl (fun a ha hb => ?_)
      (fun _ => hs.consistent.head_ne_destroyed hstack hnext)
    refine (List.mem_append.mp ha).elim (fun ha => .inr (hbusy a ha hb)) fun ha => ?_
    rw [hidle ha] at hb
    cases hb
  obtain ⟨ht, hes⟩ | ⟨ht, hes⟩ | ⟨hopen, hes, ht⟩ := destroyLoop_cases h hstack
  · exact hreturn ht hes
  · have ht : t = ⟨s.impl, [.destroying false] ++ rest⟩ := ht
    exact hloop ht hes (by simp) (by simp [Activation.isBusy])
  · obtain ⟨hpoll, hevents⟩ := poll_socketCalls s.impl false 1
    refine hloop ht (hes.trans (hevents.resolve_right fun hevents => hopen hevents.2.1)) ?_ ?_
    · simpa using fun hmem => (hpoll _ hmem).1 rfl
    · intro a ha hb
      rcases List.mem_append.mp ha with ha | ha
      · exact (hpoll a ha).2 hb
      · rw [List.mem_singleton.mp ha] at hb
        cases hb

theorem step_disciplined (hs : Disciplined calls s) (h : s.step i = some (t, es)) :
    Disciplined (calls ++ s.socketCalls i) t := by
  -- a step without a call that leaves the socket and the functions that wait
  have hquiet (hi : s.silentCalls i = []) (hes : ∀ e ∈ es, e.isInternal = true)
      (hsock : t.impl.mSocket = s.impl.mSocket)
      (hbusy : ∀ a ∈ t.stack, a.isBusy = true → a ∈ s.stack)
      (hhead : t.stack.head? ≠ some .destroyed) :
      Disciplined (calls ++ s.socketCalls i) t := by
    rw [socketCalls_of_step h, hi, flatMap_socketCalls_of_isInternal hes, List.append_nil,
      List.append_nil]
    exact hs.quiet h hsock (fun a ha hb => .inl (hbusy a ha hb)) fun _ => hhead
  cases step_cases h with
  | call hcall hr =>
    have hinput : s.silentCalls i = [] :=
      silentCalls_eq_nil (by rintro rfl; cases hr) (by rintro rfl; cases hr)
    obtain ⟨_, _, _, _, rfl⟩ | ⟨_, rfl⟩ := WebSocketImpl.call_cases hr
    · exact hquiet hinput (fun e he =>
        Event.isInternal_of_isQueuing (WebSocketImpl.sendData_isQueuing _ _ _ _ _ e he))
        (WebSocketImpl.sendData_keeps _ _ _ _ _).socket (fun a ha _ => ha)
        (step_head (s := s) h)
    · exact hquiet hinput (fun e he =>
        Event.isInternal_of_isQueuing (WebSocketImpl.close_isQueuing _ e he))
        (WebSocketImpl.close_keeps _).socket (fun a ha _ => ha) (step_head (s := s) h)
  | poll callback timeout hcall =>
    have hidle := callable_isBusy hs.consistent hcall
    obtain ⟨hpoll, hes⟩ := poll_socketCalls s.impl callback timeout
    rw [socketCalls_of_step h, silentCalls_eq_nil (by simp) (by simp), List.nil_append]
    rcases hes with hes | ⟨hsock, -, hnext, hes⟩
    · rw [hes, List.flatMap_nil, List.append_nil]
      refine hs.quiet h rfl (fun a ha hb => ?_) fun _ hhead => ?_
      · exact (List.mem_append.mp ha).elim (fun ha => .inr ((hpoll a ha).2 hb)) .inl
      · refine (List.mem_append.mp (List.mem_of_mem_head? hhead)).elim
          (fun ha => (hpoll _ ha).1 rfl) fun ha => ?_
        cases hs.consistent.callers_of_callable hcall _ ha
    · rw [hes, List.flatMap_singleton]
      refine hs.late h (.inr ⟨timeout, rfl⟩) hsock hsock ?_ ?_
      · rw [hnext]
        exact hidle
      · rw [hnext]
        exact iff_of_false (by simp) (step_head h)
  | destroy hstack =>
    exact hquiet (silentCalls_eq_nil (by simp) (by simp))
      (fun e he => Event.isInternal_of_isQueuing (WebSocketImpl.close_isQueuing _ e he))
      (WebSocketImpl.close_keeps _).socket (by simp [Activation.isBusy]) (by simp)
  | connect expired v hstack => exact connect_disciplined hs h hstack rfl rfl
  | receive hstack hr => exact receive_disciplined hs hstack h
  | transmit hstack hr => exact transmit_disciplined hs hstack h
  | dispatch key hstack =>
    have hnext : ∀ a ∈ (s.impl.dispatchIteration key).2.1.next,
        a ≠ .destroyed ∧ a.isBusy = false := by
      cases (s.impl.dispatchIteration key).2.1 <;>
        simp [WebSocketImpl.Flow.next, Activation.isBusy]
    refine hquiet (silentCalls_eq_nil (by simp) (by simp))
      (WebSocketImpl.dispatchIteration_isInternal _ _)
      (WebSocketImpl.dispatchIteration_keeps _ _).socket (fun a ha hb => ?_)
      (hs.consistent.head_ne_destroyed hstack fun hmem => (hnext _ hmem).1 rfl)
    refine (List.mem_append.mp ha).elim (fun ha => ?_) fun ha => hstack ▸ List.mem_cons_of_mem _ ha
    rw [(hnext a ha).2] at hb
    cases hb
  | ret hstack =>
    refine hquiet (silentCalls_eq_nil (by simp) (by simp)) (by
        simp [WebSocketImpl.finishDelivery, WebSocketImpl.consumeFrame, Event.isInternal,
          Event.socketCalls])
      (WebSocketImpl.finishDelivery_keeps _ _ _).socket (fun a ha hb => ?_) (by simp)
    refine (List.mem_cons.mp ha).elim (fun ha => ?_) fun ha => hstack ▸ List.mem_cons_of_mem _ ha
    rw [ha] at hb
    cases hb
  | destroyLoop timedOut hstack _ _ => exact destroyLoop_disciplined hs h hstack

/-! ### Whole runs -/

/-- An object on a socket as its constructor returns it, with the calls of the constructor. -/
inductive Launched : Session → List SocketCall → Prop
  | server (p : Platform) (useMask : Bool) : Launched (start (.ofSocket p true useMask)) []
  | client (p : Platform) (url origin : Bytes) (useMask : Bool)
    (h : (WebSocketImpl.ofUrl p url origin useMask true).1.mSocket = true) :
    Launched (start (WebSocketImpl.ofUrl p url origin useMask true).1)
      ((WebSocketImpl.ofUrl p url origin useMask true).2.flatMap Event.socketCalls)

/-- A constructor only sends. -/
theorem Launched.spec (h : Launched s calls) :
    s.stack = [] ∧ s.impl.mSocket = true ∧ ∀ c ∈ calls, c.isUse = true := by
  cases h with
  | server => exact ⟨rfl, rfl, by simp⟩
  | client p url origin useMask hsock =>
    refine ⟨rfl, hsock, fun c hc => ?_⟩
    obtain ⟨e, he, hc⟩ := List.mem_flatMap.mp hc
    have hsend : ∃ line, e = .handshakeSend line := by
      revert he
      unfold WebSocketImpl.ofUrl
      split_ifs
      · simp
      · simp
      · split
        · simp
        · split_ifs <;> simp +contextual [eq_comm]
    obtain ⟨line, rfl⟩ := hsend
    rw [List.mem_singleton.mp hc]
    rfl

theorem Launched.disciplined (h : Launched s calls) : Disciplined calls s := by
  obtain ⟨hstack, hsock, huse⟩ := h.spec
  have hnot {c : SocketCall} (hc : c.isUse = false) : c ∉ calls := fun hmem => by
    rw [huse c hmem] at hc
    cases hc
  have hpair := pairwise_of_isUse huse .nil
  rw [List.append_nil] at hpair
  have hs : s = start s.impl := by
    rw [start, ← hstack]
  refine ⟨hs ▸ consistent_start s.impl, hpair, ?_, fun hmem => absurd hmem (hnot rfl),
    iff_of_false (hnot rfl) ?_⟩ <;> simp [hstack, hsock]

/-- The calls of a run on the socket. -/
theorem run_disciplined {tr : List (Input × List Event)} (hs : Disciplined calls s)
    {calls' : List SocketCall}
    (h : callMachine.Run Machine.anyStep (s, calls) tr (t, calls')) : Disciplined calls' t := by
  refine h.invariant_state (P := fun p => Disciplined p.2 p.1) hs fun p i es q hp hstep _ => ?_
  obtain ⟨hstep, hcalls⟩ := Machine.withHistory_cases hstep
  rw [hcalls]
  exact step_disciplined hp hstep

end Session

/-! ### System calls -/

namespace WsocketImpl

variable {w : WsocketImpl} {fd : ℤ} {calls : List SocketCall}

/-- After the socket is closed there is no system call on a descriptor. -/
theorem socket?_of_closed (hw : w.mSocket = 0)
    (hcalls : ∀ c ∈ calls, SocketCall.AllowedAfter .close c) :
    ∀ sc ∈ w.systemCalls calls, sc.socket? = none := by
  induction calls generalizing w with
  | nil => simp [systemCalls]
  | cons c calls ih =>
    have hc : (w.perform c).1.mSocket = 0 ∧ ∀ sc ∈ (w.perform c).2, sc.socket? = none := by
      obtain rfl | ⟨timeout, rfl⟩ := hcalls c List.mem_cons_self
      · simp [perform, hw, close]
      · simp [perform, hw, SystemCall.socket?]
    intro sc hsc
    exact (List.mem_append.mp hsc).elim (hc.2 sc)
      (ih hc.1 (fun c hc => hcalls c (List.mem_cons_of_mem _ hc)) sc)

/-- What a disciplined user does to the descriptor. -/
theorem systemCalls_spec (hw : w.mSocket = fd) (hfd : fd ≠ 0)
    (hcalls : calls.Pairwise SocketCall.AllowedAfter) :
    (∀ sc ∈ w.systemCalls calls, ∀ f, sc.socket? = some f → f = fd) ∧
      (w.systemCalls calls).Pairwise (fun sc sc' => sc = .closesocket fd → sc'.socket? = none) ∧
      (.closesocket fd ∈ w.systemCalls calls ↔ .close ∈ calls ∨ .release ∈ calls) := by
  induction calls generalizing w with
  | nil => simp [systemCalls]
  | cons c calls ih =>
    obtain ⟨hafter, hcalls⟩ := List.pairwise_cons.mp hcalls
    cases huse : c.isUse with
    | true =>
      -- one call on the descriptor, which stays open
      have hopen : (w.perform c).1 = w ∧ ∃ sc, (w.perform c).2 = [sc] ∧ sc ≠ .closesocket fd ∧
          ∀ f, sc.socket? = some f → f = fd := by
        cases c with
        | close => cases huse
        | release => cases huse
        | receive maxLen =>
          exact ⟨rfl, _, if_pos (hw ▸ hfd), by simp, by simp [SystemCall.socket?, hw]⟩
        | _ => exact ⟨rfl, _, rfl, by simp, by simp [SystemCall.socket?, hw]⟩
      obtain ⟨hsame, sc, heq, hne, hsc⟩ := hopen
      obtain ⟨hon, hpair, hmem⟩ := ih hw hcalls
      have hcons : w.systemCalls (c :: calls) = sc :: w.systemCalls calls := by
        rw [systemCalls, hsame, heq, List.singleton_append]
      rw [hcons]
      refine ⟨List.forall_mem_cons.mpr ⟨hsc, hon⟩,
        List.pairwise_cons.mpr ⟨fun _ _ h => absurd h hne, hpair⟩, ?_⟩
      rw [List.mem_cons, or_iff_right (Ne.symm hne), hmem]
      cases c <;> simp_all [SocketCall.isUse]
    | false =>
      have hclose : ∀ c' ∈ calls, SocketCall.AllowedAfter .close c' := fun c' hc' => by
        have := hafter c' hc'
        cases c with
        | close => exact this
        | release => exact this.elim
        | _ => cases huse
      have heq : w.perform c = (w.close.1, [.closesocket fd]) := by
        cases c with
        | close | release => simp [perform, hw, hfd]
        | _ => cases huse
      have hnone := socket?_of_closed (w := w.close.1) rfl hclose
      have hcons : w.systemCalls (c :: calls) = .closesocket fd :: w.close.1.systemCalls calls := by
        rw [systemCalls, heq, List.singleton_append]
      rw [hcons]
      refine ⟨List.forall_mem_cons.mpr
          ⟨by simp [SystemCall.socket?, eq_comm], fun sc hsc f hf => ?_⟩,
        List.pairwise_cons.mpr ⟨fun sc hsc _ => hnone sc hsc,
          List.pairwise_of_forall_mem_list fun _ _ sc hsc _ => hnone sc hsc⟩, ?_⟩
      · rw [hnone sc hsc] at hf
        cases hf
      · cases c <;> simp_all [SocketCall.isUse]

end WsocketImpl

namespace Session

/-- The life of a descriptor. In every run of an object on a socket, every system call on a
descriptor is on the one of the socket, there is none after `closesocket`, and when the destructor
has returned, or the object has released its socket, the descriptor has been closed. -/
theorem descriptor_lifetime {s t : Session} {calls calls' : List SocketCall}
    {tr : List (Input × List Event)} {fd : ℤ} (hs : Launched s calls) (hfd : fd ≠ 0)
    (h : callMachine.Run Machine.anyStep (s, calls) tr (t, calls')) :
    let systemCalls := ({ mSocket := fd } : WsocketImpl).systemCalls calls'
    (∀ sc ∈ systemCalls, ∀ f, sc.socket? = some f → f = fd) ∧
      systemCalls.Pairwise (fun sc sc' => sc = .closesocket fd → sc'.socket? = none) ∧
      (t.stack.head? = some .destroyed ∨ t.impl.mSocket = false →
        .closesocket fd ∈ systemCalls) := by
  intro systemCalls
  have ht := run_disciplined hs.disciplined h
  obtain ⟨hon, hpair, hmem⟩ := WsocketImpl.systemCalls_spec
    (w := { mSocket := fd }) rfl hfd ht.ordered
  exact ⟨hon, hpair, fun hend => hmem.mpr (.inr (ht.released.mpr hend.symm))⟩

/-- A server that is destroyed in the middle of the handshake: the close frame goes out, and the
destructor releases a socket that is closed already. -/
theorem descriptor_lifetime_destroyed :
    ∃ tr t calls, callMachine.Run Machine.anyStep (start (.ofSocket zeroPlatform true true), []) tr
        (t, calls) ∧
      calls = [.receive 1, .receive maxReadSize, .send WebSocketImpl.closeFrame, .close,
        .release] ∧
      t.stack.head? = some .destroyed ∧
      .closesocket 3 ∈ ({ mSocket := 3 } : WsocketImpl).systemCalls calls := by
  obtain ⟨tr, ⟨t, calls⟩, hrun, hP⟩ := Machine.exists_run_of_exec (M := callMachine)
    (G := Machine.anyStep) (s := (start (.ofSocket zeroPlatform true true), []))
    (l := [.poll false 0, .connect false none, .destroy, .destroyLoop false, .receive .wouldBlock,
      .send (.accepted 6), .send .wouldBlock, .destroyLoop false, .destroyLoop false])
    (P := fun r => decide (r.1.2 =
        [.receive 1, .receive maxReadSize, .send WebSocketImpl.closeFrame, .close,
          .release] ∧
      r.1.1.stack.head? = some .destroyed))
    (by decide +kernel)
  obtain ⟨hcalls, hhead⟩ := of_decide_eq_true hP
  exact ⟨tr, t, calls, hrun, hcalls, hhead,
    (descriptor_lifetime (.server zeroPlatform true) (by decide) hrun).2.2 (.inl hhead)⟩

end Session

end WsClient
