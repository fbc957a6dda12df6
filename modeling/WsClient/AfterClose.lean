import WsClient.FullBuffer
import WsClient.ReferenceParse

/-!
# Silence after a frame that closes the connection

`_dispatchBinary` closes the connection when it meets a frame with the opcode `CLOSE`, or with an
opcode that the enumeration does not name, and leaves that frame where it is. Every later frame
loop meets it again, in whatever state the connection is, because the receive buffer only grows
behind it. So nothing is delivered and no `PING` is answered from then on.

## Main definitions

* `StopHeader`: the header of such a frame is at the front.
* `Session.NoNestedPoll`: the callback does not poll.
* `Session.Silent`: the invariant.

## Main results

* `Session.silent_after_close`.
-/

namespace WsClient

/-- A header at the front of the stream has an opcode at which the frame loop closes the
connection. -/
def StopHeader (s : Bytes) : Prop :=
  ∃ ws, (readHeader (fun i => s.getD i 0) s.length).1 = some ws ∧ ws.opcode.isStop = true

/-- It stays there when more of the stream arrives. -/
theorem StopHeader.append {s : Bytes} (h : StopHeader s) (t : Bytes) : StopHeader (s ++ t) := by
  obtain ⟨ws, hws, hstop⟩ := h
  exact ⟨ws, readHeader_append t hws, hstop⟩

namespace WebSocketImpl

variable {w : WebSocketImpl}

/-- The header that the frame loop reads. -/
theorem stopHeader_getData :
    StopHeader w.mReceiveBuffer.getData ↔
      ∃ ws, (readHeader w.mReceiveBuffer.byteAt w.mReceiveBuffer.getSize).1 = some ws ∧
        ws.opcode.isStop = true := by
  rw [StopHeader, readHeader_getData]

/-- An iteration that meets the frame leaves the loop, and closes the connection if it has not
been closed. -/
theorem dispatchIteration_of_stopHeader (h : StopHeader w.mReceiveBuffer.getData)
    (key : MaskingKey) :
    (w.dispatchIteration key).2.1 = .stop ∧
      KeepsReceived w (w.dispatchIteration key).1 (w.dispatchIteration key).2.2 := by
  obtain ⟨ws, hws, hstop⟩ := stopHeader_getData.mp h
  have hreads (reads : List ℕ) (ws : WsHeader) (n : ℕ) :
      KeepsReceived w w ((reads.map fun i => .access .header i 1) ++ [.parsed ws n]) :=
    (readHeader_keepsReceived w reads).trans ⟨rfl, rfl, rfl, rfl⟩
  unfold dispatchIteration
  simp only [hws]
  split_ifs
  · exact ⟨rfl, hreads _ _ _⟩
  · rw [dispatchFrame_of_isStop hstop, ← List.singleton_append, ← List.append_assoc]
    exact ⟨rfl, (hreads _ _ _).trans (close_keepsReceived w)⟩

end WebSocketImpl

namespace Session

variable {s t u v : Session} {i : Input} {es es' : List Event}

/-- The callback does not call `poll` on the connection. -/
def NoNestedPoll (s : Session) (i : Input) (_ : List Event) : Prop :=
  match i with
  | .poll _ _ => s.stack = []
  | _ => True

instance (s : Session) (i : Input) (es : List Event) : Decidable (NoNestedPoll s i es) :=
  match i with
  | .poll .. => inferInstanceAs (Decidable (s.stack = []))
  | .sendText .. | .sendBinary .. | .sendPing _ | .close | .destroy | .connect .. | .receive _
  | .send _ | .dispatch _ | .ret | .destroyLoop _ => inferInstanceAs (Decidable True)

/-- A frame that closes the connection is at the front, and no frame is being delivered. -/
structure Silent (s : Session) : Prop where
  receive_wf : s.impl.mReceiveBuffer.WF
  stop : StopHeader s.impl.mReceiveBuffer.getData
  delivery : s.delivery = none

/-- A step keeps the frame at the front, and puts nothing out. -/
theorem Silent.step (hs : Silent s) (h : s.step i = some (t, es)) :
    Silent t ∧ es.flatMap Event.outputs = [] := by
  have happends (happ : Appends s.impl t.impl es) (hdelivery : t.delivery = s.delivery) :
      Silent t ∧ es.flatMap Event.outputs = [] :=
    ⟨⟨happ.wf, happ.receiveBuffer ▸ hs.stop.append _, hdelivery.trans hs.delivery⟩, happ.outputs⟩
  cases step_frameLoop h with
  | dispatch key hstack =>
    obtain ⟨hflow, hkeeps⟩ := WebSocketImpl.dispatchIteration_of_stopHeader hs.stop key
    refine happends (hkeeps.appends hs.receive_wf) ?_
    rw [Session.delivery, hflow, Session.delivery, hstack]
    rfl
  | ret hstack =>
    -- the loop has been left
    have hnone := hs.delivery
    simp [Session.delivery, hstack, Activation.delivery] at hnone
  | other hd hr =>
    obtain ⟨happ, hdelivery, -⟩ := step_appends hs.receive_wf h hd hr
    exact happends happ hdelivery

/-- No two frame loops of the connection run at once. -/
theorem step_countP (hs : s.impl.mReceiveBuffer.WF) (h : s.step i = some (t, es))
    (hguard : NoNestedPoll s i es) (hone : s.stack.countP Activation.dispatches ≤ 1) :
    t.stack.countP Activation.dispatches ≤ 1 := by
  cases step_frameLoop h with
  | dispatch key hstack =>
    rw [hstack, List.countP_cons_of_pos rfl] at hone
    rw [List.countP_append]
    refine le_trans ?_ hone
    rw [Nat.add_comm, Nat.add_le_add_iff_left]
    cases (s.impl.dispatchIteration key).2.1 with
    | stop => exact Nat.zero_le _
    | again => exact Nat.le_refl _
    | deliver n clear => exact Nat.le_refl _
  | ret hstack =>
    rw [hstack] at hone
    exact hone
  | other hd hr =>
    refine (step_appends hs h hd hr).2.2 (fun timeout hi => ?_) hone
    subst hi
    exact hguard

/-- What the frame loop is running on is not being delivered. -/
theorem delivery_of_countP {rest : List Activation} (hstack : s.stack = .dispatching :: rest)
    (hone : s.stack.countP Activation.dispatches ≤ 1) : s.delivery = none := by
  rw [hstack, List.countP_cons_of_pos rfl] at hone
  rw [delivery, hstack, List.findSome?_cons_of_isNone rfl, List.findSome?_eq_none_iff]
  intro a ha
  have hnot := List.countP_eq_zero.mp (Nat.le_zero.mp (Nat.le_of_succ_le_succ hone)) a ha
  cases a <;> first | rfl | exact absurd rfl hnot

/-- From the frame loop's first look at a frame that closes the connection, no message is delivered
and no `PONG` is queued any more, whatever the socket, the callback and the application do. -/
theorem silent_after_close {G : Session → Input → List Event → Prop}
    {tr tr' : List (Input × List Event)} {rest : List Activation} (hs : Constructed s)
    (h : sessionMachine.Run NoNestedPoll s tr t) (hstack : t.stack = .dispatching :: rest)
    (hstop : StopHeader t.impl.mReceiveBuffer.getData) (h' : sessionMachine.Run G t tr' u) :
    (∀ data isAscii, .receiveMessage data isAscii ∉ Machine.events tr') ∧
      ∀ state data key, .sendData state .pong data key ∉ Machine.events tr' := by
  have hwf := run_receive_wf hs h
  have hone : t.stack.countP Activation.dispatches ≤ 1 := by
    obtain ⟨heap, hbuffer, -⟩ := hs.buffers
    refine (h.invariant_state (P := fun t : Session => t.impl.mReceiveBuffer.WF ∧
      t.stack.countP Activation.dispatches ≤ 1)
      ⟨hbuffer ▸ (newBuffer_spec _).1, by rw [hs.spec.1]; exact Nat.zero_le _⟩ ?_).2
    intro t i es u ih hstep hguard
    exact ⟨step_receive_wf ih.1 hstep, step_countP ih.1 hstep hguard ih.2⟩
  have hsilent : Silent t := ⟨hwf, hstop, delivery_of_countP hstack hone⟩
  obtain ⟨-, houts⟩ := h'.invariant_events
    (P := fun (es : List Event) (v : Session) => Silent v ∧ es.flatMap Event.outputs = [])
    ⟨hsilent, rfl⟩ fun es t i es' u ih hstep _ => by
      obtain ⟨hnext, hes'⟩ := ih.1.step hstep
      exact ⟨hnext, by rw [List.flatMap_append, ih.2, hes', List.nil_append]⟩
  have hnone {e : Event} (he : e ∈ Machine.events tr') : e.outputs = [] :=
    List.flatMap_eq_nil_iff.mp houts e he
  refine ⟨fun data isAscii hmem => ?_, fun state data key hmem => ?_⟩
  · exact absurd (hnone hmem) (by simp [Event.outputs])
  · exact absurd (hnone hmem) (by simp [Event.outputs])

/-- A client that sends a text behind its `CLOSE`, and a server that goes on polling. -/
theorem silent_after_close_text :
    ∃ tr t tr' u, sessionMachine.Run NoNestedPoll openServer tr t ∧
      sessionMachine.Run NoNestedPoll t tr' u ∧
      (Machine.events tr').flatMap Event.receivedBytes = [0x81, 1, 0x41] ∧
      (∀ data isAscii, .receiveMessage data isAscii ∉ Machine.events tr') ∧
      ∀ state data key, .sendData state .pong data key ∉ Machine.events tr' := by
  obtain ⟨tr, t, hrun, hP⟩ := Machine.exists_run_of_exec (M := sessionMachine) (G := NoNestedPoll)
    (s := openServer) (l := pollInputs [0x88, 0] [])
    (P := fun r => decide (r.1.stack = [.dispatching] ∧
      r.1.impl.mReceiveBuffer.getData = [0x88, 0] ∧
      (sessionMachine.exec NoNestedPoll r.1 (.dispatch 0 ::
        pollInputs [0x81, 1, 0x41] [.dispatch 0])).any fun r' =>
          (Machine.events r'.2).flatMap Event.receivedBytes == [0x81, 1, 0x41]))
    (by decide +kernel)
  obtain ⟨hstack, hdata, hlater⟩ := of_decide_eq_true hP
  obtain ⟨tr', u, hrun', hbytes⟩ := Machine.exists_run_of_exec hlater
  have hstop : StopHeader t.impl.mReceiveBuffer.getData := by
    rw [hdata]
    exact ⟨_, rfl, by decide⟩
  exact ⟨tr, t, tr', u, hrun, hrun', beq_iff_eq.mp hbytes,
    silent_after_close (.server zeroPlatform true true)
      ((run_openServer_of (by decide +kernel)).trans hrun) hstack hstop hrun'⟩

end Session

end WsClient
