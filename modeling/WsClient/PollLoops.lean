import WsClient.Receive
import WsClient.SenderRuns

/-!
# The loops of `poll` end

The receive loop of `poll` goes on as long as the socket has data. It is left all the same, because
what is received stays in the receive buffer, and the buffer stops growing at its limit. The
transmit loop goes on as long as the socket accepts data, and is left when the transmit buffer is
empty.

## Main results

* `WebSocketImpl.receiveIteration_progress`, `WebSocketImpl.transmitIteration_progress`: one
  iteration.
* `Session.poll_loops_end`.
-/

namespace WsClient

namespace WebSocketImpl

theorem leaveReceive_cases (w : WebSocketImpl) (callback : Bool) :
    w.leaveReceive callback = [] ∨ w.leaveReceive callback = [.transmitting callback] := by
  unfold leaveReceive
  split_ifs
  · exact .inl rfl
  · exact .inr rfl

theorem leaveTransmit_cases (w : WebSocketImpl) (callback : Bool) :
    (w.leaveTransmit callback).2.1 = [] ∨ (w.leaveTransmit callback).2.1 = [.dispatching] := by
  unfold leaveTransmit beginDispatch
  split_ifs
  · exact .inl rfl
  · exact .inr rfl
  · exact .inl rfl
  · exact .inr rfl
  · exact .inl rfl

/-- An iteration of the receive loop fills the buffer, below its limit, or leaves the loop. -/
theorem receiveIteration_progress (w : WebSocketImpl) (callback : Bool)
    (hwf : w.mReceiveBuffer.WF) {r : RecvResult} (hr : r.Valid maxReadSize) :
    ((w.receiveIteration callback r).2.1 = [.receiving callback] ∧
        (w.receiveIteration callback r).1.mReceiveBuffer.getMaxGrowSize =
          w.mReceiveBuffer.getMaxGrowSize ∧
        w.mReceiveBuffer.getSize < (w.receiveIteration callback r).1.mReceiveBuffer.getSize) ∨
      (w.receiveIteration callback r).2.1 = [] ∨
      (w.receiveIteration callback r).2.1 = [.transmitting callback] := by
  obtain ⟨hwf', hdata, hmax, hroom, -⟩ :=
    SimpleBuffer.confirmCapacity_spec hwf (n := maxReadSize) (by decide)
  unfold receiveIteration
  simp only
  split_ifs with hok
  · cases r with
    | data d =>
      obtain ⟨-, -, hmax', hdata'⟩ := SimpleBuffer.receiveInto_spec hwf' (hr.2.trans (hroom hok))
      refine .inl ⟨rfl, hmax'.trans hmax, ?_⟩
      rw [setReceive_mReceiveBuffer, ← SimpleBuffer.length_getData, ← SimpleBuffer.length_getData,
        hdata', hdata, List.length_append]
      exact Nat.lt_add_of_pos_right (List.length_pos_of_ne_nil hr.1)
    | wouldBlock => exact .inr (leaveReceive_cases _ _)
    | endOfStream => exact .inr (.inl rfl)
    | error => exact .inr (.inl rfl)
  · exact .inr (leaveReceive_cases _ _)

/-- An iteration of the transmit loop empties the buffer further, or leaves the loop. -/
theorem transmitIteration_progress (w : WebSocketImpl) (callback : Bool) {r : SendResult}
    (hr : r.Valid w.mTransmitBuffer.getSize) :
    ((w.transmitIteration callback r).2.1 = [.transmitting callback] ∧
        (w.transmitIteration callback r).1.mTransmitBuffer.getSize < w.mTransmitBuffer.getSize) ∨
      (w.transmitIteration callback r).2.1 = [] ∨
      (w.transmitIteration callback r).2.1 = [.dispatching] := by
  unfold transmitIteration
  split_ifs
  · exact .inr (leaveTransmit_cases w callback)
  · cases r with
    | accepted n =>
      refine .inl ⟨rfl, ?_⟩
      obtain ⟨hpos, hle⟩ := hr
      rw [setTransmit_mTransmitBuffer, SimpleBuffer.getSize_consume hle]
      omega
    | wouldBlock => exact .inr (leaveTransmit_cases w callback)
    | zero => exact .inr (.inl rfl)
    | error => exact .inr (.inl rfl)

end WebSocketImpl

namespace Session

variable {s t : Session} {i : Input} {es : List Event} {callback : Bool} {rest : List Activation}

/-! ### The receive buffer of a reachable object -/

theorem step_receive_wf (hs : s.impl.mReceiveBuffer.WF) (h : s.step i = some (t, es)) :
    t.impl.mReceiveBuffer.WF := by
  cases step_cases h with
  | call _ hcall => exact (call_keepsReceived hcall).receiveBuffer.symm ▸ hs
  | poll => exact hs
  | destroy => exact (WebSocketImpl.close_keepsReceived _).receiveBuffer.symm ▸ hs
  | connect =>
    exact (WebSocketImpl.processConnection_keepsReceived _ _ _).receiveBuffer.symm ▸ hs
  | receive _ hr => exact (WebSocketImpl.receiveIteration_appends hs _ hr).wf
  | transmit =>
    exact (WebSocketImpl.transmitIteration_keepsReceived _ _ _).receiveBuffer.symm ▸ hs
  | dispatch key => exact (WebSocketImpl.dispatchIteration_content hs key).1
  | @ret frameSize clear =>
    have hwf := (SimpleBuffer.consume_spec hs frameSize).1
    cases clear <;> exact hwf
  | destroyLoop => exact hs

theorem run_receive_wf {G : Session → Input → List Event → Prop} {tr : List (Input × List Event)}
    (hs : Constructed s) (h : sessionMachine.Run G s tr t) : t.impl.mReceiveBuffer.WF := by
  obtain ⟨heap, hbuffer, -⟩ := hs.buffers
  exact h.invariant_state (hbuffer ▸ (newBuffer_spec _).1) fun _ _ _ _ ih hstep _ =>
    step_receive_wf ih hstep

/-! ### Both loops -/

/-- The receive loop is left after as many iterations as the buffer can grow by bytes. -/
theorem receive_loop_ends (hwf : s.impl.mReceiveBuffer.WF)
    (hstack : s.stack = .receiving callback :: rest) {socket : ℕ → RecvResult}
    (hsocket : ∀ k, (socket k).Valid maxReadSize) :
    ∃ n u, n ≤ s.impl.mReceiveBuffer.getMaxGrowSize + 1 ∧
      sessionMachine.drive (fun k _ => .receive (socket k)) s n = some u ∧
      (u.stack = rest ∨ u.stack = .transmitting callback :: rest) := by
  have hexit := Machine.exists_exit (M := sessionMachine) (s := s)
    (P := fun s : Session => s.stack = .receiving callback :: rest ∧ s.impl.mReceiveBuffer.WF)
    (Q := fun u : Session => u.stack = rest ∨ u.stack = .transmitting callback :: rest)
    (μ := fun s : Session =>
      s.impl.mReceiveBuffer.getMaxGrowSize - s.impl.mReceiveBuffer.getSize)
    (f := fun k _ => .receive (socket k)) ?_ ⟨hstack, hwf⟩
  · obtain ⟨n, u, hn, hdrive, hleft⟩ := hexit
    exact ⟨n, u, hn.trans (Nat.succ_le_succ (Nat.sub_le _ _)), hdrive, hleft⟩
  rintro k ⟨w, stack⟩ ⟨rfl, hwf⟩
  have hstep : sessionMachine.step ⟨w, .receiving callback :: rest⟩ (.receive (socket k)) =
      some (⟨(w.receiveIteration callback (socket k)).1,
        (w.receiveIteration callback (socket k)).2.1 ++ rest⟩,
        (w.receiveIteration callback (socket k)).2.2) := by
    simp [step, WebSocketImpl.resume, hsocket k]
  have hwf' := step_receive_wf hwf hstep
  refine ⟨_, _, hstep, ?_⟩
  rcases w.receiveIteration_progress callback hwf (hsocket k) with
    ⟨hnext, hmax, hlt⟩ | hnext | hnext
  · refine .inl ⟨⟨by rw [hnext]; rfl, hwf'⟩, ?_⟩
    have hle := hwf'.getSize_le_max
    simp only at hle ⊢
    omega
  · exact .inr (.inl (by rw [hnext]; rfl))
  · exact .inr (.inr (by rw [hnext]; rfl))

/-- The transmit loop is left after as many iterations as there are bytes to send. -/
theorem transmit_loop_ends (hstack : s.stack = .transmitting callback :: rest)
    {socket : ℕ → Bytes → SendResult} (hsocket : ∀ k d, (socket k d).Valid d.length) :
    ∃ n u, n ≤ s.impl.mTransmitBuffer.getSize + 1 ∧
      sessionMachine.drive (fun k s => .send (socket k s.impl.mTransmitBuffer.getData)) s n =
        some u ∧ (u.stack = rest ∨ u.stack = .dispatching :: rest) := by
  refine Machine.exists_exit (M := sessionMachine)
    (P := fun s : Session => s.stack = .transmitting callback :: rest)
    (Q := fun u : Session => u.stack = rest ∨ u.stack = .dispatching :: rest)
    (μ := fun s : Session => s.impl.mTransmitBuffer.getSize) ?_ hstack
  rintro k ⟨w, stack⟩ rfl
  have hvalid : (socket k w.mTransmitBuffer.getData).Valid w.mTransmitBuffer.getSize := by
    have h := hsocket k w.mTransmitBuffer.getData
    rwa [SimpleBuffer.length_getData] at h
  generalize socket k w.mTransmitBuffer.getData = r at hvalid
  have hstep : sessionMachine.step ⟨w, .transmitting callback :: rest⟩ (.send r) =
      some (⟨(w.transmitIteration callback r).1, (w.transmitIteration callback r).2.1 ++ rest⟩,
        (w.transmitIteration callback r).2.2) := by
    simp [step, WebSocketImpl.resume, hvalid]
  refine ⟨_, _, hstep, ?_⟩
  rcases w.transmitIteration_progress callback hvalid with
    ⟨hnext, hlt⟩ | hnext | hnext
  · exact .inl ⟨by rw [hnext]; rfl, hlt⟩
  · exact .inr (.inl (by rw [hnext]; rfl))
  · exact .inr (.inr (by rw [hnext]; rfl))

/-- In every reachable state the receive buffer is within its limit, the receive loop ends whatever
the socket returns at most `maxReadSize` bytes at a time, and the transmit loop ends whatever the
socket accepts of what it is given. -/
theorem poll_loops_end {G : Session → Input → List Event → Prop} {tr : List (Input × List Event)}
    (hs : Constructed s) (h : sessionMachine.Run G s tr t) :
    t.impl.mReceiveBuffer.getMaxBufferSize ≤ t.impl.mReceiveBuffer.getMaxGrowSize ∧
      (∀ callback rest, t.stack = .receiving callback :: rest →
        ∀ socket : ℕ → RecvResult, (∀ k, (socket k).Valid maxReadSize) →
          ∃ n u, n ≤ 2 ^ 29 + 1 ∧
            sessionMachine.drive (fun k _ => .receive (socket k)) t n = some u ∧
            (u.stack = rest ∨ u.stack = .transmitting callback :: rest)) ∧
      ∀ callback rest, t.stack = .transmitting callback :: rest →
        ∀ socket : ℕ → Bytes → SendResult, (∀ k d, (socket k d).Valid d.length) →
          ∃ n u, n ≤ t.impl.mTransmitBuffer.getSize + 1 ∧
            sessionMachine.drive (fun k s => .send (socket k s.impl.mTransmitBuffer.getData)) t n =
              some u ∧ (u.stack = rest ∨ u.stack = .dispatching :: rest) := by
  have hwf := run_receive_wf hs h
  refine ⟨hwf.max_le, fun callback rest hstack socket hsocket => ?_,
    fun callback rest hstack socket hsocket => transmit_loop_ends hstack hsocket⟩
  obtain ⟨n, u, hn, hrest⟩ := receive_loop_ends hwf hstack hsocket
  exact ⟨n, u, hn.trans (Nat.succ_le_succ hwf.grow_le), hrest⟩

/-- A server whose client always has one more byte to send. -/
theorem poll_loops_end_flood :
    ∃ tr t, sessionMachine.Run NoEarlyClose (start (.ofSocket zeroPlatform true true)) tr t ∧
      ∃ n u, sessionMachine.drive (fun _ _ => .receive (.data [0])) t n = some u ∧
        (u.stack = [] ∨ u.stack = [.transmitting true]) := by
  obtain ⟨tr, t, hrun, hP⟩ := Machine.exists_run_of_exec (M := sessionMachine)
    (G := NoEarlyClose) (s := start (.ofSocket zeroPlatform true true))
    (l := handshakeInputs (ascii "GET / HTTP/1.1\r\n\r\n") ++ [.poll true 0])
    (P := fun r => decide (r.1.stack = [.receiving true])) (by decide +kernel)
  obtain ⟨-, hreceive, -⟩ := poll_loops_end (.server _ _ _) hrun
  obtain ⟨n, u, -, hdrive, hleft⟩ := hreceive true [] (of_decide_eq_true hP)
    (fun _ => .data [0]) fun _ => by decide
  exact ⟨tr, t, hrun, n, u, hdrive, hleft⟩

end Session

end WsClient
