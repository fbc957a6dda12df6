import WsClient.Transmit

/-!
# Runs of the sending side

What a connection puts on the wire over a whole run.

## Main definitions

* `Session.Bounded`: payloads and received frames stay below `2 ^ 29` bytes.
* `Session.Calls`: the calls of `sendData` and `close` that a step makes.
* `Session.Sender`, `Session.Frames`: the invariants of the sending side.

## Main results

* `Session.step_calls`, `Session.step_sender`, `Session.step_frames`: what a step keeps.
* `Session.wire_contract`: the wire carries one frame for each call, and then the close frame.
-/

namespace WsClient

namespace Event

/-- Calls of `sendData` and of `close`. -/
def isCall : Event → Bool
  | .sendData .. | .closeCall _ => true
  | _ => false

/-- `close` was called on a connection that was not closing already. -/
def isClosing : Event → Bool
  | .closeCall state => state.rank < 2
  | _ => false

/-- The frame that a call of `sendData` stands for: nothing when the connection is closing or
closed. -/
def frameBytes (useMask : Bool) : Event → Bytes
  | .sendData state type d key =>
    if 2 ≤ state.rank then [] else encodeFrame (if useMask then some key else none) type d
  | _ => []

end Event

namespace Session

/-- The payloads of calls and the received frames are below `2 ^ 29` bytes. -/
def Bounded (_ : Session) (i : Input) (es : List Event) : Prop :=
  i.payload.length < 2 ^ 29 ∧ ∀ e ∈ es, e.ParsedBelow (2 ^ 29)

/-- The calls of `sendData` and `close` that a step makes: the one that its input asks for, or the
answer of the frame loop to a frame. -/
inductive Calls (s : Session) : Input → Session → List Event → Prop
  | none {i t} (h : i.frame = none) : Calls s i t []
  | send {i t type d key} (h : i.frame = some (type, d, key)) :
    Calls s i t [.sendData s.impl.mReadyState type d key]
  | pong {t d key} : Calls s (.dispatch key) t [.sendData s.impl.mReadyState .pong d key]
  | close {i t} (h : i.frame = none) (ht : 2 ≤ t.impl.mReadyState.rank) :
    Calls s i t [.closeCall s.impl.mReadyState]

end Session

namespace WebSocketImpl

theorem addTransmit_calls (w : WebSocketImpl) (use : BufferUse) (d : Bytes) (n : ℕ) :
    (w.addTransmit use d n).2.filter Event.isCall = [] := by
  simp only [addTransmit]
  split_ifs <;> rfl

theorem queuePayload_calls (w : WebSocketImpl) (data : Option Bytes) (n : ℕ) (key : MaskingKey) :
    (w.queuePayload data n key).2.filter Event.isCall = [] := by
  cases data with
  | none => rfl
  | some d => exact addTransmit_calls _ _ _ _

theorem sendData_calls (w : WebSocketImpl) (type : Opcode) (data : Option Bytes) (n : ℕ)
    (key : MaskingKey) : (w.sendData type data n key).2.filter Event.isCall =
      [.sendData w.mReadyState type (data.getD []) key] := by
  unfold sendData
  split_ifs
  · rfl
  · rw [List.filter_cons_of_pos rfl, List.filter_append, addTransmit_calls, queuePayload_calls]
    rfl

theorem close_calls (w : WebSocketImpl) :
    w.close.2.filter Event.isCall = [.closeCall w.mReadyState] ∧
      2 ≤ w.close.1.mReadyState.rank := by
  unfold close
  split_ifs with h
  · exact ⟨rfl, ReadyState.two_le_rank.mpr h⟩
  · exact ⟨by rw [List.filter_cons_of_pos rfl, addTransmit_calls], le_rfl⟩

theorem processConnection_calls (w : WebSocketImpl) (expired : Bool) (v : Option UInt8) :
    (w.processConnection expired v).2.filter Event.isCall = [] := by
  have hline (w : WebSocketImpl) : w.processLine.2.2.filter Event.isCall = [] := by
    unfold processLine
    split <;> try split_ifs
    all_goals rfl
  unfold processConnection
  split_ifs
  · rfl
  · rfl
  · cases v with
    | none => rfl
    | some c =>
      simp only [endLine, extendLine]
      split_ifs <;> simp [hline, releaseSocket, Event.isCall]

theorem receiveIteration_calls (w : WebSocketImpl) (callback : Bool) (r : RecvResult) :
    (w.receiveIteration callback r).2.2.filter Event.isCall = [] := by
  unfold receiveIteration
  simp only
  split_ifs
  · cases r <;> rfl
  · rfl

theorem transmitIteration_calls (w : WebSocketImpl) (callback : Bool) (r : SendResult) :
    (w.transmitIteration callback r).2.2.filter Event.isCall = [] := by
  unfold transmitIteration leaveTransmit
  split_ifs <;> cases r <;> rfl

theorem dispatchData_calls (w : WebSocketImpl) (ws : WsHeader) :
    (w.dispatchData ws).2.2.filter Event.isCall = [] := by
  simp only [dispatchData, unmaskPayload, deliverDirectly, appendFragment, deliverAccumulated]
  split_ifs <;> simp [Event.isCall, finishDelivery, consumeFrame]

theorem dispatchPing_calls (w : WebSocketImpl) (ws : WsHeader) (key : MaskingKey) :
    ∃ d, (w.dispatchPing ws key).2.2.filter Event.isCall =
      [.sendData w.mReadyState .pong d key] := by
  have hstate := unmaskPayload_mReadyState w ws
  have hunmask : (w.unmaskPayload ws).2.filter Event.isCall = [] := by
    unfold unmaskPayload
    split_ifs <;> rfl
  have hanswer : (if ws.N ≠ 0 then [Event.access .answer ws.headerSize (u32 ws.N)]
      else []).filter Event.isCall = [] := by
    split_ifs <;> rfl
  refine ⟨(if ws.N ≠ 0 then some ((w.unmaskPayload ws).1.payload ws) else none).getD [], ?_⟩
  simp only [dispatchPing, List.filter_append, hunmask, hanswer, sendData_calls, hstate,
    List.nil_append]
  rfl

end WebSocketImpl

namespace Session

variable {s t : Session} {i : Input} {es : List Event}

theorem dispatchIteration_calls (s : Session) (key : MaskingKey) (t : Session)
    (ht : t.impl = (s.impl.dispatchIteration key).1) :
    Calls s (.dispatch key) t ((s.impl.dispatchIteration key).2.2.filter Event.isCall) := by
  have hreads (reads : List ℕ) :
      (reads.map fun i => Event.access .header i 1).filter Event.isCall = [] := by
    simp [Event.isCall]
  obtain ⟨reads, -, ⟨es, hes, heq, -⟩ | ⟨ws, -, -, -, heq⟩⟩ :=
    WebSocketImpl.dispatchIteration_cases s.impl key
  · have hnone : es.filter Event.isCall = [] := List.filter_eq_nil_iff.mpr fun e he => by
      obtain ⟨ws, n, rfl⟩ := hes e he
      simp [Event.isCall]
    rw [heq, List.filter_append, hreads, hnone]
    exact .none rfl
  · have hparsed (n : ℕ) (es : List Event) :
        (Event.parsed ws n :: es).filter Event.isCall = es.filter Event.isCall := rfl
    rw [heq] at ht ⊢
    simp only [List.filter_append, hreads, hparsed, List.nil_append] at ht ⊢
    unfold WebSocketImpl.dispatchFrame at ht ⊢
    split at ht
    · exact WebSocketImpl.dispatchData_calls s.impl ws ▸ .none rfl
    · exact WebSocketImpl.dispatchData_calls s.impl ws ▸ .none rfl
    · exact WebSocketImpl.dispatchData_calls s.impl ws ▸ .none rfl
    · obtain ⟨d, hd⟩ := WebSocketImpl.dispatchPing_calls s.impl ws key
      simp only [hd]
      exact .pong
    · exact .none rfl
    · obtain ⟨hclose, hrank⟩ := WebSocketImpl.close_calls s.impl
      simp only [hclose]
      exact .close rfl (ht ▸ hrank)
    · obtain ⟨hclose, hrank⟩ := WebSocketImpl.close_calls s.impl
      simp only [hclose]
      exact .close rfl (ht ▸ hrank)

/-- A step calls `sendData` or `close` at most once. -/
theorem step_calls (h : s.step i = some (t, es)) : Calls s i t (es.filter Event.isCall) := by
  cases step_cases h with
  | call _ hcall =>
    obtain ⟨type, data, key, hframe, rfl⟩ | ⟨rfl, rfl⟩ := WebSocketImpl.call_cases hcall
    · rw [WebSocketImpl.sendData_calls]
      exact .send hframe
    · obtain ⟨hclose, hrank⟩ := WebSocketImpl.close_calls s.impl
      rw [hclose]
      exact .close rfl hrank
  | poll callback timeout =>
    have : (s.impl.poll callback timeout).2.filter Event.isCall = [] := by
      unfold WebSocketImpl.poll
      split_ifs <;> rfl
    rw [this]
    exact .none rfl
  | destroy =>
    obtain ⟨hclose, hrank⟩ := WebSocketImpl.close_calls s.impl
    rw [hclose]
    exact .close rfl hrank
  | connect => exact WebSocketImpl.processConnection_calls _ _ _ ▸ .none rfl
  | receive => exact WebSocketImpl.receiveIteration_calls _ _ _ ▸ .none rfl
  | transmit => exact WebSocketImpl.transmitIteration_calls _ _ _ ▸ .none rfl
  | dispatch key => exact dispatchIteration_calls s key _ rfl
  | ret => exact .none rfl
  | destroyLoop timedOut _ _ hes =>
    rcases hes with rfl | rfl <;> exact .none rfl

theorem Bounded.frontFits (hguard : Bounded s i es) (h : s.step i = some (t, es))
    (key : MaskingKey) (hi : i = .dispatch key) : s.impl.FrontFits := by
  subst hi
  cases step_cases h with
  | call _ hcall => cases hcall
  | dispatch => exact WebSocketImpl.frontFits_of_parsed hguard.2

/-! ### Invariants of runs -/

/-- The bytes that are on the wire or in the transmit buffer are those that it accepted, and nothing
is queued behind a close frame. -/
structure Sender (es : List Event) (s : Session) : Prop where
  consistent : s.Consistent
  wf : s.impl.mTransmitBuffer.WF
  bytes : es.flatMap Event.acceptedBytes ++ s.impl.mTransmitBuffer.getData =
    es.flatMap Event.queuedBytes
  closing : ∀ e ∈ es, e.isCloseFrame = true → 2 ≤ s.impl.mReadyState.rank
  order : es.Pairwise NothingAfterClose

/-- No payload that is to be masked is refused by the transmit buffer. -/
def NoMaskedRefusal (s : Session) (i : Input) (es : List Event) : Prop :=
  Bounded s i es ∧ ∀ e ∈ es, e.isMaskedRefusal = false

/-- The transmit buffer refuses nothing. -/
def NoTransmitRefusal (s : Session) (i : Input) (es : List Event) : Prop :=
  Bounded s i es ∧ ∀ e ∈ es, e.isTransmitRefusal = false

instance (s : Session) (i : Input) (es : List Event) : Decidable (NoTransmitRefusal s i es) :=
  inferInstanceAs (Decidable ((_ ∧ _) ∧ _))

instance (s : Session) (i : Input) (es : List Event) : Decidable (NoMaskedRefusal s i es) :=
  inferInstanceAs (Decidable ((_ ∧ _) ∧ _))

theorem NoTransmitRefusal.noMaskedRefusal (h : NoTransmitRefusal s i es) :
    NoMaskedRefusal s i es :=
  ⟨h.1, fun e he => Event.isTransmitRefusal_of_isMaskedRefusal (h.2 e he)⟩

theorem Constructed.sender (hs : Constructed s) : Sender [] s := by
  obtain ⟨heap, -, hbuf, -⟩ := hs.buffers
  obtain ⟨hwf, hdata⟩ := newBuffer_spec (heap 1)
  exact ⟨hs.consistent, hbuf ▸ hwf, by simpa [hbuf] using hdata, by simp, .nil⟩

theorem step_sender {es' : List Event} (hs : Sender es s) (h : s.step i = some (t, es'))
    (hguard : NoMaskedRefusal s i es') : Sender (es ++ es') t := by
  obtain ⟨htr, -, hadv⟩ := step_sends hs.wf hs.consistent h hguard.1.1 (hguard.1.frontFits h)
  refine ⟨step_consistent hs.consistent h, htr.wf, ?_, fun e he hc => ?_, ?_⟩
  · rw [List.flatMap_append, List.flatMap_append, List.append_assoc, htr.bytes hguard.2,
      ← List.append_assoc, hs.bytes]
  · exact (List.mem_append.mp he).elim (fun he => (hs.closing e he hc).trans hadv.rank_le)
      fun he => hadv.closing e he hc
  · exact List.pairwise_append.mpr ⟨hs.order, hadv.order, fun e he e' he' hc =>
      hadv.silent (hs.closing e he hc) e' he'⟩

theorem run_sender {tr : List (Input × List Event)} (hs : Constructed s)
    (h : sessionMachine.Run NoMaskedRefusal s tr t) : Sender (Machine.events tr) t :=
  h.invariant_events (P := Sender) hs.sender fun _ _ _ _ _ ih hstep hguard =>
    step_sender ih hstep hguard

/-- Only calls stand for frames. -/
theorem flatMap_filter_isCall {β : Type*} {f : Event → List β}
    (hf : ∀ e, e.isCall = false → f e = [])
    (es : List Event) : es.flatMap f = (es.filter Event.isCall).flatMap f := by
  induction es with
  | nil => rfl
  | cons e es ih =>
    cases he : e.isCall with
    | true => rw [List.filter_cons_of_pos he, List.flatMap_cons, List.flatMap_cons, ih]
    | false => rw [List.filter_cons_of_neg (by simp [he]), List.flatMap_cons, hf e he, ih]; rfl

private theorem any_filter_isCall (es : List Event) :
    es.any Event.isClosing = (es.filter Event.isCall).any Event.isClosing := by
  rw [List.any_filter]
  congr 1
  funext e
  cases e <;> simp [Event.isCall, Event.isClosing]

/-- The frames of the calls, in order, and the close frame behind them. -/
structure Frames (useMask : Bool) (es : List Event) (s : Session) : Prop where
  issued : es.flatMap (Event.issuedBytes useMask) = es.flatMap (Event.frameBytes useMask) ++
    if es.any Event.isClosing then WebSocketImpl.closeFrame else []
  closing : es.any Event.isClosing = true → 2 ≤ s.impl.mReadyState.rank

theorem step_frames {es' : List Event} {useMask : Bool} (hc : s.Consistent)
    (hs : Frames useMask es s) (h : s.step i = some (t, es')) : Frames useMask (es ++ es') t := by
  have hrank := step_rank_le hc h
  have hissued := flatMap_filter_isCall (f := Event.issuedBytes useMask)
    (fun e he => by cases e <;> first | rfl | cases he) es'
  have hframe := flatMap_filter_isCall (f := Event.frameBytes useMask)
    (fun e he => by cases e <;> first | rfl | cases he) es'
  have hany := any_filter_isCall es'
  have hcalls := step_calls h
  revert hissued hframe hany hcalls
  generalize es'.filter Event.isCall = cs
  intro hissued hframe hany hcalls
  have hclosing : (es ++ es').any Event.isClosing = true → 2 ≤ t.impl.mReadyState.rank := by
    rw [List.any_append, Bool.or_eq_true]
    rintro (hes | hes)
    · exact (hs.closing hes).trans hrank
    · rw [hany] at hes
      cases hcalls with
      | close _ ht => exact ht
      | _ => simp [Event.isClosing] at hes
  refine ⟨?_, hclosing⟩
  rw [List.flatMap_append, List.flatMap_append, List.any_append, hs.issued, hissued, hframe, hany]
  cases hcalls with
  | none => simp
  | send _ | pong =>
    by_cases hes : es.any Event.isClosing = true
    · have := hs.closing hes
      simp [hes, Event.issuedBytes, Event.frameBytes, Event.isClosing, this]
    · simp [hes, Event.issuedBytes, Event.frameBytes, Event.isClosing]
  | close _ _ =>
    by_cases hr : 2 ≤ s.impl.mReadyState.rank
    · have hno : (Event.closeCall s.impl.mReadyState).isClosing = false := by
        simp only [Event.isClosing, decide_eq_false_iff_not]
        omega
      simp [hno, Event.issuedBytes, Event.frameBytes, hr]
    · have hyes : (Event.closeCall s.impl.mReadyState).isClosing = true := by
        simp only [Event.isClosing, decide_eq_true_eq]
        omega
      have hes : es.any Event.isClosing = false := by
        by_contra hne
        exact hr (hs.closing (by simpa using hne))
      simp [hes, hyes, Event.issuedBytes, Event.frameBytes, hr]

/-- While a connection is `CONNECTING` no frame is touched. -/
theorem run_connecting {G : Session → Input → List Event → Prop} {tr : List (Input × List Event)}
    (hs : Constructed s) (h : sessionMachine.Run G s tr t) :
    t.Consistent ∧
      (t.impl.mReadyState = .connecting → ∀ e ∈ Machine.events tr, e.isFrame = false) := by
  refine h.invariant_events (P := fun es t => t.Consistent ∧
    (t.impl.mReadyState = .connecting → ∀ e ∈ es, e.isFrame = false))
    ⟨hs.consistent, by simp⟩ fun es u i es' v ih hstep _ => ?_
  obtain ⟨hc, hno⟩ := ih
  refine ⟨step_consistent hc hstep, fun hv e he => ?_⟩
  have hrank := step_rank_le hc hstep
  rw [hv, ReadyState.rank_connecting, Nat.le_zero] at hrank
  have hu : u.impl.mReadyState = .connecting := by
    cases hst : u.impl.mReadyState <;> simp_all
  rcases List.mem_append.mp he with he | he
  · exact hno hu e he
  · by_contra hf
    obtain ⟨a, ha, hp⟩ := step_isFrame hc hstep ⟨e, he, by simpa using hf⟩
    have := hc.past a ha hp
    omega

/-- Past `CONNECTING`, `close` is not called on a connection that is `CONNECTING`. -/
theorem run_past_connecting {G : Session → Input → List Event → Prop}
    {tr : List (Input × List Event)} (hs : s.Consistent) (hrank : 1 ≤ s.impl.mReadyState.rank)
    (h : sessionMachine.Run G s tr t) : .closeCall .connecting ∉ Machine.events tr := by
  refine (h.invariant_events (P := fun es t => t.Consistent ∧ 1 ≤ t.impl.mReadyState.rank ∧
    .closeCall .connecting ∉ es) ⟨hs, hrank, by simp⟩ fun es u i es' v ih hstep _ => ?_).2.2
  obtain ⟨hc, hu, hno⟩ := ih
  refine ⟨step_consistent hc hstep, hu.trans (step_rank_le hc hstep), fun hmem => ?_⟩
  rcases List.mem_append.mp hmem with hmem | hmem
  · exact hno hmem
  · have hfilter := List.mem_filter.mpr ⟨hmem, (rfl : Event.isCall (.closeCall .connecting) = true)⟩
    have hcalls := step_calls hstep
    revert hfilter hcalls
    generalize es'.filter Event.isCall = cs
    intro hfilter hcalls
    cases hcalls with
    | close _ _ =>
      rw [← Event.closeCall.inj (List.mem_singleton.mp hfilter)] at hu
      simp at hu
    | _ => simp at hfilter

/-- What the transmit buffer accepted is what was issued. -/
theorem run_frames {tr : List (Input × List Event)} (hs : Constructed s)
    (h : sessionMachine.Run NoTransmitRefusal s tr t) :
    (Machine.events tr).flatMap Event.queuedBytes =
        (Machine.events tr).flatMap (Event.issuedBytes s.impl.mUseMask) ∧
      Frames s.impl.mUseMask (Machine.events tr) t := by
  refine (h.invariant_events (P := fun es t => Sender es t ∧ t.impl.mUseMask = s.impl.mUseMask ∧
    es.flatMap Event.queuedBytes = es.flatMap (Event.issuedBytes s.impl.mUseMask) ∧
      Frames s.impl.mUseMask es t) ⟨hs.sender, rfl, rfl, ⟨rfl, by simp⟩⟩
    fun es u i es' v ih hstep hguard => ?_).2.2
  obtain ⟨hsender, hmask, hqueued, hframes⟩ := ih
  obtain ⟨htr, hq, -⟩ := step_sends hsender.wf hsender.consistent hstep hguard.1.1
    (hguard.1.frontFits hstep)
  refine ⟨step_sender hsender hstep hguard.noMaskedRefusal, htr.useMask.trans hmask, ?_,
    step_frames hsender.consistent hframes hstep⟩
  rw [List.flatMap_append, List.flatMap_append, hqueued, hq hguard.2, hmask]

/-- The wire contract. Take a run from a constructed object to a state that is `OPEN`, and any run
from there. The bytes that the socket accepted, followed by those in the transmit buffer, are one
frame for each call of `sendText`, `sendBinary` and `sendPing` and each answer to a `PING` that was
made in the states `CONNECTING` and `OPEN`, followed by the close frame if `close` ran while the
connection was `OPEN`. None of the bytes was accepted before the connection was `OPEN`; each step
makes the calls that its input asks for, in the state in which the run makes it; and what was in the
buffer stays as it was. -/
theorem wire_contract {u : Session} {tr₁ tr₂ : List (Input × List Event)} (hs : Constructed s)
    (h₁ : sessionMachine.Run NoTransmitRefusal s tr₁ t) (ht : t.impl.mReadyState = .opened)
    (h₂ : sessionMachine.Run NoTransmitRefusal t tr₂ u) :
    ((Machine.events (tr₁ ++ tr₂)).flatMap Event.acceptedBytes ++ u.impl.mTransmitBuffer.getData =
      (Machine.events (tr₁ ++ tr₂)).flatMap (Event.frameBytes s.impl.mUseMask) ++
        if .closeCall .opened ∈ Machine.events (tr₁ ++ tr₂) then WebSocketImpl.closeFrame
        else []) ∧
      (∀ tr₀ t₀, sessionMachine.Run NoTransmitRefusal s tr₀ t₀ →
        t₀.impl.mReadyState = .connecting → (Machine.events tr₀).flatMap Event.acceptedBytes = []) ∧
      (∀ tr p tr', tr₁ ++ tr₂ = tr ++ p :: tr' → ∃ v v',
        sessionMachine.Run NoTransmitRefusal s tr v ∧ v.step p.1 = some (v', p.2) ∧
          Calls v p.1 v' (p.2.filter Event.isCall)) ∧
      ∀ i v es, u.step i = some (v, es) → NoTransmitRefusal u i es →
        u.impl.mTransmitBuffer.getData <+:
          es.flatMap Event.acceptedBytes ++ v.impl.mTransmitBuffer.getData := by
  have h := h₁.trans h₂
  have hsender := run_sender hs (h.mono fun _ _ _ => NoTransmitRefusal.noMaskedRefusal)
  refine ⟨?_, fun tr₀ t₀ h₀ hconn => ?_, fun tr p tr' hsplit => ?_,
    fun i v es hstep hguard => ?_⟩
  · obtain ⟨hqueued, hframes⟩ := run_frames hs h
    rw [hsender.bytes, hqueued, hframes.issued]
    -- `close` did not run before the connection was `OPEN`
    have hbefore : (Machine.events tr₁).any Event.isClosing = false := by
      by_contra hne
      have := (run_frames hs h₁).2.closing (by simpa using hne)
      simp [ht] at this
    have hc := (run_sender hs (h₁.mono fun _ _ _ => NoTransmitRefusal.noMaskedRefusal)).consistent
    have hafter := run_past_connecting hc (by simp [ht]) h₂
    have hiff : (Machine.events (tr₁ ++ tr₂)).any Event.isClosing = true ↔
        .closeCall .opened ∈ Machine.events (tr₁ ++ tr₂) := by
      rw [Machine.events_append, List.any_append, hbefore, Bool.false_or, List.any_eq_true,
        List.mem_append]
      constructor
      · rintro ⟨e, he, hcl⟩
        right
        cases e with
        | closeCall state => cases state <;> simp_all [Event.isClosing]
        | _ => cases hcl
      · rintro (he | he)
        · exact absurd rfl (List.any_eq_false.mp hbefore _ he)
        · exact ⟨_, he, rfl⟩
    simp only [hiff]
  · refine List.flatMap_eq_nil_iff.mpr fun e he => ?_
    have hno := (run_connecting hs h₀).2 hconn e he
    cases e <;> first | rfl | cases hno
  · rw [hsplit] at h
    obtain ⟨v, v', hrun, hstep, -⟩ := h.exists_step
    exact ⟨v, v', hrun, hstep, step_calls hstep⟩
  · have hsends := step_sends hsender.wf hsender.consistent hstep hguard.1.1
      (hguard.1.frontFits hstep)
    rw [hsends.transmits.bytes fun e he => Event.isTransmitRefusal_of_isMaskedRefusal
      (hguard.2 e he)]
    exact List.prefix_append _ _

/-- The handshake of a server. -/
def serverHandshake : Option (Session × List (Input × List Event)) :=
  sessionMachine.exec NoTransmitRefusal (start (.ofSocket zeroPlatform true true))
    (handshakeInputs (ascii "GET / HTTP/1.1\r\n\r\n"))

theorem serverHandshake_isSome : serverHandshake.isSome = true := by decide +kernel

/-- A server after its handshake. -/
def openServer : Session := (serverHandshake.get serverHandshake_isSome).1

theorem run_openServer :
    sessionMachine.Run NoTransmitRefusal (start (.ofSocket zeroPlatform true true))
      (serverHandshake.get serverHandshake_isSome).2 openServer :=
  Machine.run_exec (l := handshakeInputs (ascii "GET / HTTP/1.1\r\n\r\n"))
    (Option.some_get serverHandshake_isSome).symm

theorem wire_contract_server :
    ∃ tr₁ tr₂ u, sessionMachine.Run NoTransmitRefusal (start (.ofSocket zeroPlatform true true))
      tr₁ openServer ∧ sessionMachine.Run NoTransmitRefusal openServer tr₂ u ∧
      ((Machine.events (tr₁ ++ tr₂)).flatMap Event.acceptedBytes ++
        u.impl.mTransmitBuffer.getData =
          (Machine.events (tr₁ ++ tr₂)).flatMap (Event.frameBytes true) ++
            WebSocketImpl.closeFrame) := by
  obtain ⟨tr₂, u, h₂, hclose⟩ := Machine.exists_run_of_exec (M := sessionMachine)
    (G := NoTransmitRefusal) (s := openServer)
    (l := [.sendText (some (ascii "A")) 0, .poll true 0, .receive .wouldBlock, .send (.accepted 3), 
      .send .wouldBlock, .dispatch 0, .close])
    (P := fun r => decide (.closeCall .opened ∈ Machine.events r.2)) (by decide +kernel)
  have hopen : openServer.impl.mReadyState = .opened := by decide +kernel
  have hmem : .closeCall .opened ∈
      Machine.events ((serverHandshake.get serverHandshake_isSome).2 ++ tr₂) := by
    rw [Machine.events_append]
    exact List.mem_append_right _ (of_decide_eq_true hclose)
  have hwire := (wire_contract (.server zeroPlatform true true) run_openServer hopen h₂).1
  rw [if_pos hmem] at hwire
  exact ⟨_, tr₂, u, run_openServer, h₂, hwire⟩

end Session

end WsClient
