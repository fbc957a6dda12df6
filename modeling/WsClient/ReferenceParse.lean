import WsClient.Messages

/-!
# Incremental decoding and the reference parse

A connection that gets its stream in pieces, over many calls of `receive` and many polls, delivers
and answers what the reference parse of the whole stream says. The stream may be any bytes: what is
asked of it is that no header announces a frame whose size does not fit in 32 bits.

## Main definitions

* `FramesBelow`: a bound on the sizes that the headers of a stream announce.
* `Session.Healthy`: no socket call fails, no buffer refuses to grow, the callback does not poll.
* `Session.Parsing`: the invariant.

## Main results

* `Session.reference_parse`.
-/

namespace WsClient

/-- A header at the front of the stream announces a frame of a size below the bound. -/
def HeadBelow (bound : ℕ) (s : Bytes) : Prop :=
  ∀ ws ∈ (readHeader (fun i => s.getD i 0) s.length).1, ws.headerSize + ws.N < bound

instance (bound : ℕ) (s : Bytes) : Decidable (HeadBelow bound s) := by
  unfold HeadBelow
  cases (readHeader (fun i => s.getD i 0) s.length).1 with
  | none => exact isTrue (by simp)
  | some ws => exact decidable_of_iff (ws.headerSize + ws.N < bound) (by simp)

/-- The headers that are met when the stream is read frame by frame announce sizes below the
bound. -/
def FramesBelow (bound : ℕ) (s : Bytes) : Prop :=
  ∀ fs r, frameDecoder.Reads s fs r → HeadBelow bound r

theorem FramesBelow.of_none {bound : ℕ} {s : Bytes} (hp : parseFrame s = none)
    (hhead : HeadBelow bound s) : FramesBelow bound s := by
  intro fs r hr
  cases hr with
  | done => exact hhead
  | frame hp' => cases hp.symm.trans hp'

theorem FramesBelow.cons {bound : ℕ} {s r : Bytes} {f : Frame} (hp : parseFrame s = some (f, r))
    (hhead : HeadBelow bound s) (h : FramesBelow bound r) : FramesBelow bound s := by
  intro fs u hu
  cases hu with
  | done => exact hhead
  | frame hp' hrest =>
    obtain ⟨-, rfl⟩ := Prod.mk.inj (Option.some.inj (hp.symm.trans hp'))
    exact h _ _ hrest

theorem FramesBelow.mono {bound bound' : ℕ} {s : Bytes} (h : FramesBelow bound s)
    (hle : bound ≤ bound') : FramesBelow bound' s :=
  fun fs r hr ws hws => (h fs r hr ws hws).trans_le hle

/-- A header stays as it is when more of the stream arrives. -/
theorem readHeader_append {r : Bytes} {ws : WsHeader} (t : Bytes)
    (h : (readHeader (fun i => r.getD i 0) r.length).1 = some ws) :
    (readHeader (fun i => (r ++ t).getD i 0) (r ++ t).length).1 = some ws := by
  obtain ⟨rfl, -, hsize⟩ := readHeader_some (Prod.ext h rfl)
  have h2 := headerSize_pos fun i => r.getD i 0
  have hcongr : (headerOf fun i => r.getD i 0) = headerOf fun i => (r ++ t).getD i 0 := by
    refine headerOf_congr (by omega) (fun i hi => ?_) hsize
    simp only [List.getD_eq_getElem?_getD, List.getElem?_append_left hi]
  rw [readHeader_eq_some (by rw [← hcongr, List.length_append]; omega), hcongr]

theorem FramesBelow.of_prefix {bound : ℕ} {s t : Bytes} (h : FramesBelow bound t)
    (hst : s <+: t) : FramesBelow bound s := by
  obtain ⟨l, rfl⟩ := hst
  exact fun fs r hr ws hws => h fs (r ++ l) (hr.append_right l) ws (readHeader_append l hws)

namespace Session

variable {s t : Session} {i : Input} {es es' : List Event} {fs : List Frame}

/-- A step in which no socket call fails and no buffer refuses to grow; the callback does not poll,
and the application does not close the connection. -/
def Healthy (s : Session) (i : Input) (es : List Event) : Prop :=
  (∀ e ∈ es, e.isRefusal = false) ∧
    match i with
    | .poll callback _ => callback = true ∧ s.stack = []
    | .close | .destroy => False
    | .receive r => r ≠ .endOfStream ∧ r ≠ .error
    | .send r => r ≠ .zero ∧ r ≠ .error
    | _ => True

instance (s : Session) (i : Input) (es : List Event) : Decidable (Healthy s i es) :=
  @instDecidableAnd _ _ inferInstance <|
    match i with
    | .poll .. | .receive _ | .send _ => inferInstanceAs (Decidable (_ ∧ _))
    | .close | .destroy => inferInstanceAs (Decidable False)
    | .sendText .. | .sendBinary .. | .sendPing _ | .connect .. | .dispatch _ | .ret
    | .destroyLoop _ => inferInstanceAs (Decidable True)

/-- What a run with the events `es` has made of the stream it received: the frames `fs` were
processed as the reference does, and outside of `poll` none is left that should be. -/
structure Parsing (es : List Event) (fs : List Frame) (s : Session) : Prop where
  received : Received es fs s
  stack : s.stack = [] ∨ ∃ a, s.stack = [a] ∧ a.dispatches = true
  state : s.impl.mReadyState = .opened ∨ s.impl.mReadyState ≠ .connecting ∧ s.delivery = none ∧
    StopAhead s.impl.mReceiveBuffer.getData
  settled : s.stack = [] → Settled s.impl.mReceiveBuffer.getData
  pong : ∀ state d key, .sendData state .pong d key ∈ es → state = .opened

/-- No frame of a bounded stream has its size truncated. -/
theorem Received.not_overflows (hs : Received es fs s) (hnone : s.delivery = none)
    (hbelow : FramesBelow 4294967296 (es.flatMap Event.receivedBytes)) : ¬s.impl.Overflows := by
  intro hover
  have hreads := hs.reads
  rw [pending_of_none hnone] at hreads
  have hlt := hbelow fs _ hreads (headerOf s.impl.mReceiveBuffer.byteAt) (by
    rw [WebSocketImpl.readHeader_getData, readHeader_eq_some hover.1]
    rfl)
  have := hover.2.1
  omega

theorem poll_of_ne_connecting {w : WebSocketImpl} (h : w.mReadyState ≠ .connecting)
    (timeout : ℤ) : (w.poll true timeout).1 = [] ∨ (w.poll true timeout).1 = [.receiving true] := by
  unfold WebSocketImpl.poll
  split_ifs <;> simp

/-- The receive loop, as long as its calls do not fail. -/
theorem receiveIteration_of_healthy (w : WebSocketImpl) {r : RecvResult} (hr : r ≠ .endOfStream)
    (hr' : r ≠ .error) :
    (w.receiveIteration true r).1.mReadyState = w.mReadyState ∧
      ((∃ a, (w.receiveIteration true r).2.1 = [a] ∧ a.dispatches = true ∧ a.delivery = none) ∨
        (w.receiveIteration true r).2.1 = [] ∧ w.mReadyState = .closed) := by
  have hleave (b : SimpleBuffer) : (∃ a, (w.setReceive b).leaveReceive true = [a] ∧
      a.dispatches = true ∧ a.delivery = none) ∨
      (w.setReceive b).leaveReceive true = [] ∧ w.mReadyState = .closed := by
    unfold WebSocketImpl.leaveReceive
    split_ifs with hclosed
    · exact .inr ⟨rfl, hclosed⟩
    · exact .inl ⟨_, rfl, rfl, rfl⟩
  unfold WebSocketImpl.receiveIteration
  simp only
  split_ifs
  · cases r with
    | data d => exact ⟨rfl, .inl ⟨_, rfl, rfl, rfl⟩⟩
    | wouldBlock => exact ⟨rfl, hleave _⟩
    | endOfStream => exact absurd rfl hr
    | error => exact absurd rfl hr'
  · exact ⟨rfl, hleave _⟩

/-- The transmit loop, as long as its calls do not fail. -/
theorem transmitIteration_of_healthy (w : WebSocketImpl) {r : SendResult} (hr : r ≠ .zero)
    (hr' : r ≠ .error) :
    ((w.transmitIteration true r).1.mReadyState = w.mReadyState ∨
        w.mReadyState = .closing ∧ (w.transmitIteration true r).1.mReadyState = .closed) ∧
      ((∃ a, (w.transmitIteration true r).2.1 = [a] ∧ a.dispatches = true ∧ a.delivery = none) ∨
        (w.transmitIteration true r).2.1 = [] ∧ w.mReadyState = .closed) := by
  have hleave : ((w.leaveTransmit true).1.mReadyState = w.mReadyState ∨
      w.mReadyState = .closing ∧ (w.leaveTransmit true).1.mReadyState = .closed) ∧
      ((∃ a, (w.leaveTransmit true).2.1 = [a] ∧ a.dispatches = true ∧ a.delivery = none) ∨
        (w.leaveTransmit true).2.1 = [] ∧ w.mReadyState = .closed) := by
    unfold WebSocketImpl.leaveTransmit
    split_ifs with hclosed hclosing
    · exact ⟨.inl rfl, .inr ⟨rfl, hclosed⟩⟩
    · exact ⟨.inr ⟨hclosing.2, rfl⟩, .inl ⟨_, rfl, rfl, rfl⟩⟩
    · exact ⟨.inl rfl, .inl ⟨_, rfl, rfl, rfl⟩⟩
  unfold WebSocketImpl.transmitIteration
  split_ifs
  · exact hleave
  · cases r with
    | accepted n => exact ⟨.inl rfl, .inl ⟨_, rfl, rfl, rfl⟩⟩
    | wouldBlock => exact hleave
    | zero => exact absurd rfl hr
    | error => exact absurd rfl hr'

/-- Only the innermost function is entered, and it dispatches. -/
theorem Parsing.of_cons {a : Activation} {rest : List Activation} (hs : Parsing es fs s)
    (hstack : s.stack = a :: rest) : rest = [] ∧ a.dispatches = true := by
  obtain hnil | ⟨b, hb, hdisp⟩ := hs.stack
  · simp [hstack] at hnil
  · obtain ⟨rfl, rfl⟩ := List.cons.inj (hstack.symm.trans hb)
    exact ⟨rfl, hdisp⟩

theorem Parsing.ne_connecting (hs : Parsing es fs s) : s.impl.mReadyState ≠ .connecting := by
  obtain hopen | ⟨hne, -⟩ := hs.state
  · simp [hopen]
  · exact hne

/-- A `PONG` is queued in the ready state before the step, by an iteration of the frame loop. -/
theorem step_pong (h : s.step i = some (t, es)) {state : ReadyState} {d : Bytes}
    {key : MaskingKey} (hmem : .sendData state .pong d key ∈ es) :
    state = s.impl.mReadyState ∧ ∃ key, i = .dispatch key := by
  have hfilter : .sendData state .pong d key ∈ es.filter Event.isCall :=
    List.mem_filter.mpr ⟨hmem, rfl⟩
  have hcalls := step_calls h
  generalize es.filter Event.isCall = l at hfilter hcalls
  cases hcalls with
  | none => cases hfilter
  | send hframe =>
    obtain ⟨rfl, rfl, rfl, rfl⟩ : _ ∧ _ ∧ _ ∧ _ := by simpa using hfilter
    cases i <;> simp [Input.frame] at hframe
  | pong =>
    obtain ⟨rfl, -⟩ : _ ∧ _ := by simpa using hfilter
    exact ⟨rfl, _, rfl⟩
  | close => simp at hfilter

/-- The state field of the invariant after a step that processes no frame. -/
theorem Parsing.state_of_appends (hs : Parsing es fs s) (happ : Appends s.impl t.impl es')
    (hdelivery : t.delivery = s.delivery)
    (hstate : t.impl.mReadyState = s.impl.mReadyState ∨
      s.impl.mReadyState = .closing ∧ t.impl.mReadyState = .closed) :
    t.impl.mReadyState = .opened ∨ t.impl.mReadyState ≠ .connecting ∧ t.delivery = none ∧
      StopAhead t.impl.mReceiveBuffer.getData := by
  rw [hdelivery, happ.receiveBuffer]
  obtain hopen | ⟨hne, hnone, hstop⟩ := hs.state
  · refine .inl ?_
    rcases hstate with hsame | ⟨hclosing, -⟩
    · exact hsame.trans hopen
    · simp [hopen] at hclosing
  · refine .inr ⟨?_, hnone, hstop.append _⟩
    rcases hstate with hsame | ⟨-, hclosed⟩
    · rwa [hsame]
    · simp [hclosed]

/-- A closed connection has nothing left to process. -/
theorem Parsing.settled_of_closed (hs : Parsing es fs s) (hclosed : s.impl.mReadyState = .closed)
    (happ : Appends s.impl t.impl es') : Settled t.impl.mReceiveBuffer.getData := by
  obtain hopen | ⟨-, -, hstop⟩ := hs.state
  · simp [hclosed] at hopen
  · rw [happ.receiveBuffer]
    exact (hstop.append _).settled

/-- A loop of `poll` goes on, or `poll` returns. -/
theorem Parsing.of_next {w : WebSocketImpl} {next : List Activation} {gs : List Frame}
    (hs : Parsing es fs s) (happ : Appends s.impl w es') (hnone : s.delivery = none)
    (hstate : w.mReadyState = s.impl.mReadyState ∨
      s.impl.mReadyState = .closing ∧ w.mReadyState = .closed)
    (hnext : (∃ a, next = [a] ∧ a.dispatches = true ∧ a.delivery = none) ∨
      next = [] ∧ s.impl.mReadyState = .closed)
    (hrec : Received (es ++ es') (fs ++ gs) ⟨w, next ++ []⟩)
    (hpong : ∀ state d key, .sendData state .pong d key ∈ es ++ es' → state = .opened) :
    Parsing (es ++ es') (fs ++ gs) ⟨w, next ++ []⟩ := by
  rw [List.append_nil] at hrec ⊢
  obtain ⟨a, rfl, hdisp, ha⟩ | ⟨rfl, hclosed⟩ := hnext
  · have hnone' : delivery ⟨w, [a]⟩ = s.delivery := by
      rw [hnone, delivery, List.findSome?_cons_of_isNone (by simp [ha])]
      rfl
    exact ⟨hrec, .inr ⟨a, rfl, hdisp⟩, hs.state_of_appends (t := ⟨w, [a]⟩) happ hnone' hstate,
      (fun h => by cases h), hpong⟩
  · exact ⟨hrec, .inl rfl, hs.state_of_appends (t := ⟨w, []⟩) happ hnone.symm hstate,
      fun _ => hs.settled_of_closed (t := ⟨w, []⟩) hclosed happ, hpong⟩

/-- One iteration of the frame loop. -/
theorem Parsing.dispatch {key : MaskingKey} {gs : List Frame} (hs : Parsing es fs s)
    (hstep : WebSocketImpl.FrameStep s.impl (s.impl.dispatchIteration key))
    (hcalls : ∀ state d key', .sendData state .pong d key' ∈ (s.impl.dispatchIteration key).2.2 →
      state = s.impl.mReadyState)
    (hrec : Received (es ++ (s.impl.dispatchIteration key).2.2) (fs ++ gs)
      ⟨(s.impl.dispatchIteration key).1, (s.impl.dispatchIteration key).2.1.next⟩) :
    Parsing (es ++ (s.impl.dispatchIteration key).2.2) (fs ++ gs)
      ⟨(s.impl.dispatchIteration key).1, (s.impl.dispatchIteration key).2.1.next⟩ := by
  have hrank := (WebSocketImpl.dispatchIteration_keeps s.impl key).rank_le
  generalize s.impl.dispatchIteration key = r at *
  cases hstep with
  | settled hsettled hflow hstate hkeeps =>
    have hnone (w : WebSocketImpl) : delivery ⟨w, []⟩ = none := rfl
    rw [hflow] at hrec ⊢
    refine ⟨hrec, .inl rfl, ?_, fun _ => hkeeps.receiveBuffer ▸ hsettled, fun state d key' h => ?_⟩
    · simp only [WebSocketImpl.Flow.next, hnone, hkeeps.receiveBuffer]
      rcases hstate with hsame | hstop
      · rw [hsame]
        exact hs.state.imp_right fun h => ⟨h.1, trivial, h.2.2⟩
      · refine .inr ⟨fun hconn => hs.ne_connecting ?_, trivial, hstop⟩
        rw [hconn, ReadyState.rank_connecting] at hrank
        cases hst : s.impl.mReadyState <;> simp [hst] at hrank ⊢
    · rcases List.mem_append.mp h with h | h
      · exact hs.pong _ _ _ h
      · have hout : .pong d ∈ r.2.2.flatMap Event.outputs :=
          List.mem_flatMap.mpr ⟨_, h, List.mem_singleton_self _⟩
        rw [hkeeps.outputs] at hout
        cases hout
  | frame hp hop hstate hwf hint hflow =>
    have hopen : s.impl.mReadyState = .opened := by
      obtain hopen | ⟨-, -, f, u, hp', hstop⟩ := hs.state
      · exact hopen
      · obtain ⟨rfl, -⟩ := Prod.mk.inj (Option.some.inj (hp.symm.trans hp'))
        simp [hop] at hstop
    refine ⟨hrec, .inr ?_, .inl (hstate.trans hopen), fun h => ?_, fun state d key' h => ?_⟩
    · rcases hflow with ⟨hflow, -⟩ | ⟨n, clear, hflow, -⟩ <;> rw [hflow] <;> exact ⟨_, rfl, rfl⟩
    · rcases hflow with ⟨hflow, -⟩ | ⟨n, clear, hflow, -⟩ <;> rw [hflow] at h <;> cases h
    · rcases List.mem_append.mp h with h | h
      · exact hs.pong _ _ _ h
      · exact (hcalls _ _ _ h).trans hopen

/-- The frame loop runs while no frame is being delivered. -/
theorem Parsing.delivery_eq_none {key : MaskingKey} (hs : Parsing es fs s)
    (h : s.step (.dispatch key) = some (t, es')) : s.delivery = none := by
  cases step_cases h with
  | call _ hcall => cases hcall
  | dispatch _ hstack =>
    rw [delivery, hstack, (hs.of_cons hstack).1]
    rfl

theorem step_parsing (hs : Parsing es fs s) (h : s.step i = some (t, es'))
    (hguard : Healthy s i es')
    (hbelow : FramesBelow 4294967296 (es.flatMap Event.receivedBytes)) :
    ∃ gs, Parsing (es ++ es') (fs ++ gs) t := by
  have hover (key : MaskingKey) (hi : i = .dispatch key) : ¬s.impl.Overflows := by
    subst hi
    exact hs.received.not_overflows (hs.delivery_eq_none h) hbelow
  have hno (n : ℕ) : .refused .fragment n ∉ es' := fun hn => by
    have := hguard.1 _ hn
    cases this
  obtain ⟨gs, hrec⟩ := step_received hs.received h
    (fun timeout hi => by subst hi; exact hguard.2.2) fun key hi => ⟨hover key hi, hno⟩
  have hpong (hi : ∀ key, i ≠ .dispatch key) (state : ReadyState) (d : Bytes) (key : MaskingKey)
      (hmem : .sendData state .pong d key ∈ es ++ es') : state = .opened := by
    rcases List.mem_append.mp hmem with hmem | hmem
    · exact hs.pong _ _ _ hmem
    · obtain ⟨-, key, hkey⟩ := step_pong h hmem
      exact absurd hkey (hi key)
  refine ⟨gs, ?_⟩
  have hhealthy := hguard.2
  cases step_cases h with
  | call hcallable hcall =>
    have happ := (call_keepsReceived hcall).appends hs.received.receive_wf
    have hsame := (call_keepsReceived hcall).receiveBuffer
    obtain ⟨type, data, key, hframe, rfl⟩ | ⟨rfl, rfl⟩ := WebSocketImpl.call_cases hcall
    · refine ⟨hrec, hs.stack, hs.state_of_appends happ rfl
        (.inl (WebSocketImpl.sendData_mReadyState _ _ _ _ _)),
        fun hnil => hsame.symm ▸ hs.settled hnil, hpong ?_⟩
      rintro key' rfl
      cases hframe
    · cases hhealthy
  | poll callback timeout =>
    obtain ⟨rfl, hnil⟩ := hhealthy
    have happ := (poll_keepsReceived s.impl true timeout).appends hs.received.receive_wf
    have hnone : delivery s = none := by rw [delivery, hnil]; rfl
    rw [hnil, List.append_nil] at hrec ⊢
    rcases poll_of_ne_connecting hs.ne_connecting timeout with hpoll | hpoll
    · rw [hpoll] at hrec ⊢
      exact ⟨hrec, .inl rfl, hs.state_of_appends happ hnone.symm (.inl rfl),
        fun _ => hs.settled hnil, hpong (by simp)⟩
    · rw [hpoll] at hrec ⊢
      exact ⟨hrec, .inr ⟨_, rfl, rfl⟩, hs.state_of_appends happ hnone.symm (.inl rfl),
        (fun h => by cases h), hpong (by simp)⟩
  | destroy => cases hhealthy
  | connect _ _ hstack => cases (hs.of_cons hstack).2
  | @receive callback rest r hstack hr =>
    obtain ⟨rfl, rfl⟩ := hs.of_cons hstack
    have happ := WebSocketImpl.receiveIteration_appends hs.received.receive_wf true hr
    have hnone : s.delivery = none := by rw [delivery, hstack]; rfl
    obtain ⟨hstate, hnext⟩ := receiveIteration_of_healthy s.impl hhealthy.1 hhealthy.2
    exact hs.of_next happ hnone (.inl hstate) hnext hrec (hpong (by simp))
  | @transmit callback rest r hstack hr =>
    obtain ⟨rfl, rfl⟩ := hs.of_cons hstack
    have happ := (WebSocketImpl.transmitIteration_keepsReceived s.impl true r).appends
      hs.received.receive_wf
    have hnone : s.delivery = none := by rw [delivery, hstack]; rfl
    obtain ⟨hstate, hnext⟩ := transmitIteration_of_healthy s.impl hhealthy.1 hhealthy.2
    exact hs.of_next happ hnone hstate hnext hrec (hpong (by simp))
  | dispatch key hstack =>
    obtain ⟨rfl, -⟩ := hs.of_cons hstack
    rw [List.append_nil] at hrec ⊢
    exact hs.dispatch (WebSocketImpl.dispatchIteration_frames hs.received.receive_wf
      hs.received.data_wf (hover key rfl) key hno) (fun _ _ _ hmem => (step_pong h hmem).1) hrec
  | @ret frameSize clear rest hstack =>
    obtain ⟨rfl, -⟩ := hs.of_cons hstack
    have hopen : s.impl.mReadyState = .opened := hs.state.resolve_right fun h => by
      simp [delivery, hstack, Activation.delivery] at h
    refine ⟨hrec, .inr ⟨_, rfl, rfl⟩, .inl ?_, (fun h => by cases h), hpong (by simp)⟩
    cases clear <;> exact hopen
  | destroyLoop _ hstack => cases (hs.of_cons hstack).2

/-- An `OPEN` connection that has received nothing and is not in a call. -/
structure OpenEmpty (s : Session) : Prop where
  stack : s.stack = []
  opened : s.impl.mReadyState = .opened
  receive_wf : s.impl.mReceiveBuffer.WF
  receive_nil : s.impl.mReceiveBuffer.getData = []
  data_wf : s.impl.mReceivedData.WF
  data_nil : s.impl.mReceivedData.getData = []

theorem openEmpty_openServer : OpenEmpty openServer := by
  obtain ⟨_, hreceived⟩ := run_received (.server zeroPlatform true true)
    (run_openServer_of (G := FragmentsStored) (by decide +kernel))
  exact ⟨by decide +kernel, by decide +kernel, hreceived.receive_wf, by decide +kernel,
    hreceived.data_wf, by decide +kernel⟩

theorem OpenEmpty.parsing (hs : OpenEmpty s) : Parsing [] [] s := by
  have hnone : s.delivery = none := by rw [delivery, hs.stack]; rfl
  refine ⟨⟨hs.receive_wf, hs.data_wf, by simp [hs.stack], by simp [hnone], ?_, by simp, ?_, rfl⟩,
    .inl hs.stack, .inl hs.opened, fun _ f r h => ?_, by simp⟩
  · rw [pending_of_none hnone, hs.receive_nil]
    exact .done []
  · rw [accumulated_of_none hnone, hs.data_nil]
    rfl
  · rw [hs.receive_nil] at h
    cases h

theorem run_parsing {tr : List (Input × List Event)} (hs : OpenEmpty s)
    (h : sessionMachine.Run Healthy s tr t)
    (hbelow : FramesBelow 4294967296 ((Machine.events tr).flatMap Event.receivedBytes)) :
    ∃ fs, Parsing (Machine.events tr) fs t := by
  have hP := h.invariant_events (P := fun es t =>
    FramesBelow 4294967296 (es.flatMap Event.receivedBytes) → ∃ fs, Parsing es fs t)
    (fun _ => ⟨[], hs.parsing⟩) ?_
  · exact hP hbelow
  intro es t i es' u ih hstep hguard hbelow
  have hprefix : es.flatMap Event.receivedBytes <+: (es ++ es').flatMap Event.receivedBytes := by
    rw [List.flatMap_append]
    exact List.prefix_append _ _
  have hbelow' := hbelow.of_prefix hprefix
  obtain ⟨fs, hfs⟩ := ih hbelow'
  obtain ⟨gs, hgs⟩ := step_parsing hfs hstep hguard hbelow'
  exact ⟨fs ++ gs, hgs⟩

/-- However the stream is cut into calls of `receive` and polls, what is delivered and answered is
what the reference parse of the stream says: at any time a part of it, and all of it outside of
`poll`. The answers are queued in the state `OPEN`. -/
theorem reference_parse {tr : List (Input × List Event)} (hs : OpenEmpty s)
    (h : sessionMachine.Run Healthy s tr t)
    (hbelow : FramesBelow (2 ^ 29) ((Machine.events tr).flatMap Event.receivedBytes)) :
    (Machine.events tr).flatMap Event.outputs <+:
        referenceOutputs ((Machine.events tr).flatMap Event.receivedBytes) ∧
      (t.stack = [] → (Machine.events tr).flatMap Event.outputs =
        referenceOutputs ((Machine.events tr).flatMap Event.receivedBytes)) ∧
      ∀ state d key, .sendData state .pong d key ∈ Machine.events tr → state = .opened := by
  obtain ⟨fs, hfs⟩ := run_parsing hs h (hbelow.mono (by decide))
  have hreads := hfs.received.reads
  have houts := hfs.received.outputs_eq
  refine ⟨?_, fun hnil => ?_, hfs.pong⟩
  · rw [houts]
    exact interpret_mono (prefix_framesBeforeStop hreads hfs.received.not_stop)
  · have hnone : t.delivery = none := by rw [delivery, hnil]; rfl
    rw [pending_of_none hnone] at hreads
    rw [houts, referenceOutputs,
      framesBeforeStop_of_reads hreads hfs.received.not_stop (hfs.settled hnil)]

/-- A masked text in two fragments with a `PING` between them, cut inside its headers. -/
theorem reference_parse_pieces :
    ∃ tr t, sessionMachine.Run Healthy openServer tr t ∧
      (Machine.events tr).flatMap Event.outputs =
        [.pong [0x50], .message [0x41, 0x42] false] ∧
      (Machine.events tr).flatMap Event.outputs =
        referenceOutputs ((Machine.events tr).flatMap Event.receivedBytes) := by
  obtain ⟨tr, t, hrun, hP⟩ := Machine.exists_run_of_exec (M := sessionMachine) (G := Healthy)
    (s := openServer)
    (l := pollInputs [0x01, 0x81, 1] [.dispatch 0] ++
      pollInputs [0, 0, 0, 0x40, 0x89, 1, 0x50, 0x80] [.dispatch 0, .dispatch 0, .dispatch 0] ++
      pollInputs [1, 0x42] [.dispatch 0, .ret, .dispatch 0])
    (P := fun r => decide (r.1.stack = [] ∧ (Machine.events r.2).flatMap Event.receivedBytes =
        [0x01, 0x81, 1, 0, 0, 0, 0x40, 0x89, 1, 0x50, 0x80, 1, 0x42] ∧
      (Machine.events r.2).flatMap Event.outputs =
        [.pong [0x50], .message [0x41, 0x42] false])) (by decide +kernel)
  obtain ⟨hstack, hbytes, houts⟩ := of_decide_eq_true hP
  have hbelow : FramesBelow (2 ^ 29) ((Machine.events tr).flatMap Event.receivedBytes) := by
    rw [hbytes]
    exact .cons (f := ⟨false, .textFrame, [0x41]⟩) (r := [0x89, 1, 0x50, 0x80, 1, 0x42])
      (by decide) (by decide) <|
      .cons (f := ⟨true, .ping, [0x50]⟩) (r := [0x80, 1, 0x42]) (by decide) (by decide) <|
      .cons (f := ⟨true, .continuation, [0x42]⟩) (r := []) (by decide) (by decide) <|
      .of_none rfl (by decide)
  exact ⟨tr, t, hrun, houts, (reference_parse openEmpty_openServer hrun hbelow).2.1 hstack⟩

end Session

end WsClient
