import WsClient.SharedDelivery

/-!
# A conversation from the constructors on

A client and a server on the ends of a reliable link, from their constructors on. The applications
may send as soon as the objects are constructed: what is sent while the handshake goes on waits in
the transmit buffer and goes out behind it. The one side may be `OPEN` and have sent frames when the
other is still reading the lines of the handshake.

Without the events of the handshake, the run of a side that is `OPEN` is one of the runs of
end-to-end delivery. Before that the transmit buffer holds the frames that were sent, and the
buffers of the receiving half are empty.

## Main definitions

* `frameEvents`, `frameTrace`: a run without the events of the handshake.
* `Session.Conversing`: the guard of the handshake and that of end-to-end delivery.
* `Session.Converses`: the invariant of one side.

## Main results

* `Session.step_converses`, `Session.run_converses`: one step of one side, and runs of both sides.
* `Session.conversation`: what is delivered is what was sent, from the constructors on.
-/

namespace WsClient

/-! ### A run without the events of the handshake -/

/-- The events that are not those of the handshake. -/
def frameEvents (es : List Event) : List Event := es.filter fun e => !e.isHandshake

/-- The steps of a side, without the events of the handshake. -/
def frameTrace (tr : List (Input × List Event)) : List (Input × List Event) :=
  tr.map fun p => (p.1, frameEvents p.2)

variable {tr : List (Input × List Event)} {es es' : List Event} {e : Event}

theorem mem_frameEvents : e ∈ frameEvents es ↔ e ∈ es ∧ e.isHandshake = false := by
  simp [frameEvents]

theorem frameEvents_of_isHandshake (h : ∀ e ∈ es, e.isHandshake = false) : frameEvents es = es :=
  List.filter_eq_self.mpr fun e he => by simp [h e he]

theorem events_frameTrace (tr : List (Input × List Event)) :
    Machine.events (frameTrace tr) = frameEvents (Machine.events tr) := by
  simp only [Machine.events, frameTrace, frameEvents, List.flatMap_map, List.filter_flatMap]

theorem sentMessages_frameTrace (tr : List (Input × List Event)) :
    sentMessages (frameTrace tr) = sentMessages tr := by
  rw [sentMessages, frameTrace, List.filterMap_map]
  rfl

theorem sentMessages_append (tr tr' : List (Input × List Event)) :
    sentMessages (tr ++ tr') = sentMessages tr ++ sentMessages tr' := List.filterMap_append

theorem sentMessages_snoc (tr : List (Input × List Event)) (i : Input) (es : List Event) :
    sentMessages (tr ++ [(i, es)]) = sentMessages tr ++ i.message?.toList := by
  rw [sentMessages_append]
  cases hi : i.message? <;> simp [sentMessages, hi]

theorem frameTrace_snoc (i : Input) (h : ∀ e ∈ es, e.isHandshake = false) :
    frameTrace (tr ++ [(i, es)]) = frameTrace tr ++ [(i, es)] := by
  simp [frameTrace, frameEvents_of_isHandshake h]

/-- What the events of the handshake have no part in. -/
theorem flatMap_frameEvents {β : Type*} {f : Event → List β}
    (hf : ∀ e, e.isHandshake = true → f e = []) (es : List Event) :
    (frameEvents es).flatMap f = es.flatMap f := by
  induction es with
  | nil => rfl
  | cons e es ih =>
    cases he : e.isHandshake with
    | true =>
      rw [frameEvents, List.filter_cons_of_neg (by simp [he]), List.flatMap_cons, hf e he]
      exact ih
    | false =>
      rw [frameEvents, List.filter_cons_of_pos (by simp [he]), List.flatMap_cons, List.flatMap_cons]
      exact congrArg _ ih

@[simp] theorem receivedBytes_frameEvents (es : List Event) :
    (frameEvents es).flatMap Event.receivedBytes = es.flatMap Event.receivedBytes :=
  flatMap_frameEvents (fun e he => by cases e <;> first | rfl | cases he) es

@[simp] theorem acceptedBytes_frameEvents (es : List Event) :
    (frameEvents es).flatMap Event.acceptedBytes = es.flatMap Event.acceptedBytes :=
  flatMap_frameEvents (fun e he => by cases e <;> first | rfl | cases he) es

@[simp] theorem outputs_frameEvents (es : List Event) :
    (frameEvents es).flatMap Event.outputs = es.flatMap Event.outputs :=
  flatMap_frameEvents (fun e he => by cases e <;> first | rfl | cases he) es

@[simp] theorem sentFrames_frameEvents (es : List Event) :
    sentFrames (frameEvents es) = sentFrames es :=
  flatMap_frameEvents (fun e he => by cases e <;> first | rfl | cases he) es

/-- Apart from the handshake, the bytes that are taken are those of frames. -/
@[simp] theorem takenBytes_frameEvents (es : List Event) :
    (frameEvents es).flatMap Event.takenBytes = es.flatMap Event.receivedBytes := by
  rw [← receivedBytes_frameEvents]
  refine List.flatMap_congr fun e he => ?_
  have hno := (mem_frameEvents.mp he).2
  cases e <;> first | rfl | cases hno

@[simp] theorem givenBytes_frameEvents (es : List Event) :
    (frameEvents es).flatMap Event.givenBytes = es.flatMap Event.acceptedBytes := by
  rw [← acceptedBytes_frameEvents]
  refine List.flatMap_congr fun e he => ?_
  have hno := (mem_frameEvents.mp he).2
  rw [Event.givenBytes_eq]
  cases e <;> first | rfl | cases hno

/-- As long as no buffer refuses to grow, the bytes that are accepted and kept are those that were
kept before, and what is issued. -/
theorem Sends.issued {w w' : WebSocketImpl} (h : Sends w w' es)
    (hno : ∀ e ∈ es, e.isRefusal = false) :
    es.flatMap Event.acceptedBytes ++ w'.mTransmitBuffer.getData =
      w.mTransmitBuffer.getData ++ es.flatMap (Event.issuedBytes w.mUseMask) := by
  have hrefused (e : Event) (he : e ∈ es) : e.isTransmitRefusal = false :=
    Event.isTransmitRefusal_of_isRefusal (hno e he)
  rw [h.transmits.bytes fun e he => Event.isTransmitRefusal_of_isMaskedRefusal (hrefused e he),
    h.frames hrefused]

namespace Session

variable {s t : Session} {i : Input} {fs : List Frame} {useMask : Bool}

/-- The guard of a conversation: that of the handshake and that of end-to-end delivery. -/
def Conversing (s : Session) (i : Input) (es : List Event) : Prop :=
  Patient s i es ∧ Chatting s i es

instance (s : Session) (i : Input) (es : List Event) : Decidable (Conversing s i es) :=
  inferInstanceAs (Decidable (_ ∧ _))

/-- The receiving half is as it was constructed. -/
structure Untouched (es : List Event) (s : Session) : Prop where
  receive_wf : s.impl.mReceiveBuffer.WF
  receive_nil : s.impl.mReceiveBuffer.getData = []
  data_wf : s.impl.mReceivedData.WF
  data_nil : s.impl.mReceivedData.getData = []
  received : es.flatMap Event.receivedBytes = []
  outputs : es.flatMap Event.outputs = []

/-- A side that is `CONNECTING` is not in the frame loop, and the handshake is not over. -/
structure Greeting (es : List Event) (s : Session) : Prop extends Untouched es s where
  stack : s.stack = [] ∨ s.stack = [.connecting]
  not_done : .handshakeDone ∉ es

/-- What a side has made of a run from its constructor on: what it has given to the socket behind
the handshake and what it keeps to be transmitted are the frames that it sent, in which are the
messages of its application. Once the handshake is over, what it has received behind it has been
processed as the reference parse does. -/
structure Converses (useMask : Bool) (tr : List (Input × List Event)) (s : Session) : Prop where
  consistent : s.Consistent
  wf : s.impl.mTransmitBuffer.WF
  mask : s.impl.mUseMask = useMask
  sent : (Machine.events tr).flatMap Event.acceptedBytes ++ s.impl.mTransmitBuffer.getData =
    (sentFrames (Machine.events tr)).flatMap (Sent.bytes useMask)
  messages : (sentFrames (Machine.events tr)).filterMap Sent.message? = sentMessages tr
  plain : ∀ f ∈ sentFrames (Machine.events tr), f.Plain
  greeting : s.impl.mReadyState = .connecting → Greeting (Machine.events tr) s
  parsing : s.impl.mReadyState ≠ .connecting → ∃ fs, Parsing (Machine.events tr) fs s

/-- The invariant of the frame loop depends on the bytes received, the outputs and the answers. -/
theorem Parsing.congr (h : Parsing es fs s)
    (hreceived : es'.flatMap Event.receivedBytes = es.flatMap Event.receivedBytes)
    (houtputs : es'.flatMap Event.outputs = es.flatMap Event.outputs)
    (hpong : ∀ state d key, .sendData state .pong d key ∈ es' → .sendData state .pong d key ∈ es) :
    Parsing es' fs s := by
  obtain ⟨hwf, hdata, hsingle, hsize, hreads, hstop, hacc, hout⟩ := h.received
  rw [← hreceived] at hreads
  rw [← houtputs] at hout
  exact ⟨⟨hwf, hdata, hsingle, hsize, hreads, hstop, hacc, hout⟩, h.stack, h.state, h.settled,
    fun state d key hmem => h.pong state d key (hpong state d key hmem)⟩

theorem Untouched.append (h : Untouched es s) (hkeeps : KeepsReceived s.impl t.impl es') :
    Untouched (es ++ es') t where
  receive_wf := hkeeps.receiveBuffer ▸ h.receive_wf
  receive_nil := hkeeps.receiveBuffer ▸ h.receive_nil
  data_wf := hkeeps.receivedData ▸ h.data_wf
  data_nil := hkeeps.receivedData ▸ h.data_nil
  received := by rw [List.flatMap_append, h.received, hkeeps.bytes, List.append_nil]
  outputs := by rw [List.flatMap_append, h.outputs, hkeeps.outputs, List.append_nil]

/-- When the handshake is over, the frame loop begins with empty buffers. -/
theorem Untouched.parsing (h : Untouched es s) (hstack : s.stack = [])
    (hopen : s.impl.mReadyState = .opened) : Parsing es [] s := by
  refine (OpenEmpty.parsing ⟨hstack, hopen, h.receive_wf, h.receive_nil, h.data_wf,
    h.data_nil⟩).congr h.received h.outputs fun state d key hmem => ?_
  have hout : .pong d ∈ es.flatMap Event.outputs :=
    List.mem_flatMap.mpr ⟨_, hmem, List.mem_singleton_self _⟩
  rw [h.outputs] at hout
  cases hout

/-- Behind the handshake a side chats. -/
theorem Converses.chats (h : Converses useMask tr s) (hstate : s.impl.mReadyState ≠ .connecting) :
    Chats useMask (frameTrace tr) s := by
  obtain ⟨fs, hfs⟩ := h.parsing hstate
  refine ⟨h.consistent, h.wf, h.mask, ?_, ?_, ?_, ?_, fs, ?_⟩ <;> rw [events_frameTrace]
  · rw [givenBytes_frameEvents, sentFrames_frameEvents, h.sent]
  · rw [sentFrames_frameEvents, sentMessages_frameTrace, h.messages]
  · rw [sentFrames_frameEvents]
    exact h.plain
  · rw [takenBytes_frameEvents, receivedBytes_frameEvents]
  · exact hfs.congr (receivedBytes_frameEvents _) (outputs_frameEvents _)
      fun _ _ _ hmem => (mem_frameEvents.mp hmem).1

theorem Chats.converses (h : Chats useMask (frameTrace tr) s) : Converses useMask tr s := by
  obtain ⟨fs, hfs⟩ := h.parsing
  have hgiven := h.given
  have hmessages := h.messages
  have hplain := h.plain
  rw [events_frameTrace] at hgiven hmessages hplain hfs
  rw [givenBytes_frameEvents, sentFrames_frameEvents] at hgiven
  rw [sentFrames_frameEvents, sentMessages_frameTrace] at hmessages
  rw [sentFrames_frameEvents] at hplain
  exact ⟨h.consistent, h.wf, h.mask, hgiven, hmessages, hplain,
    fun hstate => absurd hstate hfs.ne_connecting, fun _ => ⟨fs, hfs.congr
      (receivedBytes_frameEvents _).symm (outputs_frameEvents _).symm
        fun _ _ _ hmem => mem_frameEvents.mpr ⟨hmem, rfl⟩⟩⟩

/-! ### One step -/

/-- A step of a side that is `CONNECTING` leaves its receiving half alone. -/
theorem step_greeting (h : Greeting es s) (hstate : s.impl.mReadyState = .connecting)
    (hstep : s.step i = some (t, es')) (hguard : Healthy s i es') :
    KeepsReceived s.impl t.impl es' ∧ (t.stack = [] ∨ t.stack = [.connecting]) ∧
      ∀ key, i ≠ .dispatch key := by
  have hnone {a : Activation} {rest : List Activation} (hstack : s.stack = a :: rest)
      (ha : a ≠ .connecting) : False := by
    rcases h.stack with hnil | hconn
    · simp [hnil] at hstack
    · exact ha (List.cons.inj (hstack.symm.trans hconn)).1
  have hhealthy := hguard.2
  cases step_cases hstep with
  | call _ hcall =>
    refine ⟨call_keepsReceived hcall, h.stack, ?_⟩
    rintro key rfl
    cases hcall
  | poll callback timeout =>
    refine ⟨poll_keepsReceived _ _ _, ?_, by simp⟩
    rw [hhealthy.2, List.append_nil]
    unfold WebSocketImpl.poll
    split_ifs <;> simp
  | destroy => cases hhealthy
  | @connect rest expired v hstack =>
    have hrest : rest = [] := by
      rcases h.stack with hnil | hconn
      · simp [hnil] at hstack
      · exact (List.cons.inj (hstack.symm.trans hconn)).2
    exact ⟨WebSocketImpl.processConnection_keepsReceived _ _ _, .inl hrest, by simp⟩
  | receive hstack => exact (hnone hstack (by simp)).elim
  | transmit hstack => exact (hnone hstack (by simp)).elim
  | dispatch _ hstack => exact (hnone hstack (by simp)).elim
  | ret hstack => exact (hnone hstack (by simp)).elim
  | destroyLoop _ hstack => exact (hnone hstack (by simp)).elim

/-- The receiving half in a step of a side that is `CONNECTING`, of which it is known that it stays
so as long as the handshake is not over. -/
theorem Greeting.step (hs : Greeting es s) (hc : s.Consistent) (h : s.step i = some (t, es'))
    (hguard : Healthy s i es') (hstate : s.impl.mReadyState = .connecting)
    (hdone : .handshakeDone ∉ es' → t.impl.mReadyState = .connecting) :
    (t.impl.mReadyState = .connecting → Greeting (es ++ es') t) ∧
      (t.impl.mReadyState ≠ .connecting → ∃ fs, Parsing (es ++ es') fs t) := by
  obtain ⟨hkeeps, hstack, -⟩ := step_greeting hs hstate h hguard
  have huntouched : Untouched (es ++ es') t := hs.toUntouched.append hkeeps
  refine ⟨fun hconn => ⟨huntouched, hstack, fun hmem => ?_⟩, fun hne => ⟨[], ?_⟩⟩
  · rcases List.mem_append.mp hmem with hmem | hmem
    · exact hs.not_done hmem
    · have := step_done h hmem
      simp [hconn] at this
  · have hnil : t.stack = [] := hstack.resolve_right fun heq =>
      hne ((step_consistent hc h).connecting _ heq)
    exact huntouched.parsing hnil (step_done h (not_not.mp fun hmem => hne (hdone hmem)))

/-- Outside of the frame loop, a connection that is not closed by the step issues the frame that the
input asks for. -/
theorem step_sentFrames_of_call (h : s.step i = some (t, es)) (hs : s.impl.mReadyState.rank < 2)
    (ht : t.impl.mReadyState.rank < 2) (hi : ∀ key, i ≠ .dispatch key) (useMask : Bool) :
    es.flatMap (Event.issuedBytes useMask) = (sentFrames es).flatMap (Sent.bytes useMask) ∧
      sentFrames es = i.sent?.toList := by
  have hissued := flatMap_filter_isCall (f := Event.issuedBytes useMask)
    (fun e he => by cases e <;> first | rfl | cases he) es
  have hsent : sentFrames es = _ := flatMap_filter_isCall (f := Event.sent)
    (fun e he => by cases e <;> first | rfl | cases he) es
  have hcalls := step_calls h
  rw [hissued, hsent]
  generalize es.filter Event.isCall = cs at hcalls
  cases hcalls with
  | none hframe => exact ⟨rfl, by simp [Input.sent?, hframe]⟩
  | send hframe =>
    have hopen : ¬2 ≤ s.impl.mReadyState.rank := Nat.not_le_of_lt hs
    exact ⟨by simp [hopen, Event.issuedBytes, Event.sent, Sent.bytes],
      by simp [Input.sent?, hframe, Event.sent]⟩
  | pong => exact absurd rfl (hi _)
  | close _ hrank => exact absurd ht (Nat.not_lt_of_le hrank)

/-- One step of a side that is `CONNECTING`, of which it is known that it stays so as long as the
handshake is not over. -/
theorem Converses.step_connecting (hs : Converses useMask tr s) (h : s.step i = some (t, es))
    (hguard : Chatting s i es) (hstate : s.impl.mReadyState = .connecting)
    (hdone : .handshakeDone ∉ es → t.impl.mReadyState = .connecting) :
    Converses useMask (tr ++ [(i, es)]) t := by
  obtain ⟨hhealthy, hlen, hnul⟩ := hguard
  have hgreet := hs.greeting hstate
  obtain ⟨-, -, hdispatch⟩ := step_greeting hgreet hstate h hhealthy
  obtain ⟨hgreeting, hparsing⟩ := hgreet.step hs.consistent h hhealthy hstate hdone
  have hc := step_consistent hs.consistent h
  have hopen (hne : t.impl.mReadyState ≠ .connecting) : t.impl.mReadyState = .opened :=
    step_done h (not_not.mp fun hmem => hne (hdone hmem))
  have hrank : t.impl.mReadyState.rank < 2 := by
    by_cases hconn : t.impl.mReadyState = .connecting
    · simp [hconn]
    · simp [hopen hconn]
  -- what it sends
  have hsends := step_sends hs.wf hs.consistent h hlen fun key hi => absurd hi (hdispatch key)
  obtain ⟨hissued, hsent⟩ := step_sentFrames_of_call h (by simp [hstate]) hrank hdispatch useMask
  have hframes := hsends.issued hhealthy.1
  rw [hs.mask, hissued] at hframes
  have hmessages : (sentFrames es).filterMap Sent.message? = i.message?.toList := by
    rw [hsent, Input.filterMap_sent? hnul]
  refine ⟨hc, hsends.transmits.wf, hsends.transmits.useMask.trans hs.mask, ?_, ?_, ?_, ?_, ?_⟩
  all_goals simp only [Machine.events_append, Machine.events_cons, Machine.events_nil,
    List.append_nil, sentFrames_append]
  · rw [List.flatMap_append, List.flatMap_append, List.append_assoc, hframes, ← List.append_assoc,
      hs.sent]
  · rw [List.filterMap_append, hs.messages, hmessages, sentMessages_snoc]
  · intro f hf
    rcases List.mem_append.mp hf with hf | hf
    · exact hs.plain f hf
    · rw [hsent, Option.mem_toList] at hf
      exact Input.plain_sent? hf hlen
  · exact hgreeting
  · exact hparsing

/-- One step of a side that reads its handshake and behind it a part of a stream of frames. -/
theorem step_converses {frames : List Sent} {m : Bool} (hs : Converses useMask tr s)
    (h : s.step i = some (t, es)) (hguard : Chatting s i es) {head bytes : Bytes}
    (hreads : ReadsHead head bytes (Machine.events tr ++ es) t) (hplain : ∀ f ∈ frames, f.Plain)
    (hpeer : bytes <+: frames.flatMap (Sent.bytes m)) :
    Converses useMask (tr ++ [(i, es)]) t := by
  by_cases hstate : s.impl.mReadyState = .connecting
  · refine hs.step_connecting h hguard hstate fun hno => hreads.not_closed fun hmem => ?_
    rcases List.mem_append.mp hmem with hmem | hmem
    · exact (hs.greeting hstate).not_done hmem
    · exact hno hmem
  · have hno := step_isHandshake h fun rest hstack =>
      hstate (hs.consistent.connecting rest hstack)
    have htaken : (Machine.events (frameTrace tr) ++ es).flatMap Event.takenBytes <+:
        frames.flatMap (Sent.bytes m) := by
      have hreceived := hreads.frames.trans hpeer
      rwa [← takenBytes_frameEvents, frameEvents, List.filter_append, ← frameEvents,
        ← frameEvents, ← events_frameTrace, frameEvents_of_isHandshake hno] at hreceived
    have hchats := step_chats (hs.chats hstate) h hguard hplain htaken
    rw [← frameTrace_snoc i hno] at hchats
    exact hchats.converses

/-- A side that is constructed. -/
theorem Constructed.converses (hs : Constructed s) (hstate : s.impl.mReadyState = .connecting) :
    Converses s.impl.mUseMask [] s := by
  obtain ⟨heap, hreceive, htransmit, hdata⟩ := hs.buffers
  have hnil : s.impl.mTransmitBuffer.getData = [] := htransmit ▸ (newBuffer_spec _).2
  refine ⟨hs.consistent, htransmit ▸ (newBuffer_spec _).1, rfl, hnil, rfl, by simp [sentFrames],
    fun _ => ⟨⟨?_, ?_, ?_, ?_, rfl, rfl⟩, .inl hs.spec.1, by simp⟩, fun hne => absurd hstate hne⟩
  · exact hreceive ▸ (newBuffer_spec _).1
  · exact hreceive ▸ (newBuffer_spec _).2
  · exact hdata ▸ (newBuffer_spec _).1
  · exact hdata ▸ (newBuffer_spec _).2

/-- A connection that has given nothing and has nothing to transmit has sent nothing. -/
theorem Converses.sentMessages_eq_nil (hs : Converses useMask tr s)
    (haccepted : (Machine.events tr).flatMap Event.acceptedBytes = [])
    (hsize : s.impl.mTransmitBuffer.getSize = 0) : sentMessages tr = [] := by
  have hsent := hs.sent
  rw [haccepted, SimpleBuffer.getSize_eq_zero_iff.mp hsize] at hsent
  have hnone : sentFrames (Machine.events tr) = [] := by
    refine List.eq_nil_iff_forall_not_mem.mpr fun f hf => ?_
    have hbytes := List.flatMap_eq_nil_iff.mp hsent.symm f hf
    simp [Sent.bytes, encodeFrame] at hbytes
  rw [← hs.messages, hnone]
  rfl

theorem Converses.delivered_isPrefix {frames : List Sent} {m : Bool} (hs : Converses useMask tr s)
    (hplain : ∀ f ∈ frames, f.Plain)
    (hpeer : (Machine.events tr).flatMap Event.receivedBytes <+: frames.flatMap (Sent.bytes m)) :
    delivered (Machine.events tr) <+: frames.filterMap Sent.message? := by
  by_cases hstate : s.impl.mReadyState = .connecting
  · rw [delivered, (hs.greeting hstate).outputs]
    exact List.nil_prefix
  · have hprefix := Chats.delivered_prefix (hs.chats hstate) hplain (by
      rwa [events_frameTrace, takenBytes_frameEvents])
    rwa [events_frameTrace, delivered, outputs_frameEvents] at hprefix

/-! ### Both sides -/

section Link

variable {p p' : Platform} {url origin host : Bytes} {port : ℤ} {useMask' : Bool}
  {tr : List ((Side × Input) × List Event)} {l : Link Session UInt8}

/-- The parties as they are constructed. -/
theorem constructed_party (p p' : Platform) (url origin : Bytes) (useMask useMask' : Bool)
    (side : Side) :
    Constructed ((handshakeLink p p' url origin useMask useMask').party side) := by
  cases side with
  | left => exact .client p url origin useMask true
  | right => exact .server p' true useMask'

variable (hurl : url.length < 128) (horigin : origin.length < 200)
  (hparse : parseUrl url = some (host, port, [])) (hport : port ≠ 0)
  (hhost : 0x0A ∉ host ∧ 0 ∉ host) (horigin' : 0x0A ∉ origin ∧ 0 ∉ origin)

include hurl horigin hparse hport

theorem party_connecting (side : Side) :
    ((handshakeLink p p' url origin useMask useMask').party side).impl.mReadyState =
      .connecting := by
  cases side with
  | left =>
    change (start (WebSocketImpl.ofUrl p url origin useMask true).1).impl.mReadyState = _
    rw [ofUrl_of_parseUrl hurl horigin hparse hport]
    rfl
  | right => rfl

include hhost horigin'

/-- Each side reads its handshake off the front of what is on the way to it. -/
theorem link_readsHead (h : connectionLink.Run (Machine.linkGuard fun _ => Patient)
      (handshakeLink p p' url origin useMask useMask') tr l) (side : Side) :
    ReadsHead (handshakeHead host port origin side)
      ((Machine.events (Machine.trace side.other tr)).flatMap Event.acceptedBytes)
      (Machine.events (Machine.trace side tr)) (l.party side) := by
  cases side with
  | left => exact client_readsHead hurl horigin hparse hport hhost horigin' h
  | right => exact server_readsHead hurl horigin hparse hport hhost horigin' h

/-- The invariant of both sides. -/
theorem run_converses (h : connectionLink.Run (Machine.linkGuard fun _ => Conversing)
      (handshakeLink p p' url origin useMask useMask') tr l) (side : Side) :
    Converses ((handshakeLink p p' url origin useMask useMask').party side).impl.mUseMask
      (Machine.trace side tr) (l.party side) := by
  induction h generalizing side with
  | nil =>
    exact (constructed_party p p' url origin useMask useMask' side).converses
      (party_connecting hurl horigin hparse hport side)
  | @snoc tr t input es u hrun hstep hguard ih =>
    have hreads := link_readsHead hurl horigin hparse hport hhost horigin'
      ((hrun.snoc hstep hguard).mono fun _ _ _ hconv => hconv.1)
    obtain ⟨v, rest, hv, -, rfl⟩ := Machine.link_cases hstep
    obtain ⟨side', i⟩ := input
    obtain rfl | rfl := side'.eq_or_eq_other side
    · have hpeer := ih side.other
      have hread := hreads side
      simp only [Machine.trace_append, Machine.trace_single, Machine.trace_other_single,
        List.append_nil, Machine.events_append, Machine.events_cons, Machine.events_nil,
        Link.party_advance] at hread
      have hprefix := List.prefix_append
        ((Machine.events (Machine.trace side.other tr)).flatMap Event.acceptedBytes)
        (t.party side.other).impl.mTransmitBuffer.getData
      rw [hpeer.sent] at hprefix
      simpa using step_converses (ih side) hv hguard.2 hread hpeer.plain hprefix
    · simpa using ih side'.other

/-- What has been delivered are the first messages that the other side has sent. -/
theorem run_delivered_isPrefix (h : connectionLink.Run (Machine.linkGuard fun _ => Conversing)
      (handshakeLink p p' url origin useMask useMask') tr l) (side : Side) :
    delivered (Machine.events (Machine.trace side tr)) <+:
      sentMessages (Machine.trace side.other tr) := by
  have hs := run_converses hurl horigin hparse hport hhost horigin' h side
  have hpeer := run_converses hurl horigin hparse hport hhost horigin' h side.other
  have hreads := link_readsHead hurl horigin hparse hport hhost horigin'
    (h.mono fun _ _ _ hconv => hconv.1) side
  have hstream := List.prefix_append
    ((Machine.events (Machine.trace side.other tr)).flatMap Event.acceptedBytes)
    (l.party side.other).impl.mTransmitBuffer.getData
  rw [hpeer.sent] at hstream
  rw [← hpeer.messages]
  exact hs.delivered_isPrefix hpeer.plain (hreads.frames.trans hstream)

section Patient

variable (h : connectionLink.Run (Machine.linkGuard fun _ => Patient)
  (handshakeLink p p' url origin useMask useMask') tr l)

include h

/-- What a side has to read, once the other side is through with its handshake: the head, and behind
it the frames. -/
theorem taken_of_done (side : Side)
    (hdone : .handshakeDone ∈ Machine.events (Machine.trace side.other tr)) :
    (Machine.events (Machine.trace side tr)).flatMap Event.takenBytes ++ l.wire side =
      handshakeHead host port origin side ++
        (Machine.events (Machine.trace side.other tr)).flatMap Event.acceptedBytes := by
  have hserver := run_handshaking (handshaking_ofSocket p' useMask') (h.project .right)
  have hclient := client_handshaking hurl horigin hparse hport h
  have hconserves := h.conserves side
  cases side with
  | left =>
    -- the server has answered the request, which it has read to its end
    have hread := (server_readsHead hurl horigin hparse hport hhost horigin' h).done.mp hdone
    have hanswered := (server_accepts_request hurl horigin hparse hhost horigin').2
    rw [← hread] at hanswered
    have hgiven := run_givenBytes (.server p' true useMask') (h.project .right)
    rw [hserver.sent, if_pos ⟨rfl, hanswered⟩] at hgiven
    exact hconserves.trans hgiven
  | right =>
    rw [Side.other, hclient.2] at hconserves
    rw [hconserves]
    refine congrArg (· ++ _) ?_
    change (WebSocketImpl.ofUrl p url origin useMask true).2.flatMap Event.givenBytes = _
    rw [ofUrl_of_parseUrl hurl horigin hparse hport, List.flatMap_map]
    exact List.flatMap_id

/-- A side that has read all that is on the way to it from a side that is through with its handshake
is through with its own, and has got the frames behind it. -/
theorem received_of_done (side : Side)
    (hdone : .handshakeDone ∈ Machine.events (Machine.trace side.other tr))
    (hwire : l.wire side = []) :
    .handshakeDone ∈ Machine.events (Machine.trace side tr) ∧
      (Machine.events (Machine.trace side tr)).flatMap Event.receivedBytes =
        (Machine.events (Machine.trace side.other tr)).flatMap Event.acceptedBytes := by
  have hreads := link_readsHead hurl horigin hparse hport hhost horigin' h side
  have hall := taken_of_done hurl horigin hparse hport hhost horigin' h side hdone
  have htaken : (Machine.events (Machine.trace side tr)).flatMap Event.takenBytes =
      handshakeBytes (Machine.events (Machine.trace side tr)) ++
        (Machine.events (Machine.trace side tr)).flatMap Event.receivedBytes := by
    cases side with
    | left => exact (client_handshaking hurl horigin hparse hport h).1.taken
    | right => exact (run_handshaking (handshaking_ofSocket p' useMask') (h.project .right)).taken
  rw [hwire, List.append_nil, htaken] at hall
  have hlength := congrArg List.length hall
  rw [List.length_append, List.length_append] at hlength
  have hlines := hreads.lines.length_le
  have hframes := hreads.frames.length_le
  exact ⟨hreads.done.mpr (hreads.lines.eq_of_length (by omega)),
    hreads.frames.eq_of_length (by omega)⟩

end Patient

/-- All of them have been delivered when nothing is left to be transmitted or to be received. -/
theorem run_delivered_eq (h : connectionLink.Run (Machine.linkGuard fun _ => Conversing)
      (handshakeLink p p' url origin useMask useMask') tr l) (side : Side)
    (hbuffer : (l.party side.other).impl.mTransmitBuffer.getSize = 0) (hwire : l.wire side = [])
    (hnil : (l.party side).stack = []) :
    delivered (Machine.events (Machine.trace side tr)) =
      sentMessages (Machine.trace side.other tr) := by
  have hs := run_converses hurl horigin hparse hport hhost horigin' h side
  have hpeer := run_converses hurl horigin hparse hport hhost horigin' h side.other
  have hpatient : connectionLink.Run (Machine.linkGuard fun _ => Patient) _ tr l :=
    h.mono fun _ _ _ hconv => hconv.1
  have hreads := link_readsHead hurl horigin hparse hport hhost horigin' hpatient
  have hprefix := run_delivered_isPrefix hurl horigin hparse hport hhost horigin' h side
  by_cases hother : (l.party side.other).impl.mReadyState = .connecting
  · -- nothing has been sent
    have hconn := (run_connecting (constructed_party p p' url origin useMask useMask' side.other)
      (h.project side.other)).2 hother
    have hnone := hpeer.sentMessages_eq_nil (List.flatMap_eq_nil_iff.mpr fun e he =>
      Event.acceptedBytes_of_isFrame (hconn e he)) hbuffer
    rw [hnone] at hprefix ⊢
    exact List.prefix_nil.mp hprefix
  · have hdone : .handshakeDone ∈ Machine.events (Machine.trace side.other tr) :=
      not_not.mp fun hno => hother ((hreads side.other).not_closed hno)
    obtain ⟨hdone', hreceived⟩ :=
      received_of_done hurl horigin hparse hport hhost horigin' hpatient side hdone hwire
    have hstate : (l.party side).impl.mReadyState ≠ .connecting := fun hconn =>
      (hs.greeting hconn).not_done hdone'
    have hall := hpeer.sent
    rw [SimpleBuffer.getSize_eq_zero_iff.mp hbuffer, List.append_nil, ← hreceived] at hall
    have hdelivered := (hs.chats hstate).delivered_eq hpeer.plain (by
      rwa [events_frameTrace, takenBytes_frameEvents]) hnil
    rwa [events_frameTrace, delivered, outputs_frameEvents, hpeer.messages] at hdelivered

end Link

/-- A conversation. Whatever two connections send to each other from their constructors on, however
the stream is cut and the two are interleaved, the messages that the callback of a side has got are
at any time the first of those that the application of the other side has sent, also of those it
has sent while it was `CONNECTING`. They are all of them when the transmit buffer of the other side
and the stream are empty and `poll` has returned. -/
theorem conversation {p p' : Platform} {url origin host : Bytes} {port : ℤ} {useMask' : Bool}
    (hurl : url.length < 128) (horigin : origin.length < 200)
    (hparse : parseUrl url = some (host, port, [])) (hport : port ≠ 0)
    (hhost : 0x0A ∉ host ∧ 0 ∉ host) (horigin' : 0x0A ∉ origin ∧ 0 ∉ origin)
    {tr : List ((Side × Input) × List Event)} {l : Link Session UInt8}
    (h : connectionLink.Run (Machine.linkGuard fun _ => Conversing)
      (handshakeLink p p' url origin useMask useMask') tr l) (side : Side) :
    delivered (Machine.events (Machine.trace side tr)) <+:
        sentMessages (Machine.trace side.other tr) ∧
      ((l.party side.other).impl.mTransmitBuffer.getSize = 0 → l.wire side = [] →
        (l.party side).stack = [] →
          delivered (Machine.events (Machine.trace side tr)) =
            sentMessages (Machine.trace side.other tr)) :=
  ⟨run_delivered_isPrefix hurl horigin hparse hport hhost horigin' h side,
    run_delivered_eq hurl horigin hparse hport hhost horigin' h side⟩

/-- The client sends a text before the server has read its request, and the server a binary message
before the client has read its answer. -/
theorem conversation_early :
    ∃ tr l, connectionLink.Run (Machine.linkGuard fun _ => Conversing)
        (handshakeLink zeroPlatform zeroPlatform (ascii "ws://h") [] true true) tr l ∧
      delivered (Machine.events (Machine.trace .right tr)) = [([0x41], true)] ∧
      delivered (Machine.events (Machine.trace .left tr)) = [([1, 2], false)] := by
  obtain ⟨tr, l, hrun, hP⟩ := Machine.exists_run_of_exec (M := connectionLink)
    (G := Machine.linkGuard fun _ => Conversing)
    (s := handshakeLink zeroPlatform zeroPlatform (ascii "ws://h") [] true true)
    (l := [(Side.left, Input.sendText (some (ascii "A")) 0)] ++
      (handshakeInputs (requestLines (ascii "h") 80 [] []).flatten).map (Prod.mk Side.right) ++
      [.sendBinary (some [1, 2]) 0, .poll true 0, .receive .wouldBlock, .send (.accepted 8),
        .send .wouldBlock, .dispatch 0].map (Prod.mk Side.right) ++
      (handshakeInputs responseLines.flatten).map (Prod.mk Side.left) ++
      [.poll true 0, .receive (.data [0x82, 0x82, 0, 0, 0, 0, 1, 2]), .receive .wouldBlock,
        .send (.accepted 7), .send .wouldBlock, .dispatch 0, .ret, .dispatch 0].map
        (Prod.mk Side.left) ++
      (pollInputs [0x81, 0x81, 0, 0, 0, 0, 0x41] [.dispatch 0, .ret, .dispatch 0]).map
        (Prod.mk Side.right))
    (P := fun r => decide (∀ side, (r.1.party side).stack = [] ∧ r.1.wire side = [] ∧
        (r.1.party side).impl.mTransmitBuffer.getSize = 0) && decide
      (sentMessages (Machine.trace .left r.2) = [([0x41], true)] ∧
        sentMessages (Machine.trace .right r.2) = [([1, 2], false)])) (by decide +kernel)
  obtain ⟨hdone, hsent⟩ := Bool.and_eq_true_iff.mp hP
  have hall (side : Side) := (conversation (by decide) (by decide) parseUrl_h (by decide)
    (by decide) (by decide) hrun side).2 (of_decide_eq_true hdone side.other).2.2
      (of_decide_eq_true hdone side).2.1 (of_decide_eq_true hdone side).1
  obtain ⟨hleft, hright⟩ := of_decide_eq_true hsent
  exact ⟨tr, l, hrun, (hall .right).trans hleft, (hall .left).trans hright⟩

end Session

namespace SharedPair

variable {memory : Side → SharedMemory} {p p' : Platform} {url origin host : Bytes} {port : ℤ}
  {useMask useMask' : Bool} {tr : List ((Side × PairInput) × List ((Side × Input) × List Event))}
  {t : SharedPair}

/-- A conversation of two processes over shared memory, from the constructors of the connections on
and however the processes interleave at their accesses to the rings. -/
theorem shared_conversation (hurl : url.length < 128) (horigin : origin.length < 200)
    (hparse : parseUrl url = some (host, port, [])) (hport : port ≠ 0)
    (hhost : 0x0A ∉ host ∧ 0 ∉ host) (horigin' : 0x0A ∉ origin ∧ 0 ∉ origin)
    (h : machine.Run (guard fun _ => Session.Conversing)
      (handshakePair memory p p' url origin useMask useMask') tr t) (side : Side) :
    delivered (Machine.events (Machine.trace side (Machine.events tr))) <+:
        sentMessages (Machine.trace side.other (Machine.events tr)) ∧
      ((t.party side.other).impl.mTransmitBuffer.getSize = 0 → t.lines side.other = [] →
        (t.ring side).size = 0 → (t.party side).stack = [] →
          delivered (Machine.events (Machine.trace side (Machine.events tr))) =
            sentMessages (Machine.trace side.other (Machine.events tr))) := by
  obtain ⟨l, hl, ht⟩ := run_connectionLink fits_sharedCapacity
    (launches_handshakePair hurl horigin hparse hport) h
  rw [startLink_handshakePair memory hurl horigin hparse hport] at hl
  refine ⟨Session.run_delivered_isPrefix hurl horigin hparse hport hhost horigin' hl side,
    fun hbuffer hlines hring hnil => ?_⟩
  rw [← ht.party side.other] at hbuffer
  rw [← ht.party side] at hnil
  exact Session.run_delivered_eq hurl horigin hparse hport hhost horigin' hl side hbuffer
    (ht.wire_eq_nil fits_sharedCapacity hring hlines) hnil

/-- The accesses of a call of `send` that copies one segment. -/
def sendCall : List PairInput := [.call, .writer, .writer, .writer, .writer, .writer]

/-- `n` times `poll`, in each of which `receive` copies one segment. -/
def readCalls (n : ℕ) : List PairInput :=
  (List.replicate n [PairInput.run (.poll true 0), .call, .reader, .reader, .reader, .reader,
    .reader]).flatten

/-- A client and a server send each other a text, the client before it has read the response. -/
theorem shared_conversation_texts :
    ∃ tr t, machine.Run (guard fun _ => Session.Conversing) sharedClient tr t ∧
      delivered (Machine.events (Machine.trace .right (Machine.events tr))) = [([0x41], true)] ∧
      delivered (Machine.events (Machine.trace .left (Machine.events tr))) = [([0x42], true)] := by
  obtain ⟨tr, t, hrun, hP⟩ := Machine.exists_run_of_exec (M := machine)
    (G := guard fun _ => Session.Conversing) (s := sharedClient)
    (l := ((List.replicate 7 sendCall).flatten ++
        [PairInput.run (.sendText (some (ascii "A")) 0)]).map (Prod.mk Side.left) ++
      (readCalls 16 ++ (List.replicate 6 sendCall).flatten ++ readCalls 135 ++
        [PairInput.run (.sendText (some (ascii "B")) 0)]).map (Prod.mk Side.right) ++
      (readCalls 160 ++ [PairInput.run (.poll true 0), .call, .reader, .reader] ++ sendCall ++
        [PairInput.run (.send .wouldBlock), .run (.dispatch 0)]).map (Prod.mk Side.left) ++
      (readCalls 1 ++ [PairInput.call, .reader, .reader] ++ sendCall ++
        [PairInput.run (.send .wouldBlock), .run (.dispatch 0), .run .ret, .run (.dispatch 0)]).map
        (Prod.mk Side.right) ++
      (readCalls 1 ++ [PairInput.call, .reader, .reader, .run (.send .wouldBlock),
        .run (.dispatch 0), .run .ret, .run (.dispatch 0)]).map (Prod.mk Side.left))
    (P := fun r => decide ((∀ side, (r.1.party side.other).impl.mTransmitBuffer.getSize = 0 ∧
        r.1.lines side.other = [] ∧ (r.1.ring side).size = 0 ∧ (r.1.party side).stack = []) ∧
      sentMessages (Machine.trace .left (Machine.events r.2)) = [([0x41], true)] ∧
      sentMessages (Machine.trace .right (Machine.events r.2)) = [([0x42], true)]))
    (by decide +kernel)
  obtain ⟨hdrained, hleft, hright⟩ := of_decide_eq_true hP
  have hparse : parseUrl (ascii "ws://sharedclient") = some (ascii "sharedclient", 80, []) := by
    decide +kernel
  have hall (side : Side) := (shared_conversation (by decide) (by decide) hparse (by decide)
    (by decide) (by decide) hrun side).2 (hdrained side).1 (hdrained side).2.1
    (hdrained side).2.2.1 (hdrained side).2.2.2
  exact ⟨tr, t, hrun, (hall .right).trans hleft, (hall .left).trans hright⟩

end SharedPair

end WsClient
