import WsClient.Conversation

/-!
# Conversations that end

A client and a server from their constructors on, either of which may be closed or destroyed at any
time past its handshake, may be polled without a callback, and may lose its socket. Behind the close
frame nothing is queued, so that the stream of a side is at any time the first of: its frames, and
the close frame at their end.

The other side gets a part of this stream. Whatever the end is, it delivers the first of the
messages; and a side that leaves `OPEN` because it has met the close frame has delivered all of
them.

## Main definitions

* `Event.issued`, `issuedMessages`: what `sendData` queues, and the messages in it.
* `streamOf`: the frames of a side, with its close frame.
* `Session.Orderly`, `Session.Speaks`: the guard, and the invariant of one side.
* `Session.Listens`: the invariant of a side that does not close the connection itself.

## Main results

* `Session.step_speaks`, `Session.run_speaks`: one step of one side, and runs of both sides.
* `Session.delivered_until_end`: what is delivered, however the conversation ends.
* `Session.delivered_at_close`: a side that is closed by the other has got everything.
-/

namespace WsClient

/-! ### The stream of a side -/

/-- The frame that a call of `sendData` queues, unless the connection is closing or closed. -/
def Event.issued : Event → List Sent
  | .sendData state type d key => if 2 ≤ state.rank then [] else [⟨type, d, key⟩]
  | _ => []

/-- The messages in the frames that are queued. -/
def issuedMessages (es : List Event) : List (Bytes × Bool) :=
  (es.flatMap Event.issued).filterMap Sent.message?

/-- A frame on the wire, or the close frame. -/
def wireBytes (useMask : Bool) : Option Sent → Bytes
  | some f => f.bytes useMask
  | none => WebSocketImpl.closeFrame

/-- What is read there. -/
def wireFrame : Option Sent → Frame
  | some f => f.frame
  | none => ⟨true, .close, []⟩

/-- The frames that a side queues, and its close frame behind them. -/
def streamOf (es : List Event) : List (Option Sent) :=
  (es.flatMap Event.issued).map some ++ if es.any Event.isClosing then [none] else []

variable {es es' : List Event} {useMask : Bool} {s : Bytes}

theorem closeFrame_eq : WebSocketImpl.closeFrame = encodeFrame (some 0) .close [] := by decide

theorem frameBytes_eq (useMask : Bool) (es : List Event) :
    es.flatMap (Event.frameBytes useMask) =
      (es.flatMap Event.issued).flatMap (Sent.bytes useMask) := by
  rw [List.flatMap_assoc]
  refine List.flatMap_congr fun e _ => ?_
  cases e with
  | sendData state type d key =>
    by_cases hrank : 2 ≤ state.rank <;> simp [Event.frameBytes, Event.issued, hrank, Sent.bytes]
  | _ => rfl

/-- The bytes of the stream. -/
theorem flatMap_streamOf (useMask : Bool) (es : List Event) :
    (streamOf es).flatMap (wireBytes useMask) = es.flatMap (Event.frameBytes useMask) ++
      if es.any Event.isClosing then WebSocketImpl.closeFrame else [] := by
  rw [streamOf, List.flatMap_append, List.flatMap_map, frameBytes_eq]
  congr 1
  split_ifs
  · exact List.append_nil _
  · rfl

/-- All of the stream is read back as it was sent. -/
theorem encodes_streamOf (h : ∀ f ∈ es.flatMap Event.issued, f.Plain) (useMask : Bool) :
    ∀ x ∈ streamOf es, frameDecoder.Encodes (wireBytes useMask) wireFrame x ∧
      (wireBytes useMask x).length < 4294967296 := by
  intro x hx
  rcases List.mem_append.mp hx with hx | hx
  · obtain ⟨f, hf, rfl⟩ := List.mem_map.mp hx
    have hlen := (h f hf).length_bytes_le useMask
    have hlt := (h f hf).length_lt
    exact ⟨(h f hf).encodes useMask, by rw [wireBytes]; omega⟩
  · obtain rfl : x = none := by
      split_ifs at hx
      · exact List.mem_singleton.mp hx
      · cases hx
    have hread (r : Bytes) : parseFrame (encodeFrame (some 0) .close [] ++ r) = _ :=
      parseFrame_encodeFrame (some 0) r (by simp) (by decide)
    rw [← closeFrame_eq] at hread
    refine ⟨hread, ?_⟩
    change WebSocketImpl.closeFrame.length < 4294967296
    decide

theorem issuedMessages_append (es es' : List Event) :
    issuedMessages (es ++ es') = issuedMessages es ++ issuedMessages es' := by
  rw [issuedMessages, List.flatMap_append, List.filterMap_append]
  rfl

/-- A `poll` that calls back. -/
def Input.callsBack : Input → Bool
  | .poll callback _ => callback
  | _ => false

namespace Session

variable {s t : Session} {i : Input} {fs : List Frame} {peer : List Event} {m : Bool}

/-- `close` is not called while the connection is `CONNECTING`, no buffer refuses to grow, payloads
are below `2 ^ 29` bytes, and the callback does not poll with a callback. -/
def Orderly (s : Session) (i : Input) (es : List Event) : Prop :=
  Patient s i es ∧ (∀ e ∈ es, e.isRefusal = false) ∧ i.payload.length < 2 ^ 29 ∧
    (i.callsBack = true → s.stack = [])

instance (s : Session) (i : Input) (es : List Event) : Decidable (Orderly s i es) :=
  inferInstanceAs (Decidable (_ ∧ _ ∧ _ ∧ _))

/-- What a side has made of a run: what it has given to the socket and what it keeps to be
transmitted are its stream, and what it has received has been processed frame by frame. -/
structure Speaks (useMask : Bool) (es : List Event) (s : Session) : Prop where
  consistent : s.Consistent
  wf : s.impl.mTransmitBuffer.WF
  mask : s.impl.mUseMask = useMask
  sent : es.flatMap Event.acceptedBytes ++ s.impl.mTransmitBuffer.getData =
    es.flatMap (Event.issuedBytes useMask)
  frames : Frames useMask es s
  plain : ∀ f ∈ es.flatMap Event.issued, f.Plain
  received : ∃ fs, Received es fs s

/-- What the socket has accepted is the front of the stream. -/
theorem Speaks.prefix_streamOf (hs : Speaks useMask es s) :
    es.flatMap Event.acceptedBytes <+: (streamOf es).flatMap (wireBytes useMask) := by
  rw [flatMap_streamOf, ← hs.frames.issued, ← hs.sent]
  exact List.prefix_append _ _

/-! ### One step -/

/-- The frame loop runs while no frame is being delivered. -/
theorem Received.delivery_of_dispatch {key : MaskingKey} (hs : Received es fs s)
    (h : s.step (.dispatch key) = some (t, es')) : s.delivery = none := by
  cases step_cases h with
  | call _ hcall => cases hcall
  | dispatch _ hstack =>
    rw [delivery, hstack, List.findSome?_cons_of_isNone rfl]
    exact hs.delivery_eq_none hstack (by rfl)

/-- A step issues the frame that the input asks for, or an answer to a `PING`. -/
theorem step_issued (h : s.step i = some (t, es)) {f : Sent} (hf : f ∈ es.flatMap Event.issued) :
    i.sent? = some f ∨
      ∃ state d key, f = ⟨.pong, d, key⟩ ∧ .sendData state .pong d key ∈ es := by
  have hfilter := flatMap_filter_isCall (f := Event.issued)
    (fun e he => by cases e <;> first | rfl | cases he) es
  have hmem (e : Event) (he : e ∈ es.filter Event.isCall) : e ∈ es := List.mem_of_mem_filter he
  have hcalls := step_calls h
  rw [hfilter] at hf
  generalize es.filter Event.isCall = cs at hf hmem hcalls
  cases hcalls with
  | none => cases hf
  | send hframe =>
    rw [List.flatMap_singleton, Event.issued] at hf
    split_ifs at hf
    · cases hf
    · exact .inl (by rw [Input.sent?, hframe, List.mem_singleton.mp hf]; rfl)
  | pong =>
    rw [List.flatMap_singleton, Event.issued] at hf
    split_ifs at hf
    · cases hf
    · exact .inr ⟨_, _, _, List.mem_singleton.mp hf, hmem _ List.mem_cons_self⟩
  | close => cases hf

/-- What was received, with `u` behind it, is the stream of the other side. The frames that were
processed are the first of its frames, and its close frame is not among them. -/
theorem Received.split_append (hs : Received es fs s) {u : Bytes}
    (hpeer : es.flatMap Event.receivedBytes ++ u = (streamOf peer).flatMap (wireBytes m))
    (hplain : ∀ f ∈ peer.flatMap Event.issued, f.Plain) :
    ∃ ys zs, peer.flatMap Event.issued = ys ++ zs ∧ fs = ys.map Sent.frame ∧
      s.pending ++ u = (zs.map some ++ if peer.any Event.isClosing then [none] else []).flatMap
        (wireBytes m) := by
  have hreads := hs.reads.append_right u
  rw [hpeer] at hreads
  obtain ⟨xs, zs, hsplit, rfl, hr⟩ := hreads.of_flatMap fun x hx =>
    (encodes_streamOf hplain m x hx).1
  have hno : none ∉ xs := fun hmem => by
    have hstop := hs.not_stop _ (List.mem_map_of_mem hmem)
    cases hstop
  rw [streamOf] at hsplit
  rcases List.append_eq_append_iff.mp hsplit with ⟨c, rfl, hc⟩ | ⟨c, hc, rfl⟩
  · -- all frames were processed
    obtain rfl : c = [] := by
      refine List.eq_nil_iff_forall_not_mem.mpr fun x hx => hno ?_
      have hnone := List.mem_append_left zs hx
      rw [← hc] at hnone
      split_ifs at hnone
      · exact List.mem_append_right _ (List.mem_singleton.mp hnone ▸ hx)
      · cases hnone
    refine ⟨_, [], (List.append_nil _).symm, ?_, ?_⟩
    · rw [List.append_nil, List.map_map]
      rfl
    · rw [List.map_nil, List.nil_append, hc]
      exact hr
  · obtain ⟨ys, zs, hys, rfl, rfl⟩ := List.map_eq_append_iff.mp hc
    exact ⟨ys, zs, hys, List.map_map, hr⟩

theorem Received.split_streamOf (hs : Received es fs s)
    (hpeer : es.flatMap Event.receivedBytes <+: (streamOf peer).flatMap (wireBytes m))
    (hplain : ∀ f ∈ peer.flatMap Event.issued, f.Plain) :
    ∃ ys zs, peer.flatMap Event.issued = ys ++ zs ∧ fs = ys.map Sent.frame ∧
      s.pending <+: (zs.map some ++ if peer.any Event.isClosing then [none] else []).flatMap
        (wireBytes m) := by
  obtain ⟨u, hu⟩ := hpeer
  obtain ⟨ys, zs, hsplit, hfs, hpending⟩ := hs.split_append hu hplain
  exact ⟨ys, zs, hsplit, hfs, u, hpending⟩

/-- An answer is not longer than the frames of the other side. -/
theorem Received.length_answer_lt (hs : Received es fs s)
    (hpeer : es.flatMap Event.receivedBytes <+: (streamOf peer).flatMap (wireBytes m))
    (hplain : ∀ f ∈ peer.flatMap Event.issued, f.Plain) {state : ReadyState} {d : Bytes}
    {key : MaskingKey} (hmem : .sendData state .pong d key ∈ es) : d.length < 2 ^ 29 := by
  obtain ⟨f, hf, rfl⟩ := hs.payload_of_pong hmem
  obtain ⟨ys, zs, hsplit, rfl, -⟩ := hs.split_streamOf hpeer hplain
  obtain ⟨g, hg, rfl⟩ := List.mem_map.mp hf
  exact (hplain g (hsplit ▸ List.mem_append_left _ hg)).length_lt

/-- One step of a side that receives a part of the stream of the other side. -/
theorem step_speaks (hs : Speaks useMask es s) (h : s.step i = some (t, es'))
    (hguard : Orderly s i es') (hplain : ∀ f ∈ peer.flatMap Event.issued, f.Plain)
    (hpeer : (es ++ es').flatMap Event.receivedBytes <+: (streamOf peer).flatMap (wireBytes m)) :
    Speaks useMask (es ++ es') t := by
  obtain ⟨-, hno, hlen, hpoll⟩ := hguard
  obtain ⟨fs, hfs⟩ := hs.received
  have hpeer₀ : es.flatMap Event.receivedBytes <+: (streamOf peer).flatMap (wireBytes m) :=
    (List.prefix_append _ _).trans (List.flatMap_append ▸ hpeer)
  have hbelow := framesBelow_of_encodes hpeer₀ (encodes_streamOf hplain m)
  -- what it sends
  have hsends := step_sends hs.wf hs.consistent h hlen fun key hi => by
    subst hi
    exact hfs.frontFits (hfs.delivery_of_dispatch h) hbelow
  -- what it receives
  obtain ⟨gs, hgs⟩ := step_received hfs h (fun _ hi => hpoll (by rw [hi]; rfl)) fun key hi => by
    subst hi
    refine ⟨hfs.not_overflows (hfs.delivery_of_dispatch h) hbelow, fun n hn => ?_⟩
    have := hno _ hn
    cases this
  refine ⟨step_consistent hs.consistent h, hsends.transmits.wf,
    hsends.transmits.useMask.trans hs.mask, ?_, step_frames hs.consistent hs.frames h,
    fun f hf => ?_, _, hgs⟩
  · rw [List.flatMap_append, List.flatMap_append, List.append_assoc, hsends.issued hno, hs.mask,
      ← List.append_assoc, hs.sent]
  · rw [List.flatMap_append] at hf
    rcases List.mem_append.mp hf with hf | hf
    · exact hs.plain f hf
    · rcases step_issued h hf with hsent | ⟨state, d, key, rfl, hmem⟩
      · exact Input.plain_sent? hsent hlen
      · exact ⟨by simp, hgs.length_answer_lt hpeer hplain (List.mem_append_right _ hmem)⟩

theorem Constructed.speaks (hs : Constructed s) : Speaks s.impl.mUseMask [] s where
  consistent := hs.consistent
  wf := hs.sender.wf
  mask := rfl
  sent := hs.sender.bytes
  frames := ⟨rfl, by simp⟩
  plain := by simp
  received := ⟨[], hs.received⟩

/-- What has been delivered are the first messages of the other side. -/
theorem Speaks.delivered_isPrefix (hs : Speaks useMask es s)
    (hplain : ∀ f ∈ peer.flatMap Event.issued, f.Plain)
    (hpeer : es.flatMap Event.receivedBytes <+: (streamOf peer).flatMap (wireBytes m)) :
    delivered es <+: issuedMessages peer := by
  obtain ⟨fs, hfs⟩ := hs.received
  obtain ⟨ys, zs, hsplit, rfl, -⟩ := hfs.split_streamOf hpeer hplain
  have hmessages := messagesOf_map_frame fun f hf => hplain f (hsplit ▸ List.mem_append_left zs hf)
  rw [delivered, hfs.outputs_eq, issuedMessages, hsplit, List.filterMap_append, ← hmessages]
  exact List.prefix_append _ _

/-! ### A side that does not close the connection -/

/-- The receiving half of a side that does not close the connection itself. -/
structure Listens (es : List Event) (s : Session) : Prop where
  greeting : s.impl.mReadyState = .connecting → Greeting es s
  parsing : s.impl.mReadyState ≠ .connecting → ∃ fs, Parsing es fs s

theorem Constructed.listens (hs : Constructed s) (hstate : s.impl.mReadyState = .connecting) :
    Listens [] s :=
  ⟨(hs.converses hstate).greeting, (hs.converses hstate).parsing⟩

theorem step_listens (hs : Listens es s) (hc : s.Consistent) (h : s.step i = some (t, es'))
    (hguard : Healthy s i es')
    (hdone : .handshakeDone ∉ es ++ es' → t.impl.mReadyState = .connecting)
    (hbelow : FramesBelow 4294967296 (es.flatMap Event.receivedBytes)) : Listens (es ++ es') t := by
  by_cases hstate : s.impl.mReadyState = .connecting
  · obtain ⟨hgreeting, hparsing⟩ := (hs.greeting hstate).step hc h hguard hstate fun hno =>
      hdone fun hmem => (List.mem_append.mp hmem).elim (hs.greeting hstate).not_done hno
    exact ⟨hgreeting, hparsing⟩
  · obtain ⟨fs, hfs⟩ := hs.parsing hstate
    obtain ⟨gs, hgs⟩ := step_parsing hfs h hguard hbelow
    exact ⟨fun hconn => absurd hconn hgs.ne_connecting, fun _ => ⟨_, hgs⟩⟩

/-- A side that has left `OPEN` without having closed the connection has met the close frame of the
other side, and has delivered all messages in front of it. -/
theorem Listens.delivered_eq (hs : Listens es s) (hrank : 2 ≤ s.impl.mReadyState.rank)
    (hplain : ∀ f ∈ peer.flatMap Event.issued, f.Plain)
    (hpeer : es.flatMap Event.receivedBytes <+: (streamOf peer).flatMap (wireBytes m)) :
    peer.any Event.isClosing = true ∧ delivered es = issuedMessages peer := by
  obtain ⟨fs, hfs⟩ := hs.parsing fun hconn => by simp [hconn] at hrank
  obtain hopen | ⟨-, hnone, f, u, hp, hstop⟩ := hfs.state
  · simp [hopen] at hrank
  obtain ⟨ys, zs, hsplit, rfl, hpending⟩ := hfs.received.split_streamOf hpeer hplain
  rw [pending_of_none hnone] at hpending
  have hencodes (x : Option Sent)
      (hx : x ∈ zs.map some ++ if peer.any Event.isClosing then [none] else []) :
      frameDecoder.Encodes (wireBytes m) wireFrame x := by
    refine (encodes_streamOf hplain m x ?_).1
    rw [streamOf, hsplit, List.map_append, List.append_assoc]
    exact List.mem_append_right _ hx
  -- the frame that it has met is the next one of the stream
  obtain ⟨xs, rest, hnext, hf, -⟩ :=
    (Decoder.Reads.frame hp (.done u)).of_prefix_flatMap hpending hencodes
  obtain ⟨x, rfl, rfl⟩ := List.map_eq_singleton_iff.mp hf.symm
  cases zs with
  | nil =>
    have hclosing : peer.any Event.isClosing = true := by
      by_contra hno
      simp [hno] at hnext
    rw [List.append_nil] at hsplit
    have hmessages := messagesOf_map_frame fun f hf => hplain f (hsplit ▸ hf)
    rw [delivered, hfs.received.outputs_eq, issuedMessages, hsplit, ← hmessages]
    exact ⟨hclosing, rfl⟩
  | cons g zs =>
    obtain ⟨rfl, -⟩ := List.cons.inj hnext
    have hg : g.Plain := hplain g (hsplit ▸ by simp)
    cases hg.not_stop.symm.trans hstop

/-! ### Both sides -/

section Link

variable {p p' : Platform} {url origin host : Bytes} {port : ℤ} {useMask' : Bool}
  {tr : List ((Side × Input) × List Event)} {l : Link Session UInt8}
  (hurl : url.length < 128) (horigin : origin.length < 200)
  (hparse : parseUrl url = some (host, port, [])) (hport : port ≠ 0)
  (hhost : 0x0A ∉ host ∧ 0 ∉ host) (horigin' : 0x0A ∉ origin ∧ 0 ∉ origin)

include hurl horigin hparse hport hhost horigin'

/-- The invariant of both sides. -/
theorem run_speaks (h : connectionLink.Run (Machine.linkGuard fun _ => Orderly)
      (handshakeLink p p' url origin useMask useMask') tr l) (side : Side) :
    Speaks ((handshakeLink p p' url origin useMask useMask').party side).impl.mUseMask
      (Machine.events (Machine.trace side tr)) (l.party side) := by
  induction h generalizing side with
  | nil => exact (constructed_party p p' url origin useMask useMask' side).speaks
  | @snoc tr t input es u hrun hstep hguard ih =>
    have hreads := link_readsHead hurl horigin hparse hport hhost horigin'
      ((hrun.snoc hstep hguard).mono fun _ _ _ horderly => horderly.1)
    obtain ⟨v, rest, hv, -, rfl⟩ := Machine.link_cases hstep
    obtain ⟨side', i⟩ := input
    obtain rfl | rfl := side'.eq_or_eq_other side
    · have hpeer := ih side.other
      have hread := (hreads side).frames
      simp only [Machine.trace_append, Machine.trace_single, Machine.trace_other_single,
        List.append_nil, Machine.events_append, Machine.events_cons, Machine.events_nil] at hread
      simpa using step_speaks (ih side) hv hguard hpeer.plain
        (hread.trans hpeer.prefix_streamOf)
    · simpa using ih side'.other

/-- What a side has received of frames is a part of the stream of the other side. -/
theorem received_prefix_streamOf (h : connectionLink.Run (Machine.linkGuard fun _ => Orderly)
      (handshakeLink p p' url origin useMask useMask') tr l) (side : Side) :
    (Machine.events (Machine.trace side tr)).flatMap Event.receivedBytes <+:
      (streamOf (Machine.events (Machine.trace side.other tr))).flatMap (wireBytes
        ((handshakeLink p p' url origin useMask useMask').party side.other).impl.mUseMask) :=
  (link_readsHead hurl horigin hparse hport hhost horigin'
    (h.mono fun _ _ _ horderly => horderly.1) side).frames.trans
      (run_speaks hurl horigin hparse hport hhost horigin' h side.other).prefix_streamOf

/-- What has been delivered are the first messages that the other side has queued. -/
theorem run_delivered_issued (h : connectionLink.Run (Machine.linkGuard fun _ => Orderly)
      (handshakeLink p p' url origin useMask useMask') tr l) (side : Side) :
    delivered (Machine.events (Machine.trace side tr)) <+:
      issuedMessages (Machine.events (Machine.trace side.other tr)) :=
  (run_speaks hurl horigin hparse hport hhost horigin' h side).delivered_isPrefix
    (run_speaks hurl horigin hparse hport hhost horigin' h side.other).plain
    (received_prefix_streamOf hurl horigin hparse hport hhost horigin' h side)

/-- The invariant of a side that does not close the connection, whatever the other side does. -/
theorem run_listens {side : Side} (h : connectionLink.Run (Machine.linkGuard fun side' s i es =>
      Orderly s i es ∧ (side' = side → Healthy s i es))
      (handshakeLink p p' url origin useMask useMask') tr l) :
    Listens (Machine.events (Machine.trace side tr)) (l.party side) := by
  induction h with
  | nil =>
    exact (constructed_party p p' url origin useMask useMask' side).listens
      (party_connecting hurl horigin hparse hport side)
  | @snoc tr t input es u hrun hstep hguard ih =>
    have horderly := hrun.mono fun _ _ _ hguard => hguard.1
    have hreads := link_readsHead hurl horigin hparse hport hhost horigin'
      ((hrun.snoc hstep hguard).mono fun _ _ _ hguard => hguard.1.1) side
    have hbelow := framesBelow_of_encodes
      (received_prefix_streamOf hurl horigin hparse hport hhost horigin' horderly side)
      (encodes_streamOf (run_speaks hurl horigin hparse hport hhost horigin' horderly
        side.other).plain _)
    have hc := (run_speaks hurl horigin hparse hport hhost horigin' horderly side).consistent
    obtain ⟨v, rest, hv, -, rfl⟩ := Machine.link_cases hstep
    obtain ⟨side', i⟩ := input
    obtain rfl | rfl := side'.eq_or_eq_other side
    · have hdone := hreads.not_closed
      simp only [Machine.trace_append, Machine.trace_single, Machine.events_append,
        Machine.events_cons, Machine.events_nil, List.append_nil, Link.party_advance] at hdone
      simpa using step_listens ih hc hv (hguard.2 rfl) hdone hbelow
    · simpa using ih

end Link

/-- Messages are queued as long as the connection is neither closing nor closed. -/
theorem step_issuedMessages (h : s.step i = some (t, es)) (hnul : i.NulFree) :
    issuedMessages es =
      if 2 ≤ s.impl.mReadyState.rank then [] else i.message?.toList := by
  have hfilter := flatMap_filter_isCall (f := Event.issued)
    (fun e he => by cases e <;> first | rfl | cases he) es
  have hmessage := Input.filterMap_sent? hnul
  have hcalls := step_calls h
  rw [issuedMessages, hfilter, ← hmessage]
  generalize es.filter Event.isCall = cs at hcalls
  cases hcalls with
  | none hframe => simp [Input.sent?, hframe]
  | send hframe =>
    by_cases hrank : 2 ≤ s.impl.mReadyState.rank <;> simp [Event.issued, hrank, Input.sent?, hframe]
  | pong =>
    by_cases hrank : 2 ≤ s.impl.mReadyState.rank <;>
      simp [Event.issued, hrank, Input.sent?, Input.frame, Sent.message?]
  | close hframe => simp [Event.issued, Input.sent?, hframe]

/-- The messages that are queued are the first of those that the application has sent. -/
theorem run_issuedMessages {G : Session → Input → List Event → Prop}
    {tr : List (Input × List Event)} (hs : s.Consistent) (h : sessionMachine.Run G s tr t)
    (hnul : ∀ s i es, G s i es → i.NulFree) :
    issuedMessages (Machine.events tr) <+: sentMessages tr := by
  suffices hall : t.Consistent ∧ issuedMessages (Machine.events tr) <+: sentMessages tr ∧
      (t.impl.mReadyState.rank < 2 → issuedMessages (Machine.events tr) = sentMessages tr) from
    hall.2.1
  induction h with
  | nil => exact ⟨hs, List.prefix_rfl, fun _ => rfl⟩
  | @snoc tr t i es u hrun hstep hguard ih =>
    obtain ⟨hc, hprefix, heq⟩ := ih
    have hrank := step_rank_le hc hstep
    have hstepped := step_issuedMessages hstep (hnul _ _ _ hguard)
    simp only [Machine.events_append, Machine.events_cons, Machine.events_nil, List.append_nil]
    rw [issuedMessages_append, hstepped, sentMessages_snoc]
    refine ⟨step_consistent hc hstep, ?_, fun hlt => ?_⟩
    · split_ifs with hclosing
      · rw [List.append_nil]
        exact hprefix.trans (List.prefix_append _ _)
      · rw [heq (by omega)]
    · rw [if_neg (by omega), heq (by omega)]

/-- Whatever the end. A client and a server from their constructors on, which may close their
connections and be destroyed in the middle of the exchange, may be polled without a callback, and
may lose their sockets: the messages that are delivered are the first of those that the application
of the other side has sent. -/
theorem delivered_until_end {p p' : Platform} {url origin host : Bytes} {port : ℤ} {useMask' : Bool}
    (hurl : url.length < 128) (horigin : origin.length < 200)
    (hparse : parseUrl url = some (host, port, [])) (hport : port ≠ 0)
    (hhost : 0x0A ∉ host ∧ 0 ∉ host) (horigin' : 0x0A ∉ origin ∧ 0 ∉ origin)
    {tr : List ((Side × Input) × List Event)} {l : Link Session UInt8}
    (h : connectionLink.Run (Machine.linkGuard fun _ s i es => Orderly s i es ∧ i.NulFree)
      (handshakeLink p p' url origin useMask useMask') tr l) (side : Side) :
    delivered (Machine.events (Machine.trace side tr)) <+:
      sentMessages (Machine.trace side.other tr) := by
  have horderly : connectionLink.Run (Machine.linkGuard fun _ => Orderly) _ tr l :=
    h.mono fun _ _ _ hguard => hguard.1
  have hconstructed := constructed_party p p' url origin useMask useMask' side.other
  exact (run_delivered_issued hurl horigin hparse hport hhost horigin' horderly side).trans
    (run_issuedMessages hconstructed.consistent (h.project side.other) fun _ _ _ hguard => hguard.2)

/-- The client loses its socket behind the first of two messages, and is destroyed. -/
theorem delivered_until_end_lost :
    ∃ tr l, connectionLink.Run (Machine.linkGuard fun _ s i es => Orderly s i es ∧ i.NulFree)
        (handshakeLink zeroPlatform zeroPlatform (ascii "ws://h") [] true true) tr l ∧
      (l.party .left).stack = [.destroyed] ∧
      sentMessages (Machine.trace .right tr) = [([1, 2], false), ([3], false)] ∧
      delivered (Machine.events (Machine.trace .left tr)) = [([1, 2], false)] ∧
      delivered (Machine.events (Machine.trace .left tr)) <+:
        sentMessages (Machine.trace .right tr) := by
  obtain ⟨tr, l, hrun, hP⟩ := Machine.exists_run_of_exec (M := connectionLink)
    (G := Machine.linkGuard fun _ s i es => Orderly s i es ∧ i.NulFree)
    (s := handshakeLink zeroPlatform zeroPlatform (ascii "ws://h") [] true true)
    (l := (handshakeInputs (requestLines (ascii "h") 80 [] []).flatten).map (Prod.mk Side.right) ++
      [.sendBinary (some [1, 2]) 0, .sendBinary (some [3]) 0, .poll true 0, .receive .wouldBlock,
        .send (.accepted 15), .send .wouldBlock, .dispatch 0].map (Prod.mk Side.right) ++
      (handshakeInputs responseLines.flatten).map (Prod.mk Side.left) ++
      (pollInputs [0x82, 0x82, 0, 0, 0, 0, 1, 2, 0x82, 0x81]
        [.dispatch 0, .ret, .dispatch 0]).map (Prod.mk Side.left) ++
      [.poll true 0, .receive .endOfStream, .destroy, .destroyLoop false].map (Prod.mk Side.left))
    (P := fun r => decide ((r.1.party .left).stack = [.destroyed] ∧
      sentMessages (Machine.trace .right r.2) = [([1, 2], false), ([3], false)] ∧
      delivered (Machine.events (Machine.trace .left r.2)) = [([1, 2], false)]))
    (by decide +kernel)
  obtain ⟨hdestroyed, hsent, hdelivered⟩ := of_decide_eq_true hP
  exact ⟨tr, l, hrun, hdestroyed, hsent, hdelivered, delivered_until_end (by decide) (by decide)
    parseUrl_h (by decide) (by decide) (by decide) hrun .left⟩

/-- Nothing is lost when the other side closes. Take a side that does not close the connection, is
not destroyed and whose socket does not fail. Whatever the other side does, this side leaves `OPEN`
only for the close frame of the other side, and it has then delivered all messages that the other
side had queued when it closed. -/
theorem delivered_at_close {p p' : Platform} {url origin host : Bytes} {port : ℤ} {useMask' : Bool}
    (hurl : url.length < 128) (horigin : origin.length < 200)
    (hparse : parseUrl url = some (host, port, [])) (hport : port ≠ 0)
    (hhost : 0x0A ∉ host ∧ 0 ∉ host) (horigin' : 0x0A ∉ origin ∧ 0 ∉ origin) {side : Side}
    {tr : List ((Side × Input) × List Event)} {l : Link Session UInt8}
    (h : connectionLink.Run (Machine.linkGuard fun side' s i es =>
      Orderly s i es ∧ (side' = side → Healthy s i es))
      (handshakeLink p p' url origin useMask useMask') tr l)
    (hrank : 2 ≤ (l.party side).impl.mReadyState.rank) :
    (Machine.events (Machine.trace side.other tr)).any Event.isClosing = true ∧
      delivered (Machine.events (Machine.trace side tr)) =
        issuedMessages (Machine.events (Machine.trace side.other tr)) := by
  have horderly : connectionLink.Run (Machine.linkGuard fun _ => Orderly) _ tr l :=
    h.mono fun _ _ _ hguard => hguard.1
  have hpeer := run_speaks hurl horigin hparse hport hhost horigin' horderly side.other
  exact (run_listens hurl horigin hparse hport hhost horigin' h).delivered_eq hrank hpeer.plain
    (received_prefix_streamOf hurl horigin hparse hport hhost horigin' horderly side)

/-- The server sends two messages and closes, before the client has read its answer. -/
theorem delivered_at_close_client :
    ∃ tr l, connectionLink.Run (Machine.linkGuard fun side' s i es =>
        Orderly s i es ∧ (side' = .left → Healthy s i es))
        (handshakeLink zeroPlatform zeroPlatform (ascii "ws://h") [] true true) tr l ∧
      (l.party .left).impl.mReadyState = .closing ∧
      delivered (Machine.events (Machine.trace .left tr)) = [([1, 2], false), ([3], false)] := by
  obtain ⟨tr, l, hrun, hP⟩ := Machine.exists_run_of_exec (M := connectionLink)
    (G := Machine.linkGuard fun side' s i es =>
      Orderly s i es ∧ (side' = .left → Healthy s i es))
    (s := handshakeLink zeroPlatform zeroPlatform (ascii "ws://h") [] true true)
    (l := (handshakeInputs (requestLines (ascii "h") 80 [] []).flatten).map (Prod.mk Side.right) ++
      [.sendBinary (some [1, 2]) 0, .sendBinary (some [3]) 0, .close, .poll true 0,
        .receive .wouldBlock, .send (.accepted 21), .send .wouldBlock, .dispatch 0].map
        (Prod.mk Side.right) ++
      (handshakeInputs responseLines.flatten).map (Prod.mk Side.left) ++
      (pollInputs [0x82, 0x82, 0, 0, 0, 0, 1, 2, 0x82, 0x81, 0, 0, 0, 0, 3, 0x88, 0x80, 0, 0, 0, 0]
        [.dispatch 0, .ret, .dispatch 0, .ret, .dispatch 0]).map (Prod.mk Side.left))
    (P := fun r => decide ((r.1.party .left).impl.mReadyState = .closing ∧
      issuedMessages (Machine.events (Machine.trace .right r.2)) =
        [([1, 2], false), ([3], false)])) (by decide +kernel)
  obtain ⟨hclosing, hissued⟩ := of_decide_eq_true hP
  have hall := (delivered_at_close (by decide) (by decide) parseUrl_h (by decide) (by decide)
    (by decide) hrun (by simp [hclosing])).2
  exact ⟨tr, l, hrun, hclosing, hall.trans hissued⟩

end Session

end WsClient
