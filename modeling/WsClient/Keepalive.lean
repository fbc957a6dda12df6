import WsClient.Closing

/-!
# Pings and their answers

Of the frames of a connection only `PING` makes the other side queue a frame, a `PONG` with the same
payload; a `PONG` is consumed without a trace, so that answers are not answered.

A side answers the first of the `PING`s that the other side has queued, in order and each once. When
nothing is left on the way, it has answered all of them, and delivered all messages; the other side
may have closed the connection by then.

## Main definitions

* `answered`, `pinged`: the payloads of the answers of a side, and of the `PING`s it has queued.

## Main results

* `Session.Listens.received_of_drained`: all frames of the other side have been processed.
* `Session.pings_answered`: each `PING` is answered once.
-/

namespace WsClient

/-- The payload of an answer. -/
def Output.pong? : Output → Option Bytes
  | .pong d => some d
  | .message _ _ => none

/-- The payload of a `PING`. -/
def Sent.ping? (f : Sent) : Option Bytes := if f.opcode = .ping then some f.payload else none

/-- The payloads of the answers to `PING`s, in order. -/
def answered (es : List Event) : List Bytes := (es.flatMap Event.outputs).filterMap Output.pong?

/-- The payloads of the `PING`s that are queued. -/
def pinged (es : List Event) : List Bytes := (es.flatMap Event.issued).filterMap Sent.ping?

/-- Only `PING`s are answered. -/
theorem Sent.Plain.pong_interpret {f : Sent} (h : f.Plain) :
    (f.frame.interpret []).2.filterMap Output.pong? = f.ping?.toList := by
  rcases h.opcode with hop | hop | hop | hop <;>
    simp [frame, ping?, Frame.interpret, hop, Opcode.isData, Output.pong?]

/-- The answers to a sequence of frames. -/
theorem answersOf_map_frame {frames : List Sent} (h : ∀ f ∈ frames, f.Plain) :
    (interpret [] (frames.map Sent.frame)).2.filterMap Output.pong? =
      frames.filterMap Sent.ping? := by
  induction frames with
  | nil => rfl
  | cons f frames ih =>
    have hf := h f List.mem_cons_self
    rw [List.map_cons, interpret, List.filterMap_append, hf.pong_interpret, hf.interpret_fst,
      ih fun g hg => h g (List.mem_cons_of_mem _ hg), List.filterMap_cons]
    cases f.ping? <;> rfl

namespace Session

variable {es peer : List Event} {s : Session} {useMask m : Bool}

/-- A side answers the first `PING`s of the other side. -/
theorem Speaks.answered_isPrefix (hs : Speaks useMask es s)
    (hplain : ∀ f ∈ peer.flatMap Event.issued, f.Plain)
    (hpeer : es.flatMap Event.receivedBytes <+: (streamOf peer).flatMap (wireBytes m)) :
    answered es <+: pinged peer := by
  obtain ⟨fs, hfs⟩ := hs.received
  obtain ⟨ys, zs, hsplit, rfl, -⟩ := hfs.split_streamOf hpeer hplain
  have hanswers := answersOf_map_frame fun f hf => hplain f (hsplit ▸ List.mem_append_left zs hf)
  rw [answered, hfs.outputs_eq, pinged, hsplit, List.filterMap_append, ← hanswers]
  exact List.prefix_append _ _

/-- Outside of `poll`, a side that has received all of the stream has processed all frames. -/
theorem Listens.received_of_drained (hs : Listens es s) (hstate : s.impl.mReadyState ≠ .connecting)
    (hnil : s.stack = []) (hplain : ∀ f ∈ peer.flatMap Event.issued, f.Plain)
    (hpeer : es.flatMap Event.receivedBytes = (streamOf peer).flatMap (wireBytes m)) :
    Received es ((peer.flatMap Event.issued).map Sent.frame) s := by
  obtain ⟨fs, hfs⟩ := hs.parsing hstate
  have hnone : s.delivery = none := by rw [delivery, hnil]; rfl
  obtain ⟨ys, zs, hsplit, rfl, hpending⟩ :=
    hfs.received.split_append (u := []) (by rw [List.append_nil, hpeer]) hplain
  rw [List.append_nil, pending_of_none hnone] at hpending
  cases zs with
  | nil =>
    rw [hsplit, List.append_nil]
    exact hfs.received
  | cons f zs =>
    -- the next frame would have been processed
    have hf : f.Plain := hplain f (hsplit ▸ by simp)
    have hsettled := hfs.settled hnil
    rw [hpending, List.map_cons, List.cons_append, List.flatMap_cons] at hsettled
    cases hf.not_stop.symm.trans (hsettled _ _ (hf.encodes m _))

/-- Pings and answers. As long as the two sides are orderly, also when both close the connection, a
side answers the first of the `PING`s that the other side has queued, in order and each once. If a
side does not close the connection, calls back in every `poll` and its socket does not fail: when
the other side has read the handshake and has nothing to transmit, nothing is on the way and `poll`
has returned, this side has answered all of them and delivered all messages, also if the other side
has closed the connection. -/
theorem pings_answered {p p' : Platform} {url origin host : Bytes} {port : ℤ} {useMask' : Bool}
    (hurl : url.length < 128) (horigin : origin.length < 200)
    (hparse : parseUrl url = some (host, port, [])) (hport : port ≠ 0)
    (hhost : 0x0A ∉ host ∧ 0 ∉ host) (horigin' : 0x0A ∉ origin ∧ 0 ∉ origin)
    {tr : List ((Side × Input) × List Event)} {l : Link Session UInt8}
    (h : connectionLink.Run (Machine.linkGuard fun _ => Orderly)
      (handshakeLink p p' url origin useMask useMask') tr l) (side : Side) :
    answered (Machine.events (Machine.trace side tr)) <+:
        pinged (Machine.events (Machine.trace side.other tr)) ∧
      (connectionLink.Run (Machine.linkGuard fun side' s i es =>
          Orderly s i es ∧ (side' = side → Healthy s i es))
          (handshakeLink p p' url origin useMask useMask') tr l →
        .handshakeDone ∈ Machine.events (Machine.trace side.other tr) →
          (l.party side.other).impl.mTransmitBuffer.getSize = 0 → l.wire side = [] →
            (l.party side).stack = [] →
              answered (Machine.events (Machine.trace side tr)) =
                  pinged (Machine.events (Machine.trace side.other tr)) ∧
                delivered (Machine.events (Machine.trace side tr)) =
                  issuedMessages (Machine.events (Machine.trace side.other tr))) := by
  have hspeaks := run_speaks hurl horigin hparse hport hhost horigin' h
  have hplain := (hspeaks side.other).plain
  refine ⟨(hspeaks side).answered_isPrefix hplain
    (received_prefix_streamOf hurl horigin hparse hport hhost horigin' h side),
    fun hhealthy hdone hbuffer hwire hnil => ?_⟩
  have hlistens := run_listens hurl horigin hparse hport hhost horigin' hhealthy
  obtain ⟨hdone', hreceived⟩ := received_of_done hurl horigin hparse hport hhost horigin'
    (h.mono fun _ _ _ hguard => hguard.1) side hdone hwire
  have hstate : (l.party side).impl.mReadyState ≠ .connecting := fun hconn =>
    (hlistens.greeting hconn).not_done hdone'
  have hstream := (hspeaks side.other).sent
  rw [SimpleBuffer.getSize_eq_zero_iff.mp hbuffer, List.append_nil, ← hreceived,
    (hspeaks side.other).frames.issued, ← flatMap_streamOf] at hstream
  have hall := (hlistens.received_of_drained hstate hnil hplain hstream).outputs_eq
  rw [answered, delivered, hall]
  exact ⟨answersOf_map_frame hplain, messagesOf_map_frame hplain⟩

/-- The server sends a `PING` and a message, and closes. -/
theorem pings_answered_client :
    ∃ tr l, connectionLink.Run (Machine.linkGuard fun side' s i es =>
        Orderly s i es ∧ (side' = .left → Healthy s i es))
        (handshakeLink zeroPlatform zeroPlatform (ascii "ws://h") [] true true) tr l ∧
      (l.party .right).impl.mReadyState = .closed ∧
      answered (Machine.events (Machine.trace .left tr)) = [[]] ∧
      delivered (Machine.events (Machine.trace .left tr)) = [([3], false)] := by
  obtain ⟨tr, l, hrun, hP⟩ := Machine.exists_run_of_exec (M := connectionLink)
    (G := Machine.linkGuard fun side' s i es =>
      Orderly s i es ∧ (side' = .left → Healthy s i es))
    (s := handshakeLink zeroPlatform zeroPlatform (ascii "ws://h") [] true true)
    (l := (handshakeInputs (requestLines (ascii "h") 80 [] []).flatten).map (Prod.mk Side.right) ++
      [.sendPing 0, .sendBinary (some [3]) 0, .close, .poll true 0, .receive .wouldBlock,
        .send (.accepted 19), .send .wouldBlock].map (Prod.mk Side.right) ++
      (handshakeInputs responseLines.flatten).map (Prod.mk Side.left) ++
      (pollInputs [0x89, 0x80, 0, 0, 0, 0, 0x82, 0x81, 0, 0, 0, 0, 3, 0x88, 0x80, 0, 0, 0, 0]
        [.dispatch 0, .dispatch 0, .ret, .dispatch 0]).map (Prod.mk Side.left))
    (P := fun r => decide ((r.1.party .right).impl.mReadyState = .closed ∧
        .handshakeDone ∈ Machine.events (Machine.trace .right r.2) ∧
        (r.1.party .right).impl.mTransmitBuffer.getSize = 0 ∧ r.1.wire .left = [] ∧
        (r.1.party .left).stack = []) && decide
      (pinged (Machine.events (Machine.trace .right r.2)) = [[]] ∧
        issuedMessages (Machine.events (Machine.trace .right r.2)) = [([3], false)]))
    (by decide +kernel)
  obtain ⟨hdrained, hqueued⟩ := Bool.and_eq_true_iff.mp hP
  obtain ⟨hclosed, hdone, hbuffer, hwire, hnil⟩ := of_decide_eq_true hdrained
  obtain ⟨hpinged, hissued⟩ := of_decide_eq_true hqueued
  obtain ⟨hanswered, hdelivered⟩ := (pings_answered (by decide) (by decide) parseUrl_h (by decide)
    (by decide) (by decide) (hrun.mono fun _ _ _ hguard => hguard.1) .left).2 hrun hdone hbuffer
    hwire hnil
  exact ⟨tr, l, hrun, hclosed, hanswered.trans hpinged, hdelivered.trans hissued⟩

end Session

end WsClient
