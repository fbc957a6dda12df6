import WsClient.HandshakeAgreement
import WsClient.ReferenceParse

/-!
# End-to-end delivery

Two connections that are `OPEN`, with empty buffers, on the ends of a reliable link. Each side sends
texts, binary messages and `PING`s, and polls, in any order and interleaving; the socket calls
transfer parts of what is there, and the answers to the `PING`s of one side go into the stream of
the other between its own frames.

What a side has put on its stream and in its transmit buffer are the encodings of the frames that it
sent. The other side reads a part of that stream, cut anywhere, so that the frames it has processed
are the first of those that were sent. All of them are whole messages or control frames, and none of
them makes the other side close the connection.

## Main definitions

* `Sent`, `sentFrames`: the frames that a connection sends, with the keys drawn for them.
* `Input.message?`, `sentMessages`: the messages that the application of a side sends.
* `Session.Idle`, `Session.Chatting`: the state in which the two start, and the guard.
* `Session.Chats`: the invariant of one side.

## Main results

* `Sent.Plain.encodes`: a frame is read back as it was sent.
* `Session.step_chats`: one step of one side.
* `Session.end_to_end`: what is delivered is what was sent.
-/

namespace WsClient

/-- A frame that a connection sends, and the masking key drawn for it. -/
structure Sent where
  opcode : Opcode
  payload : Bytes
  key : MaskingKey

namespace Sent

/-- The frame on the wire. -/
def bytes (useMask : Bool) (f : Sent) : Bytes :=
  encodeFrame (if useMask then some f.key else none) f.opcode f.payload

/-- The frame that is read there. -/
def frame (f : Sent) : Frame := ⟨true, f.opcode, f.payload⟩

/-- The message in the frame, and whether it is a text. -/
def message? (f : Sent) : Option (Bytes × Bool) :=
  match f.opcode with
  | .textFrame => some (f.payload, true)
  | .binaryFrame => some (f.payload, false)
  | _ => none

/-- The frame is one of those that connections send to each other as long as none of them closes the
connection. -/
structure Plain (f : Sent) : Prop where
  opcode : f.opcode = .textFrame ∨ f.opcode = .binaryFrame ∨ f.opcode = .ping ∨ f.opcode = .pong
  length_lt : f.payload.length < 2 ^ 29

variable {f : Sent} {useMask : Bool}

theorem Plain.ne_reserved (h : f.Plain) (n : ℕ) : f.opcode ≠ .reserved n := by
  intro hop
  have := h.opcode
  simp [hop] at this

theorem Plain.not_stop (h : f.Plain) : f.opcode.isStop = false := by
  rcases h.opcode with hop | hop | hop | hop <;> rw [hop] <;> rfl

/-- The frame is read back as it was sent. -/
theorem Plain.encodes (h : f.Plain) (useMask : Bool) :
    frameDecoder.Encodes (bytes useMask) frame f := fun r =>
  parseFrame_encodeFrame _ r h.ne_reserved (h.length_lt.trans (by decide))

theorem Plain.length_bytes_le (h : f.Plain) (useMask : Bool) :
    (f.bytes useMask).length ≤ 14 + f.payload.length := by
  have hheader := length_frameHeader_le useMask f.opcode f.payload.length f.key
  rw [bytes, ← frameHeader_append useMask f.payload f.key h.ne_reserved, List.length_append,
    length_applyMask]
  omega

/-- Nothing of a message is left over between the frames. -/
theorem Plain.interpret_fst (h : f.Plain) : (f.frame.interpret []).1 = [] := by
  rcases h.opcode with hop | hop | hop | hop <;> simp [frame, Frame.interpret, hop, Opcode.isData]

theorem Plain.interpret_snd (h : f.Plain) :
    (f.frame.interpret []).2.filterMap Output.message? = f.message?.toList := by
  rcases h.opcode with hop | hop | hop | hop <;>
    simp [frame, message?, Frame.interpret, hop, Opcode.isData, Output.message?]

end Sent

variable {frames : List Sent} {useMask : Bool} {s r : Bytes} {fs : List Frame}

/-- The messages in a sequence of frames. -/
theorem messagesOf_map_frame (h : ∀ f ∈ frames, f.Plain) :
    messagesOf [] (frames.map Sent.frame) = frames.filterMap Sent.message? := by
  induction frames with
  | nil => rfl
  | cons f frames ih =>
    have hf := h f List.mem_cons_self
    rw [List.map_cons, messagesOf_cons, hf.interpret_fst, hf.interpret_snd,
      ih fun g hg => h g (List.mem_cons_of_mem _ hg), List.filterMap_cons]
    cases f.message? <;> rfl

/-- The payload of an answer is that of a frame. -/
theorem pong_mem_interpret {d : Bytes} {acc : Bytes} (h : .pong d ∈ (interpret acc fs).2) :
    ∃ f ∈ fs, f.payload = d := by
  induction fs generalizing acc with
  | nil => cases h
  | cons f fs ih =>
    rcases List.mem_append.mp h with h | h
    · refine ⟨f, List.mem_cons_self, ?_⟩
      unfold Frame.interpret at h
      split_ifs at h <;> simp_all
    · obtain ⟨g, hg, hd⟩ := ih h
      exact ⟨g, List.mem_cons_of_mem _ hg, hd⟩

/-- The header of a frame that was read announces its size. -/
theorem length_of_parseFrame {f : Frame} (h : parseFrame s = some (f, r)) :
    (headerOf fun i => s.getD i 0).headerSize + (headerOf fun i => s.getD i 0).N + r.length =
      s.length := by
  have hdata (i : ℕ) (hi : i < s.length) : s[i]? = some (s.getD i 0) := by
    rw [List.getD_eq_getElem?_getD, List.getElem?_eq_getElem hi]
    rfl
  rw [parseFrame_eq hdata] at h
  split_ifs at h with hshort
  have hdrop := congrArg List.length (Prod.mk.inj (Option.some.inj h)).2
  rw [List.length_drop] at hdrop
  omega

/-- In a stream of encoded frames no header announces a frame that was not encoded. -/
theorem framesBelow_of_encodes {γ : Type*} {enc : γ → Bytes} {dec : γ → Frame} {xs : List γ}
    (hs : s <+: xs.flatMap enc)
    (h : ∀ x ∈ xs, frameDecoder.Encodes enc dec x ∧ (enc x).length < 4294967296) :
    FramesBelow 4294967296 s := by
  intro fs r hr ws hws
  obtain ⟨ys, zs, rfl, -, u, hu⟩ := hr.of_prefix_flatMap hs fun x hx => (h x hx).1
  obtain ⟨rfl, -, hsize⟩ := readHeader_some (Prod.ext (readHeader_append u hws) rfl)
  have hpos := headerSize_pos fun i => (r ++ u).getD i 0
  rw [hu] at hsize hpos ⊢
  cases zs with
  | nil => exact absurd (hpos.trans hsize) (by simp)
  | cons x zs =>
    obtain ⟨hx, hlen⟩ := h x (by simp)
    have hread := length_of_parseFrame (hx (zs.flatMap enc))
    rw [List.flatMap_cons]
    rw [List.length_append] at hread
    omega

/-- In a stream of encoded frames no header announces a frame that was not sent. -/
theorem framesBelow_of_prefix (hs : s <+: frames.flatMap (Sent.bytes useMask))
    (h : ∀ f ∈ frames, f.Plain) : FramesBelow 4294967296 s :=
  framesBelow_of_encodes hs fun f hf => by
    have hlen := (h f hf).length_bytes_le useMask
    have hlt := (h f hf).length_lt
    exact ⟨(h f hf).encodes useMask, by omega⟩

/-! ### What a side sends -/

namespace Input

/-- The message that a call of the interface sends, and whether it is a text. -/
def message? : Input → Option (Bytes × Bool)
  | .sendText str _ => some (str.getD [], true)
  | .sendBinary data _ => some (data.getD [], false)
  | _ => none

/-- A text does not contain a NUL. -/
def NulFree : Input → Prop
  | .sendText (some str) _ => 0 ∉ str
  | _ => True

instance : DecidablePred NulFree := fun i => by
  unfold NulFree
  split <;> infer_instance

/-- The frame that a call of the interface asks for. -/
def sent? (i : Input) : Option Sent := i.frame.map fun f => ⟨f.1, f.2.1, f.2.2⟩

variable {i : Input}

/-- The message is in the frame. -/
theorem filterMap_sent? (h : i.NulFree) :
    i.sent?.toList.filterMap Sent.message? = i.message?.toList := by
  cases i with
  | sendText str key =>
    cases str with
    | none => rfl
    | some str =>
      have hcut : WebSocketImpl.cString str = str :=
        List.takeWhile_eq_self_iff.mpr fun c hc => by
          simpa using fun h0 : c = 0 => h (h0 ▸ hc)
      simp [sent?, frame, message?, Sent.message?, hcut]
  | _ => rfl

theorem plain_sent? {f : Sent} (h : i.sent? = some f) (hlen : i.payload.length < 2 ^ 29) :
    f.Plain := by
  obtain ⟨g, hg, rfl⟩ := Option.map_eq_some_iff.mp h
  refine ⟨?_, by simpa [payload, hg] using hlen⟩
  cases i <;> simp_all [frame] <;> simp [← hg]

end Input

/-- The messages that the application of a side has sent. -/
def sentMessages (tr : List (Input × List Event)) : List (Bytes × Bool) :=
  tr.filterMap fun p => p.1.message?

/-- The frame of a call of `sendData`. -/
def Event.sent : Event → List Sent
  | .sendData _ type d key => [⟨type, d, key⟩]
  | _ => []

/-- The frames of the calls of `sendData`. -/
def sentFrames (es : List Event) : List Sent := es.flatMap Event.sent

@[simp] theorem sentFrames_append (es es' : List Event) :
    sentFrames (es ++ es') = sentFrames es ++ sentFrames es' := List.flatMap_append

/-- An `OPEN` connection that stays `OPEN` issues the frames of its calls of `sendData`, which are
the one that the input asks for or an answer to a `PING`. -/
theorem Session.step_sentFrames {s t : Session} {i : Input} {es : List Event}
    (h : s.step i = some (t, es)) (hs : s.impl.mReadyState = .opened)
    (ht : t.impl.mReadyState = .opened) (useMask : Bool) :
    es.flatMap (Event.issuedBytes useMask) = (sentFrames es).flatMap (Sent.bytes useMask) ∧
      (sentFrames es = i.sent?.toList ∨ i.sent? = none ∧ i.message? = none ∧
        ∃ state d key, sentFrames es = [⟨.pong, d, key⟩] ∧ .sendData state .pong d key ∈ es) := by
  have hissued := flatMap_filter_isCall (f := Event.issuedBytes useMask)
    (fun e he => by cases e <;> first | rfl | cases he) es
  have hsent : sentFrames es = _ := flatMap_filter_isCall (f := Event.sent)
    (fun e he => by cases e <;> first | rfl | cases he) es
  have hmem (e : Event) (he : e ∈ es.filter Event.isCall) : e ∈ es := List.mem_of_mem_filter he
  have hcalls := step_calls h
  rw [hissued, hsent]
  revert hmem hcalls
  generalize es.filter Event.isCall = cs
  intro hmem hcalls
  cases hcalls with
  | none hframe => exact ⟨rfl, .inl (by simp [Input.sent?, hframe])⟩
  | send hframe =>
    exact ⟨by simp [hs, Event.issuedBytes, Event.sent, Sent.bytes],
      .inl (by simp [Input.sent?, hframe, Event.sent])⟩
  | pong =>
    exact ⟨by simp [hs, Event.issuedBytes, Event.sent, Sent.bytes],
      .inr ⟨rfl, rfl, _, _, _, rfl, hmem _ List.mem_cons_self⟩⟩
  | close _ hrank => simp [ht] at hrank

/-! ### One side -/

namespace Session

variable {s t : Session} {i : Input} {es : List Event} {tr : List (Input × List Event)}

/-- What was received is a part of a stream of frames, of which those that were processed are the
first. -/
theorem Received.split (hs : Received es fs s)
    (hpeer : es.flatMap Event.receivedBytes <+: frames.flatMap (Sent.bytes useMask))
    (hplain : ∀ f ∈ frames, f.Plain) :
    ∃ ys zs, frames = ys ++ zs ∧ fs = ys.map Sent.frame ∧
      s.pending <+: zs.flatMap (Sent.bytes useMask) :=
  hs.reads.of_prefix_flatMap hpeer fun f hf => (hplain f hf).encodes useMask

/-- The payload of an answer is that of a frame that was processed. -/
theorem Received.payload_of_pong (hs : Received es fs s) {state : ReadyState} {d : Bytes}
    {key : MaskingKey} (hmem : .sendData state .pong d key ∈ es) : ∃ f ∈ fs, f.payload = d := by
  have hout : .pong d ∈ es.flatMap Event.outputs :=
    List.mem_flatMap.mpr ⟨_, hmem, List.mem_singleton_self _⟩
  rw [hs.outputs_eq] at hout
  exact pong_mem_interpret hout

/-- An answer is not longer than the frames of the stream. -/
theorem Received.length_pong_lt (hs : Received es fs s)
    (hpeer : es.flatMap Event.receivedBytes <+: frames.flatMap (Sent.bytes useMask))
    (hplain : ∀ f ∈ frames, f.Plain) {state : ReadyState} {d : Bytes} {key : MaskingKey}
    (hmem : .sendData state .pong d key ∈ es) : d.length < 2 ^ 29 := by
  obtain ⟨f, hf, rfl⟩ := hs.payload_of_pong hmem
  obtain ⟨ys, zs, rfl, rfl, -⟩ := hs.split hpeer hplain
  obtain ⟨g, hg, rfl⟩ := List.mem_map.mp hf
  exact (hplain g (List.mem_append_left _ hg)).length_lt

/-- No frame of the stream makes the connection close. -/
theorem Parsing.opened (hs : Parsing es fs s)
    (hpeer : es.flatMap Event.receivedBytes <+: frames.flatMap (Sent.bytes useMask))
    (hplain : ∀ f ∈ frames, f.Plain) : s.impl.mReadyState = .opened := by
  refine hs.state.resolve_right fun hstop => ?_
  obtain ⟨-, hnone, f, u, hp, hstop⟩ := hstop
  obtain ⟨ys, zs, rfl, -, hr⟩ := hs.received.split hpeer hplain
  rw [pending_of_none hnone] at hr
  have hzs (g : Sent) (hg : g ∈ zs) : g.Plain := hplain g (List.mem_append_right _ hg)
  obtain ⟨g, hg, rfl⟩ := Decoder.parse_of_prefix_flatMap (D := frameDecoder) hp hr
    fun g hg => (hzs g hg).encodes useMask
  have hnot : g.frame.opcode.isStop = false := (hzs g hg).not_stop
  rw [hnot] at hstop
  cases hstop

/-- A frame of a bounded stream that is processed fits in the buffer. -/
theorem Received.frontFits (hs : Received es fs s) (hnone : s.delivery = none)
    (hbelow : FramesBelow 4294967296 (es.flatMap Event.receivedBytes)) : s.impl.FrontFits := by
  intro hsize hframe
  have hover := hs.not_overflows hnone hbelow
  have hle := hs.receive_wf.getSize_le
  rw [WsHeader.frameSize_eq] at hframe
  by_contra hN
  by_cases hlt : (headerOf s.impl.mReceiveBuffer.byteAt).headerSize +
      (headerOf s.impl.mReceiveBuffer.byteAt).N < 4294967296
  · rw [Nat.mod_eq_of_lt hlt] at hframe
    omega
  · exact hover ⟨hsize, Nat.le_of_not_lt hlt, hframe⟩

theorem Parsing.frontFits {key : MaskingKey} (hs : Parsing es fs s)
    (hbelow : FramesBelow 4294967296 (es.flatMap Event.receivedBytes)) {es' : List Event}
    (h : s.step (.dispatch key) = some (t, es')) : s.impl.FrontFits :=
  hs.received.frontFits (hs.delivery_eq_none h) hbelow

/-- Both buffers of the `OPEN` connection are empty, and it is not in a call. -/
structure Idle (s : Session) : Prop extends OpenEmpty s where
  transmit_wf : s.impl.mTransmitBuffer.WF
  transmit_nil : s.impl.mTransmitBuffer.getData = []

/-- Besides that nothing fails and nothing is refused, payloads are below `2 ^ 29` bytes and texts
have no NUL. -/
def Chatting (s : Session) (i : Input) (es : List Event) : Prop :=
  Healthy s i es ∧ i.payload.length < 2 ^ 29 ∧ i.NulFree

instance (s : Session) (i : Input) (es : List Event) : Decidable (Chatting s i es) :=
  inferInstanceAs (Decidable (_ ∧ _ ∧ _))

/-- What a side has made of a run: what it has given to the socket and what it keeps to be
transmitted are the frames that it sent, in which are the messages of its application, and what it
has received has been processed as the reference parse does. -/
structure Chats (useMask : Bool) (tr : List (Input × List Event)) (s : Session) : Prop where
  consistent : s.Consistent
  wf : s.impl.mTransmitBuffer.WF
  mask : s.impl.mUseMask = useMask
  given : (Machine.events tr).flatMap Event.givenBytes ++ s.impl.mTransmitBuffer.getData =
    (sentFrames (Machine.events tr)).flatMap (Sent.bytes useMask)
  messages : (sentFrames (Machine.events tr)).filterMap Sent.message? = sentMessages tr
  plain : ∀ f ∈ sentFrames (Machine.events tr), f.Plain
  taken : (Machine.events tr).flatMap Event.takenBytes =
    (Machine.events tr).flatMap Event.receivedBytes
  parsing : ∃ fs, Parsing (Machine.events tr) fs s

theorem Idle.chats (hs : Idle s) : Chats s.impl.mUseMask [] s where
  consistent := ⟨fun _ h => by simp [hs.stack] at h, by simp [hs.stack], by simp [hs.stack]⟩
  wf := hs.transmit_wf
  mask := rfl
  given := hs.transmit_nil
  messages := rfl
  plain := by simp [sentFrames]
  taken := rfl
  parsing := ⟨[], hs.toOpenEmpty.parsing⟩

/-- Past the handshake all bytes belong to frames. -/
theorem step_bytes_of_opened (hs : s.Consistent) (hopen : s.impl.mReadyState = .opened)
    (h : s.step i = some (t, es)) :
    es.flatMap Event.takenBytes = es.flatMap Event.receivedBytes ∧
      es.flatMap Event.givenBytes = es.flatMap Event.acceptedBytes := by
  have hno := step_isHandshake h fun rest hstack => by
    have := hs.connecting rest hstack
    simp [hopen] at this
  refine ⟨List.flatMap_congr fun e he => ?_, flatMap_givenBytes_of_sends ?_⟩
  · have := hno e he
    cases e <;> first | rfl | cases this
  · refine List.flatMap_eq_nil_iff.mpr fun e he => ?_
    have := hno e he
    cases e <;> first | rfl | cases this

/-- One step of a side that receives a part of a stream of frames. -/
theorem step_chats {m : Bool} (hs : Chats useMask tr s) (h : s.step i = some (t, es))
    (hguard : Chatting s i es) (hplain : ∀ f ∈ frames, f.Plain)
    (hpeer : (Machine.events tr ++ es).flatMap Event.takenBytes <+:
      frames.flatMap (Sent.bytes m)) : Chats useMask (tr ++ [(i, es)]) t := by
  obtain ⟨hhealthy, hlen, hnul⟩ := hguard
  obtain ⟨fs, hfs⟩ := hs.parsing
  rw [List.flatMap_append, hs.taken] at hpeer
  have hpeer₀ := (List.prefix_append _ _).trans hpeer
  have hopen := hfs.opened hpeer₀ hplain
  obtain ⟨htaken, hgiven⟩ := step_bytes_of_opened hs.consistent hopen h
  rw [htaken, ← List.flatMap_append] at hpeer
  have hbelow := framesBelow_of_prefix hpeer₀ hplain
  obtain ⟨gs, hgs⟩ := step_parsing hfs h hhealthy hbelow
  have hopen' := hgs.opened hpeer hplain
  -- what it sends
  obtain ⟨htr, hqueued, -⟩ := step_sends hs.wf hs.consistent h hlen fun key hi => by
    subst hi
    exact hfs.frontFits hbelow h
  obtain ⟨hissued, hsent⟩ := step_sentFrames h hopen hopen' useMask
  have hrefused (e : Event) (he : e ∈ es) : e.isTransmitRefusal = false :=
    Event.isTransmitRefusal_of_isRefusal (hhealthy.1 e he)
  have hframes : es.flatMap Event.acceptedBytes ++ t.impl.mTransmitBuffer.getData =
      s.impl.mTransmitBuffer.getData ++ (sentFrames es).flatMap (Sent.bytes useMask) := by
    rw [htr.bytes fun e he => Event.isTransmitRefusal_of_isMaskedRefusal (hrefused e he),
      hqueued hrefused, hs.mask, hissued]
  have hmessages : (sentFrames es).filterMap Sent.message? = i.message?.toList := by
    rcases hsent with hsent | ⟨-, hnone, _, _, _, hsent, -⟩
    · rw [hsent, Input.filterMap_sent? hnul]
    · rw [hsent, hnone]
      rfl
  have hplain' (f : Sent) (hf : f ∈ sentFrames es) : f.Plain := by
    rcases hsent with hsent | ⟨-, -, state, d, key, hsent, hmem⟩
    · rw [hsent, Option.mem_toList] at hf
      exact Input.plain_sent? hf hlen
    · rw [hsent, List.mem_singleton] at hf
      have := hgs.received.length_pong_lt hpeer hplain (List.mem_append_right _ hmem)
      exact hf ▸ ⟨by simp, this⟩
  refine ⟨step_consistent hs.consistent h, htr.wf, htr.useMask.trans hs.mask, ?_, ?_, ?_, ?_, ?_⟩
  all_goals simp only [Machine.events_append, Machine.events_cons, Machine.events_nil,
    List.append_nil, sentFrames_append]
  · rw [List.flatMap_append, List.flatMap_append, hgiven, List.append_assoc, hframes,
      ← List.append_assoc, hs.given]
  · rw [List.filterMap_append, hs.messages, hmessages, sentMessages, sentMessages,
      List.filterMap_append]
    cases hi : i.message? <;> simp [hi]
  · exact fun f hf => (List.mem_append.mp hf).elim (hs.plain f) (hplain' f)
  · rw [List.flatMap_append, List.flatMap_append, hs.taken, htaken]
  · exact ⟨_, hgs⟩

/-- What has been delivered are the first messages of the stream. -/
theorem Chats.delivered_prefix {m : Bool} (hs : Chats useMask tr s) (hplain : ∀ f ∈ frames, f.Plain)
    (hpeer : (Machine.events tr).flatMap Event.takenBytes <+: frames.flatMap (Sent.bytes m)) :
    delivered (Machine.events tr) <+: frames.filterMap Sent.message? := by
  obtain ⟨fs, hfs⟩ := hs.parsing
  rw [hs.taken] at hpeer
  obtain ⟨ys, zs, rfl, rfl, -⟩ := hfs.received.split hpeer hplain
  have hmessages := messagesOf_map_frame fun f hf => hplain f (List.mem_append_left zs hf)
  rw [delivered, hfs.received.outputs_eq, List.filterMap_append, ← hmessages]
  exact List.prefix_append _ _

/-- Outside of `poll`, all messages of a stream that was received to its end have been delivered. -/
theorem Chats.delivered_eq {m : Bool} (hs : Chats useMask tr s) (hplain : ∀ f ∈ frames, f.Plain)
    (hpeer : (Machine.events tr).flatMap Event.takenBytes = frames.flatMap (Sent.bytes m))
    (hnil : s.stack = []) : delivered (Machine.events tr) = frames.filterMap Sent.message? := by
  obtain ⟨fs, hfs⟩ := hs.parsing
  rw [hs.taken] at hpeer
  have hnone : s.delivery = none := by rw [delivery, hnil]; rfl
  have hreads := hfs.received.reads
  rw [hpeer, pending_of_none hnone] at hreads
  obtain ⟨ys, zs, rfl, rfl, hrest⟩ := hreads.of_flatMap fun f hf => (hplain f hf).encodes m
  have hsettled := hfs.settled hnil
  rw [hrest] at hsettled
  cases zs with
  | nil =>
    rw [List.append_nil] at hplain ⊢
    rw [delivered, hfs.received.outputs_eq, ← messagesOf_map_frame hplain]
    rfl
  | cons f zs =>
    have hf : f.Plain := hplain f (by simp)
    have hstop : f.frame.opcode.isStop = true := hsettled _ _ (hf.encodes m _)
    cases hf.not_stop.symm.trans hstop

/-! ### Two sides -/

section Link

variable {l₀ l : Link Session UInt8} {tr : List ((Side × Input) × List Event)}

/-- The invariant of both sides. -/
theorem run_chats (hidle : ∀ side, Idle (l₀.party side)) (hwire : ∀ side, l₀.wire side = [])
    (h : connectionLink.Run (Machine.linkGuard fun _ => Chatting) l₀ tr l) (side : Side) :
    Chats (l₀.party side).impl.mUseMask (Machine.trace side tr) (l.party side) := by
  induction h generalizing side with
  | nil => exact (hidle side).chats
  | @snoc tr t p es u hrun hstep hguard ih =>
    obtain ⟨v, rest, hv, htaken, rfl⟩ := Machine.link_cases hstep
    obtain ⟨side', i⟩ := p
    obtain rfl | rfl := side'.eq_or_eq_other side
    · -- what it takes is the front of what the other side has sent
      have hpeer := ih side.other
      have hconserves := hrun.conserves side
      rw [hwire, List.nil_append, htaken, ← List.append_assoc, ← List.flatMap_append] at hconserves
      have hfront : (Machine.events (Machine.trace side tr) ++ es).flatMap Event.takenBytes <+:
          (sentFrames (Machine.events (Machine.trace side.other tr))).flatMap
            (Sent.bytes (l₀.party side.other).impl.mUseMask) := by
        rw [← hpeer.given, ← hconserves, List.append_assoc]
        exact List.prefix_append _ _
      simpa using step_chats (ih side) hv hguard hpeer.plain hfront
    · simpa using ih side'.other

/-- End-to-end delivery. Whatever two connections send to each other and however the stream is cut
and the two are interleaved, the messages that the callback of a side has got are at any time the
first of those that the application of the other side has sent, with the same bytes and the same
type, and they are all of them when the transmit buffer of the other side and the stream are empty
and `poll` has returned. -/
theorem end_to_end (hidle : ∀ side, Idle (l₀.party side)) (hwire : ∀ side, l₀.wire side = [])
    (h : connectionLink.Run (Machine.linkGuard fun _ => Chatting) l₀ tr l) (side : Side) :
    delivered (Machine.events (Machine.trace side tr)) <+:
        sentMessages (Machine.trace side.other tr) ∧
      ((l.party side.other).impl.mTransmitBuffer.getSize = 0 → l.wire side = [] →
        (l.party side).stack = [] →
          delivered (Machine.events (Machine.trace side tr)) =
            sentMessages (Machine.trace side.other tr)) := by
  have hs := run_chats hidle hwire h side
  have hpeer := run_chats hidle hwire h side.other
  -- the frames that the other side has sent: taken, on the way, and not yet transmitted
  have hstream : (Machine.events (Machine.trace side tr)).flatMap Event.takenBytes ++
      (l.wire side ++ (l.party side.other).impl.mTransmitBuffer.getData) =
        (sentFrames (Machine.events (Machine.trace side.other tr))).flatMap
          (Sent.bytes (l₀.party side.other).impl.mUseMask) := by
    rw [← hpeer.given, ← List.append_assoc, h.conserves side, hwire, List.nil_append]
  rw [← hpeer.messages]
  refine ⟨hs.delivered_prefix hpeer.plain ⟨_, hstream⟩, fun hbuffer hempty hnil => ?_⟩
  rw [hempty, SimpleBuffer.getSize_eq_zero_iff.mp hbuffer, List.append_nil, List.append_nil]
    at hstream
  exact hs.delivered_eq hpeer.plain hstream hnil

end Link

theorem idle_openServer : Idle openServer where
  toOpenEmpty := openEmpty_openServer
  transmit_wf := (run_sender (.server zeroPlatform true true)
    (run_openServer.mono fun _ _ _ => NoTransmitRefusal.noMaskedRefusal)).wf
  transmit_nil := by decide +kernel

/-- A text and a `PING` go one way in pieces, a binary message and the `PONG` the other. -/
theorem end_to_end_exchange :
    ∃ tr l, connectionLink.Run (Machine.linkGuard fun _ => Chatting)
        ⟨openServer, openServer, [], []⟩ tr l ∧
      delivered (Machine.events (Machine.trace .right tr)) = [([0x41], true)] ∧
      delivered (Machine.events (Machine.trace .right tr)) =
        sentMessages (Machine.trace .left tr) ∧
      delivered (Machine.events (Machine.trace .left tr)) = [([1, 2], false)] ∧
      delivered (Machine.events (Machine.trace .left tr)) =
        sentMessages (Machine.trace .right tr) := by
  obtain ⟨tr, l, hrun, hP⟩ := Machine.exists_run_of_exec (M := connectionLink)
    (G := Machine.linkGuard fun _ => Chatting) (s := ⟨openServer, openServer, [], []⟩)
    (l := [.sendText (some (ascii "A")) 0, .sendPing 0, .poll true 0, .receive .wouldBlock,
          .send (.accepted 4), .send (.accepted 9), .send .wouldBlock, .dispatch 0].map
        (Prod.mk Side.left) ++
      [.sendBinary (some [1, 2]) 0, .poll true 0, .receive (.data [0x81, 0x81, 0]),
          .receive (.data [0, 0, 0, 0x41, 0x89, 0x80, 0, 0, 0, 0]), .receive .wouldBlock,
          .send .wouldBlock, .dispatch 0, .ret, .dispatch 0, .dispatch 0, .poll true 0,
          .receive .wouldBlock, .send (.accepted 14), .send .wouldBlock, .dispatch 0].map
        (Prod.mk Side.right) ++
      (pollInputs [0x82, 0x82, 0, 0, 0, 0, 1, 2, 0x8a, 0x80, 0, 0, 0, 0]
        [.dispatch 0, .ret, .dispatch 0, .dispatch 0]).map (Prod.mk Side.left))
    (P := fun r => decide (∀ side, (r.1.party side).stack = [] ∧ r.1.wire side = [] ∧
        (r.1.party side).impl.mTransmitBuffer.getSize = 0) && decide
      (sentMessages (Machine.trace .left r.2) = [([0x41], true)] ∧
        sentMessages (Machine.trace .right r.2) = [([1, 2], false)])) (by decide +kernel)
  obtain ⟨hdone, hsent⟩ := Bool.and_eq_true_iff.mp hP
  have hall (side : Side) := (end_to_end (fun side => by cases side <;> exact idle_openServer)
    (fun side => by cases side <;> rfl) hrun side).2 (of_decide_eq_true hdone side.other).2.2
      (of_decide_eq_true hdone side).2.1 (of_decide_eq_true hdone side).1
  obtain ⟨hleft, hright⟩ := of_decide_eq_true hsent
  exact ⟨tr, l, hrun, (hall .right).trans hleft, hall .right, (hall .left).trans hright,
    hall .left⟩

end Session

end WsClient
