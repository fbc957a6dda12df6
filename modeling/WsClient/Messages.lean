import WsClient.FullBuffer

/-!
# Delivered messages

What `receiveMessage` is given over a whole run, against the frames that were received: no message
is truncated as long as every fragment is stored, a message has the right type unless it is a
fragmented text, and no message is lost at the end of the stream unless it is still in the receive
buffer there.

## Main definitions

* `Session.FragmentsStored`: the conditions under which the run follows the reference parse.
* `Output.message?`, `MessageFrames`: delivered messages, and the frames of one message.

## Main results

* `Session.whole_messages`: delivered payloads are whole.
* `Session.message_type`: the type of a delivered message.
* `Session.end_of_stream`: what is delivered when the stream has ended.
-/

namespace WsClient

namespace WebSocketImpl

variable {w : WebSocketImpl} {ws : WsHeader} {key : MaskingKey}

/-- If the frame at the front is a fragment, its payload fits in the accumulated data. -/
def FragmentFits (w : WebSocketImpl) : Prop :=
  let ws := headerOf w.mReceiveBuffer.byteAt
  ws.headerSize + ws.N ≤ w.mReceiveBuffer.getSize → ws.opcode.isData = true →
    (ws.fin = false ∨ w.mReceivedData.getSize ≠ 0) → w.mReceivedData.Accepts ws.N

instance : Decidable w.FragmentFits := inferInstanceAs (Decidable (_ → _ → _ → _))

/-- Queuing a frame is nothing to the accumulated data. -/
theorem refused_fragment_notMem_sendData (w : WebSocketImpl) (type : Opcode)
    (data : Option Bytes) (m : ℕ) (key : MaskingKey) (n : ℕ) :
    .refused .fragment n ∉ (w.sendData type data m key).2 := by
  intro h
  unfold sendData at h
  split_ifs at h
  · simp at h
  · cases data <;> simp only [queuePayload, addTransmit] at h <;> grind

theorem refused_fragment_notMem_close (w : WebSocketImpl) (n : ℕ) :
    .refused .fragment n ∉ w.close.2 := by
  intro h
  unfold close at h
  split_ifs at h
  · simp at h
  · simp only [addTransmit] at h
    grind

theorem dispatchData_stores (hdata : w.mReceivedData.WF) (hN : u32 ws.N ≤ 2 ^ 29)
    (hfits : ws.fin = false ∨ w.mReceivedData.getSize ≠ 0 → w.mReceivedData.Accepts (u32 ws.N))
    (n : ℕ) : .refused .fragment n ∉ (w.dispatchData ws).2.2 := by
  have hsame := (unmaskPayload_received w ws).1
  have hstored (h : ws.fin = false ∨ w.mReceivedData.getSize ≠ 0) :
      .refused .fragment n ∉ ((w.unmaskPayload ws).1.appendFragment ws).2 := by
    have hlen : ((w.unmaskPayload ws).1.payload ws).length = u32 ws.N := by
      simp [payload, SimpleBuffer.slice]
    have hok := (SimpleBuffer.addBuffer_of_noWrap hdata (by omega) (hdata.noWrap hN) hlen).2.2.2.1
    rw [decide_eq_true (hfits h)] at hok
    simp [appendFragment, hsame, hok]
  obtain ⟨es, hes, hstep⟩ := dispatchData_step w ws
  rw [hes]
  intro h
  rcases List.mem_append.mp h with h | h
  · cases mem_unmaskPayload_events h
  · generalize w.dispatchData ws = r at hstep
    obtain ⟨w', flow, es'⟩ := r
    cases hstep with
    | direct => simp at h
    | last hfin hsize hmore => exact hstored (.inr (hsame ▸ hmore)) (by simpa using h)
    | nothing hfin hsize hmore => exact hstored (.inr (hsame ▸ hmore)) (by simpa using h)
    | fragment hfin => exact hstored (.inl hfin) (by simpa using h)

/-- No fragment is refused if the one at the front fits. -/
theorem dispatchIteration_stores (hwf : w.mReceiveBuffer.WF) (hdata : w.mReceivedData.WF)
    (hover : ¬w.Overflows) (hfits : w.FragmentFits) (key : MaskingKey) (n : ℕ) :
    .refused .fragment n ∉ (w.dispatchIteration key).2.2 := by
  have hle := hwf.getSize_le
  obtain ⟨reads, -, ⟨es, hes, heq, -⟩ | ⟨ws, hws, hsize, hframe, heq⟩⟩ :=
    dispatchIteration_cases w key
  · rw [heq]
    intro h
    rcases List.mem_append.mp h with h | h
    · simp at h
    · obtain ⟨_, _, h⟩ := hes _ h
      cases h
  · have hlt : ws.headerSize + ws.N < 4294967296 := by
      by_contra hge
      exact hover ⟨hws ▸ hsize, by rw [← hws]; omega, by rwa [← hws, ← WsHeader.frameSize_eq]⟩
    have hu : u32 ws.N = ws.N := u32_of_lt (by omega)
    rw [WsHeader.frameSize_of_lt hlt] at hframe
    unfold FragmentFits at hfits
    rw [← hws] at hfits
    rw [heq]
    intro h
    rcases List.mem_append.mp h with h | h
    · simp at h
    rcases List.mem_cons.mp h with h | h
    · cases h
    cases hstop : ws.opcode.isStop with
    | true =>
      rw [dispatchFrame_of_isStop hstop] at h
      exact refused_fragment_notMem_close w n h
    | false =>
      cases hdataop : ws.opcode.isData with
      | true =>
        rw [dispatchFrame_of_isData hdataop] at h
        exact dispatchData_stores hdata (by omega) (by rw [hu]; exact hfits hframe hdataop) n h
      | false =>
        have hcases : ws.opcode = .ping ∨ ws.opcode = .pong := by
          cases hop : ws.opcode <;> simp [hop, Opcode.isData, Opcode.isStop] at hdataop hstop ⊢
        rcases hcases with hping | hpong
        · simp only [dispatchFrame, hping, dispatchPing, consumeFrame, List.mem_append,
            List.mem_singleton, reduceCtorEq, or_false] at h
          rcases h with (h | h) | h
          · cases mem_unmaskPayload_events h
          · split_ifs at h <;> simp at h
          · exact refused_fragment_notMem_sendData _ _ _ _ _ n h
        · simp [dispatchFrame, hpong, consumeFrame] at h

/-- A fragment for which there is no room is consumed like any other. -/
theorem dispatchData_of_refused (hdata : w.mReceivedData.WF) (hN : u32 ws.N ≤ 2 ^ 29)
    (hfin : ws.fin = false) (hno : ¬w.mReceivedData.Accepts (u32 ws.N)) :
    (w.dispatchData ws).2.1 = .again ∧
      (w.dispatchData ws).1.mReceivedData = w.mReceivedData ∧
      (w.dispatchData ws).2.2.flatMap Event.receivedBytes = [] ∧
      (w.dispatchData ws).2.2.flatMap Event.outputs = [] := by
  obtain ⟨hsame, hbytes, houts⟩ := unmaskPayload_received w ws
  obtain ⟨hbytes', houts'⟩ := appendFragment_received (w.unmaskPayload ws).1 ws
  have hlen : ((w.unmaskPayload ws).1.payload ws).length = u32 ws.N := by
    simp [payload, SimpleBuffer.slice]
  have hflag := (SimpleBuffer.addBuffer_of_noWrap hdata (by omega) (hdata.noWrap hN) hlen).2.2.2.1
  have hkeep := (SimpleBuffer.addBuffer_spec hdata hN hlen).2.2.2
    (hflag.trans (decide_eq_false hno))
  obtain ⟨es, hes, hstep⟩ := dispatchData_step w ws
  rw [hes]
  generalize w.dispatchData ws = r at hstep ⊢
  obtain ⟨w', flow, es'⟩ := r
  cases hstep with
  | direct h => simp [hfin] at h
  | last h => simp [hfin] at h
  | nothing h => simp [hfin] at h
  | fragment =>
    refine ⟨rfl, ?_, ?_, ?_⟩
    · change ((w.unmaskPayload ws).1.mReceivedData.addBuffer _ _).1 = _
      rw [hsame]
      exact hkeep
    · simp [hbytes, hbytes', Event.receivedBytes]
    · simp [houts, houts', Event.outputs]

end WebSocketImpl

namespace Session

variable {s t u : Session} {tr : List (Input × List Event)}

/-! ### Whole messages -/

/-- A `poll` that calls back is not called from the callback, and the frame loop does not come to a
frame whose size it truncates to 32 bits. -/
def Undisturbed (s : Session) (i : Input) (_ : List Event) : Prop :=
  match i with
  | .poll true _ => s.stack = []
  | .dispatch _ => ¬s.impl.Overflows
  | _ => True

instance (s : Session) (i : Input) (es : List Event) : Decidable (Undisturbed s i es) := by
  unfold Undisturbed
  split <;> infer_instance

/-- Besides, the frame loop comes to no fragment for which there is no room. -/
def FragmentsStored (s : Session) (i : Input) (es : List Event) : Prop :=
  Undisturbed s i es ∧ (i.isDispatch = true → s.impl.FragmentFits)

instance (s : Session) (i : Input) (es : List Event) : Decidable (FragmentsStored s i es) :=
  inferInstanceAs (Decidable (_ ∧ _))

/-- The buffers of a constructed object have received nothing. -/
theorem Constructed.received (hs : Constructed s) : Received [] [] s := by
  obtain ⟨heap, hreceive, -, hdata⟩ := hs.buffers
  obtain ⟨hwf, hnil⟩ := newBuffer_spec (heap 0)
  obtain ⟨hwf', hnil'⟩ := newBuffer_spec (heap 2)
  have hstack := hs.spec.1
  have hnone : s.delivery = none := by rw [delivery, hstack]; rfl
  refine ⟨hreceive ▸ hwf, hdata ▸ hwf', by simp [hstack], by simp [hnone], ?_, by simp, ?_, rfl⟩
  · rw [pending_of_none hnone, hreceive, hnil]
    exact .done []
  · rw [accumulated_of_none hnone, hdata, hnil']
    rfl

/-- One step, as long as the fragments are stored. -/
theorem step_fragmentsStored {es es' : List Event} {fs : List Frame} {i : Input}
    (hs : Received es fs s) (h : s.step i = some (t, es')) (hguard : FragmentsStored s i es') :
    ∃ gs, Received (es ++ es') (fs ++ gs) t := by
  refine step_received hs h (fun timeout hi => by subst hi; exact hguard.1) fun key hi => ?_
  subst hi
  refine ⟨hguard.1, fun n hn => ?_⟩
  cases step_cases h with
  | call _ hcall => cases hcall
  | dispatch =>
    exact WebSocketImpl.dispatchIteration_stores hs.receive_wf hs.data_wf hguard.1 (hguard.2 rfl)
      key n hn

theorem run_received (hs : Constructed s) (h : sessionMachine.Run FragmentsStored s tr t) :
    ∃ fs, Received (Machine.events tr) fs t := by
  refine h.invariant_events (P := fun es t => ∃ fs, Received es fs t) ⟨[], hs.received⟩ ?_
  rintro es t i es' u ⟨fs, ih⟩ hstep hguard
  obtain ⟨gs, hgs⟩ := step_fragmentsStored ih hstep hguard
  exact ⟨fs ++ gs, hgs⟩

/-- As long as the fragments are stored, what `receiveMessage` is given are the messages of frames
that were received, with the payloads of all their fragments. -/
theorem whole_messages (hs : Constructed s) (h : sessionMachine.Run FragmentsStored s tr t) :
    ∃ fs, fs <+: (frameDecoder.decode ((Machine.events tr).flatMap Event.receivedBytes)).1 ∧
      (Machine.events tr).flatMap Event.outputs = (interpret [] fs).2 := by
  obtain ⟨fs, hfs⟩ := run_received hs h
  refine ⟨fs, ?_, hfs.outputs_eq⟩
  rw [hfs.reads.decode_eq]
  exact List.prefix_append _ _

/-- The inputs of a poll in which the given bytes arrive, with so many steps of the frame loop. -/
def pollInputs (d : Bytes) (loop : List Input) : List Input :=
  [.poll true 0, .receive (.data d), .receive .wouldBlock, .send .wouldBlock] ++ loop

/-- A message of two fragments arrives at a server; the first byte has its opcode. -/
def fragmentsInputs (b : UInt8) : List Input :=
  handshakeInputs (ascii "GET / HTTP/1.1\r\n\r\n") ++
    pollInputs [b, 1, 0x41, 0x80, 1, 0x42] [.dispatch 0, .dispatch 0, .ret, .dispatch 0]

theorem whole_messages_server :
    ∃ tr t, sessionMachine.Run FragmentsStored (start (.ofSocket zeroPlatform true true)) tr t ∧
      (Machine.events tr).flatMap Event.outputs = [.message [0x41, 0x42] false] ∧
      ∃ fs, fs <+: (frameDecoder.decode ((Machine.events tr).flatMap Event.receivedBytes)).1 ∧
        (Machine.events tr).flatMap Event.outputs = (interpret [] fs).2 := by
  obtain ⟨tr, t, hrun, houts⟩ := Machine.exists_run_of_exec (M := sessionMachine)
    (G := FragmentsStored) (s := start (.ofSocket zeroPlatform true true))
    (l := fragmentsInputs 0x02)
    (P := fun r => decide ((Machine.events r.2).flatMap Event.outputs =
      [.message [0x41, 0x42] false])) (by decide +kernel)
  exact ⟨tr, t, hrun, of_decide_eq_true houts, whole_messages (.server _ _ _) hrun⟩

/-- The header of a fragment of 536838145 bytes, which a new buffer refuses. -/
def unstorableHeader : Bytes := [0x02, 0x7f, 0, 0, 0, 0, 0x1f, 0xff, 0x80, 0x01]

/-- A frame of one byte that completes a message. -/
def lastFrame : Bytes := [0x80, 1, 0x42]

theorem parseFrame_unstorable {d : Bytes} (hlen : d.length = 536838145) :
    parseFrame (unstorableHeader ++ (d ++ lastFrame)) =
      some (⟨false, .binaryFrame, d⟩, lastFrame) := by
  have htake : ([0, 0, 0, 0, 0x1f, 0xff, 0x80, 0x01] ++ (d ++ lastFrame)).take 8 =
      [0, 0, 0, 0, 0x1f, 0xff, 0x80, 0x01] := List.take_left' rfl
  have hdrop : ([0, 0, 0, 0, 0x1f, 0xff, 0x80, 0x01] ++ (d ++ lastFrame)).drop 8 =
      d ++ lastFrame := List.drop_left' rfl
  have hext : extendedBytes 127 = 8 := rfl
  have hN : payloadLength 127 ([0, 0, 0, 0, 0x1f, 0xff, 0x80, 0x01] ++ (d ++ lastFrame)) =
      536838145 := by
    rw [payloadLength, if_neg (by decide), hext, htake]
    decide
  change parseLength false .binaryFrame false 127
    ([0, 0, 0, 0, 0x1f, 0xff, 0x80, 0x01] ++ (d ++ lastFrame)) = _
  rw [parseLength, hN, hext, hdrop, if_neg (by simp), parsePayload, if_neg (by decide),
    if_neg (by simp [hlen]), List.take_left' hlen, List.drop_left' hlen]

/-- The first frame of the stream is consumed without being stored. -/
theorem dispatch_unstorable {w : WebSocketImpl} {d : Bytes} (hlen : d.length = 536838145)
    (hwf : w.mReceiveBuffer.WF)
    (hcontent : w.mReceiveBuffer.getData = unstorableHeader ++ (d ++ lastFrame))
    (hdata : w.mReceivedData.WF) (hno : ¬w.mReceivedData.Accepts 536838145) :
    ¬w.Overflows ∧ (w.dispatchIteration 0).2.1 = .again ∧
      (w.dispatchIteration 0).1.mReceiveBuffer.WF ∧
      (w.dispatchIteration 0).1.mReceiveBuffer.getData = lastFrame ∧
      (w.dispatchIteration 0).1.mReceivedData = w.mReceivedData ∧
      (w.dispatchIteration 0).2.2.flatMap Event.receivedBytes = [] ∧
      (w.dispatchIteration 0).2.2.flatMap Event.outputs = [] := by
  have hhead : headerOf w.mReceiveBuffer.byteAt = headerOf fun i => unstorableHeader.getD i 0 :=
    headerOf_of_getData (by decide) (by decide) hcontent
  have hsize : w.mReceiveBuffer.getSize = 536838158 := by
    rw [← SimpleBuffer.length_getData, hcontent]
    simp [hlen, unstorableHeader, lastFrame]
  have hfields : (headerOf fun i => unstorableHeader.getD i 0).headerSize = 10 ∧
      (headerOf fun i => unstorableHeader.getD i 0).N = 536838145 ∧
      (headerOf fun i => unstorableHeader.getD i 0).frameSize = 536838155 ∧
      (headerOf fun i => unstorableHeader.getD i 0).fin = false ∧
      (headerOf fun i => unstorableHeader.getD i 0).mask = false ∧
      (headerOf fun i => unstorableHeader.getD i 0).opcode = .binaryFrame := by decide
  obtain ⟨hhs, hN, hfs, hfin, hmask, hop⟩ := hfields
  have hover : ¬w.Overflows := by
    rw [WebSocketImpl.Overflows, hhead, hhs, hN]
    omega
  obtain ⟨reads, -, ⟨es, -, -, hshort⟩ | ⟨ws, hws, -, -, heq⟩⟩ :=
    WebSocketImpl.dispatchIteration_cases w 0
  · rw [hhead, hhs, hfs, hsize] at hshort
    omega
  · rw [hhead] at hws
    subst hws
    have hu : u32 536838145 = 536838145 := rfl
    have hdataop : (headerOf fun i => unstorableHeader.getD i 0).opcode.isData = true := by
      rw [hop]
      rfl
    obtain ⟨hwf', hflow⟩ := WebSocketImpl.dispatchFrame_content hwf (by rw [hhs]; omega)
      (by rw [hop]; rfl) 0
    obtain ⟨hagain, hsame, hbytes, houts⟩ := WebSocketImpl.dispatchData_of_refused hdata
      (by rw [hN]; decide) hfin (by rw [hN]; exact hno)
    rw [WebSocketImpl.dispatchFrame_of_isData hdataop] at heq hwf' hflow
    rw [heq]
    refine ⟨hover, hagain, hwf', ?_, hsame, ?_, ?_⟩
    · obtain ⟨-, hcontent'⟩ := hflow.resolve_right fun ⟨⟨clear, h⟩, _⟩ => by
        rw [hagain] at h
        cases h
      have hno : ¬((headerOf fun i => unstorableHeader.getD i 0).mask = true ∧
          (headerOf fun i => unstorableHeader.getD i 0).opcode ≠ .pong) := fun h => by
        rw [hmask] at h
        cases h.1
      rw [hcontent', unmaskContent, if_neg hno, hcontent, hfs, ← List.append_assoc,
        List.drop_left' (by simp [hlen, unstorableHeader])]
    · rw [List.flatMap_append, List.flatMap_cons, hbytes]
      simp [List.flatMap_eq_nil_iff, Event.receivedBytes]
    · rw [List.flatMap_append, List.flatMap_cons, houts]
      simp [List.flatMap_eq_nil_iff, Event.outputs]

/-- The second frame is delivered alone. -/
theorem dispatch_lastFrame {w : WebSocketImpl} (hwf : w.mReceiveBuffer.WF)
    (hcontent : w.mReceiveBuffer.getData = lastFrame) (hdata : w.mReceivedData.WF)
    (hempty : w.mReceivedData.getSize = 0) :
    ¬w.Overflows ∧ (w.dispatchIteration 0).2.2.flatMap Event.receivedBytes = [] ∧
      (w.dispatchIteration 0).2.2.flatMap Event.outputs = [.message [0x42] false] := by
  have hhead : headerOf w.mReceiveBuffer.byteAt = headerOf fun i => lastFrame.getD i 0 :=
    headerOf_of_getData (by decide) (by decide) (d := []) (by rw [hcontent, List.append_nil])
  have hover : ¬w.Overflows := by
    rw [WebSocketImpl.Overflows, hhead]
    exact fun h => absurd h.2.1 (by decide)
  have hfits : w.FragmentFits := by
    rw [WebSocketImpl.FragmentFits, hhead]
    exact fun _ _ h => absurd hempty (h.resolve_left (by decide))
  have hp : parseFrame w.mReceiveBuffer.getData =
      some (⟨true, .continuation, [0x42]⟩, []) := by
    rw [hcontent]
    decide
  cases WebSocketImpl.dispatchIteration_frames hwf hdata hover 0
    (WebSocketImpl.dispatchIteration_stores hwf hdata hover hfits 0) with
  | settled hs => cases hs _ _ hp
  | frame hp' _ _ _ hint =>
    obtain ⟨rfl, -⟩ := Prod.mk.inj (Option.some.inj (hp.symm.trans hp'))
    refine ⟨hover, hint.bytes, hint.outputs.trans ?_⟩
    rw [SimpleBuffer.getSize_eq_zero_iff.mp hempty]
    rfl

/-- A poll of an open connection that has received nothing, in which the whole stream arrives. -/
theorem truncating_run {w : WebSocketImpl} {d : Bytes} (hlen : d.length = 536838145)
    (hsock : w.mSocket = true) (hopen : w.mReadyState = .opened) (hb : Doubled w.mReceiveBuffer)
    (hempty : w.mReceiveBuffer.getSize = 0) (hwf : w.mReceivedData.WF)
    (hdata : w.mReceivedData.getSize = 0) (hno : ¬w.mReceivedData.Accepts 536838145) :
    ∃ tr t, sessionMachine.Run Undisturbed ⟨w, []⟩ tr t ∧
      (Machine.events tr).flatMap Event.receivedBytes = unstorableHeader ++ (d ++ lastFrame) ∧
      (Machine.events tr).flatMap Event.outputs = [.message [0x42] false] := by
  have hpoll : sessionMachine.step ⟨w, []⟩ (.poll true 0) = some (⟨w, [.receiving true]⟩, []) := by
    simp [step, enter, callable, WebSocketImpl.poll, hsock, hopen]
  obtain ⟨b, hfill, hb', hcontent⟩ := fill_run (G := Undisturbed) (fun _ _ => trivial) true []
    (unstorableHeader ++ (d ++ lastFrame)) hb
    (by simp [hempty, hlen, unstorableHeader, lastFrame, maxReadSize])
  rw [SimpleBuffer.getSize_eq_zero_iff.mp hempty, List.nil_append] at hcontent
  obtain ⟨b', es₁, hstep₁, hwf', hcontent', hbytes₁, houts₁⟩ := step_receive_wouldBlock
    (w := w.setReceive b) [] hb'.wf hopen
  obtain ⟨es₂, hstep₂, hes₂⟩ := step_send_wouldBlock
    (w := (w.setReceive b).setReceive b') [] hopen
  obtain ⟨hover, hagain, hwf'', hcontent'', hsame, hbytes₃, houts₃⟩ := dispatch_unstorable
    (w := (w.setReceive b).setReceive b') hlen hwf' (hcontent'.trans hcontent) hwf hno
  have hstep₃ : sessionMachine.step ⟨(w.setReceive b).setReceive b', [.dispatching]⟩
      (.dispatch 0) = some (⟨(((w.setReceive b).setReceive b').dispatchIteration 0).1,
        [.dispatching]⟩, (((w.setReceive b).setReceive b').dispatchIteration 0).2.2) := by
    simp [step, WebSocketImpl.resume, hagain, WebSocketImpl.Flow.next]
  generalize ((w.setReceive b).setReceive b').dispatchIteration 0 = r at *
  obtain ⟨hover', hbytes₄, houts₄⟩ := dispatch_lastFrame hwf'' hcontent'' (hsame ▸ hwf)
    (hsame ▸ hdata)
  have hstep₄ : sessionMachine.step ⟨r.1, [.dispatching]⟩ (.dispatch 0) =
      some (⟨(r.1.dispatchIteration 0).1, (r.1.dispatchIteration 0).2.1.next ++ []⟩,
        (r.1.dispatchIteration 0).2.2) := rfl
  have hes : es₂.flatMap Event.receivedBytes = [] ∧ es₂.flatMap Event.outputs = [] := by
    rcases hes₂ with rfl | rfl <;> exact ⟨rfl, rfl⟩
  obtain ⟨htrace, htrace'⟩ := receiveTrace_spec (unstorableHeader ++ (d ++ lastFrame))
  refine ⟨_, _, (((((Machine.Run.single (G := Undisturbed) hpoll rfl).trans hfill).snoc hstep₁
    trivial).snoc hstep₂ trivial).snoc hstep₃ hover).snoc hstep₄ hover', ?_, ?_⟩
  · simp only [Machine.events_append, Machine.events_cons, Machine.events_nil, List.flatMap_append,
      List.append_nil, List.nil_append, hbytes₁, hes.1, hbytes₃, hbytes₄, htrace]
  · simp only [Machine.events_append, Machine.events_cons, Machine.events_nil, List.flatMap_append,
      List.append_nil, List.nil_append, houts₁, hes.2, houts₃, houts₄, htrace']

/-- A fragment that is too large for the accumulated data is left out, and the message is delivered
without it. -/
theorem refused_fragment_truncates :
    ¬∀ (s t : Session) (tr : List (Input × List Event)), Constructed s →
      sessionMachine.Run Undisturbed s tr t →
        ∃ fs, fs <+: (frameDecoder.decode ((Machine.events tr).flatMap Event.receivedBytes)).1 ∧
          (Machine.events tr).flatMap Event.outputs = (interpret [] fs).2 := by
  intro h
  obtain ⟨d, hlen⟩ : ∃ d : Bytes, d.length = 536838145 := ⟨_, List.length_replicate (a := 0)⟩
  have hquiet : (Machine.events (serverHandshake.get serverHandshake_isSome).2).flatMap
      Event.receivedBytes = [] ∧ (Machine.events (serverHandshake.get
        serverHandshake_isSome).2).flatMap Event.outputs = [] := by decide +kernel
  have hstart := run_openServer_of (G := Undisturbed) (by decide +kernel)
  obtain ⟨_, hreceived⟩ := run_received (.server zeroPlatform true true)
    (run_openServer_of (G := FragmentsStored) (by decide +kernel))
  obtain ⟨tr, t, hrun, hbytes, houts⟩ := truncating_run (w := openServer.impl) hlen
    (by decide +kernel) (by decide +kernel) openServer_doubled (by decide +kernel)
    hreceived.data_wf (by decide +kernel) (by decide +kernel)
  rw [openServer_eq] at hstart
  obtain ⟨fs, hfs, heq⟩ := h _ _ _ (.server zeroPlatform true true) (hstart.trans hrun)
  rw [Machine.events_append, List.flatMap_append] at hfs heq
  rw [hquiet.1, hbytes, List.nil_append] at hfs
  rw [hquiet.2, houts, List.nil_append] at heq
  have hreads : frameDecoder.Reads (unstorableHeader ++ (d ++ lastFrame))
      [⟨false, .binaryFrame, d⟩, ⟨true, .continuation, [0x42]⟩] [] :=
    .frame (parseFrame_unstorable hlen) (.frame (by decide) (.done []))
  rw [hreads.decode_eq_of_none rfl] at hfs
  -- the message of these frames is longer than what was delivered
  rcases List.prefix_cons_iff.mp hfs with rfl | ⟨l, rfl, hl⟩
  · cases heq
  rcases List.prefix_cons_iff.mp hl with rfl | ⟨l', rfl, hl'⟩
  · cases heq
  obtain rfl := List.prefix_nil.mp hl'
  have hlength : (d ++ [0x42]).length = 1 := by
    have : [Output.message [0x42] false] = [.message (d ++ [0x42]) false] := heq
    simp only [List.cons.injEq, Output.message.injEq] at this
    rw [← this.1.1]
    rfl
  rw [List.length_append, hlen] at hlength
  omega

end Session

/-! ### The type of a message -/

/-- A delivered message. -/
def Output.message? : Output → Option (Bytes × Bool)
  | .message d isAscii => some (d, isAscii)
  | .pong _ => none

/-- The messages that frames amount to. -/
def messagesOf (acc : Bytes) (fs : List Frame) : List (Bytes × Bool) :=
  (interpret acc fs).2.filterMap Output.message?

/-- The messages that the callback got. -/
def delivered (es : List Event) : List (Bytes × Bool) :=
  (es.flatMap Event.outputs).filterMap Output.message?

/-- The frames of a message after its first frame: `CONTINUATION` frames of which only the last has
`FIN`, and `PING` and `PONG` frames between them. -/
inductive Continues : List Frame → Prop
  | last {f} (hop : f.opcode = .continuation) (hfin : f.fin = true) : Continues [f]
  | fragment {f fs} (hop : f.opcode = .continuation) (hfin : f.fin = false) (h : Continues fs) :
    Continues (f :: fs)
  | control {f fs} (hop : f.opcode = .ping ∨ f.opcode = .pong) (h : Continues fs) :
    Continues (f :: fs)

/-- The frames of one message of the given type. -/
inductive MessageFrames (type : Opcode) : List Frame → Prop
  | whole {f} (hop : f.opcode = type) (hfin : f.fin = true) : MessageFrames type [f]
  | fragmented {f fs} (hop : f.opcode = type) (hfin : f.fin = false) (h : Continues fs) :
    MessageFrames type (f :: fs)

/-- The fragments of a message put together. -/
def payloadOf (fs : List Frame) : Bytes :=
  (fs.filter fun f => f.opcode.isData).flatMap Frame.payload

variable {acc : Bytes} {fs gs ms : List Frame} {type : Opcode}

theorem messagesOf_append (acc : Bytes) (fs gs : List Frame) :
    messagesOf acc (fs ++ gs) = messagesOf acc fs ++ messagesOf (interpret acc fs).1 gs := by
  rw [messagesOf, interpret_append, List.filterMap_append]
  rfl

theorem messagesOf_cons (acc : Bytes) (f : Frame) (fs : List Frame) :
    messagesOf acc (f :: fs) = (f.interpret acc).2.filterMap Output.message? ++
      messagesOf (f.interpret acc).1 fs := by
  rw [messagesOf, interpret, List.filterMap_append]
  rfl

theorem Frame.interpret_of_control {f : Frame} (acc : Bytes)
    (h : f.opcode = .ping ∨ f.opcode = .pong) :
    (f.interpret acc).1 = acc ∧ (f.interpret acc).2.filterMap Output.message? = [] := by
  rcases h with h | h <;> simp [Frame.interpret, h, Opcode.isData, Output.message?]

/-- What is left of a message is delivered with the type of its last frame. -/
theorem Continues.messagesOf_eq (h : Continues fs) (acc : Bytes) :
    messagesOf acc fs = [(acc ++ payloadOf fs, false)] := by
  induction h generalizing acc with
  | last hop hfin =>
    simp [messagesOf, interpret, Frame.interpret, hop, hfin, Opcode.isData, Output.message?,
      payloadOf]
  | fragment hop hfin _ ih =>
    rw [messagesOf_cons, Frame.interpret_of_isData _ (by rw [hop]; rfl), if_neg (by simp [hfin]),
      ih]
    simp [payloadOf, hop, Opcode.isData]
  | control hop _ ih =>
    obtain ⟨hacc, hnone⟩ := Frame.interpret_of_control acc hop
    rw [messagesOf_cons, hacc, hnone, ih]
    rcases hop with hop | hop <;> simp [payloadOf, hop, Opcode.isData]

/-- A message is delivered as text only if it is a text and not fragmented. -/
theorem MessageFrames.messagesOf_eq (h : MessageFrames type ms)
    (htype : type = .textFrame ∨ type = .binaryFrame) :
    messagesOf [] ms = [(payloadOf ms, type == .textFrame && ms.length == 1)] := by
  have hdata : type.isData = true := by rcases htype with rfl | rfl <;> rfl
  cases h with
  | whole hop hfin =>
    simp [messagesOf, interpret, Frame.interpret, hop, hfin, hdata, Output.message?, payloadOf]
  | @fragmented f fs hop hfin h =>
    have hmore : fs ≠ [] := by rintro rfl; cases h
    rw [messagesOf_cons, Frame.interpret_of_isData _ (by rw [hop]; exact hdata),
      if_neg (by simp [hfin]), h.messagesOf_eq]
    simp [payloadOf, hop, hdata, hmore]

namespace Session

variable {s t u : Session} {tr : List (Input × List Event)}

/-- Of the messages of the received stream, one that is delivered has its payload, and its
`isAscii` flag tells whether it is a text if and only if it is binary or not fragmented. -/
theorem message_type {pre post : List Frame} {d : Bytes} {isAscii : Bool} (hs : Constructed s)
    (h : sessionMachine.Run FragmentsStored s tr t)
    (hstream : (frameDecoder.decode ((Machine.events tr).flatMap Event.receivedBytes)).1 =
      pre ++ (ms ++ post))
    (hpre : (interpret [] pre).1 = []) (htype : type = .textFrame ∨ type = .binaryFrame)
    (hms : MessageFrames type ms)
    (hdelivered : (delivered (Machine.events tr))[(messagesOf [] pre).length]? =
      some (d, isAscii)) :
    d = payloadOf ms ∧
      ((isAscii = true ↔ type = .textFrame) ↔ type = .binaryFrame ∨ ms.length = 1) := by
  obtain ⟨fs, hfs, houts⟩ := whole_messages hs h
  rw [hstream] at hfs
  have hprefix : delivered (Machine.events tr) <+: messagesOf [] (pre ++ (ms ++ post)) := by
    rw [delivered, houts]
    exact (interpret_mono hfs).filterMap _
  rw [messagesOf_append, hpre, messagesOf_append, hms.messagesOf_eq htype] at hprefix
  obtain ⟨l, hl⟩ := hprefix
  have hlt : (messagesOf [] pre).length < (delivered (Machine.events tr)).length :=
    (List.getElem?_eq_some_iff.mp hdelivered).1
  have hmessage := congrArg (·[(messagesOf [] pre).length]?) hl
  simp only [List.getElem?_append_left hlt, hdelivered, List.getElem?_append_right (le_refl _),
    Nat.sub_self, List.singleton_append, List.getElem?_cons_zero, Option.some.injEq,
    Prod.mk.injEq] at hmessage
  obtain ⟨rfl, rfl⟩ := hmessage
  refine ⟨rfl, ?_⟩
  rcases htype with rfl | rfl <;> simp

/-- A message of two fragments. -/
theorem messageFrames_fragments (type : Opcode) :
    MessageFrames type [⟨false, type, [0x41]⟩, ⟨true, .continuation, [0x42]⟩] :=
  .fragmented rfl rfl (.last rfl rfl)

theorem message_type_binary :
    ∃ tr t isAscii, sessionMachine.Run FragmentsStored
        (start (.ofSocket zeroPlatform true true)) tr t ∧
      (delivered (Machine.events tr))[0]? = some ([0x41, 0x42], isAscii) ∧
      (isAscii = true ↔ Opcode.binaryFrame = .textFrame) := by
  obtain ⟨tr, t, hrun, hP⟩ := Machine.exists_run_of_exec (M := sessionMachine)
    (G := FragmentsStored) (s := start (.ofSocket zeroPlatform true true))
    (l := fragmentsInputs 0x02)
    (P := fun r => decide ((Machine.events r.2).flatMap Event.receivedBytes =
        [0x02, 1, 0x41, 0x80, 1, 0x42] ∧
      delivered (Machine.events r.2) = [([0x41, 0x42], false)])) (by decide +kernel)
  obtain ⟨hbytes, hdelivered⟩ := of_decide_eq_true hP
  have hstream : (frameDecoder.decode ((Machine.events tr).flatMap Event.receivedBytes)).1 =
      [] ++ ([⟨false, .binaryFrame, [0x41]⟩, ⟨true, .continuation, [0x42]⟩] ++ []) := by
    rw [hbytes]
    decide +kernel
  have hfirst : (delivered (Machine.events tr))[0]? = some ([0x41, 0x42], false) := by
    rw [hdelivered]
    rfl
  exact ⟨tr, t, false, hrun, hfirst, (message_type (.server _ _ _) hrun hstream rfl (.inr rfl)
    (messageFrames_fragments .binaryFrame) hfirst).2.mpr (.inl rfl)⟩

/-- A text in two fragments is delivered as binary. -/
theorem fragmented_text_is_binary :
    ¬∀ (s t : Session) (tr : List (Input × List Event)) (type : Opcode) (pre ms post : List Frame)
        (d : Bytes) (isAscii : Bool), Constructed s → sessionMachine.Run FragmentsStored s tr t →
      (frameDecoder.decode ((Machine.events tr).flatMap Event.receivedBytes)).1 =
        pre ++ (ms ++ post) →
      (interpret [] pre).1 = [] → type = .textFrame ∨ type = .binaryFrame → MessageFrames type ms →
      (delivered (Machine.events tr))[(messagesOf [] pre).length]? = some (d, isAscii) →
        (isAscii = true ↔ type = .textFrame) := by
  intro h
  obtain ⟨tr, t, hrun, hP⟩ := Machine.exists_run_of_exec (M := sessionMachine)
    (G := FragmentsStored) (s := start (.ofSocket zeroPlatform true true))
    (l := fragmentsInputs 0x01)
    (P := fun r => decide ((Machine.events r.2).flatMap Event.receivedBytes =
        [0x01, 1, 0x41, 0x80, 1, 0x42] ∧
      delivered (Machine.events r.2) = [([0x41, 0x42], false)])) (by decide +kernel)
  obtain ⟨hbytes, hdelivered⟩ := of_decide_eq_true hP
  have hstream : (frameDecoder.decode ((Machine.events tr).flatMap Event.receivedBytes)).1 =
      [] ++ ([⟨false, .textFrame, [0x41]⟩, ⟨true, .continuation, [0x42]⟩] ++ []) := by
    rw [hbytes]
    decide +kernel
  have hfalse := h _ t tr _ [] _ [] [0x41, 0x42] false (.server _ _ _) hrun hstream rfl (.inl rfl)
    (messageFrames_fragments .textFrame) (by rw [hdelivered]; rfl)
  exact absurd (hfalse.mpr rfl) (by decide)

/-! ### The end of the stream -/

/-- Besides, every `poll` has a callback, and the object is not destroyed. -/
def Polled (s : Session) (i : Input) (es : List Event) : Prop :=
  FragmentsStored s i es ∧ i ≠ .destroy ∧ ∀ timeout, i ≠ .poll false timeout

instance (s : Session) (i : Input) (es : List Event) : Decidable (Polled s i es) := by
  unfold Polled
  have : Decidable (∀ timeout, i ≠ .poll false timeout) := by
    cases i with
    | poll callback timeout =>
      cases callback with
      | false => exact isFalse fun h => h timeout rfl
      | true => exact isTrue (by simp)
    | _ => exact isTrue (by simp)
  infer_instance

/-- At most one function, and not the destructor. -/
def Brief (next : List Activation) : Prop := next = [] ∨ ∃ a, next = [a] ∧ ∀ p, a ≠ .destroying p

theorem Brief.eq_nil {a : Activation} {rest : List Activation} (h : Brief (a :: rest)) :
    rest = [] ∧ ∀ p, a ≠ .destroying p := by
  obtain h | ⟨b, h, hb⟩ := h
  · cases h
  · obtain ⟨rfl, rfl⟩ := List.cons.inj h
    exact ⟨rfl, hb⟩

theorem brief_poll (w : WebSocketImpl) (callback : Bool) (timeout : ℤ) :
    Brief (w.poll callback timeout).1 := by
  unfold WebSocketImpl.poll
  split_ifs <;> simp [Brief]

theorem brief_receiveIteration (w : WebSocketImpl) (callback : Bool) (r : RecvResult) :
    Brief (w.receiveIteration callback r).2.1 := by
  have hleave (w : WebSocketImpl) : Brief (w.leaveReceive callback) := by
    unfold WebSocketImpl.leaveReceive
    split_ifs <;> simp [Brief]
  unfold WebSocketImpl.receiveIteration
  simp only
  split_ifs
  · cases r with
    | data d => simp [Brief]
    | wouldBlock => exact hleave _
    | endOfStream => exact .inl rfl
    | error => exact .inl rfl
  · exact hleave _

theorem brief_transmitIteration (w : WebSocketImpl) (callback : Bool) (r : SendResult) :
    Brief (w.transmitIteration callback r).2.1 := by
  have hleave : Brief (w.leaveTransmit callback).2.1 := by
    unfold WebSocketImpl.leaveTransmit WebSocketImpl.beginDispatch
    split_ifs <;> simp [Brief]
  unfold WebSocketImpl.transmitIteration
  split_ifs
  · exact hleave
  · cases r with
    | accepted n => simp [Brief]
    | wouldBlock => exact hleave
    | zero => exact .inl rfl
    | error => exact .inl rfl

theorem step_brief {i : Input} {es : List Event} (hs : Brief s.stack) (h : s.step i = some (t, es))
    (hguard : Polled s i es) : Brief t.stack := by
  have hrest {a : Activation} {rest : List Activation} (hstack : s.stack = a :: rest) :
      rest = [] := (Brief.eq_nil (hstack ▸ hs)).1
  cases step_cases h with
  | call => exact hs
  | poll callback timeout =>
    cases callback with
    | false => exact absurd rfl (hguard.2.2 timeout)
    | true =>
      have hnil : s.stack = [] := hguard.1.1
      rw [hnil, List.append_nil]
      exact brief_poll _ _ _
  | destroy => exact absurd rfl hguard.2.1
  | connect _ _ hstack => exact .inl (hrest hstack)
  | receive hstack =>
    rw [hrest hstack, List.append_nil]
    exact brief_receiveIteration _ _ _
  | transmit hstack =>
    rw [hrest hstack, List.append_nil]
    exact brief_transmitIteration _ _ _
  | dispatch key hstack =>
    rw [hrest hstack, List.append_nil]
    cases (s.impl.dispatchIteration key).2.1 <;> simp [WebSocketImpl.Flow.next, Brief]
  | ret hstack =>
    rw [hrest hstack]
    simp [Brief]
  | destroyLoop _ hstack => exact absurd rfl ((Brief.eq_nil (hstack ▸ hs)).2 _)

/-- The socket is closed, and no function is left that could use it. -/
def Finished (s : Session) : Prop :=
  s.impl.mReadyState = .closed ∧
    (s.stack = [] ∨ ∃ a, s.stack = [a] ∧ ((∃ p, a = .destroying p) ∨ a = .destroyed))

theorem poll_of_closed {w : WebSocketImpl} (h : w.mReadyState = .closed) (callback : Bool)
    (timeout : ℤ) : (w.poll callback timeout).1 = [] := by
  unfold WebSocketImpl.poll
  split_ifs <;> simp_all

theorem step_finished {i : Input} {es : List Event} (hs : Finished s)
    (h : s.step i = some (t, es)) :
    Finished t ∧ es.flatMap Event.receivedBytes = [] ∧ es.flatMap Event.outputs = [] := by
  obtain ⟨hclosed, hstack⟩ := hs
  have hkeep {w : WebSocketImpl} (hk : Keeps s.impl w) : w.mReadyState = .closed := by
    have hrank := hk.rank_le
    rw [hclosed] at hrank
    cases hw : w.mReadyState <;> simp_all
  have hhead {a : Activation} {rest : List Activation} (hs' : s.stack = a :: rest) :
      rest = [] ∧ ((∃ p, a = .destroying p) ∨ a = .destroyed) := by
    obtain hnil | ⟨b, hb, hcase⟩ := hstack
    · simp [hnil] at hs'
    · obtain ⟨rfl, rfl⟩ := List.cons.inj (hs'.symm.trans hb)
      exact ⟨rfl, hcase⟩
  cases step_cases h with
  | call _ hcall =>
    have hkr := call_keepsReceived hcall
    refine ⟨⟨?_, hstack⟩, hkr.bytes, hkr.outputs⟩
    obtain ⟨_, _, _, _, rfl⟩ | ⟨_, rfl⟩ := WebSocketImpl.call_cases hcall
    · exact hkeep (WebSocketImpl.sendData_keeps _ _ _ _ _)
    · exact hkeep (WebSocketImpl.close_keeps _)
  | poll callback timeout =>
    have hkr := poll_keepsReceived s.impl callback timeout
    rw [poll_of_closed hclosed]
    exact ⟨⟨hclosed, hstack⟩, hkr.bytes, hkr.outputs⟩
  | destroy =>
    have hkr := WebSocketImpl.close_keepsReceived s.impl
    exact ⟨⟨hkeep (WebSocketImpl.close_keeps _), .inr ⟨_, rfl, .inl ⟨_, rfl⟩⟩⟩, hkr.bytes,
      hkr.outputs⟩
  | destroyLoop _ hs' hnext hes =>
    obtain ⟨rfl, -⟩ := hhead hs'
    refine ⟨⟨hclosed, .inr ?_⟩, ?_⟩
    · rw [poll_of_closed hclosed] at hnext
      rcases hnext with rfl | rfl | rfl
      · exact ⟨_, rfl, .inr rfl⟩
      · exact ⟨_, rfl, .inl ⟨_, rfl⟩⟩
      · exact ⟨_, rfl, .inl ⟨_, rfl⟩⟩
    · rcases hes with rfl | rfl <;> exact ⟨rfl, rfl⟩
  | connect _ _ hs' => simpa using (hhead hs').2
  | receive hs' => simpa using (hhead hs').2
  | transmit hs' => simpa using (hhead hs').2
  | dispatch _ hs' => simpa using (hhead hs').2
  | ret hs' => simpa using (hhead hs').2

/-- The messages of frames are none if and only if no data frame has `FIN`. -/
theorem messagesOf_eq_nil_iff :
    messagesOf acc fs = [] ↔ ∀ f ∈ fs, f.opcode.isData = true → f.fin = false := by
  induction fs generalizing acc with
  | nil => simp [messagesOf, interpret]
  | cons f fs ih =>
    rw [messagesOf_cons, List.append_eq_nil_iff, ih, List.forall_mem_cons]
    refine and_congr_left fun _ => ?_
    unfold Frame.interpret
    split_ifs with hdata hfin hping <;> simp_all [Output.message?]

/-- When `receive` returns the end of the stream, all messages that were received by then have been
delivered, or are later, if and only if no complete message is left in the receive buffer. -/
theorem end_of_stream {G : Session → Input → List Event → Prop} {v : Session} {es : List Event}
    {tr' : List (Input × List Event)} (hs : Constructed s) (h : sessionMachine.Run Polled s tr t)
    (heof : t.step (.receive .endOfStream) = some (u, es))
    (hseen : .receiveFailed .endOfStream ∈ es) (hlater : sessionMachine.Run G u tr' v) :
    delivered (Machine.events tr ++ es ++ Machine.events tr') =
        messagesOf [] (frameDecoder.decode ((Machine.events tr ++ es ++
          Machine.events tr').flatMap Event.receivedBytes)).1 ↔
      ∀ f ∈ (frameDecoder.decode t.impl.mReceiveBuffer.getData).1,
        f.opcode.isData = true → f.fin = false := by
  obtain ⟨fs, hfs⟩ := run_received hs (h.mono fun _ _ _ hguard => hguard.1)
  have hbrief : Brief t.stack := h.invariant_state (P := fun s => Brief s.stack)
    (.inl hs.spec.1) fun _ _ _ _ => step_brief
  cases step_cases heof with
  | call _ hcall => cases hcall
  | @receive callback rest _ hstack =>
    obtain ⟨rfl, -⟩ := Brief.eq_nil (hstack ▸ hbrief)
    have hnone : t.delivery = none := by rw [delivery, hstack]; rfl
    -- the connection is closed, and nothing comes of what is left
    obtain ⟨hfinished, hbytes, houts⟩ : Finished
        ⟨(t.impl.receiveIteration callback .endOfStream).1,
          (t.impl.receiveIteration callback .endOfStream).2.1 ++ []⟩ ∧
        (t.impl.receiveIteration callback .endOfStream).2.2.flatMap Event.receivedBytes = [] ∧
        (t.impl.receiveIteration callback .endOfStream).2.2.flatMap Event.outputs = [] := by
      simp only [WebSocketImpl.receiveIteration] at hseen ⊢
      split_ifs at hseen ⊢
      · exact ⟨⟨rfl, .inl rfl⟩, rfl, rfl⟩
      · simp at hseen
    obtain ⟨-, hbytes', houts'⟩ := hlater.invariant_events
      (P := fun es s => Finished s ∧ es.flatMap Event.receivedBytes = [] ∧
        es.flatMap Event.outputs = []) ⟨hfinished, rfl, rfl⟩
      fun _ _ _ _ _ hprev hstep _ => by
        obtain ⟨hf, hb, ho⟩ := hprev
        obtain ⟨hf', hb', ho'⟩ := step_finished hf hstep
        exact ⟨hf', by rw [List.flatMap_append, hb, hb', List.append_nil],
          by rw [List.flatMap_append, ho, ho', List.append_nil]⟩
    have hreads := hfs.reads
    rw [pending_of_none hnone] at hreads
    rw [delivered]
    simp only [List.flatMap_append, hbytes, hbytes', houts, houts', List.append_nil]
    rw [hfs.outputs_eq, hreads.decode_eq, messagesOf_append, ← messagesOf_eq_nil_iff]
    exact List.self_eq_append_right

/-- The end of the stream is seen by the poll after the one that delivered the message. -/
theorem end_of_stream_server :
    ∃ tr t u es, sessionMachine.Run Polled (start (.ofSocket zeroPlatform true true)) tr t ∧
      t.step (.receive .endOfStream) = some (u, es) ∧
      delivered (Machine.events tr ++ es) = messagesOf []
        (frameDecoder.decode ((Machine.events tr ++ es).flatMap Event.receivedBytes)).1 := by
  obtain ⟨tr, t, hrun, hP⟩ := Machine.exists_run_of_exec (M := sessionMachine)
    (G := Polled) (s := start (.ofSocket zeroPlatform true true))
    (l := handshakeInputs (ascii "GET / HTTP/1.1\r\n\r\n") ++
      pollInputs [0x81, 1, 0x41] [.dispatch 0, .ret, .dispatch 0] ++ [.poll true 0])
    (P := fun r => decide ((frameDecoder.decode r.1.impl.mReceiveBuffer.getData).1 = []) &&
      (r.1.step (.receive .endOfStream)).any fun q : Session × List Event =>
        decide (Event.receiveFailed .endOfStream ∈ q.2)) (by decide +kernel)
  obtain ⟨hnil, hstep⟩ := Bool.and_eq_true_iff.mp hP
  obtain ⟨⟨u, es⟩, heof, hseen⟩ := (Option.any_eq_true _ _).mp hstep
  have hall := (end_of_stream (.server _ _ _) hrun heof (of_decide_eq_true hseen)
    (.nil (G := Machine.anyStep))).mpr (by simp [of_decide_eq_true hnil])
  simp only [Machine.events_nil, List.append_nil] at hall
  exact ⟨tr, t, u, es, hrun, heof, hall⟩

/-- A message and the end of the stream arrive in one poll: the message is not delivered. -/
theorem end_of_stream_loses_message :
    ¬∀ (s t u v : Session) (tr tr' : List (Input × List Event)) (es : List Event), Constructed s →
      sessionMachine.Run Polled s tr t → t.step (.receive .endOfStream) = some (u, es) →
        .receiveFailed .endOfStream ∈ es → sessionMachine.Run Polled u tr' v →
          delivered (Machine.events tr ++ es ++ Machine.events tr') =
            messagesOf [] (frameDecoder.decode ((Machine.events tr ++ es ++
              Machine.events tr').flatMap Event.receivedBytes)).1 := by
  intro h
  obtain ⟨tr, t, hrun, hP⟩ := Machine.exists_run_of_exec (M := sessionMachine)
    (G := Polled) (s := start (.ofSocket zeroPlatform true true))
    (l := handshakeInputs (ascii "GET / HTTP/1.1\r\n\r\n") ++
      [.poll true 0, .receive (.data [0x81, 1, 0x41])])
    (P := fun r => decide ((Machine.events r.2).flatMap Event.receivedBytes = [0x81, 1, 0x41] ∧
        (Machine.events r.2).flatMap Event.outputs = []) &&
      (r.1.step (.receive .endOfStream)).any fun q : Session × List Event =>
        decide (q.2 = [Event.receiveFailed .endOfStream, .socketClose])) (by decide +kernel)
  obtain ⟨hbytes, hstep⟩ := Bool.and_eq_true_iff.mp hP
  obtain ⟨hbytes, houts⟩ := of_decide_eq_true hbytes
  obtain ⟨⟨u, es⟩, heof, hes⟩ := (Option.any_eq_true _ _).mp hstep
  obtain rfl := of_decide_eq_true hes
  have hall := h _ t u u tr [] _ (.server _ _ _) hrun heof List.mem_cons_self .nil
  rw [delivered] at hall
  simp only [Machine.events_nil, List.append_nil, List.flatMap_append, hbytes, houts] at hall
  revert hall
  decide +kernel

end Session

end WsClient
