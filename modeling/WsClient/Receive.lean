import WsClient.DispatchBounds
import WsClient.Reassembly

/-!
# The receiving side

What a step does to the receive buffer and to the accumulated data, and what a run has made of the
bytes it received. `Received` ties the two buffers and the outputs of a run to the frames of the
received stream: the frames that were processed stand at its front, the receive buffer holds what
follows, and the accumulated data and the outputs are those of the reference parse.

Neither the ready state nor the results of the socket matter for this. It rests on two conditions:
no frame of `2 ^ 32` bytes or more passes the truncated length check, and no fragment is refused.

## Main definitions

* `KeepsReceived`: an operation that does not concern the receiving side.
* `Received`, `Session.Received`: the invariant.
* `Session.FrameLoopStep`: what a step is to the frame loop.

## Main results

* `WebSocketImpl.dispatchIteration_frames`: one iteration of the frame loop against the reference.
* `Session.step_received`: one step.
-/

namespace WsClient

/-- The operation does not concern the receiving side. -/
structure KeepsReceived (w w' : WebSocketImpl) (es : List Event) : Prop where
  receiveBuffer : w'.mReceiveBuffer = w.mReceiveBuffer
  receivedData : w'.mReceivedData = w.mReceivedData
  bytes : es.flatMap Event.receivedBytes = []
  outputs : es.flatMap Event.outputs = []

/-- The operation appends what it reads to the receive buffer. -/
structure Appends (w w' : WebSocketImpl) (es : List Event) : Prop where
  wf : w'.mReceiveBuffer.WF
  receiveBuffer : w'.mReceiveBuffer.getData =
    w.mReceiveBuffer.getData ++ es.flatMap Event.receivedBytes
  receivedData : w'.mReceivedData = w.mReceivedData
  outputs : es.flatMap Event.outputs = []

variable {w w' w'' : WebSocketImpl} {es es' : List Event}

theorem KeepsReceived.appends (h : KeepsReceived w w' es) (hwf : w.mReceiveBuffer.WF) :
    Appends w w' es where
  wf := h.receiveBuffer ▸ hwf
  receiveBuffer := by rw [h.bytes, h.receiveBuffer, List.append_nil]
  receivedData := h.receivedData
  outputs := h.outputs

theorem KeepsReceived.refl (w : WebSocketImpl) : KeepsReceived w w [] := ⟨rfl, rfl, rfl, rfl⟩

theorem KeepsReceived.trans (h : KeepsReceived w w' es) (h' : KeepsReceived w' w'' es') :
    KeepsReceived w w'' (es ++ es') where
  receiveBuffer := h'.receiveBuffer.trans h.receiveBuffer
  receivedData := h'.receivedData.trans h.receivedData
  bytes := by rw [List.flatMap_append, h.bytes, h'.bytes, List.append_nil]
  outputs := by rw [List.flatMap_append, h.outputs, h'.outputs, List.append_nil]

namespace WebSocketImpl

/-! ### Operations that do not concern the receiving side -/

variable {type : Opcode} {data : Option Bytes} {n : ℕ} {key : MaskingKey} {ws : WsHeader}

theorem addTransmit_received (w : WebSocketImpl) (use : BufferUse) (d : Bytes) (n : ℕ) :
    (w.addTransmit use d n).2.flatMap Event.receivedBytes = [] ∧
      (w.addTransmit use d n).2.flatMap Event.outputs = [] := by
  simp only [addTransmit]
  split_ifs <;> exact ⟨rfl, rfl⟩

/-- Queuing a frame shows as an output only if it is a `PONG`. -/
theorem sendData_received (w : WebSocketImpl) (type : Opcode) (data : Option Bytes) (n : ℕ)
    (key : MaskingKey) :
    (w.sendData type data n key).1.mReceiveBuffer = w.mReceiveBuffer ∧
      (w.sendData type data n key).1.mReceivedData = w.mReceivedData ∧
      (w.sendData type data n key).2.flatMap Event.receivedBytes = [] ∧
      (w.sendData type data n key).2.flatMap Event.outputs =
        if type = .pong then [.pong (data.getD [])] else [] := by
  obtain ⟨b, hb⟩ := exists_sendData_eq w type data n key
  have hcalled : Event.outputs (.sendData w.mReadyState type (data.getD []) key) =
      if type = .pong then [.pong (data.getD [])] else [] := by
    cases type <;> rfl
  have hpart (w : WebSocketImpl) : (w.queuePayload data n key).2.flatMap Event.receivedBytes = [] ∧
      (w.queuePayload data n key).2.flatMap Event.outputs = [] := by
    cases data with
    | none => exact ⟨rfl, rfl⟩
    | some d => exact addTransmit_received w _ d _
  refine ⟨by rw [hb, setTransmit_mReceiveBuffer], by rw [hb, setTransmit_mReceivedData], ?_⟩
  unfold sendData
  by_cases hclosed : w.mReadyState = .closing ∨ w.mReadyState = .closed
  · simp only [if_pos hclosed, List.flatMap_cons, List.flatMap_nil, List.append_nil, hcalled]
    exact ⟨rfl, trivial⟩
  · obtain ⟨hbytes, houts⟩ := addTransmit_received w .header
      (frameHeader w.mUseMask type n key) (frameHeader w.mUseMask type n key).length
    obtain ⟨hbytes', houts'⟩ := hpart (w.addTransmit .header (frameHeader w.mUseMask type n key)
      (frameHeader w.mUseMask type n key).length).1
    simp only [if_neg hclosed, List.flatMap_cons, List.flatMap_append, hbytes, hbytes', houts,
      houts', hcalled, List.append_nil]
    exact ⟨rfl, trivial⟩

theorem sendData_keepsReceived (htype : type ≠ .pong) :
    KeepsReceived w (w.sendData type data n key).1 (w.sendData type data n key).2 := by
  obtain ⟨h, h', hbytes, houts⟩ := sendData_received w type data n key
  exact ⟨h, h', hbytes, houts.trans (if_neg htype)⟩

theorem close_keepsReceived (w : WebSocketImpl) : KeepsReceived w w.close.1 w.close.2 := by
  unfold close
  split_ifs
  · exact ⟨rfl, rfl, rfl, rfl⟩
  · obtain ⟨hbytes, houts⟩ := addTransmit_received (w.setReadyState .closing) .closeFrame
      closeFrame closeFrame.length
    exact ⟨rfl, rfl, hbytes, houts⟩

theorem processLine_keepsReceived (w : WebSocketImpl) :
    KeepsReceived w w.processLine.1 w.processLine.2.2 := by
  unfold processLine
  split
  · split_ifs <;> exact ⟨rfl, rfl, rfl, rfl⟩
  · split_ifs <;> exact ⟨rfl, rfl, rfl, rfl⟩
  all_goals exact ⟨rfl, rfl, rfl, rfl⟩

theorem processConnection_keepsReceived (w : WebSocketImpl) (expired : Bool) (v : Option UInt8) :
    KeepsReceived w (w.processConnection expired v).1 (w.processConnection expired v).2 := by
  have hrelease (w : WebSocketImpl) : KeepsReceived w w.releaseSocket.1 w.releaseSocket.2 :=
    ⟨rfl, rfl, rfl, rfl⟩
  unfold processConnection
  split_ifs
  · exact .refl w
  · exact hrelease w
  cases v with
  | none => exact .refl w
  | some c =>
    have hset (b : ℕ → UInt8) (i : ℕ) :
        KeepsReceived w ((w.storeChar c).setConnection b i) [.handshakeByte c] :=
      ⟨rfl, rfl, rfl, rfl⟩
    simp only
    split_ifs
    · unfold endLine
      simp only
      split_ifs
      · exact (hset _ _).trans (processLine_keepsReceived _)
      · exact (hset _ _).trans ((processLine_keepsReceived _).trans (hrelease _))
    · unfold extendLine
      simp only
      split_ifs
      · exact (hset _ _).trans (hrelease _)
      · exact hset _ _

theorem leaveTransmit_keepsReceived (w : WebSocketImpl) (callback : Bool) :
    KeepsReceived w (w.leaveTransmit callback).1 (w.leaveTransmit callback).2.2 := by
  unfold leaveTransmit
  split_ifs <;> exact ⟨rfl, rfl, rfl, rfl⟩

theorem transmitIteration_keepsReceived (w : WebSocketImpl) (callback : Bool) (r : SendResult) :
    KeepsReceived w (w.transmitIteration callback r).1 (w.transmitIteration callback r).2.2 := by
  have hcalled : KeepsReceived w w [.transmit w.mTransmitBuffer.getData r] := ⟨rfl, rfl, rfl, rfl⟩
  unfold transmitIteration
  split_ifs
  · exact leaveTransmit_keepsReceived w callback
  · cases r with
    | wouldBlock => exact hcalled.trans (leaveTransmit_keepsReceived w callback)
    | accepted n => exact ⟨rfl, rfl, rfl, rfl⟩
    | zero => exact ⟨rfl, rfl, rfl, rfl⟩
    | error => exact ⟨rfl, rfl, rfl, rfl⟩

/-! ### One frame -/

/-- The payload that is looked at is that of the frame. -/
theorem unmaskPayload_payload (hsize : ws.headerSize + ws.N ≤ w.mReceiveBuffer.getSize) :
    (w.unmaskPayload ws).1.payload ws =
      if ws.mask then
        maskBytes ws.maskingKey ((w.mReceiveBuffer.getData.drop ws.headerSize).take ws.N)
      else (w.mReceiveBuffer.getData.drop ws.headerSize).take ws.N := by
  have hlt := w.mReceiveBuffer.getSize_lt
  have hu : u32 ws.N = ws.N := u32_of_lt (by omega)
  unfold unmaskPayload
  split_ifs with hm
  · simp only [payload, setReceive_mReceiveBuffer, hu]
    rw [SimpleBuffer.slice_xorData, SimpleBuffer.slice_eq hsize]
  · rw [payload, hu, SimpleBuffer.slice_eq hsize]

/-- Masking the payload does not concern what follows the frame. -/
theorem drop_unmaskContent {s : Bytes} (hsize : ws.headerSize + ws.N ≤ s.length)
    (hlt : ws.N < 4294967296) :
    (unmaskContent ws s).drop (ws.headerSize + ws.N) = s.drop (ws.headerSize + ws.N) := by
  unfold unmaskContent
  rw [u32_of_lt hlt]
  split_ifs
  · rw [List.drop_left' (by simp; omega)]
  · rfl

/-- A fragment that is not refused is appended to the accumulated data. -/
theorem appendFragment_spec (hdata : w.mReceivedData.WF) (hN : u32 ws.N ≤ 2 ^ 29)
    (hno : ∀ n, .refused .fragment n ∉ (w.appendFragment ws).2) :
    (w.appendFragment ws).1.mReceivedData.WF ∧
      (w.appendFragment ws).1.mReceivedData.getData =
        w.mReceivedData.getData ++ w.payload ws := by
  have hlen : (w.payload ws).length = u32 ws.N := by simp [payload, SimpleBuffer.slice]
  obtain ⟨hwf, -, hadded, -⟩ := SimpleBuffer.addBuffer_spec hdata hN hlen
  refine ⟨hwf, hadded ?_⟩
  by_contra hok
  refine hno (u32 ws.N) ?_
  simp [appendFragment, hok]

theorem appendFragment_received (w : WebSocketImpl) (ws : WsHeader) :
    (w.appendFragment ws).2.flatMap Event.receivedBytes = [] ∧
      (w.appendFragment ws).2.flatMap Event.outputs = [] := by
  simp only [appendFragment]
  split_ifs <;> exact ⟨rfl, rfl⟩

theorem unmaskPayload_received (w : WebSocketImpl) (ws : WsHeader) :
    (w.unmaskPayload ws).1.mReceivedData = w.mReceivedData ∧
      (w.unmaskPayload ws).2.flatMap Event.receivedBytes = [] ∧
      (w.unmaskPayload ws).2.flatMap Event.outputs = [] := by
  unfold unmaskPayload
  split_ifs <;> exact ⟨rfl, rfl, rfl⟩

/-- What processing a frame makes of the accumulated data and what it puts out. -/
structure Interprets (w : WebSocketImpl) (f : Frame)
    (r : WebSocketImpl × Flow × List Event) : Prop where
  wf : r.1.mReceivedData.WF
  bytes : r.2.2.flatMap Event.receivedBytes = []
  outputs : r.2.2.flatMap Event.outputs = (f.interpret w.mReceivedData.getData).2
  again : r.2.1 = .again →
    r.1.mReceivedData.getData = (f.interpret w.mReceivedData.getData).1
  deliver : ∀ n clear, r.2.1 = .deliver n clear →
    (if clear then [] else r.1.mReceivedData.getData) = (f.interpret w.mReceivedData.getData).1

variable {f : Frame}

theorem dispatchData_interprets (hdata : w.mReceivedData.WF) (hN : u32 ws.N ≤ 2 ^ 29)
    (hop : f.opcode.isData = true) (hopcode : f.opcode = ws.opcode) (hfin : f.fin = ws.fin)
    (hpayload : (w.unmaskPayload ws).1.payload ws = f.payload)
    (hno : ∀ n, .refused .fragment n ∉ (w.dispatchData ws).2.2) :
    Interprets w f (w.dispatchData ws) := by
  obtain ⟨hsame, hbytes, houts⟩ := unmaskPayload_received w ws
  obtain ⟨hbytes', houts'⟩ := appendFragment_received (w.unmaskPayload ws).1 ws
  have happend := appendFragment_spec (w := (w.unmaskPayload ws).1) (hsame ▸ hdata) hN
  have hint := Frame.interpret_of_isData w.mReceivedData.getData hop
  rw [hsame, hpayload] at happend
  obtain ⟨es, hes, hstep⟩ := dispatchData_step w ws
  rw [hes] at hno
  generalize w.dispatchData ws = r at hes hstep ⊢
  obtain ⟨w', flow, es'⟩ := r
  obtain rfl : es' = _ := hes
  rw [hopcode, hfin] at hint
  cases hstep with
  | direct hfin hempty =>
    rw [hsame] at hempty
    have hnil := SimpleBuffer.getSize_eq_zero_iff.mp hempty
    rw [if_pos hfin, hnil, List.nil_append] at hint
    refine ⟨hsame ▸ hdata, by simp [hbytes, Event.receivedBytes], ?_, (fun h => by cases h), ?_⟩
    · rw [hnil, hint]
      simp [houts, Event.outputs, hpayload]
    · rintro n clear h
      obtain ⟨-, rfl⟩ := Flow.deliver.inj h
      rw [hnil, hint, if_neg (by simp), hsame, hnil]
  | last hfin hsize hmore =>
    obtain ⟨hwf, hacc⟩ := happend fun n hn => hno n (by simp [hn])
    rw [if_pos hfin] at hint
    refine ⟨hwf, by simp [hbytes, hbytes', Event.receivedBytes], ?_, (fun h => by cases h), ?_⟩
    · rw [hint]
      simp [houts, houts', Event.outputs, hacc]
    · rintro n clear h
      obtain ⟨-, rfl⟩ := Flow.deliver.inj h
      rw [hint, if_pos rfl]
  | nothing hfin hsize hmore =>
    -- the data was not empty before
    obtain ⟨hwf, hacc⟩ := happend fun n hn => hno n (by simp [hn])
    rw [SimpleBuffer.getSize_eq_zero_iff, hacc] at hsize
    rw [hsame] at hmore
    exact absurd (SimpleBuffer.getSize_eq_zero_iff.mpr (List.append_eq_nil_iff.mp hsize).1) hmore
  | fragment hfin =>
    obtain ⟨hwf, hacc⟩ := happend fun n hn => hno n (by simp [hn])
    rw [if_neg (by simp [hfin])] at hint
    refine ⟨hwf, by simp [hbytes, hbytes', Event.receivedBytes], ?_, (fun _ => ?_),
      (fun n clear h => by cases h)⟩
    · rw [hint]
      simp [houts, houts', Event.outputs]
    · rw [hint]
      exact hacc

theorem dispatchPing_interprets (hdata : w.mReceivedData.WF) (hop : f.opcode = .ping)
    (hlt : ws.N < 4294967296) (hpayload : (w.unmaskPayload ws).1.payload ws = f.payload)
    (key : MaskingKey) : Interprets w f (w.dispatchPing ws key) := by
  obtain ⟨hsame, hbytes, houts⟩ := unmaskPayload_received w ws
  obtain ⟨-, hsame', hbytes', houts'⟩ := sendData_received (w.unmaskPayload ws).1 .pong
    (if ws.N ≠ 0 then some ((w.unmaskPayload ws).1.payload ws) else none) ws.N key
  have hint : f.interpret w.mReceivedData.getData =
      (w.mReceivedData.getData, [.pong f.payload]) := by
    rw [Frame.interpret, if_neg (by simp [hop, Opcode.isData]), if_pos hop]
  have hlen : f.payload.length = ws.N := by
    rw [← hpayload]
    simp [payload, SimpleBuffer.slice, u32_of_lt hlt]
  have hanswer : (if ws.N ≠ 0 then some ((w.unmaskPayload ws).1.payload ws) else none).getD [] =
      f.payload := by
    split_ifs with hN
    · exact hpayload
    · rw [not_not] at hN
      exact (List.length_eq_zero_iff.mp (hlen.trans hN)).symm
  have hsame'' : (w.dispatchPing ws key).1.mReceivedData = w.mReceivedData := hsame'.trans hsame
  have haccess : (if ws.N ≠ 0 then [Event.access .answer ws.headerSize (u32 ws.N)] else
      []).flatMap Event.outputs = [] ∧ (if ws.N ≠ 0 then [Event.access .answer ws.headerSize
        (u32 ws.N)] else []).flatMap Event.receivedBytes = [] := by
    split_ifs <;> exact ⟨rfl, rfl⟩
  refine ⟨hsame''.symm ▸ hdata, ?_, ?_, (fun _ => by rw [hint, hsame'']),
    (fun n clear h => by cases h)⟩
  · simp only [dispatchPing, List.flatMap_append, hbytes, hbytes', haccess.2]
    rfl
  · simp only [dispatchPing, List.flatMap_append, houts, houts', haccess.1, hint, hanswer]
    rfl

/-- What the frame loop makes of a frame that does not stop it. -/
theorem dispatchFrame_interprets (hdata : w.mReceivedData.WF) (hN : ws.N ≤ 2 ^ 29)
    (hop : ws.opcode.isStop = false) (hopcode : f.opcode = ws.opcode) (hfin : f.fin = ws.fin)
    (hpayload : (w.unmaskPayload ws).1.payload ws = f.payload)
    (hno : ∀ n, .refused .fragment n ∉ (w.dispatchFrame ws key).2.2) :
    Interprets w f (w.dispatchFrame ws key) := by
  have hu : u32 ws.N = ws.N := u32_of_lt (by omega)
  cases hdataop : ws.opcode.isData with
  | true =>
    rw [dispatchFrame_of_isData hdataop] at hno ⊢
    exact dispatchData_interprets hdata (by omega) (hopcode ▸ hdataop) hopcode hfin hpayload hno
  | false =>
    have hcases : ws.opcode = .ping ∨ ws.opcode = .pong := by
      cases hws : ws.opcode <;> simp [hws, Opcode.isData, Opcode.isStop] at hdataop hop ⊢
    rcases hcases with hping | hpong
    · have heq : w.dispatchFrame ws key = w.dispatchPing ws key := by rw [dispatchFrame, hping]
      rw [heq]
      exact dispatchPing_interprets hdata (hopcode.trans hping) (by omega) hpayload key
    · have heq : w.dispatchFrame ws key = ((w.consumeFrame ws.frameSize).1, .again,
          (w.consumeFrame ws.frameSize).2) := by
        rw [dispatchFrame, hpong]
      have hint : f.interpret w.mReceivedData.getData = (w.mReceivedData.getData, []) := by
        rw [Frame.interpret, if_neg (by simp [hopcode, hpong, Opcode.isData]),
          if_neg (by simp [hopcode, hpong])]
      rw [heq]
      exact ⟨hdata, rfl, by rw [hint]; rfl, (fun _ => by rw [hint]; rfl),
        (fun n clear h => by cases h)⟩

/-- One iteration of the frame loop: it leaves the loop if the content is settled, and otherwise
processes the first frame as the reference does. -/
inductive FrameStep (w : WebSocketImpl) (r : WebSocketImpl × Flow × List Event) : Prop
  | settled (hs : Settled w.mReceiveBuffer.getData) (hflow : r.2.1 = .stop)
    (hstate : r.1.mReadyState = w.mReadyState ∨ StopAhead w.mReceiveBuffer.getData)
    (hkeeps : KeepsReceived w r.1 r.2.2)
  | frame {f : Frame} {t : Bytes} (hp : parseFrame w.mReceiveBuffer.getData = some (f, t))
    (hop : f.opcode.isStop = false) (hstate : r.1.mReadyState = w.mReadyState)
    (hwf : r.1.mReceiveBuffer.WF) (hint : Interprets w f r)
    (hflow : r.2.1 = .again ∧ r.1.mReceiveBuffer.getData = t ∨
      ∃ n clear, r.2.1 = .deliver n clear ∧ n ≤ r.1.mReceiveBuffer.getSize ∧
        r.1.mReceiveBuffer.getData.drop n = t)

/-- The header of an iteration, and the frame that the reference reads there. -/
theorem parseFrame_getData (b : SimpleBuffer) :
    parseFrame b.getData =
      if b.getSize < (headerOf b.byteAt).headerSize + (headerOf b.byteAt).N then none
      else some (frameOf b.byteAt b.getData,
        b.getData.drop ((headerOf b.byteAt).headerSize + (headerOf b.byteAt).N)) := by
  have h2 := headerSize_pos b.byteAt
  rw [parseFrame_eq fun i hi =>
    SimpleBuffer.getData_getElem? (b.length_getData ▸ hi), b.length_getData]
  congr 1
  exact propext ⟨fun h => by omega, .inr⟩

/-- Reading the header of a frame. -/
theorem readHeader_keepsReceived (w : WebSocketImpl) (reads : List ℕ) :
    KeepsReceived w w (reads.map fun i => .access .header i 1) :=
  ⟨rfl, rfl, List.flatMap_eq_nil_iff.mpr (by simp [Event.receivedBytes]),
    List.flatMap_eq_nil_iff.mpr (by simp [Event.outputs])⟩

theorem dispatchIteration_frames (hwf : w.mReceiveBuffer.WF) (hdata : w.mReceivedData.WF)
    (hover : ¬w.Overflows) (key : MaskingKey)
    (hno : ∀ n, .refused .fragment n ∉ (w.dispatchIteration key).2.2) :
    FrameStep w (w.dispatchIteration key) := by
  have hparse := parseFrame_getData w.mReceiveBuffer
  have hle := hwf.getSize_le
  obtain ⟨reads, -, ⟨es, hes, heq, hshort⟩ | ⟨ws, hws, hsize, hframe, heq⟩⟩ :=
    dispatchIteration_cases w key
  · have hlt : w.mReceiveBuffer.getSize < (headerOf w.mReceiveBuffer.byteAt).headerSize +
        (headerOf w.mReceiveBuffer.byteAt).N := by
      rw [WsHeader.frameSize_eq] at hshort
      have := Nat.mod_le ((headerOf w.mReceiveBuffer.byteAt).headerSize +
        (headerOf w.mReceiveBuffer.byteAt).N) 4294967296
      omega
    rw [if_pos hlt] at hparse
    rw [heq]
    refine .settled (fun f r h => by simp [hparse] at h) rfl (.inl rfl)
      ((readHeader_keepsReceived w reads).trans ⟨rfl, rfl, ?_, ?_⟩)
    · refine List.flatMap_eq_nil_iff.mpr fun e he => ?_
      obtain ⟨_, _, rfl⟩ := hes e he
      rfl
    · refine List.flatMap_eq_nil_iff.mpr fun e he => ?_
      obtain ⟨_, _, rfl⟩ := hes e he
      rfl
  · -- the length check is exact
    have hlt : ws.headerSize + ws.N < 4294967296 := by
      by_contra hge
      exact hover ⟨hws ▸ hsize, by rw [← hws]; omega, by rwa [← hws, ← WsHeader.frameSize_eq]⟩
    have hfs := WsHeader.frameSize_of_lt hlt
    rw [← hws, if_neg (by omega)] at hparse
    have hhead : KeepsReceived w w ((reads.map fun i => .access .header i 1) ++
        [.parsed ws w.mReceiveBuffer.getSize]) :=
      (readHeader_keepsReceived w reads).trans ⟨rfl, rfl, rfl, rfl⟩
    rw [← List.singleton_append, ← List.append_assoc] at heq
    have hopcode : (frameOf w.mReceiveBuffer.byteAt w.mReceiveBuffer.getData).opcode =
        ws.opcode := by rw [hws]; rfl
    cases hop : ws.opcode.isStop with
    | true =>
      rw [dispatchFrame_of_isStop hop] at heq
      rw [heq]
      refine .settled (fun f r h => ?_) rfl (.inr ⟨_, _, hparse, hopcode ▸ hop⟩)
        (hhead.trans (close_keepsReceived w))
      obtain ⟨rfl, -⟩ : _ ∧ _ := by simpa [eq_comm] using hparse.symm.trans h
      rwa [hopcode]
    | false =>
      obtain ⟨hwf', hflow⟩ := dispatchFrame_content hwf hsize hop key
      have hpayload : (w.unmaskPayload ws).1.payload ws =
          (frameOf w.mReceiveBuffer.byteAt w.mReceiveBuffer.getData).payload := by
        rw [unmaskPayload_payload (by omega), hws]
        rfl
      have hno' (n : ℕ) : .refused .fragment n ∉ (w.dispatchFrame ws key).2.2 := fun h =>
        hno n (by rw [heq]; exact List.mem_append_right _ h)
      have hint : Interprets w (frameOf w.mReceiveBuffer.byteAt w.mReceiveBuffer.getData)
          (w.dispatchFrame ws key) := by
        have hu : u32 ws.N = ws.N := u32_of_lt (by omega)
        exact dispatchFrame_interprets hdata (by omega) hop hopcode (by rw [hws]; rfl) hpayload hno'
      have hdrop := @drop_unmaskContent ws w.mReceiveBuffer.getData
        (by rw [SimpleBuffer.length_getData]; omega) (by omega)
      rw [heq]
      refine .frame hparse (hopcode ▸ hop) (dispatchFrame_mReadyState hop key) hwf'
        ⟨hint.wf, ?_, ?_, hint.again, hint.deliver⟩ ?_
      · rw [List.flatMap_append, hhead.bytes, hint.bytes]
        rfl
      · rw [List.flatMap_append, hhead.outputs, hint.outputs, List.nil_append]
      · rw [hfs, hdrop] at hflow
        rcases hflow with hflow | ⟨⟨clear, hflow⟩, hcontent⟩
        · exact .inl hflow
        · refine .inr ⟨_, clear, hflow, ?_, by rw [hcontent, hdrop]⟩
          rw [← SimpleBuffer.length_getData, hcontent,
            length_unmaskContent (SimpleBuffer.length_getData _ ▸ hsize),
            SimpleBuffer.length_getData]
          omega

theorem receiveIteration_appends (hwf : w.mReceiveBuffer.WF) (callback : Bool) {r : RecvResult}
    (hr : r.Valid maxReadSize) :
    Appends w (w.receiveIteration callback r).1 (w.receiveIteration callback r).2.2 := by
  obtain ⟨hwf', hdata, -, hroom, -⟩ :=
    SimpleBuffer.confirmCapacity_spec hwf (n := maxReadSize) (by decide)
  have hkeeps : w.mReceiveBuffer.getData ++ [] =
      (w.mReceiveBuffer.confirmCapacity maxReadSize).1.getData := by
    rw [hdata, List.append_nil]
  unfold receiveIteration
  simp only
  split_ifs with hc
  · cases r with
    | data d =>
      obtain ⟨-, hwf'', -, hdata''⟩ := SimpleBuffer.receiveInto_spec hwf' (hr.2.trans (hroom hc))
      refine ⟨hwf'', ?_, rfl, rfl⟩
      rw [setReceive_mReceiveBuffer, hdata'', hdata]
      simp [Event.receivedBytes]
    | wouldBlock => exact ⟨hwf', hkeeps.symm, rfl, rfl⟩
    | endOfStream => exact ⟨hwf', hkeeps.symm, rfl, rfl⟩
    | error => exact ⟨hwf', hkeeps.symm, rfl, rfl⟩
  · exact ⟨hwf', hkeeps.symm, rfl, rfl⟩

end WebSocketImpl

/-! ### Runs -/

/-- The functions of a `poll` with a callback, from the receive loop on. -/
def Activation.dispatches : Activation → Bool
  | .receiving callback | .transmitting callback => callback
  | .dispatching | .delivering _ _ => true
  | _ => false

/-- The frame that is being delivered, and whether the accumulated data is cleared after. -/
def Activation.delivery : Activation → Option (ℕ × Bool)
  | .delivering frameSize clear => some (frameSize, clear)
  | _ => none

namespace Session

/-- The frame that is being delivered. -/
def delivery (s : Session) : Option (ℕ × Bool) := s.stack.findSome? Activation.delivery

/-- The received bytes after the frames that were processed. -/
def pending (s : Session) : Bytes :=
  match s.delivery with
  | none => s.impl.mReceiveBuffer.getData
  | some d => s.impl.mReceiveBuffer.getData.drop d.1

/-- The fragments of the message that is not complete yet. -/
def accumulated (s : Session) : Bytes :=
  match s.delivery with
  | some (_, true) => []
  | _ => s.impl.mReceivedData.getData

variable {s t : Session} {i : Input} {fs : List Frame} {stack : List Activation}

theorem pending_of_none (h : s.delivery = none) : s.pending = s.impl.mReceiveBuffer.getData := by
  rw [pending, h]

theorem pending_of_some {d : ℕ × Bool} (h : s.delivery = some d) :
    s.pending = s.impl.mReceiveBuffer.getData.drop d.1 := by
  rw [pending, h]

theorem accumulated_of_none (h : s.delivery = none) :
    s.accumulated = s.impl.mReceivedData.getData := by
  rw [accumulated, h]

theorem accumulated_of_some {n : ℕ} {clear : Bool} (h : s.delivery = some (n, clear)) :
    s.accumulated = if clear then [] else s.impl.mReceivedData.getData := by
  rw [accumulated, h]
  cases clear <;> rfl

/-- What a run with the events `es` has made of the bytes it received: the frames `fs` stand at
their front and were processed, what follows is in the receive buffer. -/
structure Received (es : List Event) (fs : List Frame) (s : Session) : Prop where
  receive_wf : s.impl.mReceiveBuffer.WF
  data_wf : s.impl.mReceivedData.WF
  single : s.stack.countP Activation.dispatches ≤ 1
  size_le : ∀ d, s.delivery = some d → d.1 ≤ s.impl.mReceiveBuffer.getSize
  reads : frameDecoder.Reads (es.flatMap Event.receivedBytes) fs s.pending
  not_stop : ∀ f ∈ fs, f.opcode.isStop = false
  accumulated_eq : s.accumulated = (interpret [] fs).1
  outputs_eq : es.flatMap Event.outputs = (interpret [] fs).2

/-- What a function other than the frame loop enters: nothing that is delivering a frame, and
nothing that will unless it calls back. -/
@[mk_iff] structure Enters (callback : Bool) (next : List Activation) : Prop where
  delivery : next.findSome? Activation.delivery = none
  dispatches : next.countP Activation.dispatches ≤ callback.toNat

theorem Enters.nil (callback : Bool) : Enters callback [] := ⟨rfl, Nat.zero_le _⟩

/-- A step that processes no frame. -/
theorem Received.of_appends (hs : Received es fs s) (happ : Appends s.impl w es')
    (hstack : stack.findSome? Activation.delivery = s.delivery)
    (hsingle : stack.countP Activation.dispatches ≤ 1) : Received (es ++ es') fs ⟨w, stack⟩ where
  receive_wf := happ.wf
  data_wf := happ.receivedData ▸ hs.data_wf
  single := hsingle
  size_le d hd := by
    have hle := hs.size_le d (hstack ▸ hd)
    rw [← SimpleBuffer.length_getData] at hle ⊢
    rw [happ.receiveBuffer, List.length_append]
    omega
  reads := by
    have hpending : pending ⟨w, stack⟩ = s.pending ++ es'.flatMap Event.receivedBytes := by
      have hle := hs.size_le
      simp only [pending, delivery, hstack] at hle ⊢
      rw [happ.receiveBuffer]
      cases hd : s.stack.findSome? Activation.delivery with
      | none => rfl
      | some d =>
        exact List.drop_append_of_le_length (SimpleBuffer.length_getData _ ▸ hle d hd)
    rw [List.flatMap_append, hpending]
    exact hs.reads.append_right _
  not_stop := hs.not_stop
  accumulated_eq := by
    rw [← hs.accumulated_eq]
    simp only [accumulated, delivery, hstack, happ.receivedData]
  outputs_eq := by rw [List.flatMap_append, happ.outputs, List.append_nil, hs.outputs_eq]

theorem poll_enters (w : WebSocketImpl) (callback : Bool) (timeout : ℤ) :
    Enters callback (w.poll callback timeout).1 := by
  unfold WebSocketImpl.poll
  split_ifs
  · exact .nil callback
  · exact ⟨rfl, Nat.zero_le _⟩
  · exact .nil callback
  · exact .nil callback
  · cases callback <;> exact ⟨rfl, Nat.le_refl _⟩

theorem poll_keepsReceived (w : WebSocketImpl) (callback : Bool) (timeout : ℤ) :
    KeepsReceived w w (w.poll callback timeout).2 := by
  unfold WebSocketImpl.poll
  split_ifs <;> exact ⟨rfl, rfl, rfl, rfl⟩

theorem call_keepsReceived {r : WebSocketImpl × List Event} (h : w.call i = some r) :
    KeepsReceived w r.1 r.2 := by
  rcases WebSocketImpl.call_cases h with ⟨type, data, key, hframe, rfl⟩ | ⟨-, rfl⟩
  · refine WebSocketImpl.sendData_keepsReceived ?_
    rintro rfl
    cases i <;> simp [Input.frame] at hframe
  · exact WebSocketImpl.close_keepsReceived w

theorem leaveReceive_enters (w : WebSocketImpl) (callback : Bool) :
    Enters callback (w.leaveReceive callback) := by
  unfold WebSocketImpl.leaveReceive
  split_ifs
  · exact .nil callback
  · cases callback <;> exact ⟨rfl, Nat.le_refl _⟩

theorem receiveIteration_enters (w : WebSocketImpl) (callback : Bool) (r : RecvResult) :
    Enters callback (w.receiveIteration callback r).2.1 := by
  unfold WebSocketImpl.receiveIteration
  simp only
  split_ifs
  · cases r with
    | data d => cases callback <;> exact ⟨rfl, Nat.le_refl _⟩
    | wouldBlock => exact leaveReceive_enters _ _
    | endOfStream => exact .nil callback
    | error => exact .nil callback
  · exact leaveReceive_enters _ _

theorem leaveTransmit_enters (w : WebSocketImpl) (callback : Bool) :
    Enters callback (w.leaveTransmit callback).2.1 := by
  unfold WebSocketImpl.leaveTransmit WebSocketImpl.beginDispatch
  split_ifs <;> simp_all [enters_iff, Activation.delivery, Activation.dispatches]

theorem transmitIteration_enters (w : WebSocketImpl) (callback : Bool) (r : SendResult) :
    Enters callback (w.transmitIteration callback r).2.1 := by
  unfold WebSocketImpl.transmitIteration
  split_ifs
  · exact leaveTransmit_enters w callback
  · cases r with
    | accepted n => cases callback <;> exact ⟨rfl, Nat.le_refl _⟩
    | wouldBlock => exact leaveTransmit_enters w callback
    | zero => exact .nil callback
    | error => exact .nil callback

/-- Below the frame loop no function is in the call of `receiveMessage`. -/
theorem Received.delivery_eq_none {a : Activation} {rest : List Activation}
    (hs : Received es fs s) (hstack : s.stack = a :: rest) (ha : a.dispatches = true) :
    rest.findSome? Activation.delivery = none := by
  have hone := hs.single
  rw [hstack, List.countP_cons_of_pos ha] at hone
  refine List.findSome?_eq_none_iff.mpr fun b hb => ?_
  have hnot := List.countP_eq_zero.mp (Nat.le_zero.mp (Nat.le_of_succ_le_succ hone)) b hb
  cases b <;> first | rfl | exact absurd rfl hnot

/-- The frame loop processes a frame. -/
theorem Received.frame {rest : List Activation} {f : Frame} {u : Bytes}
    {r : WebSocketImpl × WebSocketImpl.Flow × List Event} (hs : Received es fs s)
    (hstack : s.stack = .dispatching :: rest)
    (hp : parseFrame s.impl.mReceiveBuffer.getData = some (f, u))
    (hop : f.opcode.isStop = false) (hwf : r.1.mReceiveBuffer.WF)
    (hint : WebSocketImpl.Interprets s.impl f r)
    (hflow : r.2.1 = .again ∧ r.1.mReceiveBuffer.getData = u ∨
      ∃ n clear, r.2.1 = .deliver n clear ∧ n ≤ r.1.mReceiveBuffer.getSize ∧
        r.1.mReceiveBuffer.getData.drop n = u) :
    Received (es ++ r.2.2) (fs ++ [f]) ⟨r.1, r.2.1.next ++ rest⟩ := by
  have hrest := hs.delivery_eq_none hstack rfl
  have hone (a : Activation) (ha : a.dispatches = true) :
      (a :: rest).countP Activation.dispatches ≤ 1 := by
    have := hs.single
    rwa [hstack, List.countP_cons_of_pos rfl, ← List.countP_cons_of_pos ha] at this
  have hreads := hs.reads
  have hacc := hs.accumulated_eq
  have hd : s.delivery = none := by rw [delivery, hstack, List.findSome?_cons_of_isNone rfl, hrest]
  rw [pending_of_none hd] at hreads
  rw [accumulated_of_none hd] at hacc
  have hbytes : (es ++ r.2.2).flatMap Event.receivedBytes = es.flatMap Event.receivedBytes := by
    rw [List.flatMap_append, hint.bytes, List.append_nil]
  have houts : (es ++ r.2.2).flatMap Event.outputs = (interpret [] (fs ++ [f])).2 := by
    rw [List.flatMap_append, hs.outputs_eq, hint.outputs, interpret_snoc, hacc]
  have hns : ∀ g ∈ fs ++ [f], g.opcode.isStop = false := by
    intro g hg
    rcases List.mem_append.mp hg with hg | hg
    · exact hs.not_stop g hg
    · rwa [List.mem_singleton.mp hg]
  rcases hflow with ⟨hflow, hcontent⟩ | ⟨n, clear, hflow, hn, hcontent⟩
  · have hnone : delivery ⟨r.1, r.2.1.next ++ rest⟩ = none := by
      rw [hflow]
      exact hrest
    refine ⟨hwf, hint.wf, hflow ▸ hone .dispatching rfl, fun d hd => ?_, ?_, hns, ?_, houts⟩
    · rw [hnone] at hd
      cases hd
    · rw [hbytes, pending_of_none hnone, hcontent]
      exact hreads.snoc hp
    · rw [accumulated_of_none hnone, interpret_snoc, ← hacc]
      exact hint.again hflow
  · have hsome : delivery ⟨r.1, r.2.1.next ++ rest⟩ = some (n, clear) := by
      rw [hflow]
      rfl
    refine ⟨hwf, hint.wf, hflow ▸ hone (.delivering n clear) rfl, fun d hd => ?_, ?_, hns, ?_,
      houts⟩
    · rw [hsome] at hd
      exact Option.some.inj hd ▸ hn
    · rw [hbytes, pending_of_some hsome, hcontent]
      exact hreads.snoc hp
    · rw [accumulated_of_some hsome, interpret_snoc, ← hacc]
      exact hint.deliver n clear hflow

/-- `receiveMessage` returns and the frame is consumed. -/
theorem Received.ret {frameSize : ℕ} {clear : Bool} {rest : List Activation}
    (hs : Received es fs s) (hstack : s.stack = .delivering frameSize clear :: rest) :
    Received (es ++ (s.impl.finishDelivery frameSize clear).2) fs
      ⟨(s.impl.finishDelivery frameSize clear).1, .dispatching :: rest⟩ := by
  have hrest := hs.delivery_eq_none hstack rfl
  have hone : (Activation.dispatching :: rest).countP Activation.dispatches ≤ 1 := by
    have := hs.single
    rwa [hstack, List.countP_cons_of_pos rfl, ← List.countP_cons_of_pos (a := .dispatching) rfl]
      at this
  have hreads := hs.reads
  have hacc := hs.accumulated_eq
  have hd : s.delivery = some (frameSize, clear) := by rw [delivery, hstack]; rfl
  have hnone (w : WebSocketImpl) : delivery ⟨w, .dispatching :: rest⟩ = none := hrest
  obtain ⟨hwf, -, hcontent⟩ := SimpleBuffer.consume_spec hs.receive_wf frameSize
  rw [pending_of_some hd] at hreads
  rw [accumulated_of_some hd] at hacc
  have hbuffers : (s.impl.finishDelivery frameSize clear).1.mReceiveBuffer =
        s.impl.mReceiveBuffer.consume frameSize ∧
      (s.impl.finishDelivery frameSize clear).1.mReceivedData =
        if clear then s.impl.mReceivedData.clear else s.impl.mReceivedData := by
    cases clear <;> exact ⟨rfl, rfl⟩
  refine ⟨hbuffers.1 ▸ hwf, ?_, hone, fun d hd => ?_, ?_, hs.not_stop, ?_, ?_⟩
  · rw [hbuffers.2]
    split_ifs
    · exact hs.data_wf.clear
    · exact hs.data_wf
  · rw [hnone] at hd
    cases hd
  · rw [List.flatMap_append, pending_of_none (hnone _), hbuffers.1, hcontent]
    simpa [WebSocketImpl.finishDelivery, WebSocketImpl.consumeFrame, Event.receivedBytes] using
      hreads
  · rw [← hacc, accumulated_of_none (hnone _), hbuffers.2]
    split_ifs
    · exact SimpleBuffer.getData_clear _
    · rfl
  · rw [List.flatMap_append, hs.outputs_eq]
    exact List.append_nil _

/-- A function that goes on is replaced by the functions that it enters. -/
theorem Enters.replace {a : Activation} {next : List Activation}
    (h : Enters a.dispatches next) (ha : a.delivery = none) (rest : List Activation) :
    (next ++ rest).findSome? Activation.delivery = (a :: rest).findSome? Activation.delivery ∧
      (next ++ rest).countP Activation.dispatches ≤ (a :: rest).countP Activation.dispatches := by
  have hle := h.dispatches
  refine ⟨?_, ?_⟩
  · rw [List.findSome?_append, h.delivery, List.findSome?_cons, ha]
    rfl
  · rw [List.countP_append, List.countP_cons]
    cases hd : a.dispatches <;>
      simp only [hd, Bool.toNat_true, Bool.toNat_false, if_true, Bool.false_eq_true,
        if_false] at hle ⊢ <;> omega

/-- What a step other than those of the frame loop does to the receiving side. -/
theorem step_appends (hwf : s.impl.mReceiveBuffer.WF) (h : s.step i = some (t, es'))
    (hdispatch : ∀ key, i ≠ .dispatch key) (hret : i ≠ .ret) :
    Appends s.impl t.impl es' ∧ t.delivery = s.delivery ∧
      ((∀ timeout, i = .poll true timeout → s.stack = []) →
        s.stack.countP Activation.dispatches ≤ 1 → t.stack.countP Activation.dispatches ≤ 1) := by
  -- a function goes on, or enters others
  have hnext {a : Activation} {rest next : List Activation} {w : WebSocketImpl} {es' : List Event}
      (hstack : s.stack = a :: rest) (ha : a.delivery = none)
      (hnext : Enters a.dispatches next) (happ : Appends s.impl w es') :
      Appends s.impl w es' ∧ delivery ⟨w, next ++ rest⟩ = s.delivery ∧
        ((∀ timeout, i = .poll true timeout → s.stack = []) →
          s.stack.countP Activation.dispatches ≤ 1 →
          (next ++ rest).countP Activation.dispatches ≤ 1) := by
    obtain ⟨hdelivery, hcount⟩ := hnext.replace ha rest
    rw [← hstack] at hdelivery hcount
    exact ⟨happ, hdelivery, fun _ hone => hcount.trans hone⟩
  cases step_cases h with
  | call hcallable hcall => exact ⟨(call_keepsReceived hcall).appends hwf, rfl, fun _ => id⟩
  | poll callback timeout hcallable =>
    obtain ⟨hnone, hcount⟩ := poll_enters s.impl callback timeout
    refine ⟨(poll_keepsReceived _ _ _).appends hwf, ?_, fun hpoll hone => ?_⟩
    · rw [delivery, List.findSome?_append, hnone]
      rfl
    · rw [List.countP_append]
      cases callback with
      | false =>
        simp only [Bool.toNat_false] at hcount
        omega
      | true => simpa [hpoll timeout rfl] using hcount
  | destroy hnil =>
    refine ⟨(WebSocketImpl.close_keepsReceived _).appends hwf, ?_, fun _ _ => Nat.zero_le _⟩
    rw [delivery, delivery, hnil]
    rfl
  | connect expired v hstack =>
    exact hnext hstack rfl (.nil _)
      ((WebSocketImpl.processConnection_keepsReceived _ _ _).appends hwf)
  | receive hstack hr =>
    exact hnext hstack rfl (receiveIteration_enters _ _ _)
      (WebSocketImpl.receiveIteration_appends hwf _ hr)
  | transmit hstack hr =>
    exact hnext hstack rfl (transmitIteration_enters _ _ _)
      ((WebSocketImpl.transmitIteration_keepsReceived _ _ _).appends hwf)
  | dispatch key => exact absurd rfl (hdispatch key)
  | ret => exact absurd rfl hret
  | destroyLoop timedOut hstack hchoice hes =>
    have hkeeps : KeepsReceived s.impl s.impl es' := by
      rcases hes with rfl | rfl <;> exact ⟨rfl, rfl, rfl, rfl⟩
    refine hnext hstack rfl ?_ (hkeeps.appends hwf)
    rcases hchoice with rfl | rfl | rfl
    · exact ⟨rfl, Nat.zero_le _⟩
    · exact ⟨rfl, Nat.zero_le _⟩
    · obtain ⟨hnone, hcount⟩ := poll_enters s.impl false 1
      refine ⟨by rw [List.findSome?_append, hnone]; rfl, ?_⟩
      rw [List.countP_append]
      exact hcount

/-- What a step is to the frame loop: an iteration of it, the return of its callback, or neither. -/
inductive FrameLoopStep (s : Session) : Input → Session → List Event → Prop
  | dispatch {rest} (key : MaskingKey) (hs : s.stack = .dispatching :: rest) :
    FrameLoopStep s (.dispatch key)
      ⟨(s.impl.dispatchIteration key).1, (s.impl.dispatchIteration key).2.1.next ++ rest⟩
      (s.impl.dispatchIteration key).2.2
  | ret {frameSize clear rest} (hs : s.stack = .delivering frameSize clear :: rest) :
    FrameLoopStep s .ret ⟨(s.impl.finishDelivery frameSize clear).1, .dispatching :: rest⟩
      (s.impl.finishDelivery frameSize clear).2
  | other {j : Input} {u : Session} {es : List Event} (hdispatch : ∀ key, j ≠ .dispatch key)
    (hret : j ≠ .ret) : FrameLoopStep s j u es

theorem step_frameLoop (h : s.step i = some (t, es')) : FrameLoopStep s i t es' := by
  cases step_cases h with
  | dispatch key hstack => exact .dispatch key hstack
  | ret hstack => exact .ret hstack
  | call _ hcall =>
    refine .other (fun key hi => ?_) fun hi => ?_ <;>
    · subst hi
      cases hcall
  | _ => exact .other (by simp) (by simp)

/-- What a step does to the frames that were processed. -/
theorem step_received (hs : Received es fs s) (h : s.step i = some (t, es'))
    (hpoll : ∀ timeout, i = .poll true timeout → s.stack = [])
    (hdispatch : ∀ key, i = .dispatch key →
      ¬s.impl.Overflows ∧ ∀ n, .refused .fragment n ∉ es') :
    ∃ gs, Received (es ++ es') (fs ++ gs) t := by
  cases step_frameLoop h with
  | dispatch key hstack =>
    obtain ⟨hover, hno⟩ := hdispatch key rfl
    cases WebSocketImpl.dispatchIteration_frames hs.receive_wf hs.data_wf hover key hno with
    | settled _ hflow _ hkeeps =>
      obtain ⟨hdelivery, hcount⟩ := (Enters.nil _).replace (a := .dispatching) rfl _
      rw [hflow]
      exact ⟨[], (List.append_nil fs).symm ▸ hs.of_appends (hkeeps.appends hs.receive_wf)
        (hdelivery.trans (hstack ▸ rfl)) (hcount.trans (hstack ▸ hs.single))⟩
    | frame hp hop _ hwf hint hflow => exact ⟨_, hs.frame hstack hp hop hwf hint hflow⟩
  | ret hstack => exact ⟨[], (List.append_nil fs).symm ▸ hs.ret hstack⟩
  | other hd hr =>
    obtain ⟨happ, hdelivery, hcount⟩ := step_appends hs.receive_wf h hd hr
    exact ⟨[], (List.append_nil fs).symm ▸ hs.of_appends happ hdelivery (hcount hpoll hs.single)⟩

end Session

end WsClient
