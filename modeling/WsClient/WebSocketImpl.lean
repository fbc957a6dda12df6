import Mathlib.Tactic.Common
import WsClient.Frame

/-!
# The connection object

`WebSocketImpl` with its three buffers, the functions that queue frames (`sendData`, `close` and
the calls of the interface built on them) and the body of the frame loop of `_dispatchBinary`.
Every function returns the new object together with the events an observer of the object sees:
what was read where, what was queued, delivered and consumed.

The callback of `_dispatchBinary` may call back into the object. One iteration of the loop
therefore ends where `receiveMessage` is called, and `finishDelivery` is the rest of it.

## Main definitions

* `ReadyState`, `ConnectionPhase`, `Event`, `WebSocketImpl`.
* `WebSocketImpl.sendData`, `WebSocketImpl.close`, `WebSocketImpl.sendText`,
  `WebSocketImpl.sendBinary`, `WebSocketImpl.sendPing`.
* `WebSocketImpl.dispatchIteration`, `WebSocketImpl.finishDelivery`: one iteration of the frame
  loop.

## Main results

* `WebSocketImpl.dispatchData_step`, `WebSocketImpl.dispatchIteration_cases`: everything that the
  branch for data frames and an iteration can do.
-/

namespace WsClient

/-- `ReadyStateValues`. -/
inductive ReadyState
  | closing
  | closed
  | connecting
  | opened
  deriving DecidableEq, Repr

/-- `ConnectionPhase`. -/
inductive ConnectionPhase
  | httpStatus
  | hconnectionUpgrade
  | hsecWebsocketAccept
  | hserverWebsocket
  | hupgradeWebsocket
  | h
  | serverClientStrings
  deriving DecidableEq, Repr

/-- What a call that appends to a buffer, or reserves room in it, is for. -/
inductive BufferUse
  /-- The header of an outgoing frame. -/
  | header
  /-- The payload of an outgoing frame, with the key it is masked with once it is queued. -/
  | payload (key : Option MaskingKey)
  | closeFrame
  /-- Room for the next read from the socket. -/
  | receive
  /-- A part of a message that is not complete yet. -/
  | fragment
  deriving DecidableEq

/-- How `_dispatchBinary` touches received bytes. -/
inductive Access
  | header
  | unmask
  | deliver
  | append
  | answer
  deriving DecidableEq, Repr

/-- The result of `Wsocket::receive`. -/
inductive RecvResult
  /-- A positive result, with the bytes stored. -/
  | data (bytes : Bytes)
  /-- The result zero. -/
  | endOfStream
  /-- A negative result while the socket would block or is in progress. -/
  | wouldBlock
  /-- Any other negative result. -/
  | error
  deriving DecidableEq

/-- The result of `Wsocket::send`. -/
inductive SendResult
  /-- A positive result, the number of bytes accepted. -/
  | accepted (n : ℕ)
  /-- The result zero. -/
  | zero
  /-- A negative result while the socket would block or is in progress. -/
  | wouldBlock
  /-- Any other negative result. -/
  | error
  deriving DecidableEq

/-- What can be observed of a step. -/
inductive Event
  /-- Bytes of the receive buffer were touched, at an offset from the pointer of `getData`. -/
  | access (how : Access) (offset length : ℕ)
  /-- A header was read at the front of `dataLen` received bytes. -/
  | parsed (ws : WsHeader) (dataLen : ℕ)
  /-- `receiveMessage` was called. -/
  | receiveMessage (data : Bytes) (isAscii : Bool)
  /-- `consume` was called on the receive buffer. -/
  | consumed (n : ℕ)
  /-- `sendData` was called in the given ready state. -/
  | sendData (state : ReadyState) (type : Opcode) (messageData : Bytes) (key : MaskingKey)
  /-- `close` was called in the given ready state. -/
  | closeCall (state : ReadyState)
  /-- A buffer accepted the data. -/
  | added (use : BufferUse) (data : Bytes)
  /-- A buffer had no room and did not grow. -/
  | refused (use : BufferUse) (length : ℕ)
  /-- The receive loop stored bytes of the socket in the receive buffer. -/
  | received (data : Bytes)
  /-- The receive loop got the end of the stream or an error. -/
  | receiveFailed (r : RecvResult)
  /-- The transmit loop handed the content of the transmit buffer to the socket. -/
  | transmit (data : Bytes) (r : SendResult)
  /-- `processConnection` read one byte. -/
  | handshakeByte (b : UInt8)
  /-- A line of the handshake was handed to the socket. -/
  | handshakeSend (line : Bytes)
  /-- The handshake completed and the connection became `OPEN`. -/
  | handshakeDone
  | socketClose
  | socketRelease
  | nullSelect (timeout : ℤ)
  deriving DecidableEq

/-- The fields of `WebSocketImpl`, and the byte order of its machine. -/
structure WebSocketImpl where
  mReceiveBuffer : SimpleBuffer
  mTransmitBuffer : SimpleBuffer
  mReceivedData : SimpleBuffer
  /-- Whether the pointer to the socket is not null. -/
  mSocket : Bool
  mReadyState : ReadyState
  mUseMask : Bool
  /-- We are a server and this is a connection to a remote client. -/
  mIsServerClient : Bool
  mConnectionIndex : ℕ
  /-- The characters of the connection buffer, as many of them as are in use. -/
  mConnectionBuffer : ℕ → UInt8
  mConnectionPhase : ConnectionPhase
  isBigEndian : Bool

namespace WebSocketImpl

variable (w : WebSocketImpl)

/-- Update the receive buffer. -/
@[simps] def setReceive (b : SimpleBuffer) : WebSocketImpl := { w with mReceiveBuffer := b }

/-- Update the transmit buffer. -/
@[simps] def setTransmit (b : SimpleBuffer) : WebSocketImpl := { w with mTransmitBuffer := b }

/-- Update the accumulated data. -/
@[simps] def setReceivedData (b : SimpleBuffer) : WebSocketImpl := { w with mReceivedData := b }

/-- Assign the ready state. -/
@[simps] def setReadyState (state : ReadyState) : WebSocketImpl := { w with mReadyState := state }

@[simp] theorem setTransmit_setTransmit (b b' : SimpleBuffer) :
    (w.setTransmit b).setTransmit b' = w.setTransmit b' := rfl

@[simp] theorem setTransmit_self : w.setTransmit w.mTransmitBuffer = w := rfl

/-! ### Queuing frames -/

/-- `mTransmitBuffer->addBuffer`, whose result the callers ignore. -/
def addTransmit (use : BufferUse) (data : Bytes) (dataLen : ℕ) : WebSocketImpl × List Event :=
  let r := w.mTransmitBuffer.addBuffer (some data) dataLen
  (w.setTransmit r.1, [if r.2 then .added use data else .refused use dataLen])

/-- Mask the last `messageSize` bytes of the transmit buffer in place. -/
def maskTransmit (messageSize : ℕ) (maskingKey : MaskingKey) : WebSocketImpl :=
  let messageOffset := sub32 w.mTransmitBuffer.getSize messageSize
  w.setTransmit
    (w.mTransmitBuffer.xorData w.isBigEndian messageOffset messageSize maskingKey)

/-- The part of `sendData` after the header: queue the payload and mask it in place. The message
data is a null pointer or points to `u32 messageSize` bytes. -/
def queuePayload (messageData : Option Bytes) (messageSize : ℕ) (maskingKey : MaskingKey) :
    WebSocketImpl × List Event :=
  let r := match messageData with
    | some d =>
      w.addTransmit (.payload (if w.mUseMask then some maskingKey else none)) d (u32 messageSize)
    | none => (w, [])
  (if w.mUseMask then r.1.maskTransmit (u32 messageSize) maskingKey else r.1, r.2)

/-- Queue a frame. -/
def sendData (type : Opcode) (messageData : Option Bytes) (messageSize : ℕ)
    (maskingKey : MaskingKey) : WebSocketImpl × List Event :=
  let called := Event.sendData w.mReadyState type (messageData.getD []) maskingKey
  if w.mReadyState = .closing ∨ w.mReadyState = .closed then (w, [called])
  else
    let header := frameHeader w.mUseMask type messageSize maskingKey
    let r := w.addTransmit .header header header.length
    let r' := r.1.queuePayload messageData messageSize maskingKey
    (r'.1, called :: (r.2 ++ r'.2))

/-- The text at a character pointer ends before the first NUL. -/
def cString (s : Bytes) : Bytes := s.takeWhile (· != 0)

/-- Send a text message; the string may be a null pointer. -/
def sendText (str : Option Bytes) (maskingKey : MaskingKey) : WebSocketImpl × List Event :=
  let text := str.map cString
  w.sendData .textFrame text (text.getD []).length maskingKey

/-- Send a binary message; the data may be a null pointer of length zero. -/
def sendBinary (data : Option Bytes) (maskingKey : MaskingKey) : WebSocketImpl × List Event :=
  w.sendData .binaryFrame data (data.getD []).length maskingKey

/-- Ping the peer. -/
def sendPing (maskingKey : MaskingKey) : WebSocketImpl × List Event :=
  w.sendData .ping none 0 maskingKey

/-- The six bytes of the close frame; the last four are a masking key. -/
def closeFrame : Bytes := [0x88, 0x80, 0, 0, 0, 0]

/-- Close the connection. -/
def close : WebSocketImpl × List Event :=
  if w.mReadyState = .closing ∨ w.mReadyState = .closed then (w, [.closeCall w.mReadyState])
  else
    let r := (w.setReadyState .closing).addTransmit .closeFrame closeFrame closeFrame.length
    (r.1, .closeCall w.mReadyState :: r.2)

/-! ### The frame loop -/

/-- How an iteration of the frame loop goes on. -/
inductive Flow
  /-- The loop is left. -/
  | stop
  /-- The loop goes on with the next frame. -/
  | again
  /-- `receiveMessage` is called. When it returns the accumulated data is cleared, if so marked,
  and `frameSize` bytes are consumed. -/
  | deliver (frameSize : ℕ) (clear : Bool)
  deriving DecidableEq, Repr

/-- `fastXOR` on the payload of a masked frame, in the receive buffer. -/
def unmaskPayload (ws : WsHeader) : WebSocketImpl × List Event :=
  if ws.mask then
    (w.setReceive (w.mReceiveBuffer.xorData w.isBigEndian ws.headerSize (u32 ws.N) ws.maskingKey),
      [.access .unmask ws.headerSize (u32 ws.N)])
  else (w, [])

/-- The payload of the frame, in the receive buffer. -/
def payload (ws : WsHeader) : Bytes := w.mReceiveBuffer.slice ws.headerSize (u32 ws.N)

/-- `mReceiveBuffer->consume`. -/
def consumeFrame (frameSize : ℕ) : WebSocketImpl × List Event :=
  (w.setReceive (w.mReceiveBuffer.consume frameSize), [.consumed frameSize])

/-- The rest of an iteration after `receiveMessage` returned. -/
def finishDelivery (frameSize : ℕ) (clear : Bool) : WebSocketImpl × List Event :=
  (if clear then w.setReceivedData w.mReceivedData.clear else w).consumeFrame frameSize

/-- Add the payload to the data that is accumulated; whether there was room for it is ignored. -/
def appendFragment (ws : WsHeader) : WebSocketImpl × List Event :=
  let a := w.mReceivedData.addBuffer (some (w.payload ws)) (u32 ws.N)
  (w.setReceivedData a.1,
    [.access .append ws.headerSize (u32 ws.N),
      if a.2 then .added .fragment (w.payload ws) else .refused .fragment (u32 ws.N)])

/-- Deliver the accumulated data if the message is complete. -/
def deliverAccumulated (ws : WsHeader) : WebSocketImpl × Flow × List Event :=
  if ws.fin then
    if w.mReceivedData.getSize ≠ 0 then
      (w, .deliver ws.frameSize true,
        [.receiveMessage w.mReceivedData.getData (ws.opcode == .textFrame)])
    else ((w.finishDelivery ws.frameSize true).1, .again, (w.finishDelivery ws.frameSize true).2)
  else ((w.consumeFrame ws.frameSize).1, .again, (w.consumeFrame ws.frameSize).2)

/-- Deliver the payload from the receive buffer, without a copy. -/
def deliverDirectly (ws : WsHeader) : WebSocketImpl × Flow × List Event :=
  (w, .deliver ws.frameSize false,
    [.access .deliver ws.headerSize (u32 ws.N),
      .receiveMessage (w.payload ws) (ws.opcode == .textFrame)])

/-- The branch for text, binary and continuation frames. -/
def dispatchData (ws : WsHeader) : WebSocketImpl × Flow × List Event :=
  let r := w.unmaskPayload ws
  if ws.fin && r.1.mReceivedData.getSize == 0 then
    let c := r.1.deliverDirectly ws
    (c.1, c.2.1, r.2 ++ c.2.2)
  else
    let a := r.1.appendFragment ws
    let c := a.1.deliverAccumulated ws
    (c.1, c.2.1, r.2 ++ a.2 ++ c.2.2)

/-- The branch for `PING`. -/
def dispatchPing (ws : WsHeader) (maskingKey : MaskingKey) : WebSocketImpl × Flow × List Event :=
  let r := w.unmaskPayload ws
  let pingData := if ws.N ≠ 0 then some (r.1.payload ws) else none
  let s := r.1.sendData .pong pingData ws.N maskingKey
  let c := s.1.consumeFrame ws.frameSize
  (c.1, .again,
    r.2 ++ (if ws.N ≠ 0 then [.access .answer ws.headerSize (u32 ws.N)] else []) ++ s.2 ++ c.2)

/-- What the loop does with a frame that passed the length check. -/
def dispatchFrame (ws : WsHeader) (maskingKey : MaskingKey) : WebSocketImpl × Flow × List Event :=
  match ws.opcode with
  | .textFrame | .binaryFrame | .continuation => w.dispatchData ws
  | .ping => w.dispatchPing ws maskingKey
  | .pong =>
    let c := w.consumeFrame ws.frameSize
    (c.1, .again, c.2)
  | .close | .reserved _ =>
    let c := w.close
    (c.1, .stop, c.2)

/-- One iteration of the frame loop of `_dispatchBinary`, up to the call of `receiveMessage` if
there is one. `poll` enters the loop only with a callback that is not null. The masking key is
the one that is drawn if the iteration queues a frame. -/
def dispatchIteration (maskingKey : MaskingKey) : WebSocketImpl × Flow × List Event :=
  let dataLen := w.mReceiveBuffer.getSize
  let reads := (readHeader w.mReceiveBuffer.byteAt dataLen).2.map fun i => Event.access .header i 1
  match (readHeader w.mReceiveBuffer.byteAt dataLen).1 with
  | none => (w, .stop, reads)
  | some ws =>
    if dataLen < ws.frameSize then (w, .stop, reads ++ [.parsed ws dataLen])
    else
      let r := w.dispatchFrame ws maskingKey
      (r.1, r.2.1, reads ++ .parsed ws dataLen :: r.2.2)

/-! ### What an iteration can do -/

variable {w} {ws : WsHeader} {key : MaskingKey}

theorem dispatchFrame_of_isStop (h : ws.opcode.isStop = true) :
    w.dispatchFrame ws key = (w.close.1, .stop, w.close.2) := by
  unfold dispatchFrame
  cases hop : ws.opcode <;> first | rfl | simp [hop, Opcode.isStop] at h

theorem dispatchFrame_of_isData (h : ws.opcode.isData = true) :
    w.dispatchFrame ws key = w.dispatchData ws := by
  unfold dispatchFrame
  cases hop : ws.opcode <;> first | rfl | simp [hop, Opcode.isData] at h

/-- What the branch for data frames does once the payload is unmasked. -/
inductive DataStep (w : WebSocketImpl) (ws : WsHeader) :
    WebSocketImpl × Flow × List Event → Prop
  /-- An unfragmented message. -/
  | direct (hfin : ws.fin = true) (hempty : w.mReceivedData.getSize = 0) :
    DataStep w ws (w, .deliver ws.frameSize false,
      [.access .deliver ws.headerSize (u32 ws.N),
        .receiveMessage (w.payload ws) (ws.opcode == .textFrame)])
  /-- The last fragment of a message. -/
  | last (hfin : ws.fin = true)
    (hsize : (w.appendFragment ws).1.mReceivedData.getSize ≠ 0)
    (hmore : w.mReceivedData.getSize ≠ 0) :
    DataStep w ws ((w.appendFragment ws).1, .deliver ws.frameSize true,
      (w.appendFragment ws).2 ++
        [.receiveMessage (w.appendFragment ws).1.mReceivedData.getData (ws.opcode == .textFrame)])
  /-- The last fragment of a message, and nothing to deliver. -/
  | nothing (hfin : ws.fin = true)
    (hsize : (w.appendFragment ws).1.mReceivedData.getSize = 0)
    (hmore : w.mReceivedData.getSize ≠ 0) :
    DataStep w ws (((w.appendFragment ws).1.finishDelivery ws.frameSize true).1, .again,
      (w.appendFragment ws).2 ++ [.consumed ws.frameSize])
  /-- A fragment that others follow. -/
  | fragment (hfin : ws.fin = false) :
    DataStep w ws (((w.appendFragment ws).1.consumeFrame ws.frameSize).1, .again,
      (w.appendFragment ws).2 ++ [.consumed ws.frameSize])

/-- The inversion of `dispatchData`. -/
theorem dispatchData_step (w : WebSocketImpl) (ws : WsHeader) :
    ∃ es, (w.dispatchData ws).2.2 = (w.unmaskPayload ws).2 ++ es ∧
      DataStep (w.unmaskPayload ws).1 ws ((w.dispatchData ws).1, (w.dispatchData ws).2.1, es) := by
  unfold dispatchData
  simp only
  generalize w.unmaskPayload ws = r
  cases hfin : ws.fin with
  | false =>
    simp only [Bool.false_and, Bool.false_eq_true, if_false, deliverAccumulated, hfin,
      List.append_assoc]
    exact ⟨_, rfl, .fragment hfin⟩
  | true =>
    by_cases hempty : r.1.mReceivedData.getSize = 0
    · simp only [hempty, Bool.true_and, beq_self_eq_true, if_true]
      exact ⟨_, rfl, .direct hfin hempty⟩
    · have hbeq : (r.1.mReceivedData.getSize == 0) = false := by simpa using hempty
      simp only [hbeq, Bool.and_false, Bool.false_eq_true, if_false, deliverAccumulated, hfin,
        if_true, List.append_assoc]
      by_cases hsize : (r.1.appendFragment ws).1.mReceivedData.getSize = 0
      · rw [if_neg (not_not.mpr hsize)]
        exact ⟨_, rfl, .nothing hfin hsize hempty⟩
      · rw [if_pos hsize]
        exact ⟨_, rfl, .last hfin hsize hempty⟩

/-- An iteration finds no frame that passes the length check and leaves the loop, or it acts on
the frame at the front of the received bytes. -/
theorem dispatchIteration_cases (w : WebSocketImpl) (key : MaskingKey) :
    ∃ reads : List ℕ, (∀ i ∈ reads, i < w.mReceiveBuffer.getSize) ∧
      ((∃ es : List Event, (∀ e ∈ es, ∃ ws n, e = .parsed ws n) ∧
          w.dispatchIteration key =
            (w, .stop, (reads.map fun i => .access .header i 1) ++ es) ∧
          (w.mReceiveBuffer.getSize < (headerOf w.mReceiveBuffer.byteAt).headerSize ∨
            w.mReceiveBuffer.getSize < (headerOf w.mReceiveBuffer.byteAt).frameSize)) ∨
        ∃ ws, ws = headerOf w.mReceiveBuffer.byteAt ∧
          ws.headerSize ≤ w.mReceiveBuffer.getSize ∧ ws.frameSize ≤ w.mReceiveBuffer.getSize ∧
          w.dispatchIteration key =
            ((w.dispatchFrame ws key).1, (w.dispatchFrame ws key).2.1,
              (reads.map fun i => .access .header i 1) ++
                .parsed ws w.mReceiveBuffer.getSize :: (w.dispatchFrame ws key).2.2)) := by
  have hpos := headerSize_pos w.mReceiveBuffer.byteAt
  unfold dispatchIteration
  simp only
  rcases hread : readHeader w.mReceiveBuffer.byteAt w.mReceiveBuffer.getSize with ⟨_ | ws, reads⟩
  · refine ⟨reads, readHeader_none hread, .inl ⟨[], by simp, by simp, .inl ?_⟩⟩
    unfold readHeader at hread
    split_ifs at hread with h2 hsize
    · omega
    · exact hsize
    · cases hread
  · obtain ⟨rfl, rfl, hsize⟩ := readHeader_some hread
    have hreads (i : ℕ) (hi : i ∈ headerReads (headerOf w.mReceiveBuffer.byteAt)) :
        i < w.mReceiveBuffer.getSize := (lt_of_mem_headerReads hi).trans_le hsize
    refine ⟨_, hreads, ?_⟩
    simp only
    split_ifs with hshort
    · exact .inl ⟨_, by simp, rfl, .inr hshort⟩
    · exact .inr ⟨_, rfl, hsize, Nat.le_of_not_lt hshort, rfl⟩

end WebSocketImpl

end WsClient
