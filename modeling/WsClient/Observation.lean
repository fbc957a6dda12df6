import WsClient.Session
import WsClient.WireFormat

/-!
# What the events of a run show

Projections of events: the bytes a connection takes from its socket and gives to it, what its
transmit buffer accepts, the frames it is asked to send, and what it delivers.

## Main definitions

* `Event.receivedBytes`, `Event.acceptedBytes`: the bytes that go through the socket past the
  handshake.
* `Event.takenBytes`, `Event.givenBytes`: all bytes that go through the socket.
* `Event.queuedBytes`, `Event.issuedBytes`: the bytes that the transmit buffer accepts, and the
  frames that the calls stand for.
* `Output`, `Event.outputs`: delivered messages and answers to `PING`.
* `ReadyState.rank`: the order of the ready states.
-/

namespace WsClient

/-- What `_dispatchBinary` makes of the frames. -/
inductive Output
  | message (data : Bytes) (isAscii : Bool)
  | pong (payload : Bytes)
  deriving DecidableEq

namespace ReadyState

/-- The position in the order `CONNECTING`, `OPEN`, `CLOSING`, `CLOSED`. -/
def rank : ReadyState → ℕ
  | connecting => 0
  | opened => 1
  | closing => 2
  | closed => 3

@[simp] theorem rank_connecting : connecting.rank = 0 := rfl

@[simp] theorem rank_opened : opened.rank = 1 := rfl

@[simp] theorem rank_closing : closing.rank = 2 := rfl

@[simp] theorem rank_closed : closed.rank = 3 := rfl

@[simp] theorem rank_le_three (s : ReadyState) : s.rank ≤ 3 := by cases s <;> simp

/-- `sendData` and `close` do nothing in these states. -/
theorem two_le_rank {s : ReadyState} : 2 ≤ s.rank ↔ s = closing ∨ s = closed := by
  cases s <;> simp

end ReadyState

namespace Input

/-- The frame that a call of the interface asks for: its opcode, its payload, and the key that is
drawn for it. -/
def frame : Input → Option (Opcode × Bytes × MaskingKey)
  | .sendText str key => some (.textFrame, (str.map WebSocketImpl.cString).getD [], key)
  | .sendBinary data key => some (.binaryFrame, data.getD [], key)
  | .sendPing key => some (.ping, [], key)
  | _ => none

/-- The payload that a call of the interface passes to `sendData`. -/
def payload (i : Input) : Bytes := (i.frame.map fun f => f.2.1).getD []

theorem frame_ne_reserved {i : Input} {type : Opcode} {d : Bytes} {key : MaskingKey}
    (h : i.frame = some (type, d, key)) (n : ℕ) : type ≠ .reserved n := by
  rintro rfl
  cases i <;> simp [frame] at h

end Input

/-- A call of the interface queues a frame or closes the connection. -/
theorem WebSocketImpl.call_cases {w : WebSocketImpl} {i : Input} {r : WebSocketImpl × List Event}
    (h : w.call i = some r) :
    (∃ type data key, i.frame = some (type, data.getD [], key) ∧
        r = w.sendData type data (data.getD []).length key) ∨
      i = .close ∧ r = w.close := by
  cases i with
  | sendText str key => exact .inl ⟨_, _, key, rfl, (Option.some.inj h).symm⟩
  | sendBinary data key => exact .inl ⟨_, data, key, rfl, (Option.some.inj h).symm⟩
  | sendPing key => exact .inl ⟨_, none, key, rfl, (Option.some.inj h).symm⟩
  | close => exact .inr ⟨rfl, (Option.some.inj h).symm⟩
  | _ => cases h

namespace Event

/-- The bytes that the receive loop got from the socket. -/
def receivedBytes : Event → Bytes
  | .received d => d
  | _ => []

/-- The bytes of the transmit buffer that the socket accepted. -/
def acceptedBytes : Event → Bytes
  | .transmit data (.accepted n) => data.take n
  | _ => []

/-- All bytes that were read from the socket. -/
def takenBytes : Event → Bytes
  | .received d => d
  | .handshakeByte b => [b]
  | _ => []

/-- All bytes that the socket was given and accepted, where a line of the handshake is accepted
whole. -/
def givenBytes : Event → Bytes
  | .transmit data (.accepted n) => data.take n
  | .handshakeSend line => line
  | _ => []

/-- The bytes that the transmit buffer accepted, a masked payload as it is after masking. -/
def queuedBytes : Event → Bytes
  | .added .header d => d
  | .added (.payload key) d => applyMask key d
  | .added .closeFrame d => d
  | _ => []

/-- The frame that a call of `sendData` or `close` stands for: nothing when the connection is
closing or closed. -/
def issuedBytes (useMask : Bool) : Event → Bytes
  | .sendData state type d key =>
    if 2 ≤ state.rank then [] else encodeFrame (if useMask then some key else none) type d
  | .closeCall state => if 2 ≤ state.rank then [] else WebSocketImpl.closeFrame
  | _ => []

/-- Delivered messages, and the payloads of `PONG` frames. -/
def outputs : Event → List Output
  | .receiveMessage d isAscii => [.message d isAscii]
  | .sendData _ .pong d _ => [.pong d]
  | _ => []

/-- A buffer did not grow for a request. -/
def isRefusal : Event → Bool
  | .refused _ _ => true
  | _ => false

/-- The transmit buffer refused a part of a frame. -/
def isTransmitRefusal : Event → Bool
  | .refused .header _ | .refused (.payload _) _ | .refused .closeFrame _ => true
  | _ => false

/-- The transmit buffer refused a payload that `sendData` then masks all the same. -/
def isMaskedRefusal : Event → Bool
  | .refused (.payload (some _)) _ => true
  | _ => false

/-- The transmit buffer accepted bytes. -/
def isQueued : Event → Bool
  | .added .header _ | .added (.payload _) _ | .added .closeFrame _ => true
  | _ => false

/-- The transmit buffer accepted the close frame. -/
def isCloseFrame : Event → Bool
  | .added .closeFrame _ => true
  | _ => false

/-- A header that was read announces a frame of fewer than `bound` bytes. -/
def ParsedBelow (bound : ℕ) : Event → Prop
  | .parsed ws _ => ws.headerSize + ws.N < bound
  | _ => True

instance (bound : ℕ) : DecidablePred (ParsedBelow bound) := fun e => by
  cases e <;> unfold ParsedBelow <;> infer_instance

/-- The event does not concern the transmit buffer. -/
def isQuiet : Event → Bool
  | .sendData .. | .closeCall _ | .added .header _ | .added (.payload _) _ | .added .closeFrame _
  | .refused .header _ | .refused (.payload _) _ | .refused .closeFrame _ | .transmit .. => false
  | _ => true

variable {e : Event}

theorem isTransmitRefusal_of_isMaskedRefusal (h : e.isTransmitRefusal = false) :
    e.isMaskedRefusal = false := by
  cases e <;> try rfl
  rename_i use _
  cases use <;> first | rfl | cases h

theorem isTransmitRefusal_of_isRefusal (h : e.isRefusal = false) :
    e.isTransmitRefusal = false := by
  cases e <;> first | rfl | cases h

theorem isMaskedRefusal_of_isQuiet (h : e.isQuiet) : e.isMaskedRefusal = false := by
  cases e <;> try rfl
  rename_i use _
  cases use <;> first | rfl | cases h

theorem acceptedBytes_of_isQuiet (h : e.isQuiet) : e.acceptedBytes = [] := by
  cases e <;> first | rfl | cases h

theorem queuedBytes_of_isQuiet (h : e.isQuiet) : e.queuedBytes = [] := by
  cases e <;> try rfl
  rename_i use _
  cases use <;> first | rfl | cases h

theorem issuedBytes_of_isQuiet (h : e.isQuiet) (useMask : Bool) : e.issuedBytes useMask = [] := by
  cases e <;> first | rfl | cases h

theorem isQueued_of_isQuiet (h : e.isQuiet) : e.isQueued = false := by
  cases e <;> try rfl
  rename_i use _
  cases use <;> first | rfl | cases h

theorem isQueued_of_isCloseFrame (h : e.isCloseFrame) : e.isQueued := by
  cases e <;> try cases h
  rename_i use _
  cases use <;> first | rfl | cases h

end Event

end WsClient
