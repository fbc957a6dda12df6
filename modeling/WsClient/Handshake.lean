import WsClient.Library.CString
import WsClient.Library.Lines
import WsClient.SenderRuns

/-!
# The handshake as a reader of lines

`processConnection` stores one byte of the handshake at a time in `mConnectionBuffer`, cuts the end
of a line off with NULs and looks at the C string that is left. Whatever the buffer held before,
the object is a reader of lines: its phase and the part of the line read so far determine what it
does, and the lines are terminated by LF with at most one CR before it.

## Main definitions

* `stripCR`, `lineText`: what a line says.
* `handshakeReader`: the reader of lines of a client and of a server.
* `LineAt`, `WebSocketImpl.At`: the object is at a part of a line, and what it is at.
* `handshakeBytes`, `handshakeSends`: what a run has read and sent for the handshake.
* `Session.Patient`: the guard on the handshake: its time is not over, and `close` does not run.
* `Session.Handshaking`: the invariant.

## Main results

* `WebSocketImpl.processConnection_at`: one byte.
* `Session.step_handshaking`, `Session.run_handshaking`: steps and runs.
-/

namespace WsClient

/-! ### Lines -/

/-- A line without the CR before its LF. -/
def stripCR (line : Bytes) : Bytes := if line.getLast? = some 0x0D then line.dropLast else line

/-- The C string that `processConnection` finds in a line. -/
def lineText (line : Bytes) : Bytes := WebSocketImpl.cString (stripCR line)

theorem lineText_eq {line : Bytes} (h : 0 ∉ line) : lineText line = stripCR line := by
  have hmem : ∀ c ∈ stripCR line, c ∈ line := by
    unfold stripCR
    split
    · exact fun c hc => List.mem_of_mem_dropLast hc
    · exact fun c hc => hc
  refine List.takeWhile_eq_self_iff.mpr fun c hc => ?_
  simpa using ne_of_mem_of_not_mem (hmem c hc) h

/-- The lines that a client and a server read, by the phase of the connection. -/
def handshakeReader (isServer : Bool) : LineReader ConnectionPhase UInt8 where
  terminator := 0x0A
  maxLen := 255
  next phase line :=
    match phase with
    | .serverClientStrings => if lineText line = [] then .inr true else .inl .serverClientStrings
    | .httpStatus =>
      if isServer then
        if lineText line = ascii "GET / HTTP/1.1" then .inl .serverClientStrings else .inr false
      else if WebSocketImpl.statusOk (lineText line) then .inl .hconnectionUpgrade else .inr false
    | .hconnectionUpgrade => .inl .hsecWebsocketAccept
    | .hsecWebsocketAccept => .inl .hserverWebsocket
    | .hserverWebsocket => .inl .hupgradeWebsocket
    | .hupgradeWebsocket => .inl .h
    | .h => .inr true

/-- What is sent behind a line. -/
def answerTo (isServer : Bool) (phase : ConnectionPhase) (line : Bytes) : List Bytes :=
  if isServer = true ∧ phase = .httpStatus ∧ lineText line = ascii "GET / HTTP/1.1" then
    responseLines
  else []

/-! ### The connection buffer -/

/-- The connection buffer holds a part of a line, and the index is behind it. -/
structure LineAt (w : WebSocketImpl) (cs : Bytes) : Prop where
  index : w.mConnectionIndex = cs.length
  length_lt : cs.length < 255
  chars : ∀ i (h : i < cs.length), w.mConnectionBuffer i = cs[i]

namespace WebSocketImpl

variable {w : WebSocketImpl} {line : Bytes} {c : UInt8} {isServer : Bool}
  {phase : ConnectionPhase}

/-- The C string that is left when the end of a line is cut off. -/
theorem cString_cutLine {b : ℕ → UInt8} {cs : Bytes} (hlen : cs.length < 255)
    (hchars : ∀ i (h : i < cs.length), b i = cs[i]) :
    cString ((List.range 256).map (cutLine b cs.length)) = lineText cs := by
  unfold cutLine lineText stripCR
  have hlast : 0 < cs.length → cs.getLast? = some (b (cs.length - 1)) := fun h => by
    rw [List.getLast?_eq_getElem?, List.getElem?_eq_getElem (by omega),
      hchars _ (by omega)]
  by_cases hcr : cs.length > 0 ∧ b (cs.length - 1) = 0x0D
  · rw [if_pos hcr, if_pos (by rw [hlast hcr.1, hcr.2])]
    refine CString.text_eq_of_stored (by simp; omega) (fun i hi => ?_) (by simp)
    rw [List.length_dropLast] at hi
    rw [Function.update_of_ne (by omega), Function.update_of_ne (by omega),
      hchars i (by omega), List.getElem_dropLast]
  · rw [if_neg hcr, if_neg]
    · refine CString.text_eq_of_stored (by omega) (fun i hi => ?_) (by simp)
      rw [Function.update_of_ne (by omega), hchars i hi]
    · intro hlast'
      have hpos : 0 < cs.length := by
        by_contra hzero
        simp [List.length_eq_zero_iff.mp (by omega : cs.length = 0)] at hlast'
      exact hcr ⟨hpos, Option.some.inj ((hlast hpos).symm.trans hlast')⟩

/-! ### One byte -/

/-- What the object is at in its handshake. -/
def At (isServer : Bool) (w : WebSocketImpl) : LineReader.Reading ConnectionPhase UInt8 → Prop
  | .reading phase line => w.mReadyState = .connecting ∧ w.mSocket = true ∧
      w.mIsServerClient = isServer ∧ w.mConnectionPhase = phase ∧ LineAt w line
  | .accepted => w.mReadyState = .opened
  | .rejected => w.mReadyState = .closed ∧ w.mSocket = false
  | .overrun => False

end WebSocketImpl

/-- The byte that an event reads for the handshake. -/
def Event.handshakeBytes : Event → Bytes
  | .handshakeByte b => [b]
  | _ => []

/-- The line that an event hands to the socket for the handshake. -/
def Event.sentLine : Event → List Bytes
  | .handshakeSend line => [line]
  | _ => []

namespace WebSocketImpl

variable {w : WebSocketImpl} {line : Bytes} {c : UInt8} {isServer : Bool}
  {phase : ConnectionPhase}

/-- What `processLine` does with the string in the connection buffer. -/
theorem processLine_next (hserver : w.mIsServerClient = isServer)
    (hphase : w.mConnectionPhase = phase)
    (htext : w.connectionString = lineText line) :
    (∃ phase', (handshakeReader isServer).next phase line = .inl phase' ∧
      w.processLine =
        (w.setPhase phase', true, (answerTo isServer phase line).map .handshakeSend)) ∨
    ((handshakeReader isServer).next phase line = .inr true ∧
      w.processLine = (w.setReadyState .opened, true, [.handshakeDone]) ∧
      answerTo isServer phase line = []) ∨
    ((handshakeReader isServer).next phase line = .inr false ∧ w.processLine = (w, false, []) ∧
      answerTo isServer phase line = []) := by
  subst hserver hphase
  have hself : w.setPhase w.mConnectionPhase = w := rfl
  simp only [handshakeReader, processLine, htext, answerTo, List.length_eq_zero_iff]
  cases hp : w.mConnectionPhase with
  | serverClientStrings =>
    rw [hp] at hself
    by_cases hempty : lineText line = []
    · simp [hempty, openConnection]
    · simp [hempty, hself]
  | httpStatus =>
    cases hs : w.mIsServerClient with
    | true =>
      by_cases hget : lineText line = ascii "GET / HTTP/1.1"
      · simp [hget]
      · simp [hget]
    | false =>
      by_cases hok : statusOk (lineText line) = true
      · simp [hok]
      · simp [hok]
  | hconnectionUpgrade => simp
  | hsecWebsocketAccept => simp
  | hserverWebsocket => simp
  | hupgradeWebsocket => simp
  | h => simp [openConnection]

/-- One byte of the handshake moves the object as it moves the reader of lines. -/
theorem processConnection_at
    (h : At isServer w (.reading phase line)) (c : UInt8) :
    ∃ es, w.processConnection false (some c) =
        ((w.processConnection false (some c)).1, .handshakeByte c :: es) ∧
      At isServer (w.processConnection false (some c)).1
        ((handshakeReader isServer).readOne (.reading phase line) c) ∧
      (.handshakeDone ∈ es ↔
        (handshakeReader isServer).readOne (.reading phase line) c = .accepted) ∧
      es.flatMap Event.sentLine = (if c = 0x0A then answerTo isServer phase line else []) ∧
      es.flatMap Event.takenBytes = [] := by
  obtain ⟨hstate, hsock, hserver, hphase, hline⟩ := h
  have hpc : w.processConnection false (some c) =
      ((if c = 0x0A then (w.storeChar c).endLine else (w.storeChar c).extendLine).1,
        .handshakeByte c ::
          (if c = 0x0A then (w.storeChar c).endLine else (w.storeChar c).extendLine).2) := by
    simp [processConnection, hsock]
  rw [hpc]
  refine ⟨_, rfl, ?_⟩
  simp only
  have hstored : ∀ i (h : i < line.length),
      Function.update w.mConnectionBuffer w.mConnectionIndex c i = line.get ⟨i, h⟩ := by
    intro i hi
    rw [Function.update_of_ne (by rw [hline.index]; omega), hline.chars i hi, List.get_eq_getElem]
  by_cases hc : c = 0x0A
  · subst hc
    obtain ⟨v, hv⟩ : ∃ v, v = (w.storeChar 0x0A).setConnection
      (cutLine (w.storeChar 0x0A).mConnectionBuffer (w.storeChar 0x0A).mConnectionIndex) 0 :=
      ⟨_, rfl⟩
    have htext : v.connectionString = lineText line := by
      rw [hv]
      change cString ((List.range 256).map (cutLine
        (Function.update w.mConnectionBuffer w.mConnectionIndex 0x0A) w.mConnectionIndex)) = _
      rw [hline.index] at hstored ⊢
      exact cString_cutLine hline.length_lt hstored
    have hfront : LineAt v [] := ⟨hv ▸ rfl, by simp, by simp⟩
    obtain ⟨hstate', hsock', hserver', hphase'⟩ : v.mReadyState = .connecting ∧
        v.mSocket = true ∧ v.mIsServerClient = isServer ∧ v.mConnectionPhase = phase := by
      rw [hv]
      exact ⟨hstate, hsock, hserver, hphase⟩
    rw [if_pos rfl, if_pos rfl, LineReader.readOne,
      if_pos (show (0x0A : UInt8) = (handshakeReader isServer).terminator from rfl)]
    simp only [endLine, ← hv]
    obtain ⟨phase', hnext, hproc⟩ | ⟨hnext, hproc, hans⟩ | ⟨hnext, hproc, hans⟩ :=
      processLine_next hserver' hphase' htext
    · rw [hproc, hnext]
      refine ⟨⟨hstate', hsock', hserver', rfl, hfront.index, hfront.length_lt, hfront.chars⟩,
        by simp [LineReader.afterLine], ?_, ?_⟩
      · simp [List.flatMap_map, Event.sentLine]
      · simp [List.flatMap_map, Event.takenBytes]
    · rw [hproc, hnext, hans]
      exact ⟨rfl, by simp [LineReader.afterLine], rfl, rfl⟩
    · rw [hproc, hnext, hans]
      exact ⟨⟨rfl, rfl⟩, by simp [LineReader.afterLine, releaseSocket], rfl, rfl⟩
  · have hlen := hline.length_lt
    simp only [if_neg hc, extendLine]
    rw [LineReader.readOne, if_neg (show c ≠ (handshakeReader isServer).terminator from hc)]
    by_cases hfull : line.length + 1 = 255
    · have hindex : w.mConnectionIndex + 1 = 255 := by rw [hline.index, hfull]
      rw [if_pos (by simpa [storeChar] using hindex),
        if_pos (show line.length + 1 = (handshakeReader isServer).maxLen from hfull)]
      exact ⟨⟨rfl, rfl⟩, by simp [releaseSocket], rfl, rfl⟩
    · have hindex : w.mConnectionIndex + 1 ≠ 255 := by rwa [hline.index]
      rw [if_neg (by simpa [storeChar] using hindex),
        if_neg (show line.length + 1 ≠ (handshakeReader isServer).maxLen from hfull)]
      refine ⟨⟨hstate, hsock, hserver, hphase, ?_, ?_, fun i hi => ?_⟩, by simp, rfl, rfl⟩
      · simp [storeChar, hline.index]
      · rw [List.length_append, List.length_singleton]
        omega
      · simp only [storeChar, setConnection_mConnectionBuffer]
        rw [List.getElem_append]
        split
        · exact hstored i _
        · rename_i hge
          rw [List.length_append, List.length_singleton] at hi
          obtain rfl : i = w.mConnectionIndex := by rw [hline.index]; omega
          rw [Function.update_self]
          simp

end WebSocketImpl

/-! ### Steps of a session -/

/-- The events of `processConnection`. -/
def Event.isHandshake : Event → Bool
  | .handshakeDone | .handshakeByte _ | .handshakeSend _ => true
  | _ => false

/-- The events of `sendData` and `close`. -/
def Event.isQueuing : Event → Bool
  | .sendData .. | .closeCall _ | .added .. | .refused .. => true
  | _ => false

theorem Event.isHandshake_of_isQueuing {e : Event} (h : e.isQueuing = true) :
    e.isHandshake = false := by
  cases e <;> first | rfl | cases h

theorem Event.receivedBytes_of_isQueuing {e : Event} (h : e.isQueuing = true) :
    e.receivedBytes = [] := by
  cases e <;> first | rfl | cases h

/-- The time for the connection is over. -/
def Input.isTimeout : Input → Bool
  | .connect expired _ => expired
  | _ => false

namespace WebSocketImpl

/-- Queuing a frame touches nothing that is read. -/
theorem sendData_isQueuing (w : WebSocketImpl) (type : Opcode) (data : Option Bytes) (n : ℕ)
    (key : MaskingKey) : ∀ e ∈ (w.sendData type data n key).2, e.isQueuing = true := by
  unfold sendData
  split_ifs
  · simp [Event.isQueuing]
  · cases data <;> simp only [queuePayload, addTransmit] <;> grind [Event.isQueuing]

theorem close_isQueuing (w : WebSocketImpl) : ∀ e ∈ w.close.2, e.isQueuing = true := by
  unfold close
  split_ifs
  · simp [Event.isQueuing]
  · simp only [addTransmit]
    grind [Event.isQueuing]

theorem dispatchData_isHandshake (w : WebSocketImpl) (ws : WsHeader) :
    ∀ e ∈ (w.dispatchData ws).2.2, e.isHandshake = false := by
  simp only [dispatchData, unmaskPayload, deliverDirectly, appendFragment, deliverAccumulated]
  split_ifs <;> simp [Event.isHandshake, finishDelivery, consumeFrame]

theorem dispatchPing_isHandshake (w : WebSocketImpl) (ws : WsHeader) (key : MaskingKey) :
    ∀ e ∈ (w.dispatchPing ws key).2.2, e.isHandshake = false := by
  have hunmask : ∀ e ∈ (w.unmaskPayload ws).2, e.isHandshake = false := by
    unfold unmaskPayload
    split_ifs <;> simp [Event.isHandshake]
  intro e he
  simp only [dispatchPing, List.mem_append] at he
  rcases he with ((he | he) | he) | he
  · exact hunmask e he
  · split_ifs at he
    · rw [List.mem_singleton.mp he]
      rfl
    · cases he
  · exact Event.isHandshake_of_isQueuing (sendData_isQueuing _ _ _ _ _ e he)
  · rw [consumeFrame, List.mem_singleton] at he
    rw [he]
    rfl

theorem dispatchIteration_isHandshake (w : WebSocketImpl) (key : MaskingKey) :
    ∀ e ∈ (w.dispatchIteration key).2.2, e.isHandshake = false := by
  have hframe (ws : WsHeader) : ∀ e ∈ (w.dispatchFrame ws key).2.2, e.isHandshake = false := by
    unfold dispatchFrame
    split
    · exact dispatchData_isHandshake w ws
    · exact dispatchData_isHandshake w ws
    · exact dispatchData_isHandshake w ws
    · exact dispatchPing_isHandshake w ws key
    · simp [consumeFrame, Event.isHandshake]
    · exact fun e he => Event.isHandshake_of_isQueuing (close_isQueuing w e he)
    · exact fun e he => Event.isHandshake_of_isQueuing (close_isQueuing w e he)
  obtain ⟨reads, -, ⟨es, hes, heq, -⟩ | ⟨ws, -, -, -, heq⟩⟩ := dispatchIteration_cases w key
  · rw [heq]
    intro e he
    rcases List.mem_append.mp he with he | he
    · obtain ⟨i, -, rfl⟩ := List.mem_map.mp he
      rfl
    · obtain ⟨ws, n, rfl⟩ := hes e he
      rfl
  · rw [heq]
    intro e he
    rcases List.mem_append.mp he with he | he
    · obtain ⟨i, -, rfl⟩ := List.mem_map.mp he
      rfl
    · rcases List.mem_cons.mp he with rfl | he
      · rfl
      · exact hframe ws e he

end WebSocketImpl

namespace Session

variable {s t : Session} {i : Input} {es es' : List Event} {isServer : Bool}

/-- Only `processConnection` reads and sends lines of the handshake. -/
theorem step_isHandshake (h : s.step i = some (t, es))
    (hstack : ∀ rest, s.stack ≠ .connecting :: rest) : ∀ e ∈ es, e.isHandshake = false := by
  cases step_cases h with
  | call _ hcall =>
    obtain ⟨_, _, _, _, rfl⟩ | ⟨_, rfl⟩ := WebSocketImpl.call_cases hcall
    · exact fun e he =>
        Event.isHandshake_of_isQueuing (WebSocketImpl.sendData_isQueuing _ _ _ _ _ e he)
    · exact fun e he => Event.isHandshake_of_isQueuing (WebSocketImpl.close_isQueuing _ e he)
  | poll =>
    unfold WebSocketImpl.poll
    split_ifs <;> simp [Event.isHandshake]
  | destroy =>
    exact fun e he => Event.isHandshake_of_isQueuing (WebSocketImpl.close_isQueuing _ e he)
  | connect expired v hconn => exact absurd hconn (hstack _)
  | @receive callback rest r _ _ =>
    simp only [WebSocketImpl.receiveIteration]
    split_ifs
    · cases r <;> simp [Event.isHandshake]
    · simp [Event.isHandshake]
  | @transmit callback rest r _ _ =>
    unfold WebSocketImpl.transmitIteration WebSocketImpl.leaveTransmit
    split_ifs <;> cases r <;> simp [Event.isHandshake]
  | dispatch => exact WebSocketImpl.dispatchIteration_isHandshake _ _
  | ret => simp [WebSocketImpl.finishDelivery, WebSocketImpl.consumeFrame, Event.isHandshake]
  | destroyLoop timedOut _ _ hes =>
    rcases hes with rfl | rfl <;> simp [Event.isHandshake]

end Session

/-! ### Runs -/

/-- The bytes read for the handshake. -/
def handshakeBytes (es : List Event) : Bytes := es.flatMap Event.handshakeBytes

/-- The lines handed to the socket for the handshake. -/
def handshakeSends (es : List Event) : List Bytes := es.flatMap Event.sentLine

/-- What the reader of lines is at after the bytes read for the handshake. -/
def handshakeReading (isServer : Bool) (es : List Event) :
    LineReader.Reading ConnectionPhase UInt8 :=
  (handshakeReader isServer).read (.reading .httpStatus []) (handshakeBytes es)

/-- The first line has been read and it is the one that a server answers. -/
def Answered (bs : Bytes) : Prop :=
  0x0A ∈ bs ∧ lineText (bs.takeWhile (· != 0x0A)) = ascii "GET / HTTP/1.1"

instance : DecidablePred Answered := fun _ => inferInstanceAs (Decidable (_ ∧ _))

@[simp] theorem handshakeBytes_append (es es' : List Event) :
    handshakeBytes (es ++ es') = handshakeBytes es ++ handshakeBytes es' := List.flatMap_append

@[simp] theorem handshakeSends_append (es es' : List Event) :
    handshakeSends (es ++ es') = handshakeSends es ++ handshakeSends es' := List.flatMap_append

theorem handshakeBytes_of_isHandshake {es : List Event} (h : ∀ e ∈ es, e.isHandshake = false) :
    handshakeBytes es = [] ∧ handshakeSends es = [] ∧ .handshakeDone ∉ es := by
  refine ⟨List.flatMap_eq_nil_iff.mpr fun e he => ?_, List.flatMap_eq_nil_iff.mpr fun e he => ?_,
    fun he => absurd (h _ he) Bool.noConfusion⟩
  all_goals
    have := h e he
    cases e <;> first | rfl | cases this

theorem handshakeReader_next_ne {isServer : Bool} {phase phase' : ConnectionPhase} {l : Bytes}
    (h : (handshakeReader isServer).next phase l = .inl phase') : phase' ≠ .httpStatus := by
  rintro rfl
  simp only [handshakeReader] at h
  split at h <;> (try split_ifs at h) <;> cases h

/-- The first line is read in the first phase, and only there. -/
theorem handshakeReader_first {isServer : Bool} {phase : ConnectionPhase} {bs line : Bytes}
    (h : (handshakeReader isServer).read (.reading .httpStatus []) bs = .reading phase line) :
    0x0A ∉ line ∧ (phase = .httpStatus ∧ bs = line ∨ phase ≠ .httpStatus ∧ 0x0A ∈ bs) := by
  obtain ⟨ls, hpass, hl, rfl⟩ :=
    (LineReader.read_eq_reading_iff (by simp [handshakeReader])).mp h
  refine ⟨hl.1, ?_⟩
  cases hpass with
  | nil => exact .inl ⟨rfl, rfl⟩
  | snoc _ _ hnext =>
    refine .inr ⟨handshakeReader_next_ne hnext, ?_⟩
    simp [LineReader.join, handshakeReader]

theorem answered_append {bs bs' : Bytes} (h : 0x0A ∈ bs) : Answered (bs ++ bs') ↔ Answered bs := by
  have hne : (bs.takeWhile (· != 0x0A)).length ≠ bs.length := by
    intro hlen
    have hall := List.takeWhile_eq_self_iff.mp ((List.takeWhile_prefix _).eq_of_length hlen) _ h
    simp at hall
  simp only [Answered, List.takeWhile_append, if_neg hne, List.mem_append, h, true_or]

theorem not_answered {bs : Bytes} (h : 0x0A ∉ bs) : ¬Answered bs := fun ha => h ha.1

theorem answered_line {line : Bytes} (h : 0x0A ∉ line) :
    Answered (line ++ [0x0A]) ↔ lineText line = ascii "GET / HTTP/1.1" := by
  have hall : line.takeWhile (· != 0x0A) = line :=
    List.takeWhile_eq_self_iff.mpr fun c hc => by simpa using ne_of_mem_of_not_mem hc h
  simp [Answered, List.takeWhile_append, hall]

namespace Session

variable {s t : Session} {i : Input} {es es' : List Event} {isServer : Bool}

/-- The object is at the part of the handshake that its reader is at, or past the handshake. -/
def AtOrPast (isServer : Bool) (w : WebSocketImpl) :
    LineReader.Reading ConnectionPhase UInt8 → Prop
  | .accepted => w.mReadyState ≠ .connecting
  | r => w.At isServer r

/-- The time for the handshake is not over, and `close` does not run before its end. -/
def Patient (s : Session) (i : Input) (es : List Event) : Prop :=
  s.impl.mReadyState = .connecting → i.isTimeout = false ∧ ∀ e ∈ es, e.isClosing = false

instance (s : Session) (i : Input) (es : List Event) : Decidable (Patient s i es) :=
  inferInstanceAs (Decidable (_ → _))

/-- The invariant of a handshake. -/
structure Handshaking (isServer : Bool) (es : List Event) (s : Session) : Prop where
  consistent : s.Consistent
  reading : AtOrPast isServer s.impl (handshakeReading isServer es)
  done : .handshakeDone ∈ es ↔ handshakeReading isServer es = .accepted
  sent : handshakeSends es =
    if isServer = true ∧ Answered (handshakeBytes es) then responseLines else []
  taken : es.flatMap Event.takenBytes = handshakeBytes es ++ es.flatMap Event.receivedBytes
  received : s.impl.mReadyState = .connecting → es.flatMap Event.receivedBytes = []

theorem Handshaking.reading_of_connecting (h : Handshaking isServer es s)
    (hstate : s.impl.mReadyState = .connecting) :
    ∃ phase line, handshakeReading isServer es = .reading phase line ∧
      s.impl.At isServer (.reading phase line) := by
  have hr := h.reading
  cases hread : handshakeReading isServer es with
  | reading phase line => exact ⟨phase, line, rfl, by rwa [hread] at hr⟩
  | accepted =>
    rw [hread] at hr
    exact absurd hstate hr
  | rejected =>
    rw [hread] at hr
    exact absurd (hstate.symm.trans hr.1) (by simp)
  | overrun =>
    rw [hread] at hr
    exact hr.elim

/-- A step that does nothing for the handshake. -/
theorem Handshaking.of_not_handshake (h : Handshaking isServer es s)
    (hc : t.Consistent) (hes : ∀ e ∈ es', e.isHandshake = false)
    (ht : AtOrPast isServer t.impl (handshakeReading isServer es))
    (hrec : t.impl.mReadyState = .connecting →
      s.impl.mReadyState = .connecting ∧ es'.flatMap Event.receivedBytes = []) :
    Handshaking isServer (es ++ es') t := by
  obtain ⟨hbytes, hsends, hdone⟩ := handshakeBytes_of_isHandshake hes
  have hread : handshakeReading isServer (es ++ es') = handshakeReading isServer es := by
    simp [handshakeReading, hbytes]
  have htaken : es'.flatMap Event.takenBytes = es'.flatMap Event.receivedBytes := by
    refine List.flatMap_congr fun e he => ?_
    have := hes e he
    cases e <;> first | rfl | cases this
  refine ⟨hc, hread ▸ ht, ?_, ?_, ?_, fun hconn => ?_⟩
  · rw [hread, ← h.done, List.mem_append, or_iff_left hdone]
  · rw [handshakeSends_append, handshakeBytes_append, hsends, hbytes, List.append_nil,
      List.append_nil]
    exact h.sent
  · rw [List.flatMap_append, List.flatMap_append, handshakeBytes_append, hbytes, List.append_nil,
      h.taken, htaken, List.append_assoc]
  · rw [List.flatMap_append, h.received (hrec hconn).1, (hrec hconn).2, List.append_nil]

/-- One byte of the handshake. -/
theorem Handshaking.byte (h : Handshaking isServer es s)
    (hstate : s.impl.mReadyState = .connecting) (c : UInt8) {t : Session} (hc : t.Consistent)
    (ht : t.impl = (s.impl.processConnection false (some c)).1) :
    Handshaking isServer (es ++ (s.impl.processConnection false (some c)).2) t := by
  obtain ⟨phase, line, hread, hat⟩ := h.reading_of_connecting hstate
  obtain ⟨es', heq, hat', hdone, hsends, hno⟩ := WebSocketImpl.processConnection_at hat c
  have hes : (s.impl.processConnection false (some c)).2 = .handshakeByte c :: es' :=
    congrArg Prod.snd heq
  have hquiet : ∀ e ∈ es', e.handshakeBytes = [] ∧ e.receivedBytes = [] := fun e he => by
    have := List.flatMap_eq_nil_iff.mp hno e he
    cases e <;> first | exact ⟨rfl, rfl⟩ | exact ⟨rfl, this⟩ | cases this
  have hbytes : handshakeBytes (es ++ .handshakeByte c :: es') = handshakeBytes es ++ [c] := by
    rw [handshakeBytes_append]
    exact congrArg (handshakeBytes es ++ ·) (congrArg (c :: ·)
      (List.flatMap_eq_nil_iff.mpr fun e he => (hquiet e he).1))
  have hreceived : (es ++ .handshakeByte c :: es').flatMap Event.receivedBytes = [] := by
    rw [List.flatMap_append, h.received hstate, List.nil_append, List.flatMap_cons]
    exact List.flatMap_eq_nil_iff.mpr fun e he => (hquiet e he).2
  have hread' : handshakeReading isServer (es ++ .handshakeByte c :: es') =
      (handshakeReader isServer).readOne (.reading phase line) c := by
    rw [handshakeReading, hbytes, LineReader.read_snoc, ← handshakeReading, hread]
  rw [hes]
  refine ⟨hc, ?_, ?_, ?_, ?_, fun _ => hreceived⟩
  · rw [hread', ht]
    revert hat'
    cases (handshakeReader isServer).readOne (.reading phase line) c with
    | accepted => exact fun hopen => by simp [hopen.trans rfl, AtOrPast]
    | _ => exact id
  · have hno : .handshakeDone ∉ es := fun hmem => by simp [h.done.mp hmem] at hread
    rw [hread', ← hdone]
    simp [hno]
  · obtain ⟨hline, hfirst⟩ := handshakeReader_first hread
    rw [hbytes, handshakeSends_append, h.sent, show handshakeSends (.handshakeByte c :: es') =
      es'.flatMap Event.sentLine from rfl, hsends]
    rcases hfirst with ⟨rfl, hfirst⟩ | ⟨hphase, hlf⟩
    · rw [hfirst, if_neg fun ha => not_answered hline ha.2, List.nil_append]
      by_cases hc : c = 0x0A
      · subst hc
        simp only [if_pos, answerTo, answered_line hline, true_and]
      · rw [if_neg hc, if_neg fun ha => not_answered (by simpa [hline] using Ne.symm hc) ha.2]
    · simp only [answered_append hlf, answerTo, hphase, false_and, and_false, if_false, ite_self,
        List.append_nil]
  · rw [hreceived, hbytes, List.append_nil, List.flatMap_append, h.taken, h.received hstate,
      List.append_nil, List.flatMap_cons, hno]
    rfl

/-- A socket that has been released does not come back. -/
theorem step_mSocket (hstep : s.step i = some (t, es)) (hsock : s.impl.mSocket = false) :
    t.impl.mSocket = false := by
  cases step_cases hstep with
  | call hs hcall =>
    obtain ⟨_, _, _, -, rfl⟩ | ⟨-, rfl⟩ := WebSocketImpl.call_cases hcall
    · exact (WebSocketImpl.sendData_keeps _ _ _ _ _).socket.trans hsock
    · exact (WebSocketImpl.close_keeps _).socket.trans hsock
  | poll => exact hsock
  | destroy => exact (WebSocketImpl.close_keeps _).socket.trans hsock
  | connect => simp [WebSocketImpl.processConnection, hsock]
  | receive => exact (WebSocketImpl.receiveIteration_keeps _ _ _).socket.trans hsock
  | transmit => exact (WebSocketImpl.transmitIteration_keeps _ _ _).socket.trans hsock
  | dispatch => exact (WebSocketImpl.dispatchIteration_keeps _ _).socket.trans hsock
  | ret => exact (WebSocketImpl.finishDelivery_keeps _ _ _).socket.trans hsock
  | destroyLoop => exact hsock

/-- One step of a handshake. -/
theorem step_handshaking (h : Handshaking isServer es s) (hstep : s.step i = some (t, es'))
    (hguard : Patient s i es') : Handshaking isServer (es ++ es') t := by
  have hc := step_consistent h.consistent hstep
  by_cases hstate : s.impl.mReadyState = .connecting
  · obtain ⟨phase, line, hread, hat⟩ := h.reading_of_connecting hstate
    obtain ⟨htime, hclose⟩ := hguard hstate
    have hno : (∀ rest, s.stack ≠ .connecting :: rest) → ∀ e ∈ es', e.isHandshake = false :=
      step_isHandshake hstep
    have hpast {a : Activation} {rest : List Activation} (hstack : s.stack = a :: rest)
        (ha : a.isPast = true) : False := by
      have := h.consistent.past a (hstack ▸ List.mem_cons_self) ha
      simp [hstate] at this
    have hclosing {es : List Event} (hes : ∀ e ∈ es, e.isClosing = false) :
        .closeCall s.impl.mReadyState ∉ es := fun hmem => by
      have := hes _ hmem
      simp [Event.isClosing, hstate] at this
    cases step_cases hstep with
    | call hs hcall =>
      obtain ⟨type, data, key, -, rfl⟩ | ⟨-, rfl⟩ := WebSocketImpl.call_cases hcall
      · refine h.of_not_handshake hc (fun e he => Event.isHandshake_of_isQueuing
          (WebSocketImpl.sendData_isQueuing _ _ _ _ _ e he)) ?_ fun _ => ⟨hstate,
          List.flatMap_eq_nil_iff.mpr fun e he => Event.receivedBytes_of_isQueuing
            (WebSocketImpl.sendData_isQueuing _ _ _ _ _ e he)⟩
        obtain ⟨b, hb⟩ := WebSocketImpl.exists_sendData_eq s.impl type data
          (data.getD []).length key
        rw [hread, hb]
        exact ⟨hat.1, hat.2.1, hat.2.2.1, hat.2.2.2.1, hat.2.2.2.2.index,
          hat.2.2.2.2.length_lt, hat.2.2.2.2.chars⟩
      · have hmem := (WebSocketImpl.close_calls s.impl).1
        exact absurd (List.mem_of_mem_filter (hmem ▸ List.mem_singleton_self _)) (hclosing hclose)
    | poll callback timeout hs =>
      refine h.of_not_handshake hc (hno fun rest hstack => ?_) h.reading fun _ => ⟨hstate, ?_⟩
      · rw [hstack] at hs
        cases hs
      · unfold WebSocketImpl.poll
        split_ifs <;> rfl
    | destroy =>
      have hmem := (WebSocketImpl.close_calls s.impl).1
      exact absurd (List.mem_of_mem_filter (hmem ▸ List.mem_singleton_self _)) (hclosing hclose)
    | @connect rest expired v hstack =>
      obtain rfl : expired = false := htime
      cases v with
      | none =>
        have hnone : s.impl.processConnection false none = (s.impl, []) := by
          simp [WebSocketImpl.processConnection]
        rw [hnone] at hc ⊢
        exact h.of_not_handshake hc (by simp) h.reading fun _ => ⟨hstate, rfl⟩
      | some c => exact h.byte hstate c hc rfl
    | receive hstack => exact (hpast hstack rfl).elim
    | transmit hstack => exact (hpast hstack rfl).elim
    | dispatch _ hstack => exact (hpast hstack rfl).elim
    | ret hstack => exact (hpast hstack rfl).elim
    | destroyLoop timedOut hstack hnext hes =>
      refine h.of_not_handshake hc (hno fun rest hstack' => ?_) h.reading fun _ => ⟨hstate, ?_⟩
      · rw [hstack] at hstack'
        cases hstack'
      · rcases hes with rfl | rfl <;> rfl
  · -- past the handshake: nothing moves back to it
    have hrank := step_rank_le h.consistent hstep
    have hgone : t.impl.mReadyState ≠ .connecting := fun hconn => by
      rw [hconn, ReadyState.rank_connecting, Nat.le_zero] at hrank
      cases hst : s.impl.mReadyState <;> simp_all
    refine h.of_not_handshake hc (step_isHandshake hstep fun rest hstack =>
      hstate (h.consistent.connecting rest hstack)) ?_ fun hconn => absurd hconn hgone
    have hr := h.reading
    revert hr
    cases hread : handshakeReading isServer es with
    | reading phase line => exact fun hr => absurd hr.1 hstate
    | accepted => exact fun _ => hgone
    | rejected =>
      rintro ⟨hclosed, hsock⟩
      refine ⟨?_, step_mSocket hstep hsock⟩
      rw [hclosed, ReadyState.rank_closed] at hrank
      cases hst : t.impl.mReadyState <;> simp_all
    | overrun => exact id

/-- A connection with a socket that has not read anything. -/
theorem Handshaking.start {w : WebSocketImpl} (hstate : w.mReadyState = .connecting)
    (hsock : w.mSocket = true) (hserver : w.mIsServerClient = isServer)
    (hphase : w.mConnectionPhase = .httpStatus) (hindex : w.mConnectionIndex = 0) :
    Handshaking isServer [] (start w) where
  consistent := consistent_start w
  reading := ⟨hstate, hsock, hserver, hphase, hindex, by simp, by simp⟩
  done := by simp [handshakeReading, handshakeBytes]
  sent := by simp [handshakeSends, handshakeBytes, Answered]
  taken := rfl
  received := fun _ => rfl

theorem run_handshaking {tr : List (Input × List Event)} (hs : Handshaking isServer [] s)
    (h : sessionMachine.Run Patient s tr t) : Handshaking isServer (Machine.events tr) t :=
  h.invariant_events (P := Handshaking isServer) hs fun _ _ _ _ _ ih hstep hguard =>
    step_handshaking ih hstep hguard

end Session

end WsClient
