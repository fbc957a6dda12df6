import WsClient.HandshakeAgreement
import WsClient.Library.Refinement
import WsClient.RingCalls
import WsClient.SocketLifetime

/-!
# Connections over shared memory

Two connections in two processes, joined by a ring for each direction. The processes interleave at
their single accesses to shared memory, which are the loads and stores of the indices and the
segments that a `memcpy` copies: while one is between two accesses of `receive` or `send`, the other
goes on with its own. A process goes on with the code of its connection when its call of the socket
has returned.

The pair makes the steps that two connections on a reliable link make, so that what holds on every
run of the link holds over shared memory, down to the accesses. `processConnection` and the
constructor of a client ignore how much of a line `send` has taken; the lines of a handshake fit
into a ring that nothing has been written to before.

## Main definitions

* `sharedCapacity`: the capacity of the rings of `WsocketSharedMemory`.
* `Session.transferCall`: the call of the socket that a connection is about to make.
* `SharedPair`, `SharedPair.machine`: the two processes.
* `SharedPair.handshakePair`: a client and a server as they are constructed.
* `Joins`, `SharedPair.Related`: the state of the link that the rings stand for.

## Main results

* `Session.step_handshakeSends`: a server answers once, before it has sent anything.
* `SharedPair.refines_connectionLink`: a step of the pair is a step of the link, or none.
* `SharedPair.run_connectionLink`: the runs over shared memory are runs over the link.
-/

namespace WsClient

/-! ### Calls of the socket -/

/-- What `receive` of a socket over shared memory returns for `n` bytes read, and `send` for `n`
bytes written. -/
def sharedReturn (n : ℕ) : ℤ := if n > 0 then (BitVec.ofNat 32 n).toInt else -1

/-- What `poll` makes of the value that `receive` returned; a socket over shared memory always
says that it would block. -/
def RecvResult.ofReturn (ret : ℤ) (dest : Bytes) : RecvResult :=
  if ret < 0 then .wouldBlock
  else if ret = 0 then .endOfStream
  else .data (dest.take ret.toNat)

/-- What `poll` makes of the value that `send` returned. -/
def SendResult.ofReturn (ret : ℤ) : SendResult :=
  if ret < 0 then .wouldBlock
  else if ret = 0 then .zero
  else .accepted ret.toNat

namespace Session

/-- The call that transfers bytes which the connection is about to make. -/
def transferCall (s : Session) : Option SocketCall :=
  match s.stack with
  | .connecting :: _ => if s.impl.mSocket then some (.receive 1) else none
  | .receiving _ :: _ =>
    if (s.impl.mReceiveBuffer.confirmCapacity maxReadSize).2 then some (.receive maxReadSize)
    else none
  | .transmitting _ :: _ =>
    if s.impl.mTransmitBuffer.getSize = 0 then none else some (.send s.impl.mTransmitBuffer.getData)
  | _ => none

/-- How the connection goes on when `receive` has stored the bytes of `dest`. -/
def received (s : Session) (dest : Bytes) : Input :=
  match s.stack with
  | .connecting :: _ => .connect false dest.head?
  | _ => .receive (.ofReturn (sharedReturn dest.length) dest)

/-- How the connection goes on when `send` has taken `n` bytes. -/
def sent (n : ℕ) : Input := .send (.ofReturn (sharedReturn n))

end Session

/-! ### Two processes -/

/-- The capacity of the rings of `WsocketSharedMemory`. -/
def sharedCapacity : ℕ := sharedBufferSize - sizeofSharedMemoryHeader

/-- Two files of zeros. -/
def zeroMemory : Side → SharedMemory :=
  fun _ => ⟨0, 0, 0, 0, 0, { addr := 0, size := sharedCapacity, cell := fun _ => 0 }⟩

/-- Two connections over two rings. -/
structure SharedPair where
  /-- The connections. -/
  party : Side → Session
  /-- The lines of its handshake that a party is about to hand to its socket. -/
  lines : Side → List Bytes
  /-- The ring that the party at a side reads, to which the other writes. -/
  ring : Side → SharedRing

/-- The scheduler: a process goes on with the code of its connection, calls its socket, or goes on
to its next access to the ring that it reads or to the one that it writes. -/
inductive PairInput
  | run (i : Input)
  | call
  | reader
  | writer
  deriving DecidableEq

namespace SharedPair

/-- The process is not inside a call of its socket. -/
def Idle (s : SharedPair) (side : Side) : Prop :=
  (s.ring side).readerPc = .idle ∧ (s.ring side.other).writerPc = .idle

instance (s : SharedPair) (side : Side) : Decidable (s.Idle side) :=
  inferInstanceAs (Decidable (_ ∧ _))

/-- The call of its socket that the process is about to make: the next line of its handshake, or
one of `poll`. -/
def nextCall (s : SharedPair) (side : Side) : Option SocketCall :=
  match s.lines side with
  | line :: _ => some (.send line)
  | [] => (s.party side).transferCall

/-- Update a ring. -/
def setRing (s : SharedPair) (side : Side) (r : SharedRing) : SharedPair :=
  { s with ring := Function.update s.ring side r }

/-- Update the lines to be sent. -/
def setLines (s : SharedPair) (side : Side) (lines : List Bytes) : SharedPair :=
  { s with lines := Function.update s.lines side lines }

/-- The connection goes on; the lines that it has for the socket are sent afterwards. -/
def resume (s : SharedPair) (side : Side) (i : Input) :
    Option (SharedPair × List ((Side × Input) × List Event)) :=
  ((s.party side).step i).map fun r =>
    ({ s with
      party := Function.update s.party side r.1
      lines := Function.update s.lines side (s.lines side ++ handshakeSends r.2) },
    [((side, i), r.2)])

/-- A step on the ring that a process reads. When the call of `receive` has returned, the connection
goes on. -/
def readRing (s : SharedPair) (side : Side) (i : RingInput) :
    Option (SharedPair × List ((Side × Input) × List Event)) :=
  match (s.ring side).step i with
  | some (r, []) => some (s.setRing side r, [])
  | some (r, [.read _ dest]) => (s.setRing side r).resume side ((s.party side).received dest)
  | _ => none

/-- A step on the ring that a process writes. When the call of `send` has returned, the process goes
on to the next line of its handshake, or the connection goes on. -/
def writeRing (s : SharedPair) (side : Side) (i : RingInput) :
    Option (SharedPair × List ((Side × Input) × List Event)) :=
  match (s.ring side.other).step i with
  | some (r, []) => some (s.setRing side.other r, [])
  | some (r, [.wrote _ n]) =>
    match s.lines side with
    | _ :: lines => some ((s.setRing side.other r).setLines side lines, [])
    | [] => (s.setRing side.other r).resume side (Session.sent n)
  | _ => none

/-- One step of a process. It goes on with the code of its connection as long as this does not
transfer bytes. -/
def step (s : SharedPair) (p : Side × PairInput) :
    Option (SharedPair × List ((Side × Input) × List Event)) :=
  match p.2 with
  | .run i =>
    if s.Idle p.1 ∧ s.lines p.1 = [] ∧
        ((s.party p.1).socketCalls i).all (fun c => !c.isTransfer) = true then s.resume p.1 i
    else none
  | .call =>
    if s.Idle p.1 then
      match s.nextCall p.1 with
      | some (.receive maxLen) => s.readRing p.1 (.read maxLen)
      | some (.send data) => s.writeRing p.1 (.write data)
      | _ => none
    else none
  | .reader => s.readRing p.1 .reader
  | .writer => s.writeRing p.1 .writer

/-- The two processes as a machine whose events are the steps of the connections. -/
def machine : Machine SharedPair (Side × PairInput) ((Side × Input) × List Event) := ⟨step⟩

/-- Two connections over two empty rings of `C` bytes, with the lines of the handshake that their
constructors send. -/
def start (C : ℕ) (memory : Side → SharedMemory) (party : Side → Session)
    (lines : Side → List Bytes) : SharedPair where
  party := party
  lines := lines
  ring side := .start C (memory side)

/-- A client and a server over shared memory as they are constructed. The client is on the left; it
has not sent its request yet. -/
def handshakePair (memory : Side → SharedMemory) (p p' : Platform) (url origin : Bytes)
    (useMask useMask' : Bool) : SharedPair :=
  start sharedCapacity memory
    (fun
      | .left => .start (WebSocketImpl.ofUrl p url origin useMask true).1
      | .right => .start (.ofSocket p' true useMask'))
    (fun
      | .left => handshakeSends (WebSocketImpl.ofUrl p url origin useMask true).2
      | .right => [])

/-- A client that connects to `sharedclient`, and a server. -/
def sharedClient : SharedPair :=
  handshakePair zeroMemory Session.zeroPlatform Session.zeroPlatform (ascii "ws://sharedclient") []
    true true

end SharedPair

/-! ### What a connection does with its calls -/

namespace WebSocketImpl

/-- The lines that `processLine` sends are those of the answer to a first line. -/
theorem processLine_sends (w : WebSocketImpl) :
    (handshakeSends w.processLine.2.2 = [] ∨
      w.mIsServerClient = true ∧ w.mConnectionPhase = .httpStatus ∧
        handshakeSends w.processLine.2.2 = responseLines) ∧
    w.processLine.2.2.flatMap Event.takenBytes = [] ∧
    w.processLine.2.2.flatMap Event.givenBytes = (handshakeSends w.processLine.2.2).flatten ∧
    w.processLine.1.mIsServerClient = w.mIsServerClient ∧
    (w.processLine.2.1 = true → w.processLine.1.mConnectionPhase ≠ .httpStatus) := by
  have hanswer : handshakeSends (responseLines.map .handshakeSend) = responseLines := by
    simp [handshakeSends, List.flatMap_map, Event.sentLine]
  have hgiven : (responseLines.map Event.handshakeSend).flatMap Event.givenBytes =
      responseLines.flatten := by
    rw [List.flatMap_map]
    exact List.flatMap_id
  unfold processLine
  split <;> rename_i hphase
  · split_ifs
    · exact ⟨.inl rfl, rfl, rfl, rfl, fun _ h => absurd (hphase.symm.trans h) (by simp)⟩
    · exact ⟨.inl rfl, rfl, rfl, rfl, fun _ h => absurd (hphase.symm.trans h) (by simp)⟩
  · split_ifs with hserver
    · exact ⟨.inr ⟨hserver, hphase, hanswer⟩, rfl, by rw [hanswer, hgiven], rfl, by simp⟩
    · exact ⟨.inl rfl, rfl, rfl, rfl, by simp⟩
    · exact ⟨.inl rfl, rfl, rfl, rfl, by simp⟩
    · exact ⟨.inl rfl, rfl, rfl, rfl, by simp⟩
  · exact ⟨.inl rfl, rfl, rfl, rfl, by simp⟩
  · exact ⟨.inl rfl, rfl, rfl, rfl, by simp⟩
  · exact ⟨.inl rfl, rfl, rfl, rfl, by simp⟩
  · exact ⟨.inl rfl, rfl, rfl, rfl, by simp⟩
  · exact ⟨.inl rfl, rfl, rfl, rfl, fun _ h => absurd (hphase.symm.trans h) (by simp)⟩

/-- The byte that `processConnection` reads, and the lines that it sends. -/
theorem processConnection_sends (w : WebSocketImpl) (expired : Bool) (v : Option UInt8) :
    (handshakeSends (w.processConnection expired v).2 = [] ∨
      w.mIsServerClient = true ∧ w.mConnectionPhase = .httpStatus ∧
        handshakeSends (w.processConnection expired v).2 = responseLines) ∧
    (w.processConnection expired v).2.flatMap Event.takenBytes =
      (if w.mSocket = true ∧ expired = false then v.toList else []) ∧
    (w.processConnection expired v).2.flatMap Event.givenBytes =
      (handshakeSends (w.processConnection expired v).2).flatten ∧
    ((w.processConnection expired v).1.mReadyState = .connecting →
      (w.processConnection expired v).1.mConnectionPhase = .httpStatus →
        w.mConnectionPhase = .httpStatus ∧ handshakeSends (w.processConnection expired v).2 = []) ∧
    (w.processConnection expired v).1.mIsServerClient = w.mIsServerClient := by
  by_cases hsock : w.mSocket = true
  swap
  · simp only [processConnection, hsock]
    exact ⟨.inl rfl, rfl, rfl, fun _ h => ⟨h, rfl⟩, rfl⟩
  cases expired with
  | true =>
    simp only [processConnection, hsock]
    exact ⟨.inl rfl, rfl, rfl, fun h => absurd h (by simp [releaseSocket]), rfl⟩
  | false =>
    simp only [processConnection, hsock, Bool.not_true, Bool.false_eq_true, if_false, true_and,
      if_true]
    cases v with
    | none => exact ⟨.inl rfl, rfl, rfl, fun _ h => ⟨h, rfl⟩, rfl⟩
    | some c =>
      simp only
      split_ifs with hlf
      · -- the line ends
        obtain ⟨hsends, htaken, hgiven, hserver, hphase⟩ :=
          processLine_sends ((w.storeChar c).setConnection
            (cutLine (w.storeChar c).mConnectionBuffer (w.storeChar c).mConnectionIndex) 0)
        revert hsends htaken hgiven hserver hphase
        simp only [endLine]
        generalize WebSocketImpl.processLine _ = r
        intro hsends htaken hgiven hserver hphase
        split_ifs with hok
        · exact ⟨hsends, congrArg (c :: ·) htaken, hgiven, fun _ h => absurd h (hphase hok),
            hserver⟩
        · have hrelease : handshakeSends (r.2.2 ++ r.1.releaseSocket.2) = handshakeSends r.2.2 := by
            rw [handshakeSends_append]
            exact List.append_nil _
          refine ⟨by rwa [← hrelease] at hsends, ?_, ?_,
            fun h => absurd h (by simp [releaseSocket]), hserver⟩
          · rw [List.flatMap_cons, List.flatMap_append, htaken]
            rfl
          · rw [List.flatMap_cons, List.flatMap_append, hgiven, ← hrelease]
            exact List.append_nil _
      · simp only [extendLine]
        split_ifs
        · exact ⟨.inl rfl, rfl, rfl, fun h => absurd h (by simp [releaseSocket]), rfl⟩
        · exact ⟨.inl rfl, rfl, rfl, fun _ h => ⟨h, rfl⟩, rfl⟩

end WebSocketImpl

namespace Session

variable {s t : Session} {i : Input} {es : List Event}

/-- A server that has not answered yet. -/
def Unanswered (s : Session) : Prop :=
  s.impl.mReadyState = .connecting ∧ s.impl.mIsServerClient = true ∧
    s.impl.mConnectionPhase = .httpStatus

/-- Only a server that has not answered sends lines, and it sends its answer; nothing else has been
sent as long as it has not answered. -/
theorem step_handshakeSends (hs : s.Consistent) (h : s.step i = some (t, es)) :
    (handshakeSends es = [] ∨ s.Unanswered ∧ handshakeSends es = responseLines) ∧
      (t.Unanswered → s.Unanswered ∧ es.flatMap Event.givenBytes = []) := by
  have hrank := step_rank_le hs h
  by_cases hstack : ∃ rest, s.stack = .connecting :: rest
  · obtain ⟨rest, hstack⟩ := hstack
    have hstate := hs.connecting rest hstack
    cases step_cases h with
    | connect expired v _ =>
      obtain ⟨hsends, -, hgiven, hphase, hserver⟩ := s.impl.processConnection_sends expired v
      refine ⟨hsends.imp_right fun hsends => ⟨⟨hstate, hsends.1, hsends.2.1⟩, hsends.2.2⟩, ?_⟩
      rintro ⟨hstate', hserver', hphase'⟩
      obtain ⟨hphase, hnone⟩ := hphase hstate' hphase'
      exact ⟨⟨hstate, hserver.symm.trans hserver', hphase⟩, by rw [hgiven, hnone]; rfl⟩
    | call hcall => simp [hstack, callable] at hcall
    | poll _ _ hcall => simp [hstack, callable] at hcall
    | destroy hnil => simp [hstack] at hnil
    | receive hs' | transmit hs' | dispatch _ hs' | ret hs' | destroyLoop _ hs' =>
      simp [hstack] at hs'
  · have hno := step_isHandshake h fun rest heq => hstack ⟨rest, heq⟩
    refine ⟨.inl (handshakeBytes_of_isHandshake hno).2.1, fun hun => ?_⟩
    have hstate : s.impl.mReadyState = .connecting := by
      rw [hun.1] at hrank
      cases hst : s.impl.mReadyState <;> simp_all
    have hpast {a : Activation} {rest : List Activation} (hstack : s.stack = a :: rest)
        (ha : a.isPast = true) : False := by
      have := hs.past a (hstack ▸ List.mem_cons_self) ha
      simp [hstate] at this
    have hclose : ¬s.impl.close.1.mReadyState = .connecting := by
      simp [WebSocketImpl.close, hstate, WebSocketImpl.addTransmit]
    cases step_cases h with
    | call hs hcall =>
      obtain ⟨type, data, key, -, rfl⟩ | ⟨-, rfl⟩ := WebSocketImpl.call_cases hcall
      · obtain ⟨b, hb⟩ :=
          WebSocketImpl.exists_sendData_eq s.impl type data (data.getD []).length key
        rw [Unanswered, hb] at hun
        exact ⟨hun, (flatMap_of_isQueuing (WebSocketImpl.sendData_isQueuing _ _ _ _ _)).2⟩
      · exact absurd hun.1 hclose
    | poll callback timeout hs =>
      refine ⟨hun, ?_⟩
      unfold WebSocketImpl.poll
      split_ifs <;> rfl
    | destroy => exact absurd hun.1 hclose
    | connect _ _ hs => exact absurd ⟨_, hs⟩ hstack
    | receive hs => exact (hpast hs rfl).elim
    | transmit hs => exact (hpast hs rfl).elim
    | dispatch _ hs => exact (hpast hs rfl).elim
    | ret hs => exact (hpast hs rfl).elim
    | destroyLoop timedOut _ _ hes =>
      refine ⟨hun, ?_⟩
      rcases hes with rfl | rfl <;> rfl

/-- A step without a transfer. -/
theorem step_of_isTransfer (h : s.step i = some (t, es))
    (hno : (s.socketCalls i).all (fun c => !c.isTransfer) = true) :
    es.flatMap Event.takenBytes = [] ∧ es.flatMap Event.givenBytes = [] ∧
      handshakeSends es = [] := by
  have hnone (e : Event) (he : e ∈ es) : ∀ c ∈ e.socketCalls, c.isTransfer = false := by
    intro c hc
    rw [socketCalls_of_step h, List.all_eq_true] at hno
    simpa using hno c (List.mem_append_right _ (List.mem_flatMap.mpr ⟨e, he, hc⟩))
  refine ⟨List.flatMap_eq_nil_iff.mpr fun e he => ?_, List.flatMap_eq_nil_iff.mpr fun e he => ?_,
    List.flatMap_eq_nil_iff.mpr fun e he => ?_⟩
  all_goals
    have := hnone e he
    cases e <;> first | rfl | simp [Event.socketCalls, SocketCall.isTransfer] at this

/-! ### The completion of a call -/

theorem sharedReturn_of_lt {n : ℕ} (hpos : 0 < n) (hlt : n < 2147483648) :
    sharedReturn n = n := by
  have hnat : (BitVec.ofNat 32 n).toNat = n := by
    rw [BitVec.toNat_ofNat]
    exact Nat.mod_eq_of_lt (by omega)
  rw [sharedReturn, if_pos hpos, BitVec.toInt_eq_toNat_of_lt (by omega), hnat]

theorem ofReturn_receive {dest : Bytes} (hlt : dest.length < 2147483648) :
    RecvResult.ofReturn (sharedReturn dest.length) dest =
      if dest = [] then .wouldBlock else .data dest := by
  split_ifs with hnil
  · rw [hnil]
    rfl
  · have hpos := List.length_pos_iff.mpr hnil
    rw [sharedReturn_of_lt hpos hlt, RecvResult.ofReturn, if_neg (by omega), if_neg (by omega),
      Int.toNat_natCast, List.take_length]

theorem ofReturn_send {n : ℕ} (hlt : n < 2147483648) :
    SendResult.ofReturn (sharedReturn n) = if n = 0 then .wouldBlock else .accepted n := by
  split_ifs with hzero
  · rw [hzero]
    rfl
  · rw [sharedReturn_of_lt (by omega) hlt, SendResult.ofReturn, if_neg (by omega),
      if_neg (by omega), Int.toNat_natCast]

/-- The connection goes on with the bytes that its call of `receive` has stored. -/
theorem step_transferred {maxLen : ℕ} {dest : Bytes} (hs : s.transferCall = some (.receive maxLen))
    (hlen : dest.length ≤ maxLen) :
    ∃ t es, s.step (s.received dest) = some (t, es) ∧ es.flatMap Event.takenBytes = dest ∧
      es.flatMap Event.givenBytes = (handshakeSends es).flatten := by
  unfold transferCall at hs
  split at hs
  · -- a byte of the handshake
    rename_i rest hstack
    split_ifs at hs with hsock
    obtain rfl : 1 = maxLen := by simpa using hs
    obtain ⟨-, htaken, hgiven, -⟩ := s.impl.processConnection_sends false dest.head?
    refine ⟨_, _, by simp only [step, received, hstack, WebSocketImpl.resume]; rfl, ?_, hgiven⟩
    rw [htaken, if_pos ⟨hsock, rfl⟩]
    cases dest with
    | nil => rfl
    | cons c dest =>
      obtain rfl : dest = [] := List.length_eq_zero_iff.mp (by simpa using hlen)
      rfl
  · -- the receive loop of `poll`
    rename_i callback rest hstack
    split_ifs at hs with hroom
    obtain rfl : maxReadSize = maxLen := by simpa using hs
    have hlt : dest.length < 2147483648 := lt_of_le_of_lt hlen (by decide)
    have hinput : s.received dest = .receive (if dest = [] then .wouldBlock else .data dest) := by
      simp only [received, hstack, ofReturn_receive hlt]
    have hvalid : (if dest = [] then RecvResult.wouldBlock else .data dest).Valid maxReadSize := by
      split_ifs with hnil
      · trivial
      · exact ⟨hnil, hlen⟩
    rw [hinput]
    refine ⟨_, _, by simp only [step, hstack, WebSocketImpl.resume, if_pos hvalid]; rfl, ?_, ?_⟩
    · simp only [WebSocketImpl.receiveIteration, hroom, if_true]
      split_ifs with hnil
      · exact hnil.symm
      · exact List.append_nil _
    · simp only [WebSocketImpl.receiveIteration, hroom, if_true]
      split_ifs <;> rfl
  · split_ifs at hs
    cases hs
  · cases hs

/-- The connection goes on when its call of `send` has taken `n` bytes. -/
theorem step_sent {data : Bytes} {n : ℕ} (hs : s.transferCall = some (.send data))
    (hle : n ≤ data.length) (hlt : n < 2147483648) :
    ∃ t es, s.step (sent n) = some (t, es) ∧ es.flatMap Event.takenBytes = [] ∧
      es.flatMap Event.givenBytes = data.take n ∧ handshakeSends es = [] := by
  unfold transferCall at hs
  split at hs
  · split_ifs at hs
    cases hs
  · split_ifs at hs
    cases hs
  · rename_i callback rest hstack
    split_ifs at hs with hsize
    obtain rfl : s.impl.mTransmitBuffer.getData = data := by simpa using hs
    rw [SimpleBuffer.length_getData] at hle
    have hvalid : (if n = 0 then SendResult.wouldBlock else .accepted n).Valid
        s.impl.mTransmitBuffer.getSize := by
      split_ifs with hzero
      · trivial
      · exact ⟨Nat.pos_of_ne_zero hzero, hle⟩
    rw [sent, ofReturn_send hlt]
    refine ⟨_, _, by simp only [step, hstack, WebSocketImpl.resume, if_pos hvalid]; rfl, ?_⟩
    simp only [WebSocketImpl.transmitIteration, if_neg hsize]
    split_ifs with hzero
    · rw [hzero, List.take_zero]
      simp only [WebSocketImpl.leaveTransmit]
      split_ifs <;> exact ⟨rfl, rfl, rfl⟩
    · exact ⟨rfl, List.append_nil _, rfl⟩
  · cases hs

end Session

/-! ### Related states -/

/-- A ring stands for a stream: what is on the way are its unread bytes and, behind them, the lines
that the writing process has not written yet, for which there is room. -/
structure Joins (C : ℕ) (acc ret : Bytes) (r : SharedRing) (wire : Bytes) (lines : List Bytes) :
    Prop where
  consistent : Consistent C acc ret r
  wire_eq : wire = acc.drop ret.length ++ lines.flatten
  room : lines ≠ [] → acc.length + lines.flatten.length + 2 ≤ C
  bounded : r.readerPc.Bounded
  whole : lines ≠ [] → r.writerPc.Whole

/-- What has been accepted and not returned, when `dest` is returned. -/
theorem Consistent.drop_returned {C : ℕ} {acc ret dest : Bytes} {r : SharedRing}
    (h : Consistent C acc (ret ++ dest) r) :
    acc.drop ret.length = dest ++ acc.drop (ret ++ dest).length := by
  have hsplit := List.take_append_drop (ret ++ dest).length acc
  rw [← h.returned_eq, List.append_assoc] at hsplit
  conv_lhs => rw [← hsplit]
  exact List.drop_left

namespace SharedPair

/-- The pair of processes is where the link is. -/
structure Related (C : ℕ) (s : SharedPair) (l : Link Session UInt8) : Prop where
  party : ∀ side, l.party side = s.party side
  consistent : ∀ side, (s.party side).Consistent
  joins : ∀ side, ∃ acc ret,
    Joins C acc ret (s.ring side) (l.wire side) (s.lines side.other) ∧
      ((s.party side.other).Unanswered → acc = [] ∧ s.lines side.other = [])
  reading : ∀ side maxLen, (s.ring side).readerPc.maxLen? = some maxLen →
    s.nextCall side = some (.receive maxLen)
  writing : ∀ side call, (s.ring side.other).writerPc.call? = some call →
    ∃ data, call = .write data ∧ s.nextCall side = some (.send data)

/-- The capacities with which lines fit and lengths are 32-bit integers. -/
structure Fits (C : ℕ) : Prop where
  response : responseLines.flatten.length + 2 ≤ C
  lt : C < 2147483648

variable {C : ℕ} {s t : SharedPair} {l : Link Session UInt8} {side : Side}

/-- The states in which two processes can start: the lines of their handshake fit into an empty
ring, and a server that has not answered has none. -/
structure Launches (C : ℕ) (party : Side → Session) (lines : Side → List Bytes) : Prop where
  consistent : ∀ side, (party side).Consistent
  room : ∀ side, (lines side).flatten.length + 2 ≤ C
  unanswered : ∀ side, (party side).Unanswered → lines side = []

/-- The link of two processes that start. -/
def startLink (party : Side → Session) (lines : Side → List Bytes) : Link Session UInt8 :=
  ⟨party .left, party .right, (lines .right).flatten, (lines .left).flatten⟩

theorem Launches.related {party : Side → Session} {lines : Side → List Bytes}
    (h : Launches C party lines) (memory : Side → SharedMemory) :
    Related C (start C memory party lines) (startLink party lines) where
  party side := by cases side <;> rfl
  consistent := h.consistent
  joins side := by
    refine ⟨[], [], ⟨.start C (memory side), ?_, fun _ => ?_, trivial, fun _ => trivial⟩,
      fun hun => ⟨rfl, h.unanswered _ hun⟩⟩
    · cases side <;> rfl
    · have := h.room side.other
      simpa [SharedPair.start] using this
  reading side maxLen h := by cases h
  writing side call h := by cases h

@[simp] theorem setRing_party (s : SharedPair) (side : Side) (r : SharedRing) :
    (s.setRing side r).party = s.party := rfl

@[simp] theorem setRing_lines (s : SharedPair) (side : Side) (r : SharedRing) :
    (s.setRing side r).lines = s.lines := rfl

@[simp] theorem setRing_ring (s : SharedPair) (side : Side) (r : SharedRing) :
    (s.setRing side r).ring side = r := Function.update_self ..

@[simp] theorem setRing_ring_other (s : SharedPair) (side : Side) (r : SharedRing) :
    (s.setRing side r).ring side.other = s.ring side.other :=
  Function.update_of_ne side.other_ne ..

@[simp] theorem setRing_other_ring (s : SharedPair) (side : Side) (r : SharedRing) :
    (s.setRing side.other r).ring side = s.ring side :=
  Function.update_of_ne side.ne_other ..

@[simp] theorem setRing_nextCall (s : SharedPair) (side side' : Side) (r : SharedRing) :
    (s.setRing side r).nextCall side' = s.nextCall side' := rfl

/-- A process that reads does not write. -/
theorem Related.writer_idle (h : Related C s l) {maxLen : ℕ}
    (hcall : s.nextCall side = some (.receive maxLen)) :
    (s.ring side.other).writerPc = .idle := by
  rw [← WriterPc.call?_eq_none]
  by_contra hbusy
  obtain ⟨call, hwriter⟩ := Option.ne_none_iff_exists'.mp hbusy
  obtain ⟨data, -, hsend⟩ := h.writing side call hwriter
  simp [hcall] at hsend

/-- A process that writes does not read. -/
theorem Related.reader_idle (h : Related C s l) {data : Bytes}
    (hcall : s.nextCall side = some (.send data)) : (s.ring side).readerPc = .idle := by
  rw [← ReaderPc.maxLen?_eq_none]
  by_contra hbusy
  obtain ⟨maxLen, hreader⟩ := Option.ne_none_iff_exists'.mp hbusy
  have hreceive := h.reading side maxLen hreader
  simp [hcall] at hreceive

/-- An access that completes no call, on the ring that the party at a side reads. -/
theorem Related.setRing (h : Related C s l) {r : SharedRing}
    (hjoins : ∃ acc ret, Joins C acc ret r (l.wire side) (s.lines side.other) ∧
      ((s.party side.other).Unanswered → acc = [] ∧ s.lines side.other = []))
    (hreading : ∀ maxLen, r.readerPc.maxLen? = some maxLen →
      s.nextCall side = some (.receive maxLen))
    (hwriting : ∀ call, r.writerPc.call? = some call →
      ∃ data, call = .write data ∧ s.nextCall side.other = some (.send data)) :
    Related C (s.setRing side r) l where
  party := h.party
  consistent := h.consistent
  joins side' := by
    obtain rfl | rfl := side.eq_or_eq_other side'
    · simpa using hjoins
    · simpa using h.joins side.other
  reading side' maxLen := by
    obtain rfl | rfl := side.eq_or_eq_other side'
    · simpa using hreading maxLen
    · simpa using h.reading side.other maxLen
  writing side' call := by
    obtain rfl | rfl := side.eq_or_eq_other side'
    · simpa using h.writing side' call
    · simpa using hwriting call

/-- The connection at a side goes on, when it is not in a call any more. -/
theorem Related.resume (h : Related C s l) {i : Input} {v : Session} {es : List Event}
    {rest : Bytes} {lines : List Bytes} (hparty : t.party = Function.update s.party side v)
    (hlines : t.lines = Function.update s.lines side lines)
    (hstep : (s.party side).step i = some (v, es))
    (hreads : ∃ acc ret, Joins C acc ret (t.ring side) rest (s.lines side.other) ∧
      ((s.party side.other).Unanswered → acc = [] ∧ s.lines side.other = []))
    (hwrites : ∃ acc ret, Joins C acc ret (t.ring side.other)
        (l.wire side.other ++ es.flatMap Event.givenBytes) lines ∧
      (v.Unanswered → acc = [] ∧ lines = []))
    (hidle : t.Idle side) (hreader : (t.ring side.other).readerPc = (s.ring side.other).readerPc)
    (hwriter : (t.ring side).writerPc = (s.ring side).writerPc) :
    Related C t (l.advance side v rest (es.flatMap Event.givenBytes)) := by
  have hself : t.party side = v := by rw [hparty, Function.update_self]
  have hother : t.party side.other = s.party side.other := by
    rw [hparty, Function.update_of_ne side.other_ne]
  have hlself : t.lines side = lines := by rw [hlines, Function.update_self]
  have hlother : t.lines side.other = s.lines side.other := by
    rw [hlines, Function.update_of_ne side.other_ne]
  have hnext : t.nextCall side.other = s.nextCall side.other := by
    rw [nextCall, nextCall, hlother, hother]
  refine ⟨fun side' => ?_, fun side' => ?_, fun side' => ?_, fun side' maxLen => ?_,
    fun side' call => ?_⟩ <;> obtain rfl | rfl := side.eq_or_eq_other side'
  · rw [Link.party_advance, hself]
  · rw [Link.party_other_advance, hother, h.party]
  · rw [hself]
    exact Session.step_consistent (h.consistent _) hstep
  · rw [hother]
    exact h.consistent _
  · rwa [hlother, hother, Link.wire_advance]
  · rwa [Side.other_other, hlself, hself, Link.wire_other_advance]
  · rw [hidle.1]
    exact fun hbusy => by cases hbusy
  · rw [hreader, hnext]
    exact h.reading _ maxLen
  · rw [hidle.2]
    exact fun hbusy => by cases hbusy
  · rw [Side.other_other, hwriter, hnext]
    simpa using h.writing side.other call

/-! ### Steps -/

/-- A guard on the steps of the connections, for the steps of the processes. -/
def guard (G : Side → Session → Input → List Event → Prop) (s : SharedPair)
    (_ : Side × PairInput) (es : List ((Side × Input) × List Event)) : Prop :=
  ∀ e ∈ es, G e.1.1 (s.party e.1.1) e.1.2 e.2

instance {G : Side → Session → Input → List Event → Prop} [∀ side s i es, Decidable (G side s i es)]
    (s : SharedPair) (p : Side × PairInput) (es : List ((Side × Input) × List Event)) :
    Decidable (guard G s p es) :=
  inferInstanceAs (Decidable (∀ _ ∈ _, _))

variable {G : Side → Session → Input → List Event → Prop}

/-- The step of the connection as a step of the link. -/
theorem Related.link_run (h : Related C s l) {p : Side × PairInput} {i : Input} {v : Session}
    {es : List Event} {rest : Bytes} (hstep : (s.party side).step i = some (v, es))
    (hguard : guard G s p [((side, i), es)])
    (hwire : l.wire side = es.flatMap Event.takenBytes ++ rest) :
    connectionLink.Run (Machine.linkGuard G) l [((side, i), es)]
      (l.advance side v rest (es.flatMap Event.givenBytes)) := by
  refine .single (Machine.link_step ?_ hwire) ?_
  · rw [h.party]
    exact hstep
  · rw [Machine.linkGuard, h.party]
    exact hguard _ List.mem_cons_self

/-- The lines that a connection sends are the first bytes in its ring. -/
theorem Related.joins_sends (h : Related C s l) (hC : Fits C) {i : Input} {v : Session}
    {es : List Event} (hstep : (s.party side).step i = some (v, es)) (hlines : s.lines side = [])
    (hidle : (s.ring side.other).writerPc = .idle)
    (hgiven : es.flatMap Event.givenBytes = (handshakeSends es).flatten) :
    ∃ acc ret, Joins C acc ret (s.ring side.other)
        (l.wire side.other ++ es.flatMap Event.givenBytes) (handshakeSends es) ∧
      (v.Unanswered → acc = [] ∧ handshakeSends es = []) := by
  obtain ⟨acc, ret, hjoin, hun⟩ := h.joins side.other
  rw [Side.other_other, hlines] at hjoin hun
  obtain ⟨hsends, hfirst⟩ := Session.step_handshakeSends (h.consistent side) hstep
  refine ⟨acc, ret, ⟨hjoin.consistent, ?_, fun hne => ?_, hjoin.bounded, fun _ => ?_⟩,
    fun hv => ⟨(hun (hfirst hv).1).1, ?_⟩⟩
  · rw [hjoin.wire_eq, hgiven, List.flatten_nil, List.append_nil]
  · obtain ⟨hs, hanswer⟩ := hsends.resolve_left hne
    rw [(hun hs).1, hanswer]
    simpa [Nat.add_comm] using hC.response
  · rw [hidle]
    trivial
  · refine hsends.resolve_right fun ⟨_, hanswer⟩ => ?_
    have hnone := (hfirst hv).2
    rw [hgiven, hanswer] at hnone
    exact absurd hnone (by decide)

/-- The connection goes on without its socket. -/
theorem Related.run (h : Related C s l) (hC : Fits C) {i : Input}
    {es : List ((Side × Input) × List Event)} (hstep : s.step (side, .run i) = some (t, es))
    (hguard : guard G s (side, .run i) es) :
    ∃ l', connectionLink.Run (Machine.linkGuard G) l es l' ∧ Related C t l' := by
  simp only [step] at hstep
  split_ifs at hstep with hquiet
  obtain ⟨hidle, hlines, hno⟩ := hquiet
  obtain ⟨⟨v, es'⟩, hv, heq⟩ := Option.map_eq_some_iff.mp hstep
  obtain ⟨rfl, rfl⟩ : _ ∧ _ := by simpa using heq
  obtain ⟨htaken, hgiven, hsends⟩ := Session.step_of_isTransfer hv hno
  have hwire : l.wire side = es'.flatMap Event.takenBytes ++ l.wire side := by
    rw [htaken, List.nil_append]
  have hupdate : Function.update s.lines side (s.lines side ++ handshakeSends es') =
      Function.update s.lines side (handshakeSends es') := by rw [hlines, List.nil_append]
  refine ⟨_, h.link_run hv hguard hwire, ?_⟩
  refine h.resume rfl hupdate hv
    (h.joins side) (h.joins_sends hC hv hlines hidle.2 ?_) hidle rfl rfl
  rw [hgiven, hsends]
  rfl

/-- A call of the socket begins. -/
theorem Related.call (h : Related C s l) {es : List ((Side × Input) × List Event)}
    (hstep : s.step (side, .call) = some (t, es)) : es = [] ∧ Related C t l := by
  simp only [step] at hstep
  split_ifs at hstep with hidle
  split at hstep
  · -- `receive`
    rename_i maxLen hcall
    obtain ⟨acc, ret, hjoin, hun⟩ := h.joins side
    have hring : (s.ring side).step (.read maxLen) =
        some ((s.ring side).withReader (.sizing maxLen), []) := by
      simp [SharedRing.step, hidle.1, hjoin.consistent.isReader, SharedRing.withReader]
    simp only [readRing, hring] at hstep
    obtain ⟨rfl, rfl⟩ := by simpa using hstep
    refine ⟨rfl, h.setRing ⟨acc, ret, ⟨?_, hjoin.wire_eq, hjoin.room, trivial, hjoin.whole⟩, hun⟩
      (fun m hm => ?_) fun call hc => ?_⟩
    · exact { hjoin.consistent with readerAt := trivial }
    · rwa [← Option.some.inj hm]
    · refine h.writing side.other call ?_
      rw [Side.other_other]
      exact hc
  · -- `send`
    rename_i data hcall
    obtain ⟨acc, ret, hjoin, hun⟩ := h.joins side.other
    have hring : (s.ring side.other).step (.write data) =
        some ((s.ring side.other).withWriter (.sizing (.write data)), []) := by
      simp [SharedRing.step, hidle.2, hjoin.consistent.isWriter, SharedRing.withWriter]
    simp only [writeRing, hring] at hstep
    obtain ⟨rfl, rfl⟩ := by simpa using hstep
    refine ⟨rfl, h.setRing ⟨acc, ret,
      ⟨?_, hjoin.wire_eq, hjoin.room, hjoin.bounded, fun _ => trivial⟩, hun⟩
      (fun m hm => ?_) fun call hc => ?_⟩
    · exact { hjoin.consistent with writerAt := trivial }
    · exact h.reading side.other m hm
    · rw [Side.other_other]
      exact ⟨data, (Option.some.inj hc).symm, hcall⟩
  · cases hstep

theorem transferCall_of_receive {maxLen : ℕ} (hcall : s.nextCall side = some (.receive maxLen)) :
    s.lines side = [] ∧ (s.party side).transferCall = some (.receive maxLen) := by
  unfold nextCall at hcall
  split at hcall
  · simp at hcall
  · rename_i hlines
    exact ⟨hlines, hcall⟩

/-- An access to the ring that a process reads. -/
theorem Related.reader (h : Related C s l) (hC : Fits C)
    {es : List ((Side × Input) × List Event)} (hstep : s.step (side, .reader) = some (t, es))
    (hguard : guard G s (side, .reader) es) :
    ∃ l', connectionLink.Run (Machine.linkGuard G) l es l' ∧ Related C t l' := by
  have hlt := hC.lt
  have hpos := hC.response
  obtain ⟨acc, ret, hjoin, hun⟩ := h.joins side
  simp only [step, readRing] at hstep
  obtain ⟨r, es', hr⟩ : ∃ r es', (s.ring side).step .reader = some (r, es') := by
    cases hr : (s.ring side).step .reader with
    | none => simp [hr] at hstep
    | some r => exact ⟨r.1, r.2, rfl⟩
  obtain ⟨maxLen, hmax⟩ : ∃ maxLen, (s.ring side).readerPc.maxLen? = some maxLen := by
    rw [← Option.ne_none_iff_exists', ne_eq, ReaderPc.maxLen?_eq_none]
    intro hidle
    simp [SharedRing.step, SharedRing.readerStep, hidle] at hr
  have hcall := h.reading side maxLen hmax
  obtain ⟨hwriter, ⟨rfl, hmax', hbound, hnext⟩ | ⟨dest, rfl, hidle, hlen, hnext⟩⟩ :=
    hjoin.consistent.reader_access (by omega) (by omega) hr hmax hjoin.bounded
  · -- the call goes on
    simp only [hr] at hstep
    obtain ⟨rfl, rfl⟩ := by simpa using hstep
    refine ⟨l, .nil, h.setRing ⟨acc, ret, ⟨hnext, hjoin.wire_eq, hjoin.room, hbound, ?_⟩, hun⟩
      (fun m hm => ?_) fun call hc => ?_⟩
    · rw [hwriter]
      exact hjoin.whole
    · rw [hmax'] at hm
      rwa [← Option.some.inj hm]
    · rw [hwriter] at hc
      exact h.writing side.other call (by rwa [Side.other_other])
  · -- the call returns, and the connection goes on
    simp only [hr] at hstep
    obtain ⟨⟨v, es'⟩, hv, heq⟩ := Option.map_eq_some_iff.mp hstep
    obtain ⟨rfl, rfl⟩ : _ ∧ _ := by simpa using heq
    obtain ⟨hlines, htransfer⟩ := transferCall_of_receive hcall
    obtain ⟨v', es'', hv', htaken, hgiven⟩ := Session.step_transferred htransfer hlen
    obtain ⟨rfl, rfl⟩ : v' = v ∧ es'' = es' := by simpa [hv'] using hv
    have hwire : l.wire side = es''.flatMap Event.takenBytes ++
        (acc.drop (ret ++ dest).length ++ (s.lines side.other).flatten) := by
      rw [hjoin.wire_eq, htaken, hnext.drop_returned, List.append_assoc]
    have hwriter' := h.writer_idle hcall
    refine ⟨_, h.link_run hv' hguard hwire, ?_⟩
    have hupdate : Function.update s.lines side (s.lines side ++ handshakeSends es'') =
        Function.update s.lines side (handshakeSends es'') := by rw [hlines, List.nil_append]
    refine h.resume rfl hupdate hv'
      ⟨acc, ret ++ dest, ⟨?_, rfl, hjoin.room, ?_, ?_⟩, hun⟩ ?_ ?_ ?_ ?_
    · simpa using hnext
    · simp [hidle, ReaderPc.Bounded]
    · simpa [hwriter] using hjoin.whole
    · simpa using h.joins_sends hC hv' hlines hwriter' hgiven
    · exact ⟨by simpa using hidle, by simpa using hwriter'⟩
    · simp
    · simpa using hwriter

/-- A line of the handshake has been written. -/
theorem Related.lineWritten (h : Related C s l) {r : SharedRing} {line : Bytes}
    {lines : List Bytes} (hlines : s.lines side = line :: lines) {acc ret : Bytes}
    (hjoin : Joins C acc ret (s.ring side.other) (l.wire side.other) (line :: lines))
    (hnext : Consistent C (acc ++ line) ret r) (hidle : r.writerPc = .idle)
    (hreader : r.readerPc = (s.ring side.other).readerPc)
    (hbusy : (s.ring side).readerPc = .idle)
    (hun : ¬(s.party side).Unanswered) :
    Related C ((s.setRing side.other r).setLines side lines) l := by
  have hlself : ((s.setRing side.other r).setLines side lines).lines side = lines :=
    Function.update_self ..
  have hlother : ((s.setRing side.other r).setLines side lines).lines side.other =
      s.lines side.other := Function.update_of_ne side.other_ne ..
  have hrself : ((s.setRing side.other r).setLines side lines).ring side = s.ring side :=
    setRing_other_ring s side r
  have hrother : ((s.setRing side.other r).setLines side lines).ring side.other = r :=
    setRing_ring s side.other r
  have hcallother : ((s.setRing side.other r).setLines side lines).nextCall side.other =
      s.nextCall side.other := by
    rw [nextCall, hlother]
    rfl
  refine ⟨h.party, h.consistent, fun side' => ?_, fun side' maxLen => ?_, fun side' call => ?_⟩ <;>
    obtain rfl | rfl := side.eq_or_eq_other side'
  · rw [hrself, hlother]
    exact h.joins _
  · rw [hrother, Side.other_other, hlself]
    refine ⟨acc ++ line, ret, ⟨hnext, ?_, fun _ => ?_, ?_, fun _ => ?_⟩, fun h => absurd h hun⟩
    · have hle := hjoin.consistent.returned_le
      rw [hjoin.wire_eq, List.flatten_cons, List.drop_append_of_le_length hle, List.append_assoc]
    · have hroom := hjoin.room (by simp)
      rw [List.flatten_cons, List.length_append] at hroom
      rw [List.length_append]
      omega
    · rw [hreader]
      exact hjoin.bounded
    · rw [hidle]
      trivial
  · rw [hrself, hbusy]
    exact fun h => by cases h
  · rw [hrother, hreader, hcallother]
    exact h.reading _ maxLen
  · rw [hrother, hidle]
    exact fun h => by cases h
  · rw [Side.other_other, hrself, hcallother]
    simpa using h.writing side.other call

/-- An access to the ring that a process writes. -/
theorem Related.writer (h : Related C s l) (hC : Fits C)
    {es : List ((Side × Input) × List Event)} (hstep : s.step (side, .writer) = some (t, es))
    (hguard : guard G s (side, .writer) es) :
    ∃ l', connectionLink.Run (Machine.linkGuard G) l es l' ∧ Related C t l' := by
  have hlt := hC.lt
  have hpos := hC.response
  obtain ⟨acc, ret, hjoin, hun⟩ := h.joins side.other
  rw [Side.other_other] at hjoin hun
  simp only [step, writeRing] at hstep
  obtain ⟨r, es', hr⟩ : ∃ r es', (s.ring side.other).step .writer = some (r, es') := by
    cases hr : (s.ring side.other).step .writer with
    | none => simp [hr] at hstep
    | some r => exact ⟨r.1, r.2, rfl⟩
  obtain ⟨call, hbusy⟩ : ∃ call, (s.ring side.other).writerPc.call? = some call := by
    rw [← Option.ne_none_iff_exists', ne_eq, WriterPc.call?_eq_none]
    intro hidle
    simp [SharedRing.step, SharedRing.writerStep, hidle] at hr
  obtain ⟨data, rfl, hcall⟩ := h.writing side call hbusy
  have hreader := h.reader_idle hcall
  -- a line is written whole
  have hwhole (hne : s.lines side ≠ []) :
      r.writerPc.Whole ∧ ∀ n, es' = [.wrote data n] → n = data.length := by
    obtain ⟨line, lines, hlines⟩ := List.exists_cons_of_ne_nil hne
    obtain rfl : line = data := by simpa [nextCall, hlines] using hcall
    have hroom := hjoin.room hne
    rw [hlines, List.flatten_cons, List.length_append] at hroom
    exact hjoin.consistent.writerStep_whole (by omega) (by omega) hr hbusy (by omega)
      (hjoin.whole hne)
  obtain ⟨hreader', ⟨rfl, hbusy', hnext⟩ | ⟨n, hn, rfl, hidle, hnext⟩⟩ :=
    hjoin.consistent.writer_access (by omega) (by omega) hr hbusy
  · -- the call goes on
    simp only [hr] at hstep
    obtain ⟨rfl, rfl⟩ := by simpa using hstep
    refine ⟨l, .nil, h.setRing ⟨acc, ret, ?_⟩ (fun m hm => ?_) fun call hc => ?_⟩
    · rw [Side.other_other]
      exact ⟨⟨hnext, hjoin.wire_eq, hjoin.room, by rw [hreader']; exact hjoin.bounded,
        fun hne => (hwhole hne).1⟩, hun⟩
    · rw [hreader'] at hm
      exact h.reading side.other m hm
    · rw [hbusy'] at hc
      rw [Side.other_other]
      exact ⟨data, (Option.some.inj hc).symm, hcall⟩
  · simp only [hr] at hstep
    split at hstep
    · -- the next line of the handshake
      rename_i line lines hlines
      obtain ⟨rfl, rfl⟩ := by simpa using hstep
      rw [hlines] at hjoin hun
      obtain rfl : line = data := by simpa [nextCall, hlines] using hcall
      refine ⟨l, .nil, h.lineWritten hlines hjoin ?_ hidle hreader' hreader fun hv => ?_⟩
      · have hall := (hwhole (by simp [hlines])).2 n rfl
        rwa [hall, List.take_length] at hnext
      · simpa using (hun hv).2
    · -- the connection goes on
      rename_i hlines
      obtain ⟨⟨v, es'⟩, hv, heq⟩ := Option.map_eq_some_iff.mp hstep
      obtain ⟨rfl, rfl⟩ : _ ∧ _ := by simpa using heq
      have htransfer : (s.party side).transferCall = some (.send data) := by
        rwa [nextCall, hlines] at hcall
      have hsmall : n < 2147483648 := by
        have hroom := hnext.room
        have hle := hjoin.consistent.returned_le
        rw [List.length_append, List.length_take] at hroom
        omega
      obtain ⟨v', es'', hv', htaken, hgiven, hsends⟩ := Session.step_sent htransfer hn hsmall
      obtain ⟨rfl, rfl⟩ : v' = v ∧ es'' = es' := by simpa [hv'] using hv
      have hwire : l.wire side = es''.flatMap Event.takenBytes ++ l.wire side := by
        rw [htaken, List.nil_append]
      rw [hlines] at hjoin hun
      refine ⟨_, h.link_run hv' hguard hwire, ?_⟩
      have hupdate : Function.update s.lines side (s.lines side ++ handshakeSends es'') =
          Function.update s.lines side [] := by rw [hlines, hsends, List.nil_append]
      refine h.resume rfl hupdate hv' ?_
        ⟨acc ++ data.take n, ret, ?_, fun hun' => ?_⟩ ?_ ?_ ?_
      · simpa using h.joins side
      · rw [hgiven]
        refine ⟨by simpa using hnext, ?_, fun h => absurd rfl h, ?_, fun h => absurd rfl h⟩
        · have hle := hjoin.consistent.returned_le
          rw [hjoin.wire_eq, List.drop_append_of_le_length hle]
          simp
        · simpa [hreader'] using hjoin.bounded
      · obtain ⟨hs, hnone⟩ := (Session.step_handshakeSends (h.consistent side) hv').2 hun'
        rw [hgiven] at hnone
        rw [(hun hs).1, hnone]
        exact ⟨rfl, rfl⟩
      · exact ⟨by simpa using hreader, by simpa using hidle⟩
      · simpa using hreader'
      · simp

/-- Two processes over shared memory make the steps of two connections on a reliable link: each
access is no step of the link, or the one with which a connection goes on. -/
theorem refines_connectionLink (hC : Fits C) (G : Side → Session → Input → List Event → Prop) :
    machine.Refines (guard G) connectionLink (Machine.linkGuard G) (Related C) := by
  rintro s ⟨side, i⟩ t es l h hstep hguard
  cases i with
  | run i => exact h.run hC hstep hguard
  | call =>
    obtain ⟨rfl, ht⟩ := h.call hstep
    exact ⟨l, .nil, ht⟩
  | reader => exact h.reader hC hstep hguard
  | writer => exact h.writer hC hstep hguard

/-- The steps that the connections of two processes make in a run over shared memory, however the
processes interleave at their accesses, are a run of two connections on a reliable link, in which
what is on the way are the unread bytes of the rings and the lines still to be written. -/
theorem run_connectionLink (hC : Fits C) {party : Side → Session} {lines : Side → List Bytes}
    {memory : Side → SharedMemory} (hs : Launches C party lines)
    {tr : List ((Side × PairInput) × List ((Side × Input) × List Event))}
    (h : machine.Run (guard G) (start C memory party lines) tr t) :
    ∃ l, connectionLink.Run (Machine.linkGuard G) (startLink party lines) (Machine.events tr) l ∧
      Related C t l :=
  (refines_connectionLink hC G).run h (hs.related memory)

theorem fits_sharedCapacity : Fits sharedCapacity := ⟨by decide +kernel, by decide⟩

/-- A client has written the first line of its request, and a server has read a byte of it. -/
theorem run_connectionLink_first :
    ∃ tr t l, machine.Run (guard fun _ => Machine.anyStep) sharedClient tr t ∧
      Machine.events tr = [((.right, .poll true 0), []),
        ((.right, .connect false (some 0x47)), [.handshakeByte 0x47])] ∧
      (t.ring .right).size = 15 ∧
      connectionLink.Run (Machine.linkGuard fun _ => Machine.anyStep)
        (startLink sharedClient.party sharedClient.lines) (Machine.events tr) l ∧
      Related sharedCapacity t l := by
  obtain ⟨tr, t, hrun, hP⟩ := Machine.exists_run_of_exec (M := machine)
    (G := guard fun _ => Machine.anyStep) (s := sharedClient)
    (l := [(.right, .run (.poll true 0)), (.left, .call), (.left, .writer), (.left, .writer),
      (.left, .writer), (.left, .writer), (.left, .writer), (.right, .call), (.right, .reader),
      (.right, .reader), (.right, .reader), (.right, .reader), (.right, .reader)])
    (P := fun r => decide (Machine.events r.2 = [((.right, .poll true 0), []),
      ((.right, .connect false (some 0x47)), [.handshakeByte 0x47])] ∧
        (r.1.ring .right).size = 15)) (by decide +kernel)
  obtain ⟨hevents, hsize⟩ := of_decide_eq_true hP
  have hlaunch : Launches sharedCapacity sharedClient.party sharedClient.lines := by
    refine ⟨fun side => ?_, fun side => ?_, fun side => ?_⟩ <;> cases side
    · exact Session.consistent_start _
    · exact Session.consistent_start _
    · decide +kernel
    · decide +kernel
    · exact fun hun => absurd hun.2.1 (by decide +kernel)
    · exact fun _ => rfl
  obtain ⟨l, hl, ht⟩ := run_connectionLink fits_sharedCapacity hlaunch hrun
  exact ⟨tr, t, l, hrun, hevents, hsize, hl, ht⟩

end SharedPair

end WsClient
