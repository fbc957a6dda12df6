import Mathlib.Algebra.Order.BigOperators.Group.List
import WsClient.EndToEnd
import WsClient.SharedTransport

/-!
# What two processes over shared memory achieve

The runs of two connections over shared memory are runs over a reliable link, so the handshake and
the delivery of messages are as they are there, at every point between two accesses. No call of the
socket waits for the other process: it returns after at most six accesses of its own.

## Main definitions

* `SharedPair.remaining`: a bound on the accesses that a call of the socket still makes.

## Main results

* `SharedPair.shared_handshake`: both sides read each other's part of the handshake.
* `SharedPair.shared_delivery`: what is delivered is what was sent.
* `SharedPair.wait_free`: a call of the socket returns.
-/

namespace WsClient

namespace SharedPair

/-- Two connections that are `OPEN`. -/
theorem launches_openServer :
    Launches sharedCapacity (fun _ => Session.openServer) fun _ => [] := by
  refine ⟨fun _ => Session.idle_openServer.chats.consistent, fun _ => by decide, fun _ hun => ?_⟩
  simp [Session.Unanswered, Session.idle_openServer.opened] at hun

end SharedPair

/-! ### Calls return -/

/-- A bound on the accesses that a call of `read` still makes. -/
def ReaderPc.remaining : ReaderPc → ℕ
  | .idle => 0
  | .sizing _ => 6
  | .sized _ _ => 5
  | .locating _ _ => 4
  | .copying _ segs _ _ => segs.length + 1

/-- A bound on the accesses that a call of the writing process still makes. -/
def WriterPc.remaining : WriterPc → ℕ
  | .idle => 0
  | .sizing _ => 6
  | .sized _ _ => 5
  | .locating _ _ => 4
  | .copying _ _ segs _ _ => segs.length + 1

theorem SPSC.length_segments_le (q : SPSC) (index len : ℕ) : (q.segments index len).length ≤ 2 := by
  unfold segments
  simp only
  split_ifs <;> simp

namespace SharedRing

variable {s t : SharedRing} {es : List RingEvent} {data : Bytes} {maxLen : ℕ}

theorem readerStep_remaining (h : s.readerStep = some (t, es)) :
    t.readerPc.remaining < s.readerPc.remaining ∧ t.writerPc = s.writerPc := by
  have hsegs := s.mReader.length_segments_le s.memory.mReadIndex
  unfold readerStep at h
  split at h
  · cases h
  all_goals
    rename_i hpc
    rw [hpc]
  case h_3 =>
    simp only at h
    generalize (if s.mReader.calcSize _ _ > _ then _ else _) = len at h
    split at h <;> obtain ⟨rfl, -⟩ := by simpa using h
    · exact ⟨by simp [ReaderPc.remaining], rfl⟩
    · exact ⟨by simp [ReaderPc.remaining], rfl⟩
  all_goals
    obtain ⟨rfl, -⟩ := by simpa using h
    refine ⟨?_, rfl⟩
    simp [ReaderPc.remaining, Nat.lt_succ_iff, hsegs]

theorem writerStep_remaining (h : s.writerStep = some (t, es)) :
    t.writerPc.remaining < s.writerPc.remaining ∧ t.readerPc = s.readerPc := by
  have hsegs := s.mWriter.length_segments_le s.memory.mWriteIndex
  unfold writerStep at h
  split at h
  · cases h
  all_goals
    rename_i hpc
    rw [hpc]
  case h_3 call w =>
    cases call with
    | capacity =>
      obtain ⟨rfl, -⟩ := by simpa using h
      exact ⟨by simp [WriterPc.remaining], rfl⟩
    | write data =>
      simp only at h
      split at h <;> obtain ⟨rfl, -⟩ := by simpa using h
      · exact ⟨by simp [WriterPc.remaining], rfl⟩
      · exact ⟨by simp [WriterPc.remaining], rfl⟩
  all_goals
    obtain ⟨rfl, -⟩ := by simpa using h
    refine ⟨?_, rfl⟩
    simp [WriterPc.remaining, Nat.lt_succ_iff, hsegs]

theorem exists_readerStep (h : s.readerPc ≠ .idle) : ∃ t es, s.readerStep = some (t, es) := by
  unfold readerStep
  split
  · rename_i hpc
    exact absurd hpc h
  · exact ⟨_, _, rfl⟩
  · simp only
    split_ifs <;> exact ⟨_, _, rfl⟩
  all_goals exact ⟨_, _, rfl⟩

theorem exists_writerStep (h : s.writerPc ≠ .idle) : ∃ t es, s.writerStep = some (t, es) := by
  unfold writerStep
  split
  · rename_i hpc
    exact absurd hpc h
  · exact ⟨_, _, rfl⟩
  · simp only
    split
    · exact ⟨_, _, rfl⟩
    · split_ifs <;> exact ⟨_, _, rfl⟩
  all_goals exact ⟨_, _, rfl⟩

/-- A step of the one process leaves the other where it is. -/
theorem step_read (h : s.step (.read maxLen) = some (t, es)) (hidle : s.readerPc = .idle) :
    t.readerPc.remaining ≤ 6 ∧ t.writerPc = s.writerPc := by
  simp only [step, hidle] at h
  split_ifs at h <;> obtain ⟨rfl, -⟩ := by simpa using h
  · exact ⟨by simp [hidle, ReaderPc.remaining], rfl⟩
  · exact ⟨by simp [ReaderPc.remaining], rfl⟩

theorem step_write (h : s.step (.write data) = some (t, es)) (hidle : s.writerPc = .idle) :
    t.writerPc.remaining ≤ 6 ∧ t.readerPc = s.readerPc := by
  simp only [step, hidle] at h
  split_ifs at h <;> obtain ⟨rfl, -⟩ := by simpa using h
  · exact ⟨by simp [hidle, WriterPc.remaining], rfl⟩
  · exact ⟨by simp [WriterPc.remaining], rfl⟩

end SharedRing

namespace SharedPair

variable {C : ℕ} {s t u : SharedPair} {l : Link Session UInt8} {side : Side}
  {es : List ((Side × Input) × List Event)}

/-- A bound on the accesses that the call of the socket of a process still makes. -/
def remaining (s : SharedPair) (side : Side) : ℕ :=
  (s.ring side).readerPc.remaining + (s.ring side.other).writerPc.remaining

theorem exists_resume {i : Input} {v : Session} {es : List Event}
    (h : (s.party side).step i = some (v, es)) :
    ∃ t es', s.resume side i = some (t, es') :=
  ⟨_, _, by rw [resume, h]; rfl⟩

theorem resume_ring {i : Input} (h : s.resume side i = some (t, es)) : t.ring = s.ring := by
  obtain ⟨r, -, heq⟩ := Option.map_eq_some_iff.mp h
  obtain ⟨rfl, -⟩ : _ ∧ _ := by simpa using heq
  rfl

theorem readRing_ring {i : RingInput} (h : s.readRing side i = some (t, es)) :
    ∃ r es', (s.ring side).step i = some (r, es') ∧ t.ring = (s.setRing side r).ring := by
  unfold readRing at h
  split at h
  · rename_i r hr
    obtain ⟨rfl, -⟩ := by simpa using h
    exact ⟨r, _, hr, rfl⟩
  · rename_i r maxLen dest hr
    exact ⟨r, _, hr, resume_ring h⟩
  · cases h

theorem writeRing_ring {i : RingInput} (h : s.writeRing side i = some (t, es)) :
    ∃ r es', (s.ring side.other).step i = some (r, es') ∧
      t.ring = (s.setRing side.other r).ring := by
  unfold writeRing at h
  split at h
  · rename_i r hr
    obtain ⟨rfl, -⟩ := by simpa using h
    exact ⟨r, _, hr, rfl⟩
  · rename_i r data n hr
    split at h
    · obtain ⟨rfl, -⟩ := by simpa using h
      exact ⟨r, _, hr, rfl⟩
    · exact ⟨r, _, hr, resume_ring h⟩
  · cases h

/-- An access of a process brings it nearer to the end of its call. -/
theorem access_remaining {i : PairInput} (hi : i = .reader ∨ i = .writer)
    (h : s.step (side, i) = some (t, es)) : t.remaining side < s.remaining side := by
  rcases hi with rfl | rfl
  · obtain ⟨r, es', hr, hring⟩ := readRing_ring h
    have hr : (s.ring side).readerStep = some (r, es') := hr
    have hstep := SharedRing.readerStep_remaining hr
    simp only [remaining, hring, setRing_ring, setRing_ring_other]
    omega
  · obtain ⟨r, es', hr, hring⟩ := writeRing_ring h
    have hr : (s.ring side.other).writerStep = some (r, es') := hr
    have hstep := SharedRing.writerStep_remaining hr
    simp only [remaining, hring, setRing_ring, setRing_other_ring]
    omega

/-- The steps of the other process do not concern the call. -/
theorem other_remaining {i : PairInput} (h : s.step (side.other, i) = some (t, es)) :
    t.remaining side = s.remaining side := by
  have hread {j : RingInput} (h : s.readRing side.other j = some (t, es))
      (hkeep : ∀ r es', (s.ring side.other).step j = some (r, es') →
        r.writerPc = (s.ring side.other).writerPc) : t.remaining side = s.remaining side := by
    obtain ⟨r, es', hr, hring⟩ := readRing_ring h
    simp only [remaining, hring, setRing_ring, setRing_other_ring, hkeep r es' hr]
  have hwrite {j : RingInput} (h : s.writeRing side.other j = some (t, es))
      (hkeep : ∀ r es', (s.ring side).step j = some (r, es') →
        r.readerPc = (s.ring side).readerPc) : t.remaining side = s.remaining side := by
    obtain ⟨r, es', hr, hring⟩ := writeRing_ring h
    rw [Side.other_other] at hr hring
    simp only [remaining, hring, setRing_ring, setRing_ring_other, hkeep r es' hr]
  cases i with
  | run i =>
    simp only [step] at h
    split_ifs at h
    rw [remaining, resume_ring h, remaining]
  | call =>
    simp only [step] at h
    split_ifs at h with hidle
    split at h
    · exact hread h fun r es' hr => (SharedRing.step_read hr hidle.1).2
    · refine hwrite h fun r es' hr => (SharedRing.step_write hr ?_).2
      simpa using hidle.2
    · cases h
  | reader => exact hread h fun r es' hr => (SharedRing.readerStep_remaining hr).2
  | writer => exact hwrite h fun r es' hr => (SharedRing.writerStep_remaining hr).2

/-- A call begins. -/
theorem call_remaining (h : s.step (side, .call) = some (t, es)) : t.remaining side ≤ 6 := by
  simp only [step] at h
  split_ifs at h with hidle
  split at h
  · obtain ⟨r, es', hr, hring⟩ := readRing_ring h
    have hle := (SharedRing.step_read hr hidle.1).1
    simpa [remaining, hring, hidle.2, WriterPc.remaining] using hle
  · obtain ⟨r, es', hr, hring⟩ := writeRing_ring h
    have hle := (SharedRing.step_write hr hidle.2).1
    simpa [remaining, hring, hidle.1, ReaderPc.remaining] using hle
  · cases h

/-- A process in a call of its socket can make its next access. -/
theorem Related.exists_access (h : Related C s l) (hC : Fits C) (hbusy : ¬s.Idle side) :
    ∃ i t es, (i = .reader ∨ i = .writer) ∧ s.step (side, i) = some (t, es) := by
  have hlt := hC.lt
  have hpos := hC.response
  by_cases hreader : (s.ring side).readerPc = .idle
  · -- in a call of `send`
    have hwriter : (s.ring side.other).writerPc ≠ .idle := fun hw => hbusy ⟨hreader, hw⟩
    obtain ⟨r, es', hr⟩ := SharedRing.exists_writerStep hwriter
    obtain ⟨call, hcall'⟩ := Option.ne_none_iff_exists'.mp (mt WriterPc.call?_eq_none.mp hwriter)
    obtain ⟨data, rfl, hcall⟩ := h.writing side call hcall'
    obtain ⟨acc, ret, hjoin, -⟩ := h.joins side.other
    have hstep : s.step (side, .writer) = s.writeRing side .writer := rfl
    have hr' : (s.ring side.other).step .writer = some (r, es') := hr
    refine ⟨.writer, ?_⟩
    rw [hstep, writeRing, hr']
    obtain ⟨-, ⟨rfl, -⟩ | ⟨n, hn, rfl, -, hnext⟩⟩ :=
      hjoin.consistent.writer_access (by omega) (by omega) hr hcall'
    · exact ⟨_, _, .inr rfl, rfl⟩
    · cases hlines : s.lines side with
      | cons line lines => exact ⟨_, _, .inr rfl, rfl⟩
      | nil =>
        rw [nextCall, hlines] at hcall
        have hroom := hnext.room
        have hle := hjoin.consistent.returned_le
        rw [List.length_append, List.length_take] at hroom
        obtain ⟨v, es, hv, -⟩ := Session.step_sent hcall hn (by omega)
        obtain ⟨u, es'', hu⟩ := exists_resume (s := s.setRing side.other r) hv
        exact ⟨u, es'', .inr rfl, hu⟩
  · -- in a call of `receive`
    obtain ⟨r, es', hr⟩ := SharedRing.exists_readerStep hreader
    obtain ⟨maxLen, hmax⟩ := Option.ne_none_iff_exists'.mp (mt ReaderPc.maxLen?_eq_none.mp hreader)
    obtain ⟨acc, ret, hjoin, -⟩ := h.joins side
    have hstep : s.step (side, .reader) = s.readRing side .reader := rfl
    have hr' : (s.ring side).step .reader = some (r, es') := hr
    refine ⟨.reader, ?_⟩
    rw [hstep, readRing, hr']
    obtain ⟨-, ⟨rfl, -⟩ | ⟨dest, rfl, -, hlen, -⟩⟩ :=
      hjoin.consistent.reader_access (by omega) (by omega) hr hmax hjoin.bounded
    · exact ⟨_, _, .inl rfl, rfl⟩
    · obtain ⟨v, es, hv, -⟩ := Session.step_transferred
        (transferCall_of_receive (h.reading side maxLen hmax)).2 hlen
      obtain ⟨u, es'', hu⟩ := exists_resume (s := s.setRing side r) hv
      exact ⟨u, es'', .inl rfl, hu⟩

/-- A call of the socket returns, whatever the other process does meanwhile: as long as it has not
returned the process can make its next access, and it returns after six of them at the latest. -/
theorem wait_free (hC : Fits C) {party : Side → Session} {lines : Side → List Bytes}
    {memory : Side → SharedMemory} (hs : Launches C party lines)
    {tr tr' : List ((Side × PairInput) × List ((Side × Input) × List Event))}
    (h : machine.Run Machine.anyStep (start C memory party lines) tr s)
    (hcall : s.step (side, .call) = some (t, es))
    (hrun : machine.Run Machine.anyStep t tr' u)
    (hown : ∀ p ∈ tr', p.1.1 = side → p.1.2 = .reader ∨ p.1.2 = .writer) :
    (tr'.filter fun p => p.1.1 = side).length ≤ 6 ∧
      (u.Idle side ∨
        ∃ i v es', (i = .reader ∨ i = .writer) ∧ u.step (side, i) = some (v, es')) := by
  have hcount : (tr'.filter fun p => p.1.1 = side).length + u.remaining side ≤ 6 := by
    induction hrun with
    | nil => simpa using call_remaining hcall
    | @snoc tr' u p es' v _ hstep _ ih =>
      have ih := ih fun q hq => hown q (List.mem_append_left _ hq)
      obtain ⟨side', i⟩ := p
      rw [List.filter_append, List.length_append]
      obtain rfl | rfl := side.eq_or_eq_other side'
      · have hi := hown _ (List.mem_append_right _ List.mem_cons_self) rfl
        have hlt := access_remaining hi hstep
        simp only [decide_true, List.filter_cons_of_pos, List.filter_nil, List.length_singleton]
        omega
      · have hsame := other_remaining hstep
        simp only [Side.other_ne, decide_false, Bool.false_eq_true, not_false_eq_true,
          List.filter_cons_of_neg, List.filter_nil, List.length_nil]
        omega
  have hall : machine.Run (guard fun _ => Machine.anyStep) (start C memory party lines)
      (tr ++ ((side, .call), es) :: tr') u := by
    have hcall : machine.step s (side, .call) = some (t, es) := hcall
    have hrun' := (h.snoc hcall trivial).trans hrun
    rw [List.append_assoc, List.singleton_append] at hrun'
    exact hrun'.mono fun _ _ _ _ _ _ => trivial
  obtain ⟨l, -, hl⟩ := run_connectionLink hC hs hall
  refine ⟨by omega, ?_⟩
  by_cases hidle : u.Idle side
  · exact .inl hidle
  · exact .inr (hl.exists_access hC hidle)

/-- A server in the call of `receive`, while the client is between two calls. -/
theorem wait_free_receive :
    ∃ tr s t u es tr', machine.Run Machine.anyStep (start sharedCapacity zeroMemory
        (fun _ => Session.openServer) fun _ => []) tr s ∧
      s.step (.right, .call) = some (t, es) ∧ machine.Run Machine.anyStep t tr' u ∧
      ¬u.Idle .right ∧
      ∃ i v es', (i = .reader ∨ i = .writer) ∧ u.step (.right, i) = some (v, es') := by
  obtain ⟨tr, s, hrun, hP⟩ := Machine.exists_run_of_exec (M := machine) (G := Machine.anyStep)
    (s := start sharedCapacity zeroMemory (fun _ => Session.openServer) fun _ => [])
    (l := [(.right, .run (.poll true 0))])
    (P := fun r => (r.1.step (.right, .call)).any fun r' : SharedPair × List _ =>
      (machine.exec Machine.anyStep r'.1 [(.left, .run (.poll true 0)), (.right, .reader)]).any
        fun r'' : SharedPair × List ((Side × PairInput) × List _) => decide (¬r''.1.Idle .right ∧
          ∀ p ∈ r''.2, p.1.1 = .right → p.1.2 = .reader ∨ p.1.2 = .writer))
    (by decide +kernel)
  obtain ⟨⟨t, es⟩, hcall, hlater⟩ := (Option.any_eq_true _ _).mp hP
  obtain ⟨tr', u, hrun', hP'⟩ := Machine.exists_run_of_exec hlater
  obtain ⟨hbusy, hown⟩ := of_decide_eq_true hP'
  have hfree := wait_free fits_sharedCapacity launches_openServer hrun hcall hrun' hown
  exact ⟨tr, s, t, u, es, tr', hrun, hcall, hrun', hbusy, hfree.2.resolve_left hbusy⟩

end SharedPair

/-! ### The handshake -/

theorem length_stringFormat_le (n : ℕ) (s : Bytes) : (stringFormat n s).length ≤ n - 1 :=
  List.length_take_le _ _

/-- A request fits into an empty ring. -/
theorem length_requestLines_le (host : Bytes) (port : ℤ) (path origin : Bytes) :
    (requestLines host port path origin).flatten.length ≤ 2040 := by
  have hline : ∀ line ∈ requestLines host port path origin, line.length ≤ 255 := by
    intro line hline
    simp only [requestLines, List.mem_append, List.mem_cons, List.not_mem_nil, or_false] at hline
    rcases hline with ((rfl | rfl | rfl | rfl) | hline) | rfl | rfl | rfl
    · exact length_stringFormat_le 256 _
    · split_ifs <;> exact length_stringFormat_le 256 _
    · decide
    · decide
    · split_ifs at hline
      · rw [List.mem_singleton.mp hline]
        exact length_stringFormat_le 256 _
      · cases hline
    · decide
    · decide
    · decide
  have hcount : (requestLines host port path origin).length ≤ 8 := by
    unfold requestLines
    split_ifs <;> simp
  have hsum := List.sum_le_card_nsmul ((requestLines host port path origin).map List.length) 255
    fun n hn => by
      obtain ⟨line, hmem, rfl⟩ := List.mem_map.mp hn
      exact hline line hmem
  rw [List.length_map] at hsum
  change _ ≤ _ * 255 at hsum
  rw [List.length_flatten]
  omega

namespace SharedPair

variable {t : SharedPair} {memory : Side → SharedMemory} {p p' : Platform}
  {url origin host : Bytes} {port : ℤ} {useMask useMask' : Bool}
  {tr : List ((Side × PairInput) × List ((Side × Input) × List Event))}

theorem launches_handshakePair {path : Bytes} (hurl : url.length < 128)
    (horigin : origin.length < 200) (hparse : parseUrl url = some (host, port, path))
    (hport : port ≠ 0) :
    Launches sharedCapacity (handshakePair memory p p' url origin useMask useMask').party
      (handshakePair memory p p' url origin useMask useMask').lines := by
  have hclient : WebSocketImpl.ofUrl p url origin useMask true = _ :=
    Session.ofUrl_of_parseUrl hurl horigin hparse hport
  refine ⟨fun side => ?_, fun side => ?_, fun side => ?_⟩ <;> cases side
  · exact Session.consistent_start _
  · exact Session.consistent_start _
  · have hlines : (handshakePair memory p p' url origin useMask useMask').lines .left =
        requestLines host port path origin := by
      simp [handshakePair, SharedPair.start, hclient, handshakeSends, List.flatMap_map,
        Event.sentLine]
    have hle := length_requestLines_le host port path origin
    have hcap : sharedCapacity = 16352 := rfl
    rw [hlines]
    omega
  · exact (by decide : 2 ≤ sharedCapacity)
  · rintro ⟨-, hserver, -⟩
    simp [handshakePair, SharedPair.start, hclient, Session.start, WebSocketImpl.initial] at hserver
  · exact fun _ => rfl

/-- The lines of a client that is constructed are on the way to the server. -/
theorem startLink_handshakePair (memory : Side → SharedMemory) {path : Bytes}
    (hurl : url.length < 128) (horigin : origin.length < 200)
    (hparse : parseUrl url = some (host, port, path)) (hport : port ≠ 0) :
    startLink (handshakePair memory p p' url origin useMask useMask').party
      (handshakePair memory p p' url origin useMask useMask').lines =
        handshakeLink p p' url origin useMask useMask' := by
  have hclient : WebSocketImpl.ofUrl p url origin useMask true = _ :=
    Session.ofUrl_of_parseUrl hurl horigin hparse hport
  rw [startLink, handshakeLink, hclient]
  simp [handshakePair, SharedPair.start, handshakeSends, List.flatMap_map, Event.sentLine,
    Event.givenBytes, hclient]

/-- The handshake over shared memory. However the two processes interleave at their accesses to the
rings, neither leaves `CONNECTING` before the end of its handshake, the server reads exactly the
request and the client exactly the response as lines, and the frame loop of each gets what the
transmit buffer of the other gives, from its first byte on. -/
theorem shared_handshake (hurl : url.length < 128) (horigin : origin.length < 200)
    (hparse : parseUrl url = some (host, port, [])) (hport : port ≠ 0)
    (hhost : 0x0A ∉ host ∧ 0 ∉ host) (horigin' : 0x0A ∉ origin ∧ 0 ∉ origin)
    (h : machine.Run (guard fun _ => Session.Patient)
      (handshakePair memory p p' url origin useMask useMask') tr t) (side : Side) :
    Session.ReadsHead (handshakeHead host port origin side)
      ((Machine.events (Machine.trace side.other (Machine.events tr))).flatMap Event.acceptedBytes)
      (Machine.events (Machine.trace side (Machine.events tr))) (t.party side) := by
  obtain ⟨l, hl, ht⟩ := run_connectionLink fits_sharedCapacity
    (launches_handshakePair hurl horigin hparse hport) h
  rw [startLink_handshakePair memory hurl horigin hparse hport] at hl
  rw [← ht.party]
  cases side with
  | left => exact Session.client_readsHead hurl horigin hparse hport hhost horigin' hl
  | right => exact Session.server_readsHead hurl horigin hparse hport hhost horigin' hl

/-- The server reads the first byte of the request while the client is still writing its lines. -/
theorem shared_handshake_first :
    ∃ tr t, machine.Run (guard fun _ => Session.Patient) sharedClient tr t ∧
      handshakeBytes (Machine.events (Machine.trace .right (Machine.events tr))) = [0x47] ∧
      Session.ReadsHead (handshakeHead (ascii "sharedclient") 80 [] .right)
        ((Machine.events (Machine.trace .left (Machine.events tr))).flatMap Event.acceptedBytes)
        (Machine.events (Machine.trace .right (Machine.events tr))) (t.party .right) := by
  obtain ⟨tr, t, hrun, hP⟩ := Machine.exists_run_of_exec (M := machine)
    (G := guard fun _ => Session.Patient) (s := sharedClient)
    (l := [(.right, .run (.poll true 0)), (.left, .call), (.left, .writer), (.left, .writer),
      (.left, .writer), (.left, .writer), (.left, .writer), (.left, .call), (.right, .call),
      (.right, .reader), (.right, .reader), (.left, .writer), (.right, .reader), (.right, .reader),
      (.right, .reader)])
    (P := fun r => decide (handshakeBytes (Machine.events (Machine.trace .right
      (Machine.events r.2))) = [0x47])) (by decide +kernel)
  exact ⟨tr, t, hrun, of_decide_eq_true hP,
    shared_handshake (by decide) (by decide) (by decide +kernel) (by decide) (by decide)
      (by decide) hrun .right⟩

/-! ### Delivery -/

/-- Both connections are past their handshakes. -/
def Past (s : SharedPair) : Prop :=
  ∀ side, (s.party side).Consistent ∧ (s.party side).impl.mReadyState ≠ .connecting ∧
    s.lines side = []

variable {s : SharedPair} {es : List ((Side × Input) × List Event)}

theorem Past.resume (hs : s.Past) {side : Side} {i : Input}
    (h : s.resume side i = some (t, es)) : t.Past := by
  obtain ⟨⟨v, es'⟩, hv, heq⟩ := Option.map_eq_some_iff.mp h
  obtain ⟨rfl, -⟩ : _ ∧ _ := by simpa using heq
  obtain ⟨hc, hstate, hlines⟩ := hs side
  have hrank := Session.step_rank_le hc hv
  have hsends := (Session.step_handshakeSends hc hv).1.resolve_right fun hun => hstate hun.1.1
  intro side'
  obtain rfl | rfl := side.eq_or_eq_other side'
  · simp only [Function.update_self, hlines, hsends, List.append_nil, and_true]
    refine ⟨Session.step_consistent hc hv, fun hconn => hstate ?_⟩
    rw [hconn] at hrank
    cases hst : (s.party side').impl.mReadyState <;> simp_all
  · simp only [ne_eq, Side.other_ne, not_false_eq_true, Function.update_of_ne]
    exact hs side.other

theorem Past.readRing (hs : s.Past) {side : Side} {i : RingInput}
    (h : s.readRing side i = some (t, es)) : t.Past := by
  unfold SharedPair.readRing at h
  split at h
  · obtain ⟨rfl, -⟩ := by simpa using h
    exact hs
  · exact Past.resume (s := s.setRing side _) hs h
  · cases h

theorem Past.writeRing (hs : s.Past) {side : Side} {i : RingInput}
    (h : s.writeRing side i = some (t, es)) : t.Past := by
  unfold SharedPair.writeRing at h
  split at h
  · obtain ⟨rfl, -⟩ := by simpa using h
    exact hs
  · rw [(hs side).2.2] at h
    exact Past.resume (s := s.setRing side.other _) hs h
  · cases h

/-- A connection past its handshake has no lines to send. -/
theorem step_past (hs : s.Past) {i : Side × PairInput} (h : s.step i = some (t, es)) : t.Past := by
  obtain ⟨side, i⟩ := i
  cases i with
  | run i =>
    simp only [step] at h
    split_ifs at h
    exact hs.resume h
  | call =>
    simp only [step] at h
    split_ifs at h
    split at h
    · exact hs.readRing h
    · exact hs.writeRing h
    · cases h
  | reader =>
    have h : s.readRing side .reader = some (t, es) := h
    exact hs.readRing h
  | writer =>
    have h : s.writeRing side .writer = some (t, es) := h
    exact hs.writeRing h

/-- Nothing is on the way when the ring is empty and all lines are written. -/
theorem Related.wire_eq_nil {C : ℕ} {l : Link Session UInt8} {side : Side} (h : Related C t l)
    (hC : Fits C) (hring : (t.ring side).size = 0) (hlines : t.lines side.other = []) :
    l.wire side = [] := by
  obtain ⟨acc, ret, hjoin, -⟩ := h.joins side
  have hlt := hC.lt
  have hpos := hC.response
  rw [hjoin.consistent.size_eq (by omega) (by omega)] at hring
  rw [hjoin.wire_eq, hlines, List.flatten_nil, List.append_nil, List.drop_eq_nil_of_le (by omega)]

/-- Delivery over shared memory. Whatever two connections send to each other, however full the rings
are and however the two processes interleave at their accesses to them, the messages that the
callback of a side has got are at any time the first of those that the application of the other
side has sent, and all of them when the transmit buffer of the other side and the ring are empty
and `poll` has returned. -/
theorem shared_delivery {C : ℕ} (hC : Fits C) {party : Side → Session}
    (hidle : ∀ side, Session.Idle (party side))
    (h : machine.Run (guard fun _ => Session.Chatting) (start C memory party fun _ => []) tr t)
    (side : Side) :
    delivered (Machine.events (Machine.trace side (Machine.events tr))) <+:
        sentMessages (Machine.trace side.other (Machine.events tr)) ∧
      ((t.party side.other).impl.mTransmitBuffer.getSize = 0 → (t.ring side).size = 0 →
        (t.party side).stack = [] →
          delivered (Machine.events (Machine.trace side (Machine.events tr))) =
            sentMessages (Machine.trace side.other (Machine.events tr))) := by
  have hopen (side : Side) : (party side).impl.mReadyState ≠ .connecting := by
    simp [(hidle side).opened]
  have hpast : (start C memory party fun _ => []).Past := fun side =>
    ⟨(hidle side).chats.consistent, hopen side, rfl⟩
  have hlaunch : Launches C party fun _ => [] := by
    have := hC.response
    refine ⟨fun side => (hidle side).chats.consistent, fun _ => ?_,
      fun side hun => absurd hun.1 (hopen side)⟩
    simp only [List.flatten_nil, List.length_nil]
    omega
  obtain ⟨l, hl, ht⟩ := run_connectionLink hC hlaunch h
  have hlines : t.lines side.other = [] :=
    (h.invariant_state hpast (fun _ _ _ _ hs hstep _ => step_past hs hstep) side.other).2.2
  have hwire (side : Side) : (startLink party fun _ => []).wire side = [] := by cases side <;> rfl
  have hidle' (side : Side) : Session.Idle ((startLink party fun _ => []).party side) := by
    cases side
    · exact hidle .left
    · exact hidle .right
  have hs := Session.run_chats hidle' hwire hl side
  have hpeer := Session.run_chats hidle' hwire hl side.other
  -- the frames that the other side has sent: taken, on the way, and not yet transmitted
  have hstream := hl.conserves side
  rw [hwire, List.nil_append] at hstream
  have hframes := hpeer.given
  rw [← hstream, List.append_assoc] at hframes
  rw [← hpeer.messages]
  refine ⟨hs.delivered_prefix hpeer.plain ⟨_, hframes⟩, fun hbuffer hring hnil => ?_⟩
  have hempty := ht.wire_eq_nil hC hring hlines
  rw [← ht.party side.other] at hbuffer
  rw [← ht.party side] at hnil
  rw [hempty, SimpleBuffer.getSize_eq_zero_iff.mp hbuffer, List.append_nil, List.append_nil]
    at hframes
  exact hs.delivered_eq hpeer.plain hframes hnil

/-- A text goes from one process to the other, which looks for it between the accesses of `send`. -/
theorem shared_delivery_text :
    ∃ tr t, machine.Run (guard fun _ => Session.Chatting) (start sharedCapacity zeroMemory
        (fun _ => Session.openServer) fun _ => []) tr t ∧
      delivered (Machine.events (Machine.trace .right (Machine.events tr))) = [([0x41], true)] ∧
      delivered (Machine.events (Machine.trace .right (Machine.events tr))) =
        sentMessages (Machine.trace .left (Machine.events tr)) := by
  obtain ⟨tr, t, hrun, hP⟩ := Machine.exists_run_of_exec (M := machine)
    (G := guard fun _ => Session.Chatting)
    (s := start sharedCapacity zeroMemory (fun _ => Session.openServer) fun _ => [])
    (l := [.run (.sendText (some (ascii "A")) 0), .run (.poll true 0), .call, .reader, .reader,
        .call, .writer, .writer, .writer].map (Prod.mk Side.left) ++
      [(.right, .run (.poll true 0)), (.right, .call), (.left, .writer), (.right, .reader),
        (.left, .writer), (.right, .reader), (.left, .run (.send .wouldBlock))] ++
      [.run (.send .wouldBlock), .run (.dispatch 0), .run (.poll true 0), .call, .reader, .reader,
        .reader, .reader, .reader, .call, .reader, .reader, .run (.send .wouldBlock),
        .run (.dispatch 0), .run .ret, .run (.dispatch 0)].map (Prod.mk Side.right))
    (P := fun r => decide ((r.1.party .left).impl.mTransmitBuffer.getSize = 0 ∧
      (r.1.ring .right).size = 0 ∧ (r.1.party .right).stack = [] ∧
      sentMessages (Machine.trace .left (Machine.events r.2)) = [([0x41], true)]))
    (by decide +kernel)
  obtain ⟨hbuffer, hring, hnil, hsent⟩ := of_decide_eq_true hP
  have hall := (shared_delivery fits_sharedCapacity (fun _ => Session.idle_openServer) hrun
    .right).2 hbuffer hring hnil
  exact ⟨tr, t, hrun, hall.trans hsent, hall⟩

end SharedPair

end WsClient
