import WsClient.Library.Refinement
import WsClient.SocketLifetime

/-!
# Time

A `Timer` is read in two places: `processConnection` gives up `CONNECTION_TIME_OUT` seconds after
the last complete line, and the loop of the destructor after a round of `CLOSE_TIMEOUT` seconds.
The flags which the environment of a session chooses are here what these timers say, for any clock.

Both timers start again while they are waited for. A client has six lines to read, and gives up
after six times the time for a line. `getElapsedSeconds` starts the timer of the destructor again in
every round, so that it measures one round: a destructor whose rounds are short waits for a socket
that takes no bytes for as long as it takes none.

## Main definitions

* `Timer`, `ClockedSession`, `clockedMachine`: a session and what its timers say.
* `ConnectionPhase.linesRead`: how many lines a client has read.
* `ClockedSession.recordReadings`, `ClockedSession.ShortRounds`: the rounds of the destructor.

## Main results

* `refines_sessionMachine`: a session with its timers is a session.
* `ClockedSession.client_deadline`: when a `poll` leaves a client `OPEN` or `CLOSED`.
* `ClockedSession.destructor_returns`: when the destructor returns.
* `ClockedSession.destructor_waits`: it waits for any time.
-/

namespace WsClient

/-! ### Timers -/

/-- `timer::Timer`, over a clock that counts nanoseconds. -/
structure Timer where
  mStartTime : ℤ
  deriving DecidableEq

/-- A number of seconds, on the clock. -/
def seconds (n : ℤ) : ℤ := n * 1000000000

namespace Timer

/-- `reset`. -/
def reset (_ : Timer) (now : ℤ) : Timer := ⟨now⟩

/-- `peekElapsedSeconds`. -/
def peekElapsedSeconds (t : Timer) (now : ℤ) : ℤ := now - t.mStartTime

/-- `getElapsedSeconds`, which reads the clock twice. -/
def getElapsedSeconds (t : Timer) (now later : ℤ) : ℤ × Timer :=
  (t.peekElapsedSeconds now, t.reset later)

end Timer

/-- `CONNECTION_TIME_OUT`. -/
def connectionTimeOut : ℤ := seconds 60

/-- `CLOSE_TIMEOUT`. -/
def closeTimeout : ℤ := seconds 1

/-- A session and its timers. -/
structure ClockedSession where
  session : Session
  mConnectionTimer : Timer
  /-- The timer of the destructor. -/
  closeTimer : Timer

/-- An input, and what the clock says when the step first and last reads it. -/
structure ClockedInput where
  input : Input
  now : ℤ
  later : ℤ
  deriving DecidableEq

namespace ClockedSession

/-- An object with a timer that has just been started. -/
def start (w : WebSocketImpl) (now : ℤ) : ClockedSession := ⟨.start w, ⟨now⟩, ⟨now⟩⟩

/-- The flag of the input is what the timer says. -/
def Agrees (s : ClockedSession) (p : ClockedInput) : Prop :=
  match p.input with
  | .connect expired _ =>
    expired = decide (connectionTimeOut ≤ s.mConnectionTimer.peekElapsedSeconds p.now)
  | .destroyLoop timedOut =>
    s.session.stack.head? = some (.destroying true) →
      timedOut = decide (closeTimeout ≤ (s.closeTimer.getElapsedSeconds p.now p.later).1)
  | _ => True

instance (s : ClockedSession) (p : ClockedInput) : Decidable (s.Agrees p) := by
  unfold Agrees
  split <;> infer_instance

/-- `mConnectionTimer` after the step: it starts again at the end of a line. -/
def connectionTimer (s : ClockedSession) (p : ClockedInput) : Timer :=
  if p.input = .connect false (some 0x0A) then
    (s.mConnectionTimer.getElapsedSeconds p.now p.later).2
  else s.mConnectionTimer

/-- The timer of the destructor after the step: it starts with the destructor, and again in every
round. -/
def destructorTimer (s : ClockedSession) (p : ClockedInput) : Timer :=
  if p.input = .destroy then ⟨p.later⟩
  else if s.session.stack.head? = some (.destroying true) then
    (s.closeTimer.getElapsedSeconds p.now p.later).2
  else s.closeTimer

/-- One step of the session, with the flags that the timers say. -/
def step (s : ClockedSession) (p : ClockedInput) :
    Option (ClockedSession × List (Input × List Event)) :=
  if s.Agrees p then
    (s.session.step p.input).map fun r =>
      (⟨r.1, s.connectionTimer p, s.destructorTimer p⟩, [(p.input, r.2)])
  else none

end ClockedSession

/-- A session with its timers as a machine whose events are the steps of the session. -/
def clockedMachine : Machine ClockedSession ClockedInput (Input × List Event) :=
  ⟨ClockedSession.step⟩

namespace ClockedSession

variable {s t : ClockedSession} {p : ClockedInput} {es : List (Input × List Event)}

theorem step_cases (h : s.step p = some (t, es)) :
    s.Agrees p ∧ t.mConnectionTimer = s.connectionTimer p ∧ t.closeTimer = s.destructorTimer p ∧
      ∃ es', es = [(p.input, es')] ∧ s.session.step p.input = some (t.session, es') := by
  unfold step at h
  split_ifs at h with hagrees
  obtain ⟨⟨u, es'⟩, hstep, heq⟩ := Option.map_eq_some_iff.mp h
  obtain ⟨rfl, rfl⟩ := Prod.mk.inj heq
  exact ⟨hagrees, rfl, rfl, es', rfl, hstep⟩

/-- What holds of every run of a session holds of it with its timers. -/
theorem refines_sessionMachine
    (G : ClockedSession → ClockedInput → List (Input × List Event) → Prop) :
    clockedMachine.Refines G sessionMachine Machine.anyStep fun s s' => s.session = s' := by
  rintro s p t es _ rfl hstep -
  obtain ⟨-, -, -, es', rfl, hsession⟩ := step_cases hstep
  exact ⟨_, .single hsession trivial, rfl⟩

end ClockedSession

/-! ### The lines of a client -/

/-- How many lines a client has read. -/
def ConnectionPhase.linesRead : ConnectionPhase → ℕ
  | .httpStatus | .serverClientStrings => 0
  | .hconnectionUpgrade => 1
  | .hsecWebsocketAccept => 2
  | .hserverWebsocket => 3
  | .hupgradeWebsocket => 4
  | .h => 5

theorem ConnectionPhase.linesRead_le (phase : ConnectionPhase) : phase.linesRead ≤ 5 := by
  cases phase <;> simp [linesRead]

namespace WebSocketImpl

variable {w : WebSocketImpl}

/-- A client on a socket. -/
def IsClient (w : WebSocketImpl) : Prop :=
  w.mSocket = true ∧ w.mIsServerClient = false ∧ w.mConnectionPhase ≠ .serverClientStrings

/-- A line that leaves a client `CONNECTING` is counted. -/
theorem processLine_client (hw : w.IsClient) (hok : w.processLine.2.1 = true)
    (hstate : w.processLine.1.mReadyState = .connecting) :
    w.processLine.1.IsClient ∧
      w.processLine.1.mConnectionPhase.linesRead = w.mConnectionPhase.linesRead + 1 := by
  obtain ⟨hsock, hserver, hphase⟩ := hw
  unfold processLine at hok hstate ⊢
  cases hcase : w.mConnectionPhase with
  | httpStatus =>
    simp only [hcase, hserver, Bool.false_eq_true, if_false] at hok hstate ⊢
    split_ifs at hok hstate ⊢
    exact ⟨⟨hsock, hserver, by simp⟩, rfl⟩
  | serverClientStrings => exact absurd hcase hphase
  | h =>
    simp only [hcase, openConnection, setReadyState_mReadyState] at hstate
    cases hstate
  | _ => exact ⟨⟨hsock, hserver, by simp⟩, by simp [ConnectionPhase.linesRead]⟩

/-- What `processConnection` does with a client that stays `CONNECTING`. -/
theorem processConnection_client (hw : w.IsClient) {expired : Bool} {v : Option UInt8}
    (hstate : (w.processConnection expired v).1.mReadyState = .connecting) :
    expired = false ∧ (w.processConnection expired v).1.IsClient ∧
      (w.processConnection expired v).1.mConnectionPhase.linesRead =
        w.mConnectionPhase.linesRead + if v = some 0x0A then 1 else 0 := by
  have hsock := hw.1
  cases expired with
  | true => simp [processConnection, hsock, releaseSocket] at hstate
  | false =>
    refine ⟨rfl, ?_⟩
    simp only [processConnection, hsock, Bool.not_true, Bool.false_eq_true, if_false] at hstate ⊢
    cases v with
    | none => exact ⟨hw, by simp⟩
    | some c =>
      simp only at hstate ⊢
      by_cases hc : c = 0x0A
      · rw [if_pos hc] at hstate ⊢
        rw [if_pos (congrArg some hc)]
        unfold endLine at hstate ⊢
        simp only at hstate ⊢
        split_ifs at hstate ⊢ with hok
        · exact processLine_client (w := (w.storeChar c).setConnection _ 0) hw hok hstate
        · simp [releaseSocket] at hstate
      · rw [if_neg hc] at hstate ⊢
        rw [if_neg (mt Option.some.inj hc)]
        unfold extendLine at hstate ⊢
        simp only at hstate ⊢
        split_ifs at hstate ⊢
        · simp [releaseSocket] at hstate
        · exact ⟨hw, rfl⟩

end WebSocketImpl

namespace Session

variable {s t : Session} {i : Input} {es : List Event}

/-- A step in which a client stays `CONNECTING`. -/
theorem step_client (hs : s.Consistent) (h : s.step i = some (t, es))
    (ht : t.impl.mReadyState = .connecting) :
    s.impl.mReadyState = .connecting ∧
      (s.impl.IsClient → t.impl.IsClient ∧ t.impl.mConnectionPhase.linesRead =
          s.impl.mConnectionPhase.linesRead + (if i = .connect false (some 0x0A) then 1 else 0) ∧
        ∀ v, i ≠ .connect true v) := by
  have hrank := step_rank_le hs h
  have hstate : s.impl.mReadyState = .connecting := by
    rw [ht] at hrank
    cases hst : s.impl.mReadyState <;> simp_all
  refine ⟨hstate, fun hclient => ?_⟩
  have hpast {a : Activation} {rest : List Activation} (hstack : s.stack = a :: rest)
      (ha : a.isPast = true) : False := by
    have := hs.past a (hstack ▸ List.mem_cons_self) ha
    simp [hstate] at this
  have hclose : ¬s.impl.close.1.mReadyState = .connecting := by
    simp [WebSocketImpl.close, hstate, WebSocketImpl.addTransmit]
  cases step_cases h with
  | call _ hcall =>
    have hi (expired : Bool) (v : Option UInt8) : i ≠ .connect expired v := by
      rintro rfl
      cases hcall
    obtain ⟨type, data, key, -, rfl⟩ | ⟨-, rfl⟩ := WebSocketImpl.call_cases hcall
    · obtain ⟨b, hb⟩ :=
        WebSocketImpl.exists_sendData_eq s.impl type data (data.getD []).length key
      rw [hb, if_neg (hi false _)]
      exact ⟨hclient, rfl, hi true⟩
    · exact absurd ht hclose
  | poll => exact ⟨hclient, rfl, by simp⟩
  | destroy => exact absurd ht hclose
  | connect expired v hstack =>
    obtain ⟨rfl, hclient', hlines⟩ :=
      WebSocketImpl.processConnection_client hclient ht
    exact ⟨hclient', by simpa using hlines, by simp⟩
  | receive hstack => exact (hpast hstack rfl).elim
  | transmit hstack => exact (hpast hstack rfl).elim
  | dispatch _ hstack => exact (hpast hstack rfl).elim
  | ret hstack => exact (hpast hstack rfl).elim
  | destroyLoop => exact ⟨hclient, rfl, by simp⟩

/-- `processConnection` does not leave a connection `CLOSING`. -/
theorem connect_not_closing (hs : s.Consistent) {expired : Bool} {v : Option UInt8}
    (h : s.step (.connect expired v) = some (t, es)) : t.impl.mReadyState ≠ .closing := by
  cases step_cases h with
  | call _ hcall => cases hcall
  | connect _ _ hstack =>
    exact (WebSocketImpl.processConnection_handshakes (hs.connecting _ hstack) ..).not_closing

end Session

namespace ClockedSession

variable {s t : ClockedSession} {p : ClockedInput} {es : List (Input × List Event)} {δ : ℕ} {t₀ : ℤ}

/-- No call takes longer than `δ` from its first to its last look at the clock. -/
def Prompt (δ : ℕ) (_ : ClockedSession) (p : ClockedInput) (_ : List (Input × List Event)) : Prop :=
  p.later ≤ p.now + δ

instance (δ : ℕ) (s : ClockedSession) (p : ClockedInput) (es : List (Input × List Event)) :
    Decidable (Prompt δ s p es) := inferInstanceAs (Decidable (_ ≤ _))

/-- The timer of a client that has read some lines started at most so many times the time for a line
after its first start. -/
structure OnTime (δ : ℕ) (t₀ : ℤ) (s : ClockedSession) : Prop where
  consistent : s.session.Consistent
  client : s.session.impl.mReadyState = .connecting → s.session.impl.IsClient ∧
    s.mConnectionTimer.mStartTime ≤
      t₀ + s.session.impl.mConnectionPhase.linesRead * (connectionTimeOut + δ)

/-- A client that stays `CONNECTING` in `processConnection` was in time for its next line. -/
theorem OnTime.early (hs : OnTime δ t₀ s) (h : s.step p = some (t, es))
    (hconn : t.session.impl.mReadyState = .connecting) {expired : Bool} {v : Option UInt8}
    (hi : p.input = .connect expired v) :
    p.now < t₀ + s.session.impl.mConnectionPhase.linesRead * (connectionTimeOut + δ) +
      connectionTimeOut := by
  obtain ⟨hagrees, -, -, es', -, hsession⟩ := step_cases h
  obtain ⟨hconn', hstep⟩ := Session.step_client hs.consistent hsession hconn
  obtain ⟨hclient, hstart⟩ := hs.client hconn'
  obtain ⟨-, -, hintime⟩ := hstep hclient
  unfold Agrees at hagrees
  rw [hi] at hagrees hintime
  obtain rfl : expired = false := by
    cases expired with
    | false => rfl
    | true => exact absurd rfl (hintime v)
  have hless := of_decide_eq_false hagrees.symm
  rw [Timer.peekElapsedSeconds, not_le] at hless
  omega

/-- One step keeps a client on time. -/
theorem step_onTime (hs : OnTime δ t₀ s) (h : s.step p = some (t, es)) (hprompt : Prompt δ s p es) :
    OnTime δ t₀ t := by
  obtain ⟨-, htimer, -, es', -, hsession⟩ := step_cases h
  refine ⟨Session.step_consistent hs.consistent hsession, fun hconn => ?_⟩
  obtain ⟨hconn', hstep⟩ := Session.step_client hs.consistent hsession hconn
  obtain ⟨hclient, hstart⟩ := hs.client hconn'
  obtain ⟨hclient', hcount, -⟩ := hstep hclient
  refine ⟨hclient', ?_⟩
  rw [htimer, hcount, connectionTimer]
  split_ifs with hi
  · have hless := hs.early h hconn hi
    unfold Prompt at hprompt
    simp only [Timer.getElapsedSeconds, Timer.reset]
    push_cast
    rw [add_one_mul]
    omega
  · exact hstart

/-- A client starts on time. -/
theorem onTime_start (p : Platform) (url origin : Bytes) (useMask connected : Bool) :
    OnTime δ t₀ (start (WebSocketImpl.ofUrl p url origin useMask connected).1 t₀) := by
  refine ⟨Session.consistent_start _, fun hconn => ⟨?_, ?_⟩⟩
  · change (WebSocketImpl.ofUrl p url origin useMask connected).1.mReadyState = .connecting at hconn
    change (WebSocketImpl.ofUrl p url origin useMask connected).1.IsClient
    unfold WebSocketImpl.ofUrl at hconn ⊢
    split_ifs at hconn ⊢
    · cases hconn
    · cases hconn
    · split at hconn
      · cases hconn
      · split_ifs at hconn ⊢
        · exact ⟨rfl, rfl, by simp [WebSocketImpl.initial]⟩
        · cases hconn
  · have hpos : (0 : ℤ) ≤ connectionTimeOut + δ := by
      unfold connectionTimeOut seconds
      omega
    exact le_add_of_nonneg_right (mul_nonneg (Int.natCast_nonneg _) hpos)

/-- A client does not stay `CONNECTING`. Six lines make up the response; once six times the time for
a line are over since the constructor returned, a `poll` that looks at the clock leaves the client
`OPEN` or `CLOSED`, whatever the server sends and whenever, and it is never `CONNECTING` again. The
time that the calls themselves take between their two looks at the clock adds to it. -/
theorem client_deadline {p : Platform} {url origin : Bytes} {useMask connected : Bool}
    {tr : List (ClockedInput × List (Input × List Event))}
    (h : clockedMachine.Run (Prompt δ)
      (start (WebSocketImpl.ofUrl p url origin useMask connected).1 t₀) tr s)
    {expired : Bool} {v : Option UInt8} {now later : ℤ}
    (hpoll : s.step ⟨.connect expired v, now, later⟩ = some (t, es))
    (hlate : t₀ + 6 * connectionTimeOut + 5 * δ ≤ now) :
    (t.session.impl.mReadyState = .opened ∨ t.session.impl.mReadyState = .closed) ∧
      ∀ tr' u, clockedMachine.Run Machine.anyStep t tr' u →
        u.session.impl.mReadyState ≠ .connecting := by
  have hs := h.invariant_state (onTime_start p url origin useMask connected)
    fun _ _ _ _ ih hstep hprompt => step_onTime ih hstep hprompt
  obtain ⟨-, -, -, es', -, hsession⟩ := step_cases hpoll
  have hconsistent := Session.step_consistent hs.consistent hsession
  have hleft : t.session.impl.mReadyState ≠ .connecting := fun hconn => by
    have hless := hs.early hpoll hconn rfl
    have hlines := s.session.impl.mConnectionPhase.linesRead_le
    have hmul : (s.session.impl.mConnectionPhase.linesRead : ℤ) * (connectionTimeOut + δ) ≤
        5 * (connectionTimeOut + δ) :=
      mul_le_mul_of_nonneg_right (by omega) (by unfold connectionTimeOut seconds; omega)
    simp only at hless
    omega
  refine ⟨?_, fun tr' u hrun => ?_⟩
  · have hclosing := Session.connect_not_closing hs.consistent hsession
    cases hstate : t.session.impl.mReadyState with
    | connecting => exact absurd hstate hleft
    | opened => exact .inl rfl
    | closing => exact absurd hstate hclosing
    | closed => exact .inr rfl
  · refine (hrun.invariant_state (P := fun s => s.session.Consistent ∧
      s.session.impl.mReadyState ≠ .connecting) ⟨hconsistent, hleft⟩ ?_).2
    rintro s p es t ⟨hs, hne⟩ hstep -
    obtain ⟨-, -, -, es', -, hsession⟩ := step_cases hstep
    exact ⟨Session.step_consistent hs hsession,
      fun hconn => hne (Session.step_client hs hsession hconn).1⟩

/-- A client reads a line after 59 seconds, and its time is over after another 301. -/
theorem client_deadline_line :
    ∃ tr s t es, clockedMachine.Run (Prompt 0)
        (start (WebSocketImpl.ofUrl Session.zeroPlatform (ascii "ws://h") [] true true).1 0) tr s ∧
      s.session.impl.mReadyState = .connecting ∧
      s.session.impl.mConnectionPhase = .hconnectionUpgrade ∧
      s.step ⟨.connect true none, seconds 360, seconds 360⟩ = some (t, es) ∧
      (t.session.impl.mReadyState = .opened ∨ t.session.impl.mReadyState = .closed) := by
  obtain ⟨tr, s, hrun, hP⟩ := Machine.exists_run_of_exec (M := clockedMachine) (G := Prompt 0)
    (s := start (WebSocketImpl.ofUrl Session.zeroPlatform (ascii "ws://h") [] true true).1 0)
    (l := (Session.handshakeInputs (ascii "HTTP/1.1 101\r\n") ++ [Input.poll true 0]).map
        (fun i => ⟨i, seconds 59, seconds 59⟩))
    (P := fun r => decide (r.1.session.impl.mReadyState = .connecting ∧
        r.1.session.impl.mConnectionPhase = .hconnectionUpgrade) &&
      (r.1.step ⟨.connect true none, seconds 360, seconds 360⟩).isSome)
    (by decide +kernel)
  obtain ⟨hstate, hpoll⟩ := Bool.and_eq_true_iff.mp hP
  obtain ⟨⟨t, es⟩, hpoll⟩ := Option.isSome_iff_exists.mp hpoll
  obtain ⟨hconn, hphase⟩ := of_decide_eq_true hstate
  exact ⟨tr, s, t, es, hrun, hconn, hphase, hpoll,
    (client_deadline hrun hpoll (by decide)).1⟩

end ClockedSession

/-! ### The destructor -/

namespace Session

variable {s t : Session} {i : Input} {es : List Event}

/-- The destructor returns from its loop, when the connection is `CLOSED` or its time is over. -/
theorem destroyed_of_step (hs : s.Consistent) (h : s.step i = some (t, es))
    (ht : t.stack.head? = some .destroyed) :
    ∃ polled timedOut, i = .destroyLoop timedOut ∧ s.stack.head? = some (.destroying polled) ∧
      t.impl = s.impl ∧ (s.impl.mReadyState = .closed ∨ polled = true ∧ timedOut = true) := by
  have hno {a : Activation} {next rest : List Activation} (hstack : s.stack = a :: rest)
      (hnext : .destroyed ∉ next) (ht : (next ++ rest).head? = some .destroyed) : False :=
    hs.head_ne_destroyed hstack hnext ht
  cases step_cases h with
  | call => exact absurd ht (step_head (s := s) h)
  | poll callback timeout hcall =>
    refine ((List.mem_append.mp (List.mem_of_mem_head? ht)).elim
      (fun ha => ((poll_socketCalls _ _ _).1 _ ha).1 rfl) fun ha => ?_).elim
    cases hs.callers_of_callable hcall _ ha
  | destroy => cases ht
  | @connect rest _ _ hstack =>
    have ht : ([] ++ rest).head? = some .destroyed := ht
    exact (hno hstack (by simp) ht).elim
  | @receive callback rest r hstack =>
    refine (hno hstack ?_ ht).elim
    unfold WebSocketImpl.receiveIteration WebSocketImpl.leaveReceive
    grind
  | @transmit callback rest r hstack =>
    refine (hno hstack ?_ ht).elim
    unfold WebSocketImpl.transmitIteration WebSocketImpl.leaveTransmit WebSocketImpl.beginDispatch
    grind
  | dispatch key hstack =>
    refine (hno hstack ?_ ht).elim
    cases (s.impl.dispatchIteration key).2.1 <;> simp [WebSocketImpl.Flow.next]
  | ret hstack => cases ht
  | @destroyLoop polled rest timedOut next es hstack =>
    refine ⟨polled, timedOut, rfl, by rw [hstack]; rfl, rfl, ?_⟩
    simp only [step, hstack] at h
    cases polled with
    | false =>
      by_cases hclosed : s.impl.mReadyState = .closed
      · exact .inl hclosed
      · simp only [WebSocketImpl.resume, if_neg hclosed, Option.some.injEq, Prod.mk.injEq,
          Session.mk.injEq, true_and, List.append_assoc] at h
        rw [← h.1] at ht
        refine ((List.mem_append.mp (List.mem_of_mem_head? ht)).elim
          (fun ha => ((poll_socketCalls _ _ _).1 _ ha).1 rfl) fun ha => ?_).elim
        rcases List.mem_cons.mp ha with ha | ha
        · cases ha
        · cases hs.callers_of_cons hstack _ ha
    | true =>
      cases timedOut with
      | true => exact .inr ⟨rfl, rfl⟩
      | false =>
        simp only [WebSocketImpl.resume, Bool.false_eq_true, if_false, Option.some.injEq,
          Prod.mk.injEq, Session.mk.injEq, true_and] at h
        rw [← h.1] at ht
        cases ht

/-- After a round of the destructor comes the test of its time. -/
theorem test_of_step (h : s.step i = some (t, es))
    (hhead : s.stack.head? = some (.destroying true)) :
    ∃ timedOut, i = .destroyLoop timedOut ∧
      (timedOut = true → t.stack.head? = some .destroyed) := by
  obtain ⟨rest, hstack⟩ := List.head?_eq_some_iff.mp hhead
  unfold step at h
  rw [hstack] at h
  cases i with
  | destroyLoop timedOut =>
    refine ⟨timedOut, rfl, ?_⟩
    rintro rfl
    obtain ⟨rfl, -⟩ : _ ∧ _ := by simpa [WebSocketImpl.resume] using h
    rfl
  | _ => simp [WebSocketImpl.resume, enter, callable, hstack] at h

end Session

namespace ClockedSession

variable {s t : ClockedSession} {p : ClockedInput} {es : List (Input × List Event)}

/-- No round of the loop of the destructor takes `CLOSE_TIMEOUT`. -/
def Quick (s : ClockedSession) (p : ClockedInput) (_ : List (Input × List Event)) : Prop :=
  s.session.stack.head? = some (.destroying true) →
    p.now < s.closeTimer.mStartTime + closeTimeout

instance (s : ClockedSession) (p : ClockedInput) (es : List (Input × List Event)) :
    Decidable (Quick s p es) := inferInstanceAs (Decidable (_ → _))

/-- In a quick round the time is not over. -/
theorem timedOut_eq_false (hagrees : s.Agrees p) (hquick : Quick s p es) {timedOut : Bool}
    (hi : p.input = .destroyLoop timedOut)
    (hhead : s.session.stack.head? = some (.destroying true)) : timedOut = false := by
  unfold Agrees at hagrees
  rw [hi] at hagrees
  rw [hagrees hhead, decide_eq_false_iff_not, not_le]
  have hless := hquick hhead
  simp only [Timer.getElapsedSeconds, Timer.peekElapsedSeconds]
  omega

/-- What the clock has said, first and last, when the destructor started its timer and at each test
of it. -/
def recordReadings (readings : List (ℤ × ℤ)) (s : ClockedSession) (p : ClockedInput) :
    List (ℤ × ℤ) :=
  if p.input = .destroy then [(p.now, p.later)]
  else if s.session.stack.head? = some (.destroying true) then readings ++ [(p.now, p.later)]
  else readings

/-- No round between two readings took `CLOSE_TIMEOUT`. -/
def ShortRounds (readings : List (ℤ × ℤ)) : Prop :=
  readings.IsChain fun r r' => r'.1 - r.2 < closeTimeout

/-- The timer of the destructor was started by the last reading; a destructor that is not over has
had short rounds, and one that is over and had short rounds has closed the connection. -/
structure Measures (readings : List (ℤ × ℤ)) (s : ClockedSession) : Prop where
  consistent : s.session.Consistent
  started : ∃ before first, readings = before ++ [(first, s.closeTimer.mStartTime)]
  running : s.session.stack.head? ≠ some .destroyed → ShortRounds readings
  returned : s.session.stack.head? = some .destroyed → ShortRounds readings →
    s.session.impl.mReadyState = .closed

/-- The next round is as long as the timer says. -/
theorem Measures.shortRounds_snoc {readings : List (ℤ × ℤ)} (hs : Measures readings s)
    (hhead : s.session.stack.head? ≠ some .destroyed) {now later : ℤ} :
    ShortRounds (readings ++ [(now, later)]) ↔
      (s.closeTimer.getElapsedSeconds now later).1 < closeTimeout := by
  obtain ⟨before, first, rfl⟩ := hs.started
  rw [ShortRounds, List.append_assoc, List.singleton_append, List.isChain_append_cons_cons]
  exact ⟨fun h => h.2.1, fun h => ⟨hs.running hhead, h, List.isChain_singleton _⟩⟩

/-- One step of a session with its timers, and the reading it adds. -/
theorem Measures.step {readings : List (ℤ × ℤ)} (hs : Measures readings s)
    (h : s.step p = some (t, es)) : Measures (recordReadings readings s p) t := by
  obtain ⟨hagrees, -, htimer, es', -, hsession⟩ := step_cases h
  have hconsistent := Session.step_consistent hs.consistent hsession
  have hhead := Session.step_head hsession
  unfold recordReadings
  rw [destructorTimer] at htimer
  by_cases hdestroy : p.input = .destroy
  · -- the timer starts
    rw [if_pos hdestroy] at htimer ⊢
    refine ⟨hconsistent, ⟨[], p.now, by rw [htimer]; rfl⟩, fun _ => List.isChain_singleton _,
      fun ht => ?_⟩
    obtain ⟨polled, timedOut, hi, -⟩ := Session.destroyed_of_step hs.consistent hsession ht
    rw [hdestroy] at hi
    cases hi
  rw [if_neg hdestroy] at htimer ⊢
  by_cases htest : s.session.stack.head? = some (.destroying true)
  · -- a round is over, and the timer starts again
    rw [if_pos htest] at htimer ⊢
    refine ⟨hconsistent, ⟨readings, p.now, by rw [htimer]; rfl⟩, fun hgoing => ?_,
      fun ht hshort => ?_⟩
    · obtain ⟨timedOut, hi, htimedOut⟩ := Session.test_of_step hsession htest
      unfold Agrees at hagrees
      rw [hi] at hagrees
      rw [hs.shortRounds_snoc hhead]
      by_contra hlong
      exact hgoing (htimedOut ((hagrees htest).trans (decide_eq_true (not_lt.mp hlong))))
    · obtain ⟨polled, timedOut, hi, -, himpl, hclosed | ⟨-, rfl⟩⟩ :=
        Session.destroyed_of_step hs.consistent hsession ht
      · rw [himpl, hclosed]
      · unfold Agrees at hagrees
        rw [hi] at hagrees
        have hlong := of_decide_eq_true (hagrees htest).symm
        exact absurd ((hs.shortRounds_snoc hhead).mp hshort) (not_lt.mpr hlong)
  · -- the timer is not read
    rw [if_neg htest] at htimer ⊢
    refine ⟨hconsistent, by rw [htimer]; exact hs.started, fun _ => hs.running hhead,
      fun ht _ => ?_⟩
    obtain ⟨polled, timedOut, -, hstack, himpl, hclosed | ⟨rfl, -⟩⟩ :=
      Session.destroyed_of_step hs.consistent hsession ht
    · rw [himpl, hclosed]
    · exact absurd hstack htest

/-- The destructor gives up after the first round that takes `CLOSE_TIMEOUT`, and only then. While
it has not returned, no round has taken as long; and if none has when it returns, the connection is
`CLOSED`, however long the rounds took together. -/
theorem destructor_returns {w : WebSocketImpl} {t₀ : ℤ}
    {tr : List (ClockedInput × List (Input × List Event))} {readings : List (ℤ × ℤ)}
    (h : (clockedMachine.withHistory recordReadings).Run Machine.anyStep (start w t₀, [(t₀, t₀)]) tr
      (t, readings)) :
    (t.session.stack.head? ≠ some .destroyed → ShortRounds readings) ∧
      (t.session.stack.head? = some .destroyed → ShortRounds readings →
        t.session.impl.mReadyState = .closed) := by
  have hstart : Measures [(t₀, t₀)] (start w t₀) :=
    ⟨Session.consistent_start w, ⟨[], t₀, rfl⟩, fun _ => List.isChain_singleton _,
      fun h => by cases h⟩
  have ht := h.invariant_state (P := fun q => Measures q.2 q.1) hstart ?_
  · exact ⟨ht.running, ht.returned⟩
  · rintro q p es q' hq hstep -
    obtain ⟨hstep, hrecord⟩ := Machine.withHistory_cases hstep
    rw [hrecord]
    exact hq.step hstep

/-- A connection whose close frame goes out in the second round: the two rounds together take almost
twice as long as one may. -/
theorem destructor_returns_flushed :
    ∃ tr t, (clockedMachine.withHistory recordReadings).Run Machine.anyStep
        (start (.ofSocket Session.zeroPlatform true true) 0, [(0, 0)]) tr
        (t, [(0, 0), (closeTimeout - 1, closeTimeout - 1),
          (2 * (closeTimeout - 1), 2 * (closeTimeout - 1))]) ∧
      t.session.stack.head? = some .destroyed ∧ t.session.impl.mReadyState = .closed := by
  obtain ⟨tr, ⟨t, readings⟩, hrun, hP⟩ :=
    Machine.exists_run_of_exec (M := clockedMachine.withHistory recordReadings)
      (G := Machine.anyStep)
      (s := (start (.ofSocket Session.zeroPlatform true true) 0, [(0, 0)]))
      (l := [Input.destroy, .destroyLoop false, .receive .wouldBlock, .send .wouldBlock].map
          (fun i => ⟨i, 0, 0⟩) ++
        [Input.destroyLoop false, .destroyLoop false, .receive .wouldBlock, .send (.accepted 6),
          .send .wouldBlock].map (fun i => ⟨i, closeTimeout - 1, closeTimeout - 1⟩) ++
        [Input.destroyLoop false, .destroyLoop false].map
          (fun i => ⟨i, 2 * (closeTimeout - 1), 2 * (closeTimeout - 1)⟩))
      (P := fun r => decide (r.1.1.session.stack.head? = some .destroyed ∧
        r.1.2 = [(0, 0), (closeTimeout - 1, closeTimeout - 1),
          (2 * (closeTimeout - 1), 2 * (closeTimeout - 1))])) (by decide +kernel)
  obtain ⟨hhead, rfl⟩ := of_decide_eq_true hP
  have hshort : ShortRounds [(0, 0), (closeTimeout - 1, closeTimeout - 1),
      (2 * (closeTimeout - 1), 2 * (closeTimeout - 1))] := by
    simp [ShortRounds, closeTimeout, seconds]
  exact ⟨tr, t, hrun, hhead, (destructor_returns hrun).2 hhead hshort⟩

/-- The socket takes no bytes and does not fail, and no round of the destructor takes
`CLOSE_TIMEOUT`. -/
def Blocked (s : ClockedSession) (p : ClockedInput) (es : List (Input × List Event)) : Prop :=
  Quick s p es ∧ (∀ r, p.input = .send r → r = .wouldBlock) ∧
    ∀ r, p.input = .receive r → r ≠ .endOfStream ∧ r ≠ .error

/-- A destructor that has bytes to transmit, anywhere in a round of its loop. -/
structure Waiting (s : ClockedSession) : Prop where
  consistent : s.session.Consistent
  state : s.session.impl.mReadyState = .closing
  socket : s.session.impl.mSocket = true
  queued : s.session.impl.mTransmitBuffer.getSize ≠ 0
  stack : (∃ polled, s.session.stack = [.destroying polled]) ∨
    s.session.stack = [.receiving false, .destroying true] ∨
    s.session.stack = [.transmitting false, .destroying true]

theorem Waiting.transmitIteration_eq (hs : Waiting s) :
    s.session.impl.transmitIteration false .wouldBlock = (s.session.impl, [],
      [.transmit s.session.impl.mTransmitBuffer.getData .wouldBlock]) := by
  simp [WebSocketImpl.transmitIteration, WebSocketImpl.leaveTransmit, hs.state, hs.queued,
    WebSocketImpl.beginDispatch]

/-- It waits on. -/
theorem Waiting.step (hs : Waiting s) (h : s.step p = some (t, es)) (hblocked : Blocked s p es) :
    Waiting t := by
  obtain ⟨hagrees, -, -, es', -, hsession⟩ := step_cases h
  obtain ⟨hquick, hsend, hreceive⟩ := hblocked
  have hconsistent := Session.step_consistent hs.consistent hsession
  have hopen : s.session.impl.mReadyState ≠ .closed := by simp [hs.state]
  have hreturn : t.session.stack.head? ≠ some .destroyed := fun ht => by
    obtain ⟨polled, timedOut, hi, hhead, -, hclosed | ⟨rfl, rfl⟩⟩ :=
      Session.destroyed_of_step hs.consistent hsession ht
    · exact hopen hclosed
    · cases timedOut_eq_false hagrees hquick hi hhead
  obtain ⟨session, connectionTimer, closeTimer⟩ := t
  rcases hs.stack with ⟨polled, hstack⟩ | hstack | hstack
  · obtain ⟨timedOut, hi⟩ : ∃ timedOut, p.input = .destroyLoop timedOut := by
      unfold Session.step at hsession
      rw [hstack] at hsession
      cases hi : p.input <;> simp_all [WebSocketImpl.resume, Session.enter, Session.callable]
    rw [hi] at hsession
    obtain ⟨rfl, -⟩ | ⟨rfl, -⟩ | ⟨-, -, rfl⟩ := Session.destroyLoop_cases hsession hstack
    · exact absurd rfl hreturn
    · exact ⟨hconsistent, hs.state, hs.socket, hs.queued, .inl ⟨false, rfl⟩⟩
    · refine ⟨hconsistent, hs.state, hs.socket, hs.queued, .inr (.inl ?_)⟩
      simp [WebSocketImpl.poll, hs.socket, hs.state]
  · obtain ⟨r, hi⟩ : ∃ r, p.input = .receive r := by
      unfold Session.step at hsession
      rw [hstack] at hsession
      cases hi : p.input <;> simp_all [WebSocketImpl.resume, Session.enter, Session.callable]
    obtain ⟨hend, herror⟩ := hreceive r hi
    rw [hi] at hsession
    simp only [Session.step, hstack, WebSocketImpl.resume] at hsession
    split_ifs at hsession
    · obtain ⟨rfl, -⟩ : _ ∧ _ := by simpa using hsession
      unfold WebSocketImpl.receiveIteration at hconsistent ⊢
      simp only at hconsistent ⊢
      split_ifs at hconsistent ⊢
      · cases r with
        | data d => exact ⟨hconsistent, hs.state, hs.socket, hs.queued, .inr (.inl rfl)⟩
        | wouldBlock =>
          refine ⟨hconsistent, hs.state, hs.socket, hs.queued, .inr (.inr ?_)⟩
          simp [WebSocketImpl.leaveReceive, hs.state]
        | endOfStream => exact absurd rfl hend
        | error => exact absurd rfl herror
      · refine ⟨hconsistent, hs.state, hs.socket, hs.queued, .inr (.inr ?_)⟩
        simp [WebSocketImpl.leaveReceive, hs.state]
    · simp [Session.enter, Session.callable, hstack] at hsession
  · obtain ⟨r, hi⟩ : ∃ r, p.input = .send r := by
      unfold Session.step at hsession
      rw [hstack] at hsession
      cases hi : p.input <;> simp_all [WebSocketImpl.resume, Session.enter, Session.callable]
    obtain rfl := hsend r hi
    rw [hi] at hsession
    simp only [Session.step, hstack, WebSocketImpl.resume, SendResult.Valid] at hsession
    obtain ⟨rfl, -⟩ : _ ∧ _ := by simpa using hsession
    rw [hs.transmitIteration_eq] at hconsistent ⊢
    exact ⟨hconsistent, hs.state, hs.socket, hs.queued, .inl ⟨true, rfl⟩⟩

/-- A step of the session that the timers allow. -/
theorem Waiting.next (hs : Waiting s) (i : Input) (now : ℤ) (u : Session) {es' : List Event}
    (hagrees : s.Agrees ⟨i, now, now⟩) (h : s.session.step i = some (u, es'))
    (hblocked : Blocked s ⟨i, now, now⟩ [(i, es')]) :
    ∃ tr t, clockedMachine.Run Blocked s tr t ∧ Waiting t ∧ t.session = u ∧
      t.closeTimer = s.destructorTimer ⟨i, now, now⟩ := by
  have hstep : s.step ⟨i, now, now⟩ = some (⟨u, s.connectionTimer ⟨i, now, now⟩,
      s.destructorTimer ⟨i, now, now⟩⟩, [(i, es')]) := by
    rw [ClockedSession.step, if_pos hagrees, h]
    rfl
  exact ⟨_, _, .single hstep hblocked, hs.step hstep hblocked, rfl, rfl⟩

theorem blocked_of_head {i : Input} {now : ℤ}
    (hhead : s.session.stack.head? = some (.destroying true) →
      now < s.closeTimer.mStartTime + closeTimeout)
    (hi : i = .destroyLoop false ∨ i = .receive .wouldBlock ∨ i = .send .wouldBlock) :
    Blocked s ⟨i, now, now⟩ es := by
  refine ⟨hhead, ?_, ?_⟩ <;> rcases hi with rfl | rfl | rfl <;> simp

/-- A round of the loop in which the socket takes nothing, and which is as long as a quick one can
be. -/
theorem Waiting.round (hs : Waiting s) (hstack : s.session.stack = [.destroying false]) :
    ∃ tr t, clockedMachine.Run Blocked s tr t ∧ Waiting t ∧
      t.session.stack = [.destroying false] ∧
      t.closeTimer.mStartTime = s.closeTimer.mStartTime + (closeTimeout - 1) := by
  let now := s.closeTimer.mStartTime + (closeTimeout - 1)
  -- `poll` is entered
  obtain ⟨tr, t, hrun, ht, hsession, htimer⟩ := hs.next (.destroyLoop false) now
    ⟨s.session.impl, [.receiving false, .destroying true]⟩ (by simp [Agrees, hstack])
    (by
      simp [Session.step, hstack, WebSocketImpl.resume, WebSocketImpl.poll, hs.state, hs.socket]
      rfl)
    (blocked_of_head (by simp [hstack]) (.inl rfl))
  rw [destructorTimer, if_neg (by simp), if_neg (by simp [hstack])] at htimer
  -- the receive loop is left
  have hnext : (t.session.impl.receiveIteration false .wouldBlock).2.1 = [.transmitting false] := by
    unfold WebSocketImpl.receiveIteration
    simp only
    split_ifs <;> simp [WebSocketImpl.leaveReceive, ht.state]
  obtain ⟨tr', t', hrun', ht', hsession', htimer'⟩ := ht.next (.receive .wouldBlock) now
    ⟨(t.session.impl.receiveIteration false .wouldBlock).1, [.transmitting false, .destroying true]⟩
    (by simp [Agrees])
    (by
      rw [Session.step, congrArg Session.stack hsession]
      simp [WebSocketImpl.resume, hnext, RecvResult.Valid]
      rfl)
    (blocked_of_head (by simp [hsession]) (.inr (.inl rfl)))
  rw [destructorTimer, if_neg (by simp), if_neg (by simp [hsession]), htimer] at htimer'
  -- the transmit loop is left
  obtain ⟨tr'', t'', hrun'', ht'', hsession'', htimer''⟩ := ht'.next (.send .wouldBlock) now
    ⟨t'.session.impl, [.destroying true]⟩ (by simp [Agrees])
    (by
      rw [Session.step, congrArg Session.stack hsession']
      simp [WebSocketImpl.resume, ht'.transmitIteration_eq, SendResult.Valid]
      rfl)
    (blocked_of_head (by simp [hsession']) (.inr (.inr rfl)))
  rw [destructorTimer, if_neg (by simp), if_neg (by simp [hsession']), htimer'] at htimer''
  -- the timer of the destructor starts again
  obtain ⟨tr₃, t₃, hrun₃, ht₃, hsession₃, htimer₃⟩ := ht''.next (.destroyLoop false) now
    ⟨t''.session.impl, [.destroying false]⟩
    (by
      intro _
      simp only [Timer.getElapsedSeconds, Timer.peekElapsedSeconds, htimer'', now]
      exact (decide_eq_false (by omega)).symm)
    (by
      rw [Session.step, congrArg Session.stack hsession'']
      simp [WebSocketImpl.resume]
      rfl)
    (blocked_of_head (fun _ => by rw [htimer'']; simp only [now]; omega) (.inl rfl))
  rw [destructorTimer, if_neg (by simp), if_pos (by simp [hsession''])] at htimer₃
  exact ⟨_, t₃, ((hrun.trans hrun').trans hrun'').trans hrun₃, ht₃, by rw [hsession₃],
    by rw [htimer₃]; rfl⟩

/-- The destructor waits for a socket that takes no bytes. As long as the socket takes none and no
single round of its loop takes `CLOSE_TIMEOUT`, it does not return; and so it may go on for any
time, since the timer starts again in every round. -/
theorem destructor_waits (hs : Waiting s) (hstack : s.session.stack = [.destroying false]) :
    (∀ tr t, clockedMachine.Run Blocked s tr t → t.session.stack.head? ≠ some .destroyed) ∧
      ∀ T, ∃ tr t, clockedMachine.Run Blocked s tr t ∧ T ≤ t.closeTimer.mStartTime ∧
        t.session.stack = [.destroying false] := by
  constructor
  · intro tr t h hend
    have ht := h.invariant_state (P := Waiting) hs fun _ _ _ _ hs hstep hguard =>
      hs.step hstep hguard
    rcases ht.stack with ⟨polled, hstack⟩ | hstack | hstack <;> simp [hstack] at hend
  · intro T
    have hrounds (n : ℕ) : ∃ tr t, clockedMachine.Run Blocked s tr t ∧ Waiting t ∧
        t.session.stack = [.destroying false] ∧
        t.closeTimer.mStartTime = s.closeTimer.mStartTime + n * (closeTimeout - 1) := by
      induction n with
      | zero => exact ⟨[], s, .nil, hs, hstack, by simp⟩
      | succ n ih =>
        obtain ⟨tr, t, hrun, ht, hstack, htime⟩ := ih
        obtain ⟨tr', u, hrun', hu, hstack', htime'⟩ := ht.round hstack
        refine ⟨_, u, hrun.trans hrun', hu, hstack', ?_⟩
        rw [htime', htime]
        push_cast
        ring
    obtain ⟨tr, t, hrun, -, hstack, htime⟩ := hrounds (T - s.closeTimer.mStartTime).toNat
    refine ⟨tr, t, hrun, ?_, hstack⟩
    have hle := Int.self_le_toNat (T - s.closeTimer.mStartTime)
    have hclose : (1 : ℤ) ≤ closeTimeout - 1 := by decide
    have hmul := le_mul_of_one_le_right
      (Int.natCast_nonneg (T - s.closeTimer.mStartTime).toNat) hclose
    omega

/-- A destructor that is still at it after an hour. -/
theorem destructor_waits_hour :
    ∃ tr t, clockedMachine.Run Blocked
        ⟨⟨(WebSocketImpl.ofSocket Session.zeroPlatform true true).close.1, [.destroying false]⟩,
          ⟨0⟩, ⟨0⟩⟩ tr t ∧
      seconds 3600 ≤ t.closeTimer.mStartTime ∧ t.session.stack = [.destroying false] := by
  have hstep : (Session.start (.ofSocket Session.zeroPlatform true true)).step .destroy =
      some (⟨(WebSocketImpl.ofSocket Session.zeroPlatform true true).close.1, [.destroying false]⟩,
        (WebSocketImpl.ofSocket Session.zeroPlatform true true).close.2) := rfl
  exact (destructor_waits
    ⟨Session.step_consistent (Session.consistent_start _) hstep, by decide +kernel,
      by decide +kernel, by decide +kernel, .inl ⟨false, rfl⟩⟩ rfl).2 (seconds 3600)

end ClockedSession

end WsClient
