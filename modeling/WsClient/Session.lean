import WsClient.Connection
import WsClient.Library.Transition

/-!
# Runs of a connection object

`poll` and the destructor as they interleave with the socket, the callback and the application.
A *session* is the object together with the functions that have been entered on it and have not
returned, the innermost first. A step resumes the innermost function with what it was waiting for,
one result of the socket, the return of the callback or the end of a wait, or enters a function
from the application; from inside the callback the application may call back into the object.

The steps that may call the socket take the result as an input. If the function leaves its loop
without the call, the result is not used.

## Main definitions

* `WebSocketImpl.poll`, `WebSocketImpl.receiveIteration`, `WebSocketImpl.transmitIteration`.
* `Activation`, `Input`, `Session`, `Session.step`, `sessionMachine`.

## Main results

* `Session.step_cases`: everything that a step can do.
-/

namespace WsClient

/-- A function that has been entered, at the point where it waits for its environment. -/
inductive Activation
  /-- `processConnection`, in the call of `receive`. -/
  | connecting
  /-- The receive loop of `poll`. -/
  | receiving (callback : Bool)
  /-- The transmit loop of `poll`. -/
  | transmitting (callback : Bool)
  /-- The frame loop of `_dispatchBinary`. -/
  | dispatching
  /-- The frame loop, in the call of `receiveMessage`. -/
  | delivering (frameSize : ℕ) (clear : Bool)
  /-- The loop of the destructor, before or after its call of `poll`. -/
  | destroying (polled : Bool)
  /-- The destructor has returned. -/
  | destroyed
  deriving DecidableEq, Repr

/-- What the environment of the object does next. -/
inductive Input
  | sendText (str : Option Bytes) (maskingKey : MaskingKey)
  | sendBinary (data : Option Bytes) (maskingKey : MaskingKey)
  | sendPing (maskingKey : MaskingKey)
  | close
  | poll (callback : Bool) (timeout : ℤ)
  | destroy
  /-- Whether the time for the connection is over, and the byte `receive` stored, if any. -/
  | connect (expired : Bool) (v : Option UInt8)
  | receive (r : RecvResult)
  | send (r : SendResult)
  /-- The frame loop goes on, with the key that is drawn if it queues a frame. -/
  | dispatch (maskingKey : MaskingKey)
  /-- `receiveMessage` returns. -/
  | ret
  /-- The loop of the destructor goes on; the flag is whether its time is over. -/
  | destroyLoop (timedOut : Bool)
  deriving DecidableEq

/-- The result of a call that `poll` waits for, or one more iteration of its loops. -/
def Input.isResult : Input → Bool
  | .connect _ _ | .receive _ | .send _ | .dispatch _ | .ret => true
  | .sendText _ _ | .sendBinary _ _ | .sendPing _ | .close | .poll _ _ | .destroy
  | .destroyLoop _ => false

/-- A positive result counts the bytes stored, at most the number asked for. -/
def RecvResult.Valid (maxLen : ℕ) : RecvResult → Prop
  | .data d => d ≠ [] ∧ d.length ≤ maxLen
  | _ => True

/-- A positive result counts the bytes accepted, at most the number handed over. -/
def SendResult.Valid (dataLen : ℕ) : SendResult → Prop
  | .accepted n => 0 < n ∧ n ≤ dataLen
  | _ => True

instance (maxLen : ℕ) : DecidablePred (RecvResult.Valid maxLen) := fun r => by
  cases r <;> unfold RecvResult.Valid <;> infer_instance

instance (dataLen : ℕ) : DecidablePred (SendResult.Valid dataLen) := fun r => by
  cases r <;> unfold SendResult.Valid <;> infer_instance

namespace WebSocketImpl

variable (w : WebSocketImpl)

/-- `poll` up to its first call of the socket for data. -/
def poll (callback : Bool) (timeout : ℤ) : List Activation × List Event :=
  if !w.mSocket then ([], [])
  else if w.mReadyState = .connecting then ([.connecting], [])
  else if w.mReadyState = .closed then
    ([], if timeout > 0 then [.nullSelect timeout] else [])
  else ([.receiving callback], [])

/-- `poll` after the receive loop. -/
def leaveReceive (callback : Bool) : List Activation :=
  if w.mReadyState = .closed then [] else [.transmitting callback]

/-- One iteration of the receive loop of `poll`. -/
def receiveIteration (callback : Bool) (r : RecvResult) :
    WebSocketImpl × List Activation × List Event :=
  let c := w.mReceiveBuffer.confirmCapacity maxReadSize
  let w' := w.setReceive c.1
  if c.2 then
    match r with
    | .data d =>
      (w.setReceive ((c.1.writeAtEnd d).addBuffer none d.length).1, [.receiving callback],
        [.received d])
    | .wouldBlock => (w', w'.leaveReceive callback, [])
    | .endOfStream | .error =>
      (w'.setReadyState .closed, [], [.receiveFailed r, .socketClose])
  else (w', w'.leaveReceive callback, [.refused .receive maxReadSize])

/-- `poll` calls `_dispatchBinary` if there is a callback. -/
def beginDispatch (callback : Bool) : List Activation := if callback then [.dispatching] else []

/-- `poll` after the transmit loop. -/
def leaveTransmit (callback : Bool) : WebSocketImpl × List Activation × List Event :=
  if w.mReadyState = .closed then (w, [], [])
  else if w.mTransmitBuffer.getSize = 0 ∧ w.mReadyState = .closing then
    (w.setReadyState .closed, beginDispatch callback, [.socketClose])
  else (w, beginDispatch callback, [])

/-- One iteration of the transmit loop of `poll`. -/
def transmitIteration (callback : Bool) (r : SendResult) :
    WebSocketImpl × List Activation × List Event :=
  if w.mTransmitBuffer.getSize = 0 then w.leaveTransmit callback
  else
    let called := Event.transmit w.mTransmitBuffer.getData r
    match r with
    | .accepted n =>
      (w.setTransmit (w.mTransmitBuffer.consume n), [.transmitting callback], [called])
    | .wouldBlock =>
      ((w.leaveTransmit callback).1, (w.leaveTransmit callback).2.1,
        called :: (w.leaveTransmit callback).2.2)
    | .zero | .error => (w.setReadyState .closed, [], [called, .socketClose])

/-- How the frame loop goes on after an iteration. -/
def Flow.next : Flow → List Activation
  | .stop => []
  | .again => [.dispatching]
  | .deliver frameSize clear => [.delivering frameSize clear]

/-- The calls of the interface that return without waiting. -/
def call : Input → Option (WebSocketImpl × List Event)
  | .sendText str key => some (w.sendText str key)
  | .sendBinary data key => some (w.sendBinary data key)
  | .sendPing key => some (w.sendPing key)
  | .close => some w.close
  | _ => none

/-- Resume the function that waits. -/
def resume : Activation → Input → Option (WebSocketImpl × List Activation × List Event)
  | .connecting, .connect expired v =>
    some ((w.processConnection expired v).1, [], (w.processConnection expired v).2)
  | .receiving callback, .receive r =>
    if r.Valid maxReadSize then some (w.receiveIteration callback r) else none
  | .transmitting callback, .send r =>
    if r.Valid w.mTransmitBuffer.getSize then some (w.transmitIteration callback r) else none
  | .dispatching, .dispatch key =>
    some ((w.dispatchIteration key).1, (w.dispatchIteration key).2.1.next,
      (w.dispatchIteration key).2.2)
  | .delivering frameSize clear, .ret =>
    some ((w.finishDelivery frameSize clear).1, [.dispatching],
      (w.finishDelivery frameSize clear).2)
  | .destroying false, .destroyLoop _ =>
    if w.mReadyState = .closed then
      some (w, [.destroyed], if w.mSocket then [.socketRelease] else [])
    else some (w, (w.poll false 1).1 ++ [.destroying true], (w.poll false 1).2)
  | .destroying true, .destroyLoop timedOut =>
    if timedOut then some (w, [.destroyed], if w.mSocket then [.socketRelease] else [])
    else some (w, [.destroying false], [])
  | _, _ => none

end WebSocketImpl

/-- The object, and the functions that have been entered on it, innermost first. -/
structure Session where
  impl : WebSocketImpl
  stack : List Activation

namespace Session

/-- No function has been entered. -/
def start (w : WebSocketImpl) : Session := ⟨w, []⟩

/-- The application is running: outside of all functions, or in the callback. -/
def callable : List Activation → Bool
  | [] => true
  | .delivering _ _ :: _ => true
  | _ => false

/-- The application calls a function of the interface. -/
def enter (s : Session) (i : Input) : Option (Session × List Event) :=
  if callable s.stack then
    match i with
    | .poll callback timeout =>
      some ({ s with stack := (s.impl.poll callback timeout).1 ++ s.stack },
        (s.impl.poll callback timeout).2)
    | .destroy =>
      if s.stack = [] then some (⟨s.impl.close.1, [.destroying false]⟩, s.impl.close.2) else none
    | i => (s.impl.call i).map fun r => ({ s with impl := r.1 }, r.2)
  else none

/-- One step of a session. -/
def step (s : Session) (i : Input) : Option (Session × List Event) :=
  match s.stack with
  | [] => s.enter i
  | a :: rest =>
    match s.impl.resume a i with
    | some r => some (⟨r.1, r.2.1 ++ rest⟩, r.2.2)
    | none => s.enter i

end Session

/-- The machine whose runs are the runs of a session. -/
def sessionMachine : Machine Session Input Event := ⟨Session.step⟩

@[simp] theorem sessionMachine_step (s : Session) (i : Input) :
    sessionMachine.step s i = s.step i := rfl

/-! ### What a step can do -/

namespace Session

/-- Everything that a step can do. -/
inductive Transition (s : Session) : Input → Session → List Event → Prop
  | call {i r} (hs : callable s.stack = true) (h : s.impl.call i = some r) :
    Transition s i ⟨r.1, s.stack⟩ r.2
  | poll (callback : Bool) (timeout : ℤ) (hs : callable s.stack = true) :
    Transition s (.poll callback timeout)
      ⟨s.impl, (s.impl.poll callback timeout).1 ++ s.stack⟩ (s.impl.poll callback timeout).2
  | destroy (hs : s.stack = []) :
    Transition s .destroy ⟨s.impl.close.1, [.destroying false]⟩ s.impl.close.2
  | connect {rest} (expired : Bool) (v : Option UInt8) (hs : s.stack = .connecting :: rest) :
    Transition s (.connect expired v) ⟨(s.impl.processConnection expired v).1, rest⟩
      (s.impl.processConnection expired v).2
  | receive {callback rest} {r : RecvResult} (hs : s.stack = .receiving callback :: rest)
    (h : r.Valid maxReadSize) :
    Transition s (.receive r)
      ⟨(s.impl.receiveIteration callback r).1,
        (s.impl.receiveIteration callback r).2.1 ++ rest⟩ (s.impl.receiveIteration callback r).2.2
  | transmit {callback rest} {r : SendResult} (hs : s.stack = .transmitting callback :: rest)
    (h : r.Valid s.impl.mTransmitBuffer.getSize) :
    Transition s (.send r)
      ⟨(s.impl.transmitIteration callback r).1,
        (s.impl.transmitIteration callback r).2.1 ++ rest⟩
      (s.impl.transmitIteration callback r).2.2
  | dispatch {rest} (key : MaskingKey) (hs : s.stack = .dispatching :: rest) :
    Transition s (.dispatch key)
      ⟨(s.impl.dispatchIteration key).1, (s.impl.dispatchIteration key).2.1.next ++ rest⟩
      (s.impl.dispatchIteration key).2.2
  | ret {frameSize clear rest} (hs : s.stack = .delivering frameSize clear :: rest) :
    Transition s .ret ⟨(s.impl.finishDelivery frameSize clear).1, .dispatching :: rest⟩
      (s.impl.finishDelivery frameSize clear).2
  | destroyLoop {polled rest} (timedOut : Bool) {next : List Activation} {es : List Event}
    (hs : s.stack = .destroying polled :: rest)
    (h : next = [.destroyed] ∨ next = [.destroying false] ∨
      next = (s.impl.poll false 1).1 ++ [.destroying true])
    (hes : es = [] ∨ es = [.socketRelease]) :
    Transition s (.destroyLoop timedOut) ⟨s.impl, next ++ rest⟩ es

theorem enter_cases {s t : Session} {i : Input} {es : List Event} (h : s.enter i = some (t, es)) :
    Transition s i t es := by
  unfold enter at h
  by_cases hs : callable s.stack = true
  swap
  · rw [if_neg hs] at h
    cases h
  rw [if_pos hs] at h
  split at h
  · obtain ⟨rfl, rfl⟩ : _ ∧ _ := by simpa using h
    exact .poll _ _ hs
  · split_ifs at h with hnil
    obtain ⟨rfl, rfl⟩ : _ ∧ _ := by simpa using h
    exact .destroy hnil
  · obtain ⟨r, hr, hrt⟩ := Option.map_eq_some_iff.mp h
    obtain ⟨rfl, rfl⟩ : _ ∧ _ := by simpa using hrt
    exact .call hs hr

theorem resume_cases {s : Session} {i : Input} {a : Activation} {rest : List Activation}
    {r : WebSocketImpl × List Activation × List Event} (hs : s.stack = a :: rest)
    (h : s.impl.resume a i = some r) : Transition s i ⟨r.1, r.2.1 ++ rest⟩ r.2.2 := by
  unfold WebSocketImpl.resume at h
  split at h
  · obtain rfl := Option.some.inj h
    exact .connect _ _ hs
  · split_ifs at h with hr
    obtain rfl := Option.some.inj h
    exact .receive hs hr
  · split_ifs at h with hr
    obtain rfl := Option.some.inj h
    exact .transmit hs hr
  · obtain rfl := Option.some.inj h
    exact .dispatch _ hs
  · obtain rfl := Option.some.inj h
    exact .ret hs
  · split_ifs at h with hc hsock
    · obtain rfl := Option.some.inj h
      exact .destroyLoop _ hs (.inl rfl) (.inr rfl)
    · obtain rfl := Option.some.inj h
      exact .destroyLoop _ hs (.inl rfl) (.inl rfl)
    · obtain rfl := Option.some.inj h
      refine .destroyLoop _ hs (.inr (.inr rfl)) (.inl ?_)
      simp only [WebSocketImpl.poll, if_neg hc]
      split_ifs <;> rfl
  · split_ifs at h with ht hsock
    · obtain rfl := Option.some.inj h
      exact .destroyLoop _ hs (.inl rfl) (.inr rfl)
    · obtain rfl := Option.some.inj h
      exact .destroyLoop _ hs (.inl rfl) (.inl rfl)
    · obtain rfl := Option.some.inj h
      exact .destroyLoop _ hs (.inr (.inl rfl)) (.inl rfl)
  · cases h

/-- The inversion of `step`. -/
theorem step_cases {s t : Session} {i : Input} {es : List Event} (h : s.step i = some (t, es)) :
    Transition s i t es := by
  unfold step at h
  split at h
  · exact enter_cases h
  · rename_i a rest hs
    split at h
    · rename_i r hr
      obtain ⟨rfl, rfl⟩ : _ ∧ _ := by simpa using h
      exact resume_cases hs hr
    · exact enter_cases h

/-- The functions below those that run have no part in a step. -/
theorem step_append (w : WebSocketImpl) {above : List Activation} (rest : List Activation)
    (i : Input) (h : above ≠ []) :
    step ⟨w, above ++ rest⟩ i =
      (step ⟨w, above⟩ i).map fun r => (⟨r.1.impl, r.1.stack ++ rest⟩, r.2) := by
  obtain ⟨a, above, rfl⟩ := List.exists_cons_of_ne_nil h
  have hstep (above : List Activation) : step ⟨w, a :: above⟩ i =
      match w.resume a i with
      | some r => some (⟨r.1, r.2.1 ++ above⟩, r.2.2)
      | none => enter ⟨w, a :: above⟩ i := rfl
  rw [List.cons_append, hstep, hstep]
  cases w.resume a i with
  | some r => simp
  | none =>
    have hcall : callable (a :: (above ++ rest)) = callable (a :: above) := by cases a <;> rfl
    simp only [enter, hcall, if_neg (List.cons_ne_nil _ _)]
    by_cases hs : callable (a :: above) = true
    · rw [if_pos hs, if_pos hs]
      cases i with
      | poll callback timeout => simp
      | destroy => simp
      | _ => rfl
    · rw [if_neg hs, if_neg hs]
      rfl

end Session

end WsClient
