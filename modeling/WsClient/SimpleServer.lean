import WsClient.Lifecycle

/-!
# The chat server

`SimpleServer::run` of the test server. A round of its loop takes at most one new client, passes a
line of the operator to every client, removes the clients whose connection is closed, and then gives
every client its turn: the WebSocket of the client is polled, and if the poll delivered a text, the
text is passed to `sendText` on every client.

`receiveMessage` keeps only the last text, so a poll that delivers two texts passes on one of them.

A turn is one step here, and the results of the socket during its poll are an input. The destructor
of a client whose connection is closed returns without waiting.

## Main definitions

* `ClientConnection`, `ClientConnection.getMessage`: a client, and its turn.
* `SimpleServer`, `serverMachine`: the server, and its runs.
* `plainTexts`, `passedTo`: the texts that a turn should pass on, and those that it does.

## Main results

* `ClientConnection.getMessage_spec`: what a turn makes of the texts that its poll delivers.
* `chat_broadcast`: when the message pass loses nothing.
-/

namespace WsClient

/-- The fields of `ClientConnection`; the WebSocket with the functions entered on it. -/
structure ClientConnection where
  mHaveMessage : Bool
  mMessage : Bytes
  mClient : Session
  mId : ℕ

namespace ClientConnection

/-- The constructor, for a socket that is not null. -/
def connect (p : Platform) (id : ℕ) : ClientConnection :=
  ⟨false, [], Session.start (.ofSocket p true true), id⟩

/-- The callback keeps the text, up to its first NUL, if it is short enough. -/
def receiveMessage (c : ClientConnection) (data : Bytes) (isAscii : Bool) : ClientConnection :=
  if isAscii && decide (data.length < 511) then
    { c with mHaveMessage := true, mMessage := WebSocketImpl.cString data }
  else c

/-- The callback, on the events of a step. -/
def callback (c : ClientConnection) : Event → ClientConnection
  | .receiveMessage data isAscii => c.receiveMessage data isAscii
  | _ => c

/-- A step of the WebSocket. -/
def step (c : ClientConnection) (i : Input) : Option (ClientConnection × List Event) :=
  (c.mClient.step i).map fun r => (r.2.foldl callback { c with mClient := r.1 }, r.2)

end ClientConnection

/-- The machine whose runs are the runs of the WebSocket of a client with its callback. -/
def clientMachine : Machine ClientConnection Input Event := ⟨ClientConnection.step⟩

namespace ClientConnection

/-- Poll the WebSocket; the result is the text that is reported, with the events of the poll. -/
def getMessage (c : ClientConnection) (results : List Input) :
    Option (ClientConnection × Option Bytes × List Event) :=
  if results.all Input.isResult then
    (clientMachine.exec Machine.anyStep { c with mHaveMessage := false }
      (.poll true 1 :: results)).bind fun r =>
        if r.1.mClient.stack = [] then
          some (r.1, if r.1.mHaveMessage then some r.1.mMessage else none, Machine.events r.2)
        else none
  else none

/-- Send a text to the client. -/
def sendText (c : ClientConnection) (str : Bytes) (key : MaskingKey) : ClientConnection :=
  { c with mClient := { c.mClient with impl := (c.mClient.impl.sendText (some str) key).1 } }

/-- Whether the connection is not closed. -/
def isConnected (c : ClientConnection) : Bool := c.mClient.impl.mReadyState != .closed

end ClientConnection

/-- What can be observed of the server. -/
inductive ServerEvent
  /-- `receiveMessage` was called on the client whose turn it is. -/
  | receiveMessage (data : Bytes) (isAscii : Bool)
  /-- `sendText` was called on the client at the index. -/
  | sendText (index : ℕ) (str : Bytes)
  deriving DecidableEq

/-- Pass a text to every client, from an index on. -/
def sendAll (str : Bytes) (keys : ℕ → MaskingKey) :
    ℕ → List ClientConnection → List ClientConnection × List ServerEvent
  | _, [] => ([], [])
  | j, c :: cs =>
    (c.sendText str (keys j) :: (sendAll str keys (j + 1) cs).1,
      .sendText j str :: (sendAll str keys (j + 1) cs).2)

/-- The calls of `receiveMessage` among the events of a poll. -/
def deliveries (es : List Event) : List ServerEvent :=
  es.filterMap fun
    | .receiveMessage data isAscii => some (.receiveMessage data isAscii)
    | _ => none

/-- One round of the loop that removes clients: erase the first one that is not connected. -/
def eraseDropped : List ClientConnection → Option (List ClientConnection)
  | [] => none
  | c :: cs => if c.isConnected then (eraseDropped cs).map (c :: ·) else some cs

/-- The loop that removes clients, which starts again after every removal. -/
def dropLoop : ℕ → List ClientConnection → List ClientConnection
  | 0, cs => cs
  | n + 1, cs =>
    match eraseDropped cs with
    | none => cs
    | some cs' => dropLoop n cs'

/-- Where `run` is in a round of its loop. -/
inductive ServerPhase
  | accepting
  | reading
  | dropping
  | passing (index : ℕ)
  | exited
  deriving DecidableEq

/-- The fields of `SimpleServer` that `run` uses, its flag and its position. -/
structure SimpleServer where
  mClients : List ClientConnection
  exit : Bool
  phase : ServerPhase

/-- What the environment of the server does next. -/
inductive ServerInput
  /-- The result of `pollServer`, as the platform of the new connection. -/
  | pollServer (client : Option Platform)
  /-- The result of `getInputLine`, with the keys that are drawn if the line is sent. -/
  | inputLine (str : Option Bytes) (keys : ℕ → MaskingKey)
  | dropClients
  /-- The turn of the next client: what its poll waits for, and the keys that are drawn if a text is
  sent. -/
  | turn (results : List Input) (keys : ℕ → MaskingKey)
  | endPass

/-- The words that end the server. -/
def exitWords : List Bytes := [ascii "bye", ascii "quit", ascii "exit"]

namespace SimpleServer

/-- The server before its first round. -/
def start : SimpleServer := ⟨[], false, .accepting⟩

/-- The message pass, for the client at an index. -/
def turn (s : SimpleServer) (index : ℕ) (results : List Input) (keys : ℕ → MaskingKey) :
    Option (SimpleServer × List ServerEvent) :=
  s.mClients[index]?.bind fun c => (c.getMessage results).map fun r =>
    let clients := s.mClients.set index r.1
    let sent := match r.2.1 with
      | none => (clients, [])
      | some newMessage => sendAll newMessage keys 0 clients
    ({ s with mClients := sent.1, phase := .passing (index + 1) }, deliveries r.2.2 ++ sent.2)

/-- One step of `run`. -/
def step (s : SimpleServer) (i : ServerInput) : Option (SimpleServer × List ServerEvent) :=
  match s.phase, i with
  | .accepting, .pollServer none => some ({ s with phase := .reading }, [])
  | .accepting, .pollServer (some p) =>
    let index := add32 (u32 s.mClients.length) 1
    some ({ s with mClients := s.mClients ++ [.connect p index], phase := .reading }, [])
  | .reading, .inputLine none _ => some ({ s with phase := .dropping }, [])
  | .reading, .inputLine (some str) keys =>
    if str ∈ exitWords then some ({ s with exit := true, phase := .dropping }, [])
    else
      some ({ s with mClients := (sendAll str keys 0 s.mClients).1, phase := .dropping },
        (sendAll str keys 0 s.mClients).2)
  | .dropping, .dropClients =>
    some ({ s with mClients := dropLoop s.mClients.length s.mClients, phase := .passing 0 }, [])
  | .passing index, .turn results keys => s.turn index results keys
  | .passing index, .endPass =>
    if index = s.mClients.length then
      some ({ s with phase := if s.exit then .exited else .accepting }, [])
    else none
  | _, _ => none

end SimpleServer

/-- The machine whose runs are the runs of the server. -/
def serverMachine : Machine SimpleServer ServerInput ServerEvent := ⟨SimpleServer.step⟩

/-! ### Removing clients -/

theorem eraseDropped_eq_none {cs : List ClientConnection} (h : eraseDropped cs = none) :
    cs.filter ClientConnection.isConnected = cs := by
  induction cs with
  | nil => rfl
  | cons c cs ih =>
    rw [eraseDropped] at h
    split_ifs at h with hc
    rw [List.filter_cons_of_pos hc, ih (Option.map_eq_none_iff.mp h)]

theorem eraseDropped_eq_some {cs cs' : List ClientConnection} (h : eraseDropped cs = some cs') :
    cs'.length + 1 = cs.length ∧
      cs'.filter ClientConnection.isConnected = cs.filter ClientConnection.isConnected := by
  induction cs generalizing cs' with
  | nil => cases h
  | cons c cs ih =>
    rw [eraseDropped] at h
    split_ifs at h with hc
    · obtain ⟨ds, hds, rfl⟩ := Option.map_eq_some_iff.mp h
      obtain ⟨hlen, hfilter⟩ := ih hds
      refine ⟨by simp [hlen], ?_⟩
      rw [List.filter_cons_of_pos hc, List.filter_cons_of_pos hc, hfilter]
    · obtain rfl := Option.some.inj h
      exact ⟨rfl, (List.filter_cons_of_neg hc).symm⟩

/-- The loop leaves the clients that are connected, in their order. -/
theorem dropLoop_eq {n : ℕ} {cs : List ClientConnection} (h : cs.length ≤ n) :
    dropLoop n cs = cs.filter ClientConnection.isConnected := by
  induction n generalizing cs with
  | zero => rw [List.eq_nil_of_length_eq_zero (Nat.le_zero.mp h)]; rfl
  | succ n ih =>
    rw [dropLoop]
    split
    · rename_i hnone
      exact (eraseDropped_eq_none hnone).symm
    · rename_i hsome
      obtain ⟨hlen, hfilter⟩ := eraseDropped_eq_some hsome
      rw [ih (by omega), hfilter]

/-! ### What a turn passes on -/

/-- The texts that `receiveMessage` keeps for a while. -/
def acceptedTexts (es : List ServerEvent) : List Bytes :=
  es.filterMap fun
    | .receiveMessage data isAscii =>
      if isAscii && decide (data.length < 511) then some data else none
    | _ => none

/-- The texts without a NUL among them: those that should be passed on. -/
def plainTexts (es : List ServerEvent) : List Bytes :=
  (acceptedTexts es).filter fun data => decide (0 ∉ data)

/-- The texts that are passed to `sendText` on the client at an index. -/
def passedTo (index : ℕ) (es : List ServerEvent) : List Bytes :=
  es.filterMap fun
    | .sendText j str => if j = index then some str else none
    | _ => none

/-- At most one text that should be passed on is delivered, and the last text that is accepted is
the same up to its first NUL. -/
def LoneText (es : List ServerEvent) : Prop :=
  (plainTexts es).length ≤ 1 ∧
    ∀ data ∈ plainTexts es, ∀ last, (acceptedTexts es).getLast? = some last →
      WebSocketImpl.cString last = data

@[simp] theorem acceptedTexts_append (es es' : List ServerEvent) :
    acceptedTexts (es ++ es') = acceptedTexts es ++ acceptedTexts es' := List.filterMap_append

@[simp] theorem passedTo_append (index : ℕ) (es es' : List ServerEvent) :
    passedTo index (es ++ es') = passedTo index es ++ passedTo index es' := List.filterMap_append

@[simp] theorem deliveries_append (es es' : List Event) :
    deliveries (es ++ es') = deliveries es ++ deliveries es' := List.filterMap_append

/-- A poll passes nothing on. -/
theorem passedTo_deliveries (index : ℕ) (es : List Event) :
    passedTo index (deliveries es) = [] := by
  induction es with
  | nil => rfl
  | cons e es ih =>
    rw [← List.singleton_append, deliveries_append, passedTo_append, ih, List.append_nil]
    cases e <;> rfl

/-- Passing a text to every client. -/
theorem sendAll_spec (str : Bytes) (keys : ℕ → MaskingKey) (k : ℕ) (cs : List ClientConnection) :
    (sendAll str keys k cs).1.length = cs.length ∧
      acceptedTexts (sendAll str keys k cs).2 = [] ∧
      ∀ j, passedTo j (sendAll str keys k cs).2 =
        if k ≤ j ∧ j < k + cs.length then [str] else [] := by
  induction cs generalizing k with
  | nil => exact ⟨rfl, rfl, fun j => by rw [if_neg (by simp)]; rfl⟩
  | cons c cs ih =>
    obtain ⟨hlen, haccepted, hpassed⟩ := ih (k + 1)
    refine ⟨by simp [sendAll, hlen], haccepted, fun j => ?_⟩
    have hcons : passedTo j (sendAll str keys k (c :: cs)).2 =
        (if k = j then [str] else []) ++ passedTo j (sendAll str keys (k + 1) cs).2 := by
      simp only [sendAll, passedTo, List.filterMap_cons]
      split_ifs <;> rfl
    rw [hcons, hpassed, List.length_cons]
    by_cases hj : k = j
    · rw [if_pos hj, if_neg (by omega), if_pos (by omega), List.append_nil]
    · rw [if_neg hj, List.nil_append]
      congr 1
      exact propext ⟨fun h => by omega, fun h => by omega⟩

namespace ClientConnection

variable {c c' : ClientConnection} {es : List Event}

/-- The text that `getMessage` would report. -/
def reported (c : ClientConnection) : Option Bytes :=
  if c.mHaveMessage then some c.mMessage else none

theorem reported_callback (c : ClientConnection) (e : Event) :
    (c.callback e).reported =
      ((acceptedTexts (deliveries [e])).getLast?.map WebSocketImpl.cString).or c.reported := by
  cases e with
  | receiveMessage data isAscii =>
    have hdel : deliveries [.receiveMessage data isAscii] = [.receiveMessage data isAscii] := rfl
    rw [hdel]
    simp only [callback, receiveMessage, acceptedTexts, List.filterMap_cons, List.filterMap_nil]
    split_ifs <;> rfl
  | _ => rfl

/-- What the callback makes of the events of a step: the last text counts. -/
theorem reported_foldl (c : ClientConnection) (es : List Event) :
    (es.foldl callback c).reported =
      ((acceptedTexts (deliveries es)).getLast?.map WebSocketImpl.cString).or c.reported := by
  induction es generalizing c with
  | nil => rfl
  | cons e es ih =>
    have hcons : deliveries (e :: es) = deliveries [e] ++ deliveries es := deliveries_append [e] es
    rw [List.foldl_cons, ih, reported_callback, hcons, acceptedTexts_append, List.getLast?_append,
      Option.map_or, Option.or_assoc]

theorem reported_run {G : ClientConnection → Input → List Event → Prop}
    {tr : List (Input × List Event)} (h : clientMachine.Run G c tr c') :
    c'.reported = ((acceptedTexts (deliveries (Machine.events tr))).getLast?.map
      WebSocketImpl.cString).or c.reported := by
  refine h.invariant_events (P := fun (es : List Event) (c' : ClientConnection) => c'.reported =
    ((acceptedTexts (deliveries es)).getLast?.map WebSocketImpl.cString).or c.reported) rfl ?_
  intro es c' i es' c'' ih hstep _
  obtain ⟨r, -, hr⟩ := Option.map_eq_some_iff.mp hstep
  obtain ⟨rfl, rfl⟩ := Prod.mk.inj hr
  have hsame : ({ c' with mClient := r.1 } : ClientConnection).reported = c'.reported := rfl
  rw [reported_foldl, hsame, ih, deliveries_append, acceptedTexts_append, List.getLast?_append,
    Option.map_or, Option.or_assoc]

/-- A turn reports the last text that its poll delivers, up to its first NUL. -/
theorem getMessage_spec {results : List Input} {str : Option Bytes}
    (h : c.getMessage results = some (c', str, es)) :
    str = (acceptedTexts (deliveries es)).getLast?.map WebSocketImpl.cString := by
  unfold getMessage at h
  split_ifs at h with hresults
  obtain ⟨⟨c'', tr⟩, hexec, hr⟩ := Option.bind_eq_some_iff.mp h
  simp only at hr
  split_ifs at hr with hstack hhave
  all_goals
    obtain ⟨rfl, rfl, rfl⟩ : _ ∧ _ ∧ _ := by simpa using hr
    have hreported := reported_run (Machine.run_exec hexec)
    have hnone : ({ c with mHaveMessage := false } : ClientConnection).reported = none := rfl
    rw [hnone, Option.or_none, reported] at hreported
    rw [← hreported]
    simp [hhave]

end ClientConnection

namespace SimpleServer

variable {s t : SimpleServer} {es : List ServerEvent} {index : ℕ} {results : List Input}
  {keys : ℕ → MaskingKey}

/-- A turn keeps the number of the clients, and passes the last text that its poll delivers, up to
its first NUL, to each of them. -/
theorem turn_spec (h : s.turn index results keys = some (t, es)) :
    index < s.mClients.length ∧ t.mClients.length = s.mClients.length ∧
      ∀ j < s.mClients.length, passedTo j es =
        ((acceptedTexts es).getLast?.map WebSocketImpl.cString).toList := by
  obtain ⟨c, hc, hr⟩ := Option.bind_eq_some_iff.mp h
  obtain ⟨⟨c', str, es'⟩, hmessage, hr⟩ := Option.map_eq_some_iff.mp hr
  obtain ⟨rfl, rfl⟩ := Prod.mk.inj hr
  have hstr := ClientConnection.getMessage_spec hmessage
  refine ⟨(List.getElem?_eq_some_iff.mp hc).1, ?_⟩
  cases str with
  | none =>
    simp only [List.append_nil, ← hstr]
    exact ⟨List.length_set, fun j _ => passedTo_deliveries j es'⟩
  | some str =>
    obtain ⟨hlen, haccepted, hpassed⟩ := sendAll_spec str keys 0 (s.mClients.set index c')
    rw [List.length_set] at hlen hpassed
    refine ⟨hlen, fun j hj => ?_⟩
    simp only [passedTo_append, acceptedTexts_append, haccepted, List.append_nil, ← hstr]
    rw [passedTo_deliveries, hpassed, if_pos ⟨Nat.zero_le _, by omega⟩]
    rfl

/-- A turn passes on the texts that it should if they are one at most, and the last. -/
theorem turn_passes_iff (h : s.turn index results keys = some (t, es)) :
    (∀ j < s.mClients.length, plainTexts es ≠ [] → passedTo j es = plainTexts es) ↔
      LoneText es := by
  obtain ⟨hindex, -, hpassed⟩ := turn_spec h
  constructor
  · intro hall
    by_cases hnil : plainTexts es = []
    · exact ⟨by simp [hnil], by simp [hnil]⟩
    · have heq := hall index hindex hnil
      rw [hpassed index hindex] at heq
      refine ⟨?_, fun data hdata last hlast => ?_⟩
      · rw [← heq]
        exact Option.length_toList_le
      · rw [← heq, hlast] at hdata
        simpa [eq_comm] using hdata
  · rintro ⟨hlen, hlast⟩ j hj hne
    obtain ⟨data, hdata⟩ := List.exists_mem_of_ne_nil _ hne
    have hone : plainTexts es = [data] := by
      obtain ⟨d, hd⟩ := List.length_eq_one_iff.mp
        (le_antisymm hlen (List.length_pos_of_ne_nil hne))
      rw [hd] at hdata ⊢
      rw [List.mem_singleton.mp hdata]
    have haccepted : data ∈ acceptedTexts es := (List.mem_filter.mp hdata).1
    obtain ⟨last, hget⟩ : ∃ last, (acceptedTexts es).getLast? = some last :=
      ⟨_, List.getLast?_eq_getLast_of_ne_nil (List.ne_nil_of_mem haccepted)⟩
    rw [hpassed j hj, hget, hone]
    simp [hlast data hdata last hget]

/-- The steps of a message pass. -/
def InPass (_ : SimpleServer) (i : ServerInput) (_ : List ServerEvent) : Prop :=
  match i with
  | .turn _ _ => True
  | _ => False

instance (s : SimpleServer) (i : ServerInput) (es : List ServerEvent) : Decidable (InPass s i es) :=
  match i with
  | .turn _ _ => isTrue trivial
  | .pollServer _ | .inputLine _ _ | .dropClients | .endPass => isFalse id

theorem step_inPass {i : ServerInput} (h : s.step i = some (t, es)) (hpass : InPass s i es) :
    ∃ index results keys, s.turn index results keys = some (t, es) := by
  cases i with
  | turn results keys =>
    unfold step at h
    cases hphase : s.phase with
    | passing index => exact ⟨index, results, keys, by simpa only [hphase] using h⟩
    | _ => simp [hphase] at h
  | _ => exact hpass.elim

/-- In the message passes of every run of the server, the texts that a poll delivers to
`receiveMessage`, if any is of fewer than 511 bytes and has no NUL, are passed to `sendText` on
every client, each once and in order, if and only if no poll delivers more than one of them, or
after it a text that differs from it before its first NUL. -/
theorem chat_broadcast {tr : List (ServerInput × List ServerEvent)}
    (h : serverMachine.Run InPass s tr t) :
    (∀ p ∈ tr, ∀ j < s.mClients.length, plainTexts p.2 ≠ [] → passedTo j p.2 = plainTexts p.2) ↔
      ∀ p ∈ tr, LoneText p.2 := by
  have hP := h.invariant (P := fun tr (t : SimpleServer) =>
    t.mClients.length = s.mClients.length ∧ ∀ p ∈ tr,
      ((∀ j < s.mClients.length, plainTexts p.2 ≠ [] → passedTo j p.2 = plainTexts p.2) ↔
        LoneText p.2)) ⟨rfl, by simp⟩ ?_
  · exact forall₂_congr hP.2
  intro tr t i es u _ ih hstep hpass
  obtain ⟨index, results, keys, hturn⟩ := step_inPass hstep hpass
  refine ⟨(turn_spec hturn).2.1.trans ih.1, fun p hp => ?_⟩
  rcases List.mem_append.mp hp with hp | hp
  · exact ih.2 p hp
  · rw [List.mem_singleton.mp hp, ← ih.1]
    exact turn_passes_iff hturn

/-- The inputs of a round without a new client and a line of the operator, up to the message
pass. -/
def quietRound : List ServerInput := [.inputLine none fun _ => 0, .dropClients]

/-- A client whose handshake reads the given bytes, one in every message pass. -/
def handshakeRounds (bytes : Bytes) : List ServerInput :=
  .pollServer (some Session.zeroPlatform) :: quietRound ++
    bytes.flatMap fun b =>
      [.turn [.connect false (some b)] fun _ => 0, .endPass, .pollServer none] ++
      quietRound

/-- The results of a poll that gets the bytes, and then goes through its frame loop. -/
def receiveResults (bytes : Bytes) (loop : List Input) : List Input :=
  [.receive (.data bytes), .receive .wouldBlock, .send .wouldBlock] ++ loop

/-- A server with one client that sends a text. -/
theorem chat_broadcast_one :
    ∃ tr₀ s tr t, serverMachine.Run Machine.anyStep start tr₀ s ∧ serverMachine.Run InPass s tr t ∧
      plainTexts (Machine.events tr) = [[0x41]] ∧
      ((∀ p ∈ tr, ∀ j < s.mClients.length,
          plainTexts p.2 ≠ [] → passedTo j p.2 = plainTexts p.2) ↔ ∀ p ∈ tr, LoneText p.2) := by
  obtain ⟨tr₀, s, hrun₀, hP⟩ := Machine.exists_run_of_exec (M := serverMachine)
    (G := Machine.anyStep) (s := start)
    (l := handshakeRounds (ascii "GET / HTTP/1.1\r\n\r\n"))
    (P := fun r => (serverMachine.exec InPass r.1
      [.turn (receiveResults [0x81, 1, 0x41] [.dispatch 0, .ret, .dispatch 0])
        fun _ => 0]).any fun r' =>
        plainTexts (Machine.events r'.2) == [[0x41]]) (by decide +kernel)
  obtain ⟨tr, t, hrun, htexts⟩ := Machine.exists_run_of_exec hP
  exact ⟨tr₀, s, tr, t, hrun₀, hrun, beq_iff_eq.mp htexts, chat_broadcast hrun⟩

/-- Two texts that arrive in one poll: only the second is passed on. -/
theorem chat_broadcast_loses_text :
    ¬∀ (tr₀ tr : List (ServerInput × List ServerEvent)) (s t : SimpleServer),
      serverMachine.Run Machine.anyStep start tr₀ s → serverMachine.Run InPass s tr t →
        ∀ p ∈ tr, ∀ j < s.mClients.length,
          plainTexts p.2 ≠ [] → passedTo j p.2 = plainTexts p.2 := by
  intro h
  obtain ⟨tr₀, s, hrun₀, hP⟩ := Machine.exists_run_of_exec (M := serverMachine)
    (G := Machine.anyStep) (s := start)
    (l := handshakeRounds (ascii "GET / HTTP/1.1\r\n\r\n"))
    (P := fun r => decide (r.1.mClients.length = 1) && (serverMachine.exec InPass r.1
      [.turn (receiveResults [0x81, 1, 0x41, 0x81, 1, 0x42]
        [.dispatch 0, .ret, .dispatch 0, .ret, .dispatch 0]) fun _ => 0]).any fun r' =>
          r'.2.any fun p => plainTexts p.2 == [[0x41], [0x42]] && passedTo 0 p.2 == [[0x42]])
    (by decide +kernel)
  obtain ⟨hlen, hpass⟩ := Bool.and_eq_true_iff.mp hP
  obtain ⟨tr, t, hrun, hlost⟩ := Machine.exists_run_of_exec hpass
  obtain ⟨p, hp, hp'⟩ := List.any_eq_true.mp hlost
  obtain ⟨htexts, hpassed⟩ := Bool.and_eq_true_iff.mp hp'
  have hall := h tr₀ tr s t hrun₀ hrun p hp 0 (by rw [of_decide_eq_true hlen]; decide)
  rw [beq_iff_eq.mp htexts, beq_iff_eq.mp hpassed] at hall
  simp at hall

end SimpleServer

end WsClient
