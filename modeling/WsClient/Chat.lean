import WsClient.Conversation
import WsClient.Library.Room
import WsClient.SimpleServer

/-!
# The chat

What is said in the chat are the lines of the operator and the texts that the server takes from its
clients. The server sends a text to all clients that are there, so that its clients are the members
of a room: each has been sent what was said since it was accepted.

Of each client the server has a WebSocket, and whatever happens in its loop is a run of this
WebSocket from its constructor on, in which it is polled and sends texts. Where the other end of its
socket is a client of this repository, the texts that the callback there gets are a part of what was
said in the chat.

The server itself does not know when it accepted a client and what it has sent to it. A history
along its run remembers the step, and what it has done with the WebSocket since.

## Main definitions

* `saidIn`, `said`: what is said in a step and in a run of the server.
* `Member`, `chatMachine`: what is remembered of a client, and the server with this history.
* `Serves`: the run of the WebSocket of a client, and the texts that were sent on it.
* `Hears`: what a client at the other end gets.
* `Attends`: a client has been told what was said since it was accepted.

## Main results

* `SimpleServer.step_room`: one step of the server.
* `SimpleServer.chat_room`: all clients are told the same.
-/

namespace WsClient

/-- What is said in a step of the server: a line of the operator that does not end it, or the last
text that the poll of a client delivers, up to its first NUL. -/
def saidIn : ServerInput → List ServerEvent → List Bytes
  | .inputLine (some str) _, _ => if exitWords.contains str then [] else [str]
  | .turn _ _, es => ((acceptedTexts es).getLast?.map WebSocketImpl.cString).toList
  | .inputLine none _, _ | .pollServer _, _ | .dropClients, _ | .endPass, _ => []

/-- What is said in the chat. -/
def said (tr : List (ServerInput × List ServerEvent)) : List Bytes :=
  tr.flatMap fun p => saidIn p.1 p.2

@[simp] theorem said_snoc (tr : List (ServerInput × List ServerEvent)) (i : ServerInput)
    (es : List ServerEvent) : said (tr ++ [(i, es)]) = said tr ++ saidIn i es := by
  simp [said]

theorem said_append (tr tr' : List (ServerInput × List ServerEvent)) :
    said (tr ++ tr') = said tr ++ said tr' := List.flatMap_append

/-! ### The history of the clients -/

/-- What is remembered of a client. -/
structure Member where
  /-- The steps that the server had made before it accepted the client. -/
  accepted : ℕ
  /-- The platform of its WebSocket. -/
  platform : Platform
  /-- What the server has done with its WebSocket. -/
  inputs : List Input

namespace Member

/-- The acceptance of the client. -/
def admission (m : Member) : ℕ × Platform := (m.accepted, m.platform)

/-- The server does more with the WebSocket. -/
def add (m : Member) (inputs : List Input) : Member := { m with inputs := m.inputs ++ inputs }

@[simp] theorem add_inputs (m : Member) (inputs : List Input) :
    (m.add inputs).inputs = m.inputs ++ inputs := rfl

@[simp] theorem add_nil (m : Member) : m.add [] = m := by
  simp [add]

end Member

/-- The calls of `sendText` on the clients, from an index on. -/
def recordCalls (es : List ServerEvent) (keys : ℕ → MaskingKey) : ℕ → List Member → List Member
  | _, [] => []
  | k, m :: ms =>
    m.add ((passedTo k es).map fun str => .sendText (some str) (keys k)) ::
      recordCalls es keys (k + 1) ms

/-- The client whose turn it is. -/
def ServerPhase.index : ServerPhase → ℕ
  | .passing index => index
  | .accepting | .reading | .dropping | .exited => 0

/-- The number of steps and the members, after a step. -/
def recordMembers (past : ℕ × List Member) (s : SimpleServer) (i : ServerInput) :
    ℕ × List Member :=
  let es := ((s.step i).map Prod.snd).getD []
  (past.1 + 1, match i with
    | .pollServer none | .endPass => past.2
    | .pollServer (some p) => past.2 ++ [⟨past.1, p, []⟩]
    | .inputLine _ keys => recordCalls es keys 0 past.2
    | .dropClients => staying ClientConnection.isConnected past.2 s.mClients
    | .turn results keys =>
      recordCalls es keys 0
        (past.2.modify s.phase.index fun m => m.add (.poll true 1 :: results)))

/-- The server with the history of its clients. -/
def chatMachine : Machine (SimpleServer × (ℕ × List Member)) ServerInput ServerEvent :=
  serverMachine.withHistory recordMembers

/-- What the server does with the WebSocket of a client. -/
def Input.isServing : Input → Bool
  | .sendText (some _) _ => true
  | .poll callback timeout => callback && decide (timeout = 1)
  | i => i.isResult

/-- The run `u` of the WebSocket of a client, from its constructor on, in which the server did what
is remembered. The texts were sent in it. -/
structure Serves (m : Member) (u : List (Input × List Event)) (texts : List Bytes)
    (c : ClientConnection) : Prop where
  inputs : u.map Prod.fst = m.inputs
  run : sessionMachine.Run (fun _ i _ => i.isServing = true)
    (Session.start (.ofSocket m.platform true true)) u c.mClient
  texts : sentMessages u = texts.map fun str => (str, true)
  stack : c.mClient.stack = []

namespace ClientConnection

variable {c c' : ClientConnection} {es : List Event}

theorem foldl_callback_mClient (c : ClientConnection) (es : List Event) :
    (es.foldl callback c).mClient = c.mClient := by
  induction es generalizing c with
  | nil => rfl
  | cons e es ih =>
    rw [List.foldl_cons, ih]
    cases e with
    | receiveMessage data isAscii =>
      simp only [callback, receiveMessage]
      split_ifs <;> rfl
    | _ => rfl

/-- The callback has no part in the steps of the WebSocket. -/
theorem step_mClient {i : Input} (h : clientMachine.step c i = some (c', es)) :
    sessionMachine.step c.mClient i = some (c'.mClient, es) := by
  obtain ⟨r, hr, heq⟩ := Option.map_eq_some_iff.mp h
  obtain ⟨rfl, rfl⟩ := Prod.mk.inj heq
  rw [foldl_callback_mClient]
  exact hr

theorem run_mClient {G : ClientConnection → Input → List Event → Prop}
    {tr : List (Input × List Event)} (h : clientMachine.Run G c tr c') :
    sessionMachine.Run Machine.anyStep c.mClient tr c'.mClient := by
  induction h with
  | nil => exact .nil
  | snoc _ hstep _ ih => exact ih.snoc (step_mClient hstep) trivial

end ClientConnection

namespace Serves

variable {m : Member} {u : List (Input × List Event)} {texts : List Bytes}
  {c c' : ClientConnection} {es : List Event}

/-- A client that is accepted. -/
theorem connect (n : ℕ) (p : Platform) (id : ℕ) : Serves ⟨n, p, []⟩ [] [] (.connect p id) :=
  ⟨rfl, .nil, rfl, rfl⟩

/-- The turn of a client. -/
theorem getMessage {results : List Input} {str : Option Bytes} (h : Serves m u texts c)
    (hturn : c.getMessage results = some (c', str, es)) :
    ∃ u', Serves (m.add (.poll true 1 :: results)) (u ++ u') texts c' := by
  unfold ClientConnection.getMessage at hturn
  split_ifs at hturn with hresults
  obtain ⟨⟨c'', tr⟩, hexec, hr⟩ := Option.bind_eq_some_iff.mp hturn
  simp only at hr
  split_ifs at hr with hstack
  all_goals
    obtain ⟨rfl, -⟩ := Prod.mk.inj (Option.some.inj hr)
    have hinputs := Machine.inputs_exec hexec
    have hresult (i : Input) (hi : i ∈ results) : i.isServing = true ∧ i.message? = none := by
      have := List.all_eq_true.mp hresults i hi
      cases i <;> first | exact ⟨rfl, rfl⟩ | cases this
    have hall (i : Input) (hi : i ∈ tr.map Prod.fst) : i.isServing = true ∧ i.message? = none := by
      rw [hinputs] at hi
      rcases List.mem_cons.mp hi with rfl | hi
      · exact ⟨rfl, rfl⟩
      · exact hresult i hi
    have hrun := (ClientConnection.run_mClient (Machine.run_exec hexec)).of_inputs
      (P := fun i => i.isServing = true) fun i hi => (hall i hi).1
    have hnone : sentMessages tr = [] :=
      List.filterMap_eq_nil_iff.mpr fun q hq => (hall q.1 (List.mem_map_of_mem hq)).2
    refine ⟨tr, ?_, h.run.trans hrun, ?_, hstack⟩
    · rw [List.map_append, h.inputs, hinputs, Member.add_inputs]
    · rw [sentMessages_append, hnone, h.texts, List.append_nil]

/-- A text is sent to a client. -/
theorem sendText (h : Serves m u texts c) (str : Bytes) (key : MaskingKey) :
    ∃ u', Serves (m.add [.sendText (some str) key]) (u ++ u') (texts ++ [str])
      (c.sendText str key) := by
  have hstep : sessionMachine.step c.mClient (.sendText (some str) key) =
      some ((c.sendText str key).mClient, (c.mClient.impl.sendText (some str) key).2) := by
    have hc : c.mClient = ⟨c.mClient.impl, []⟩ := by rw [← h.stack]
    rw [hc]
    simp only [ClientConnection.sendText, h.stack]
    rfl
  refine ⟨[(.sendText (some str) key, (c.mClient.impl.sendText (some str) key).2)], ?_,
    h.run.snoc hstep rfl, ?_, h.stack⟩
  · rw [List.map_append, h.inputs]
    rfl
  · rw [sentMessages_snoc, h.texts, List.map_append]
    rfl

end Serves

/-- A client of this repository at the other end of the socket, on a reliable link: of the texts
sent to it the callback has got the first, whatever the order in which the two make their steps, and
all when nothing is left to be transmitted or received. -/
def Hears (p : Platform) (u : List (Input × List Event)) (texts : List Bytes) : Prop :=
  ∀ (p' : Platform) (url origin host : Bytes) (port : ℤ) (useMask : Bool)
    (tr : List ((Side × Input) × List Event)) (l : Link Session UInt8),
    url.length < 128 → origin.length < 200 → parseUrl url = some (host, port, []) → port ≠ 0 →
    (0x0A ∉ host ∧ 0 ∉ host) → (0x0A ∉ origin ∧ 0 ∉ origin) →
    connectionLink.Run (Machine.linkGuard fun _ => Session.Conversing)
      (handshakeLink p' p url origin useMask true) tr l →
    Machine.trace .right tr = u →
    delivered (Machine.events (Machine.trace .left tr)) <+: texts.map (fun str => (str, true)) ∧
      (l.right.impl.mTransmitBuffer.getSize = 0 → l.toLeft = [] → l.left.stack = [] →
        delivered (Machine.events (Machine.trace .left tr)) = texts.map fun str => (str, true))

theorem Serves.hears {m : Member} {u : List (Input × List Event)} {texts : List Bytes}
    {c : ClientConnection} (h : Serves m u texts c) : Hears m.platform u texts := by
  rintro p' url origin host port useMask tr l hurl horigin hparse hport hhost horigin' hrun rfl
  rw [← h.texts]
  exact ⟨Session.run_delivered_isPrefix hurl horigin hparse hport hhost horigin' hrun .left,
    Session.run_delivered_eq hurl horigin hparse hport hhost horigin' hrun .left⟩

/-- A client of the server has been sent the texts, in the run of its WebSocket that is remembered;
and a client at the other end of its socket gets them. -/
def Told (texts : List Bytes) (m : Member) (c : ClientConnection) : Prop :=
  ∃ u, Serves m u texts c ∧ Hears m.platform u texts

/-- A client was accepted, and has been told what was said since. -/
structure Attends (tr : List (ServerInput × List ServerEvent)) (m : Member)
    (c : ClientConnection) : Prop where
  accepted : ∃ es, tr[m.accepted]? = some (.pollServer (some m.platform), es)
  told : Told (said (tr.drop m.accepted)) m c

section Told

variable {m : Member} {c c' : ClientConnection} {texts : List Bytes} {ms : List Member}
  {cs : List ClientConnection} {es : List ServerEvent} {keys : ℕ → MaskingKey}
  {f : ℕ → List Bytes}

theorem told_connect (n : ℕ) (p : Platform) (id : ℕ) : Told [] ⟨n, p, []⟩ (.connect p id) :=
  ⟨[], .connect n p id, (Serves.connect n p id).hears⟩

theorem Told.getMessage {results : List Input} {str : Option Bytes} {es : List Event}
    (h : Told texts m c) (hturn : c.getMessage results = some (c', str, es)) :
    Told texts (m.add (.poll true 1 :: results)) c' := by
  obtain ⟨u, hserves, -⟩ := h
  obtain ⟨u', hserves'⟩ := hserves.getMessage hturn
  exact ⟨u ++ u', hserves', hserves'.hears⟩

theorem Told.sendText (h : Told texts m c) (str : Bytes) (key : MaskingKey) :
    Told (texts ++ [str]) (m.add [.sendText (some str) key]) (c.sendText str key) := by
  obtain ⟨u, hserves, -⟩ := h
  obtain ⟨u', hserves'⟩ := hserves.sendText str key
  exact ⟨u ++ u', hserves', hserves'.hears⟩

/-- A text that is sent to all clients. -/
theorem forall₂_sendAll {str : Bytes} {k : ℕ}
    (h : List.Forall₂ (fun m c => Told (f m.accepted) m c) ms cs)
    (hpassed : ∀ j, k ≤ j → j < k + cs.length → passedTo j es = [str]) :
    List.Forall₂ (fun m c => Told (f m.accepted ++ [str]) m c) (recordCalls es keys k ms)
      (sendAll str keys k cs).1 := by
  induction h generalizing k with
  | nil => exact .nil
  | @cons m c ms cs hm _ ih =>
    simp only [List.length_cons] at hpassed
    refine .cons ?_ (ih fun j hle hlt => hpassed j (by omega) (by omega))
    rw [hpassed k le_rfl (by omega)]
    exact hm.sendText str (keys k)

theorem passedTo_nil (j : ℕ) : passedTo j [] = [] := rfl

/-- No text is sent. -/
theorem recordCalls_of_nil (h : ∀ j, passedTo j es = []) (k : ℕ) :
    recordCalls es keys k ms = ms := by
  induction ms generalizing k with
  | nil => rfl
  | cons m ms ih => rw [recordCalls, ih, h, List.map_nil, Member.add_nil]

/-- One client has its turn. -/
theorem forall₂_turn {index : ℕ} {results : List Input} {str : Option Bytes} {es : List Event}
    (h : List.Forall₂ (fun m c => Told (f m.accepted) m c) ms cs) (hc : cs[index]? = some c)
    (hturn : c.getMessage results = some (c', str, es)) :
    List.Forall₂ (fun m c => Told (f m.accepted) m c)
      (ms.modify index fun m => m.add (.poll true 1 :: results)) (cs.set index c') := by
  induction h generalizing index with
  | nil => cases hc
  | @cons m d ms cs hm hrest ih =>
    cases index with
    | zero =>
      obtain rfl : d = c := by simpa using hc
      exact .cons (hm.getMessage hturn) hrest
    | succ index => exact .cons hm (ih hc)

theorem map_admission_recordCalls (k : ℕ) :
    (recordCalls es keys k ms).map Member.admission = ms.map Member.admission := by
  induction ms generalizing k with
  | nil => rfl
  | cons m ms ih => rw [recordCalls, List.map_cons, List.map_cons, ih]; rfl

theorem map_admission_modify (index : ℕ) (inputs : List Input) :
    (ms.modify index fun m => m.add inputs).map Member.admission = ms.map Member.admission := by
  induction ms generalizing index with
  | nil => cases index <;> rfl
  | cons m ms ih =>
    cases index with
    | zero => rfl
    | succ index => exact congrArg (m.admission :: ·) (ih index)

theorem map_accepted_eq {ms' : List Member}
    (h : ms'.map Member.admission = ms.map Member.admission) :
    ms'.map Member.accepted = ms.map Member.accepted := by
  have hfst := congrArg (List.map Prod.fst) h
  rwa [List.map_map, List.map_map] at hfst

end Told

namespace SimpleServer

variable {s t : SimpleServer} {i : ServerInput} {es : List ServerEvent} {n : ℕ}
  {members : List Member} {tr : List (ServerInput × List ServerEvent)}

/-- A step in which nothing is said, and the clients go on as they are. -/
theorem quiet_room (h : Room Member.accepted (fun tr => Told (said tr)) tr members s.mClients)
    (hnone : saidIn i es = []) :
    Room Member.accepted (fun tr => Told (said tr)) (tr ++ [(i, es)]) members s.mClients :=
  h.go rfl fun l hl => by simpa only [said_snoc, hnone, List.append_nil] using hl

/-- A step in which a text is sent to all clients. -/
theorem say_room {str : Bytes} {keys : ℕ → MaskingKey}
    (h : Room Member.accepted (fun tr => Told (said tr)) tr members s.mClients)
    (hsaid : saidIn i es = [str]) (hpassed : ∀ j < s.mClients.length, passedTo j es = [str]) :
    Room Member.accepted (fun tr => Told (said tr)) (tr ++ [(i, es)])
      (recordCalls es keys 0 members) (sendAll str keys 0 s.mClients).1 := by
  refine h.go (map_accepted_eq (map_admission_recordCalls 0)) fun l hl => ?_
  simp only [said_snoc, hsaid]
  exact forall₂_sendAll (f := fun n => said (l n)) hl fun j _ hlt => hpassed j (by omega)

theorem turn_room {index : ℕ} {results : List Input} {keys : ℕ → MaskingKey}
    (h : Room Member.accepted (fun tr => Told (said tr)) tr members s.mClients)
    (hturn : s.turn index results keys = some (t, es)) :
    Room Member.accepted (fun tr => Told (said tr)) (tr ++ [(.turn results keys, es)])
      (recordCalls es keys 0 (members.modify index fun m => m.add (.poll true 1 :: results)))
      t.mClients := by
  obtain ⟨hindex, -, hpassed⟩ := turn_spec hturn
  obtain ⟨c, hc, hr⟩ := Option.bind_eq_some_iff.mp hturn
  obtain ⟨⟨c', str, es'⟩, hmessage, hr⟩ := Option.map_eq_some_iff.mp hr
  obtain ⟨rfl, rfl⟩ := Prod.mk.inj hr
  have hstr := ClientConnection.getMessage_spec hmessage
  have hcame : (members.modify index fun m => m.add (.poll true 1 :: results)).map
      Member.admission = members.map Member.admission := map_admission_modify ..
  cases str with
  | none =>
    simp only [List.append_nil]
    rw [recordCalls_of_nil fun j => passedTo_deliveries j es']
    refine h.go (map_accepted_eq hcame) fun l hl => ?_
    simp only [said_snoc, saidIn, ← hstr, Option.toList_none, List.append_nil]
    exact forall₂_turn (f := fun n => said (l n)) hl hc hmessage
  | some str =>
    have haccepted := (sendAll_spec str keys 0 (s.mClients.set index c')).2.1
    simp only [acceptedTexts_append, haccepted, List.append_nil, ← hstr, Option.toList_some]
      at hpassed
    refine h.go (map_accepted_eq ((map_admission_recordCalls 0).trans hcame)) fun l hl => ?_
    simp only [said_snoc, saidIn, acceptedTexts_append, haccepted, List.append_nil, ← hstr,
      Option.toList_some]
    refine forall₂_sendAll (f := fun n => said (l n))
      (forall₂_turn (f := fun n => said (l n)) hl hc hmessage) fun j _ hlt => hpassed j ?_
    rw [List.length_set] at hlt
    omega

/-- One step of the server. -/
theorem step_room (h : Room Member.accepted (fun tr => Told (said tr)) tr members s.mClients)
    (hstep : s.step i = some (t, es)) :
    Room Member.accepted (fun tr => Told (said tr)) (tr ++ [(i, es)])
      (recordMembers (tr.length, members) s i).2 t.mClients := by
  have hevents : ((s.step i).map Prod.snd).getD [] = es := by rw [hstep]; rfl
  simp only [recordMembers, hevents]
  unfold step at hstep
  split at hstep
  · obtain ⟨rfl, rfl⟩ := Prod.mk.inj (Option.some.inj hstep)
    exact quiet_room h rfl
  · obtain ⟨rfl, rfl⟩ := Prod.mk.inj (Option.some.inj hstep)
    exact quiet_room (s := { s with mClients := s.mClients ++ [_] })
      (h.join rfl (told_connect _ _ _)) rfl
  · obtain ⟨rfl, rfl⟩ := Prod.mk.inj (Option.some.inj hstep)
    dsimp only
    rw [recordCalls_of_nil passedTo_nil]
    exact quiet_room h rfl
  · split_ifs at hstep with hexit
    · obtain ⟨rfl, rfl⟩ := Prod.mk.inj (Option.some.inj hstep)
      dsimp only
      rw [recordCalls_of_nil passedTo_nil]
      exact quiet_room h (by simp [saidIn, hexit])
    · obtain ⟨rfl, rfl⟩ := Prod.mk.inj (Option.some.inj hstep)
      refine say_room h (by simp [saidIn, hexit]) fun j hj => ?_
      rw [(sendAll_spec _ _ 0 s.mClients).2.2, if_pos ⟨Nat.zero_le _, by omega⟩]
  · obtain ⟨rfl, rfl⟩ := Prod.mk.inj (Option.some.inj hstep)
    rw [dropLoop_eq le_rfl]
    exact quiet_room (s := { s with mClients := s.mClients.filter _ }) (h.leave _) rfl
  · rename_i index results keys hphase
    rw [show s.phase.index = index by rw [hphase]; rfl]
    exact turn_room h hstep
  · split_ifs at hstep
    all_goals
      obtain ⟨rfl, rfl⟩ := Prod.mk.inj (Option.some.inj hstep)
      exact quiet_room h rfl
  · cases hstep

/-- A client that is remembered after a step was before it, or is accepted in it. -/
theorem mem_recordMembers {a : ℕ × Platform}
    (ha : a ∈ (recordMembers (n, members) s i).2.map Member.admission)
    (hlen : members.length ≤ s.mClients.length) :
    a ∈ members.map Member.admission ∨ i = .pollServer (some a.2) ∧ a.1 = n := by
  cases i with
  | pollServer client =>
    cases client with
    | none => exact .inl ha
    | some p =>
      simp only [recordMembers, List.map_append, List.mem_append] at ha
      refine ha.imp_right fun ha => ?_
      obtain rfl := List.mem_singleton.mp ha
      exact ⟨rfl, rfl⟩
  | inputLine str keys =>
    simp only [recordMembers, map_admission_recordCalls] at ha
    exact .inl ha
  | dropClients =>
    exact .inl (((staying_sublist ClientConnection.isConnected hlen).map _).subset ha)
  | turn results keys =>
    simp only [recordMembers, map_admission_recordCalls, map_admission_modify] at ha
    exact .inl ha
  | endPass => exact .inl ha

/-- The clients of the server are the members of a room. In every state of the server each client
has been sent, on a WebSocket that the server polls and does nothing else with, exactly what was
said in the chat since it was accepted. So what a client was sent is the end of what those before it
were sent; and a client at the other end of its socket gets the first of these texts. -/
theorem chat_room
    (h : chatMachine.Run Machine.anyStep (start, (0, [])) tr (s, (n, members))) :
    List.Forall₂ (Attends tr) members s.mClients ∧
      members.Pairwise fun m m' => said (tr.drop m'.accepted) <:+ said (tr.drop m.accepted) := by
  have hinv := h.invariant
    (P := fun tr (q : SimpleServer × (ℕ × List Member)) => q.2.1 = tr.length ∧
      Room Member.accepted (fun tr => Told (said tr)) tr q.2.2 q.1.mClients ∧
      ∀ a ∈ q.2.2.map Member.admission, ∃ es, tr[a.1]? = some (.pollServer (some a.2), es))
    ⟨rfl, .empty _ _ _, by simp⟩ ?_
  · obtain ⟨-, hroom, hadmitted⟩ := hinv
    refine ⟨?_, hroom.suffix.imp fun ⟨front, hfront⟩ => ⟨said front, ?_⟩⟩
    · have hall := (List.forall₂_and_left _ _).mpr
        ⟨fun m hm => hadmitted m.admission (List.mem_map_of_mem hm), hroom.told⟩
      exact hall.imp fun _ _ hm => ⟨hm.1, hm.2⟩
    · rw [← hfront, said_append]
  · rintro tr ⟨s, n, members⟩ i es ⟨t, n', members'⟩ - ⟨rfl, hroom, hadmitted⟩ hstep -
    obtain ⟨hstep, hrecord⟩ := Machine.withHistory_cases hstep
    have hcount := congrArg Prod.fst hrecord
    have hmembers := congrArg Prod.snd hrecord
    simp only at hcount hmembers
    subst hmembers
    refine ⟨by rw [hcount]; simp [recordMembers], step_room hroom hstep, fun a ha => ?_⟩
    rcases mem_recordMembers ha (Nat.le_of_eq hroom.told.length_eq) with ha | ⟨rfl, heq⟩
    · obtain ⟨es', hes'⟩ := hadmitted a ha
      exact ⟨es', List.getElem?_append_left (List.getElem?_eq_some_iff.mp hes').1 ▸ hes'⟩
    · exact ⟨es, by rw [heq, List.getElem?_concat_length]⟩

/-- A line of the operator before a second client comes, and another one after it. -/
theorem chat_room_two :
    ∃ tr s m m', chatMachine.Run Machine.anyStep (start, (0, [])) tr (s, (7, [m, m'])) ∧
      said (tr.drop m.accepted) = [[0x41], [0x42]] ∧ said (tr.drop m'.accepted) = [[0x42]] ∧
      List.Forall₂ (Attends tr) [m, m'] s.mClients := by
  obtain ⟨tr, ⟨s, n, members⟩, hrun, hP⟩ := Machine.exists_run_of_exec (M := chatMachine)
    (G := Machine.anyStep) (s := (start, (0, [])))
    (l := [.pollServer (some Session.zeroPlatform), .inputLine (some [0x41]) fun _ => 0,
      .dropClients, .turn [.connect false none] fun _ => 0, .endPass,
      .pollServer (some Session.zeroPlatform), .inputLine (some [0x42]) fun _ => 0])
    (P := fun r => decide (r.1.2.1 = 7 ∧ r.1.2.2.map Member.accepted = [0, 5] ∧
      said (r.2.drop 0) = [[0x41], [0x42]] ∧ said (r.2.drop 5) = [[0x42]]))
    (by decide +kernel)
  obtain ⟨rfl, haccepted, hsaid, hsaid'⟩ := of_decide_eq_true hP
  obtain ⟨m, ms, rfl, hm, hms⟩ := List.map_eq_cons_iff.mp haccepted
  obtain ⟨m', ms', rfl, hm', hms'⟩ := List.map_eq_cons_iff.mp hms
  obtain rfl := List.map_eq_nil_iff.mp hms'
  exact ⟨tr, s, m, m', hrun, by rw [hm]; exact hsaid, by rw [hm']; exact hsaid', (chat_room hrun).1⟩

end SimpleServer

end WsClient
