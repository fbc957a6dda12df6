import WsClient.SocketSharedMemory

/-!
# Connecting to a host

`hostname_connect` resolves a host name and tries the addresses one after the other. A socket that
is opened but does not connect is closed again; the first that connects is returned.
`Wsocket::create` keeps the object if its socket is not `INVALID_SOCKET`.

What the network does is a parameter: the addresses of a name, and the result of `socket` and
`connect` for each of them.

## Main definitions

* `Address`, `Network`: the outcomes of the system calls.
* `connectLoop`, `hostnameConnect`, `serverConnect`, `createWsocket`.
* `ConnectsFirst`: what a result for a list of addresses has to be.

## Main results

* `connectLoop_connectsFirst`: the loop over the addresses is right for every list.
* `hostname_connect`: the function is right exactly if the name is resolved.
-/

namespace WsClient

/-! ### System calls -/

/-- `INVALID_SOCKET`. -/
def invalidSocket : ℤ := -1

/-- The outcomes for an address of a host. -/
structure Address where
  /-- What `socket` returns. -/
  socket : ℤ
  /-- `connect` does not return `SOCKET_ERROR`. -/
  connects : Bool

/-- The outcomes of the system calls. -/
structure Network where
  /-- `getaddrinfo` for a name and a port: an error, or a list of addresses. -/
  resolve : Bytes → Bytes → Option (List Address)
  /-- What `socket` returns to a server. -/
  listenSocket : ℤ
  /-- `bind` returns zero. -/
  binds : Bool
  /-- `listen` returns zero. -/
  listens : Bool
  createMemoryMap : CreateMemoryMap

/-- What can be observed of the system calls. -/
inductive SocketEvent
  | opened (socket : ℤ)
  | connected (socket : ℤ)
  | closed (socket : ℤ)
  deriving DecidableEq

/-! ### The class -/

/-- The fields of `WsocketImpl`. -/
structure WsocketImpl where
  mIsServer : Bool := false
  mSocket : ℤ := invalidSocket

/-- The loop of `hostname_connect` over the addresses. -/
def connectLoop (sockfd : ℤ) : List Address → ℤ × List SocketEvent
  | [] => (sockfd, [])
  | p :: rest =>
    let sockfd := p.socket
    if sockfd = invalidSocket then connectLoop sockfd rest
    else if p.connects then (sockfd, [.opened sockfd, .connected sockfd])
    else
      let r := connectLoop invalidSocket rest
      (r.1, .opened sockfd :: .closed sockfd :: r.2)

/-- `hostname_connect`: the value returned, and the sockets opened, connected and closed. -/
def hostnameConnect (net : Network) (hostname : Bytes) (port : ℤ) : ℤ × List SocketEvent :=
  let sport := stringFormat 16 (printInt port)
  match net.resolve hostname sport with
  | none => (1, [])
  | some result => connectLoop invalidSocket result

/-- `server_connect`. -/
def serverConnect (net : Network) : ℤ × List SocketEvent :=
  if net.listenSocket = invalidSocket then (invalidSocket, [])
  else if net.binds ∧ net.listens then (net.listenSocket, [.opened net.listenSocket])
  else (invalidSocket, [.opened net.listenSocket, .closed net.listenSocket])

namespace WsocketImpl

/-- The constructor for a host name and a port. -/
def construct (net : Network) (hostName : Bytes) (port : ℤ) : WsocketImpl × List SocketEvent :=
  if hostName = ascii "server" then
    ({ mIsServer := true, mSocket := (serverConnect net).1 }, (serverConnect net).2)
  else
    ({ mSocket := (hostnameConnect net hostName port).1 }, (hostnameConnect net hostName port).2)

/-- `isValid`. -/
def isValid (w : WsocketImpl) : Bool := w.mSocket != invalidSocket

/-- `close`. -/
def close (w : WsocketImpl) : WsocketImpl × List SocketEvent :=
  ({ w with mSocket := 0 }, if w.mSocket ≠ 0 then [.closed w.mSocket] else [])

end WsocketImpl

/-- What `Wsocket::create` returns. -/
inductive Wsocket
  | impl (w : WsocketImpl)
  | sharedMemory (w : WsocketSharedMemory)

/-- `Wsocket::create`; an object that is not valid is deleted, which closes it. -/
def createWsocket (net : Network) (hostName : Bytes) (port : ℤ) :
    Option Wsocket × List SocketEvent :=
  if hostName = sharedServer ∨ hostName = ascii "sharedclient" then
    ((createSocketSharedMemory net.createMemoryMap hostName port).map .sharedMemory, [])
  else
    let ret := WsocketImpl.construct net hostName port
    if ret.1.isValid then (some (.impl ret.1), ret.2)
    else (none, ret.2 ++ ret.1.close.2)

/-! ### The loop -/

/-- The first socket whose `connect` succeeds. -/
def firstConnected (addresses : List Address) : Option ℤ :=
  (addresses.find? fun p => p.socket ≠ invalidSocket ∧ p.connects = true).map Address.socket

/-- The result for a list of addresses is the first socket that connects, or `INVALID_SOCKET`
exactly if there is none, and every other socket that was opened has been closed once. -/
structure ConnectsFirst (addresses : List Address) (r : ℤ × List SocketEvent) : Prop where
  returns : ∀ s, firstConnected addresses = some s → r.1 = s
  invalid_iff : r.1 = invalidSocket ↔ firstConnected addresses = none
  closes : ∃ failed : List ℤ, r.2 = failed.flatMap (fun s => [.opened s, .closed s]) ++
    match firstConnected addresses with
    | none => []
    | some s => [.opened s, .connected s]

variable {addresses : List Address} {p : Address} {sockfd : ℤ} {s : ℤ}

theorem firstConnected_cons_of_connects (hopen : p.socket ≠ invalidSocket)
    (hconnects : p.connects = true) : firstConnected (p :: addresses) = some p.socket := by
  simp [firstConnected, hopen, hconnects]

theorem firstConnected_cons_of_not (h : p.socket = invalidSocket ∨ p.connects = false) :
    firstConnected (p :: addresses) = firstConnected addresses := by
  have hnot : ¬(p.socket ≠ invalidSocket ∧ p.connects = true) := by
    rcases h with h | h
    · exact fun hand => hand.1 h
    · simp [h]
  rw [firstConnected, List.find?_cons_of_neg (by simpa using hnot), firstConnected]

/-- An address that is passed over leaves the result to the others. -/
theorem ConnectsFirst.skip {r : ℤ × List SocketEvent} (h : ConnectsFirst addresses r)
    (hnot : p.socket = invalidSocket ∨ p.connects = false) (pair : List SocketEvent)
    (hpair : pair = [] ∨ pair = [.opened p.socket, .closed p.socket]) :
    ConnectsFirst (p :: addresses) (r.1, pair ++ r.2) where
  returns := by
    rw [firstConnected_cons_of_not hnot]
    exact h.returns
  invalid_iff := by
    rw [firstConnected_cons_of_not hnot]
    exact h.invalid_iff
  closes := by
    rw [firstConnected_cons_of_not hnot]
    obtain ⟨failed, hfailed⟩ := h.closes
    rcases hpair with rfl | rfl
    · exact ⟨failed, hfailed⟩
    · refine ⟨p.socket :: failed, ?_⟩
      rw [List.flatMap_cons, List.append_assoc, ← hfailed]

/-- The loop is right for every list of addresses. -/
theorem connectLoop_connectsFirst (addresses : List Address) :
    ConnectsFirst addresses (connectLoop invalidSocket addresses) := by
  induction addresses with
  | nil => exact ⟨fun s h => (by cases h), ⟨fun _ => rfl, fun _ => rfl⟩, [], rfl⟩
  | cons p rest ih =>
    by_cases hopen : p.socket = invalidSocket
    · have hloop : connectLoop invalidSocket (p :: rest) = connectLoop invalidSocket rest := by
        rw [connectLoop, if_pos hopen, hopen]
      rw [hloop]
      exact ih.skip (.inl hopen) [] (.inl rfl)
    · by_cases hconnects : p.connects = true
      · have hfirst : firstConnected (p :: rest) = some p.socket :=
          firstConnected_cons_of_connects hopen hconnects
        have hloop : connectLoop invalidSocket (p :: rest) =
            (p.socket, [.opened p.socket, .connected p.socket]) := by
          rw [connectLoop, if_neg hopen, if_pos hconnects]
        rw [hloop]
        refine ⟨fun s hs => ?_, ?_, [], ?_⟩
        · rw [hfirst] at hs
          exact Option.some.inj hs
        · simp [hfirst, hopen]
        · rw [hfirst]
          rfl
      · have hloop : connectLoop invalidSocket (p :: rest) =
            ((connectLoop invalidSocket rest).1,
              [.opened p.socket, .closed p.socket] ++ (connectLoop invalidSocket rest).2) := by
          rw [connectLoop, if_neg hopen, if_neg hconnects]
          rfl
        rw [hloop]
        exact ih.skip (.inr (Bool.eq_false_iff.mpr hconnects)) _ (.inr rfl)

/-! ### The function -/

/-- The names of hosts: not those that select a server or shared memory. -/
def IsHostName (hostName : Bytes) : Prop :=
  hostName ≠ sharedServer ∧ hostName ≠ ascii "sharedclient" ∧ hostName ≠ ascii "server"

instance (hostName : Bytes) : Decidable (IsHostName hostName) :=
  inferInstanceAs (Decidable (_ ∧ _ ∧ _))

variable {net : Network} {hostName : Bytes} {port : ℤ}

/-- For the name of a host, `create` returns an object if `hostname_connect` does not return
`INVALID_SOCKET`. -/
theorem createWsocket_isSome (h : IsHostName hostName) :
    (createWsocket net hostName port).1.isSome = true ↔
      (hostnameConnect net hostName port).1 ≠ invalidSocket := by
  rw [createWsocket, if_neg (not_or.mpr ⟨h.1, h.2.1⟩)]
  by_cases hvalid : (hostnameConnect net hostName port).1 = invalidSocket
  · simp [WsocketImpl.construct, WsocketImpl.isValid, h.2.2, hvalid]
  · simp [WsocketImpl.construct, WsocketImpl.isValid, h.2.2, hvalid]

/-- `hostname_connect` returns the first socket that connects, or `INVALID_SOCKET` exactly if there
is none, has closed every other socket once, and `create` returns an object for the name of a host
only if a connection was made: all this holds exactly if the name is resolved. -/
theorem hostname_connect (net : Network) (hostName : Bytes) (port : ℤ) :
    (ConnectsFirst ((net.resolve hostName (stringFormat 16 (printInt port))).getD [])
        (hostnameConnect net hostName port) ∧
      (IsHostName hostName → (createWsocket net hostName port).1.isSome = true →
        ∃ s, .connected s ∈ (createWsocket net hostName port).2)) ↔
      (net.resolve hostName (stringFormat 16 (printInt port))).isSome = true := by
  cases hresolve : net.resolve hostName (stringFormat 16 (printInt port)) with
  | none =>
    have hreturn : hostnameConnect net hostName port = (1, []) := by
      simp only [hostnameConnect, hresolve]
    refine ⟨fun h => ?_, fun h => by cases h⟩
    have hinvalid := h.1.invalid_iff.mpr rfl
    rw [hreturn] at hinvalid
    cases hinvalid
  | some addresses =>
    have hreturn : hostnameConnect net hostName port = connectLoop invalidSocket addresses := by
      simp only [hostnameConnect, hresolve]
    have hfirst : ConnectsFirst addresses (hostnameConnect net hostName port) := by
      rw [hreturn]
      exact connectLoop_connectsFirst addresses
    refine ⟨fun _ => rfl, fun _ => ⟨hfirst, fun hname hsome => ?_⟩⟩
    have hvalid := (createWsocket_isSome hname).mp hsome
    obtain ⟨s, hs⟩ := Option.ne_none_iff_exists'.mp (hfirst.invalid_iff.not.mp hvalid)
    obtain ⟨failed, hevents⟩ := hfirst.closes
    refine ⟨s, ?_⟩
    have hcreate : (createWsocket net hostName port).2 = (hostnameConnect net hostName port).2 := by
      rw [createWsocket, if_neg (not_or.mpr ⟨hname.1, hname.2.1⟩)]
      simp [WsocketImpl.construct, WsocketImpl.isValid, hname.2.2, hvalid]
    rw [hcreate, hevents, hs]
    simp

/-- A name that is not resolved: the value 1 is returned, which is taken for a socket. -/
theorem unresolved_host_connects :
    ¬∀ (net : Network) (hostName : Bytes) (port : ℤ),
      ConnectsFirst ((net.resolve hostName (stringFormat 16 (printInt port))).getD [])
          (hostnameConnect net hostName port) ∧
        (IsHostName hostName → (createWsocket net hostName port).1.isSome = true →
          ∃ s, .connected s ∈ (createWsocket net hostName port).2) := by
  intro h
  let net : Network := ⟨fun _ _ => none, invalidSocket, false, false, fun _ _ _ _ => none⟩
  obtain ⟨s, hs⟩ := (h net (ascii "nowhere.invalid") 80).2 (by decide +kernel) (by decide +kernel)
  have hevents : (createWsocket net (ascii "nowhere.invalid") 80).2 = [] := by decide +kernel
  rw [hevents] at hs
  cases hs

end WsClient
