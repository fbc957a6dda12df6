import WsClient.FirstFrame
import WsClient.HandshakeGrammar
import WsClient.Library.Link
import WsClient.StateMachine
import WsClient.UrlParsing

/-!
# Handshake agreement

A client and a server of this repository on the ends of a reliable link. The client sends its
request from its constructor; the server answers the first line of it and then waits for its empty
line, the client counts the lines of the answer. The two are `OPEN` at different moments, and frames
can be on the way behind lines that have not been read.

Each side makes a run of its own, and what it takes is the front of what the other gives. The server
gives its answer before any frame, so that each side reads a head, which its reader of lines
accepts, followed by the frames of the other.

## Main definitions

* `connectionLink`, `handshakeLink`: the two connections and the state in which they start.
* `Session.ReadsHead`: what it means that a side reads its handshake off the front of a stream.

## Main results

* `flatten_requestLines`: no line of the request is truncated.
* `Session.handshake_agreement`: both sides read exactly the other's lines, and frames from their
  first byte on.
* `Session.first_byte_altered`: a run in which that byte has been altered by a refused payload.
-/

namespace WsClient

/-! ### The request of a client -/

theorem stringFormat_of_lt {n : ℕ} {s : Bytes} (h : s.length < n) : stringFormat n s = s :=
  List.take_of_length_le (by omega)

theorem ascii_crlf : ascii "\r\n" = [0x0D] ++ [0x0A] := by decide

theorem stringFormat_line {l : Bytes} (h : l.length < 254) :
    stringFormat 256 (l ++ ascii "\r\n") = l ++ [0x0D] ++ [0x0A] := by
  rw [ascii_crlf, stringFormat_of_lt (by simp; omega), List.append_assoc]

/-- The text of a header line. -/
structure HeaderText (l : Bytes) : Prop where
  ne_nil : l ≠ []
  no_lf : 0x0A ∉ l
  no_nul : 0 ∉ l
  length_lt : l.length < 254

/-- A request for the path `/`: its first line, header lines and an empty line, each with CR LF. -/
def requestHead (headers : List Bytes) : Bytes :=
  joinLines ((ascii "GET / HTTP/1.1" :: headers ++ [[]]).map (· ++ [0x0D]))

@[simp] theorem stripCR_append_cr (l : Bytes) : stripCR (l ++ [0x0D]) = l := by simp [stripCR]

theorem HeaderText.shortLine {l : Bytes} (h : HeaderText l) : ShortLine (l ++ [0x0D]) := by
  have := h.length_lt
  exact ⟨by simpa using h.no_lf, by simp; omega⟩

/-- A server accepts it. -/
theorem requestHead_spec {headers : List Bytes} (h : ∀ l ∈ headers, HeaderText l) :
    RequestHead (requestHead headers) ∧ 0 ∉ requestHead headers := by
  constructor
  · refine ⟨(ascii "GET / HTTP/1.1" :: headers).map (· ++ [0x0D]), [0x0D],
      ⟨ascii "GET / HTTP/1.1" ++ [0x0D], headers.map (· ++ [0x0D]), rfl, by decide,
        stripCR_append_cr _, ?_⟩, by decide, by decide, ?_⟩
    · intro l hl
      obtain ⟨l', hl', rfl⟩ := List.mem_map.mp hl
      exact ⟨(h l' hl').shortLine, by simpa using (h l' hl').ne_nil⟩
    · rw [requestHead, List.map_append]
      rfl
  · intro hnul
    obtain ⟨l, hl, hnul⟩ := List.mem_flatMap.mp hnul
    obtain ⟨l', hl', rfl⟩ := List.mem_map.mp hl
    have hmem : 0 ∈ l' := by simpa using hnul
    rcases List.mem_append.mp hl' with hl' | hl'
    · rcases List.mem_cons.mp hl' with rfl | hl'
      · exact absurd hmem (by decide)
      · exact (h l' hl').no_nul hmem
    · rw [List.mem_singleton.mp hl'] at hmem
      cases hmem

/-- The header lines of the request of a client. -/
def requestHeaders (host : Bytes) (port : ℤ) (origin : Bytes) : List Bytes :=
  [if port = 80 then ascii "Host: " ++ host
    else ascii "Host: " ++ host ++ ascii ":" ++ printInt port,
    ascii "Upgrade: websocket",
    ascii "Connection: Upgrade"] ++
  (if origin.length ≠ 0 then [ascii "Origin: " ++ origin] else []) ++
  [ascii "Sec-WebSocket-Key: x3JJHMbDL1EzLkh9GBhXDw==",
    ascii "Sec-WebSocket-Version: 13"]

section Request

variable {host origin : Bytes} {port : ℤ}

/-- No line of the request is truncated. -/
theorem flatten_requestLines (hhost : host.length < 128) (horigin : origin.length < 200)
    (hport : -2147483648 ≤ port ∧ port < 2147483648) :
    (requestLines host port [] origin).flatten = requestHead (requestHeaders host port origin) := by
  have hprint := length_printInt_le hport.1 hport.2
  have hfirst : stringFormat 256 (ascii "GET /" ++ [] ++ ascii " HTTP/1.1\r\n") =
      ascii "GET / HTTP/1.1" ++ [0x0D] ++ [0x0A] := by decide
  have hhostLine := stringFormat_line (l := ascii "Host: " ++ host) (by simp [ascii]; omega)
  have hportLine := stringFormat_line (l := ascii "Host: " ++ host ++ ascii ":" ++ printInt port)
    (by simp [ascii]; omega)
  have hupgrade : ascii "Upgrade: websocket\r\n" = ascii "Upgrade: websocket" ++ [0x0D] ++ [0x0A] :=
    by decide
  have hconnection : ascii "Connection: Upgrade\r\n" =
    ascii "Connection: Upgrade" ++ [0x0D] ++ [0x0A] := by decide
  have horiginLine := stringFormat_line (l := ascii "Origin: " ++ origin) (by simp [ascii]; omega)
  have hkey : ascii "Sec-WebSocket-Key: x3JJHMbDL1EzLkh9GBhXDw==\r\n" =
    ascii "Sec-WebSocket-Key: x3JJHMbDL1EzLkh9GBhXDw==" ++ [0x0D] ++ [0x0A] := by decide
  have hversion : ascii "Sec-WebSocket-Version: 13\r\n" =
    ascii "Sec-WebSocket-Version: 13" ++ [0x0D] ++ [0x0A] := by decide
  simp only [requestLines, hfirst, hhostLine, hportLine, hupgrade, hconnection, horiginLine, hkey,
    hversion]
  rw [ascii_crlf]
  simp only [requestHead, requestHeaders]
  split_ifs <;> simp [joinLines]

theorem headerText_requestHeaders (hhost : host.length < 128) (horigin : origin.length < 200)
    (hport : -2147483648 ≤ port ∧ port < 2147483648) (hhost' : 0x0A ∉ host ∧ 0 ∉ host)
    (horigin' : 0x0A ∉ origin ∧ 0 ∉ origin) :
    ∀ l ∈ requestHeaders host port origin, HeaderText l := by
  have hprint := length_printInt_le hport.1 hport.2
  have hprint' : 0x0A ∉ printInt port ∧ 0 ∉ printInt port := by
    constructor
    · intro h
      rcases mem_printInt h with h | h
      · cases h
      · exact absurd h (by decide)
    · intro h
      rcases mem_printInt h with h | h
      · cases h
      · exact absurd h (by decide)
  obtain ⟨hlf, hnul⟩ := hhost'
  obtain ⟨hlf', hnul'⟩ := horigin'
  have hhostText : HeaderText (if port = 80 then ascii "Host: " ++ host
      else ascii "Host: " ++ host ++ ascii ":" ++ printInt port) := by
    split_ifs
    · exact ⟨by simp [ascii], by simpa [ascii] using hlf, by simpa [ascii] using hnul,
        by simp [ascii]; omega⟩
    · exact ⟨by simp [ascii], by simpa [ascii] using ⟨hlf, hprint'.1⟩,
        by simpa [ascii] using ⟨hnul, hprint'.2⟩, by simp [ascii]; omega⟩
  have horiginText : HeaderText (ascii "Origin: " ++ origin) :=
    ⟨by simp [ascii], by simpa [ascii] using hlf', by simpa [ascii] using hnul',
      by simp [ascii]; omega⟩
  intro l hl
  simp only [requestHeaders, List.mem_append, List.mem_cons, List.not_mem_nil, or_false] at hl
  rcases hl with ((rfl | rfl | rfl) | hl) | rfl | rfl
  · exact hhostText
  · exact ⟨by decide, by decide, by decide, by decide⟩
  · exact ⟨by decide, by decide, by decide, by decide⟩
  · split_ifs at hl
    · rw [List.mem_singleton.mp hl]
      exact horiginText
    · cases hl
  · exact ⟨by decide, by decide, by decide, by decide⟩
  · exact ⟨by decide, by decide, by decide, by decide⟩

/-- A host is a part of its URL, and a port is a 32-bit integer. -/
theorem parseUrl_bounds {url path : Bytes} (h : parseUrl url = some (host, port, path)) :
    host.length ≤ url.length ∧ -2147483648 ≤ port ∧ port < 2147483648 := by
  have hhost : ¬NoHost url := fun hno => by
    rw [parseUrl_of_noHost hno] at h
    cases h
  obtain ⟨host', rest, rfl, hne, hchars, hrest⟩ := exists_host_of_not_noHost hhost
  rw [parseUrl_append hne hchars hrest] at h
  obtain ⟨rfl, rfl, -⟩ : host' = host ∧ (readPort rest).1 = port ∧ _ := by simpa using h
  refine ⟨by simp; omega, ?_⟩
  unfold readPort
  split
  · simp
  · split
    · simp
    · exact Scan.toInt32_lt _

/-- A URL of a host alone. -/
theorem parseUrl_h : parseUrl (ascii "ws://h") = some (ascii "h", 80, []) := by decide +kernel

end Request

/-! ### What a side gives -/

theorem Event.givenBytes_eq (e : Event) :
    e.givenBytes = e.sentLine.flatten ++ e.acceptedBytes := by
  cases e with
  | transmit data r => cases r <;> rfl
  | handshakeSend text => simp [givenBytes, sentLine, acceptedBytes]
  | _ => rfl

/-- The bytes given to the socket, where lines of the handshake are all that is given. -/
theorem flatMap_givenBytes_of_accepted {es : List Event}
    (h : ∀ e ∈ es, e.acceptedBytes = []) :
    es.flatMap Event.givenBytes = (handshakeSends es).flatten := by
  induction es with
  | nil => rfl
  | cons e es ih =>
    rw [List.flatMap_cons, Event.givenBytes_eq, h e List.mem_cons_self,
      ih fun e' he' => h e' (List.mem_cons_of_mem _ he')]
    simp [handshakeSends]

/-- The bytes given to the socket, where no line of the handshake is among them. -/
theorem flatMap_givenBytes_of_sends {es : List Event} (h : handshakeSends es = []) :
    es.flatMap Event.givenBytes = es.flatMap Event.acceptedBytes := by
  refine List.flatMap_congr fun e he => ?_
  rw [Event.givenBytes_eq, List.flatMap_eq_nil_iff.mp h e he]
  rfl

namespace Session

variable {s t : Session} {tr : List (Input × List Event)} {es : List Event}

/-- The lines of the handshake are given to the socket before the bytes of frames. -/
theorem run_givenBytes {G : Session → Input → List Event → Prop} (hs : Constructed s)
    (h : sessionMachine.Run G s tr t) :
    (Machine.events tr).flatMap Event.givenBytes =
      (handshakeSends (Machine.events tr)).flatten ++
        (Machine.events tr).flatMap Event.acceptedBytes := by
  refine h.invariant (P := fun (tr : List (Input × List Event)) (_ : Session) =>
    (Machine.events tr).flatMap Event.givenBytes =
      (handshakeSends (Machine.events tr)).flatten ++
        (Machine.events tr).flatMap Event.acceptedBytes) rfl ?_
  intro tr t i es u hrun ih hstep _
  obtain ⟨hc, hconnecting⟩ := run_connecting hs hrun
  have hall : (Machine.events (tr ++ [(i, es)])).flatMap Event.givenBytes =
      (handshakeSends (Machine.events tr)).flatten ++
        (Machine.events tr).flatMap Event.acceptedBytes ++ es.flatMap Event.givenBytes := by
    simp [ih]
  rw [hall]
  by_cases hstack : ∃ rest, t.stack = .connecting :: rest
  · obtain ⟨rest, hstack⟩ := hstack
    have hstate := hc.connecting rest hstack
    have hbefore : (Machine.events tr).flatMap Event.acceptedBytes = [] :=
      List.flatMap_eq_nil_iff.mpr fun e he =>
        Event.acceptedBytes_of_isFrame (hconnecting hstate e he)
    have hnow : ∀ e ∈ es, e.acceptedBytes = [] := fun e he => by
      refine Event.acceptedBytes_of_isFrame (Bool.eq_false_iff.mpr fun hframe => ?_)
      obtain ⟨a, ha, hpast⟩ := step_isFrame hc hstep ⟨e, he, hframe⟩
      have := hc.past a ha hpast
      rw [hstate] at this
      exact absurd this (by decide)
    have hnow' := List.flatMap_eq_nil_iff.mpr hnow
    simp [flatMap_givenBytes_of_accepted hnow, hbefore, hnow']
  · have hsends := (handshakeBytes_of_isHandshake
      (step_isHandshake hstep fun rest heq => hstack ⟨rest, heq⟩)).2.1
    simp [flatMap_givenBytes_of_sends hsends, hsends]

/-! ### One side -/

/-- A side that reads its handshake off the front of a stream: it does not leave `CONNECTING` before
the end of the handshake, which is at the end of the head, and what follows the head is all that the
frame loop gets. -/
structure ReadsHead (head frames : Bytes) (es : List Event) (s : Session) : Prop where
  not_closed : .handshakeDone ∉ es → s.impl.mReadyState = .connecting
  lines : handshakeBytes es <+: head
  done : .handshakeDone ∈ es ↔ handshakeBytes es = head
  frames : es.flatMap Event.receivedBytes <+: frames

theorem Handshaking.readsHead {isServer : Bool} (hs : Handshaking isServer es s)
    {head frames : Bytes}
    (hhead : (handshakeReader isServer).read (.reading .httpStatus []) head = .accepted)
    (htaken : es.flatMap Event.takenBytes <+: head ++ frames) : ReadsHead head frames es s := by
  rw [hs.taken] at htaken
  have hread := hs.reading
  have hover : handshakeReading isServer es ≠ .overrun := fun hover => by
    rw [hover] at hread
    exact hread
  obtain ⟨hle, hacc⟩ := LineReader.isPrefix_of_final hhead (List.prefix_append head frames)
    ((List.prefix_append _ _).trans htaken) hover
  have hdone : .handshakeDone ∈ es ↔ handshakeBytes es = head := hs.done.trans hacc
  have hconnecting (hno : .handshakeDone ∉ es) : s.impl.mReadyState = .connecting := by
    cases hr : handshakeReading isServer es with
    | reading phase line =>
      rw [hr] at hread
      exact hread.1
    | accepted => exact absurd (hs.done.mpr hr) hno
    | overrun => exact absurd hr hover
    | rejected =>
      -- the head would go on behind a rejection
      obtain ⟨rest, hrest⟩ := hle
      rw [← hrest, LineReader.read_append] at hhead
      change (handshakeReader isServer).read (handshakeReading isServer es) rest = _ at hhead
      rw [hr] at hhead
      cases rest with
      | nil => cases hhead
      | cons c rest => exact absurd ((LineReader.read_overrun _ rest).symm.trans hhead) (by simp)
  refine ⟨hconnecting, hle, hdone, ?_⟩
  by_cases hmem : .handshakeDone ∈ es
  · rw [hdone.mp hmem] at htaken
    exact (List.prefix_append_right_inj head).mp htaken
  · rw [hs.received (hconnecting hmem)]
    exact List.nil_prefix

end Session

/-! ### Both sides -/

/-- Two connections on a reliable link. -/
def connectionLink : Machine (Link Session UInt8) (Side × Input) Event :=
  sessionMachine.link Event.takenBytes Event.givenBytes

/-- A client and a server that are constructed on the ends of a link. The client is on the left; its
request is on the way. -/
def handshakeLink (p p' : Platform) (url origin : Bytes) (useMask useMask' : Bool) :
    Link Session UInt8 where
  left := Session.start (WebSocketImpl.ofUrl p url origin useMask true).1
  right := Session.start (.ofSocket p' true useMask')
  toLeft := []
  toRight := (WebSocketImpl.ofUrl p url origin useMask true).2.flatMap Event.givenBytes

/-- What a side reads as its handshake: the client the response, the server the request. -/
def handshakeHead (host : Bytes) (port : ℤ) (origin : Bytes) : Side → Bytes
  | .left => responseLines.flatten
  | .right => (requestLines host port [] origin).flatten

namespace Session

variable {p p' : Platform} {url origin host : Bytes} {port : ℤ} {useMask useMask' : Bool}

/-- The client of a URL. -/
theorem ofUrl_of_parseUrl {path : Bytes} (hurl : url.length < 128) (horigin : origin.length < 200)
    (hparse : parseUrl url = some (host, port, path)) (hport : port ≠ 0) :
    WebSocketImpl.ofUrl p url origin useMask true =
      ({ WebSocketImpl.initial p useMask with mSocket := true, mReadyState := .connecting },
        (requestLines host port path origin).map .handshakeSend) := by
  rw [WebSocketImpl.ofUrl, if_neg (Nat.not_le_of_lt hurl), if_neg (Nat.not_le_of_lt horigin)]
  simp [hparse, hport]

/-- The server accepts the request. -/
theorem server_accepts_request (hurl : url.length < 128) (horigin : origin.length < 200)
    (hparse : parseUrl url = some (host, port, [])) (hhost : 0x0A ∉ host ∧ 0 ∉ host)
    (horigin' : 0x0A ∉ origin ∧ 0 ∉ origin) :
    (handshakeReader true).read (.reading .httpStatus [])
        (requestLines host port [] origin).flatten = .accepted ∧
      Answered (requestLines host port [] origin).flatten := by
  obtain ⟨hle, hbounds⟩ := parseUrl_bounds hparse
  have hlen : host.length < 128 := hle.trans_lt hurl
  obtain ⟨hhead, hnul⟩ := requestHead_spec
    (headerText_requestHeaders hlen horigin hbounds hhost horigin')
  rw [flatten_requestLines hlen horigin hbounds]
  refine ⟨(server_accepts_iff hnul).mpr hhead, (answered_iff hnul).mpr ?_⟩
  exact ⟨ascii "GET / HTTP/1.1" ++ [0x0D], _, by decide, stripCR_append_cr _, rfl⟩

section Agreement

variable (hurl : url.length < 128) (horigin : origin.length < 200)
  (hparse : parseUrl url = some (host, port, [])) (hport : port ≠ 0)
  (hhost : 0x0A ∉ host ∧ 0 ∉ host) (horigin' : 0x0A ∉ origin ∧ 0 ∉ origin)
  {tr : List ((Side × Input) × List Event)} {l : Link Session UInt8}
  (h : connectionLink.Run (Machine.linkGuard fun _ => Patient)
    (handshakeLink p p' url origin useMask useMask') tr l)

include hurl horigin hparse hport h

/-- The client hands no line to the socket once it is constructed. -/
theorem client_handshaking :
    Handshaking false (Machine.events (Machine.trace .left tr)) l.left ∧
      (Machine.events (Machine.trace .left tr)).flatMap Event.givenBytes =
        (Machine.events (Machine.trace .left tr)).flatMap Event.acceptedBytes := by
  have hsock : (WebSocketImpl.ofUrl p url origin useMask true).1.mSocket = true := by
    rw [ofUrl_of_parseUrl hurl horigin hparse hport]
  have hh := run_handshaking (handshaking_ofUrl hsock) (h.project .left)
  exact ⟨hh, flatMap_givenBytes_of_sends (by simpa using hh.sent)⟩

include hhost horigin'

theorem server_readsHead :
    ReadsHead (requestLines host port [] origin).flatten
      ((Machine.events (Machine.trace .left tr)).flatMap Event.acceptedBytes)
      (Machine.events (Machine.trace .right tr)) l.right := by
  have hh := run_handshaking (handshaking_ofSocket p' useMask') (h.project .right)
  have hwire : (handshakeLink p p' url origin useMask useMask').wire .right =
      (requestLines host port [] origin).flatten := by
    change (WebSocketImpl.ofUrl p url origin useMask true).2.flatMap Event.givenBytes = _
    rw [ofUrl_of_parseUrl hurl horigin hparse hport, List.flatMap_map]
    exact List.flatMap_id
  have htaken := h.conserves .right
  rw [hwire, Side.other, (client_handshaking hurl horigin hparse hport h).2] at htaken
  exact hh.readsHead (server_accepts_request hurl horigin hparse hhost horigin').1 ⟨_, htaken⟩

theorem client_readsHead :
    ReadsHead responseLines.flatten
      ((Machine.events (Machine.trace .right tr)).flatMap Event.acceptedBytes)
      (Machine.events (Machine.trace .left tr)) l.left := by
  have hh := run_handshaking (handshaking_ofSocket p' useMask') (h.project .right)
  have hserver := server_readsHead hurl horigin hparse hport hhost horigin' h
  have htaken := h.conserves .left
  have hgiven := run_givenBytes (.server p' true useMask') (h.project .right)
  refine (client_handshaking hurl horigin hparse hport h).1.readsHead client_accepts_response ?_
  rw [Side.other, hgiven, hh.sent] at htaken
  by_cases hanswered : Answered (handshakeBytes (Machine.events (Machine.trace .right tr)))
  · rw [if_pos ⟨rfl, hanswered⟩] at htaken
    exact ⟨_, htaken⟩
  · -- the server is still `CONNECTING`
    have hno : .handshakeDone ∉ Machine.events (Machine.trace .right tr) := fun hdone => by
      rw [hserver.done.mp hdone] at hanswered
      exact hanswered (server_accepts_request hurl horigin hparse hhost horigin').2
    have hnone : (Machine.events (Machine.trace .right tr)).flatMap Event.acceptedBytes = [] :=
      List.flatMap_eq_nil_iff.mpr fun e he => Event.acceptedBytes_of_isFrame
        ((run_connecting (.server p' true useMask') (h.project .right)).2
          (hserver.not_closed hno) e he)
    rw [if_neg fun hans => hanswered hans.2, hnone] at htaken
    rw [(List.append_eq_nil_iff.mp htaken).1]
    exact List.nil_prefix

end Agreement

/-- Whatever the order of the steps of a client and a server, neither leaves `CONNECTING` before the
end of its handshake, the server reads exactly the request and the client exactly the response as
lines, and the frame loop of each gets what the transmit buffer of the other gives, from its first
byte on. That is the first byte of the first frame, unless the transmit buffer is damaged. -/
theorem handshake_agreement (hurl : url.length < 128) (horigin : origin.length < 200)
    (hparse : parseUrl url = some (host, port, [])) (hport : port ≠ 0)
    (hhost : 0x0A ∉ host ∧ 0 ∉ host) (horigin' : 0x0A ∉ origin ∧ 0 ∉ origin)
    {tr : List ((Side × Input) × List Event)} {l : Link Session UInt8}
    (h : connectionLink.Run (Machine.linkGuard fun _ => Patient)
      (handshakeLink p p' url origin useMask useMask') tr l) (side : Side) :
    ReadsHead (handshakeHead host port origin side)
        ((Machine.events (Machine.trace side.other tr)).flatMap Event.acceptedBytes)
        (Machine.events (Machine.trace side tr)) (l.party side) ∧
      (sessionMachine.Run PayloadsKept
          ((handshakeLink p p' url origin useMask useMask').party side.other)
          (Machine.trace side.other tr) (l.party side.other) →
        ∀ b, ((Machine.events (Machine.trace side tr)).flatMap Event.receivedBytes).head? = some b →
          ((Machine.events (Machine.trace side.other tr)).flatMap (Event.issuedBytes
            ((handshakeLink p p' url origin useMask useMask').party
              side.other).impl.mUseMask)).head? = some b) := by
  have hreads : ReadsHead (handshakeHead host port origin side)
      ((Machine.events (Machine.trace side.other tr)).flatMap Event.acceptedBytes)
      (Machine.events (Machine.trace side tr)) (l.party side) := by
    cases side with
    | left => exact client_readsHead hurl horigin hparse hport hhost horigin' h
    | right => exact server_readsHead hurl horigin hparse hport hhost horigin' h
  refine ⟨hreads, fun hkept b hb => ?_⟩
  have hs : Constructed ((handshakeLink p p' url origin useMask useMask').party side.other) := by
    cases side with
    | left => exact .server p' true useMask'
    | right => exact .client p url origin useMask true
  obtain ⟨heap, -, hbuf, -⟩ := hs.buffers
  exact head_acceptedBytes (hbuf ▸ (newBuffer_spec _).1) hs.consistent (hbuf ▸ rfl) hkept
    (first_of_leading hreads.frames hb)

/-- A server that sends a text as soon as it is `OPEN`, before the client has read a line. -/
theorem handshake_agreement_early :
    ∃ tr l, connectionLink.Run (Machine.linkGuard fun _ => Patient)
        (handshakeLink zeroPlatform zeroPlatform (ascii "ws://h") [] true true) tr l ∧
      ReadsHead (handshakeHead (ascii "h") 80 [] .left)
        ((Machine.events (Machine.trace .right tr)).flatMap Event.acceptedBytes)
        (Machine.events (Machine.trace .left tr)) l.left ∧
      .handshakeDone ∈ Machine.events (Machine.trace .left tr) ∧
      ((Machine.events (Machine.trace .right tr)).flatMap (Event.issuedBytes true)).head? =
        some 0x81 := by
  obtain ⟨u, s, hu, hP⟩ := Machine.exists_run_of_exec (M := sessionMachine)
    (G := fun s i es => Patient s i es ∧ PayloadsKept s i es)
    (s := start (.ofSocket zeroPlatform true true))
    (l := handshakeInputs (requestLines (ascii "h") 80 [] []).flatten ++
      [.sendText (some (ascii "A")) 0, .poll true 0, .receive .wouldBlock, .send (.accepted 7)])
    (P := fun r => decide ((Machine.events r.2).flatMap Event.takenBytes =
        (requestLines (ascii "h") 80 [] []).flatten ∧
      (Machine.events r.2).flatMap Event.givenBytes =
        responseLines.flatten ++ [0x81, 0x81, 0, 0, 0, 0, 0x41])) (by decide +kernel)
  obtain ⟨htaken, hgiven⟩ := of_decide_eq_true hP
  obtain ⟨u', s', hu', hP'⟩ := Machine.exists_run_of_exec (M := sessionMachine) (G := Patient)
    (s := start (WebSocketImpl.ofUrl zeroPlatform (ascii "ws://h") [] true true).1)
    (l := handshakeInputs responseLines.flatten ++ [.poll true 0, .receive (.data [0x81, 0x81])])
    (P := fun r => decide ((Machine.events r.2).flatMap Event.takenBytes =
        responseLines.flatten ++ [0x81, 0x81] ∧
      (Machine.events r.2).flatMap Event.receivedBytes = [0x81, 0x81] ∧
      .handshakeDone ∈ Machine.events r.2)) (by decide +kernel)
  obtain ⟨htaken', hreceived', hdone'⟩ := of_decide_eq_true hP'
  set l₀ := handshakeLink zeroPlatform zeroPlatform (ascii "ws://h") [] true true with hl₀
  have hserver : sessionMachine.Run Patient (l₀.party .right) u s := hu.mono fun _ _ _ h => h.1
  have hkept : sessionMachine.Run PayloadsKept (l₀.party .right) u s :=
    hu.mono fun _ _ _ h => h.2
  have hwire : l₀.wire .right = (Machine.events u).flatMap Event.takenBytes ++ [] := by
    rw [htaken]
    decide +kernel
  have hstart : connectionLink.Run (Machine.linkGuard fun _ => Patient) l₀ [] l₀ := .nil
  obtain ⟨l₁, hlink₁, hright₁, hleft₁, -, hwire₁⟩ := hstart.append_lift hserver hwire
  have hleft₁ : l₁.party .left = start (WebSocketImpl.ofUrl zeroPlatform (ascii "ws://h") [] true
    true).1 := hleft₁
  have hwire₁ : l₁.wire .left = (Machine.events u').flatMap Event.takenBytes ++
      [0, 0, 0, 0, 0x41] := by
    rw [htaken', List.append_assoc]
    exact hwire₁.trans hgiven
  rw [← hleft₁] at hu'
  obtain ⟨l₂, hlink₂, -, hright₂, -⟩ := hlink₁.append_lift hu' hwire₁
  have hleft : Machine.trace .left ([] ++ Machine.lift .right u ++ Machine.lift .left u') = u' := by
    simp [Machine.trace, Machine.lift]
  have hright : Machine.trace Side.left.other ([] ++ Machine.lift .right u ++
      Machine.lift .left u') = u := by
    simp [Machine.trace, Machine.lift, Side.other]
  have hs : l₂.party Side.left.other = s := hright₂.trans hright₁
  obtain ⟨hreads, hfirst⟩ := handshake_agreement (by decide) (by decide) parseUrl_h (by decide)
    (by decide) (by decide) hlink₂ .left
  have hfirst := hfirst (by rw [hright, hs]; exact hkept) 0x81 (by rw [hleft, hreceived']; rfl)
  exact ⟨_, l₂, hlink₂, hreads, by rw [hleft]; exact hdone', hfirst⟩

/-! ### A damaged first byte -/

/-- Queuing a frame takes nothing from the socket and gives nothing to it. -/
theorem flatMap_of_isQueuing {es : List Event} (h : ∀ e ∈ es, e.isQueuing = true) :
    es.flatMap Event.takenBytes = [] ∧ es.flatMap Event.givenBytes = [] := by
  have hnil (e : Event) (he : e.isQueuing = true) : e.takenBytes = [] ∧ e.givenBytes = [] := by
    cases e <;> first | exact ⟨rfl, rfl⟩ | cases he
  exact ⟨List.flatMap_eq_nil_iff.mpr fun e he => (hnil e (h e he)).1,
    List.flatMap_eq_nil_iff.mpr fun e he => (hnil e (h e he)).2⟩

/-- Two messages of which the second is refused: the first byte that goes out is not the first byte
of a frame. -/
theorem corrupted_first_run {w : WebSocketImpl} (hwf : w.mTransmitBuffer.WF)
    (hstate : w.mReadyState = .opened) (hsock : w.mSocket = true) (hmask : w.mUseMask = true)
    (hfresh : w.mTransmitBuffer.Fresh) :
    ∃ tr t, sessionMachine.Run Patient ⟨w, []⟩ tr t ∧
      (Machine.events tr).flatMap Event.takenBytes = [] ∧
      (Machine.events tr).flatMap Event.givenBytes = [0x83] ∧
      ((Machine.events tr).flatMap (Event.issuedBytes true)).head? = some 0x82 := by
  obtain ⟨d₁, hlen₁⟩ : ∃ d : Bytes, d.length = 268435456 :=
    ⟨List.replicate 268435456 0, List.length_replicate⟩
  obtain ⟨d₂, hlen₂⟩ : ∃ d : Bytes, d.length = 268435484 :=
    ⟨List.replicate 268435484 0, List.length_replicate⟩
  obtain ⟨key, hkey⟩ : ∃ key : MaskingKey, key 0 = 1 := ⟨fun _ => 1, rfl⟩
  have hc : Cursors w.mTransmitBuffer 0 16384 :=
    ⟨congrArg SimpleBuffer.Extent.startLoc hfresh, congrArg SimpleBuffer.Extent.endLoc hfresh,
      congrArg SimpleBuffer.Extent.maxLen hfresh, congrArg SimpleBuffer.Extent.maxGrowSize hfresh⟩
  -- the first message is queued
  have hkept : w.PayloadKept d₁.length := by
    simp only [WebSocketImpl.PayloadKept, hmask, hlen₁]
    rw [show w.mTransmitBuffer.extent = _ from hfresh]
    decide
  have hext : Extends w (w.sendBinary (some d₁) key).1 (w.sendBinary (some d₁) key).2 :=
    WebSocketImpl.sendData_extends hwf (by simp) (fun _ => hkept) (.inl rfl)
  have hissued : ((w.sendBinary (some d₁) key).2.flatMap (Event.issuedBytes true)).head? =
      some 0x82 := by
    rw [WebSocketImpl.sendBinary, WebSocketImpl.sendData_issuedBytes, hstate]
    rfl
  have hqueuing := flatMap_of_isQueuing
    (WebSocketImpl.sendData_isQueuing w .binaryFrame (some d₁) d₁.length key)
  have hacc := List.flatMap_eq_nil_iff.mpr fun e he => Event.acceptedBytes_of_isFrame
    (WebSocketImpl.sendData_isFrame w .binaryFrame (some d₁) d₁.length key e he)
  have hhead : (w.sendBinary (some d₁) key).1.mTransmitBuffer.getData.head? = some 0x82 := by
    have hfirst := hext.fresh hfresh
    rw [hmask] at hfirst
    rcases hfirst with ⟨-, -, hnone⟩ | ⟨b, hb, hdata⟩
    · rw [hnone] at hissued
      cases hissued
    · obtain rfl := Option.some.inj (hb.symm.trans hissued)
      change (w.sendBinary (some d₁) key).2.flatMap Event.acceptedBytes = [] at hacc
      rwa [hacc, List.nil_append] at hdata
  obtain ⟨hc₁, -⟩ := sendBinary_of_grow hstate hmask hc hlen₁ key
  have hkeep₁ : Keeps w (w.sendBinary (some d₁) key).1 := WebSocketImpl.sendData_keeps _ _ _ _ _
  have hstate₁ : (w.sendBinary (some d₁) key).1.mReadyState = .opened :=
    (WebSocketImpl.sendData_mReadyState _ _ _ _ _).trans hstate
  have hmask₁ := hext.useMask.trans hmask
  have hwf₁ := hext.wf
  have hstep₁ : sessionMachine.step ⟨w, []⟩ (.sendBinary (some d₁) key) =
    some (⟨(w.sendBinary (some d₁) key).1, []⟩, (w.sendBinary (some d₁) key).2) := rfl
  change (w.sendBinary (some d₁) key).2.flatMap Event.takenBytes = [] ∧
    (w.sendBinary (some d₁) key).2.flatMap Event.givenBytes = [] at hqueuing
  clear hext hacc hkept
  generalize (w.sendBinary (some d₁) key).1 = w₁ at *
  generalize (w.sendBinary (some d₁) key).2 = es₁ at *
  -- the second message masks all of it
  have hheader : (frameHeader true .binaryFrame 268435484 key).length = 14 := by
    simp [frameHeader]
  obtain ⟨c, d', hlen', hsplit, hdata₂⟩ := getData_sendBinary_of_refused hwf₁ hstate₁ hmask₁ hc₁
    hheader (by omega) (by decide) (by decide) hlen₂ (by omega) (by decide) (by omega)
  have hlength := congrArg List.length hsplit
  rw [List.length_append, List.length_append, SimpleBuffer.length_getData, hwf₁.getSize_eq,
    hc₁.start, hc₁.last, hheader, hlen'] at hlength
  obtain rfl : c = [] := List.length_eq_zero_iff.mp (by omega)
  rw [List.nil_append] at hsplit hdata₂
  have hhead' : d'.head? = some 0x82 := by
    rw [← hsplit]
    exact first_of_leading (List.prefix_append _ _) hhead
  have hqueuing₂ := flatMap_of_isQueuing
    (WebSocketImpl.sendData_isQueuing w₁ .binaryFrame (some d₂) d₂.length key)
  have hkeep₂ : Keeps w₁ (w₁.sendBinary (some d₂) key).1 := WebSocketImpl.sendData_keeps _ _ _ _ _
  have hstate₂ : (w₁.sendBinary (some d₂) key).1.mReadyState = .opened :=
    (WebSocketImpl.sendData_mReadyState _ _ _ _ _).trans hstate₁
  have hstep₂ : sessionMachine.step ⟨w₁, []⟩ (.sendBinary (some d₂) key) =
    some (⟨(w₁.sendBinary (some d₂) key).1, []⟩, (w₁.sendBinary (some d₂) key).2) := rfl
  change (w₁.sendBinary (some d₂) key).2.flatMap Event.takenBytes = [] ∧
    (w₁.sendBinary (some d₂) key).2.flatMap Event.givenBytes = [] at hqueuing₂
  generalize (w₁.sendBinary (some d₂) key).1 = w₂ at *
  generalize (w₁.sendBinary (some d₂) key).2 = es₂ at *
  -- the first byte goes out
  have hfirst : w₂.mTransmitBuffer.getData.take 1 = [0x83] := by
    obtain ⟨x, rest, rfl⟩ := List.exists_cons_of_length_pos (by omega : 0 < d'.length)
    obtain rfl : x = 0x82 := by simpa using hhead'
    have hxor : (0x82 : UInt8) ^^^ 1 = 0x83 := by decide
    simp [hdata₂, maskBytes, hkey, hxor]
  have hsize : 1 ≤ w₂.mTransmitBuffer.getSize := by
    rw [← SimpleBuffer.length_getData, hdata₂, length_maskBytes]
    omega
  obtain ⟨w₃, es₃, hpoll, hreceive, hsend, hstate₃, -, hes₃⟩ :=
    poll_steps ((hkeep₁.trans hkeep₂).socket.trans hsock) (.inl hstate₂) Nat.one_pos hsize
  have hguard {s : Session} (hs : s.impl.mReadyState = .opened) (i : Input) (es : List Event) :
      Patient s i es := fun h => by simp [hs] at h
  have hrun := ((((Machine.Run.single hstep₁ (hguard hstate _ _)).snoc hstep₂
    (hguard hstate₁ _ _)).snoc hpoll (hguard hstate₂ _ _)).snoc hreceive
    (hguard hstate₂ _ _)).snoc hsend (hguard (hstate₃.trans hstate₂) _ _)
  have hnone₃ : es₃.flatMap Event.takenBytes = [] ∧ es₃.flatMap Event.givenBytes = [] :=
    flatMap_of_isQueuing fun e he => by
      obtain ⟨m, rfl⟩ := hes₃ e he
      rfl
  refine ⟨_, _, hrun, ?_, ?_, ?_⟩
  · simp [hqueuing.1, hqueuing₂.1, hnone₃.1, Event.takenBytes]
  · simp [hqueuing.2, hqueuing₂.2, hnone₃.2, Event.givenBytes, hfirst]
  · simp only [Machine.events_append, Machine.events_cons, Machine.events_nil, List.append_nil,
      List.flatMap_append, List.append_assoc]
    exact first_of_leading (List.prefix_append _ _) hissued

/-- The handshake of a client. -/
theorem exists_client_run :
    ∃ tr t, sessionMachine.Run Patient
        (start (WebSocketImpl.ofUrl zeroPlatform (ascii "ws://h") [] true true).1) tr t ∧
      t.stack = [] ∧ t.impl.mReadyState = .opened ∧ t.impl.mSocket = true ∧
      t.impl.mUseMask = true ∧ t.impl.mTransmitBuffer.Fresh ∧ t.impl.mTransmitBuffer.WF ∧
      (Machine.events tr).flatMap Event.takenBytes = responseLines.flatten ∧
      (Machine.events tr).flatMap Event.givenBytes = [] ∧
      (Machine.events tr).flatMap (Event.issuedBytes true) = [] := by
  obtain ⟨tr, t, hrun, hP⟩ := Machine.exists_run_of_exec (M := sessionMachine) (G := Patient)
    (s := start (WebSocketImpl.ofUrl zeroPlatform (ascii "ws://h") [] true true).1)
    (l := handshakeInputs responseLines.flatten)
    (P := fun r => decide (r.1.stack = [] ∧ r.1.impl.mReadyState = .opened ∧
      r.1.impl.mSocket = true ∧ r.1.impl.mUseMask = true ∧ r.1.impl.mTransmitBuffer.Fresh ∧
      r.1.impl.mTransmitBuffer.mMaxLen ≤ r.1.impl.mTransmitBuffer.mBuffer.size ∧
      (Machine.events r.2).flatMap Event.takenBytes = responseLines.flatten ∧
      (Machine.events r.2).flatMap Event.givenBytes = [] ∧
      (Machine.events r.2).flatMap (Event.issuedBytes true) = [])) (by decide +kernel)
  obtain ⟨hstack, hopen, hsock, hmask, hfresh, hsize, hbytes⟩ := of_decide_eq_true hP
  exact ⟨tr, t, hrun, hstack, hopen, hsock, hmask, hfresh, hfresh.wf hsize, hbytes⟩

/-- The handshake of a server, which then gets one more byte. -/
theorem exists_server_run :
    ∃ tr t tr' t', sessionMachine.Run Patient (start (.ofSocket zeroPlatform true true)) tr t ∧
      (Machine.events tr).flatMap Event.takenBytes =
        (requestLines (ascii "h") 80 [] []).flatten ∧
      (Machine.events tr).flatMap Event.givenBytes = responseLines.flatten ∧
      (Machine.events tr).flatMap Event.receivedBytes = [] ∧
      sessionMachine.Run Patient t tr' t' ∧
      (Machine.events tr').flatMap Event.takenBytes = [0x83] ∧
      (Machine.events tr').flatMap Event.receivedBytes = [0x83] := by
  obtain ⟨tr, t, hrun, hP⟩ := Machine.exists_run_of_exec (M := sessionMachine) (G := Patient)
    (s := start (.ofSocket zeroPlatform true true))
    (l := handshakeInputs (requestLines (ascii "h") 80 [] []).flatten)
    (P := fun r => decide ((Machine.events r.2).flatMap Event.takenBytes =
          (requestLines (ascii "h") 80 [] []).flatten ∧
        (Machine.events r.2).flatMap Event.givenBytes = responseLines.flatten ∧
        (Machine.events r.2).flatMap Event.receivedBytes = []) &&
      (sessionMachine.exec Patient r.1 [.poll true 0, .receive (.data [0x83])]).any fun r' =>
        decide ((Machine.events r'.2).flatMap Event.takenBytes = [0x83] ∧
          (Machine.events r'.2).flatMap Event.receivedBytes = [0x83])) (by decide +kernel)
  obtain ⟨hfirst, hsecond⟩ := (Bool.and_eq_true _ _).mp hP
  obtain ⟨htaken, hgiven, hreceived⟩ := of_decide_eq_true hfirst
  obtain ⟨tr', t', hrun', hP'⟩ := Machine.exists_run_of_exec hsecond
  obtain ⟨htaken', hreceived'⟩ := of_decide_eq_true hP'
  exact ⟨tr, t, tr', t', hrun, htaken, hgiven, hreceived, hrun', htaken', hreceived'⟩

/-- A client whose second message is refused: the masking that follows alters the first byte of its
first message, and this is the first byte that the server gets. -/
theorem first_byte_altered :
    ¬∀ (p p' : Platform) (url origin host : Bytes) (port : ℤ) (useMask useMask' : Bool)
        (tr : List ((Side × Input) × List Event)) (l : Link Session UInt8),
      url.length < 128 → origin.length < 200 → parseUrl url = some (host, port, []) → port ≠ 0 →
      (∀ c ∈ host ++ origin, c ≠ 0x0D ∧ c ≠ 0x0A ∧ c ≠ 0) →
      connectionLink.Run (Machine.linkGuard fun _ => Patient)
        (handshakeLink p p' url origin useMask useMask') tr l →
      ∀ side b,
        ((Machine.events (Machine.trace side tr)).flatMap Event.receivedBytes).head? = some b →
          ((Machine.events (Machine.trace side.other tr)).flatMap (Event.issuedBytes
            ((handshakeLink p p' url origin useMask useMask').party
              side.other).impl.mUseMask)).head? = some b := by
  intro h
  obtain ⟨tr₁, t₁, tr₃, t₃, hrun₁, htaken₁, hgiven₁, hreceived₁, hrun₃, htaken₃, hreceived₃⟩ :=
    exists_server_run
  obtain ⟨tr₂, t₂, hrun₂, hstack, hopen, hsock, hmask, hfresh, hwf, htaken₂, hgiven₂, hissued₂⟩ :=
    exists_client_run
  obtain ⟨tr₄, t₄, hrun₄, htaken₄, hgiven₄, hissued₄⟩ :=
    corrupted_first_run hwf hopen hsock hmask hfresh
  have ht₂ : t₂ = ⟨t₂.impl, []⟩ := by rw [← hstack]
  rw [← ht₂] at hrun₄
  set l₀ := handshakeLink zeroPlatform zeroPlatform (ascii "ws://h") [] true true with hl₀
  have hwire : l₀.wire .right = (Machine.events tr₁).flatMap Event.takenBytes ++ [] := by
    rw [htaken₁]
    decide +kernel
  -- the server answers the request, the client reads the answer and sends, and the server reads
  have hstart : connectionLink.Run (Machine.linkGuard fun _ => Patient) l₀ [] l₀ := .nil
  have hrun₁ : sessionMachine.Run Patient (l₀.party .right) tr₁ t₁ := hrun₁
  obtain ⟨l₁, hlink₁, hright₁, hleft₁, hwire₁, hwire₁'⟩ := hstart.append_lift hrun₁ hwire
  have hleft₁ : l₁.party .left = start (WebSocketImpl.ofUrl zeroPlatform (ascii "ws://h") [] true
    true).1 := hleft₁
  have hwire₁' : l₁.wire .left = (Machine.events tr₂).flatMap Event.takenBytes ++ [] := by
    rw [htaken₂, List.append_nil, ← hgiven₁]
    exact hwire₁'
  rw [← hleft₁] at hrun₂
  obtain ⟨l₂, hlink₂, hleft₂, hright₂, hwire₂, hwire₂'⟩ := hlink₁.append_lift hrun₂ hwire₁'
  have hwire₂ : l₂.wire .left = (Machine.events tr₄).flatMap Event.takenBytes ++ [] := by
    rw [hwire₂, htaken₄, List.append_nil]
  rw [← hleft₂] at hrun₄
  obtain ⟨l₄, hlink₄, -, hright₄, -, hwire₄⟩ := hlink₂.append_lift hrun₄ hwire₂
  have hright₄ : l₄.party .right = t₁ := (hright₄.trans hright₂).trans hright₁
  have hwire₄ : l₄.wire .right = (Machine.events tr₃).flatMap Event.takenBytes ++ [] := by
    have hbefore : l₂.wire .right = [] := by
      rw [hgiven₂, List.append_nil] at hwire₂'
      exact hwire₂'.trans hwire₁
    rw [htaken₃, List.append_nil, ← hgiven₄]
    exact hwire₄.trans (by rw [show l₂.wire (Side.left).other = [] from hbefore, List.nil_append])
  rw [← hright₄] at hrun₃
  obtain ⟨l₃, hlink₃, -⟩ := hlink₄.append_lift hrun₃ hwire₄
  have hfirst := h _ _ _ _ (ascii "h") 80 _ _ _ _ (by decide) (by decide) (by decide +kernel)
    (by decide +kernel) (by decide +kernel) hlink₃ .right 0x83
  have hright : Machine.trace .right ([] ++ Machine.lift .right tr₁ ++ Machine.lift .left tr₂ ++
      Machine.lift .left tr₄ ++ Machine.lift .right tr₃) = tr₁ ++ tr₃ := by
    simp [Machine.trace, Machine.lift]
  have hleft : Machine.trace Side.right.other ([] ++ Machine.lift .right tr₁ ++
      Machine.lift .left tr₂ ++ Machine.lift .left tr₄ ++ Machine.lift .right tr₃) =
        tr₂ ++ tr₄ := by
    simp [Machine.trace, Machine.lift, Side.other]
  rw [hright, hleft] at hfirst
  have hmask : (l₀.party Side.right.other).impl.mUseMask = true := by decide +kernel
  rw [hmask, Machine.events_append, Machine.events_append, List.flatMap_append,
    List.flatMap_append, hreceived₁, hreceived₃, hissued₂, List.nil_append, List.nil_append,
    hissued₄] at hfirst
  exact absurd (hfirst rfl) (by decide)

end Session

end WsClient
