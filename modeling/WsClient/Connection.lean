import WsClient.Library.Scan
import WsClient.WebSocketImpl

/-!
# Construction and the handshake

The two constructors of `WebSocketImpl` and `processConnection`, which reads the lines of the
handshake one byte at a time. A client parses its URL with four `sscanf` patterns and sends its
request from the constructor; a server answers the first line of the request.

What the platform decides is a parameter: the byte order, the blocks that `malloc` returns, and
the content of memory that is not initialised.

## Main definitions

* `Platform`, `WebSocketImpl.ofSocket`, `WebSocketImpl.ofUrl`.
* `parseUrl`, `requestLines`, `responseLines`.
* `WebSocketImpl.processConnection`, `WebSocketImpl.processLine`.
-/

namespace WsClient

instance neZero_three : NeZero 3 := ⟨by decide⟩

/-- What the platform decides. -/
structure Platform where
  isBigEndian : Bool
  /-- The blocks that `malloc` returns to each of the three buffers. -/
  heap : Fin 3 → ℕ → Block UInt8
  /-- What the connection buffer holds before it is written. -/
  uninitialized : ℕ → UInt8

/-- `DEFAULT_TRANSMIT_BUFFER_SIZE` and `DEFAULT_RECEIVE_BUFFER_SIZE`. -/
def defaultBufferSize : ℕ := 16384

/-- `DEFAULT_MAX_READ_SIZE`. -/
def maxReadSize : ℕ := 4096

/-- `DEFAULT_MAXIMUM_BUFFER_SIZE`. -/
def maximumBufferSize : ℕ := 536870912

/-- `wplatform::stringFormat` into a buffer of `dstSize` characters. -/
def stringFormat (dstSize : ℕ) (s : Bytes) : Bytes := s.take (dstSize - 1)

/-- The host, port and path of a URL, by the first of the four patterns that matches:
`ws://%[^:/]:%d/%s`, `ws://%[^:/]/%s`, `ws://%[^:/]:%d` and `ws://%[^:/]`. -/
def parseUrl (url : Bytes) : Option (Bytes × ℤ × Bytes) := do
  let afterScheme ← Scan.literal (ascii "ws://") url
  let (host, rest) ← Scan.set (fun c => c != 58 && c != 47) afterScheme
  let withPort : Option (ℤ × Bytes) := do
    let rest ← Scan.literal [58] rest
    let (port, rest) ← Scan.int rest
    pure (Scan.toInt32 port, rest)
  let path (rest : Bytes) : Option Bytes := do
    let rest ← Scan.literal [47] rest
    let (path, _) ← Scan.word rest
    pure path
  match withPort with
  | some (port, rest) => pure (host, port, (path rest).getD [])
  | none => pure (host, 80, (path rest).getD [])

/-- The lines that the constructor of a client sends. -/
def requestLines (host : Bytes) (port : ℤ) (path origin : Bytes) : List Bytes :=
  [stringFormat 256 (ascii "GET /" ++ path ++ ascii " HTTP/1.1\r\n"),
    if port = 80 then stringFormat 256 (ascii "Host: " ++ host ++ ascii "\r\n")
    else stringFormat 256 (ascii "Host: " ++ host ++ ascii ":" ++ printInt port ++ ascii "\r\n"),
    ascii "Upgrade: websocket\r\n",
    ascii "Connection: Upgrade\r\n"] ++
  (if origin.length ≠ 0 then [stringFormat 256 (ascii "Origin: " ++ origin ++ ascii "\r\n")]
    else []) ++
  [ascii "Sec-WebSocket-Key: x3JJHMbDL1EzLkh9GBhXDw==\r\n",
    ascii "Sec-WebSocket-Version: 13\r\n",
    ascii "\r\n"]

/-- The lines with which a server answers the first line of the request. -/
def responseLines : List Bytes :=
  [ascii "HTTP/1.1 101 Switching Protocols\r\n",
    ascii "HConnection: upgrade\r\n",
    ascii "HSec-WebSocket-Accept: HSmrc0sMlYUkAGmm5OPpG2HaGWk=\r\n",
    ascii "HServer: WebSocket++/0.7.0\r\n",
    ascii "HUpgrade: websocket\r\n",
    ascii "\r\n"]

namespace WebSocketImpl

/-- A new buffer of `WebSocketImpl`. -/
def newBuffer (heap : ℕ → Block UInt8) : SimpleBuffer :=
  .create heap defaultBufferSize maximumBufferSize

/-- The fields before a constructor runs its body, with the three buffers. -/
def initial (p : Platform) (useMask : Bool) : WebSocketImpl where
  mReceiveBuffer := newBuffer (p.heap 0)
  mTransmitBuffer := newBuffer (p.heap 1)
  mReceivedData := newBuffer (p.heap 2)
  mSocket := false
  mReadyState := .opened
  mUseMask := useMask
  mIsServerClient := false
  mConnectionIndex := 0
  mConnectionBuffer := p.uninitialized
  mConnectionPhase := .httpStatus
  isBigEndian := p.isBigEndian

/-- The constructor of a server connection to a client. -/
def ofSocket (p : Platform) (clientSocket useMask : Bool) : WebSocketImpl :=
  { initial p useMask with
    mIsServerClient := true, mSocket := clientSocket, mReadyState := .connecting }

/-- The constructor of a client. `connected` is whether `Wsocket::create` returns a socket for the
host and port of the URL. -/
def ofUrl (p : Platform) (url origin : Bytes) (useMask connected : Bool) :
    WebSocketImpl × List Event :=
  if url.length ≥ 128 then (initial p useMask, [])
  else if origin.length ≥ 200 then (initial p useMask, [])
  else
    match parseUrl url with
    | none => (initial p useMask, [])
    | some (host, port, path) =>
      if port ≠ 0 ∧ connected then
        ({ initial p useMask with mSocket := true, mReadyState := .connecting },
          (requestLines host port path origin).map .handshakeSend)
      else (initial p useMask, [])

/-- Update the characters of the connection buffer and the index of the next one. -/
@[simps] def setConnection (w : WebSocketImpl) (buffer : ℕ → UInt8) (index : ℕ) :
    WebSocketImpl :=
  { w with mConnectionBuffer := buffer, mConnectionIndex := index }

/-- Update the connection phase. -/
@[simps] def setPhase (w : WebSocketImpl) (phase : ConnectionPhase) : WebSocketImpl :=
  { w with mConnectionPhase := phase }

/-- Set the pointer to the socket to null. -/
@[simps] def clearSocket (w : WebSocketImpl) : WebSocketImpl := { w with mSocket := false }

/-- The string in the connection buffer. -/
def connectionString (w : WebSocketImpl) : Bytes :=
  cString ((List.range 256).map w.mConnectionBuffer)

/-- `sscanf(mConnectionBuffer, "HTTP/1.1 %d", &status)` reads a status of 101. -/
def statusOk (line : Bytes) : Bool :=
  match Scan.literal (ascii "HTTP/1.1") line with
  | none => false
  | some rest =>
    match Scan.int (Scan.skipSpace rest) with
    | none => false
    | some (status, _) => Scan.toInt32 status == 101

/-- The connection becomes `OPEN`. -/
def openConnection (w : WebSocketImpl) : WebSocketImpl × List Event :=
  (w.setReadyState .opened, [.handshakeDone])

/-- The switch over the connection phase, for a complete line in the connection buffer. The flag
is `ok`. -/
def processLine (w : WebSocketImpl) : WebSocketImpl × Bool × List Event :=
  match w.mConnectionPhase with
  | .serverClientStrings =>
    if w.connectionString.length = 0 then (w.openConnection.1, true, w.openConnection.2)
    else (w, true, [])
  | .httpStatus =>
    if w.mIsServerClient then
      if w.connectionString = ascii "GET / HTTP/1.1" then
        (w.setPhase .serverClientStrings, true, responseLines.map .handshakeSend)
      else (w, false, [])
    else
      if statusOk w.connectionString then
        (w.setPhase .hconnectionUpgrade, true, [])
      else (w, false, [])
  | .hconnectionUpgrade => (w.setPhase .hsecWebsocketAccept, true, [])
  | .hsecWebsocketAccept => (w.setPhase .hserverWebsocket, true, [])
  | .hserverWebsocket => (w.setPhase .hupgradeWebsocket, true, [])
  | .hupgradeWebsocket => (w.setPhase .h, true, [])
  | .h => (w.openConnection.1, true, w.openConnection.2)

/-- `mSocket->release()`, after which the connection is `CLOSED`. -/
def releaseSocket (w : WebSocketImpl) : WebSocketImpl × List Event :=
  (w.clearSocket.setReadyState .closed, [.socketRelease])

/-- Cut off the end of a line, LF or CR LF, whose LF is at index `i`. -/
def cutLine (b : ℕ → UInt8) (i : ℕ) : ℕ → UInt8 :=
  if i > 0 ∧ b (i - 1) = 0x0D then Function.update (Function.update b i 0) (i - 1) 0
  else Function.update b i 0

/-- A line is complete: cut off its end, start the next line at the front of the buffer and look
at it. -/
def endLine (w : WebSocketImpl) : WebSocketImpl × List Event :=
  let r := (w.setConnection (cutLine w.mConnectionBuffer w.mConnectionIndex) 0).processLine
  if r.2.1 then (r.1, r.2.2)
  else (r.1.releaseSocket.1, r.2.2 ++ r.1.releaseSocket.2)

/-- Store one character of a line that is not complete. -/
def extendLine (w : WebSocketImpl) : WebSocketImpl × List Event :=
  let w' := w.setConnection w.mConnectionBuffer (w.mConnectionIndex + 1)
  if w'.mConnectionIndex = 255 then w'.releaseSocket else (w', [])

/-- `receive` stored one character in the connection buffer. -/
def storeChar (w : WebSocketImpl) (c : UInt8) : WebSocketImpl :=
  w.setConnection (Function.update w.mConnectionBuffer w.mConnectionIndex c) w.mConnectionIndex

/-- Process the connection state. The inputs are whether the time for the connection has expired,
and the byte that `receive` stored, if any. -/
def processConnection (w : WebSocketImpl) (expired : Bool) (v : Option UInt8) :
    WebSocketImpl × List Event :=
  if !w.mSocket then (w, [])
  else if expired then w.releaseSocket
  else
    match v with
    | none => (w, [])
    | some c =>
      let r := if c = 0x0A then (w.storeChar c).endLine else (w.storeChar c).extendLine
      (r.1, .handshakeByte c :: r.2)

end WebSocketImpl

end WsClient
