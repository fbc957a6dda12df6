import WsClient.Connection
import WsClient.SPSC

/-!
# Sockets over shared memory

`WsocketSharedMemory` connects two processes through two mapped files, each with an `SPSC` ring. The
constructor initialises both rings and looks at neither result, and `isValid` asks only whether the
files are mapped. A ring that was not initialised has a null `mHeader`, which `read`, `write` and
`size` do not check.

`createMemoryMap` is a parameter: it returns a file of some size and content, or null. Another
process may write to both files at any time.

## Main definitions

* `MemoryMap`, `WsocketSharedMemory`: a mapped file, and an endpoint.
* `WsocketSharedMemory.construct`, `createSocketSharedMemory`.
* `WsocketSharedMemory.machine`: the calls on an endpoint, and what the other process does.
* `MemoryMap.Initialises`: the files over which `SPSC::init` succeeds.

## Main results

* `SPSC.init_header`: `init` returns true exactly when it leaves a header.
* `WsocketSharedMemory.run_usable`: an endpoint with two headers never uses a null one.
* `WsocketSharedMemory.endpoint_usable`: exactly which files give a usable endpoint.
-/

namespace WsClient

/-! ### The endpoint -/

namespace SPSC

/-- `incrementSequenceNumber`. -/
def incrementSequenceNumber (q : SPSC) (m : SharedMemory) : ℕ × SharedMemory :=
  if q.mHeader then
    (m.mSequenceNumber, { m with mSequenceNumber := add32 m.mSequenceNumber 1 })
  else (0, m)

/-- `getSequenceNumber`. -/
def getSequenceNumber (q : SPSC) (m : SharedMemory) : ℕ :=
  if q.mHeader then m.mSequenceNumber else 0

end SPSC

/-- A mapped file: its size in bytes, and what the block at its base address holds. -/
structure MemoryMap where
  fileSize : ℕ
  memory : SharedMemory

/-- `init` of a new ring over a file: the value returned, the ring and the file. -/
def MemoryMap.initRing (file : MemoryMap) (isWriter isServer : Bool) : Bool × SPSC × MemoryMap :=
  let r := SPSC.init {} file.memory (file.fileSize % 4294967296) isWriter isServer
  (r.1, r.2.1, { file with memory := r.2.2 })

/-- The fields of `WsocketSharedMemory`; a file is none where its pointer is null. -/
structure WsocketSharedMemory where
  mFirst : Bool := true
  mSequenceNumber : ℕ := 0
  mIsServer : Bool := false
  mReader : SPSC := {}
  mWriter : SPSC := {}
  mServerFile : Option MemoryMap := none
  mClientFile : Option MemoryMap := none

/-- What can be observed of the calls. -/
inductive EndpointEvent
  /-- `read`, `write` or `size` is reached with a null `mHeader`. -/
  | nullHeader
  /-- `receive` returns, with the bytes stored to `dest`. -/
  | received (ret : ℤ) (dest : Bytes)
  | sent (ret : ℤ)
  /-- `pollServer` returns, with a new connection or null. -/
  | polled (connected : Bool)
  deriving DecidableEq

/-- `createMemoryMap` for a file name, a size, and whether the file may be created and is only
read. -/
abbrev CreateMemoryMap := Bytes → ℕ → Bool → Bool → Option MemoryMap

/-- `SHARED_SERVER`. -/
def sharedServer : Bytes := ascii "sharedserver"

/-- `SHARED_BUFFER_SIZE`. -/
def sharedBufferSize : ℕ := 1024 * 16

/-- The name of the server file. -/
def serverFileName (port : ℤ) : Bytes :=
  stringFormat 512 (ascii "f:\\@sharedserver." ++ printInt port ++ ascii ".cache")

/-- The name of the client file. -/
def clientFileName (port : ℤ) : Bytes :=
  stringFormat 512 (ascii "f:\\@sharedclient." ++ printInt port ++ ascii ".cache")

namespace WsocketSharedMemory

/-- The constructor. -/
def construct (createMemoryMap : CreateMemoryMap) (hostName : Bytes) (port : ℤ) :
    WsocketSharedMemory :=
  let isServer := hostName == sharedServer
  let serverFile := createMemoryMap (serverFileName port) sharedBufferSize isServer false
  let clientFile := createMemoryMap (clientFileName port) sharedBufferSize isServer false
  match serverFile, clientFile with
  | some server, some client =>
    if isServer then
      let writer := server.initRing true true
      let reader := client.initRing false true
      { mIsServer := isServer
        mReader := reader.2.1
        mWriter := writer.2.1
        mServerFile := some writer.2.2
        mClientFile := some reader.2.2 }
    else
      let writer := client.initRing true false
      let reader := server.initRing false false
      { mIsServer := isServer
        mReader := reader.2.1
        mWriter := writer.2.1
        mServerFile := some reader.2.2
        mClientFile := some
          { writer.2.2 with
            memory := (writer.2.1.incrementSequenceNumber writer.2.2.memory).2 } }
  | serverFile, clientFile =>
    { mIsServer := isServer, mServerFile := serverFile, mClientFile := clientFile }

variable (w : WsocketSharedMemory)

/-- `isValid`. -/
def isValid : Bool := w.mServerFile.isSome && w.mClientFile.isSome

/-- The file that the reader is over. -/
def readerFile : Option MemoryMap := if w.mIsServer then w.mClientFile else w.mServerFile

/-- The file that the writer is over. -/
def writerFile : Option MemoryMap := if w.mIsServer then w.mServerFile else w.mClientFile

/-- Update the file that the reader is over. -/
def setReaderFile (file : MemoryMap) : WsocketSharedMemory :=
  if w.mIsServer then { w with mClientFile := some file } else { w with mServerFile := some file }

/-- Update the file that the writer is over. -/
def setWriterFile (file : MemoryMap) : WsocketSharedMemory :=
  if w.mIsServer then { w with mServerFile := some file } else { w with mClientFile := some file }

/-- `receive`. -/
def receive (maxLen : ℕ) : WsocketSharedMemory × List EndpointEvent :=
  if w.mReader.mHeader then
    match w.readerFile with
    | none => (w, [.nullHeader])
    | some file =>
      let r := w.mReader.read file.memory maxLen
      (w.setReaderFile { file with memory := r.2 },
        [.received (if r.1.length > 0 then (BitVec.ofNat 32 r.1.length).toInt else -1) r.1])
  else (w, [.nullHeader])

/-- `send`. -/
def send (data : Bytes) : WsocketSharedMemory × List EndpointEvent :=
  if w.mWriter.mHeader then
    match w.writerFile with
    | none => (w, [.nullHeader])
    | some file =>
      let r := w.mWriter.write file.memory data
      (w.setWriterFile { file with memory := r.2 },
        [.sent (if r.1 > 0 then (BitVec.ofNat 32 r.1).toInt else -1)])
  else (w, [.nullHeader])

/-- `mReader.getSequenceNumber()`. -/
def readerSequenceNumber : ℕ :=
  match w.readerFile with
  | none => 0
  | some file => w.mReader.getSequenceNumber file.memory

/-- `pollServer`; `later` is the sequence number that its second load sees. -/
def pollServer (later : ℕ) : WsocketSharedMemory × List EndpointEvent :=
  if w.mIsServer ∧ w.readerSequenceNumber ≠ w.mSequenceNumber ∧ w.mFirst then
    ({ w with mSequenceNumber := later, mFirst := false }, [.polled true])
  else (w, [.polled false])

/-- The other process writes to both files. -/
def otherProcess (server client : SharedMemory) : WsocketSharedMemory :=
  { w with
    mServerFile := w.mServerFile.map fun file => { file with memory := server }
    mClientFile := w.mClientFile.map fun file => { file with memory := client } }

/-- A call on the endpoint, or what the other process does. -/
inductive Input
  | receive (maxLen : ℕ)
  | send (data : Bytes)
  | pollServer (later : ℕ)
  | otherProcess (server client : SharedMemory)

/-- The calls on an endpoint, in any order. -/
def machine : Machine WsocketSharedMemory Input EndpointEvent where
  step w i :=
    match i with
    | .receive maxLen => some (w.receive maxLen)
    | .send data => some (w.send data)
    | .pollServer later => some (w.pollServer later)
    | .otherProcess server client => some (w.otherProcess server client, [])

end WsocketSharedMemory

/-- `createSocketSharedMemory`. -/
def createSocketSharedMemory (createMemoryMap : CreateMemoryMap) (hostName : Bytes) (port : ℤ) :
    Option WsocketSharedMemory :=
  let ret := WsocketSharedMemory.construct createMemoryMap hostName port
  if ret.isValid then some ret else none

/-! ### Initialisation -/

/-- The files over which a ring of the server or of a client is initialised: longer than the
header, and for a client with the version and the size recorded by a server. -/
def MemoryMap.Initialises (file : MemoryMap) (isServer : Bool) : Prop :=
  sizeofSharedMemoryHeader < file.fileSize % 4294967296 ∧
    (isServer = true ∨ file.memory.mVersionNumber = cSharedMemoryVersion ∧
      file.memory.mBufferSize = file.fileSize % 4294967296)

instance (file : MemoryMap) (isServer : Bool) : Decidable (file.Initialises isServer) :=
  inferInstanceAs (Decidable (_ ∧ (_ ∨ _ ∧ _)))

/-- `init` of a new ring returns true exactly when it leaves a header. -/
theorem SPSC.init_header (m : SharedMemory) (maxLen : ℕ) (isWriter isServer : Bool) :
    (SPSC.init {} m maxLen isWriter isServer).2.1.mHeader =
      (SPSC.init {} m maxLen isWriter isServer).1 := by
  unfold SPSC.init
  split_ifs <;> rfl

theorem MemoryMap.initRing_header (file : MemoryMap) (isWriter isServer : Bool) :
    (file.initRing isWriter isServer).2.1.mHeader = (file.initRing isWriter isServer).1 :=
  SPSC.init_header ..

/-- What makes `init` succeed. -/
theorem MemoryMap.initRing_eq_true_iff (file : MemoryMap) (isWriter isServer : Bool) :
    (file.initRing isWriter isServer).1 = true ↔ file.Initialises isServer := by
  unfold MemoryMap.initRing SPSC.init MemoryMap.Initialises
  by_cases hlen : sizeofSharedMemoryHeader < file.fileSize % 4294967296
  · cases isServer with
    | true => simp [hlen]
    | false =>
      by_cases hread : file.memory.mVersionNumber = cSharedMemoryVersion ∧
          file.memory.mBufferSize = file.fileSize % 4294967296
      · simp [hlen, hread.1, hread.2]
      · simp [hlen, hread, not_and_or.mp hread]
  · simp [hlen]

namespace WsocketSharedMemory

variable {w w' : WsocketSharedMemory} {i : Input} {es : List EndpointEvent}

/-- Both rings have a header, and both files are mapped. -/
structure Usable (w : WsocketSharedMemory) : Prop where
  reader : w.mReader.mHeader = true
  writer : w.mWriter.mHeader = true
  serverFile : w.mServerFile.isSome = true
  clientFile : w.mClientFile.isSome = true

theorem Usable.exists_readerFile (h : w.Usable) : ∃ file, w.readerFile = some file := by
  unfold readerFile
  split_ifs
  · exact Option.isSome_iff_exists.mp h.clientFile
  · exact Option.isSome_iff_exists.mp h.serverFile

theorem Usable.exists_writerFile (h : w.Usable) : ∃ file, w.writerFile = some file := by
  unfold writerFile
  split_ifs
  · exact Option.isSome_iff_exists.mp h.serverFile
  · exact Option.isSome_iff_exists.mp h.clientFile

theorem Usable.setReaderFile (h : w.Usable) (file : MemoryMap) : (w.setReaderFile file).Usable := by
  unfold WsocketSharedMemory.setReaderFile
  split_ifs
  · exact { h with clientFile := rfl }
  · exact { h with serverFile := rfl }

theorem Usable.setWriterFile (h : w.Usable) (file : MemoryMap) : (w.setWriterFile file).Usable := by
  unfold WsocketSharedMemory.setWriterFile
  split_ifs
  · exact { h with serverFile := rfl }
  · exact { h with clientFile := rfl }

/-- Every call leaves a usable endpoint usable, and uses no null header. -/
theorem step_usable (h : w.Usable) (hstep : machine.step w i = some (w', es)) :
    w'.Usable ∧ .nullHeader ∉ es := by
  cases i with
  | receive maxLen =>
    obtain ⟨file, hfile⟩ := h.exists_readerFile
    obtain ⟨rfl, rfl⟩ : (w.receive maxLen).1 = w' ∧ (w.receive maxLen).2 = es :=
      Prod.mk.inj (Option.some.inj hstep)
    simp only [receive, h.reader, hfile, if_true]
    exact ⟨h.setReaderFile _, by simp⟩
  | send data =>
    obtain ⟨file, hfile⟩ := h.exists_writerFile
    obtain ⟨rfl, rfl⟩ : (w.send data).1 = w' ∧ (w.send data).2 = es :=
      Prod.mk.inj (Option.some.inj hstep)
    simp only [send, h.writer, hfile, if_true]
    exact ⟨h.setWriterFile _, by simp⟩
  | pollServer later =>
    obtain ⟨rfl, rfl⟩ : (w.pollServer later).1 = w' ∧ (w.pollServer later).2 = es :=
      Prod.mk.inj (Option.some.inj hstep)
    unfold pollServer
    split_ifs
    · exact ⟨{ h with }, by simp⟩
    · exact ⟨h, by simp⟩
  | otherProcess server client =>
    obtain ⟨rfl, rfl⟩ : w.otherProcess server client = w' ∧ [] = es :=
      Prod.mk.inj (Option.some.inj hstep)
    refine ⟨⟨h.reader, h.writer, ?_, ?_⟩, by simp⟩
    · simpa [otherProcess] using h.serverFile
    · simpa [otherProcess] using h.clientFile

/-- A usable endpoint uses no null header in any sequence of calls. -/
theorem run_usable {tr : List (Input × List EndpointEvent)} (h : w.Usable)
    (hrun : machine.Run Machine.anyStep w tr w') : .nullHeader ∉ Machine.events tr := by
  refine (hrun.invariant_events
    (P := fun (es : List EndpointEvent) (w : WsocketSharedMemory) => w.Usable ∧ .nullHeader ∉ es)
    ⟨h, by simp⟩ ?_).2
  rintro es v i es' u ⟨hv, hes⟩ hstep -
  obtain ⟨hu, hes'⟩ := step_usable hv hstep
  exact ⟨hu, by simp [hes, hes']⟩

/-! ### The endpoint that is returned -/

variable {createMemoryMap : CreateMemoryMap} {hostName : Bytes} {port : ℤ}
  {server client : MemoryMap}

/-- Over two mapped files, the rings have headers exactly if both files initialise. -/
theorem construct_of_files
    (hserver : createMemoryMap (serverFileName port) sharedBufferSize (hostName == sharedServer)
      false = some server)
    (hclient : createMemoryMap (clientFileName port) sharedBufferSize (hostName == sharedServer)
      false = some client) :
    (construct createMemoryMap hostName port).mServerFile.isSome = true ∧
      (construct createMemoryMap hostName port).mClientFile.isSome = true ∧
      ((construct createMemoryMap hostName port).mReader.mHeader = true ∧
          (construct createMemoryMap hostName port).mWriter.mHeader = true ↔
        server.Initialises (hostName == sharedServer) ∧
          client.Initialises (hostName == sharedServer)) := by
  simp only [construct, hserver, hclient]
  by_cases hrole : (hostName == sharedServer) = true
  · rw [if_pos hrole, hrole]
    refine ⟨rfl, rfl, ?_⟩
    rw [MemoryMap.initRing_header, MemoryMap.initRing_header, MemoryMap.initRing_eq_true_iff,
      MemoryMap.initRing_eq_true_iff, and_comm]
  · rw [if_neg hrole, Bool.eq_false_iff.mpr hrole]
    refine ⟨rfl, rfl, ?_⟩
    rw [MemoryMap.initRing_header, MemoryMap.initRing_header, MemoryMap.initRing_eq_true_iff,
      MemoryMap.initRing_eq_true_iff]

/-- An endpoint is returned exactly if both files are mapped. -/
theorem exists_files_of_create {w : WsocketSharedMemory}
    (h : createSocketSharedMemory createMemoryMap hostName port = some w) :
    w = construct createMemoryMap hostName port ∧ ∃ server client,
      createMemoryMap (serverFileName port) sharedBufferSize (hostName == sharedServer) false =
        some server ∧
      createMemoryMap (clientFileName port) sharedBufferSize (hostName == sharedServer) false =
        some client := by
  have hvalid : (construct createMemoryMap hostName port).isValid = true := by
    by_contra hvalid
    simp [createSocketSharedMemory, hvalid] at h
  refine ⟨by simpa [createSocketSharedMemory, hvalid] using h.symm, ?_⟩
  cases hserver : createMemoryMap (serverFileName port) sharedBufferSize
      (hostName == sharedServer) false with
  | none => simp [construct, isValid, hserver] at hvalid
  | some server =>
    cases hclient : createMemoryMap (clientFileName port) sharedBufferSize
        (hostName == sharedServer) false with
    | none => simp [construct, isValid, hserver, hclient] at hvalid
    | some client => exact ⟨server, client, rfl, rfl⟩

/-- Every endpoint that is returned has both rings initialised, and no sequence of calls on it uses
a null header, exactly if both files initialise whenever both are mapped. -/
theorem endpoint_usable (createMemoryMap : CreateMemoryMap) (hostName : Bytes) (port : ℤ) :
    (∀ w, createSocketSharedMemory createMemoryMap hostName port = some w →
        (w.mReader.mHeader = true ∧ w.mWriter.mHeader = true) ∧
          ∀ tr w', machine.Run Machine.anyStep w tr w' → .nullHeader ∉ Machine.events tr) ↔
      ∀ server client,
        createMemoryMap (serverFileName port) sharedBufferSize (hostName == sharedServer) false =
          some server →
        createMemoryMap (clientFileName port) sharedBufferSize (hostName == sharedServer) false =
          some client →
        server.Initialises (hostName == sharedServer) ∧
          client.Initialises (hostName == sharedServer) := by
  constructor
  · intro h server client hserver hclient
    obtain ⟨hsome, hsome', hiff⟩ := construct_of_files hserver hclient
    have hcreate : createSocketSharedMemory createMemoryMap hostName port =
        some (construct createMemoryMap hostName port) := by
      rw [createSocketSharedMemory, isValid, hsome, hsome']
      rfl
    exact hiff.mp (h _ hcreate).1
  · intro h w hcreate
    obtain ⟨rfl, server, client, hserver, hclient⟩ := exists_files_of_create hcreate
    obtain ⟨hsome, hsome', hiff⟩ := construct_of_files hserver hclient
    have hheaders := hiff.mpr (h server client hserver hclient)
    exact ⟨hheaders, fun tr w' => run_usable ⟨hheaders.1, hheaders.2, hsome, hsome'⟩⟩

/-- A client over files of zeros, which no server has written, is returned, and its first `send`
uses a null header. -/
theorem client_without_server :
    ¬∀ (createMemoryMap : CreateMemoryMap) (hostName : Bytes) (port : ℤ) (w : WsocketSharedMemory),
      createSocketSharedMemory createMemoryMap hostName port = some w →
        (w.mReader.mHeader = true ∧ w.mWriter.mHeader = true) ∧
          ∀ tr w', machine.Run Machine.anyStep w tr w' → .nullHeader ∉ Machine.events tr := by
  intro h
  let zeros : CreateMemoryMap := fun _ size _ _ =>
    some ⟨size, 0, 0, 0, 0, 0, { addr := 0, size := size - 32, cell := fun _ => 0 }⟩
  have hcreate : createSocketSharedMemory zeros (ascii "sharedclient") 80 =
      some (construct zeros (ascii "sharedclient") 80) := rfl
  have hstep : machine.step (construct zeros (ascii "sharedclient") 80) (.send [1]) =
      some (construct zeros (ascii "sharedclient") 80, [.nullHeader]) := rfl
  exact (h zeros _ 80 _ hcreate).2 _ _ (.single hstep trivial) (by simp)

end WsocketSharedMemory

end WsClient
