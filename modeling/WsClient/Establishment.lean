import WsClient.SharedTransport
import WsClient.SocketSharedMemory

/-!
# How two processes come to share two rings

`createMemoryMap` on Windows makes a file of zeros for a server, unless the file is mapped, and
opens the file there is for a client. It is a parameter here: `OnWindows` is what the system is
documented to do, and `Granted` that it refuses nothing else. What a process stores in its mapping
of a file is in the file.

A server that is constructed over files that nobody maps, and after it a client on the same port,
hold the ends of two empty rings: the state in which the two processes of `SharedPair` start. The
client has stored 1 as the sequence number of its ring, and with that `pollServer` of the server has
its one connection to return.

A client needs what a server has recorded in the files. Where there were none at first, every client
that finds its files finds that, as long as constructors do not overlap.

## Main definitions

* `FileSystem`: the files by name, and which of them are mapped.
* `FileSystem.OnWindows`, `FileSystem.Granted`: what is assumed of `createMemoryMap`.
* `FileSystem.construct`: the constructor of `WsocketSharedMemory` over the files.
* `FileSystem.machine`: processes that construct endpoints, transfer bytes and end.
* `FileSystem.Prepared`: the files of a port are those of its server.

## Main results

* `serverFileName_injective`, `serverFileName_ne_clientFileName`: no two rings share a file.
* `WsocketSharedMemory.pollServer_once`: the connection is returned once.
* `FileSystem.constructions_usable`: to whom an endpoint is returned, and that it is usable.
* `FileSystem.shared_rings`: the rings of a server and a client.
-/

namespace WsClient

/-! ### The names of the files -/

/-- A port: a 32-bit integer. -/
def IsInt32 (v : ℤ) : Prop := -2147483648 ≤ v ∧ v < 2147483648

instance (v : ℤ) : Decidable (IsInt32 v) := inferInstanceAs (Decidable (_ ∧ _))

variable {port port' : ℤ}

/-- No name is truncated. -/
theorem serverFileName_eq (h : IsInt32 port) :
    serverFileName port = ascii "f:\\@sharedserver." ++ (printInt port ++ ascii ".cache") := by
  have hlen := length_printInt_le h.1 h.2
  rw [serverFileName, stringFormat_of_lt, List.append_assoc]
  simp [ascii]
  omega

theorem clientFileName_eq (h : IsInt32 port) :
    clientFileName port = ascii "f:\\@sharedclient." ++ (printInt port ++ ascii ".cache") := by
  have hlen := length_printInt_le h.1 h.2
  rw [clientFileName, stringFormat_of_lt, List.append_assoc]
  simp [ascii]
  omega

theorem serverFileName_injective (h : IsInt32 port) (h' : IsInt32 port')
    (heq : serverFileName port = serverFileName port') : port = port' := by
  rw [serverFileName_eq h, serverFileName_eq h'] at heq
  exact printInt_injective (List.append_cancel_right (List.append_cancel_left heq))

theorem clientFileName_injective (h : IsInt32 port) (h' : IsInt32 port')
    (heq : clientFileName port = clientFileName port') : port = port' := by
  rw [clientFileName_eq h, clientFileName_eq h'] at heq
  exact printInt_injective (List.append_cancel_right (List.append_cancel_left heq))

theorem serverFileName_ne_clientFileName (h : IsInt32 port) (h' : IsInt32 port') :
    serverFileName port ≠ clientFileName port' := by
  rw [serverFileName_eq h, clientFileName_eq h']
  intro heq
  have hfront := congrArg (List.take 17) heq
  rw [List.take_left' (by decide), List.take_left' (by decide)] at hfront
  exact absurd hfront (by decide)

/-! ### The one connection -/

namespace WsocketSharedMemory

variable {w w' : WsocketSharedMemory} {i : Input} {es : List EndpointEvent}

theorem mFirst_setReaderFile (w : WsocketSharedMemory) (file : MemoryMap) :
    (w.setReaderFile file).mFirst = w.mFirst := by
  unfold setReaderFile
  split_ifs <;> rfl

theorem mFirst_setWriterFile (w : WsocketSharedMemory) (file : MemoryMap) :
    (w.setWriterFile file).mFirst = w.mFirst := by
  unfold setWriterFile
  split_ifs <;> rfl

theorem receive_mFirst (w : WsocketSharedMemory) (maxLen : ℕ) :
    (w.receive maxLen).1.mFirst = w.mFirst ∧ .polled true ∉ (w.receive maxLen).2 := by
  unfold receive
  split_ifs
  · cases w.readerFile with
    | none => exact ⟨rfl, by simp⟩
    | some file => exact ⟨mFirst_setReaderFile .., by simp⟩
  · exact ⟨rfl, by simp⟩

theorem send_mFirst (w : WsocketSharedMemory) (data : Bytes) :
    (w.send data).1.mFirst = w.mFirst ∧ .polled true ∉ (w.send data).2 := by
  unfold send
  split_ifs
  · cases w.writerFile with
    | none => exact ⟨rfl, by simp⟩
    | some file => exact ⟨mFirst_setWriterFile .., by simp⟩
  · exact ⟨rfl, by simp⟩

/-- A connection is returned by a server that has returned none, and after it none is; nothing else
changes `mFirst`. -/
theorem step_mFirst (h : machine.step w i = some (w', es)) :
    (w'.mFirst = w.mFirst ∧ .polled true ∉ es) ∨
      (es = [.polled true] ∧ w.mFirst = true ∧ w'.mFirst = false ∧ w.mIsServer = true ∧
        w.readerSequenceNumber ≠ w.mSequenceNumber) := by
  cases i with
  | receive maxLen =>
    obtain ⟨rfl, rfl⟩ : (w.receive maxLen).1 = w' ∧ (w.receive maxLen).2 = es :=
      Prod.mk.inj (Option.some.inj h)
    exact .inl (receive_mFirst ..)
  | send data =>
    obtain ⟨rfl, rfl⟩ : (w.send data).1 = w' ∧ (w.send data).2 = es :=
      Prod.mk.inj (Option.some.inj h)
    exact .inl (send_mFirst ..)
  | pollServer later =>
    obtain ⟨rfl, rfl⟩ : (w.pollServer later).1 = w' ∧ (w.pollServer later).2 = es :=
      Prod.mk.inj (Option.some.inj h)
    unfold pollServer
    split_ifs with hnew
    · exact .inr ⟨rfl, hnew.2.2, rfl, hnew.1, hnew.2.1⟩
    · exact .inl ⟨rfl, by simp⟩
  | otherProcess server client =>
    obtain ⟨rfl, rfl⟩ : w.otherProcess server client = w' ∧ [] = es :=
      Prod.mk.inj (Option.some.inj h)
    exact .inl ⟨rfl, by simp⟩

/-- In any sequence of calls, and whatever the other process writes, a server returns at most one
connection. -/
theorem pollServer_once {tr : List (Input × List EndpointEvent)}
    (h : machine.Run Machine.anyStep w tr w') : (Machine.events tr).count (.polled true) ≤ 1 := by
  have hcount := h.invariant_events (P := fun es w =>
      es.count (.polled true) ≤ 1 ∧ (w.mFirst = true → es.count (.polled true) = 0))
    ⟨by simp, fun _ => rfl⟩ ?_
  · exact hcount.1
  · rintro es w i es' w' ⟨hle, hzero⟩ hstep -
    rw [List.count_append]
    obtain ⟨hfirst, hno⟩ | ⟨rfl, hfirst, hfirst', -⟩ := step_mFirst hstep
    · rw [List.count_eq_zero.mpr hno, hfirst, Nat.add_zero]
      exact ⟨hle, hzero⟩
    · rw [hzero hfirst, hfirst']
      exact ⟨by simp, by simp⟩

end WsocketSharedMemory

/-! ### Files -/

/-- The files of a machine. -/
structure FileSystem where
  /-- The file of a name. -/
  file : Bytes → Option MemoryMap
  /-- How many mappings of a file there are in running processes. -/
  mapped : Bytes → ℕ

/-- The content of a new file of `size` bytes. -/
def zeroFile (size : ℕ) : MemoryMap where
  fileSize := size
  memory := ⟨0, 0, 0, 0, 0,
    { addr := 0, size := size - sizeofSharedMemoryHeader, cell := fun _ => 0 }⟩

/-- The files of a port. -/
def portFiles (port : ℤ) : List Bytes := [serverFileName port, clientFileName port]

theorem serverFileName_mem : serverFileName port ∈ portFiles port := List.mem_cons_self

theorem clientFileName_mem : clientFileName port ∈ portFiles port :=
  List.mem_cons_of_mem _ (List.mem_singleton_self _)

theorem notMem_portFiles (h : IsInt32 port) (h' : IsInt32 port') (hne : port' ≠ port)
    {fileName : Bytes} (hmem : fileName ∈ portFiles port') :
    fileName ≠ serverFileName port ∧ fileName ≠ clientFileName port := by
  rcases List.mem_pair.mp hmem with rfl | rfl
  · exact ⟨fun heq => hne (serverFileName_injective h' h heq),
      serverFileName_ne_clientFileName h' h⟩
  · exact ⟨(serverFileName_ne_clientFileName h h').symm,
      fun heq => hne (clientFileName_injective h' h heq)⟩

namespace FileSystem

/-- What Windows is documented to do when `createMemoryMap` succeeds. Where the file may be created,
a new one of zeros takes the place of the file of that name, for which nobody may have mapped it;
else the file of that name is opened. -/
structure OnWindows (createMemoryMap : FileSystem → CreateMemoryMap) : Prop where
  created {fs fileName size readOnly file}
    (h : createMemoryMap fs fileName size true readOnly = some file) :
    file = zeroFile size ∧ fs.mapped fileName = 0
  opened {fs fileName size readOnly file}
    (h : createMemoryMap fs fileName size false readOnly = some file) :
    fs.file fileName = some file

/-- The system lets a server create the files of its port if nobody has mapped them, and a client
open them if they are there. -/
def Grants (createMemoryMap : FileSystem → CreateMemoryMap) (fs : FileSystem) (hostName : Bytes)
    (port : ℤ) : Prop :=
  ∀ fileName ∈ portFiles port,
    (if hostName = sharedServer then fs.mapped fileName = 0 else fs.file fileName ≠ none) →
      createMemoryMap fs fileName sharedBufferSize (hostName == sharedServer) false ≠ none

/-- A file after a process has mapped it, if it has. -/
def map (fs : FileSystem) (fileName : Bytes) : Option MemoryMap → FileSystem
  | none => fs
  | some file => ⟨Function.update fs.file fileName (some file),
      Function.update fs.mapped fileName (fs.mapped fileName + 1)⟩

/-- The constructor of `WsocketSharedMemory`, and the files as it leaves them. -/
def construct (createMemoryMap : FileSystem → CreateMemoryMap) (fs : FileSystem) (hostName : Bytes)
    (port : ℤ) : WsocketSharedMemory × FileSystem :=
  let w := WsocketSharedMemory.construct (createMemoryMap fs) hostName port
  (w, (fs.map (serverFileName port) w.mServerFile).map (clientFileName port) w.mClientFile)

variable {createMemoryMap : FileSystem → CreateMemoryMap} {fs : FileSystem} {hostName : Bytes}

theorem map_self (fs : FileSystem) (fileName : Bytes) (file : Option MemoryMap) :
    (fs.map fileName file).file fileName = file.or (fs.file fileName) ∧
      (fs.map fileName file).mapped fileName =
        fs.mapped fileName + if file.isSome = true then 1 else 0 := by
  cases file with
  | none => exact ⟨rfl, rfl⟩
  | some file => exact ⟨Function.update_self .., Function.update_self ..⟩

theorem map_of_ne (fs : FileSystem) {fileName fileName' : Bytes} (file : Option MemoryMap)
    (h : fileName' ≠ fileName) : (fs.map fileName file).file fileName' = fs.file fileName' ∧
      (fs.map fileName file).mapped fileName' = fs.mapped fileName' := by
  cases file with
  | none => exact ⟨rfl, rfl⟩
  | some file => exact ⟨Function.update_of_ne h .., Function.update_of_ne h ..⟩

/-- The constructor concerns the two files of its port. -/
theorem construct_files (createMemoryMap : FileSystem → CreateMemoryMap) (fs : FileSystem)
    (hostName : Bytes) (h : IsInt32 port) :
    let r := fs.construct createMemoryMap hostName port
    (r.2.file (serverFileName port) = r.1.mServerFile.or (fs.file (serverFileName port)) ∧
        r.2.mapped (serverFileName port) = fs.mapped (serverFileName port) +
          if r.1.mServerFile.isSome = true then 1 else 0) ∧
      (r.2.file (clientFileName port) = r.1.mClientFile.or (fs.file (clientFileName port)) ∧
        r.2.mapped (clientFileName port) = fs.mapped (clientFileName port) +
          if r.1.mClientFile.isSome = true then 1 else 0) ∧
      ∀ fileName, fileName ≠ serverFileName port → fileName ≠ clientFileName port →
        r.2.file fileName = fs.file fileName ∧ r.2.mapped fileName = fs.mapped fileName := by
  intro r
  have hne := serverFileName_ne_clientFileName h h
  refine ⟨?_, ?_, fun fileName hs hc => ?_⟩
  · obtain ⟨hfile, hmapped⟩ := map_of_ne (fs.map (serverFileName port) r.1.mServerFile)
      r.1.mClientFile hne
    exact ⟨hfile.trans (map_self ..).1, hmapped.trans (map_self ..).2⟩
  · obtain ⟨hfile, hmapped⟩ := map_self (fs.map (serverFileName port) r.1.mServerFile)
      (clientFileName port) r.1.mClientFile
    obtain ⟨hfile', hmapped'⟩ := map_of_ne fs r.1.mServerFile hne.symm
    rw [hfile'] at hfile
    rw [hmapped'] at hmapped
    exact ⟨hfile, hmapped⟩
  · obtain ⟨hfile, hmapped⟩ := map_of_ne (fs.map (serverFileName port) r.1.mServerFile)
      r.1.mClientFile hc
    obtain ⟨hfile', hmapped'⟩ := map_of_ne fs r.1.mServerFile hs
    exact ⟨hfile.trans hfile', hmapped.trans hmapped'⟩

/-- What is in a new file whose ring a server has initialised. -/
def newRing : SharedMemory :=
  { (zeroFile sharedBufferSize).memory with
    mVersionNumber := cSharedMemoryVersion, mBufferSize := sharedBufferSize }

theorem initialises_newRing :
    (⟨sharedBufferSize, newRing⟩ : MemoryMap).Initialises false :=
  ⟨by decide, .inr ⟨rfl, rfl⟩⟩

/-- The end of a ring. -/
def ringEnd (isWriter : Bool) : SPSC :=
  { mHeader := true, mCapacity := sharedCapacity, mIsWriter := isWriter }

/-- A server over files that nobody has mapped. -/
theorem construct_server (hwindows : OnWindows createMemoryMap)
    (hgrants : Grants createMemoryMap fs sharedServer port)
    (hfree : ∀ fileName ∈ portFiles port, fs.mapped fileName = 0) :
    (fs.construct createMemoryMap sharedServer port).1 =
      { mIsServer := true
        mReader := ringEnd false
        mWriter := ringEnd true
        mServerFile := some ⟨sharedBufferSize, newRing⟩
        mClientFile := some ⟨sharedBufferSize, newRing⟩ } := by
  have hcreate (fileName : Bytes) (hmem : fileName ∈ portFiles port) :
      createMemoryMap fs fileName sharedBufferSize true false =
        some (zeroFile sharedBufferSize) := by
    obtain ⟨file, hfile⟩ := Option.ne_none_iff_exists'.mp
      (hgrants fileName hmem ((if_pos rfl).mpr (hfree fileName hmem)))
    rw [beq_self_eq_true] at hfile
    rw [hfile, (hwindows.created hfile).1]
  simp only [construct, WsocketSharedMemory.construct, beq_self_eq_true,
    hcreate (serverFileName port) serverFileName_mem,
    hcreate (clientFileName port) clientFileName_mem]
  rfl

/-- A server over files that are mapped is not returned, and leaves the files alone. -/
theorem construct_mapped (hwindows : OnWindows createMemoryMap)
    (hmapped : ∀ fileName ∈ portFiles port, fs.mapped fileName ≠ 0) :
    (fs.construct createMemoryMap sharedServer port).1.mServerFile = none ∧
      (fs.construct createMemoryMap sharedServer port).1.mClientFile = none := by
  have hcreate (fileName : Bytes) (hmem : fileName ∈ portFiles port) :
      createMemoryMap fs fileName sharedBufferSize true false = none :=
    Option.eq_none_iff_forall_ne_some.mpr fun file hfile =>
      hmapped fileName hmem (hwindows.created hfile).2
  simp only [construct, WsocketSharedMemory.construct, beq_self_eq_true,
    hcreate (serverFileName port) serverFileName_mem,
    hcreate (clientFileName port) clientFileName_mem, and_self]

/-- What a client finds. -/
theorem createMemoryMap_client (hwindows : OnWindows createMemoryMap)
    (hhost : hostName ≠ sharedServer) (hgrants : Grants createMemoryMap fs hostName port)
    {fileName : Bytes} (hmem : fileName ∈ portFiles port) :
    createMemoryMap fs fileName sharedBufferSize false false = fs.file fileName := by
  have hrole : (hostName == sharedServer) = false := by simpa using hhost
  cases hfile : createMemoryMap fs fileName sharedBufferSize false false with
  | none =>
    by_contra hne
    exact hgrants fileName hmem ((if_neg hhost).mpr fun hnone => hne hnone.symm) (hrole ▸ hfile)
  | some file => exact (hwindows.opened hfile).symm

/-- A client over the files of a server. -/
theorem construct_client (hwindows : OnWindows createMemoryMap) (hhost : hostName ≠ sharedServer)
    (hgrants : Grants createMemoryMap fs hostName port)
    (hserver : fs.file (serverFileName port) = some ⟨sharedBufferSize, newRing⟩)
    (hclient : fs.file (clientFileName port) = some ⟨sharedBufferSize, newRing⟩) :
    (fs.construct createMemoryMap hostName port).1 =
      { mIsServer := false
        mReader := ringEnd false
        mWriter := ringEnd true
        mServerFile := some ⟨sharedBufferSize, newRing⟩
        mClientFile := some ⟨sharedBufferSize, { newRing with mSequenceNumber := 1 }⟩ } := by
  have hrole : (hostName == sharedServer) = false := by simpa using hhost
  have hfind {fileName : Bytes} (hmem : fileName ∈ portFiles port) :=
    createMemoryMap_client hwindows hhost hgrants hmem
  simp only [construct, WsocketSharedMemory.construct, hrole, Bool.false_eq_true, if_false,
    hfind serverFileName_mem, hserver,
    hfind clientFileName_mem, hclient]
  rfl

/-- A client over files that a server has recorded leaves them so. -/
theorem construct_usable (hwindows : OnWindows createMemoryMap) (hhost : hostName ≠ sharedServer)
    (hgrants : Grants createMemoryMap fs hostName port) {server client : MemoryMap}
    (hserver : fs.file (serverFileName port) = some server)
    (hclient : fs.file (clientFileName port) = some client)
    (hserver' : server.Initialises false) (hclient' : client.Initialises false) :
    (fs.construct createMemoryMap hostName port).1.Usable ∧
      (fs.construct createMemoryMap hostName port).1.mServerFile = some server ∧
      ∃ file, (fs.construct createMemoryMap hostName port).1.mClientFile = some file ∧
        file.Initialises false := by
  have hrole : (hostName == sharedServer) = false := by simpa using hhost
  have hfind {fileName : Bytes} (hmem : fileName ∈ portFiles port) :=
    createMemoryMap_client hwindows hhost hgrants hmem
  have hmemory (file : MemoryMap) (hfile : file.Initialises false) (isWriter : Bool) :
      (file.initRing isWriter false).2.1.mHeader = true ∧
        (file.initRing isWriter false).2.2 = file := by
    have htrue := (MemoryMap.initRing_eq_true_iff file isWriter false).mpr hfile
    refine ⟨by rw [MemoryMap.initRing_header, htrue], ?_⟩
    simp only [MemoryMap.initRing, SPSC.init, Bool.false_eq_true, if_false] at htrue ⊢
    split_ifs <;> rfl
  obtain ⟨hreader, hserverFile⟩ := hmemory server hserver' false
  obtain ⟨hwriter, hclientFile⟩ := hmemory client hclient' true
  simp only [construct, WsocketSharedMemory.construct, hrole, Bool.false_eq_true, if_false,
    hfind serverFileName_mem, hserver,
    hfind clientFileName_mem, hclient]
  refine ⟨⟨hreader, hwriter, rfl, rfl⟩, congrArg some hserverFile, _, rfl, ?_⟩
  rw [hclientFile, SPSC.incrementSequenceNumber, if_pos hwriter]
  exact hclient'

/-- A client without files is not returned. -/
theorem construct_absent (hwindows : OnWindows createMemoryMap) (hhost : hostName ≠ sharedServer)
    (hgrants : Grants createMemoryMap fs hostName port)
    (habsent : ∀ fileName ∈ portFiles port, fs.file fileName = none) :
    (fs.construct createMemoryMap hostName port).1.mServerFile = none ∧
      (fs.construct createMemoryMap hostName port).1.mClientFile = none := by
  have hrole : (hostName == sharedServer) = false := by simpa using hhost
  have hfind {fileName : Bytes} (hmem : fileName ∈ portFiles port) :
      createMemoryMap fs fileName sharedBufferSize false false = none :=
    (createMemoryMap_client hwindows hhost hgrants hmem).trans (habsent fileName hmem)
  simp only [construct, WsocketSharedMemory.construct, hrole,
    hfind serverFileName_mem,
    hfind clientFileName_mem, and_self]

end FileSystem

/-! ### Processes that come and go -/

/-- The layout that a server has recorded is left as it is. -/
def SharedMemory.SameLayout (m m' : SharedMemory) : Prop :=
  m'.mVersionNumber = m.mVersionNumber ∧ m'.mBufferSize = m.mBufferSize

instance (m m' : SharedMemory) : Decidable (m.SameLayout m') :=
  inferInstanceAs (Decidable (_ ∧ _))

namespace SharedRing

variable {r r' : SharedRing} {i : RingInput} {es : List RingEvent}

theorem writerStep_sameLayout (h : r.writerStep = some (r', es)) :
    r.memory.SameLayout r'.memory := by
  unfold writerStep at h
  split at h
  case h_1 => cases h
  case h_3 call _ _ =>
    cases call with
    | capacity =>
      obtain ⟨rfl, -⟩ := by simpa using h
      exact ⟨rfl, rfl⟩
    | write data =>
      simp only at h
      split at h <;> obtain ⟨rfl, -⟩ := by simpa using h
      · exact ⟨rfl, rfl⟩
      · exact ⟨rfl, rfl⟩
  all_goals
    obtain ⟨rfl, -⟩ := by simpa using h
    exact ⟨rfl, rfl⟩

theorem readerStep_sameLayout (h : r.readerStep = some (r', es)) :
    r.memory.SameLayout r'.memory := by
  unfold readerStep at h
  split at h
  case h_1 => cases h
  case h_3 =>
    simp only at h
    generalize (if r.mReader.calcSize _ _ > _ then _ else _) = len at h
    split at h <;> obtain ⟨rfl, -⟩ := by simpa using h
    · exact ⟨rfl, rfl⟩
    · exact ⟨rfl, rfl⟩
  all_goals
    obtain ⟨rfl, -⟩ := by simpa using h
    exact ⟨rfl, rfl⟩

/-- `read` and `write` leave the layout as it is at each of their accesses. -/
theorem step_sameLayout (h : r.step i = some (r', es)) : r.memory.SameLayout r'.memory := by
  cases i with
  | writer => exact writerStep_sameLayout h
  | reader => exact readerStep_sameLayout h
  | write data =>
    simp only [step] at h
    split_ifs at h <;> obtain ⟨rfl, -⟩ := by simpa using h
    · exact ⟨rfl, rfl⟩
    · exact ⟨rfl, rfl⟩
  | capacity =>
    simp only [step] at h
    split_ifs at h
    obtain ⟨rfl, -⟩ := by simpa using h
    exact ⟨rfl, rfl⟩
  | read maxLen =>
    simp only [step] at h
    split_ifs at h <;> obtain ⟨rfl, -⟩ := by simpa using h
    · exact ⟨rfl, rfl⟩
    · exact ⟨rfl, rfl⟩

end SharedRing

/-- What happens to the files: a process constructs an endpoint, transfers bytes through one, or
ends with one. -/
inductive FileInput
  | construct (hostName : Bytes) (port : ℤ)
  | transfer (fileName : Bytes) (memory : SharedMemory)
  | exit (port : ℤ)

/-- An endpoint as it was constructed. -/
structure Construction where
  hostName : Bytes
  port : ℤ
  endpoint : WsocketSharedMemory

/-- A server has been returned on a port. -/
def Served (cs : List Construction) (port : ℤ) : Prop :=
  ∃ c ∈ cs, c.hostName = sharedServer ∧ c.port = port ∧ c.endpoint.isValid = true

theorem served_snoc {cs : List Construction} {c : Construction} :
    Served (cs ++ [c]) port ↔
      Served cs port ∨ c.hostName = sharedServer ∧ c.port = port ∧ c.endpoint.isValid = true := by
  simp [Served, or_and_right, exists_or]

namespace FileSystem

/-- The files as processes construct endpoints, one after another, use them and end. -/
def machine (createMemoryMap : FileSystem → CreateMemoryMap) :
    Machine FileSystem FileInput Construction where
  step fs i :=
    match i with
    | .construct hostName port =>
      if IsInt32 port then
        let r := fs.construct createMemoryMap hostName port
        some (r.2, [⟨hostName, port, r.1⟩])
      else none
    | .transfer fileName memory =>
      match fs.file fileName with
      | none => none
      | some file =>
        if file.memory.SameLayout memory then
          some ({ fs with
            file := Function.update fs.file fileName (some { file with memory := memory }) }, [])
        else none
    | .exit port =>
      let mapped := fs.mapped (serverFileName port)
      let mapped' := fs.mapped (clientFileName port)
      if IsInt32 port ∧ mapped ≠ 0 ∧ mapped' ≠ 0 then
        some ({ fs with
          mapped := Function.update (Function.update fs.mapped (serverFileName port) (mapped - 1))
            (clientFileName port) (mapped' - 1) }, [])
      else none

/-- The system refuses nothing to a constructor that it can do. -/
def Granted (createMemoryMap : FileSystem → CreateMemoryMap) (fs : FileSystem) (i : FileInput)
    (_ : List Construction) : Prop :=
  match i with
  | .construct hostName port => Grants createMemoryMap fs hostName port
  | .transfer _ _ | .exit _ => True

variable {createMemoryMap : FileSystem → CreateMemoryMap} {fs fs' : FileSystem} {hostName : Bytes}
  {cs : List Construction}

/-- The files of a port are there when a server has been returned on it, with its layout; and they
are mapped together. -/
structure Prepared (cs : List Construction) (fs : FileSystem) : Prop where
  served : ∀ port, IsInt32 port → Served cs port → ∀ fileName ∈ portFiles port,
    ∃ file, fs.file fileName = some file ∧ file.Initialises false
  absent : ∀ port, IsInt32 port → ¬Served cs port → ∀ fileName ∈ portFiles port,
    fs.file fileName = none
  together : ∀ port, IsInt32 port →
    fs.mapped (clientFileName port) = fs.mapped (serverFileName port)

theorem prepared_nil : Prepared [] ⟨fun _ => none, fun _ => 0⟩ :=
  ⟨fun _ _ ⟨_, hmem, _⟩ => absurd hmem List.not_mem_nil, fun _ _ _ _ _ => rfl, fun _ _ => rfl⟩

/-- An endpoint without files leaves the files as they are. -/
theorem Prepared.construct_none (h : Prepared cs fs)
    (hserver : (fs.construct createMemoryMap hostName port).1.mServerFile = none)
    (hclient : (fs.construct createMemoryMap hostName port).1.mClientFile = none) :
    (fs.construct createMemoryMap hostName port).1.isValid = false ∧
      Prepared (cs ++ [⟨hostName, port, (fs.construct createMemoryMap hostName port).1⟩])
        (fs.construct createMemoryMap hostName port).2 := by
  have hinvalid : (fs.construct createMemoryMap hostName port).1.isValid = false := by
    rw [WsocketSharedMemory.isValid, hserver]
    rfl
  have hfs : (fs.construct createMemoryMap hostName port).2 = fs := by
    change (fs.map _ (fs.construct createMemoryMap hostName port).1.mServerFile).map _
      (fs.construct createMemoryMap hostName port).1.mClientFile = fs
    rw [hserver, hclient]
    rfl
  have hserved (port' : ℤ) : Served (cs ++ [⟨hostName, port, (fs.construct createMemoryMap hostName
      port).1⟩]) port' ↔ Served cs port' := by
    rw [served_snoc]
    simp [hinvalid]
  rw [hfs]
  exact ⟨hinvalid, fun port' hport' hs => h.served port' hport' ((hserved port').mp hs),
    fun port' hport' hs => h.absent port' hport' (mt (hserved port').mpr hs), h.together⟩

/-- An endpoint of a server, or on the port of one, whose rings are initialised. -/
theorem Prepared.construct_some (h : Prepared cs fs) (hport : IsInt32 port)
    (husable : (fs.construct createMemoryMap hostName port).1.Usable)
    (hfiles : ∀ file, (fs.construct createMemoryMap hostName port).1.mServerFile = some file ∨
      (fs.construct createMemoryMap hostName port).1.mClientFile = some file →
        file.Initialises false)
    (hrole : hostName = sharedServer ∨ Served cs port) :
    (fs.construct createMemoryMap hostName port).1.isValid = true ∧
      Prepared (cs ++ [⟨hostName, port, (fs.construct createMemoryMap hostName port).1⟩])
        (fs.construct createMemoryMap hostName port).2 := by
  obtain ⟨⟨hserver, hmapped⟩, ⟨hclient, hmapped'⟩, hother⟩ :=
    construct_files createMemoryMap fs hostName hport
  obtain ⟨server, hserver'⟩ := Option.isSome_iff_exists.mp husable.serverFile
  obtain ⟨client, hclient'⟩ := Option.isSome_iff_exists.mp husable.clientFile
  have hvalid : (fs.construct createMemoryMap hostName port).1.isValid = true := by
    rw [WsocketSharedMemory.isValid, hserver', hclient']
    rfl
  rw [hserver', Option.some_or] at hserver
  rw [hclient', Option.some_or] at hclient
  rw [husable.serverFile, if_pos rfl] at hmapped
  rw [husable.clientFile, if_pos rfl] at hmapped'
  have hserved : Served (cs ++ [⟨hostName, port, (fs.construct createMemoryMap hostName port).1⟩])
      port := served_snoc.mpr (hrole.symm.imp_right fun hhost => ⟨hhost, rfl, hvalid⟩)
  -- the files of the other ports are what they were
  have hsame {port' : ℤ} (hne : port' ≠ port) : Served (cs ++ [⟨hostName, port,
      (fs.construct createMemoryMap hostName port).1⟩]) port' ↔ Served cs port' := by
    rw [served_snoc]
    simp [hne.symm]
  refine ⟨hvalid, fun port' hport' hs fileName hmem => ?_, fun port' hport' hs fileName hmem => ?_,
    fun port' hport' => ?_⟩
  · by_cases heq : port' = port
    · subst heq
      rcases List.mem_pair.mp hmem with rfl | rfl
      · exact ⟨server, hserver, hfiles server (.inl hserver')⟩
      · exact ⟨client, hclient, hfiles client (.inr hclient')⟩
    · obtain ⟨hs', hc'⟩ := notMem_portFiles hport hport' heq hmem
      rw [(hother fileName hs' hc').1]
      exact h.served port' hport' ((hsame heq).mp hs) fileName hmem
  · by_cases heq : port' = port
    · subst heq
      exact absurd hserved hs
    · obtain ⟨hs', hc'⟩ := notMem_portFiles hport hport' heq hmem
      rw [(hother fileName hs' hc').1]
      exact h.absent port' hport' (mt (hsame heq).mpr hs) fileName hmem
  · by_cases heq : port' = port
    · subst heq
      rw [hmapped, hmapped', h.together port' hport']
    · have hnot {fileName : Bytes} (hmem : fileName ∈ portFiles port') :=
        notMem_portFiles hport hport' heq hmem
      obtain ⟨hs', hc'⟩ := hnot serverFileName_mem
      obtain ⟨hs'', hc''⟩ := hnot clientFileName_mem
      rw [(hother _ hs' hc').2, (hother _ hs'' hc'').2]
      exact h.together port' hport'

/-- What a constructor does where the files are prepared: an endpoint is returned with both of its
rings to a server whose files nobody has mapped, and to a client of a server. -/
theorem Prepared.construct (h : Prepared cs fs) (hwindows : OnWindows createMemoryMap)
    (hport : IsInt32 port) (hgrants : Grants createMemoryMap fs hostName port) :
    ((fs.construct createMemoryMap hostName port).1.isValid = true ↔
        if hostName = sharedServer then fs.mapped (serverFileName port) = 0 else Served cs port) ∧
      ((fs.construct createMemoryMap hostName port).1.isValid = true →
        (fs.construct createMemoryMap hostName port).1.Usable) ∧
      Prepared (cs ++ [⟨hostName, port, (fs.construct createMemoryMap hostName port).1⟩])
        (fs.construct createMemoryMap hostName port).2 := by
  have htogether := h.together port hport
  by_cases hhost : hostName = sharedServer
  · subst hhost
    rw [if_pos rfl]
    by_cases hfree : fs.mapped (serverFileName port) = 0
    · have hserver := construct_server hwindows hgrants fun fileName hmem => by
        rcases List.mem_pair.mp hmem with rfl | rfl
        · exact hfree
        · exact htogether.trans hfree
      have husable : (fs.construct createMemoryMap sharedServer port).1.Usable := by
        rw [hserver]
        exact ⟨rfl, rfl, rfl, rfl⟩
      have hfiles (file : MemoryMap)
          (hfile : (fs.construct createMemoryMap sharedServer port).1.mServerFile = some file ∨
            (fs.construct createMemoryMap sharedServer port).1.mClientFile = some file) :
          file.Initialises false := by
        simp only [hserver, Option.some.injEq, or_self] at hfile
        rw [← hfile]
        exact initialises_newRing
      obtain ⟨hvalid, hprepared⟩ := h.construct_some hport husable hfiles (.inl rfl)
      exact ⟨iff_of_true hvalid hfree, fun _ => husable, hprepared⟩
    · have hmapped (fileName : Bytes) (hmem : fileName ∈ portFiles port) :
          fs.mapped fileName ≠ 0 := by
        rcases List.mem_pair.mp hmem with rfl | rfl
        · exact hfree
        · exact fun hzero => hfree (htogether.symm.trans hzero)
      obtain ⟨hserver, hclient⟩ := construct_mapped hwindows hmapped
      obtain ⟨hinvalid, hprepared⟩ := h.construct_none hserver hclient
      exact ⟨iff_of_false (by simp [hinvalid]) hfree, by simp [hinvalid], hprepared⟩
  · rw [if_neg hhost]
    by_cases hserved : Served cs port
    · obtain ⟨server, hserver, hserver'⟩ :=
        h.served port hport hserved (serverFileName port) serverFileName_mem
      obtain ⟨client, hclient, hclient'⟩ :=
        h.served port hport hserved (clientFileName port) clientFileName_mem
      obtain ⟨husable, heq, client'', heq', hclient''⟩ :=
        construct_usable hwindows hhost hgrants hserver hclient hserver' hclient'
      have hfiles (file : MemoryMap)
          (hfile : (fs.construct createMemoryMap hostName port).1.mServerFile = some file ∨
            (fs.construct createMemoryMap hostName port).1.mClientFile = some file) :
          file.Initialises false := by
        rw [heq, heq', Option.some.injEq, Option.some.injEq] at hfile
        rcases hfile with rfl | rfl
        · exact hserver'
        · exact hclient''
      obtain ⟨hvalid, hprepared⟩ := h.construct_some hport husable hfiles (.inr hserved)
      exact ⟨iff_of_true hvalid hserved, fun _ => husable, hprepared⟩
    · obtain ⟨hserver, hclient⟩ :=
        construct_absent hwindows hhost hgrants (h.absent port hport hserved)
      obtain ⟨hinvalid, hprepared⟩ := h.construct_none hserver hclient
      exact ⟨iff_of_false (by simp [hinvalid]) hserved, by simp [hinvalid], hprepared⟩

/-- Transfers keep the files prepared. -/
theorem Prepared.transfer (h : Prepared cs fs) {fileName : Bytes} {file : MemoryMap}
    {memory : SharedMemory} (hfile : fs.file fileName = some file)
    (hlayout : file.memory.SameLayout memory) :
    Prepared cs { fs with
      file := Function.update fs.file fileName (some { file with memory := memory }) } := by
  refine ⟨fun port hport hserved name hmem => ?_, fun port hport habsent name hmem => ?_,
    h.together⟩
  · obtain ⟨file', hfile', hinit⟩ := h.served port hport hserved name hmem
    by_cases heq : name = fileName
    · subst heq
      obtain rfl : file = file' := Option.some.inj (hfile.symm.trans hfile')
      refine ⟨_, Function.update_self .., hinit.1, hinit.2.imp_right fun hrec => ?_⟩
      exact ⟨hlayout.1.trans hrec.1, hlayout.2.trans hrec.2⟩
    · exact ⟨file', (Function.update_of_ne heq ..).trans hfile', hinit⟩
  · have hnone := h.absent port hport habsent name hmem
    have hne : name ≠ fileName := by
      rintro rfl
      rw [hnone] at hfile
      cases hfile
    exact (Function.update_of_ne hne ..).trans hnone

/-- So does the end of a process. -/
theorem Prepared.exit (h : Prepared cs fs) (hport : IsInt32 port) :
    Prepared cs { fs with
      mapped := Function.update
        (Function.update fs.mapped (serverFileName port) (fs.mapped (serverFileName port) - 1))
        (clientFileName port) (fs.mapped (clientFileName port) - 1) } := by
  refine ⟨h.served, h.absent, fun port' hport' => ?_⟩
  simp only
  have hne := serverFileName_ne_clientFileName hport' hport
  by_cases heq : port' = port
  · subst heq
    rw [Function.update_self, Function.update_of_ne hne, Function.update_self,
      h.together port' hport']
  · have hserver := (serverFileName_injective hport' hport).mt heq
    have hclient := (clientFileName_injective hport' hport).mt heq
    rw [Function.update_of_ne hclient,
      Function.update_of_ne (serverFileName_ne_clientFileName hport hport').symm,
      Function.update_of_ne hne, Function.update_of_ne hserver]
    exact h.together port' hport'

theorem step_prepared (h : Prepared cs fs) (hwindows : OnWindows createMemoryMap) {i : FileInput}
    {cs' : List Construction} (hstep : (machine createMemoryMap).step fs i = some (fs', cs'))
    (hgranted : Granted createMemoryMap fs i cs') : Prepared (cs ++ cs') fs' := by
  cases i with
  | construct hostName port =>
    simp only [machine] at hstep
    split_ifs at hstep with hport
    obtain ⟨rfl, rfl⟩ := Prod.mk.inj (Option.some.inj hstep)
    exact (h.construct hwindows hport hgranted).2.2
  | transfer fileName memory =>
    simp only [machine] at hstep
    split at hstep
    · cases hstep
    · rename_i file hfile
      split_ifs at hstep with hlayout
      obtain ⟨rfl, rfl⟩ := Prod.mk.inj (Option.some.inj hstep)
      rw [List.append_nil]
      exact h.transfer hfile hlayout
  | exit port =>
    simp only [machine] at hstep
    split_ifs at hstep with hexit
    obtain ⟨rfl, rfl⟩ := Prod.mk.inj (Option.some.inj hstep)
    rw [List.append_nil]
    exact h.exit hexit.1

/-- On Windows, where there are no files at first and the system refuses nothing that it can do,
processes that construct endpoints one after another get usable ones: an endpoint is returned
exactly to a server whose files no running process has mapped, and to a client on whose port a
server has been returned; both of its rings are initialised, and no sequence of calls on it uses a
null header. -/
theorem constructions_usable (hwindows : OnWindows createMemoryMap)
    {tr : List (FileInput × List Construction)}
    (h : (machine createMemoryMap).Run (Granted createMemoryMap) ⟨fun _ => none, fun _ => 0⟩ tr fs)
    (hport : IsInt32 port) (hgrants : Grants createMemoryMap fs hostName port) :
    let endpoint := (fs.construct createMemoryMap hostName port).1
    (endpoint.isValid = true ↔ if hostName = sharedServer then fs.mapped (serverFileName port) = 0
      else Served (Machine.events tr) port) ∧
      (endpoint.isValid = true → endpoint.Usable ∧ ∀ tr' w,
        WsocketSharedMemory.machine.Run Machine.anyStep endpoint tr' w →
          .nullHeader ∉ Machine.events tr') := by
  have hprepared := h.invariant_events (P := fun (cs : List Construction) fs => Prepared cs fs)
    prepared_nil fun _ _ _ _ _ ih hstep hgranted => step_prepared ih hwindows hstep hgranted
  obtain ⟨hvalid, husable, -⟩ := hprepared.construct hwindows hport hgrants
  exact ⟨hvalid, fun hreturned =>
    ⟨husable hreturned, fun tr' w => WsocketSharedMemory.run_usable (husable hreturned)⟩⟩

/-- `createMemoryMap` on a system that refuses only what it cannot do. -/
def openOrCreate : FileSystem → CreateMemoryMap := fun fs fileName size createOk _ =>
  if createOk then if fs.mapped fileName = 0 then some (zeroFile size) else none
  else fs.file fileName

theorem onWindows_openOrCreate : OnWindows openOrCreate where
  created h := by
    simp only [openOrCreate, if_true] at h
    split_ifs at h with hfree
    exact ⟨(Option.some.inj h).symm, hfree⟩
  opened h := h

theorem grants_openOrCreate (fs : FileSystem) (hostName : Bytes) (port : ℤ) :
    Grants openOrCreate fs hostName port := by
  intro fileName hmem h
  by_cases hhost : hostName = sharedServer
  · rw [if_pos hhost] at h
    simp [openOrCreate, hhost, h]
  · rw [if_neg hhost] at h
    simpa [openOrCreate, hhost] using h

/-- A client is constructed after a server on its port. -/
theorem constructions_usable_client :
    ∃ tr fs, (machine openOrCreate).Run (Granted openOrCreate) ⟨fun _ => none, fun _ => 0⟩ tr fs ∧
      (fs.construct openOrCreate (ascii "sharedclient") 80).1.isValid = true ∧
      (fs.construct openOrCreate (ascii "sharedclient") 80).1.Usable := by
  have hport : IsInt32 80 := by decide
  have hgrants := grants_openOrCreate ⟨fun _ => none, fun _ => 0⟩ sharedServer 80
  have hserver := (constructions_usable onWindows_openOrCreate .nil hport hgrants).1.mpr
    ((if_pos rfl).mpr rfl)
  have hrun : (machine openOrCreate).Run (Granted openOrCreate) ⟨fun _ => none, fun _ => 0⟩
      [(.construct sharedServer 80, [⟨sharedServer, 80,
        (construct openOrCreate ⟨fun _ => none, fun _ => 0⟩ sharedServer 80).1⟩])]
      (construct openOrCreate ⟨fun _ => none, fun _ => 0⟩ sharedServer 80).2 :=
    .single (by simp only [machine, if_pos hport]) hgrants
  have hclient := constructions_usable onWindows_openOrCreate hrun hport
    (grants_openOrCreate _ (ascii "sharedclient") 80)
  have hvalid := hclient.1.mpr ((if_neg (by decide)).mpr
    ⟨_, List.mem_singleton_self _, rfl, rfl, hserver⟩)
  exact ⟨_, _, hrun, hvalid, (hclient.2 hvalid).1⟩

/-! ### Two processes over their rings -/

/-- The ring of two ends over a file. -/
def ringOver (writer reader : SPSC) (file : Option MemoryMap) : Option SharedRing :=
  file.map fun file => { mWriter := writer, mReader := reader, memory := file.memory }

/-- On Windows, a server and then a client on its port hold the ends of the two empty rings in which
a pair of processes starts, whatever was in the files before, if nobody has mapped them and the
system grants them to both. The files of other ports are left as they are. The server has its
connection to return when the client has been constructed, not before, and in no sequence of calls
does it return another. -/
theorem shared_rings (hwindows : OnWindows createMemoryMap) (hport : IsInt32 port)
    (hhost : hostName ≠ sharedServer) (hfree : ∀ fileName ∈ portFiles port, fs.mapped fileName = 0)
    (hgrants : Grants createMemoryMap fs sharedServer port)
    (hgrants' : Grants createMemoryMap (fs.construct createMemoryMap sharedServer port).2 hostName
      port) :
    ∃ memory : Side → SharedMemory,
      let server := fs.construct createMemoryMap sharedServer port
      let client := server.2.construct createMemoryMap hostName port
      let attached := server.1.otherProcess (memory .right) (memory .left)
      (∀ party lines,
        ringOver client.1.mWriter server.1.mReader (client.2.file (clientFileName port)) =
            some ((SharedPair.start sharedCapacity memory party lines).ring .left) ∧
          ringOver server.1.mWriter client.1.mReader (client.2.file (serverFileName port)) =
            some ((SharedPair.start sharedCapacity memory party lines).ring .right)) ∧
      (∀ later, (server.1.pollServer later).2 = [.polled false] ∧
        (attached.pollServer later).2 = [.polled true]) ∧
      (∀ tr w, WsocketSharedMemory.machine.Run Machine.anyStep server.1 tr w →
        (Machine.events tr).count (.polled true) ≤ 1) ∧
      ∀ port', IsInt32 port' → port' ≠ port → ∀ fileName ∈ portFiles port',
        client.2.file fileName = fs.file fileName := by
  refine ⟨fun side => if side = .left then { newRing with mSequenceNumber := 1 } else newRing, ?_⟩
  have hserver := construct_server hwindows hgrants hfree
  obtain ⟨⟨hserverFile, -⟩, ⟨hclientFile, -⟩, hother⟩ :=
    construct_files createMemoryMap fs sharedServer hport
  rw [hserver, Option.some_or] at hserverFile hclientFile
  have hclient := construct_client hwindows hhost hgrants' hserverFile hclientFile
  obtain ⟨⟨hserverFile', -⟩, ⟨hclientFile', -⟩, hother'⟩ :=
    construct_files createMemoryMap (fs.construct createMemoryMap sharedServer port).2 hostName
      hport
  rw [hclient, Option.some_or] at hserverFile' hclientFile'
  refine ⟨fun party lines => ⟨?_, ?_⟩, fun later => ?_,
    fun _ _ => WsocketSharedMemory.pollServer_once, fun port' hport' hne fileName hmem => ?_⟩
  · rw [hclientFile', hclient, hserver]
    rfl
  · rw [hserverFile', hclient, hserver]
    rfl
  · rw [hserver]
    exact ⟨rfl, rfl⟩
  · obtain ⟨hs, hc⟩ := notMem_portFiles hport hport' hne hmem
    rw [(hother' fileName hs hc).1, (hother fileName hs hc).1]

/-- The ring that the server of port 80 reads. -/
theorem shared_rings_localhost :
    ∃ memory : Side → SharedMemory,
      let server := (⟨fun _ => none, fun _ => 0⟩ : FileSystem).construct openOrCreate sharedServer
        80
      let client := server.2.construct openOrCreate (ascii "sharedclient") 80
      ringOver client.1.mWriter server.1.mReader (client.2.file (clientFileName 80)) =
        some ((SharedPair.start sharedCapacity memory (fun _ => Session.openServer)
          fun _ => []).ring .left) :=
  (shared_rings onWindows_openOrCreate (by decide) (by decide) (fun _ _ => rfl)
    (grants_openOrCreate _ _ _) (grants_openOrCreate _ _ _)).imp fun _ h => (h.1 _ _).1

end FileSystem

end WsClient
