import Mathlib.Tactic.Common
import WsClient.Library.Ring
import WsClient.Library.Transition
import WsClient.SimpleBuffer

/-!
# The single producer, single consumer ring

`SPSC` moves bytes from one process to another through a piece of shared memory: a header with the
two indices and, behind it, the bytes of a ring. The writer alone stores `mWriteIndex`, the reader
alone stores `mReadIndex`, and each loads the other's index at moments of its own, so it works
with a copy that may be out of date.

The first part is the class as it is written, one call at a time. `SharedRing` is the same code
cut at its accesses to shared memory: every load and store of an index and every `memcpy` is one
step, and the steps of the two processes interleave in any order (`SharedRing.machine`).

## Main definitions

* `SharedMemory`, `SPSC` and its operations `init`, `calcSize`, `size`, `capacity`, `read`, `write`.
* `WriterPc`, `ReaderPc`, `SharedRing`: where the two processes are between their accesses.
* `SharedRing.machine`, `SharedRing.start`.
* `accepted`, `returned`: the bytes that completed calls have taken and given.

## Main results

* `SPSC.write_eq`, `SPSC.read_eq`: a call is a sequence of copies and a store.
* `SharedRing.run_write`, `SharedRing.run_read`: the steps of a call that nothing interrupts
  compute `write` and `read`.
-/

namespace WsClient

/-! ### The class -/

/-- The shared memory: the fields of `SharedMemoryHeader`, and the bytes behind it. -/
structure SharedMemory where
  /-- The version of the layout. -/
  mVersionNumber : ℕ
  /-- The size of the whole shared memory. -/
  mBufferSize : ℕ
  /-- The index of the reader. -/
  mReadIndex : ℕ
  /-- The index of the writer. -/
  mWriteIndex : ℕ
  /-- A number for general purposes. -/
  mSequenceNumber : ℕ
  /-- The bytes of the ring. -/
  mBaseMemory : Block UInt8

/-- The fields of `SPSC`. Its three pointers are null together; `mHeader` says whether they point
to the shared memory, which is an argument of the operations. -/
structure SPSC where
  /-- Whether `mHeader`, `mSharedMemory` and `mBaseMemory` are not null. -/
  mHeader : Bool := false
  /-- The size of the ring. -/
  mCapacity : ℕ := 0
  /-- Whether this is the writer. -/
  mIsWriter : Bool := true

/-- `cSharedMemoryVersion`. -/
def cSharedMemoryVersion : ℕ := 100

/-- `sizeof(SharedMemoryHeader)`: eight words of 32 bits. -/
def sizeofSharedMemoryHeader : ℕ := 32

namespace SPSC

variable (q : SPSC) (m : SharedMemory)

/-- `init`: the value returned, the object and the shared memory. -/
def init (sharedMemory : SharedMemory) (maxLen : ℕ) (isWriter isServer : Bool) :
    Bool × SPSC × SharedMemory :=
  let q := { q with mIsWriter := isWriter }
  if maxLen > sizeofSharedMemoryHeader then
    let q := { q with mHeader := true, mCapacity := sub32 maxLen sizeofSharedMemoryHeader }
    if isServer then
      (true, q,
        { sharedMemory with
          mVersionNumber := cSharedMemoryVersion
          mBufferSize := maxLen
          mWriteIndex := 0
          mReadIndex := 0
          mSequenceNumber := 0 })
    else if sharedMemory.mVersionNumber ≠ cSharedMemoryVersion ∨
        sharedMemory.mBufferSize ≠ maxLen then
      (false, { q with mHeader := false }, sharedMemory)
    else (true, q, sharedMemory)
  else (false, q, sharedMemory)

/-- `calcSize`. -/
def calcSize (readIndex writeIndex : ℕ) : ℕ :=
  if writeIndex ≥ readIndex then sub32 writeIndex readIndex
  else sub32 (add32 writeIndex q.mCapacity) readIndex

/-- `size`: the number of bytes in the ring. -/
def size : ℕ := q.calcSize m.mReadIndex m.mWriteIndex

/-- What `capacity` returns once `size` has returned `size`. -/
def capacityOf (size : ℕ) : ℕ :=
  let avail := sub32 q.mCapacity size
  if avail ≤ 1 then 0 else sub32 avail 1

/-- `capacity`. -/
def capacity : ℕ := q.capacityOf (q.size m)

/-- `read`: the bytes stored to `dest`, as many as the value returned, and the shared memory. -/
def read (maxLen : ℕ) : Bytes × SharedMemory :=
  if q.mIsWriter then ([], m)
  else
    let len := if q.size m > maxLen then maxLen else q.size m
    if len = 0 then ([], m)
    else
      let readIndex := m.mReadIndex
      let availTop := sub32 q.mCapacity readIndex
      if availTop ≥ len then
        (m.mBaseMemory.read readIndex len, { m with mReadIndex := add32 readIndex len })
      else
        let remainder := sub32 len availTop
        let dest := if availTop ≠ 0 then m.mBaseMemory.read readIndex availTop else []
        let dest := if remainder ≠ 0 then dest ++ m.mBaseMemory.read 0 remainder else dest
        (dest, { m with mReadIndex := remainder })

/-- `write`: the value returned and the shared memory. -/
def write (data : Bytes) : ℕ × SharedMemory :=
  if !q.mIsWriter then (0, m)
  else
    let avail := q.capacity m
    if avail = 0 then (0, m)
    else
      let avail := sub32 avail 1
      let dataLen := if avail < data.length then avail else data.length
      let writeIndex := m.mWriteIndex
      let availTop := sub32 q.mCapacity writeIndex
      if dataLen ≤ availTop then
        (dataLen,
          { m with
            mBaseMemory := m.mBaseMemory.write writeIndex (data.take dataLen)
            mWriteIndex := add32 writeIndex dataLen })
      else
        let remainder := sub32 dataLen availTop
        let base := m.mBaseMemory
        let base := if availTop ≠ 0 then base.write writeIndex (data.take availTop) else base
        let scan := if availTop ≠ 0 then data.drop availTop else data
        let base := if remainder ≠ 0 then base.write 0 (scan.take remainder) else base
        (dataLen, { m with mBaseMemory := base, mWriteIndex := remainder })

/-- The `memcpy` calls, as offsets in the ring and lengths, with which `read` and `write` move
`len` bytes at `index`. -/
def segments (index len : ℕ) : List (ℕ × ℕ) :=
  let availTop := sub32 q.mCapacity index
  if len ≤ availTop then [(index, len)]
  else
    let remainder := sub32 len availTop
    (if availTop ≠ 0 then [(index, availTop)] else []) ++
      if remainder ≠ 0 then [(0, remainder)] else []

/-- The index that `read` and `write` store after `len` bytes at `index`. -/
def nextIndex (index len : ℕ) : ℕ :=
  let availTop := sub32 q.mCapacity index
  if len ≤ availTop then add32 index len else sub32 len availTop

end SPSC

/-! ### The steps of a call -/

/-- What the process with the writer calls. -/
inductive WriterCall
  /-- `write(data, dataLen)`. -/
  | write (data : Bytes)
  /-- `capacity()`. -/
  | capacity
  deriving DecidableEq

/-- Where the process with the writer is: its next access to shared memory, and the values of its
local variables. -/
inductive WriterPc
  /-- Not inside a call. -/
  | idle
  /-- `size` is about to load `mWriteIndex`. -/
  | sizing (call : WriterCall)
  /-- `size` is about to load `mReadIndex`. -/
  | sized (call : WriterCall) (writeIndex : ℕ)
  /-- `write` is about to load `mWriteIndex`, to store `dataLen` bytes. -/
  | locating (data : Bytes) (dataLen : ℕ)
  /-- `write` is about to make the first of these copies or, after the last, to store `index`. -/
  | copying (data : Bytes) (dataLen : ℕ) (segments : List (ℕ × ℕ)) (scan : Bytes) (index : ℕ)
  deriving DecidableEq

/-- Where the process with the reader is. -/
inductive ReaderPc
  /-- Not inside a call. -/
  | idle
  /-- `size` is about to load `mWriteIndex`. -/
  | sizing (maxLen : ℕ)
  /-- `size` is about to load `mReadIndex`. -/
  | sized (maxLen writeIndex : ℕ)
  /-- `read` is about to load `mReadIndex`, to fetch `len` bytes. -/
  | locating (maxLen len : ℕ)
  /-- `read` is about to make the first of these copies or, after the last, to store `index`;
  `dest` is what it has copied. -/
  | copying (maxLen : ℕ) (segments : List (ℕ × ℕ)) (dest : Bytes) (index : ℕ)
  deriving DecidableEq

/-- What completed calls return. -/
inductive RingEvent
  /-- `write(data, dataLen)` returned `n`. -/
  | wrote (data : Bytes) (n : ℕ)
  /-- `capacity()` returned `n`. -/
  | capacity (n : ℕ)
  /-- `read(dest, maxLen)` returned the length of `dest`. -/
  | read (maxLen : ℕ) (dest : Bytes)
  deriving DecidableEq

/-- The scheduler: a process starts a call, or goes on to its next access to shared memory. -/
inductive RingInput
  | write (data : Bytes)
  | capacity
  | writer
  | read (maxLen : ℕ)
  | reader
  deriving DecidableEq

/-- Two objects over one shared memory, and where the processes that own them are. -/
structure SharedRing where
  /-- The object of the writing process. -/
  mWriter : SPSC
  /-- The object of the reading process. -/
  mReader : SPSC
  /-- The shared memory. -/
  memory : SharedMemory
  /-- Where the writing process is. -/
  writerPc : WriterPc := .idle
  /-- Where the reading process is. -/
  readerPc : ReaderPc := .idle

namespace SharedRing

/-- The next access of the writing process. -/
def writerStep (s : SharedRing) : Option (SharedRing × List RingEvent) :=
  match s.writerPc with
  | .idle => none
  | .sizing call => some ({ s with writerPc := .sized call s.memory.mWriteIndex }, [])
  | .sized call writeIndex =>
    let avail := s.mWriter.capacityOf (s.mWriter.calcSize s.memory.mReadIndex writeIndex)
    match call with
    | .capacity => some ({ s with writerPc := .idle }, [.capacity avail])
    | .write data =>
      if avail = 0 then some ({ s with writerPc := .idle }, [.wrote data 0])
      else
        let avail := sub32 avail 1
        let dataLen := if avail < data.length then avail else data.length
        some ({ s with writerPc := .locating data dataLen }, [])
  | .locating data dataLen =>
    let writeIndex := s.memory.mWriteIndex
    some ({ s with
      writerPc := .copying data dataLen (s.mWriter.segments writeIndex dataLen) data
        (s.mWriter.nextIndex writeIndex dataLen) }, [])
  | .copying data dataLen ((off, k) :: segs) scan index =>
    let base := s.memory.mBaseMemory.write off (scan.take k)
    some ({ s with
      memory := { s.memory with mBaseMemory := base }
      writerPc := .copying data dataLen segs (scan.drop k) index }, [])
  | .copying data dataLen [] _ index =>
    some ({ s with memory := { s.memory with mWriteIndex := index }, writerPc := .idle },
      [.wrote data dataLen])

/-- The next access of the reading process. -/
def readerStep (s : SharedRing) : Option (SharedRing × List RingEvent) :=
  match s.readerPc with
  | .idle => none
  | .sizing maxLen => some ({ s with readerPc := .sized maxLen s.memory.mWriteIndex }, [])
  | .sized maxLen writeIndex =>
    let size := s.mReader.calcSize s.memory.mReadIndex writeIndex
    let len := if size > maxLen then maxLen else size
    if len = 0 then some ({ s with readerPc := .idle }, [.read maxLen []])
    else some ({ s with readerPc := .locating maxLen len }, [])
  | .locating maxLen len =>
    let readIndex := s.memory.mReadIndex
    some ({ s with
      readerPc := .copying maxLen (s.mReader.segments readIndex len) []
        (s.mReader.nextIndex readIndex len) }, [])
  | .copying maxLen ((off, k) :: segs) dest index =>
    let dest := dest ++ s.memory.mBaseMemory.read off k
    some ({ s with readerPc := .copying maxLen segs dest index }, [])
  | .copying maxLen [] dest index =>
    some ({ s with memory := { s.memory with mReadIndex := index }, readerPc := .idle },
      [.read maxLen dest])

/-- One step of the two processes. -/
def step (s : SharedRing) : RingInput → Option (SharedRing × List RingEvent)
  | .write data =>
    if s.writerPc ≠ .idle then none
    else if !s.mWriter.mIsWriter then some (s, [.wrote data 0])
    else some ({ s with writerPc := .sizing (.write data) }, [])
  | .capacity =>
    if s.writerPc ≠ .idle then none
    else some ({ s with writerPc := .sizing .capacity }, [])
  | .writer => s.writerStep
  | .read maxLen =>
    if s.readerPc ≠ .idle then none
    else if s.mReader.mIsWriter then some (s, [.read maxLen []])
    else some ({ s with readerPc := .sizing maxLen }, [])
  | .reader => s.readerStep

/-- The two processes as a machine driven by a scheduler. -/
def machine : Machine SharedRing RingInput RingEvent := ⟨step⟩

/-- The number of bytes in the ring. -/
def size (s : SharedRing) : ℕ := s.mWriter.size s.memory

/-- The `memcpy` into the ring that the writing process is about to make. -/
def writeSegment? (s : SharedRing) : Option (ℕ × ℕ) :=
  match s.writerPc with
  | .copying _ _ (seg :: _) _ _ => some seg
  | _ => none

/-- A writer and a reader over one shared memory with a ring of `C` bytes and both indices at the
start. -/
def start (C : ℕ) (memory : SharedMemory) : SharedRing where
  mWriter := { mHeader := true, mCapacity := C, mIsWriter := true }
  mReader := { mHeader := true, mCapacity := C, mIsWriter := false }
  memory := { memory with mReadIndex := 0, mWriteIndex := 0 }

/-- Two calls of `init` over one shared memory, the writer's first and as the server, end in
`start`. -/
theorem start_of_init {maxLen : ℕ} (hpos : sizeofSharedMemoryHeader < maxLen)
    (hlt : maxLen < 4294967296) (memory : SharedMemory) (isServer : Bool) :
    ∃ cleared, cleared.mBaseMemory = memory.mBaseMemory ∧
      SPSC.init {} memory maxLen true true =
        (true, (start (maxLen - sizeofSharedMemoryHeader) cleared).mWriter, cleared) ∧
      SPSC.init {} cleared maxLen false isServer =
        (true, (start (maxLen - sizeofSharedMemoryHeader) cleared).mReader, cleared) ∧
      (start (maxLen - sizeofSharedMemoryHeader) cleared).memory = cleared := by
  have hcap : sub32 maxLen sizeofSharedMemoryHeader = maxLen - sizeofSharedMemoryHeader :=
    sub32_of_le hpos.le hlt
  refine ⟨{ memory with
    mVersionNumber := cSharedMemoryVersion
    mBufferSize := maxLen
    mWriteIndex := 0
    mReadIndex := 0
    mSequenceNumber := 0 }, rfl, ?_, ?_, rfl⟩
  · simp [SPSC.init, hpos, hcap, start]
  · cases isServer <;> simp [SPSC.init, hpos, hcap, start]

end SharedRing

/-- The bytes accepted by the calls of `write` that have returned. -/
def accepted (es : List RingEvent) : Bytes :=
  es.flatMap fun
    | .wrote data n => data.take n
    | _ => []

/-- The bytes returned by the calls of `read` that have returned. -/
def returned (es : List RingEvent) : Bytes :=
  es.flatMap fun
    | .read _ dest => dest
    | _ => []

@[simp] theorem accepted_append (es es' : List RingEvent) :
    accepted (es ++ es') = accepted es ++ accepted es' := List.flatMap_append

@[simp] theorem returned_append (es es' : List RingEvent) :
    returned (es ++ es') = returned es ++ returned es' := List.flatMap_append

@[simp] theorem accepted_nil : accepted [] = [] := rfl

@[simp] theorem returned_nil : returned [] = [] := rfl

@[simp] theorem accepted_wrote (data : Bytes) (n : ℕ) :
    accepted [.wrote data n] = data.take n := by simp [accepted]

@[simp] theorem accepted_read (maxLen : ℕ) (dest : Bytes) : accepted [.read maxLen dest] = [] := rfl

@[simp] theorem accepted_capacity (n : ℕ) : accepted [.capacity n] = [] := rfl

@[simp] theorem returned_wrote (data : Bytes) (n : ℕ) : returned [.wrote data n] = [] := rfl

@[simp] theorem returned_read (maxLen : ℕ) (dest : Bytes) :
    returned [.read maxLen dest] = dest := by simp [returned]

@[simp] theorem returned_capacity (n : ℕ) : returned [.capacity n] = [] := rfl

/-! ### Arithmetic of the indices -/

namespace SPSC

variable {q : SPSC} {m : SharedMemory} {C i k r w : ℕ}

theorem calcSize_eq (hC : q.mCapacity < 4294967296) (hr : r ≤ q.mCapacity)
    (hw : w ≤ q.mCapacity) : q.calcSize r w = Ring.distance q.mCapacity r w := by
  unfold calcSize Ring.distance
  split
  · exact sub32_of_le (by omega) (by omega)
  · exact Word.sub_add_of_le (by omega) (by omega) (by omega)

theorem capacityOf_eq (hC : q.mCapacity < 4294967296) (hk : k ≤ q.mCapacity) :
    q.capacityOf k = q.mCapacity - k - 1 := by
  rw [capacityOf, sub32_of_le hk hC]
  split
  · omega
  · exact sub32_of_le (by omega) (by omega)

theorem segments_eq (hC : q.mCapacity < 4294967296) (hi : i ≤ q.mCapacity)
    (hk : k ≤ q.mCapacity) : q.segments i k = Ring.segments q.mCapacity i k := by
  rw [segments, Ring.segments, sub32_of_le hi hC]
  split
  · rfl
  · rw [sub32_of_le (by omega) (by omega)]

theorem nextIndex_eq (hC : q.mCapacity < 4294967296) (hi : i ≤ q.mCapacity)
    (hk : k ≤ q.mCapacity) : q.nextIndex i k = Ring.advance q.mCapacity i k := by
  rw [nextIndex, Ring.advance, sub32_of_le hi hC]
  split
  · exact add32_of_lt (by omega)
  · exact sub32_of_le (by omega) (by omega)

/-! ### A call is a sequence of copies and a store -/

/-- Make the copies of `write` one after the other. -/
def copyIn (base : Block UInt8) : List (ℕ × ℕ) → Bytes → Block UInt8
  | [], _ => base
  | (off, k) :: segs, scan => copyIn (base.write off (scan.take k)) segs (scan.drop k)

/-- Make the copies of `read` one after the other. -/
def copyOut (base : Block UInt8) (segs : List (ℕ × ℕ)) : Bytes :=
  segs.flatMap fun seg => base.read seg.1 seg.2

/-- The number of bytes that `write` stores when `capacity` has returned `avail`. -/
def dataLen (avail : ℕ) (data : Bytes) : ℕ :=
  if sub32 avail 1 < data.length then sub32 avail 1 else data.length

theorem write_eq (hq : q.mIsWriter = true) (data : Bytes) (havail : q.capacity m ≠ 0) :
    q.write m data = (dataLen (q.capacity m) data,
      { m with
        mBaseMemory := copyIn m.mBaseMemory
          (q.segments m.mWriteIndex (dataLen (q.capacity m) data)) data
        mWriteIndex := q.nextIndex m.mWriteIndex (dataLen (q.capacity m) data) }) := by
  generalize hn : dataLen (q.capacity m) data = n
  unfold dataLen at hn
  simp only [write, hq, havail, hn, segments, nextIndex, Bool.not_true, Bool.false_eq_true,
    if_false]
  split
  · rfl
  · split_ifs <;> rfl

theorem read_eq (hq : q.mIsWriter = false) {maxLen : ℕ}
    (hlen : (if q.size m > maxLen then maxLen else q.size m) = k) (hk : k ≠ 0) :
    q.read m maxLen = (copyOut m.mBaseMemory (q.segments m.mReadIndex k),
      { m with mReadIndex := q.nextIndex m.mReadIndex k }) := by
  simp only [read, hq, hlen, hk, segments, nextIndex, Bool.false_eq_true, if_false, ge_iff_le]
  split
  · simp [copyOut]
  · split_ifs <;> simp [copyOut]

end SPSC

namespace SharedRing

variable {s t : SharedRing} {G : SharedRing → RingInput → List RingEvent → Prop}

/-- The copies of a call of `write` that nothing interrupts, and its store. -/
theorem run_copyIn {data scan : Bytes} {n index : ℕ} {segs : List (ℕ × ℕ)}
    (hpc : s.writerPc = .copying data n segs scan index) :
    ∃ tr, machine.Run Machine.anyStep s tr
        { s with
          memory := { s.memory with
            mBaseMemory := SPSC.copyIn s.memory.mBaseMemory segs scan, mWriteIndex := index }
          writerPc := .idle } ∧
      Machine.events tr = [.wrote data n] := by
  induction segs generalizing s scan with
  | nil =>
    exact ⟨_, .single (i := .writer) (by simp only [machine, step, writerStep, hpc]; rfl) trivial,
      rfl⟩
  | cons seg segs ih =>
    obtain ⟨off, k⟩ := seg
    have hstep : machine.step s .writer = some
        ({ s with
          memory := { s.memory with mBaseMemory := s.memory.mBaseMemory.write off (scan.take k) }
          writerPc := .copying data n segs (scan.drop k) index }, []) := by
      simp only [machine, step, writerStep, hpc]
    have hnext : ({ s with
        memory := { s.memory with mBaseMemory := s.memory.mBaseMemory.write off (scan.take k) }
        writerPc := .copying data n segs (scan.drop k) index } : SharedRing).writerPc =
      .copying data n segs (scan.drop k) index := rfl
    obtain ⟨tr, hrun, hev⟩ := ih hnext
    exact ⟨_, (Machine.Run.single hstep trivial).trans hrun, by simpa using hev⟩

/-- The same state with the writing process at another place. -/
def withWriter (s : SharedRing) (pc : WriterPc) : SharedRing := { s with writerPc := pc }

/-- The steps of a call of `write` that nothing interrupts compute `SPSC.write`. -/
theorem run_write (hw : s.mWriter.mIsWriter = true) (hpc : s.writerPc = .idle) (data : Bytes) :
    ∃ u tr, machine.step s (.write data) = some (u, []) ∧
      machine.Run Machine.anyStep u tr { s with memory := (s.mWriter.write s.memory data).2 } ∧
      Machine.events tr = [.wrote data (s.mWriter.write s.memory data).1] := by
  have hidle : s.withWriter .idle = s := by rw [← hpc]; rfl
  have hcall : machine.step s (.write data) =
      some (s.withWriter (.sizing (.write data)), []) := by
    simp [machine, step, hpc, hw, withWriter]
  have hload : machine.step (s.withWriter (.sizing (.write data))) .writer =
      some (s.withWriter (.sized (.write data) s.memory.mWriteIndex), []) := rfl
  by_cases havail : s.mWriter.capacity s.memory = 0
  · have hwrite : s.mWriter.write s.memory data = (0, s.memory) := by
      simp [SPSC.write, havail]
    have hsized : machine.step (s.withWriter (.sized (.write data) s.memory.mWriteIndex)) .writer =
        some (s.withWriter .idle, [.wrote data 0]) := if_pos havail
    rw [hwrite]
    refine ⟨_, [(.writer, []), (.writer, [.wrote data 0])], hcall, ?_, rfl⟩
    have hrun := (Machine.Run.single (G := Machine.anyStep) hload trivial).trans
      (.single hsized trivial)
    rwa [hidle] at hrun
  · obtain ⟨n, hn⟩ : ∃ n, SPSC.dataLen (s.mWriter.capacity s.memory) data = n := ⟨_, rfl⟩
    have hsized : machine.step (s.withWriter (.sized (.write data) s.memory.mWriteIndex)) .writer =
        some (s.withWriter (.locating data n), []) := by
      rw [← hn]
      exact if_neg havail
    have hlocate : machine.step (s.withWriter (.locating data n)) .writer =
        some (s.withWriter (.copying data n (s.mWriter.segments s.memory.mWriteIndex n) data
          (s.mWriter.nextIndex s.memory.mWriteIndex n)), []) := rfl
    obtain ⟨tr, hcopy, hev⟩ := run_copyIn (s := s.withWriter (.copying data n
      (s.mWriter.segments s.memory.mWriteIndex n) data
      (s.mWriter.nextIndex s.memory.mWriteIndex n))) rfl
    rw [SPSC.write_eq hw data havail, hn]
    refine ⟨_, (.writer, []) :: (.writer, []) :: (.writer, []) :: tr, hcall, ?_, hev⟩
    simp only [← hpc] at hcopy
    exact ((((Machine.Run.single hload trivial).trans (.single hsized trivial)).trans
      (.single hlocate trivial)).trans hcopy)

/-- The copies of a call of `read` that nothing interrupts, and its store. -/
theorem run_copyOut {dest : Bytes} {maxLen index : ℕ} {segs : List (ℕ × ℕ)}
    (hpc : s.readerPc = .copying maxLen segs dest index) :
    ∃ tr, machine.Run Machine.anyStep s tr
        { s with memory := { s.memory with mReadIndex := index }, readerPc := .idle } ∧
      Machine.events tr = [.read maxLen (dest ++ SPSC.copyOut s.memory.mBaseMemory segs)] := by
  induction segs generalizing s dest with
  | nil =>
    exact ⟨_, .single (i := .reader) (by simp only [machine, step, readerStep, hpc]; rfl) trivial,
      by simp [SPSC.copyOut]⟩
  | cons seg segs ih =>
    obtain ⟨off, k⟩ := seg
    have hstep : machine.step s .reader = some
        ({ s with
          readerPc := .copying maxLen segs (dest ++ s.memory.mBaseMemory.read off k) index },
        []) := by
      simp only [machine, step, readerStep, hpc]
    obtain ⟨tr, hrun, hev⟩ := ih (s := { s with
      readerPc := .copying maxLen segs (dest ++ s.memory.mBaseMemory.read off k) index }) rfl
    exact ⟨_, (Machine.Run.single hstep trivial).trans hrun,
      by simpa [SPSC.copyOut] using hev⟩

/-- The same state with the reading process at another place. -/
def withReader (s : SharedRing) (pc : ReaderPc) : SharedRing := { s with readerPc := pc }

/-- The steps of a call of `read` that nothing interrupts compute `SPSC.read`. -/
theorem run_read (hr : s.mReader.mIsWriter = false) (hpc : s.readerPc = .idle) (maxLen : ℕ) :
    ∃ u tr, machine.step s (.read maxLen) = some (u, []) ∧
      machine.Run Machine.anyStep u tr { s with memory := (s.mReader.read s.memory maxLen).2 } ∧
      Machine.events tr = [.read maxLen (s.mReader.read s.memory maxLen).1] := by
  have hidle : s.withReader .idle = s := by rw [← hpc]; rfl
  have hcall : machine.step s (.read maxLen) = some (s.withReader (.sizing maxLen), []) := by
    simp [machine, step, hpc, hr, withReader]
  have hload : machine.step (s.withReader (.sizing maxLen)) .reader =
      some (s.withReader (.sized maxLen s.memory.mWriteIndex), []) := rfl
  obtain ⟨k, hk⟩ : ∃ k, (if s.mReader.size s.memory > maxLen then maxLen
    else s.mReader.size s.memory) = k := ⟨_, rfl⟩
  by_cases hzero : k = 0
  · have hread : s.mReader.read s.memory maxLen = ([], s.memory) := by
      simp [SPSC.read, hk, hzero]
    have hsized : machine.step (s.withReader (.sized maxLen s.memory.mWriteIndex)) .reader =
        some (s.withReader .idle, [.read maxLen []]) := if_pos (hk.trans hzero)
    rw [hread]
    refine ⟨_, [(.reader, []), (.reader, [.read maxLen []])], hcall, ?_, rfl⟩
    have hrun := (Machine.Run.single (G := Machine.anyStep) hload trivial).trans
      (.single hsized trivial)
    rwa [hidle] at hrun
  · have hsized : machine.step (s.withReader (.sized maxLen s.memory.mWriteIndex)) .reader =
        some (s.withReader (.locating maxLen k), []) := by
      rw [← hk] at hzero ⊢
      exact if_neg hzero
    have hlocate : machine.step (s.withReader (.locating maxLen k)) .reader =
        some (s.withReader (.copying maxLen (s.mReader.segments s.memory.mReadIndex k) []
          (s.mReader.nextIndex s.memory.mReadIndex k)), []) := rfl
    obtain ⟨tr, hcopy, hev⟩ := run_copyOut (s := s.withReader (.copying maxLen
      (s.mReader.segments s.memory.mReadIndex k) []
      (s.mReader.nextIndex s.memory.mReadIndex k))) rfl
    rw [SPSC.read_eq hr hk hzero]
    refine ⟨_, (.reader, []) :: (.reader, []) :: (.reader, []) :: tr, hcall, ?_, hev⟩
    simp only [← hpc] at hcopy
    exact ((((Machine.Run.single hload trivial).trans (.single hsized trivial)).trans
      (.single hlocate trivial)).trans hcopy)

end SharedRing

end WsClient
