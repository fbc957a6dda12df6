import WsClient.SPSC

/-!
# The ring under every interleaving

`Consistent C acc ret s` says where the two processes are relative to the bytes `acc` accepted and
`ret` returned by the calls that have returned: the indices in shared memory are those of the two
byte counts, the unread cells hold the bytes still to be returned, and the local variables of a call
under way fit a number of bytes that the other process can only improve. Every step of either
process keeps it.

## Main definitions

* `WriterAt`, `ReaderAt`: what the local variables of a call under way stand for.
* `Consistent`: the invariant.
* `NoRead`: the guard under which no call of `read` returns.

## Main results

* `Consistent.writerStep`, `Consistent.readerStep`, `Consistent.run`: it holds in every run.
* `SharedRing.interleaved`: what the two processes exchange is a queue of bytes.
-/

namespace WsClient

variable {C n k : ℕ} {acc ret : Bytes} {es es' : List RingEvent} {s t : SharedRing}
  {i : RingInput} {memory : SharedMemory}

/-! ### The invariant -/

/-- The local variables of the writing process, when `acc` has been accepted and `ret` returned.
The room found by `write` cannot shrink, because the reader only returns more. -/
def WriterAt (C : ℕ) (acc ret : Bytes) (base : Block UInt8) : WriterPc → Prop
  | .idle | .sizing _ => True
  | .sized _ writeIndex => writeIndex = Ring.index C acc.length
  | .locating data dataLen =>
    dataLen ≤ data.length ∧ acc.length + dataLen + 2 ≤ ret.length + C
  | .copying data dataLen segs scan index =>
    dataLen ≤ data.length ∧ acc.length + dataLen + 2 ≤ ret.length + C ∧
      index = Ring.index C (acc.length + dataLen) ∧
      ∃ p k, p + k = dataLen ∧ scan = data.drop p ∧ Ring.Covers C (acc.length + p) segs k ∧
        Ring.view base C acc.length p = data.take p

/-- The local variables of the reading process. The bytes found by `read` stay in the ring,
because the writer only adds more. -/
def ReaderAt (C : ℕ) (acc ret : Bytes) : ReaderPc → Prop
  | .idle | .sizing _ => True
  | .sized _ writeIndex =>
    ∃ n, writeIndex = Ring.index C n ∧ ret.length ≤ n ∧ n ≤ acc.length
  | .locating _ len => 0 < len ∧ ret.length + len ≤ acc.length
  | .copying _ segs dest index =>
    ∃ p k, 0 < p + k ∧ ret.length + p + k ≤ acc.length ∧
      index = Ring.index C (ret.length + (p + k)) ∧
      Ring.Covers C (ret.length + p) segs k ∧ dest = (acc.drop ret.length).take p

/-- The state of two processes whose calls have accepted `acc` and returned `ret`. -/
structure Consistent (C : ℕ) (acc ret : Bytes) (s : SharedRing) : Prop where
  writerCapacity : s.mWriter.mCapacity = C
  readerCapacity : s.mReader.mCapacity = C
  isWriter : s.mWriter.mIsWriter = true
  isReader : s.mReader.mIsWriter = false
  writeIndex : s.memory.mWriteIndex = Ring.index C acc.length
  readIndex : s.memory.mReadIndex = Ring.index C ret.length
  returned_eq : ret = acc.take ret.length
  room : acc.length - ret.length ≤ C - 2
  unread : Ring.view s.memory.mBaseMemory C ret.length
    (acc.length - ret.length) = acc.drop ret.length
  writerAt : WriterAt C acc ret s.memory.mBaseMemory s.writerPc
  readerAt : ReaderAt C acc ret s.readerPc

/-- A writer is where it was when the reader has returned more. -/
theorem WriterAt.mono_returned {base : Block UInt8} {pc : WriterPc} {ret' : Bytes}
    (h : WriterAt C acc ret base pc) (hle : ret.length ≤ ret'.length) :
    WriterAt C acc ret' base pc := by
  cases pc with
  | idle => trivial
  | sizing call => trivial
  | sized call w => exact h
  | locating data dataLen => exact ⟨h.1, h.2.trans (by omega)⟩
  | copying data dataLen segs scan index => exact ⟨h.1, h.2.1.trans (by omega), h.2.2⟩

/-- A reader is where it was when the writer has added more. -/
theorem ReaderAt.mono_accepted {pc : ReaderPc} (h : ReaderAt C acc ret pc) (more : Bytes) :
    ReaderAt C (acc ++ more) ret pc := by
  have hlen : acc.length ≤ (acc ++ more).length := by simp
  cases pc with
  | idle => trivial
  | sizing maxLen => trivial
  | sized maxLen w =>
    obtain ⟨n, hw, hret, hacc⟩ := h
    exact ⟨n, hw, hret, hacc.trans hlen⟩
  | locating maxLen len => exact ⟨h.1, h.2.trans hlen⟩
  | copying maxLen segs dest index =>
    obtain ⟨p, k, hpos, hle, hindex, hcov, hdest⟩ := h
    refine ⟨p, k, hpos, hle.trans hlen, hindex, hcov, hdest.trans ?_⟩
    rw [List.drop_append_of_le_length (by omega), List.take_append_of_le_length]
    simp only [List.length_drop]
    omega

namespace Consistent

theorem start (C : ℕ) (memory : SharedMemory) :
    Consistent C [] [] (SharedRing.start C memory) where
  writerCapacity := rfl
  readerCapacity := rfl
  isWriter := rfl
  isReader := rfl
  writeIndex := rfl
  readIndex := rfl
  returned_eq := rfl
  room := by simp
  unread := rfl
  writerAt := trivial
  readerAt := trivial

variable (h : Consistent C acc ret s)
include h

theorem returned_le : ret.length ≤ acc.length := by
  have := congrArg List.length h.returned_eq
  rw [List.length_take] at this
  omega

theorem writeIndex_le (hC : 0 < C) : s.memory.mWriteIndex ≤ C :=
  h.writeIndex ▸ Ring.index_le hC _

theorem readIndex_le (hC : 0 < C) : s.memory.mReadIndex ≤ C :=
  h.readIndex ▸ Ring.index_le hC _

/-- What `calcSize` computes from the reader's index and an earlier index of the writer. -/
theorem calcSize_eq (hC : 0 < C) (hC' : C < 4294967296) {q : SPSC} (hq : q.mCapacity = C)
    (hret : ret.length ≤ n) (hacc : n ≤ acc.length) :
    q.calcSize s.memory.mReadIndex (Ring.index C n) = n - ret.length := by
  have hroom := h.room
  subst hq
  rw [SPSC.calcSize_eq hC' (h.readIndex_le hC) (Ring.index_le hC n), h.readIndex,
    Ring.distance_index hret (by omega)]

theorem size_eq (hC : 0 < C) (hC' : C < 4294967296) :
    s.size = acc.length - ret.length := by
  rw [SharedRing.size, SPSC.size, h.writeIndex]
  exact h.calcSize_eq hC hC' h.writerCapacity h.returned_le le_rfl

/-- What `capacity` computes from the reader's index and the writer's. -/
theorem capacityOf_eq (hC : 0 < C) (hC' : C < 4294967296) :
    s.mWriter.capacityOf
        (s.mWriter.calcSize s.memory.mReadIndex (Ring.index C acc.length)) =
      C - (acc.length - ret.length) - 1 := by
  have hroom := h.room
  have hcap := h.writerCapacity
  rw [h.calcSize_eq hC hC' hcap h.returned_le le_rfl,
    SPSC.capacityOf_eq (by omega) (by omega), hcap]

/-! ### Steps of the writer -/

/-- A step of the writing process that touches only its own variables. -/
theorem withWriter {pc : WriterPc} (hacc : accepted es' = []) (hret : returned es' = [])
    (hpc : WriterAt C acc ret s.memory.mBaseMemory pc) :
    Consistent C (acc ++ accepted es') (ret ++ returned es') { s with writerPc := pc } := by
  rw [hacc, hret, List.append_nil, List.append_nil]
  exact { h with writerAt := hpc }

/-- A copy into the ring: the cells it writes are free. -/
theorem copyIn {data scan : Bytes} {index off : ℕ} {segs : List (ℕ × ℕ)}
    (hpc : s.writerPc = .copying data n ((off, k) :: segs) scan index) :
    Consistent C acc ret
      { s with
        memory := { s.memory with mBaseMemory := s.memory.mBaseMemory.write off (scan.take k) }
        writerPc := .copying data n segs (scan.drop k) index } := by
  have hat := h.writerAt
  have hle := h.returned_le
  rw [hpc] at hat
  obtain ⟨hn, hroom, hindex, p, j, rfl, rfl, ⟨hkj, hin, hoff, hcov⟩, hview⟩ := hat
  have hlen : ((data.drop p).take k).length = k := by
    rw [List.length_take, List.length_drop]
    omega
  have hin' : off + ((data.drop p).take k).length ≤ C := by rwa [hlen]
  have hoff' : 0 < ((data.drop p).take k).length →
      off = (acc.length + p) % C := by rwa [hlen]
  refine { h with unread := ?_, writerAt := ?_ }
  · rw [Ring.view_write_of_disjoint s.memory.mBaseMemory hin' hoff' (by omega)
      (by rw [hlen]; omega)]
    exact h.unread
  · refine ⟨hn, hroom, hindex, p + k, j - k, by omega, by rw [List.drop_drop], ?_, ?_⟩
    · rwa [← Nat.add_assoc]
    · have hnew := Ring.view_write s.memory.mBaseMemory hin' hoff'
      rw [hlen] at hnew
      rw [Ring.view_add, hnew, Ring.view_write_of_disjoint s.memory.mBaseMemory hin' hoff' le_rfl
        (by rw [hlen]; omega), hview, List.take_add]

/-- The store of `mWriteIndex` publishes the bytes copied. -/
theorem publish {data scan : Bytes} {index : ℕ}
    (hpc : s.writerPc = .copying data n [] scan index) :
    Consistent C (acc ++ data.take n) ret
      { s with memory := { s.memory with mWriteIndex := index }, writerPc := .idle } := by
  have hat := h.writerAt
  have hle := h.returned_le
  rw [hpc] at hat
  obtain ⟨hn, hroom, hindex, p, j, hp, -, hcov, hview⟩ := hat
  obtain rfl : p = n := by rwa [show j = 0 from hcov] at hp
  have hlen : (acc ++ data.take p).length = acc.length + p := by
    rw [List.length_append, List.length_take]
    omega
  refine { h with
    writeIndex := by rw [hlen]; exact hindex
    returned_eq := by rw [List.take_append_of_le_length hle]; exact h.returned_eq
    room := by omega
    unread := ?_
    writerAt := trivial
    readerAt := h.readerAt.mono_accepted _ }
  rw [hlen, show acc.length + p - ret.length = acc.length - ret.length + p by omega,
    Ring.view_add, h.unread, Nat.add_sub_cancel' hle, hview, List.drop_append_of_le_length hle]

theorem writerStep (hC : 0 < C) (hC' : C < 4294967296)
    (hstep : s.writerStep = some (t, es')) :
    Consistent C (acc ++ accepted es') (ret ++ returned es') t := by
  have hat := h.writerAt
  unfold SharedRing.writerStep at hstep
  split at hstep
  · cases hstep
  · obtain ⟨rfl, rfl⟩ := by simpa using hstep
    exact h.withWriter rfl rfl h.writeIndex
  · rename_i call w hpc
    rw [hpc] at hat
    obtain rfl : w = Ring.index C acc.length := hat
    have hroom := h.room
    have hle := h.returned_le
    rw [h.capacityOf_eq hC hC'] at hstep
    cases call with
    | capacity =>
      obtain ⟨rfl, rfl⟩ := by simpa using hstep
      exact h.withWriter rfl rfl trivial
    | write data =>
      simp only at hstep
      split at hstep
      · obtain ⟨rfl, rfl⟩ := by simpa using hstep
        exact h.withWriter rfl rfl trivial
      · rename_i havail
        obtain ⟨rfl, rfl⟩ := by simpa using hstep
        refine h.withWriter rfl rfl ?_
        rw [sub32_of_le (by omega) (by omega)]
        constructor <;> split <;> omega
  · rename_i data n hpc
    rw [hpc] at hat
    obtain ⟨hn, hroom⟩ := hat
    have hle := h.returned_le
    have hnC : n ≤ C := by omega
    have hcap := h.writerCapacity
    obtain ⟨rfl, rfl⟩ := by simpa using hstep
    subst hcap
    have hindex := h.writeIndex_le hC
    rw [SPSC.segments_eq hC' hindex hnC, SPSC.nextIndex_eq hC' hindex hnC, h.writeIndex]
    exact h.withWriter rfl rfl
      ⟨hn, hroom, (Ring.index_add hC hnC _).symm, 0, n, Nat.zero_add n, rfl,
      Ring.covers_segments hC hnC _, rfl⟩
  · rename_i data n off k segs scan index hpc
    obtain ⟨rfl, rfl⟩ := by simpa using hstep
    simpa using h.copyIn hpc
  · rename_i data n scan index hpc
    obtain ⟨rfl, rfl⟩ := by simpa using hstep
    simpa using h.publish hpc

/-! ### Steps of the reader -/

/-- A step of the reading process that touches only its own variables. -/
theorem withReader {pc : ReaderPc} (hacc : accepted es' = []) (hret : returned es' = [])
    (hpc : ReaderAt C acc ret pc) :
    Consistent C (acc ++ accepted es') (ret ++ returned es') { s with readerPc := pc } := by
  rw [hacc, hret, List.append_nil, List.append_nil]
  exact { h with readerAt := hpc }

/-- The store of `mReadIndex` releases the bytes copied. -/
theorem release {maxLen index : ℕ} {dest : Bytes}
    (hpc : s.readerPc = .copying maxLen [] dest index) :
    Consistent C acc (ret ++ dest)
      { s with memory := { s.memory with mReadIndex := index }, readerPc := .idle } := by
  have hat := h.readerAt
  have hroom := h.room
  rw [hpc] at hat
  obtain ⟨p, k, -, hle, hindex, hcov, hdest⟩ := hat
  obtain rfl : k = 0 := hcov
  have hlen : (ret ++ dest).length = ret.length + p := by
    rw [List.length_append, hdest, List.length_take, List.length_drop]
    omega
  refine { h with
    readIndex := by rw [hlen]; exact hindex
    returned_eq := by rw [hlen, List.take_add, ← h.returned_eq, hdest]
    room := by omega
    unread := ?_
    writerAt := h.writerAt.mono_returned (by omega)
    readerAt := trivial }
  rw [hlen, Nat.sub_add_eq, ← Ring.drop_view _ _ _ (by omega), h.unread, List.drop_drop]

theorem readerStep (hC : 0 < C) (hC' : C < 4294967296)
    (hstep : s.readerStep = some (t, es')) :
    Consistent C (acc ++ accepted es') (ret ++ returned es') t := by
  have hat := h.readerAt
  have hroom := h.room
  unfold SharedRing.readerStep at hstep
  split at hstep
  · cases hstep
  · obtain ⟨rfl, rfl⟩ := by simpa using hstep
    exact h.withReader rfl rfl ⟨_, h.writeIndex, h.returned_le, le_rfl⟩
  · rename_i maxLen w hpc
    rw [hpc] at hat
    obtain ⟨n, rfl, hret, hacc⟩ := hat
    rw [h.calcSize_eq hC hC' h.readerCapacity hret hacc] at hstep
    by_cases hlen : (if n - ret.length > maxLen then maxLen else n - ret.length) = 0
    · rw [if_pos hlen] at hstep
      obtain ⟨rfl, rfl⟩ := by simpa using hstep
      exact h.withReader rfl rfl trivial
    · rw [if_neg hlen] at hstep
      obtain ⟨rfl, rfl⟩ := by simpa using hstep
      refine h.withReader rfl rfl ⟨Nat.pos_of_ne_zero hlen, ?_⟩
      split <;> omega
  · rename_i maxLen len hpc
    rw [hpc] at hat
    obtain ⟨hpos, hle⟩ := hat
    have hlenC : len ≤ C := by omega
    have hcap := h.readerCapacity
    obtain ⟨rfl, rfl⟩ := by simpa using hstep
    subst hcap
    have hindex := h.readIndex_le hC
    rw [SPSC.segments_eq hC' hindex hlenC, SPSC.nextIndex_eq hC' hindex hlenC, h.readIndex]
    exact h.withReader rfl rfl ⟨0, len, by omega, hle,
      by rw [Nat.zero_add]; exact (Ring.index_add hC hlenC _).symm,
      Ring.covers_segments hC hlenC _, rfl⟩
  · rename_i maxLen off k segs dest index hpc
    rw [hpc] at hat
    obtain ⟨p, j, hpos, hle, hindex, ⟨hkj, hin, hoff, hcov⟩, hdest⟩ := hat
    obtain ⟨rfl, rfl⟩ := by simpa using hstep
    refine h.withReader rfl rfl ⟨p + k, j - k, by omega, by omega, ?_, by rwa [← Nat.add_assoc], ?_⟩
    · rw [hindex]
      congr 2
      omega
    · -- the cells copied are those of the unread bytes
      have hcells : Ring.view s.memory.mBaseMemory C (ret.length + p) k =
          (acc.drop ret.length |>.drop p).take k := by
        rw [← h.unread, Ring.drop_view _ _ _ (by omega), Ring.take_view _ _ _ (by omega)]
      rw [hdest, Ring.read_eq_view _ hin hoff, hcells, List.take_add]
  · rename_i maxLen dest index hpc
    obtain ⟨rfl, rfl⟩ := by simpa using hstep
    simpa using h.release hpc

/-! ### Runs -/

omit h in
/-- A process starts a call, or goes on to its next access. -/
theorem step (h : Consistent C acc ret s) (hC : 0 < C) (hC' : C < 4294967296)
    (hstep : SharedRing.machine.step s i = some (t, es')) :
    Consistent C (acc ++ accepted es') (ret ++ returned es') t := by
  cases i with
  | write data =>
    simp only [SharedRing.machine, SharedRing.step, h.isWriter] at hstep
    split at hstep
    · cases hstep
    · obtain ⟨rfl, rfl⟩ := by simpa using hstep
      exact h.withWriter rfl rfl trivial
  | capacity =>
    simp only [SharedRing.machine, SharedRing.step] at hstep
    split at hstep
    · cases hstep
    · obtain ⟨rfl, rfl⟩ := by simpa using hstep
      exact h.withWriter rfl rfl trivial
  | writer => exact h.writerStep hC hC' hstep
  | read maxLen =>
    simp only [SharedRing.machine, SharedRing.step, h.isReader] at hstep
    split at hstep
    · cases hstep
    · obtain ⟨rfl, rfl⟩ := by simpa using hstep
      exact h.withReader rfl rfl trivial
  | reader => exact h.readerStep hC hC' hstep

omit h in
/-- Every run keeps the invariant. -/
theorem run {G : SharedRing → RingInput → List RingEvent → Prop}
    {tr : List (RingInput × List RingEvent)} (h : Consistent C acc ret s) (hC : 0 < C)
    (hC' : C < 4294967296) (hrun : SharedRing.machine.Run G s tr t) :
    Consistent C (acc ++ accepted (Machine.events tr)) (ret ++ returned (Machine.events tr)) t := by
  refine hrun.invariant_events
    (P := fun es t => Consistent C (acc ++ accepted es) (ret ++ returned es) t)
    (by simpa using h) ?_
  intro es t i es' u ht hstep _
  simpa using ht.step hC hC' hstep

/-! ### Copies into free cells -/

/-- A copy into the ring stays inside it and meets no unread byte. -/
theorem writeSegment_free (hC : 0 < C) (hC' : C < 4294967296) {off : ℕ}
    (hseg : s.writeSegment? = some (off, k)) :
    off + k ≤ C ∧ ∀ j < s.size, ∀ i < k, off + i ≠ (s.memory.mReadIndex + j) % C := by
  have hat := h.writerAt
  have hle := h.returned_le
  unfold SharedRing.writeSegment? at hseg
  split at hseg
  · rename_i data n seg segs scan index hpc
    obtain rfl : seg = (off, k) := by simpa using hseg
    rw [hpc] at hat
    obtain ⟨hn, hroom, hindex, p, m, hp, -, ⟨hkm, hin, hoff, -⟩, -⟩ := hat
    refine ⟨hin, fun j hj i hi => ?_⟩
    rw [h.size_eq hC hC'] at hj
    rw [h.readIndex, Nat.add_mod, Ring.index_mod, ← Nat.add_mod,
      ← Ring.mod_add_of_segment hin hoff hi]
    exact (Ring.mod_ne_mod (by omega) (by omega)).symm
  · cases hseg

end Consistent

/-! ### Reads that return nothing -/

/-- The guard under which no call of `read` returns. -/
def NoRead (_ : SharedRing) (_ : RingInput) (es : List RingEvent) : Prop :=
  ∀ maxLen dest, RingEvent.read maxLen dest ∉ es

/-- The reader is inside the call whose `size` loaded `writeIndex`. -/
def Fetching (maxLen writeIndex : ℕ) : ReaderPc → Prop
  | .sized maxLen' writeIndex' => maxLen' = maxLen ∧ writeIndex' = writeIndex
  | .locating .. | .copying .. => True
  | .idle | .sizing _ => False

theorem returned_of_noRead (h : NoRead s i es) : returned es = [] := by
  refine List.flatMap_eq_nil_iff.mpr fun e he => ?_
  cases e with
  | wrote data n => rfl
  | capacity n => rfl
  | read maxLen dest => exact absurd he (h maxLen dest)

/-- The writer leaves the reader where it is and returns from no `read`. -/
theorem SharedRing.writerStep_frame (hstep : s.writerStep = some (t, es)) :
    t.readerPc = s.readerPc ∧ NoRead s .writer es := by
  unfold writerStep at hstep
  split at hstep
  · cases hstep
  · obtain ⟨rfl, rfl⟩ := by simpa using hstep
    exact ⟨rfl, by simp [NoRead]⟩
  · rename_i call w hpc
    cases call with
    | capacity =>
      obtain ⟨rfl, rfl⟩ := by simpa using hstep
      exact ⟨rfl, by simp [NoRead]⟩
    | write data =>
      simp only at hstep
      split at hstep
      · obtain ⟨rfl, rfl⟩ := by simpa using hstep
        exact ⟨rfl, by simp [NoRead]⟩
      · obtain ⟨rfl, rfl⟩ := by simpa using hstep
        exact ⟨rfl, by simp [NoRead]⟩
  all_goals
    obtain ⟨rfl, rfl⟩ := by simpa using hstep
    exact ⟨rfl, by simp [NoRead]⟩

/-- Until the call returns, the reader works with the index it has loaded. -/
theorem Fetching.step {maxLen w : ℕ} (hf : Fetching maxLen w s.readerPc)
    (hstep : SharedRing.machine.step s i = some (t, es)) (hno : NoRead s i es) :
    Fetching maxLen w t.readerPc := by
  have hbusy : s.readerPc ≠ .idle := fun hidle => by rw [hidle] at hf; exact hf
  cases i with
  | write data =>
    simp only [SharedRing.machine, SharedRing.step] at hstep
    split at hstep
    · cases hstep
    · split at hstep <;> obtain ⟨rfl, rfl⟩ := by simpa using hstep
      exacts [hf, hf]
  | capacity =>
    simp only [SharedRing.machine, SharedRing.step] at hstep
    split at hstep
    · cases hstep
    · obtain ⟨rfl, rfl⟩ := by simpa using hstep
      exact hf
  | writer => rwa [(SharedRing.writerStep_frame hstep).1]
  | read maxLen =>
    simp only [SharedRing.machine, SharedRing.step, if_pos hbusy] at hstep
    cases hstep
  | reader =>
    change s.readerStep = _ at hstep
    unfold SharedRing.readerStep at hstep
    split at hstep
    · cases hstep
    · rename_i hpc
      rw [hpc] at hf
      exact hf.elim
    · rename_i maxLen' w' hpc
      by_cases hlen : (if s.mReader.calcSize s.memory.mReadIndex w' > maxLen' then maxLen'
          else s.mReader.calcSize s.memory.mReadIndex w') = 0
      · rw [if_pos hlen] at hstep
        obtain ⟨rfl, rfl⟩ := by simpa using hstep
        exact absurd (List.mem_singleton_self _) (hno maxLen' [])
      · rw [if_neg hlen] at hstep
        obtain ⟨rfl, rfl⟩ := by simpa using hstep
        trivial
    · obtain ⟨rfl, rfl⟩ := by simpa using hstep
      trivial
    · obtain ⟨rfl, rfl⟩ := by simpa using hstep
      trivial
    · rename_i maxLen' dest index hpc
      obtain ⟨rfl, rfl⟩ := by simpa using hstep
      exact absurd (List.mem_singleton_self _) (hno maxLen' dest)

namespace Consistent

/-- A call of `read` that returns nothing computed that the ring was empty, or was asked for
nothing. -/
theorem eq_of_read_nil (h : Consistent C acc ret s) (hC : 0 < C) (hC' : C < 4294967296)
    {maxLen n : ℕ} (hf : Fetching maxLen (Ring.index C n) s.readerPc) (hpos : 0 < maxLen)
    (hret : ret.length ≤ n) (hacc : n ≤ acc.length)
    (hstep : SharedRing.machine.step s i = some (t, es)) {maxLen' : ℕ}
    (hmem : RingEvent.read maxLen' [] ∈ es) : n = ret.length := by
  have hbusy : s.readerPc ≠ .idle := fun hidle => by rw [hidle] at hf; exact hf
  have hat := h.readerAt
  cases i with
  | write data =>
    simp only [SharedRing.machine, SharedRing.step, h.isWriter] at hstep
    split at hstep
    · cases hstep
    · obtain ⟨rfl, rfl⟩ := by simpa using hstep
      cases hmem
  | capacity =>
    simp only [SharedRing.machine, SharedRing.step] at hstep
    split at hstep
    · cases hstep
    · obtain ⟨rfl, rfl⟩ := by simpa using hstep
      cases hmem
  | writer => exact absurd hmem ((SharedRing.writerStep_frame hstep).2 _ _)
  | read maxLen =>
    simp only [SharedRing.machine, SharedRing.step, if_pos hbusy] at hstep
    cases hstep
  | reader =>
    change s.readerStep = _ at hstep
    unfold SharedRing.readerStep at hstep
    split at hstep
    · cases hstep
    · obtain ⟨rfl, rfl⟩ := by simpa using hstep
      cases hmem
    · rename_i maxLen'' w hpc
      rw [hpc] at hf
      obtain ⟨rfl, rfl⟩ := hf
      rw [h.calcSize_eq hC hC' h.readerCapacity hret hacc] at hstep
      by_cases hlen : (if n - ret.length > maxLen'' then maxLen'' else n - ret.length) = 0
      · split at hlen <;> omega
      · rw [if_neg hlen] at hstep
        obtain ⟨rfl, rfl⟩ := by simpa using hstep
        cases hmem
    · obtain ⟨rfl, rfl⟩ := by simpa using hstep
      cases hmem
    · obtain ⟨rfl, rfl⟩ := by simpa using hstep
      cases hmem
    · rename_i maxLen'' dest index hpc
      obtain ⟨rfl, rfl⟩ := by simpa using hstep
      obtain ⟨-, rfl⟩ : maxLen' = maxLen'' ∧ [] = dest := by simpa using hmem
      rw [hpc] at hat
      obtain ⟨p, k, hp, hle, -, hcov, hdest⟩ := hat
      obtain rfl : k = 0 := hcov
      have hlen := congrArg List.length hdest
      rw [List.length_nil, List.length_take, List.length_drop] at hlen
      omega

/-- A call of `read` that asks for bytes and returns none loaded `mWriteIndex` when the ring was
empty. -/
theorem size_eq_zero_of_read_nil (h : Consistent C acc ret s) (hC : 0 < C) (hC' : C < 4294967296)
    {maxLen maxLen' : ℕ} {s₁ u : SharedRing} {tr : List (RingInput × List RingEvent)}
    (hpc : s.readerPc = .sizing maxLen) (hpos : 0 < maxLen)
    (hload : SharedRing.machine.step s .reader = some (s₁, es'))
    (hrun : SharedRing.machine.Run NoRead s₁ tr t)
    (hstep : SharedRing.machine.step t i = some (u, es))
    (hmem : RingEvent.read maxLen' [] ∈ es) : s.size = 0 := by
  obtain ⟨rfl, rfl⟩ : { s with readerPc := .sized maxLen s.memory.mWriteIndex } = s₁ ∧
      [] = es' := by
    simpa [SharedRing.machine, SharedRing.step, SharedRing.readerStep, hpc] using hload
  have h₁ := h.step hC hC' hload
  rw [accepted_nil, returned_nil, List.append_nil, List.append_nil] at h₁
  obtain ⟨more, ht, hf⟩ : ∃ more, Consistent C (acc ++ more) ret t ∧
      Fetching maxLen s.memory.mWriteIndex t.readerPc := by
    refine hrun.invariant_state
      (P := fun t => ∃ more, Consistent C (acc ++ more) ret t ∧
        Fetching maxLen s.memory.mWriteIndex t.readerPc)
      ⟨[], by simpa using h₁, rfl, rfl⟩ ?_
    rintro t i es u ⟨more, ht, hf⟩ hstep hno
    have hu := ht.step hC hC' hstep
    rw [returned_of_noRead hno, List.append_nil, List.append_assoc] at hu
    exact ⟨_, hu, hf.step hstep hno⟩
  rw [h.writeIndex] at hf
  have hempty := ht.eq_of_read_nil hC hC' hf hpos h.returned_le (by simp) hstep hmem
  rw [h.size_eq hC hC', hempty, Nat.sub_self]

end Consistent

/-! ### What the two processes exchange -/

/-- Two processes over one ring, in every order of their accesses to shared memory: what the
reader has returned is the front of what the writer has accepted, copies into the ring meet no
byte that is still to be read, and the indices in shared memory count the bytes between. -/
theorem SharedRing.interleaved (hC : 0 < C) (hC' : C < 4294967296) (memory : SharedMemory)
    {tr : List (RingInput × List RingEvent)}
    (hrun : machine.Run Machine.anyStep (start C memory) tr t) :
    returned (Machine.events tr) <+: accepted (Machine.events tr) ∧
    (∀ off k, t.writeSegment? = some (off, k) →
      off + k ≤ C ∧ ∀ j < t.size, ∀ i < k, off + i ≠ (t.memory.mReadIndex + j) % C) ∧
    t.memory.mReadIndex ≤ C ∧ t.memory.mWriteIndex ≤ C ∧
    t.size ≤ C - 2 ∧
    t.size = (accepted (Machine.events tr)).length - (returned (Machine.events tr)).length ∧
    ∀ maxLen t₁ es₁ tr' t₂ i u es maxLen', 0 < maxLen → t.readerPc = .sizing maxLen →
      machine.step t .reader = some (t₁, es₁) → machine.Run NoRead t₁ tr' t₂ →
      machine.step t₂ i = some (u, es) → RingEvent.read maxLen' [] ∈ es → t.size = 0 := by
  have h := (Consistent.start C memory).run hC hC' hrun
  rw [List.nil_append, List.nil_append] at h
  refine ⟨h.returned_eq ▸ List.take_prefix _ _, fun off k => h.writeSegment_free hC hC',
    h.readIndex_le hC, h.writeIndex_le hC, (h.size_eq hC hC').trans_le h.room,
    h.size_eq hC hC', ?_⟩
  intro maxLen t₁ es₁ tr' t₂ i u es maxLen' hpos hpc hload hrun' hstep hmem
  exact h.size_eq_zero_of_read_nil hC hC' hpc hpos hload hrun' hstep hmem

/-- A run over a ring of five bytes in which the second call of `write` wraps around and the reader
fetches two bytes in between. -/
theorem SharedRing.interleaved_wrap :
    ∃ tr t, machine.Run Machine.anyStep
        (start 5 ⟨0, 0, 0, 0, 0, { addr := 0, size := 5, cell := fun _ => 0 }⟩) tr t ∧
      accepted (Machine.events tr) = [1, 2, 3, 4, 5] ∧
      returned (Machine.events tr) = [1, 2] ∧ t.memory.mWriteIndex = 5 ∧ t.size ≤ 5 - 2 ∧
      returned (Machine.events tr) <+: accepted (Machine.events tr) := by
  obtain ⟨tr, t, hrun, hP⟩ := Machine.exists_run_of_exec (G := Machine.anyStep) (M := machine)
    (s := start 5 ⟨0, 0, 0, 0, 0, { addr := 0, size := 5, cell := fun _ => 0 }⟩)
    (l := [.write [1, 2, 3], .writer, .writer, .writer, .writer, .writer, .read 2, .reader,
      .reader, .write [4, 5], .writer, .reader, .reader, .reader, .writer, .writer, .writer,
      .writer])
    (P := fun r => decide (accepted (Machine.events r.2) = [1, 2, 3, 4, 5] ∧
      returned (Machine.events r.2) = [1, 2] ∧ r.1.memory.mWriteIndex = 5))
    (by decide +kernel)
  obtain ⟨hacc, hret, hindex⟩ := of_decide_eq_true hP
  have h := interleaved (by decide) (by decide) _ hrun
  exact ⟨tr, t, hrun, hacc, hret, hindex, h.2.2.2.2.1, h.1⟩

end WsClient
