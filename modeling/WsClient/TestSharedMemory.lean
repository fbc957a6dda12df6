import WsClient.RingRuns

/-!
# Writing whole records

`capacity` keeps one byte of the ring free and `write` keeps a second one free below what
`capacity` has returned. A call of `write` therefore stores all of its data, in every order of the
accesses of the two processes, exactly when the data is shorter than `capacity()` at the start of
the call (or empty).

`TestSharedMemory::writeString` asks for `capacity() >= slen + 2` before it writes a string and
then its CR LF. The records in the ring are whole as long as the second `write` does not find room
for exactly two bytes.

## Main definitions

* `writes`, `SharedRing.StoresAll`: the calls of `write`, and a call that stores all of its data.
* `TestSharedMemory`, `TestSharedMemory.machine`: the producer and the reader.
* `wholeRecords`: strings, each with its CR LF.
* `TestSharedMemory.RoomForEnd`: the guard on the second `write`.

## Main results

* `Consistent.writerStep_writing`: the steps of a call of `write` whose data fits.
* `TestSharedMemory.capacity_and_write`: when `write` takes what `capacity` promises.
-/

namespace WsClient

variable {C : ℕ} {acc ret data : Bytes} {es : List RingEvent} {s t : SharedRing} {i : RingInput}

/-! ### A call that stores all of its data -/

/-- The calls of `write` that have returned, with the values returned. -/
def writes (es : List RingEvent) : List (Bytes × ℕ) :=
  es.filterMap fun
    | .wrote data n => some (data, n)
    | _ => none

@[simp] theorem writes_append (es es' : List RingEvent) :
    writes (es ++ es') = writes es ++ writes es' := List.filterMap_append

theorem accepted_of_writes (h : writes es = []) : accepted es = [] := by
  refine List.flatMap_eq_nil_iff.mpr fun e he => ?_
  cases e with
  | wrote data n => exact absurd (List.filterMap_eq_nil_iff.mp h _ he) (by simp)
  | capacity n => rfl
  | read maxLen dest => rfl

/-- In every order of the steps from `s` on, a call `write(data)` made there stores all of `data`
and returns its length. -/
def SharedRing.StoresAll (s : SharedRing) (data : Bytes) : Prop :=
  ∀ u es, machine.step s (.write data) = some (u, es) →
    ∀ tr t, machine.Run Machine.anyStep u tr t →
      ∀ r, (writes (es ++ Machine.events tr)).head? = some r → r = (data, data.length)

/-- The writer is inside a call `write(data)`, and if that call has computed how many bytes it
stores, then it stores all. -/
def Writing (data : Bytes) : WriterPc → Prop
  | .sizing (.write data') | .sized (.write data') _ => data' = data
  | .locating data' n | .copying data' n .. => data' = data ∧ n = data.length
  | .idle | .sizing .capacity | .sized .capacity _ => False

/-- Reading leaves the writer where it is and returns from no `write`. -/
theorem SharedRing.readerStep_frame (hstep : s.readerStep = some (t, es)) :
    t.writerPc = s.writerPc ∧ writes es = [] := by
  unfold readerStep at hstep
  split at hstep
  · cases hstep
  · obtain ⟨rfl, rfl⟩ := by simpa using hstep
    exact ⟨rfl, rfl⟩
  · rename_i maxLen w hpc
    by_cases hlen : (if s.mReader.calcSize s.memory.mReadIndex w > maxLen then maxLen
        else s.mReader.calcSize s.memory.mReadIndex w) = 0
    · rw [if_pos hlen] at hstep
      obtain ⟨rfl, rfl⟩ := by simpa using hstep
      exact ⟨rfl, rfl⟩
    · rw [if_neg hlen] at hstep
      obtain ⟨rfl, rfl⟩ := by simpa using hstep
      exact ⟨rfl, rfl⟩
  all_goals
    obtain ⟨rfl, rfl⟩ := by simpa using hstep
    exact ⟨rfl, rfl⟩

theorem Consistent.step_read (h : Consistent C acc ret s) {maxLen : ℕ}
    (hstep : SharedRing.machine.step s (.read maxLen) = some (t, es)) :
    t.writerPc = s.writerPc ∧ writes es = [] := by
  simp only [SharedRing.machine, SharedRing.step, h.isReader] at hstep
  split at hstep
  · cases hstep
  · obtain ⟨rfl, rfl⟩ := by simpa using hstep
    exact ⟨rfl, rfl⟩

theorem Consistent.capacity_eq (h : Consistent C acc ret s) (hC : 0 < C) (hC' : C < 4294967296) :
    s.mWriter.capacity s.memory = C - (acc.length - ret.length) - 1 := by
  rw [SPSC.capacity, SPSC.size, h.writeIndex]
  exact h.capacityOf_eq hC hC'

/-- A step inside a call of `write` whose data fits: the call goes on, or it has stored all. -/
theorem Consistent.writerStep_writing (h : Consistent C acc ret s) (hC : 0 < C)
    (hC' : C < 4294967296) (hw : Writing data s.writerPc)
    (hfits : ∀ w, s.writerPc = .sized (.write data) w →
      data = [] ∨ data.length < s.mWriter.capacity s.memory)
    (hstep : s.writerStep = some (t, es)) :
    Writing data t.writerPc ∧ es = [] ∨ t.writerPc = .idle ∧ es = [.wrote data data.length] := by
  have hat := h.writerAt
  unfold SharedRing.writerStep at hstep
  split at hstep
  · cases hstep
  · rename_i call hpc
    rw [hpc] at hw
    obtain ⟨rfl, rfl⟩ := by simpa using hstep
    cases call with
    | write data' => exact .inl ⟨hw, rfl⟩
    | capacity => exact hw.elim
  · rename_i call w hpc
    rw [hpc] at hat hw
    obtain rfl : w = Ring.index C acc.length := hat
    rw [h.capacityOf_eq hC hC', ← h.capacity_eq hC hC'] at hstep
    have hlt : s.mWriter.capacity s.memory < 4294967296 := by
      rw [h.capacity_eq hC hC']
      omega
    cases call with
    | capacity => exact hw.elim
    | write data' =>
      obtain rfl : data' = data := hw
      have hfits' := hfits _ hpc
      simp only at hstep
      split at hstep
      · rename_i havail
        obtain rfl : data' = [] := hfits'.resolve_right (by omega)
        obtain ⟨rfl, rfl⟩ := by simpa using hstep
        exact .inr ⟨rfl, rfl⟩
      · rename_i havail
        have hall : ¬sub32 (s.mWriter.capacity s.memory) 1 < data'.length := by
          rw [sub32_of_le (by omega) hlt]
          rcases hfits' with rfl | hfits'
          · exact Nat.not_lt_zero _
          · omega
        rw [if_neg hall] at hstep
        obtain ⟨rfl, rfl⟩ := by simpa using hstep
        exact .inl ⟨⟨rfl, rfl⟩, rfl⟩
  · rename_i data' n hpc
    rw [hpc] at hw
    obtain ⟨rfl, rfl⟩ := by simpa using hstep
    exact .inl ⟨hw, rfl⟩
  · rename_i data' n off k segs scan index hpc
    rw [hpc] at hw
    obtain ⟨rfl, rfl⟩ := by simpa using hstep
    exact .inl ⟨hw, rfl⟩
  · rename_i data' n scan index hpc
    rw [hpc] at hw
    obtain ⟨rfl, rfl⟩ := hw
    obtain ⟨rfl, rfl⟩ := by simpa using hstep
    exact .inr ⟨rfl, rfl⟩

/-- The call of `write` under way stores all of its data: no step of either process before it
returns changes that. -/
theorem Consistent.step_writing (h : Consistent C acc ret s) (hC : 0 < C) (hC' : C < 4294967296)
    (hw : Writing data s.writerPc) (hfits : data = [] ∨ data.length < s.mWriter.capacity s.memory)
    (hstep : SharedRing.machine.step s i = some (t, es)) :
    Writing data t.writerPc ∧ writes es = [] ∨ writes es = [(data, data.length)] := by
  have hbusy : s.writerPc ≠ .idle := fun hidle => by rw [hidle] at hw; exact hw
  cases i with
  | write data' =>
    simp only [SharedRing.machine, SharedRing.step, if_pos hbusy] at hstep
    cases hstep
  | capacity =>
    simp only [SharedRing.machine, SharedRing.step, if_pos hbusy] at hstep
    cases hstep
  | writer =>
    rcases h.writerStep_writing hC hC' hw (fun _ _ => hfits) hstep with ⟨hw', rfl⟩ | ⟨-, rfl⟩
    · exact .inl ⟨hw', rfl⟩
    · exact .inr rfl
  | read maxLen =>
    obtain ⟨hpc, hno⟩ := h.step_read hstep
    exact .inl ⟨hpc ▸ hw, hno⟩
  | reader =>
    obtain ⟨hpc, hno⟩ := SharedRing.readerStep_frame hstep
    exact .inl ⟨hpc ▸ hw, hno⟩

/-- A call whose data is shorter than the capacity stores all of it. -/
theorem Consistent.storesAll (h : Consistent C acc ret s) (hC : 0 < C) (hC' : C < 4294967296)
    (hfits : data = [] ∨ data.length < s.mWriter.capacity s.memory) : s.StoresAll data := by
  intro u es hcall tr t hrun
  rw [h.capacity_eq hC hC'] at hfits
  obtain ⟨hidle, rfl, rfl⟩ : s.writerPc = .idle ∧
      { s with writerPc := .sizing (.write data) } = u ∧ [] = es := by
    simpa [SharedRing.machine, SharedRing.step, h.isWriter] using hcall
  have hu := h.step hC hC' hcall
  rw [accepted_nil, returned_nil, List.append_nil, List.append_nil] at hu
  refine (hrun.invariant_events (P := fun es t =>
    Consistent C (acc ++ accepted es) (ret ++ returned es) t ∧
      (Writing data t.writerPc ∧ writes es = [] ∨
        (writes es).head? = some (data, data.length))) ⟨by simpa using hu, .inl ⟨rfl, rfl⟩⟩
    ?_).2.elim (fun hw => by simp [hw.2]) fun hw r hr => ?_
  · rintro es t i es' v ⟨ht, hw⟩ hstep -
    have hv := ht.step hC hC' hstep
    rw [List.append_assoc, List.append_assoc, ← accepted_append, ← returned_append] at hv
    refine ⟨hv, ?_⟩
    rcases hw with ⟨hw, hno⟩ | hdone
    · have hroom : data = [] ∨ data.length < t.mWriter.capacity t.memory := by
        refine hfits.imp id fun hlt => ?_
        rw [ht.capacity_eq hC hC', accepted_of_writes hno, List.append_nil, List.length_append]
        omega
      rcases ht.step_writing hC hC' hw hroom hstep with ⟨hw', hno'⟩ | hdone
      · exact .inl ⟨hw', by simp [hno, hno']⟩
      · exact .inr (by simp [hno, hdone])
    · refine .inr ?_
      rw [writes_append, List.head?_append, hdone]
      rfl
  · rw [List.nil_append, hw] at hr
    exact (Option.some.inj hr).symm

/-- A call whose data has exactly the length of the capacity leaves its last byte behind if nothing
is read meanwhile. -/
theorem Consistent.storesAll_iff (h : Consistent C acc ret s) (hC : 0 < C) (hC' : C < 4294967296)
    (hidle : s.writerPc = .idle) (hle : data.length ≤ s.mWriter.capacity s.memory) :
    s.StoresAll data ↔ data = [] ∨ data.length < s.mWriter.capacity s.memory := by
  refine ⟨fun hall => ?_, h.storesAll hC hC'⟩
  by_contra hfull
  rw [not_or, not_lt] at hfull
  have hlt : s.mWriter.capacity s.memory < 4294967296 := by
    rw [h.capacity_eq hC hC']
    omega
  have hpos : 0 < data.length := List.length_pos_iff.mpr hfull.1
  have havail : s.mWriter.capacity s.memory ≠ 0 := by omega
  obtain ⟨u, tr, hcall, hrun, hev⟩ := SharedRing.run_write h.isWriter hidle data
  have hr := hall u [] hcall tr _ hrun (data, (s.mWriter.write s.memory data).1)
    (by rw [hev]; rfl)
  rw [SPSC.write_eq h.isWriter data havail, SPSC.dataLen, sub32_of_le (by omega) hlt,
    if_pos (by omega), Prod.mk.injEq] at hr
  omega

/-! ### The producer of records -/

/-- Where `writeString` is. -/
inductive ProducerPc
  /-- Between two calls. -/
  | idle
  /-- In the call of `capacity`. -/
  | checking (str : Bytes)
  /-- In the call that writes the string. -/
  | writing (str : Bytes)
  /-- In the call that writes CR LF. -/
  | ending (str : Bytes)
  deriving DecidableEq

/-- Whether `writeString` is writing CR LF. -/
def ProducerPc.isEnding : ProducerPc → Bool
  | .ending _ => true
  | _ => false

/-- Whether the writing process is about to load the reader's index. -/
def WriterPc.isSized : WriterPc → Bool
  | .sized .. => true
  | _ => false

/-- `TestSharedMemory`: the ring, where the thread of `writeString` is and how many strings it has
written. The reading process calls `read` on the ring. -/
structure TestSharedMemory where
  /-- `mWriter`, `mReader` and the shared memory. -/
  ring : SharedRing
  /-- Where `writeString` is. -/
  producerPc : ProducerPc := .idle
  /-- `mIndex`. -/
  mIndex : ℕ := 0

/-- The string that ends a record. -/
def crlf : Bytes := [13, 10]

/-- The scheduler of `TestSharedMemory`. -/
inductive TestInput
  | writeString (str : Bytes)
  | writer
  | read (maxLen : ℕ)
  | reader
  deriving DecidableEq

/-- The string of a call of `writeString`. -/
def TestInput.str : TestInput → Bytes
  | .writeString str => str
  | _ => []

namespace TestSharedMemory

/-- What `writeString` does when the call it has made returns with `es`: the next call, if there
is one. -/
def resume (s : TestSharedMemory) (es : List RingEvent) :
    Option (TestSharedMemory × List RingEvent) :=
  match s.producerPc, es with
  | .checking str, [.capacity avail] =>
    if avail ≥ add32 (u32 str.length) 2 then
      (SharedRing.machine.step s.ring (.write str)).map fun r =>
        ({ s with ring := r.1, producerPc := .writing str }, es ++ r.2)
    else some ({ s with producerPc := .idle }, es)
  | .writing str, _ =>
    (SharedRing.machine.step s.ring (.write crlf)).map fun r =>
      ({ s with ring := r.1, producerPc := .ending str }, es ++ r.2)
  | .ending _, _ => some ({ s with producerPc := .idle, mIndex := add32 s.mIndex 1 }, es)
  | _, _ => none

/-- One step of the two processes. -/
def step (s : TestSharedMemory) : TestInput → Option (TestSharedMemory × List RingEvent)
  | .writeString str =>
    if s.producerPc ≠ .idle then none
    else
      (SharedRing.machine.step s.ring .capacity).map fun r =>
        ({ s with ring := r.1, producerPc := .checking str }, r.2)
  | .writer =>
    match SharedRing.machine.step s.ring .writer with
    | none => none
    | some (ring, es) =>
      if ring.writerPc ≠ .idle then some ({ s with ring := ring }, es)
      else resume { s with ring := ring } es
  | .read maxLen =>
    (SharedRing.machine.step s.ring (.read maxLen)).map fun r => ({ s with ring := r.1 }, r.2)
  | .reader =>
    (SharedRing.machine.step s.ring .reader).map fun r => ({ s with ring := r.1 }, r.2)

/-- The producer of records and the reader as a machine. -/
def machine : Machine TestSharedMemory TestInput RingEvent := ⟨step⟩

/-- The start, with a ring of `C` bytes. -/
def start (C : ℕ) (memory : SharedMemory) : TestSharedMemory :=
  { ring := SharedRing.start C memory }

/-- The guard under which the call that writes CR LF does not find room for exactly two bytes when
it loads the reader's index, and strings have a length that fits a 32-bit word with room for two
more bytes. -/
def RoomForEnd (s : TestSharedMemory) (i : TestInput) (_ : List RingEvent) : Prop :=
  (i = .writer → s.producerPc.isEnding = true → s.ring.writerPc.isSized = true →
    s.ring.mWriter.capacity s.ring.memory ≠ 2) ∧ i.str.length + 2 < 4294967296

instance (s : TestSharedMemory) (i : TestInput) (es : List RingEvent) :
    Decidable (RoomForEnd s i es) := inferInstanceAs (Decidable (_ ∧ _))

end TestSharedMemory

/-- Strings, each with its CR LF. -/
def wholeRecords (strs : List Bytes) : Bytes := strs.flatMap (· ++ crlf)

/-- Where the producer is after whole records: the string it is at has room. -/
def AtRecord (C : ℕ) (acc ret : Bytes) (pc : WriterPc) : ProducerPc → Prop
  | .idle => pc = .idle ∧ ∃ strs, acc = wholeRecords strs
  | .checking str => (pc = .sizing .capacity ∨ ∃ w, pc = .sized .capacity w) ∧
      str.length + 2 < 4294967296 ∧ ∃ strs, acc = wholeRecords strs
  | .writing str => Writing str pc ∧ acc.length + str.length + 3 ≤ ret.length + C ∧
      ∃ strs, acc = wholeRecords strs
  | .ending str => Writing crlf pc ∧ acc.length + 3 ≤ ret.length + C ∧
      ∃ strs, acc = wholeRecords strs ++ str

theorem AtRecord.mono_returned {pc : WriterPc} {ppc : ProducerPc} {ret' : Bytes}
    (h : AtRecord C acc ret pc ppc) (hle : ret.length ≤ ret'.length) :
    AtRecord C acc ret' pc ppc := by
  cases ppc with
  | idle => exact h
  | checking str => exact h
  | writing str => exact ⟨h.1, h.2.1.trans (by omega), h.2.2⟩
  | ending str => exact ⟨h.1, h.2.1.trans (by omega), h.2.2⟩

theorem wholeRecords_snoc (strs : List Bytes) (str : Bytes) :
    wholeRecords (strs ++ [str]) = wholeRecords strs ++ str ++ crlf := by
  simp [wholeRecords, List.append_assoc]

/-- A call of `write` by an idle writer. -/
theorem Consistent.step_write (h : Consistent C acc ret s) (hidle : s.writerPc = .idle)
    (data : Bytes) : SharedRing.machine.step s (.write data) =
      some (s.withWriter (.sizing (.write data)), []) := by
  simp [SharedRing.machine, SharedRing.step, hidle, h.isWriter, SharedRing.withWriter]

/-- The last step of a call of `capacity` returns it. -/
theorem Consistent.writerStep_capacity (h : Consistent C acc ret s) (hC : 0 < C)
    (hC' : C < 4294967296) {w : ℕ} (hpc : s.writerPc = .sized .capacity w) :
    s.writerStep = some (s.withWriter .idle, [.capacity (s.mWriter.capacity s.memory)]) := by
  have hat := h.writerAt
  rw [hpc] at hat
  obtain rfl : w = Ring.index C acc.length := hat
  rw [h.capacity_eq hC hC', ← h.capacityOf_eq hC hC']
  simp only [SharedRing.writerStep, hpc, SharedRing.withWriter]

namespace TestSharedMemory

variable {s t : TestSharedMemory} {i : TestInput}

/-- A step of the writing process inside `writeString`. -/
theorem writer_atRecord (h : Consistent C acc ret s.ring) (hC : 0 < C) (hC' : C < 4294967296)
    (hat : AtRecord C acc ret s.ring.writerPc s.producerPc)
    (hstep : machine.step s .writer = some (t, es)) (hguard : RoomForEnd s .writer es) :
    Consistent C (acc ++ accepted es) (ret ++ returned es) t.ring ∧
      AtRecord C (acc ++ accepted es) (ret ++ returned es) t.ring.writerPc t.producerPc := by
  obtain ⟨ring, ppc, mIndex⟩ := s
  simp only [machine, step] at hstep h hat
  cases hring : SharedRing.machine.step ring .writer with
  | none => simp [hring] at hstep
  | some r =>
    obtain ⟨ring', es'⟩ := r
    rw [hring] at hstep
    have hnext := h.step hC hC' hring
    simp only at hstep
    cases ppc with
    | idle =>
      have hidle : ring.writerStep = none := by rw [SharedRing.writerStep, hat.1]
      exact absurd (hidle.symm.trans hring) (by simp)
    | checking str =>
      obtain ⟨hpc, hlen, hwhole⟩ := hat
      rcases hpc with hpc | ⟨w, hpc⟩
      · obtain ⟨rfl, rfl⟩ : ring.withWriter (.sized .capacity ring.memory.mWriteIndex) = ring' ∧
            [] = es' := by
          have hload : ring.writerStep = some
              (ring.withWriter (.sized .capacity ring.memory.mWriteIndex), []) := by
            rw [SharedRing.writerStep, hpc]
            rfl
          simpa using hload.symm.trans hring
        rw [if_pos (by simp [SharedRing.withWriter])] at hstep
        obtain ⟨rfl, rfl⟩ := by simpa using hstep
        exact ⟨hnext, .inr ⟨_, rfl⟩, hlen, by simpa using hwhole⟩
      · have hcap := (h.writerStep_capacity hC hC' hpc).symm.trans hring
        obtain ⟨rfl, rfl⟩ : ring.withWriter .idle = ring' ∧
          [.capacity (ring.mWriter.capacity ring.memory)] = es' := by simpa using hcap
        rw [if_neg (by simp [SharedRing.withWriter])] at hstep
        have hstr : str.length < 4294967296 := by omega
        simp only [resume, u32_of_lt hstr, add32_of_lt hlen] at hstep
        rw [accepted_capacity, returned_capacity, List.append_nil, List.append_nil] at hnext
        split at hstep
        · rename_i havail
          rw [hnext.step_write rfl] at hstep
          obtain ⟨rfl, rfl⟩ := by simpa using hstep
          rw [h.capacity_eq hC hC'] at havail
          have hle := h.returned_le
          refine ⟨by simpa using hnext.step hC hC' (hnext.step_write rfl str), rfl, ?_,
            by simpa using hwhole⟩
          simp only [List.append_nil, accepted_capacity, returned_capacity]
          omega
        · obtain ⟨rfl, rfl⟩ := by simpa using hstep
          exact ⟨by simpa using hnext, rfl, by simpa using hwhole⟩
    | writing str =>
      obtain ⟨hw, hroom, strs, hwhole⟩ := hat
      have hle := h.returned_le
      have hfits : str.length < ring.mWriter.capacity ring.memory := by
        rw [h.capacity_eq hC hC']
        omega
      rcases h.writerStep_writing hC hC' hw (fun _ _ => .inr hfits) hring with
        ⟨hw', rfl⟩ | ⟨hidle, rfl⟩
      · have hbusy : ring'.writerPc ≠ .idle := fun hidle => by rw [hidle] at hw'; exact hw'
        rw [if_pos hbusy] at hstep
        obtain ⟨rfl, rfl⟩ := by simpa using hstep
        exact ⟨hnext, hw', by simpa using hroom, strs, by simpa using hwhole⟩
      · rw [if_neg (by simp [hidle])] at hstep
        rw [accepted_wrote, returned_wrote, List.append_nil, List.take_length] at hnext
        simp only [resume, hnext.step_write hidle] at hstep
        obtain ⟨rfl, rfl⟩ := by simpa using hstep
        refine ⟨by simpa using hnext.step hC hC' (hnext.step_write hidle crlf), rfl, ?_, strs,
          by simp [hwhole]⟩
        simp only [List.append_nil, accepted_wrote, returned_wrote, List.take_length,
          List.length_append]
        omega
    | ending str =>
      obtain ⟨hw, hroom, strs, hwhole⟩ := hat
      have hle := h.returned_le
      have hfits : ∀ w, ring.writerPc = .sized (.write crlf) w →
          crlf = [] ∨ crlf.length < ring.mWriter.capacity ring.memory := by
        intro w hpc
        have hne := hguard.1 rfl rfl (by simp only [hpc]; rfl)
        simp only [h.capacity_eq hC hC'] at hne ⊢
        exact .inr (by simp only [crlf, List.length_cons, List.length_nil]; omega)
      rcases h.writerStep_writing hC hC' hw hfits hring with ⟨hw', rfl⟩ | ⟨hidle, rfl⟩
      · have hbusy : ring'.writerPc ≠ .idle := fun hidle => by rw [hidle] at hw'; exact hw'
        rw [if_pos hbusy] at hstep
        obtain ⟨rfl, rfl⟩ := by simpa using hstep
        exact ⟨hnext, hw', by simpa using hroom, strs, by simpa using hwhole⟩
      · rw [if_neg (by simp [hidle])] at hstep
        simp only [resume] at hstep
        obtain ⟨rfl, rfl⟩ := by simpa using hstep
        refine ⟨hnext, hidle, strs ++ [str], ?_⟩
        rw [accepted_wrote, List.take_length, wholeRecords_snoc, hwhole]

/-- A step of either process. -/
theorem step_atRecord (h : Consistent C acc ret s.ring) (hC : 0 < C) (hC' : C < 4294967296)
    (hat : AtRecord C acc ret s.ring.writerPc s.producerPc)
    (hstep : machine.step s i = some (t, es)) (hguard : RoomForEnd s i es) :
    Consistent C (acc ++ accepted es) (ret ++ returned es) t.ring ∧
      AtRecord C (acc ++ accepted es) (ret ++ returned es) t.ring.writerPc t.producerPc := by
  have hreads : ∀ {ring : SharedRing} {es' : List RingEvent}, writes es' = [] →
      ring.writerPc = s.ring.writerPc →
      AtRecord C (acc ++ accepted es') (ret ++ returned es') ring.writerPc s.producerPc := by
    intro ring es' hno hpc
    rw [accepted_of_writes hno, List.append_nil, hpc]
    exact hat.mono_returned (by simp)
  cases i with
  | writeString str =>
    simp only [machine, step] at hstep
    split at hstep
    · cases hstep
    · rename_i hidle
      rw [not_not.mp hidle] at hat
      obtain ⟨⟨ring, es'⟩, hring, heq⟩ := Option.map_eq_some_iff.mp hstep
      obtain ⟨rfl, rfl⟩ := by simpa using heq
      obtain ⟨rfl, rfl⟩ : s.ring.withWriter (.sizing .capacity) = ring ∧ [] = es' := by
        simpa [SharedRing.machine, SharedRing.step, hat.1, SharedRing.withWriter] using hring
      exact ⟨h.step hC hC' hring, .inl rfl, hguard.2, by simpa using hat.2⟩
  | writer => exact writer_atRecord h hC hC' hat hstep hguard
  | read maxLen =>
    obtain ⟨⟨ring, es'⟩, hring, heq⟩ := Option.map_eq_some_iff.mp hstep
    obtain ⟨rfl, rfl⟩ := by simpa using heq
    obtain ⟨hpc, hno⟩ := h.step_read hring
    exact ⟨h.step hC hC' hring, hreads hno hpc⟩
  | reader =>
    obtain ⟨⟨ring, es'⟩, hring, heq⟩ := Option.map_eq_some_iff.mp hstep
    obtain ⟨rfl, rfl⟩ := by simpa using heq
    obtain ⟨hpc, hno⟩ := SharedRing.readerStep_frame hring
    exact ⟨h.step hC hC' hring, hreads hno hpc⟩

/-- In a run under the guard, what the ring has accepted when `writeString` has returned is whole
records. -/
theorem run_atRecord (hC : 0 < C) (hC' : C < 4294967296) (memory : SharedMemory)
    {tr : List (TestInput × List RingEvent)}
    (hrun : machine.Run RoomForEnd (start C memory) tr t) :
    AtRecord C (accepted (Machine.events tr)) (returned (Machine.events tr)) t.ring.writerPc
      t.producerPc := by
  refine (hrun.invariant_events (P := fun es (t : TestSharedMemory) =>
    Consistent C (accepted es) (returned es) t.ring ∧
      AtRecord C (accepted es) (returned es) t.ring.writerPc t.producerPc)
    ⟨Consistent.start C memory, rfl, [], rfl⟩ ?_).2
  rintro es t i es' u ⟨ht, hat⟩ hstep hguard
  simpa using step_atRecord ht hC hC' hat hstep hguard

/-- `write` takes what `capacity` promises exactly when that is more than the length of the data,
or the data is empty. Records are whole in every run in which the second `write` of a record never
finds room for exactly two bytes. -/
theorem capacity_and_write (hC : 0 < C) (hC' : C < 4294967296) (memory : SharedMemory) :
    (∀ tr s, SharedRing.machine.Run Machine.anyStep (SharedRing.start C memory) tr s →
      s.writerPc = .idle → ∀ data, data.length ≤ s.mWriter.capacity s.memory →
      (s.StoresAll data ↔ data = [] ∨ data.length < s.mWriter.capacity s.memory)) ∧
    ∀ tr s, machine.Run RoomForEnd (start C memory) tr s → s.producerPc = .idle →
      ∃ strs, accepted (Machine.events tr) = wholeRecords strs := by
  refine ⟨fun tr s hrun hidle data hle => ?_, fun tr s hrun hidle => ?_⟩
  · exact ((Consistent.start C memory).run hC hC' hrun).storesAll_iff hC hC' hidle hle
  · have hat := run_atRecord hC hC' memory hrun
    rw [hidle] at hat
    exact hat.2

/-- A ring of sixteen bytes: four bytes are stored whole, and so is a record. -/
theorem capacity_and_write_one :
    (SharedRing.start 16 ⟨0, 0, 0, 0, 0, { addr := 0, size := 16, cell := fun _ => 0 }⟩).StoresAll
      [1, 2, 3, 4] ∧
    ∃ tr s, machine.Run RoomForEnd
        (start 16 ⟨0, 0, 0, 0, 0, { addr := 0, size := 16, cell := fun _ => 0 }⟩) tr s ∧
      accepted (Machine.events tr) = [111, 110, 101, 13, 10] ∧
      ∃ strs, accepted (Machine.events tr) = wholeRecords strs := by
  have h := capacity_and_write (C := 16) (by decide) (by decide)
    ⟨0, 0, 0, 0, 0, { addr := 0, size := 16, cell := fun _ => 0 }⟩
  obtain ⟨tr, s, hrun, hP⟩ := Machine.exists_run_of_exec (G := RoomForEnd) (M := machine)
    (s := start 16 ⟨0, 0, 0, 0, 0, { addr := 0, size := 16, cell := fun _ => 0 }⟩)
    (l := .writeString [111, 110, 101] :: List.replicate 12 .writer)
    (P := fun r => decide (accepted (Machine.events r.2) = [111, 110, 101, 13, 10] ∧
      r.1.producerPc = .idle)) (by decide +kernel)
  obtain ⟨hacc, hidle⟩ := of_decide_eq_true hP
  exact ⟨(h.1 [] _ .nil rfl [1, 2, 3, 4] (by decide)).mpr (.inr (by decide)),
    tr, s, hrun, hacc, h.2 tr s hrun hidle⟩

/-- A ring of six bytes: `capacity()` is five, five bytes are not all stored, and the record of a
string of three bytes loses its LF. -/
theorem capacity_and_write_exact_fit :
    (∃ s, s = SharedRing.start 6 ⟨0, 0, 0, 0, 0, { addr := 0, size := 6, cell := fun _ => 0 }⟩ ∧
      [1, 2, 3, 4, 5].length ≤ s.mWriter.capacity s.memory ∧ ¬s.StoresAll [1, 2, 3, 4, 5]) ∧
    ∃ tr s, machine.Run Machine.anyStep
        (start 6 ⟨0, 0, 0, 0, 0, { addr := 0, size := 6, cell := fun _ => 0 }⟩) tr s ∧
      s.producerPc = .idle ∧ accepted (Machine.events tr) = [111, 110, 101, 13] ∧
      ∀ strs, accepted (Machine.events tr) ≠ wholeRecords strs := by
  obtain ⟨tr, s, hrun, hP⟩ := Machine.exists_run_of_exec (G := Machine.anyStep) (M := machine)
    (s := start 6 ⟨0, 0, 0, 0, 0, { addr := 0, size := 6, cell := fun _ => 0 }⟩)
    (l := .writeString [111, 110, 101] :: List.replicate 12 .writer)
    (P := fun r => decide (accepted (Machine.events r.2) = [111, 110, 101, 13] ∧
      r.1.producerPc = .idle)) (by decide +kernel)
  obtain ⟨hacc, hidle⟩ := of_decide_eq_true hP
  refine ⟨⟨_, rfl, by decide, fun hall => ?_⟩, tr, s, hrun, hidle, hacc, fun strs hwhole => ?_⟩
  · have hfull := ((Consistent.start 6 _).storesAll_iff (by decide) (by decide) rfl
      (by decide)).mp hall
    exact absurd hfull (by decide)
  · rw [hacc] at hwhole
    rcases List.eq_nil_or_concat strs with rfl | ⟨strs, str, rfl⟩
    · cases hwhole
    · -- whole records end in LF
      have hlast := congrArg List.getLast? hwhole
      rw [List.concat_eq_append, wholeRecords_snoc, crlf, List.getLast?_append] at hlast
      simp at hlast

end TestSharedMemory

end WsClient
