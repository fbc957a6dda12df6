import WsClient.RingRuns

/-!
# One call at a time

What the process that makes a call on a ring knows when the call returns: it returns the arguments
that the call was made with, a read no more bytes than were asked for, and a write all of them if
there is room.

## Main definitions

* `WriterPc.call?`, `ReaderPc.maxLen?`: the call that is under way.
* `ReaderPc.Bounded`, `WriterPc.Whole`: a read that stays in its bounds, and a write of all bytes.

## Main results

* `SharedRing.writerStep_call`, `SharedRing.readerStep_call`: an access goes on with the call or
  ends it.
* `Consistent.writerStep_whole`: a write for which there is room.
-/

namespace WsClient

/-- The call of the writing process that is under way. -/
def WriterPc.call? : WriterPc → Option WriterCall
  | .idle => none
  | .sizing call | .sized call _ => some call
  | .locating data _ | .copying data _ _ _ _ => some (.write data)

/-- The number of bytes that the reading process has asked for. -/
def ReaderPc.maxLen? : ReaderPc → Option ℕ
  | .idle => none
  | .sizing maxLen | .sized maxLen _ | .locating maxLen _ | .copying maxLen _ _ _ => some maxLen

@[simp] theorem WriterPc.call?_eq_none {pc : WriterPc} : pc.call? = none ↔ pc = .idle := by
  cases pc <;> simp [WriterPc.call?]

@[simp] theorem ReaderPc.maxLen?_eq_none {pc : ReaderPc} : pc.maxLen? = none ↔ pc = .idle := by
  cases pc <;> simp [ReaderPc.maxLen?]

/-- What has been copied and is still to be copied is not more than was asked for. -/
def ReaderPc.Bounded : ReaderPc → Prop
  | .locating maxLen len => len ≤ maxLen
  | .copying maxLen segs dest _ => dest.length + (segs.map Prod.snd).sum ≤ maxLen
  | _ => True

/-- All bytes are going to be stored. -/
def WriterPc.Whole : WriterPc → Prop
  | .locating data dataLen | .copying data dataLen _ _ _ => dataLen = data.length
  | _ => True

theorem Ring.Covers.sum_eq {C n k : ℕ} {segs : List (ℕ × ℕ)} (h : Ring.Covers C n segs k) :
    (segs.map Prod.snd).sum = k := by
  induction segs generalizing n k with
  | nil => exact Eq.symm h
  | cons seg segs ih =>
    obtain ⟨hle, -, -, hcov⟩ := h
    rw [List.map_cons, List.sum_cons, ih hcov]
    omega

namespace SharedRing

variable {s t : SharedRing} {es : List RingEvent} {data : Bytes} {maxLen : ℕ}

/-- An access of the writing process goes on with its call or ends it. -/
theorem writerStep_call (h : s.writerStep = some (t, es))
    (hcall : s.writerPc.call? = some (.write data)) :
    t.readerPc = s.readerPc ∧
      ((es = [] ∧ t.writerPc.call? = some (.write data)) ∨
        ∃ n, es = [.wrote data n] ∧ t.writerPc = .idle) := by
  unfold writerStep at h
  split at h
  · cases h
  all_goals
    rename_i hpc
    simp only [hpc, WriterPc.call?, Option.some.injEq, WriterCall.write.injEq] at hcall
    subst hcall
  case h_3 =>
    -- `capacity` has been computed
    simp only at h
    split at h
    · obtain ⟨rfl, rfl⟩ := by simpa using h
      exact ⟨rfl, .inr ⟨0, rfl, rfl⟩⟩
    · obtain ⟨rfl, rfl⟩ := by simpa using h
      exact ⟨rfl, .inl ⟨rfl, rfl⟩⟩
  all_goals
    obtain ⟨rfl, rfl⟩ := by simpa using h
    first
      | exact ⟨rfl, .inl ⟨rfl, rfl⟩⟩
      | exact ⟨rfl, .inr ⟨_, rfl, rfl⟩⟩

/-- An access of the reading process goes on with its call or ends it. -/
theorem readerStep_call (h : s.readerStep = some (t, es))
    (hcall : s.readerPc.maxLen? = some maxLen) :
    t.writerPc = s.writerPc ∧
      ((es = [] ∧ t.readerPc.maxLen? = some maxLen) ∨
        ∃ dest, es = [.read maxLen dest] ∧ t.readerPc = .idle) := by
  unfold readerStep at h
  split at h
  · cases h
  all_goals
    rename_i hpc
    simp only [hpc, ReaderPc.maxLen?, Option.some.injEq] at hcall
    subst hcall
  case h_3 =>
    -- `size` has been computed
    simp only at h
    generalize (if s.mReader.calcSize _ _ > _ then _ else _) = len at h
    split at h
    · obtain ⟨rfl, rfl⟩ := by simpa using h
      exact ⟨rfl, .inr ⟨[], rfl, rfl⟩⟩
    · obtain ⟨rfl, rfl⟩ := by simpa using h
      exact ⟨rfl, .inl ⟨rfl, rfl⟩⟩
  all_goals
    obtain ⟨rfl, rfl⟩ := by simpa using h
    first
      | exact ⟨rfl, .inl ⟨rfl, rfl⟩⟩
      | exact ⟨rfl, .inr ⟨_, rfl, rfl⟩⟩

end SharedRing

/-! ### Calls on a consistent ring -/

namespace Consistent

variable {C n maxLen : ℕ} {acc ret data : Bytes} {s t : SharedRing} {es : List RingEvent}

/-- An access of a process that writes. -/
theorem writer_access (h : Consistent C acc ret s) (hC : 0 < C) (hC' : C < 4294967296)
    (hstep : s.writerStep = some (t, es)) (hcall : s.writerPc.call? = some (.write data)) :
    t.readerPc = s.readerPc ∧
      ((es = [] ∧ t.writerPc.call? = some (.write data) ∧ Consistent C acc ret t) ∨
        ∃ n ≤ data.length, es = [.wrote data n] ∧ t.writerPc = .idle ∧
          Consistent C (acc ++ data.take n) ret t) := by
  have hnext := h.writerStep hC hC' hstep
  obtain ⟨hreader, ⟨rfl, hcall'⟩ | ⟨n, rfl, hidle⟩⟩ := SharedRing.writerStep_call hstep hcall
  · exact ⟨hreader, .inl ⟨rfl, hcall', by simpa using hnext⟩⟩
  · refine ⟨hreader, .inr ⟨n, ?_, rfl, hidle, by simpa using hnext⟩⟩
    have hat := h.writerAt
    unfold SharedRing.writerStep at hstep
    split at hstep
    · cases hstep
    · simp at hstep
    · rename_i call w hpc
      rw [hpc] at hcall
      obtain rfl := Option.some.inj hcall
      simp only at hstep
      split_ifs at hstep <;> simp at hstep
      omega
    · simp at hstep
    · simp at hstep
    · rename_i hpc
      obtain ⟨-, rfl, rfl⟩ := by simpa using hstep
      rw [hpc] at hat
      exact hat.1

/-- A write for which there is room stores all bytes. -/
theorem writerStep_whole (h : Consistent C acc ret s) (hC : 0 < C) (hC' : C < 4294967296)
    (hstep : s.writerStep = some (t, es)) (hcall : s.writerPc.call? = some (.write data))
    (hroom : acc.length + data.length + 2 ≤ C) (hwhole : s.writerPc.Whole) :
    t.writerPc.Whole ∧ ∀ n, es = [.wrote data n] → n = data.length := by
  have hle := h.returned_le
  unfold SharedRing.writerStep at hstep
  split at hstep
  · cases hstep
  all_goals
    rename_i hpc
    simp only [hpc, WriterPc.call?, Option.some.injEq, WriterCall.write.injEq] at hcall
    subst hcall
  · obtain ⟨rfl, rfl⟩ := by simpa using hstep
    exact ⟨trivial, by simp⟩
  · rename_i w
    have hat := h.writerAt
    rw [hpc] at hat
    obtain rfl : w = Ring.index C acc.length := hat
    rw [h.capacityOf_eq hC hC'] at hstep
    simp only at hstep
    rw [if_neg (by omega), sub32_of_le (by omega) (by omega), if_neg (by omega)] at hstep
    obtain ⟨rfl, rfl⟩ := by simpa using hstep
    exact ⟨rfl, by simp⟩
  · obtain ⟨rfl, rfl⟩ := by simpa using hstep
    rw [hpc] at hwhole
    exact ⟨hwhole, by simp⟩
  · obtain ⟨rfl, rfl⟩ := by simpa using hstep
    rw [hpc] at hwhole
    exact ⟨hwhole, by simp⟩
  · obtain ⟨rfl, rfl⟩ := by simpa using hstep
    rw [hpc] at hwhole
    exact ⟨trivial, by simpa using show _ = _ from hwhole⟩

/-- An access of a process that reads. -/
theorem reader_access (h : Consistent C acc ret s) (hC : 0 < C) (hC' : C < 4294967296)
    (hstep : s.readerStep = some (t, es)) (hcall : s.readerPc.maxLen? = some maxLen)
    (hbound : s.readerPc.Bounded) :
    t.writerPc = s.writerPc ∧
      ((es = [] ∧ t.readerPc.maxLen? = some maxLen ∧ t.readerPc.Bounded ∧ Consistent C acc ret t) ∨
        ∃ dest, es = [.read maxLen dest] ∧ t.readerPc = .idle ∧ dest.length ≤ maxLen ∧
          Consistent C acc (ret ++ dest) t) := by
  have hnext := h.readerStep hC hC' hstep
  obtain ⟨hwriter, hends⟩ := SharedRing.readerStep_call hstep hcall
  have hkeep : t.readerPc.Bounded ∧ ∀ dest, es = [.read maxLen dest] → dest.length ≤ maxLen := by
    unfold SharedRing.readerStep at hstep
    split at hstep
    · cases hstep
    all_goals
      rename_i hpc
      rw [hpc] at hbound
      simp only [hpc, ReaderPc.maxLen?, Option.some.injEq] at hcall
      subst hcall
    · obtain ⟨rfl, rfl⟩ := by simpa using hstep
      exact ⟨trivial, by simp⟩
    · rename_i w
      simp only at hstep
      generalize hlen : (if s.mReader.calcSize _ _ > _ then _ else _) = len at hstep
      split at hstep
      · obtain ⟨rfl, rfl⟩ := by simpa using hstep
        exact ⟨trivial, by simp⟩
      · obtain ⟨rfl, rfl⟩ := by simpa using hstep
        refine ⟨?_, by simp⟩
        change len ≤ _
        rw [← hlen]
        split <;> omega
    · rename_i len
      have hat := h.readerAt
      have hroom := h.room
      have hcap := h.readerCapacity
      have hindex := h.readIndex_le hC
      rw [hpc] at hat
      obtain ⟨hpos, hle⟩ := hat
      obtain ⟨rfl, rfl⟩ := by simpa using hstep
      subst hcap
      refine ⟨?_, by simp⟩
      have hsum := (Ring.covers_segments hC (show len ≤ _ by omega) ret.length).sum_eq
      rw [← h.readIndex, ← SPSC.segments_eq hC' hindex (by omega)] at hsum
      simpa [ReaderPc.Bounded, hsum] using hbound
    · obtain ⟨rfl, rfl⟩ := by simpa using hstep
      refine ⟨?_, by simp⟩
      simpa [ReaderPc.Bounded, Block.length_read, Nat.add_assoc] using hbound
    · obtain ⟨rfl, rfl⟩ := by simpa using hstep
      exact ⟨trivial, by simpa [ReaderPc.Bounded] using hbound⟩
  obtain ⟨rfl, hcall'⟩ | ⟨dest, rfl, hidle⟩ := hends
  · exact ⟨hwriter, .inl ⟨rfl, hcall', hkeep.1, by simpa using hnext⟩⟩
  · exact ⟨hwriter, .inr ⟨dest, rfl, hidle, hkeep.2 dest rfl, by simpa using hnext⟩⟩

end Consistent

end WsClient
