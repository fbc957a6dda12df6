import WsClient.BufferQueue

/-!
# How the buffer grows

`growBuffer` moves the content to the front if the request is shorter than the consumed part, and
otherwise allocates a block of twice the size, or larger by the request if that is not enough. Two
things go wrong. A request that would fit below the limit is refused when the consumed part is too
short for it and the doubled block is too large. And the content is moved by a `memcpy` within one
block although the consumed part was compared with the request, not with the content.

A call of `addBuffer` without data is one with the data that is in the block already
(`SimpleBuffer.addBuffer_none`), so the sequences of calls are those of `bufferMachine`.

## Main definitions

* `SimpleBuffer.growCopies`, `SimpleBuffer.callCopies`: the calls of `memcpy`.

## Main results

* `growth_limit`: when the limit is the only reason to refuse a request.
* `copies_disjoint`: when the ranges of every `memcpy` are disjoint.
-/

namespace WsClient

namespace SimpleBuffer

variable {b : SimpleBuffer} {n : ℕ}

/-- Advancing the end location is appending what is there. -/
theorem addBuffer_none (b : SimpleBuffer) (n : ℕ) :
    b.addBuffer none n =
      b.addBuffer (some ((b.ensure n).mBuffer.read (b.ensure n).mEndLoc n)) n := by
  have hwrite (m : Block UInt8) (off : ℕ) : m.write off ((m.read off n).take n) = m := by
    rw [Block.take_read _ _ le_rfl]
    ext i
    · rfl
    · rfl
    · by_cases hlo : off ≤ i
      · obtain ⟨k, rfl⟩ := Nat.exists_eq_add_of_le hlo
        by_cases hk : k < n
        · rw [Block.cell_write_add _ (by rwa [Block.length_read]), Block.getElem_read]
        · rw [Block.cell_write_of_ge _ (by rw [Block.length_read]; omega)]
      · rw [Block.cell_write_of_lt _ _ (by omega)]
  simp only [addBuffer, hwrite]

/-- Whether a request is granted does not depend on the data. -/
theorem addBuffer_flag (h : b.WF) (hn : n ≤ 2 ^ 29) (data : Option Bytes) :
    (b.addBuffer data n).2 = decide (b.Accepts n) := by
  have hw := h.noWrap hn
  obtain ⟨hwf, -⟩ := ensure_of_noWrap h (by omega) hw
  have hroom := room_ensure_iff h (by omega) hw
  simp only [addBuffer, hwf.available_eq]
  by_cases ha : b.Accepts n
  · rw [if_pos (hroom.mpr ha), decide_eq_true ha]
  · rw [if_neg (mt hroom.mp ha), decide_eq_false ha]

/-! ### Copies -/

/-- The calls of `memcpy` in `growBuffer`. -/
def growCopies (b : SimpleBuffer) (dataLen : ℕ) : List (Block.Copy UInt8) :=
  let emptySize := b.mStartLoc
  if dataLen < emptySize then
    let keepSize := b.getSize
    if keepSize ≠ 0 then [⟨b.mBuffer, 0, b.mBuffer, b.mStartLoc, keepSize⟩] else []
  else
    let doubled := mul32 b.mMaxLen 2
    let available := sub32 doubled b.mEndLoc
    let newMaxLen := if available < dataLen then add32 doubled dataLen else doubled
    if newMaxLen > b.mMaxGrowSize then []
    else
      let newBuffer := (Block.malloc b.heap newMaxLen).1
      let bufferSize := b.getSize
      if bufferSize ≠ 0 then [⟨newBuffer, 0, b.mBuffer, b.mStartLoc, bufferSize⟩] else []

/-- The block that the buffer goes on with is the result of the copy. -/
theorem mBuffer_growBuffer {c : Block.Copy UInt8} (h : c ∈ b.growCopies n) :
    (b.growBuffer n).1.mBuffer = c.result := by
  unfold growCopies at h
  simp only at h
  unfold growBuffer
  by_cases hc : n < b.mStartLoc
  · rw [if_pos hc] at h ⊢
    split_ifs at h with hsize
    · obtain rfl := List.mem_singleton.mp h
      simp only [if_pos hsize, Block.Copy.result]
    · cases h
  · rw [if_neg hc] at h ⊢
    simp only
    generalize (if sub32 (mul32 b.mMaxLen 2) b.mEndLoc < n then add32 (mul32 b.mMaxLen 2) n
      else mul32 b.mMaxLen 2) = newMaxLen at h ⊢
    split_ifs at h with hlim hsize
    · cases h
    · obtain rfl := List.mem_singleton.mp h
      rw [if_neg hlim]
      simp only [if_pos hsize, Block.Copy.result]
    · cases h

/-- Nothing is copied only if nothing is held or the request is refused. -/
theorem growCopies_eq_nil_iff :
    b.growCopies n = [] ↔ b.getSize = 0 ∨ (b.growBuffer n).2 = false := by
  unfold growCopies growBuffer
  simp only
  generalize (if sub32 (mul32 b.mMaxLen 2) b.mEndLoc < n then add32 (mul32 b.mMaxLen 2) n
    else mul32 b.mMaxLen 2) = newMaxLen
  by_cases hsize : b.getSize = 0 <;> split_ifs <;> simp_all

/-- The calls of `memcpy` that `addBuffer` and `confirmCapacity` make through `growBuffer`. -/
def callCopies (b : SimpleBuffer) (dataLen : ℕ) : List (Block.Copy UInt8) :=
  if dataLen > sub32 b.mMaxLen b.mEndLoc then b.growCopies dataLen else []

/-- The copies of a request that does not wrap around: within the block, or to a larger one. -/
theorem mem_callCopies {c : Block.Copy UInt8} (h : b.WF) (hn : n ≤ 2 ^ 29) :
    c ∈ b.callCopies n ↔ b.mMaxLen - b.mEndLoc < n ∧ b.getSize ≠ 0 ∧
      (n < b.mStartLoc ∧ c = ⟨b.mBuffer, 0, b.mBuffer, b.mStartLoc, b.getSize⟩ ∨
        b.mStartLoc ≤ n ∧ b.extent.grown n ≤ b.mMaxGrowSize ∧
          c = ⟨(Block.malloc b.heap (b.extent.grown n)).1, 0, b.mBuffer, b.mStartLoc,
            b.getSize⟩) := by
  have havailable := h.available_eq
  obtain ⟨hse, hem, hmg, hg, -⟩ := h
  have hdouble : mul32 b.mMaxLen 2 = b.mMaxLen * 2 := mul32_of_lt (by omega)
  have havail : sub32 (b.mMaxLen * 2) b.mEndLoc = b.mMaxLen * 2 - b.mEndLoc :=
    sub32_of_le (by omega) (by omega)
  have hadd : add32 (b.mMaxLen * 2) n = b.mMaxLen * 2 + n := add32_of_lt (by omega)
  have hgrown : (if b.mMaxLen * 2 - b.mEndLoc < n then b.mMaxLen * 2 + n else b.mMaxLen * 2) =
      b.extent.grown n := rfl
  rw [callCopies, havailable, growCopies]
  simp only [hdouble, havail, hadd, hgrown]
  by_cases hroom : b.mMaxLen - b.mEndLoc < n
  · by_cases hc : n < b.mStartLoc <;> by_cases hsize : b.getSize = 0 <;>
      by_cases hlim : b.extent.grown n ≤ b.mMaxGrowSize <;>
      (simp [hroom, hc, hsize, hlim]; try omega)
  · simp [hroom]

/-- Content that is longer than the consumed part overlaps the place it is moved to. -/
theorem exists_overlap (h : b.WF) (hn : n ≤ 2 ^ 29) (hroom : b.mMaxLen - b.mEndLoc < n)
    (hstart : n < b.mStartLoc) (hkeep : b.mStartLoc < b.getSize) :
    ∃ c ∈ b.callCopies n, ¬c.Disjoint :=
  ⟨⟨b.mBuffer, 0, b.mBuffer, b.mStartLoc, b.getSize⟩,
    (mem_callCopies h hn).mpr ⟨hroom, Nat.ne_of_gt (Nat.zero_lt_of_lt hkeep), .inl ⟨hstart, rfl⟩⟩,
    mt Block.Copy.disjoint_toFront_iff.mp (Nat.not_le_of_gt hkeep)⟩

end SimpleBuffer

open SimpleBuffer

variable {heap : ℕ → Block UInt8} {defaultLen maxGrowSize : ℕ} {b : SimpleBuffer}
  {tr : List (BufferCall × List BufferEvent)}

theorem run_buffer_wf (hmax : (create heap defaultLen maxGrowSize).getMaxGrowSize ≤ 2 ^ 29)
    (h : bufferMachine.Run (fun b c es => c.NoWrap b es) (create heap defaultLen maxGrowSize)
      tr b) :
    b.WF := by
  rw [getMaxGrowSize, mMaxGrowSize_create, max_le_iff] at hmax
  exact (BufferInv.run (fun _ _ _ _ => id) (.of_create heap hmax.1 hmax.2) h).wf

/-! ### The limit -/

/-- In every state that a sequence of calls without a wrapped request leads to, the limit alone
decides about a request if and only if the request is beyond the limit, or fits behind the content,
or is shorter than the consumed part, or the larger block is within the limit. -/
theorem growth_limit (hmax : (create heap defaultLen maxGrowSize).getMaxGrowSize ≤ 2 ^ 29)
    (h : bufferMachine.Run (fun b c es => c.NoWrap b es) (create heap defaultLen maxGrowSize) tr b)
    (data : Option Bytes) (dataLen : ℕ) (hlen : dataLen ≤ 2 ^ 29) :
    ((b.addBuffer data dataLen).2 = true ↔ b.getSize + dataLen ≤ b.getMaxGrowSize) ↔
      b.getMaxGrowSize < b.getSize + dataLen ∨ dataLen ≤ b.mMaxLen - b.mEndLoc ∨
        dataLen < b.mStartLoc ∨ b.extent.grown dataLen ≤ b.mMaxGrowSize := by
  have hwf := run_buffer_wf hmax h
  have hfits := hwf.le_of_accepts (n := dataLen)
  have haccepts : b.Accepts dataLen ↔ dataLen ≤ b.mMaxLen - b.mEndLoc ∨ dataLen < b.mStartLoc ∨
      b.extent.grown dataLen ≤ b.mMaxGrowSize := Iff.rfl
  rw [addBuffer_flag hwf hlen, decide_eq_true_eq, ← haccepts]
  unfold getMaxGrowSize
  constructor
  · intro hiff
    by_cases hle : b.getSize + dataLen ≤ b.mMaxGrowSize
    · exact .inr (hiff.mpr hle)
    · exact .inl (Nat.lt_of_not_le hle)
  · rintro (hgt | ha)
    · exact ⟨hfits, fun hle => absurd hle (Nat.not_le_of_gt hgt)⟩
    · exact ⟨hfits, fun _ => ha⟩

/-- A request that the doubled block has room for. -/
theorem growth_limit_small :
    ∃ tr b, bufferMachine.Run (fun b c es => c.NoWrap b es)
      (create (fun _ => ⟨0, 0, fun _ => 0⟩) 4 8) tr b ∧ b.getSize = 3 ∧
      (((b.addBuffer (some [4, 5, 6]) 3).2 = true ↔ b.getSize + 3 ≤ b.getMaxGrowSize) ↔
        b.getMaxGrowSize < b.getSize + 3 ∨ 3 ≤ b.mMaxLen - b.mEndLoc ∨ 3 < b.mStartLoc ∨
          b.extent.grown 3 ≤ b.mMaxGrowSize) := by
  obtain ⟨tr, b, hrun, hsize⟩ := Machine.exists_run_of_exec (M := bufferMachine)
    (G := fun b c es => c.NoWrap b es) (s := create (fun _ => ⟨0, 0, fun _ => 0⟩) 4 8)
    (l := [.addBuffer [1, 2, 3]]) (P := fun r => r.1.getSize == 3) (by decide +kernel)
  exact ⟨tr, b, hrun, beq_iff_eq.mp hsize, growth_limit (by decide) hrun _ 3 (by decide)⟩

/-- A buffer of ten bytes that holds five behind five consumed ones has no room for five more. -/
theorem growth_limit_refusal :
    ¬∀ (heap : ℕ → Block UInt8) (defaultLen maxGrowSize : ℕ)
      (tr : List (BufferCall × List BufferEvent)) (b : SimpleBuffer) (data : Option Bytes)
      (dataLen : ℕ), (create heap defaultLen maxGrowSize).getMaxGrowSize ≤ 2 ^ 29 →
        bufferMachine.Run (fun b c es => c.NoWrap b es) (create heap defaultLen maxGrowSize) tr b →
        dataLen ≤ 2 ^ 29 →
          ((b.addBuffer data dataLen).2 = true ↔ b.getSize + dataLen ≤ b.getMaxGrowSize) := by
  intro h
  obtain ⟨tr, b, hrun, hP⟩ := Machine.exists_run_of_exec (M := bufferMachine)
    (G := fun b c es => c.NoWrap b es) (s := create (fun _ => ⟨0, 0, fun _ => 0⟩) 10 10)
    (l := [.addBuffer [0, 1, 2, 3, 4, 5, 6, 7, 8, 9], .consume 5])
    (P := fun r => decide ((r.1.addBuffer (some [10, 11, 12, 13, 14]) 5).2 = false ∧
      r.1.getSize + 5 ≤ r.1.getMaxGrowSize)) (by decide +kernel)
  obtain ⟨hrefused, hfits⟩ := of_decide_eq_true hP
  have hok := (h _ 10 10 tr b (some [10, 11, 12, 13, 14]) 5 (by decide) hrun (by decide)).mpr hfits
  simp [hrefused] at hok

/-! ### Copies -/

/-- In every state that a sequence of calls without a wrapped request leads to, the ranges of every
`memcpy` that a request makes are inside their blocks and disjoint if and only if the content is not
moved within its block, or is not longer than the consumed part. A new block does not overlap the
block in use, as `malloc` has it. -/
theorem copies_disjoint (hmax : (create heap defaultLen maxGrowSize).getMaxGrowSize ≤ 2 ^ 29)
    (h : bufferMachine.Run (fun b c es => c.NoWrap b es) (create heap defaultLen maxGrowSize) tr b)
    {dataLen : ℕ} (hlen : dataLen ≤ 2 ^ 29)
    (hmalloc : (Block.malloc b.heap (b.extent.grown dataLen)).1.Apart b.mBuffer) :
    (∀ c ∈ b.callCopies dataLen, c.InBounds ∧ c.Disjoint) ↔
      dataLen ≤ b.mMaxLen - b.mEndLoc ∨ b.mStartLoc ≤ dataLen ∨ b.getSize ≤ b.mStartLoc := by
  have hwf := run_buffer_wf hmax h
  have hsize := hwf.getSize_eq
  obtain ⟨hse, hem, -, -, hbs⟩ := id hwf
  constructor
  · intro hall
    by_contra hno
    rw [not_or, not_or, not_le, not_le, not_le] at hno
    obtain ⟨c, hc, hoverlap⟩ := exists_overlap hwf hlen hno.1 hno.2.1 hno.2.2
    exact hoverlap (hall c hc).2
  · intro hcond c hc
    obtain ⟨hroom, hne, ⟨hstart, rfl⟩ | ⟨hstart, -, rfl⟩⟩ := (mem_callCopies hwf hlen).mp hc
    · have hkeep : b.getSize ≤ b.mStartLoc := by omega
      have hin : Block.Copy.InBounds ⟨b.mBuffer, 0, b.mBuffer, b.mStartLoc, b.getSize⟩ :=
        ⟨by simp only; omega, by simp only; omega⟩
      exact ⟨hin, Block.Copy.disjoint_toFront_iff.mpr hkeep⟩
    · have hgrown : b.mMaxLen ≤ b.extent.grown dataLen := by
        unfold Extent.grown
        split <;> simp only [extent] <;> omega
      have hin : Block.Copy.InBounds ⟨(Block.malloc b.heap (b.extent.grown dataLen)).1, 0,
          b.mBuffer, b.mStartLoc, b.getSize⟩ :=
        ⟨by simp only [Block.malloc]; omega, by simp only; omega⟩
      exact ⟨hin, Block.Copy.disjoint_of_apart hmalloc hin⟩

/-- A supply of blocks that are a thousand bytes apart. -/
def spacedHeap (k : ℕ) : Block UInt8 := ⟨1000 * (k + 1), 0, fun _ => 0⟩

/-- Six bytes are copied to a larger block. -/
theorem copies_disjoint_larger :
    ∃ tr b, bufferMachine.Run (fun b c es => c.NoWrap b es) (create spacedHeap 8 16) tr b ∧
      b.growCopies 4 ≠ [] ∧ ((∀ c ∈ b.callCopies 4, c.InBounds ∧ c.Disjoint) ↔
        4 ≤ b.mMaxLen - b.mEndLoc ∨ b.mStartLoc ≤ 4 ∨ b.getSize ≤ b.mStartLoc) := by
  obtain ⟨tr, b, hrun, hP⟩ := Machine.exists_run_of_exec (M := bufferMachine)
    (G := fun b c es => c.NoWrap b es) (s := create spacedHeap 8 16)
    (l := [.addBuffer [1, 2, 3, 4, 5, 6]])
    (P := fun r => decide ((r.1.growCopies 4).length = 1 ∧
      (Block.malloc r.1.heap (r.1.extent.grown 4)).1.Apart r.1.mBuffer)) (by decide +kernel)
  obtain ⟨hcopies, hmalloc⟩ := of_decide_eq_true hP
  refine ⟨tr, b, hrun, fun hnil => ?_, copies_disjoint (by decide) hrun (by decide) hmalloc⟩
  simp [hnil] at hcopies

/-- Five bytes that are kept behind three consumed ones are moved onto themselves. -/
theorem copies_overlap :
    ¬∀ (heap : ℕ → Block UInt8) (defaultLen maxGrowSize : ℕ)
      (tr : List (BufferCall × List BufferEvent)) (b : SimpleBuffer) (dataLen : ℕ),
      (create heap defaultLen maxGrowSize).getMaxGrowSize ≤ 2 ^ 29 →
        bufferMachine.Run (fun b c es => c.NoWrap b es) (create heap defaultLen maxGrowSize) tr b →
        dataLen ≤ 2 ^ 29 →
        (Block.malloc b.heap (b.extent.grown dataLen)).1.Apart b.mBuffer →
          ∀ c ∈ b.callCopies dataLen, c.InBounds ∧ c.Disjoint := by
  intro h
  obtain ⟨tr, b, hrun, hP⟩ := Machine.exists_run_of_exec (M := bufferMachine)
    (G := fun b c es => c.NoWrap b es) (s := create spacedHeap 8 16)
    (l := [.addBuffer [1, 2, 3, 4, 5, 6, 7, 8], .consume 3])
    (P := fun r => decide (r.1.mMaxLen - r.1.mEndLoc < 2 ∧ 2 < r.1.mStartLoc ∧
      r.1.mStartLoc < r.1.getSize ∧
      (Block.malloc r.1.heap (r.1.extent.grown 2)).1.Apart r.1.mBuffer)) (by decide +kernel)
  obtain ⟨hroom, hstart, hkeep, hmalloc⟩ := of_decide_eq_true hP
  have hmax : (create spacedHeap 8 16).getMaxGrowSize ≤ 2 ^ 29 := by decide
  obtain ⟨c, hc, hoverlap⟩ :=
    exists_overlap (run_buffer_wf hmax hrun) (by decide) hroom hstart hkeep
  exact hoverlap (h _ 8 16 tr b 2 hmax hrun (by decide) hmalloc c hc).2

end WsClient
