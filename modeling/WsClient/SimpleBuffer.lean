import Mathlib.Data.List.TakeDrop
import WsClient.FastXOR

/-!
# The growable byte buffer

`SimpleBuffer` is a byte queue in one block of memory: bytes are appended at `mEndLoc`, consumed
at `mStartLoc`, and the block is compacted or reallocated when the tail is too short. All cursors
are 32-bit words. `memcpy` is taken to copy as if through a temporary.

The operations are those of `SimpleBuffer.cpp`. `SimpleBuffer.WF` is the relation between the
cursors that every operation keeps as long as requests are at most `2 ^ 29`; under it the buffer is
described by the byte list `getData` alone.

## Main definitions

* `SimpleBuffer` and its operations `create`, `getData`, `addBuffer`, `growBuffer`, `consume`,
  `confirmCapacity`, `clear`.
* `SimpleBuffer.xorData`: `fastXOR` applied to a range of the data.
* `SimpleBuffer.Ordered`, `SimpleBuffer.WF`: the cursors are ordered; they are also bounded.
* `SimpleBuffer.Safe`: the condition on a request under which no 32-bit sum wraps.

## Main results

* `SimpleBuffer.growBuffer_spec`, `SimpleBuffer.addBuffer_spec`, `SimpleBuffer.consume_spec`,
  `SimpleBuffer.confirmCapacity_spec`: what the operations do to the byte list.
* `SimpleBuffer.receiveInto_spec`: reserving room, writing into it and advancing over it appends.
-/

namespace WsClient

/-- Conversion to `uint32_t`. -/
def u32 (n : ℕ) : ℕ := Word.wrap 4294967296 n

/-- Addition of `uint32_t`. -/
def add32 (a b : ℕ) : ℕ := Word.add 4294967296 a b

/-- Subtraction of `uint32_t`. -/
def sub32 (a b : ℕ) : ℕ := Word.sub 4294967296 a b

/-- Multiplication of `uint32_t`. -/
def mul32 (a b : ℕ) : ℕ := Word.mul 4294967296 a b

theorem u32_of_lt {a : ℕ} (h : a < 4294967296) : u32 a = a := Word.wrap_of_lt h

theorem add32_of_lt {a b : ℕ} (h : a + b < 4294967296) : add32 a b = a + b := Word.add_of_lt h

theorem add32_of_ge {a b : ℕ} (h : 4294967296 ≤ a + b) (h' : a + b < 2 * 4294967296) :
    add32 a b = a + b - 4294967296 := Word.add_of_ge h h'

theorem mul32_of_lt {a b : ℕ} (h : a * b < 4294967296) : mul32 a b = a * b := Word.mul_of_lt h

theorem sub32_of_le {a b : ℕ} (hb : b ≤ a) (ha : a < 4294967296) : sub32 a b = a - b :=
  Word.sub_of_le hb ha

theorem sub32_zero {a : ℕ} (h : a < 4294967296) : sub32 a 0 = a := Word.sub_zero h

/-- The fields of `SimpleBufferImpl`, with the blocks that `malloc` will return to it. -/
structure SimpleBuffer where
  /-- The block that holds the bytes. -/
  mBuffer : Block UInt8
  /-- Current start location of the buffer. -/
  mStartLoc : ℕ
  /-- Current end location of the buffer. -/
  mEndLoc : ℕ
  /-- Maximum size of the buffer. -/
  mMaxLen : ℕ
  /-- The size beyond which the buffer does not grow. -/
  mMaxGrowSize : ℕ
  /-- The size the buffer was created with. -/
  mDefaultSize : ℕ
  /-- The supply of blocks of `malloc`. -/
  heap : ℕ → Block UInt8

namespace SimpleBuffer

/-! ### The operations of the source -/

/-- Drop the content and go back to a block of `defaultSize` bytes. -/
def reset (b : SimpleBuffer) (defaultSize : ℕ) : SimpleBuffer :=
  let b := { b with
    mBuffer := ⟨0, 0, fun _ => 0⟩, mStartLoc := 0, mEndLoc := 0,
    mDefaultSize := defaultSize, mMaxLen := defaultSize }
  if b.mMaxLen ≠ 0 then
    { b with
      mBuffer := (Block.malloc b.heap defaultSize).1
      heap := (Block.malloc b.heap defaultSize).2 }
  else b

/-- A new buffer, with the blocks `malloc` will return to it. -/
def create (heap : ℕ → Block UInt8) (defaultLen maxGrowSize : ℕ) : SimpleBuffer :=
  reset
    { mBuffer := ⟨0, 0, fun _ => 0⟩, mStartLoc := 0, mEndLoc := 0, mMaxLen := 0,
      mMaxGrowSize := if defaultLen > maxGrowSize then defaultLen else maxGrowSize,
      mDefaultSize := 1024, heap := heap } defaultLen

/-- The number of bytes in the buffer. -/
def getSize (b : SimpleBuffer) : ℕ := sub32 b.mEndLoc b.mStartLoc

/-- The byte at index `i` from the pointer that `getData` returns. -/
def byteAt (b : SimpleBuffer) (i : ℕ) : UInt8 := b.mBuffer.cell (b.mStartLoc + i)

/-- The bytes that `getData` shows: `getSize` bytes from the start location on. -/
def getData (b : SimpleBuffer) : Bytes := b.mBuffer.read b.mStartLoc b.getSize

/-- The size of the block in use. -/
def getMaxBufferSize (b : SimpleBuffer) : ℕ := b.mMaxLen

/-- The size beyond which the buffer does not grow. -/
def getMaxGrowSize (b : SimpleBuffer) : ℕ := b.mMaxGrowSize

/-- Clear the content. -/
def clear (b : SimpleBuffer) : SimpleBuffer := { b with mStartLoc := 0, mEndLoc := 0 }

/-- Make room for `dataLen` more bytes: move the content to the front if the consumed part is
large enough, else reallocate, unless that would go beyond the maximum size. -/
def growBuffer (b : SimpleBuffer) (dataLen : ℕ) : SimpleBuffer × Bool :=
  let emptySize := b.mStartLoc
  if dataLen < emptySize then
    let keepSize := b.getSize
    let block :=
      if keepSize ≠ 0 then b.mBuffer.write 0 (b.mBuffer.read b.mStartLoc keepSize) else b.mBuffer
    ({ b with mBuffer := block, mStartLoc := 0, mEndLoc := keepSize }, true)
  else
    let doubled := mul32 b.mMaxLen 2
    let available := sub32 doubled b.mEndLoc
    let newMaxLen := if available < dataLen then add32 doubled dataLen else doubled
    if newMaxLen > b.mMaxGrowSize then (b, false)
    else
      let (newBuffer, heap) := Block.malloc b.heap newMaxLen
      let bufferSize := b.getSize
      let newBuffer :=
        if bufferSize ≠ 0 then newBuffer.write 0 (b.mBuffer.read b.mStartLoc bufferSize)
        else newBuffer
      ({ b with
          mBuffer := newBuffer, heap := heap, mStartLoc := 0, mEndLoc := bufferSize,
          mMaxLen := newMaxLen }, true)

/-- Grow the buffer when the tail is shorter than the request. -/
def ensure (b : SimpleBuffer) (dataLen : ℕ) : SimpleBuffer :=
  if dataLen > sub32 b.mMaxLen b.mEndLoc then (b.growBuffer dataLen).1 else b

/-- Append `dataLen` bytes. Without data (a null pointer) the end location advances over what is
already there. The flag tells whether the buffer had or made room. -/
def addBuffer (b : SimpleBuffer) (data : Option Bytes) (dataLen : ℕ) : SimpleBuffer × Bool :=
  let b := b.ensure dataLen
  if dataLen ≤ sub32 b.mMaxLen b.mEndLoc then
    let block := match data with
      | some d => b.mBuffer.write b.mEndLoc (d.take dataLen)
      | none => b.mBuffer
    ({ b with mBuffer := block, mEndLoc := add32 b.mEndLoc dataLen }, true)
  else (b, false)

/-- Drop `removeLen` bytes from the front. Without its assertion the function clamps the
request. -/
def consume (b : SimpleBuffer) (removeLen : ℕ) : SimpleBuffer :=
  let activeBufferSize := sub32 b.mEndLoc b.mStartLoc
  let removeLen := if removeLen > activeBufferSize then activeBufferSize else removeLen
  let start := add32 b.mStartLoc removeLen
  if start = b.mEndLoc then { b with mStartLoc := 0, mEndLoc := 0 }
  else { b with mStartLoc := start }

/-- Make sure that `capacity` bytes can be written at the end location. The flag stands for
a returned pointer that is not null; the pointer is to the cell `mEndLoc`. -/
def confirmCapacity (b : SimpleBuffer) (capacity : ℕ) : SimpleBuffer × Bool :=
  let b := b.ensure capacity
  (b, decide (capacity ≤ sub32 b.mMaxLen b.mEndLoc))

/-- Write bytes through the pointer that `confirmCapacity` returned. -/
def writeAtEnd (b : SimpleBuffer) (data : Bytes) : SimpleBuffer :=
  { b with mBuffer := b.mBuffer.write b.mEndLoc data }

/-- `fastXOR` on `dataLen` bytes from index `offset` of the data on. -/
def xorData (b : SimpleBuffer) (isBigEndian : Bool) (offset dataLen : ℕ) (key : MaskingKey) :
    SimpleBuffer :=
  { b with mBuffer := fastXOR isBigEndian b.mBuffer (b.mStartLoc + offset) dataLen key }

/-- `dataLen` bytes from index `offset` of the data on. -/
def slice (b : SimpleBuffer) (offset dataLen : ℕ) : Bytes :=
  b.mBuffer.read (b.mStartLoc + offset) dataLen

/-! ### Well-formed buffers -/

/-- The cursors are ordered 32-bit words, and the block has the recorded size. -/
structure Ordered (b : SimpleBuffer) : Prop where
  start_le : b.mStartLoc ≤ b.mEndLoc
  end_le : b.mEndLoc ≤ b.mMaxLen
  max_le : b.mMaxLen ≤ b.mMaxGrowSize
  grow_lt : b.mMaxGrowSize < 4294967296
  size_le : b.mMaxLen ≤ b.mBuffer.size

/-- The cursors are ordered, the block has the recorded size, and the maximum size is at most
`2 ^ 29`, so that no cursor arithmetic on requests of that size wraps around. -/
structure WF (b : SimpleBuffer) : Prop where
  start_le : b.mStartLoc ≤ b.mEndLoc
  end_le : b.mEndLoc ≤ b.mMaxLen
  max_le : b.mMaxLen ≤ b.mMaxGrowSize
  grow_le : b.mMaxGrowSize ≤ 2 ^ 29
  size_le : b.mMaxLen ≤ b.mBuffer.size

variable {b : SimpleBuffer} {n dataLen : ℕ}

theorem WF.ordered (h : b.WF) : b.Ordered :=
  ⟨h.start_le, h.end_le, h.max_le, lt_of_le_of_lt h.grow_le (by decide), h.size_le⟩

theorem Ordered.wf (h : b.Ordered) (hgrow : b.mMaxGrowSize ≤ 2 ^ 29) : b.WF :=
  ⟨h.start_le, h.end_le, h.max_le, hgrow, h.size_le⟩

/-- A buffer whose default size is larger than the maximum is limited by the default size. -/
theorem mMaxGrowSize_create (heap : ℕ → Block UInt8) (defaultLen maxGrowSize : ℕ) :
    (create heap defaultLen maxGrowSize).mMaxGrowSize = max defaultLen maxGrowSize := by
  have hmax : (create heap defaultLen maxGrowSize).mMaxGrowSize =
      if defaultLen > maxGrowSize then defaultLen else maxGrowSize := by
    simp only [create, reset]
    split <;> rfl
  rw [hmax, max_def]
  split_ifs <;> omega

theorem create_ordered (heap : ℕ → Block UInt8) {defaultLen maxGrowSize : ℕ}
    (h : defaultLen < 4294967296) (h' : maxGrowSize < 4294967296) :
    (create heap defaultLen maxGrowSize).Ordered := by
  have hle : defaultLen ≤ if defaultLen > maxGrowSize then defaultLen else maxGrowSize := by
    split <;> omega
  have hlt : (if defaultLen > maxGrowSize then defaultLen else maxGrowSize) < 4294967296 := by
    split <;> omega
  simp only [create, reset]
  split
  · exact ⟨le_rfl, Nat.zero_le _, hle, hlt, le_rfl⟩
  · rename_i h0
    exact ⟨le_rfl, Nat.zero_le _, hle, hlt, by simpa using h0⟩

theorem create_wf_of_le (heap : ℕ → Block UInt8) {defaultLen maxGrowSize : ℕ}
    (h : defaultLen ≤ 2 ^ 29) (h' : maxGrowSize ≤ 2 ^ 29) :
    (create heap defaultLen maxGrowSize).WF :=
  (create_ordered heap (by omega) (by omega)).wf (by
    rw [mMaxGrowSize_create]
    exact max_le h h')

theorem create_wf (heap : ℕ → Block UInt8) {defaultLen maxGrowSize : ℕ}
    (h : defaultLen ≤ maxGrowSize) (h' : maxGrowSize ≤ 2 ^ 29) :
    (create heap defaultLen maxGrowSize).WF := create_wf_of_le heap (h.trans h') h'

@[simp] theorem length_getData (b : SimpleBuffer) : b.getData.length = b.getSize := by
  simp [getData]

theorem getSize_lt (b : SimpleBuffer) : b.getSize < 4294967296 := Word.sub_lt _ _ (by omega)

theorem getSize_eq_zero_iff : b.getSize = 0 ↔ b.getData = [] := by
  rw [← length_getData, List.length_eq_zero_iff]

@[simp] theorem getData_create (heap : ℕ → Block UInt8) (defaultLen maxGrowSize : ℕ) :
    (create heap defaultLen maxGrowSize).getData = [] := by
  refine getSize_eq_zero_iff.mp ?_
  simp only [create, reset]
  split <;> simp only [getSize, sub32_zero (by omega : 0 < 4294967296)]

theorem getData_getElem? {i : ℕ} (h : i < b.getSize) : b.getData[i]? = some (b.byteAt i) :=
  Block.getElem?_read _ h

/-- A slice inside the data, as a part of the byte list. -/
theorem slice_eq {offset : ℕ} (h : offset + n ≤ b.getSize) :
    b.slice offset n = (b.getData.drop offset).take n := by
  rw [getData, Block.drop_read _ _ (by omega), Block.take_read _ _ (by omega)]
  rfl

namespace Ordered

theorem getSize_eq (h : b.Ordered) : b.getSize = b.mEndLoc - b.mStartLoc :=
  sub32_of_le h.start_le (h.end_le.trans_lt (h.max_le.trans_lt h.grow_lt))

theorem available_eq (h : b.Ordered) : sub32 b.mMaxLen b.mEndLoc = b.mMaxLen - b.mEndLoc :=
  sub32_of_le h.end_le (h.max_le.trans_lt h.grow_lt)

theorem clear (h : b.Ordered) : b.clear.Ordered :=
  ⟨le_rfl, Nat.zero_le _, h.max_le, h.grow_lt, h.size_le⟩

end Ordered

namespace WF

theorem getSize_eq (h : b.WF) : b.getSize = b.mEndLoc - b.mStartLoc := h.ordered.getSize_eq

theorem available_eq (h : b.WF) : sub32 b.mMaxLen b.mEndLoc = b.mMaxLen - b.mEndLoc :=
  h.ordered.available_eq

theorem getSize_le (h : b.WF) : b.getSize ≤ 2 ^ 29 := by
  rw [h.getSize_eq]
  have := h.end_le; have := h.max_le; have := h.grow_le
  omega

theorem getSize_le_max (h : b.WF) : b.getSize ≤ b.getMaxGrowSize := by
  rw [h.getSize_eq]
  exact (Nat.sub_le _ _).trans (h.end_le.trans h.max_le)

theorem clear (h : b.WF) : b.clear.WF := h.ordered.clear.wf h.grow_le

end WF

@[simp] theorem getSize_clear (b : SimpleBuffer) : b.clear.getSize = 0 := by
  simp only [getSize, clear, sub32_zero (by omega : 0 < 4294967296)]

@[simp] theorem getData_clear (b : SimpleBuffer) : b.clear.getData = [] :=
  getSize_eq_zero_iff.mp b.getSize_clear

/-! ### Growing -/

/-- The new size of the block does not wrap around to less than the old one. -/
def NoWrap (b : SimpleBuffer) (n : ℕ) : Prop :=
  b.mMaxLen * 2 + n < 4294967296 ∨ 4294967296 ≤ b.mMaxLen + n

/-- The tail has room for the request, or the consumed part has, or a larger block is within the
limit. -/
def Accepts (b : SimpleBuffer) (n : ℕ) : Prop :=
  n ≤ b.mMaxLen - b.mEndLoc ∨ n < b.mStartLoc ∨
    (if b.mMaxLen * 2 - b.mEndLoc < n then b.mMaxLen * 2 + n else b.mMaxLen * 2) ≤ b.mMaxGrowSize

instance (b : SimpleBuffer) (n : ℕ) : Decidable (b.NoWrap n) := inferInstanceAs (Decidable (_ ∨ _))

instance (b : SimpleBuffer) (n : ℕ) : Decidable (b.Accepts n) := inferInstanceAs (Decidable (_ ∨ _))

theorem WF.noWrap (h : b.WF) (hn : n ≤ 2 ^ 29) : b.NoWrap n := by
  have := h.max_le; have := h.grow_le
  exact .inl (by omega)

/-- The content has room at the front, or doubling the block does not wrap around and enlarging it
for the request does not make it smaller. -/
def GrowsSafely (b : SimpleBuffer) (n : ℕ) : Prop :=
  n < b.mStartLoc ∨ b.mMaxLen * 2 < 4294967296 ∧ b.NoWrap n

/-- The size of a block that is enlarged for the request wraps around. -/
def Wraps (b : SimpleBuffer) (n : ℕ) : Prop :=
  b.mStartLoc ≤ n ∧ b.mMaxLen * 2 - b.mEndLoc < n ∧ 4294967296 ≤ b.mMaxLen * 2 + n

instance (b : SimpleBuffer) (n : ℕ) : Decidable (b.Wraps n) :=
  inferInstanceAs (Decidable (_ ∧ _ ∧ _))

/-- Growing on demand does not wrap around. -/
def Safe (b : SimpleBuffer) (n : ℕ) : Prop := n ≤ b.mMaxLen - b.mEndLoc ∨ b.GrowsSafely n

instance (b : SimpleBuffer) (n : ℕ) : Decidable (b.Safe n) :=
  inferInstanceAs (Decidable (_ ∨ _ ∨ _ ∧ _))

theorem WF.growsSafely (h : b.WF) (hw : b.NoWrap n) : b.GrowsSafely n := by
  have := h.max_le; have := h.grow_le
  exact .inr ⟨by omega, hw⟩

/-- What growing does: the content and the limit stay, and the block does not shrink. Success means
that there is room for the request, unless its size wraps around to that of a larger block. A
refused request changes nothing. -/
theorem growBuffer_of_safe (h : b.Ordered) (hn : n < 2 ^ 32) (hw : b.GrowsSafely n) :
    (b.growBuffer n).1.Ordered ∧ (b.growBuffer n).1.getData = b.getData ∧
      (b.growBuffer n).1.mMaxGrowSize = b.mMaxGrowSize ∧
      b.mMaxLen ≤ (b.growBuffer n).1.mMaxLen ∧
      ((b.growBuffer n).2 = true → if b.Wraps n then (b.growBuffer n).1.mMaxLen < n else
        n ≤ (b.growBuffer n).1.mMaxLen - (b.growBuffer n).1.mEndLoc) ∧
      ((b.growBuffer n).2 = false → (b.growBuffer n).1 = b) := by
  have hsize := h.getSize_eq
  obtain ⟨hse, hem, hmg, hg, hbs⟩ := h
  -- the content after it was copied to the front of a block
  have moved (m : Block UInt8) :
      (if b.getSize ≠ 0 then m.write 0 (b.mBuffer.read b.mStartLoc b.getSize) else m).read 0
        (sub32 b.getSize 0) = b.getData := by
    rw [sub32_zero (by omega), Block.read_move]
    rfl
  by_cases hc : n < b.mStartLoc
  · -- the content moves to the front of the block
    have hwraps : ¬b.Wraps n := fun h => absurd h.1 (Nat.not_le_of_gt hc)
    simp only [growBuffer, if_pos hc, if_neg hwraps]
    refine ⟨⟨Nat.zero_le _, by simp only; omega, hmg, hg, ?_⟩, ?_, trivial, le_rfl,
      fun _ => by omega, by simp⟩
    · split <;> simpa using hbs
    · exact moved b.mBuffer
  · -- the block doubles, and more if that is not enough
    obtain ⟨hlt, hw⟩ := hw.resolve_left hc
    have hdouble : mul32 b.mMaxLen 2 = b.mMaxLen * 2 := mul32_of_lt (by omega)
    have havail : sub32 (b.mMaxLen * 2) b.mEndLoc = b.mMaxLen * 2 - b.mEndLoc :=
      sub32_of_le (by omega) (by omega)
    simp only [growBuffer, if_neg hc, hdouble, havail]
    set newMaxLen := if b.mMaxLen * 2 - b.mEndLoc < n then add32 (b.mMaxLen * 2) n
      else b.mMaxLen * 2 with hnew
    have hroom : b.mMaxLen ≤ newMaxLen ∧
        if b.Wraps n then newMaxLen < n else n ≤ newMaxLen - b.mEndLoc := by
      unfold NoWrap at hw
      by_cases hwraps : b.Wraps n
      · rw [if_pos hwraps]
        obtain ⟨-, hmore, hover⟩ := hwraps
        rw [hnew, if_pos hmore, add32_of_ge hover (by omega)]
        omega
      · rw [if_neg hwraps, hnew]
        unfold Wraps at hwraps
        by_cases hmore : b.mMaxLen * 2 - b.mEndLoc < n
        · rw [if_pos hmore, add32_of_lt (by omega)]
          omega
        · rw [if_neg hmore]
          omega
    by_cases hlim : newMaxLen > b.mMaxGrowSize
    · rw [if_pos hlim]
      exact ⟨⟨hse, hem, hmg, hg, hbs⟩, rfl, rfl, le_rfl, by simp, fun _ => rfl⟩
    · rw [if_neg hlim]
      simp only [Block.malloc]
      refine ⟨⟨Nat.zero_le _, by simp only; omega, by simpa using hlim, hg, ?_⟩, ?_, trivial,
        hroom.1, fun _ => ?_, by simp⟩
      · split <;> simp
      · exact moved _
      · split_ifs with hwraps
        · simpa only [if_pos hwraps] using hroom.2
        · have hle := hroom.2
          rw [if_neg hwraps] at hle
          omega

/-- Growing for a request of ordinary size. -/
theorem growBuffer_spec (h : b.WF) (hn : n ≤ 2 ^ 29) :
    (b.growBuffer n).1.WF ∧ (b.growBuffer n).1.getData = b.getData ∧
      (b.growBuffer n).1.mMaxGrowSize = b.mMaxGrowSize ∧
      ((b.growBuffer n).2 = true → n ≤ (b.growBuffer n).1.mMaxLen - (b.growBuffer n).1.mEndLoc) ∧
      ((b.growBuffer n).2 = false → (b.growBuffer n).1 = b) := by
  obtain ⟨hord, hdata, hmax, -, htrue, hfalse⟩ :=
    growBuffer_of_safe h.ordered (by omega) (h.growsSafely (h.noWrap hn))
  have := h.max_le; have := h.grow_le
  have hwraps : ¬b.Wraps n := fun h => absurd h.2.2 (by omega)
  rw [if_neg hwraps] at htrue
  exact ⟨hord.wf (hmax ▸ h.grow_le), hdata, hmax, htrue, hfalse⟩

/-- Growing on demand keeps the content; either there is room afterwards or nothing changed. -/
theorem ensure_spec (h : b.WF) (hn : n ≤ 2 ^ 29) :
    (b.ensure n).WF ∧ (b.ensure n).getData = b.getData ∧
      (b.ensure n).mMaxGrowSize = b.mMaxGrowSize ∧
      (¬n ≤ (b.ensure n).mMaxLen - (b.ensure n).mEndLoc → b.ensure n = b) := by
  obtain ⟨hwf, hdata, hmax, htrue, hfalse⟩ := growBuffer_spec h hn
  simp only [ensure, h.available_eq]
  split
  · refine ⟨hwf, hdata, hmax, fun hno => ?_⟩
    cases hok : (b.growBuffer n).2 with
    | true => exact absurd (htrue hok) hno
    | false => exact hfalse hok
  · exact ⟨h, rfl, rfl, fun _ => rfl⟩

/-- Growing on demand for any request that does not wrap around. -/
theorem ensure_of_safe (h : b.Ordered) (hn : n < 2 ^ 32) (hw : b.Safe n) :
    (b.ensure n).Ordered ∧ (b.ensure n).getData = b.getData ∧
      (b.ensure n).mMaxGrowSize = b.mMaxGrowSize ∧ b.mMaxLen ≤ (b.ensure n).mMaxLen := by
  rw [ensure, h.available_eq]
  split
  · obtain ⟨hord, hdata, hmax, hle, -⟩ := growBuffer_of_safe h hn (hw.resolve_left (by omega))
    exact ⟨hord, hdata, hmax, hle⟩
  · exact ⟨h, rfl, rfl, le_rfl⟩

theorem ensure_of_noWrap (h : b.WF) (hn : n < 2 ^ 32) (hw : b.NoWrap n) :
    (b.ensure n).WF ∧ (b.ensure n).getData = b.getData ∧
      (b.ensure n).mMaxGrowSize = b.mMaxGrowSize ∧ b.mMaxLen ≤ (b.ensure n).mMaxLen := by
  obtain ⟨hord, hdata, hmax, hle⟩ := ensure_of_safe h.ordered hn (.inr (h.growsSafely hw))
  exact ⟨hord.wf (hmax ▸ h.grow_le), hdata, hmax, hle⟩

/-- When there is room for a request after growing on demand. -/
theorem room_ensure_iff_of_safe (h : b.Ordered) (hn : n < 2 ^ 32) (hw : b.Safe n) :
    n ≤ (b.ensure n).mMaxLen - (b.ensure n).mEndLoc ↔ b.Accepts n := by
  have havailable := h.available_eq
  simp only [ensure, havailable]
  by_cases hroom : n ≤ b.mMaxLen - b.mEndLoc
  · rw [if_neg (by omega)]
    exact ⟨fun _ => .inl hroom, fun _ => hroom⟩
  have hw := hw.resolve_left hroom
  obtain ⟨hord, -, hmax, -, htrue, hfalse⟩ := growBuffer_of_safe h hn hw
  obtain ⟨hse, hem, hmg, hg, -⟩ := h
  rw [if_pos (by omega), Accepts]
  have hle := hord.max_le
  by_cases hc : n < b.mStartLoc
  · have hok : (b.growBuffer n).2 = true := by simp only [growBuffer, if_pos hc]
    have htrue := htrue hok
    rw [if_neg fun hwraps => absurd hwraps.1 (Nat.not_le_of_gt hc)] at htrue
    exact ⟨fun _ => .inr (.inl hc), fun _ => htrue⟩
  obtain ⟨hlt, hw⟩ := hw.resolve_left hc
  have hdouble : mul32 b.mMaxLen 2 = b.mMaxLen * 2 := mul32_of_lt hlt
  have havail : sub32 (b.mMaxLen * 2) b.mEndLoc = b.mMaxLen * 2 - b.mEndLoc :=
    sub32_of_le (by omega) hlt
  have hflag : (b.growBuffer n).2 = decide ¬(if b.mMaxLen * 2 - b.mEndLoc < n
      then add32 (b.mMaxLen * 2) n else b.mMaxLen * 2) > b.mMaxGrowSize := by
    simp only [growBuffer, if_neg hc, hdouble, havail]
    generalize (if b.mMaxLen * 2 - b.mEndLoc < n then add32 (b.mMaxLen * 2) n
      else b.mMaxLen * 2) = newMaxLen
    by_cases hlim : newMaxLen > b.mMaxGrowSize
    · rw [if_pos hlim]
      simp [hlim]
    · rw [if_neg hlim]
      simp [hlim]
  by_cases hwrap : b.Wraps n
  · -- no block within the limit is large enough
    rw [if_pos hwrap] at htrue
    obtain ⟨-, hmore, hover⟩ := hwrap
    refine ⟨fun hok => ?_, fun hok => ?_⟩
    · cases hflag' : (b.growBuffer n).2 with
      | true =>
        have := htrue hflag'
        omega
      | false => exact absurd (hfalse hflag' ▸ hok) hroom
    · rw [if_pos hmore] at hok
      omega
  · rw [if_neg hwrap] at htrue
    have hadd (hmore : b.mMaxLen * 2 - b.mEndLoc < n) :
        add32 (b.mMaxLen * 2) n = b.mMaxLen * 2 + n := by
      refine add32_of_lt (Nat.lt_of_not_le fun hover => hwrap ⟨by omega, hmore, hover⟩)
    rw [show (if b.mMaxLen * 2 - b.mEndLoc < n then add32 (b.mMaxLen * 2) n else b.mMaxLen * 2) =
      if b.mMaxLen * 2 - b.mEndLoc < n then b.mMaxLen * 2 + n else b.mMaxLen * 2 from
        if_ctx_congr Iff.rfl hadd fun _ => rfl] at hflag
    constructor
    · intro hok
      by_contra hno
      have hno' := hfalse (by simpa [hflag] using fun hle => hno (.inr (.inr hle)))
      rw [hno'] at hok
      exact hroom hok
    · rintro (hok | hok | hok)
      · exact absurd hok hroom
      · exact absurd hok hc
      · exact htrue (by simpa [hflag] using hok)

theorem room_ensure_iff (h : b.WF) (hn : n < 2 ^ 32) (hw : b.NoWrap n) :
    n ≤ (b.ensure n).mMaxLen - (b.ensure n).mEndLoc ↔ b.Accepts n :=
  room_ensure_iff_of_safe h.ordered hn (.inr (h.growsSafely hw))

/-! ### Appending -/

/-- Appending bytes behind the content of a well-formed buffer with room for them. -/
private theorem append_spec (h : b.Ordered) (hroom : n ≤ b.mMaxLen - b.mEndLoc) (m : Block UInt8)
    (hm : m.size = b.mBuffer.size) :
    ({ b with mBuffer := m, mEndLoc := add32 b.mEndLoc n } : SimpleBuffer).Ordered ∧
      ({ b with mBuffer := m, mEndLoc := add32 b.mEndLoc n } : SimpleBuffer).getData =
        m.read b.mStartLoc (b.getSize + n) := by
  have hsize := h.getSize_eq
  obtain ⟨hse, hem, hmg, hg, hbs⟩ := h
  have hend : add32 b.mEndLoc n = b.mEndLoc + n := add32_of_lt (by omega)
  have hsub : sub32 (b.mEndLoc + n) b.mStartLoc = b.getSize + n := by
    rw [hsize]
    exact (sub32_of_le (by omega) (by omega)).trans (by omega)
  refine ⟨⟨by simp only [hend]; omega, by simp only [hend]; omega, hmg, hg, by simpa [hm]⟩, ?_⟩
  simp only [getData, getSize, hend]
  rw [hsub]
  rfl

/-- Appending data with any request that does not wrap around: data that is accepted is appended to
the content, and a refusal leaves the content alone. -/
theorem addBuffer_of_safe (h : b.Ordered) (hn : n < 2 ^ 32) (hw : b.Safe n) {d : Bytes}
    (hd : d.length = n) :
    (b.addBuffer (some d) n).1.Ordered ∧
      (b.addBuffer (some d) n).1.mMaxGrowSize = b.mMaxGrowSize ∧
      b.mMaxLen ≤ (b.addBuffer (some d) n).1.mMaxLen ∧
      (b.addBuffer (some d) n).2 = decide (b.Accepts n) ∧
      (b.addBuffer (some d) n).1.getData =
        b.getData ++ (if (b.addBuffer (some d) n).2 then d else []) ∧
      ((b.addBuffer (some d) n).2 = false → (b.addBuffer (some d) n).1 = b.ensure n) := by
  obtain ⟨hwf, hdata, hmax, hle⟩ := ensure_of_safe h hn hw
  have hroom_iff := room_ensure_iff_of_safe h hn hw
  simp only [addBuffer, hwf.available_eq]
  by_cases hroom : n ≤ (b.ensure n).mMaxLen - (b.ensure n).mEndLoc
  · simp only [if_pos hroom]
    obtain ⟨hwf', hdata'⟩ := append_spec hwf hroom
      ((b.ensure n).mBuffer.write (b.ensure n).mEndLoc (d.take n)) rfl
    refine ⟨hwf', hmax, hle, (decide_eq_true (hroom_iff.mp hroom)).symm, ?_, by simp⟩
    have hend : (b.ensure n).mEndLoc = (b.ensure n).mStartLoc + (b.ensure n).getSize := by
      rw [hwf.getSize_eq]
      have := hwf.start_le
      omega
    have htake : d.take n = d := List.take_of_length_le hd.le
    rw [hdata', htake, hend, ← hd, Block.read_write_append, hd]
    exact congrArg (· ++ d) hdata
  · simp only [if_neg hroom]
    exact ⟨hwf, hmax, hle, (decide_eq_false (mt hroom_iff.mpr hroom)).symm, by simpa using hdata,
      fun _ => trivial⟩

theorem addBuffer_of_noWrap (h : b.WF) (hn : n < 2 ^ 32) (hw : b.NoWrap n) {d : Bytes}
    (hd : d.length = n) :
    (b.addBuffer (some d) n).1.WF ∧
      (b.addBuffer (some d) n).1.mMaxGrowSize = b.mMaxGrowSize ∧
      b.mMaxLen ≤ (b.addBuffer (some d) n).1.mMaxLen ∧
      (b.addBuffer (some d) n).2 = decide (b.Accepts n) ∧
      (b.addBuffer (some d) n).1.getData =
        b.getData ++ (if (b.addBuffer (some d) n).2 then d else []) ∧
      ((b.addBuffer (some d) n).2 = false → (b.addBuffer (some d) n).1 = b.ensure n) := by
  obtain ⟨hord, hmax, hrest⟩ := addBuffer_of_safe h.ordered hn (.inr (h.growsSafely hw)) hd
  exact ⟨hord.wf (hmax ▸ h.grow_le), hmax, hrest⟩

/-- Appending data: accepted data is appended to the content, a refusal changes nothing. -/
theorem addBuffer_spec (h : b.WF) (hn : n ≤ 2 ^ 29) {d : Bytes} (hd : d.length = n) :
    (b.addBuffer (some d) n).1.WF ∧
      (b.addBuffer (some d) n).1.mMaxGrowSize = b.mMaxGrowSize ∧
      ((b.addBuffer (some d) n).2 = true →
        (b.addBuffer (some d) n).1.getData = b.getData ++ d) ∧
      ((b.addBuffer (some d) n).2 = false → (b.addBuffer (some d) n).1 = b) := by
  have hw := h.noWrap hn
  obtain ⟨hwf, hmax, -, hflag, hdata, hrefused⟩ := addBuffer_of_noWrap h (by omega) hw hd
  refine ⟨hwf, hmax, fun hok => by rw [hdata, if_pos hok], fun hno => ?_⟩
  rw [hrefused hno]
  refine (ensure_spec h hn).2.2.2 (mt (room_ensure_iff h (by omega) hw).mp ?_)
  exact of_decide_eq_false (hflag.symm.trans hno)

/-- Of data that is longer than the request only the front is used. -/
theorem addBuffer_take (b : SimpleBuffer) (d : Bytes) (n : ℕ) :
    b.addBuffer (some (d.take n)) n = b.addBuffer (some d) n := by
  simp only [addBuffer, List.take_take, Nat.min_self]

/-- Reserving room keeps the content. A null result changes nothing. -/
theorem confirmCapacity_spec (h : b.WF) (hn : n ≤ 2 ^ 29) :
    (b.confirmCapacity n).1.WF ∧ (b.confirmCapacity n).1.getData = b.getData ∧
      (b.confirmCapacity n).1.mMaxGrowSize = b.mMaxGrowSize ∧
      ((b.confirmCapacity n).2 = true →
        n ≤ (b.confirmCapacity n).1.mMaxLen - (b.confirmCapacity n).1.mEndLoc) ∧
      ((b.confirmCapacity n).2 = false → (b.confirmCapacity n).1 = b) := by
  obtain ⟨hwf, hdata, hmax, hno⟩ := ensure_spec h hn
  simp only [confirmCapacity, hwf.available_eq, decide_eq_true_eq, decide_eq_false_iff_not]
  exact ⟨hwf, hdata, hmax, id, hno⟩

/-- Reserving room for any request that does not wrap around. -/
theorem confirmCapacity_of_safe (h : b.Ordered) (hn : n < 2 ^ 32) (hw : b.Safe n) :
    (b.confirmCapacity n).1.Ordered ∧ (b.confirmCapacity n).1.getData = b.getData ∧
      (b.confirmCapacity n).1.mMaxGrowSize = b.mMaxGrowSize ∧
      b.mMaxLen ≤ (b.confirmCapacity n).1.mMaxLen ∧
      (b.confirmCapacity n).2 = decide (b.Accepts n) ∧
      ((b.confirmCapacity n).2 = true →
        n ≤ (b.confirmCapacity n).1.mMaxLen - (b.confirmCapacity n).1.mEndLoc) := by
  obtain ⟨hord, hdata, hmax, hle⟩ := ensure_of_safe h hn hw
  simp only [confirmCapacity, hord.available_eq, decide_eq_true_eq]
  exact ⟨hord, hdata, hmax, hle, decide_eq_decide.mpr (room_ensure_iff_of_safe h hn hw), id⟩

theorem confirmCapacity_of_noWrap (h : b.WF) (hn : n < 2 ^ 32) (hw : b.NoWrap n) :
    (b.confirmCapacity n).1.WF ∧ (b.confirmCapacity n).1.getData = b.getData ∧
      (b.confirmCapacity n).1.mMaxGrowSize = b.mMaxGrowSize ∧
      b.mMaxLen ≤ (b.confirmCapacity n).1.mMaxLen ∧
      (b.confirmCapacity n).2 = decide (b.Accepts n) ∧
      ((b.confirmCapacity n).2 = true →
        n ≤ (b.confirmCapacity n).1.mMaxLen - (b.confirmCapacity n).1.mEndLoc) := by
  obtain ⟨hord, hdata, hmax, hrest⟩ :=
    confirmCapacity_of_safe h.ordered hn (.inr (h.growsSafely hw))
  exact ⟨hord.wf (hmax ▸ h.grow_le), hdata, hmax, hrest⟩

/-- Writing at most the reserved number of bytes through the returned pointer and advancing over
them appends them. -/
theorem receiveInto_of_ordered (h : b.Ordered) {d : Bytes}
    (hroom : d.length ≤ b.mMaxLen - b.mEndLoc) :
    ((b.writeAtEnd d).addBuffer none d.length).2 = true ∧
      ((b.writeAtEnd d).addBuffer none d.length).1.Ordered ∧
      ((b.writeAtEnd d).addBuffer none d.length).1.mMaxGrowSize = b.mMaxGrowSize ∧
      ((b.writeAtEnd d).addBuffer none d.length).1.getData = b.getData ++ d := by
  have hwf : (b.writeAtEnd d).Ordered :=
    ⟨h.start_le, h.end_le, h.max_le, h.grow_lt, h.size_le⟩
  have hroom' : d.length ≤ (b.writeAtEnd d).mMaxLen - (b.writeAtEnd d).mEndLoc := hroom
  have hens : (b.writeAtEnd d).ensure d.length = b.writeAtEnd d := by
    rw [ensure, hwf.available_eq, if_neg (by omega)]
  obtain ⟨hwf', hdata'⟩ := append_spec hwf hroom' (b.writeAtEnd d).mBuffer rfl
  simp only [addBuffer, hens, hwf.available_eq, if_pos hroom']
  refine ⟨trivial, hwf', rfl, ?_⟩
  have hend : b.mEndLoc = b.mStartLoc + b.getSize := by
    rw [h.getSize_eq]
    have := h.start_le
    omega
  have hsize : (b.writeAtEnd d).getSize = b.getSize := rfl
  rw [hdata', hsize]
  simp only [writeAtEnd, hend]
  exact Block.read_write_append _ _ _ _

theorem receiveInto_spec (h : b.WF) {d : Bytes} (hroom : d.length ≤ b.mMaxLen - b.mEndLoc) :
    ((b.writeAtEnd d).addBuffer none d.length).2 = true ∧
      ((b.writeAtEnd d).addBuffer none d.length).1.WF ∧
      ((b.writeAtEnd d).addBuffer none d.length).1.mMaxGrowSize = b.mMaxGrowSize ∧
      ((b.writeAtEnd d).addBuffer none d.length).1.getData = b.getData ++ d := by
  obtain ⟨hok, hord, hmax, hdata⟩ := receiveInto_of_ordered h.ordered hroom
  exact ⟨hok, hord.wf (hmax ▸ h.grow_le), hmax, hdata⟩

/-! ### The cursors alone -/

/-- The cursors of a buffer and the size beyond which it does not grow. -/
structure Extent where
  startLoc : ℕ
  endLoc : ℕ
  maxLen : ℕ
  maxGrowSize : ℕ
  deriving DecidableEq

/-- The cursors of the buffer. -/
def extent (b : SimpleBuffer) : Extent := ⟨b.mStartLoc, b.mEndLoc, b.mMaxLen, b.mMaxGrowSize⟩

/-- The size of a larger block for a request. -/
def Extent.grown (x : Extent) (n : ℕ) : ℕ :=
  if x.maxLen * 2 - x.endLoc < n then x.maxLen * 2 + n else x.maxLen * 2

/-- `Accepts`, which depends on the cursors only. -/
def Extent.Accepts (x : Extent) (n : ℕ) : Prop :=
  n ≤ x.maxLen - x.endLoc ∨ n < x.startLoc ∨ x.grown n ≤ x.maxGrowSize

instance (x : Extent) (n : ℕ) : Decidable (x.Accepts n) := inferInstanceAs (Decidable (_ ∨ _))

theorem accepts_extent : b.extent.Accepts n ↔ b.Accepts n := Iff.rfl

/-- The cursors after a request was accepted. -/
def Extent.add (x : Extent) (n : ℕ) : Extent :=
  if n ≤ x.maxLen - x.endLoc then { x with endLoc := x.endLoc + n }
  else if n < x.startLoc then { x with startLoc := 0, endLoc := x.endLoc - x.startLoc + n }
  else { x with startLoc := 0, endLoc := x.endLoc - x.startLoc + n, maxLen := x.grown n }

theorem WF.le_of_accepts (h : b.WF) (ha : b.Accepts n) : b.getSize + n ≤ b.mMaxGrowSize := by
  rw [h.getSize_eq]
  have := h.start_le; have := h.end_le; have := h.max_le
  unfold Accepts at ha
  split_ifs at ha <;> omega

theorem extent_ensure (h : b.WF) (ha : b.Accepts n) :
    (b.ensure n).extent = if n ≤ b.mMaxLen - b.mEndLoc then b.extent
      else if n < b.mStartLoc then
        ⟨0, b.mEndLoc - b.mStartLoc, b.mMaxLen, b.mMaxGrowSize⟩
      else ⟨0, b.mEndLoc - b.mStartLoc, b.extent.grown n, b.mMaxGrowSize⟩ := by
  have hn := h.le_of_accepts ha
  have havailable := h.available_eq
  have hsize := h.getSize_eq
  obtain ⟨hse, hem, hmg, hg, -⟩ := h
  rw [ensure, havailable]
  by_cases hroom : n ≤ b.mMaxLen - b.mEndLoc
  · rw [if_neg (by omega), if_pos hroom]
  rw [if_pos (by omega), if_neg hroom]
  by_cases hc : n < b.mStartLoc
  · rw [if_pos hc]
    simp only [growBuffer, if_pos hc, extent, hsize]
  · have hdouble : mul32 b.mMaxLen 2 = b.mMaxLen * 2 := mul32_of_lt (by omega)
    have havail : sub32 (b.mMaxLen * 2) b.mEndLoc = b.mMaxLen * 2 - b.mEndLoc :=
      sub32_of_le (by omega) (by omega)
    have hadd : add32 (b.mMaxLen * 2) n = b.mMaxLen * 2 + n := add32_of_lt (by omega)
    have hlim : (if b.mMaxLen * 2 - b.mEndLoc < n then b.mMaxLen * 2 + n else b.mMaxLen * 2) ≤
        b.mMaxGrowSize := (ha.resolve_left hroom).resolve_left hc
    have hgrown : b.extent.grown n =
        if b.mMaxLen * 2 - b.mEndLoc < n then b.mMaxLen * 2 + n else b.mMaxLen * 2 := rfl
    rw [if_neg hc, hgrown]
    simp only [growBuffer, if_neg hc, hdouble, havail, hadd]
    generalize (if b.mMaxLen * 2 - b.mEndLoc < n then b.mMaxLen * 2 + n else b.mMaxLen * 2) =
      newMaxLen at hlim
    rw [if_neg (Nat.not_lt.mpr hlim)]
    simp only [extent, hsize]

/-- What an accepted request does to the cursors. -/
theorem extent_addBuffer (h : b.WF) (ha : b.Accepts n) (data : Option Bytes) :
    (b.addBuffer data n).1.extent = b.extent.add n := by
  have hn := h.le_of_accepts ha
  have hgrow := h.grow_le
  have hw := h.noWrap (n := n) (by omega)
  obtain ⟨hwf, -⟩ := ensure_of_noWrap h (n := n) (by omega) hw
  have hroom := (room_ensure_iff h (by omega) hw).mpr ha
  have hext := extent_ensure h ha
  have hend : add32 (b.ensure n).mEndLoc n = (b.ensure n).mEndLoc + n :=
    add32_of_lt (by have := hwf.end_le; have := hwf.max_le; have := hwf.grow_le; omega)
  simp only [addBuffer, hwf.available_eq, if_pos hroom, hend]
  change (⟨(b.ensure n).mStartLoc, (b.ensure n).mEndLoc + n, (b.ensure n).mMaxLen,
    (b.ensure n).mMaxGrowSize⟩ : Extent) = _
  have hadd : b.extent.add n = if n ≤ b.mMaxLen - b.mEndLoc then
      ⟨b.mStartLoc, b.mEndLoc + n, b.mMaxLen, b.mMaxGrowSize⟩
    else if n < b.mStartLoc then
      ⟨0, b.mEndLoc - b.mStartLoc + n, b.mMaxLen, b.mMaxGrowSize⟩
    else ⟨0, b.mEndLoc - b.mStartLoc + n, b.extent.grown n, b.mMaxGrowSize⟩ := rfl
  rw [hadd]
  split_ifs at hext ⊢ <;> simp_all [extent]

/-! ### Consuming -/

/-- Consuming drops bytes from the front of the content, at most all of them. -/
theorem consume_of_ordered (h : b.Ordered) (n : ℕ) :
    (b.consume n).Ordered ∧ (b.consume n).mMaxGrowSize = b.mMaxGrowSize ∧
      (b.consume n).getData = b.getData.drop n := by
  have hsize := h.getSize_eq
  obtain ⟨hse, hem, hmg, hg, hbs⟩ := h
  change sub32 b.mEndLoc b.mStartLoc = _ at hsize
  simp only [consume, hsize]
  set k := if n > b.mEndLoc - b.mStartLoc then b.mEndLoc - b.mStartLoc else n with hk
  have hkle : k ≤ b.mEndLoc - b.mStartLoc := by
    rw [hk]
    split <;> omega
  have hadd : add32 b.mStartLoc k = b.mStartLoc + k := add32_of_lt (by omega)
  have hdrop : b.getData.drop n = b.mBuffer.read (b.mStartLoc + k) (b.getSize - k) := by
    rw [← Block.drop_read _ _ (show k ≤ b.getSize by rw [getSize, hsize]; exact hkle)]
    change b.getData.drop n = b.getData.drop k
    rw [hk]
    split
    · rename_i hgt
      have hlen : b.getData.length = b.mEndLoc - b.mStartLoc := by
        rw [length_getData, getSize, hsize]
      rw [List.drop_eq_nil_of_le (by omega), List.drop_eq_nil_of_le (by omega)]
    · rfl
  rw [hadd, hdrop, getSize, hsize]
  split
  · rename_i heq
    refine ⟨⟨le_rfl, Nat.zero_le _, hmg, hg, hbs⟩, rfl, ?_⟩
    rw [show b.mEndLoc - b.mStartLoc - k = 0 by omega]
    refine getSize_eq_zero_iff.mp ?_
    simp only [getSize, sub32_zero (by omega : 0 < 4294967296)]
  · refine ⟨⟨by simp only; omega, hem, hmg, hg, hbs⟩, rfl, ?_⟩
    have hsub : sub32 b.mEndLoc (b.mStartLoc + k) = b.mEndLoc - (b.mStartLoc + k) :=
      sub32_of_le (by omega) (by omega)
    simp only [getData, getSize, hsub]
    congr 1
    omega

theorem consume_spec (h : b.WF) (n : ℕ) :
    (b.consume n).WF ∧ (b.consume n).mMaxGrowSize = b.mMaxGrowSize ∧
      (b.consume n).getData = b.getData.drop n := by
  obtain ⟨hord, hmax, hdata⟩ := consume_of_ordered h.ordered n
  exact ⟨hord.wf (hmax ▸ h.grow_le), hmax, hdata⟩

/-- Consuming decreases the size, also of a buffer that is not well-formed. -/
theorem getSize_consume (h : n ≤ b.getSize) : (b.consume n).getSize = b.getSize - n := by
  have hlt := b.getSize_lt
  have hnot : ¬n > sub32 b.mEndLoc b.mStartLoc := Nat.not_lt.mpr h
  have hsub : sub32 b.mEndLoc (add32 b.mStartLoc n) = b.getSize - n := by
    unfold getSize at h hlt ⊢
    unfold sub32 add32 Word.sub Word.add at *
    omega
  simp only [consume, if_neg hnot]
  split_ifs with heq
  · -- the whole content is consumed
    rw [heq] at hsub
    rw [← hsub]
    change sub32 0 0 = _
    unfold sub32 Word.sub
    omega
  · exact hsub

/-! ### Masking in place -/

theorem WF.xorData (h : b.WF) (isBigEndian : Bool) (offset dataLen : ℕ) (key : MaskingKey) :
    (b.xorData isBigEndian offset dataLen key).WF :=
  ⟨h.start_le, h.end_le, h.max_le, h.grow_le, by simpa [SimpleBuffer.xorData] using h.size_le⟩

/-- Masking a range inside the data. -/
theorem getData_xorData (isBigEndian : Bool) {offset : ℕ} (key : MaskingKey)
    (h : offset + dataLen ≤ b.getSize) :
    (b.xorData isBigEndian offset dataLen key).getData =
      b.getData.take offset ++ maskBytes key ((b.getData.drop offset).take dataLen) ++
        b.getData.drop (offset + dataLen) := by
  obtain ⟨r, hr⟩ := Nat.exists_eq_add_of_le h
  have hsize : (b.xorData isBigEndian offset dataLen key).getSize = b.getSize := rfl
  rw [← slice_eq h, getData, hsize, hr, Block.read_add, Block.read_add]
  have hpre : b.getData.take offset = b.mBuffer.read b.mStartLoc offset :=
    Block.take_read _ _ (by omega)
  have hpost : b.getData.drop (offset + dataLen) =
      b.mBuffer.read (b.mStartLoc + (offset + dataLen)) r := by
    rw [getData, Block.drop_read _ _ h, hr, Nat.add_sub_cancel_left]
  rw [hpre, hpost]
  simp only [xorData, slice]
  rw [read_fastXOR_of_disjoint _ _ _ (.inl (by omega)), read_fastXOR,
    read_fastXOR_of_disjoint _ _ _ (.inr (by omega))]

/-- Masking a range that begins inside the data and may end behind it. -/
theorem getData_xorData_of_le (isBigEndian : Bool) {offset : ℕ} (dataLen : ℕ) (key : MaskingKey)
    (h : offset ≤ b.getSize) :
    (b.xorData isBigEndian offset dataLen key).getData =
      b.getData.take offset ++ maskBytes key ((b.getData.drop offset).take dataLen) ++
        b.getData.drop (offset + dataLen) := by
  by_cases hle : offset + dataLen ≤ b.getSize
  · exact getData_xorData isBigEndian key hle
  -- the part behind the data is not shown
  have hlen := b.length_getData
  obtain ⟨k, hk⟩ := Nat.exists_eq_add_of_le h
  have hclip : (b.xorData isBigEndian offset dataLen key).getData =
      (b.xorData isBigEndian offset k key).getData := by
    refine Block.read_congr fun i hi => ?_
    have hi' : i < b.getSize := hi
    simp only [xorData, cell_fastXOR]
    congr 1
    exact propext ⟨fun h => ⟨h.1, by omega⟩, fun h => ⟨h.1, by omega⟩⟩
  have htake (n : ℕ) (hn : k ≤ n) : (b.getData.drop offset).take n = b.getData.drop offset :=
    List.take_of_length_le (by rw [List.length_drop]; omega)
  have hdrop (n : ℕ) (hn : b.getSize ≤ n) : b.getData.drop n = [] :=
    List.drop_eq_nil_of_le (by omega)
  rw [hclip, getData_xorData isBigEndian key hk.ge, htake k le_rfl, htake dataLen (by omega),
    hdrop (offset + k) hk.le, hdrop (offset + dataLen) (by omega)]

/-- Masking a range reads back as the masked bytes, wherever the range lies. -/
theorem slice_xorData (b : SimpleBuffer) (isBigEndian : Bool) (offset dataLen : ℕ)
    (key : MaskingKey) :
    (b.xorData isBigEndian offset dataLen key).slice offset dataLen =
      maskBytes key (b.slice offset dataLen) :=
  read_fastXOR _ _ _ _ _

end SimpleBuffer

end WsClient
