import Mathlib.Data.Fintype.Basic
import Mathlib.Data.BitVec
import Mathlib.Data.UInt
import Mathlib.Tactic.FinCases
import WsClient.Library.Block
import WsClient.Library.Word

/-!
# In-place masking

The payload of a masked frame is combined with a four-byte key by `fastXOR`, in place. On a
little-endian machine the function first reaches an eight-byte boundary of the *address* byte by
byte, then works on 64-bit words with the key rotated accordingly, and finishes byte by byte; on
a big-endian machine it runs the byte loop. `slowXOR` is the byte loop alone.

## Main definitions

* `MaskingKey`, `maskBytes`: a key, and a list of bytes combined with it.
* `xorBytes`, `slowXOR`, `fastXOR`: the functions of `FastXOR.cpp` on a block of memory.

## Main results

* `cell_fastXOR`: the content of every cell after `fastXOR`, for every address and byte order.
* `read_fastXOR`: the range is replaced by its masked bytes.
* `maskBytes_maskBytes`: masking twice with one key is the identity.
-/

namespace WsClient

/-- A sequence of bytes. -/
abbrev Bytes := List UInt8

/-- The four bytes of a masking key. -/
abbrev MaskingKey := Fin 4 → UInt8

instance neZero_four : NeZero 4 := ⟨by decide⟩

/-- Byte `i` of the data is combined with byte `i mod 4` of the key. -/
def maskBytes (key : MaskingKey) (data : Bytes) : Bytes :=
  data.mapIdx fun i b => b ^^^ key (Fin.ofNat 4 i)

@[simp] theorem length_maskBytes (key : MaskingKey) (data : Bytes) :
    (maskBytes key data).length = data.length := by simp [maskBytes]

@[simp] theorem maskBytes_nil (key : MaskingKey) : maskBytes key [] = [] := rfl

/-- Masking twice with one key restores the data. -/
@[simp] theorem maskBytes_maskBytes (key : MaskingKey) (data : Bytes) :
    maskBytes key (maskBytes key data) = data := by
  refine List.ext_getElem (by simp) fun i hi hi' => ?_
  simp only [maskBytes, List.getElem_mapIdx, UInt8.xor_assoc, UInt8.xor_self, UInt8.xor_zero]

/-! ### The functions of the source -/

/-- The loop of `xorBytes` after `n` iterations. -/
def xorLoop (m : Block UInt8) (data : ℕ) (key : MaskingKey) : ℕ → Block UInt8
  | 0 => m
  | i + 1 =>
    let m' := xorLoop m data key i
    m'.set (data + i) (m'.cell (data + i) ^^^ key (Fin.ofNat 4 i))

/-- The byte loop, with the key index it ended on. -/
def xorBytes (m : Block UInt8) (data dataLen : ℕ) (key : MaskingKey) : Block UInt8 × ℕ :=
  (xorLoop m data key dataLen, dataLen % 4)

/-- The byte loop as an entry point of its own. -/
def slowXOR (m : Block UInt8) (data dataLen : ℕ) (key : MaskingKey) : Block UInt8 :=
  (xorBytes m data dataLen key).1

/-- The value of a 64-bit word in little-endian memory. -/
def wordOfBytes (b : Fin 8 → UInt8) : BitVec 64 :=
  (b 0).toBitVec.setWidth 64 ||| (b 1).toBitVec.setWidth 64 <<< 8 |||
  (b 2).toBitVec.setWidth 64 <<< 16 ||| (b 3).toBitVec.setWidth 64 <<< 24 |||
  (b 4).toBitVec.setWidth 64 <<< 32 ||| (b 5).toBitVec.setWidth 64 <<< 40 |||
  (b 6).toBitVec.setWidth 64 <<< 48 ||| (b 7).toBitVec.setWidth 64 <<< 56

/-- Byte `j` of a 64-bit word in little-endian memory. -/
def byteOfWord (w : BitVec 64) (j : Fin 8) : UInt8 := ⟨w.extractLsb' (8 * j) 8⟩

/-- The 64-bit word at an offset of the block. -/
def loadWord (m : Block UInt8) (i : ℕ) : BitVec 64 := wordOfBytes fun j => m.cell (i + j)

/-- Store a 64-bit word at an offset of the block. -/
def storeWord (m : Block UInt8) (i : ℕ) (w : BitVec 64) : Block UInt8 :=
  m.write i (List.ofFn (byteOfWord w))

/-- The loop over 64-bit words after `n` iterations. -/
def xorWords (m : Block UInt8) (scan : ℕ) (mask : BitVec 64) : ℕ → Block UInt8
  | 0 => m
  | i + 1 =>
    let m' := xorWords m scan mask i
    storeWord m' (scan + 8 * i) (loadWord m' (scan + 8 * i) ^^^ mask)

/-- Combine `dataLen` bytes of the block from offset `data` on with the key, in place, 64 bits at
a time up until the end. The address of the data decides how many bytes come before the first
whole word. -/
def fastXOR (isBigEndian : Bool) (m : Block UInt8) (data dataLen : ℕ) (key : MaskingKey) :
    Block UInt8 :=
  if isBigEndian then (xorBytes m data dataLen key).1
  else
    let startAddress := m.addr + data
    let skipBytes := startAddress % 8
    let skipBytes := if skipBytes = 0 then 0 else min (8 - skipBytes) dataLen
    let (m, keyIndex) := if skipBytes = 0 then (m, 0) else xorBytes m data skipBytes key
    let alignKey : MaskingKey := fun j => key (Fin.ofNat 4 (keyIndex + j))
    let scan := data + skipBytes
    let dataLen := dataLen - skipBytes
    let blockCount := dataLen / 8
    let mask := wordOfBytes fun j => alignKey (Fin.ofNat 4 j)
    let m := xorWords m scan mask blockCount
    (xorBytes m (scan + 8 * blockCount) (dataLen - 8 * blockCount) alignKey).1

/-! ### The loops, cell by cell -/

theorem cell_xorLoop (m : Block UInt8) (data : ℕ) (key : MaskingKey) (n i : ℕ) :
    (xorLoop m data key n).cell i =
      if data ≤ i ∧ i < data + n then m.cell i ^^^ key (Fin.ofNat 4 (i - data)) else m.cell i := by
  induction n generalizing i with
  | zero =>
    rw [if_neg (by omega)]
    rfl
  | succ n ih =>
    simp only [xorLoop, Block.set, Function.update_apply]
    by_cases hi : i = data + n
    · subst hi
      rw [if_pos rfl, if_pos (by omega), Nat.add_sub_cancel_left]
      rw [ih, if_neg (by omega)]
    · rw [if_neg hi, ih]
      have hiff : (data ≤ i ∧ i < data + n) ↔ (data ≤ i ∧ i < data + (n + 1)) := by omega
      simp only [hiff]

@[simp] theorem xorLoop_addr (m : Block UInt8) (data : ℕ) (key : MaskingKey) (n : ℕ) :
    (xorLoop m data key n).addr = m.addr := by
  induction n with
  | zero => rfl
  | succ n ih => exact ih

@[simp] theorem xorLoop_size (m : Block UInt8) (data : ℕ) (key : MaskingKey) (n : ℕ) :
    (xorLoop m data key n).size = m.size := by
  induction n with
  | zero => rfl
  | succ n ih => exact ih

theorem byteOfWord_wordOfBytes (b : Fin 8 → UInt8) (j : Fin 8) :
    byteOfWord (wordOfBytes b) j = b j := by
  have h : (wordOfBytes b).extractLsb' (8 * j) 8 = (b j).toBitVec := by
    ext i hi
    fin_cases j <;> simp [wordOfBytes, BitVec.getLsbD_eq_getElem, hi] <;> grind
  simp only [byteOfWord, h]

theorem byteOfWord_xor (v w : BitVec 64) (j : Fin 8) :
    byteOfWord (v ^^^ w) j = byteOfWord v j ^^^ byteOfWord w j := by
  simp [byteOfWord, BitVec.extractLsb'_xor]

theorem cell_storeWord (m : Block UInt8) (i : ℕ) (w : BitVec 64) (k : ℕ) :
    (storeWord m i w).cell k =
      if i ≤ k ∧ k < i + 8 then byteOfWord w (Fin.ofNat 8 (k - i)) else m.cell k := by
  by_cases hk : i ≤ k ∧ k < i + 8
  · obtain ⟨j, rfl⟩ := Nat.exists_eq_add_of_le hk.1
    have hj : j < 8 := by omega
    rw [if_pos hk, storeWord, Block.cell_write_add m (by simpa using hj), List.getElem_ofFn,
      Nat.add_sub_cancel_left]
    congr
    exact (Nat.mod_eq_of_lt hj).symm
  · rw [if_neg hk]
    rcases Nat.lt_or_ge k i with h | h
    · exact Block.cell_write_of_lt m _ h
    · exact Block.cell_write_of_ge m (by simp; omega)

/-- Each word is replaced by its bytes combined with the bytes of the mask. -/
theorem cell_xorWords (m : Block UInt8) (scan : ℕ) (b : Fin 8 → UInt8) (n i : ℕ) :
    (xorWords m scan (wordOfBytes b) n).cell i =
      if scan ≤ i ∧ i < scan + 8 * n then m.cell i ^^^ b (Fin.ofNat 8 (i - scan))
      else m.cell i := by
  induction n generalizing i with
  | zero =>
    rw [if_neg (by omega)]
    rfl
  | succ n ih =>
    simp only [xorWords, cell_storeWord]
    by_cases hi : scan + 8 * n ≤ i ∧ i < scan + 8 * n + 8
    · obtain ⟨j, rfl⟩ := Nat.exists_eq_add_of_le hi.1
      have hj : j < 8 := by omega
      have hcell : (xorWords m scan (wordOfBytes b) n).cell (scan + 8 * n + j) =
          m.cell (scan + 8 * n + j) := by rw [ih, if_neg (by omega)]
      have hidx : Fin.ofNat 8 (scan + 8 * n + j - scan) = Fin.ofNat 8 j := by
        apply Fin.ext
        simp only [Fin.val_ofNat]
        omega
      rw [if_pos hi, if_pos (by omega), byteOfWord_xor, loadWord, byteOfWord_wordOfBytes,
        byteOfWord_wordOfBytes, Nat.add_sub_cancel_left, Fin.val_ofNat, Nat.mod_eq_of_lt hj, hcell,
        hidx]
    · rw [if_neg hi, ih]
      have hiff : (scan ≤ i ∧ i < scan + 8 * n) ↔ (scan ≤ i ∧ i < scan + 8 * (n + 1)) := by omega
      simp only [hiff]

@[simp] theorem xorWords_size (m : Block UInt8) (scan : ℕ) (mask : BitVec 64) (n : ℕ) :
    (xorWords m scan mask n).size = m.size := by
  induction n with
  | zero => rfl
  | succ n ih => exact ih

@[simp] theorem xorWords_addr (m : Block UInt8) (scan : ℕ) (mask : BitVec 64) (n : ℕ) :
    (xorWords m scan mask n).addr = m.addr := by
  induction n with
  | zero => rfl
  | succ n ih => exact ih

/-! ### The whole function -/

theorem cell_slowXOR (m : Block UInt8) (data dataLen : ℕ) (key : MaskingKey) (i : ℕ) :
    (slowXOR m data dataLen key).cell i =
      if data ≤ i ∧ i < data + dataLen then m.cell i ^^^ key (Fin.ofNat 4 (i - data))
      else m.cell i :=
  cell_xorLoop m data key dataLen i

/-- The rotated key of `fastXOR` continues the key where the skipped bytes ended. -/
private theorem alignKey_eq (key : MaskingKey) (skip i : ℕ) :
    key (Fin.ofNat 4 (skip % 4 + (Fin.ofNat 4 i : Fin 4).val)) = key (Fin.ofNat 4 (skip + i)) := by
  congr 1
  apply Fin.ext
  simp only [Fin.val_ofNat]
  omega

/-- Every cell after `fastXOR`: the range is combined with the key, counted from its first byte,
and nothing else changes. -/
theorem cell_fastXOR (isBigEndian : Bool) (m : Block UInt8) (data dataLen : ℕ) (key : MaskingKey)
    (i : ℕ) :
    (fastXOR isBigEndian m data dataLen key).cell i =
      if data ≤ i ∧ i < data + dataLen then m.cell i ^^^ key (Fin.ofNat 4 (i - data))
      else m.cell i := by
  cases isBigEndian with
  | true => exact cell_xorLoop m data key dataLen i
  | false =>
    simp only [fastXOR, Bool.false_eq_true, if_false]
    set skip := if (m.addr + data) % 8 = 0 then 0 else min (8 - (m.addr + data) % 8) dataLen
      with hskip
    have hle : skip ≤ dataLen := by
      rw [hskip]
      split <;> omega
    -- skipping nothing is the byte loop on no bytes
    have hfirst : (if skip = 0 then (m, 0) else xorBytes m data skip key) =
        (xorLoop m data key skip, skip % 4) := by
      split
      · rename_i h0
        simp only [h0, xorLoop, Nat.zero_mod]
      · rfl
    set n := (dataLen - skip) / 8 with hn
    simp only [hfirst]
    simp only [xorBytes, cell_xorLoop, cell_xorWords, alignKey_eq]
    have hn8 : 8 * n ≤ dataLen - skip := by omega
    rcases Nat.lt_or_ge i data with h | h
    · rw [if_neg (by omega), if_neg (by omega), if_neg (by omega), if_neg (by omega)]
    rcases Nat.lt_or_ge i (data + skip) with h1 | h1
    · rw [if_neg (by omega), if_neg (by omega), if_pos (by omega), if_pos (by omega)]
    rcases Nat.lt_or_ge i (data + skip + 8 * n) with h2 | h2
    · have hidx : Fin.ofNat 4 (skip + (Fin.ofNat 8 (i - (data + skip)) : Fin 8).val) =
          Fin.ofNat 4 (i - data) := by
        apply Fin.ext
        simp only [Fin.val_ofNat]
        omega
      rw [if_neg (by omega), if_pos (by omega), if_neg (by omega), if_pos (by omega), hidx]
    rcases Nat.lt_or_ge i (data + dataLen) with h3 | h3
    · have hidx : Fin.ofNat 4 (skip + (i - (data + skip + 8 * n))) = Fin.ofNat 4 (i - data) := by
        apply Fin.ext
        simp only [Fin.val_ofNat]
        omega
      rw [if_pos (by omega), if_neg (by omega), if_neg (by omega), if_pos (by omega), hidx]
    · rw [if_neg (by omega), if_neg (by omega), if_neg (by omega), if_neg (by omega)]

@[simp] theorem fastXOR_addr (isBigEndian : Bool) (m : Block UInt8) (data dataLen : ℕ)
    (key : MaskingKey) : (fastXOR isBigEndian m data dataLen key).addr = m.addr := by
  unfold fastXOR
  split
  · exact xorLoop_addr m data key dataLen
  · simp only [xorBytes, xorLoop_addr, xorWords_addr]
    split_ifs
    · rfl
    · rfl
    · rfl
    · exact xorLoop_addr m data key _

@[simp] theorem fastXOR_size (isBigEndian : Bool) (m : Block UInt8) (data dataLen : ℕ)
    (key : MaskingKey) : (fastXOR isBigEndian m data dataLen key).size = m.size := by
  unfold fastXOR
  split
  · exact xorLoop_size m data key dataLen
  · simp only [xorBytes, xorLoop_size, xorWords_size]
    split_ifs
    · rfl
    · rfl
    · rfl
    · exact xorLoop_size m data key _

/-- The masked range. -/
theorem read_fastXOR (isBigEndian : Bool) (m : Block UInt8) (data dataLen : ℕ)
    (key : MaskingKey) :
    (fastXOR isBigEndian m data dataLen key).read data dataLen =
      maskBytes key (m.read data dataLen) := by
  refine List.ext_getElem (by simp) fun i hi hi' => ?_
  have hlt : i < dataLen := by simpa using hi
  simp only [maskBytes, List.getElem_mapIdx, Block.getElem_read, cell_fastXOR]
  rw [if_pos (by omega), Nat.add_sub_cancel_left]

/-- A range that does not meet the masked one reads as before. -/
theorem read_fastXOR_of_disjoint (isBigEndian : Bool) (m : Block UInt8)
    {data dataLen off n : ℕ} (key : MaskingKey) (h : off + n ≤ data ∨ data + dataLen ≤ off) :
    (fastXOR isBigEndian m data dataLen key).read off n = m.read off n := by
  refine Block.read_congr fun i hi => ?_
  rw [cell_fastXOR, if_neg (by omega)]

/-- `fastXOR` leaves in memory what the byte loop leaves: byte `i` of the range combined with byte
`i mod 4` of the key, and every other byte as it was. So data that is masked at one address,
copied to another and masked again there is restored, whatever the two byte orders and
alignments. -/
theorem fastXOR_eq_slowXOR (isBigEndian isBigEndian' : Bool) (m m' : Block UInt8)
    (data data' dataLen : ℕ) (key : MaskingKey) :
    fastXOR isBigEndian m data dataLen key = slowXOR m data dataLen key ∧
      (∀ i, (fastXOR isBigEndian m data dataLen key).cell i =
        if data ≤ i ∧ i < data + dataLen then m.cell i ^^^ key (Fin.ofNat 4 (i - data))
        else m.cell i) ∧
      (fastXOR isBigEndian' (m'.write data' ((fastXOR isBigEndian m data dataLen key).read data
        dataLen)) data' dataLen key).read data' dataLen = m.read data dataLen := by
  refine ⟨?_, cell_fastXOR isBigEndian m data dataLen key, ?_⟩
  · ext i
    · simp [slowXOR, xorBytes]
    · simp [slowXOR, xorBytes]
    · rw [cell_fastXOR, cell_slowXOR]
  · have hcopy := m'.read_write data' ((fastXOR isBigEndian m data dataLen key).read data dataLen)
    rw [Block.length_read] at hcopy
    rw [read_fastXOR, hcopy, read_fastXOR, maskBytes_maskBytes]

end WsClient
