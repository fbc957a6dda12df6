import WsClient.SimpleBuffer

/-!
# Frame headers as the source reads and writes them

`readHeader` is the first part of the loop body of `_dispatchBinary`: it reads the header of the
frame at the front of the received bytes. `frameHeader` is the header that `sendData` builds. Both
follow the source byte by byte; the frame format itself is in `WsClient.WireFormat`.

## Main definitions

* `Opcode`, `WsHeader`, `WsHeader.frameSize`.
* `readHeader`: the header at the front of the data, with the indices that were read.
* `frameHeader`: the header bytes of an outgoing frame.

## Main results

* `readHeader_none`, `readHeader_some`, `lt_of_mem_headerReads`: when a header is read, and which
  bytes are read for it.
-/

namespace WsClient

/-- The enumeration `opcode_type`. The source casts the four-bit field to it, so every other value
of the field can occur as well. -/
inductive Opcode
  | continuation
  | textFrame
  | binaryFrame
  | close
  | ping
  | pong
  /-- A value that the enumeration does not name. -/
  | reserved (code : ℕ)
  deriving DecidableEq, Repr

namespace Opcode

/-- The cast of the four-bit field. -/
def ofNat : ℕ → Opcode
  | 0 => continuation
  | 1 => textFrame
  | 2 => binaryFrame
  | 8 => close
  | 9 => ping
  | 10 => pong
  | n => reserved n

/-- The value of the enumerator. -/
def toNat : Opcode → ℕ
  | continuation => 0
  | textFrame => 1
  | binaryFrame => 2
  | close => 8
  | ping => 9
  | pong => 10
  | reserved n => n

/-- The opcodes of frames that carry message data. -/
def isData : Opcode → Bool
  | textFrame | binaryFrame | continuation => true
  | _ => false

/-- The opcodes at which `_dispatchBinary` closes the connection: `CLOSE` and every value that the
enumeration does not name. -/
def isStop : Opcode → Bool
  | close | reserved _ => true
  | _ => false

end Opcode

/-- `wsheader_type`. -/
structure WsHeader where
  /-- Size of the header. -/
  headerSize : ℕ
  /-- Whether or not this is the final block. -/
  fin : Bool
  /-- Whether or not this frame uses masking. -/
  mask : Bool
  opcode : Opcode
  /-- The seven-bit length field. -/
  N0 : ℕ
  /-- The 64-bit length of the payload. -/
  N : ℕ
  /-- Masking key used for this frame. -/
  maskingKey : MaskingKey
  deriving DecidableEq

/-- `frameSize` of `_dispatchBinary`, a 32-bit sum of a truncated length. -/
def WsHeader.frameSize (ws : WsHeader) : ℕ := add32 ws.headerSize (u32 ws.N)

theorem WsHeader.frameSize_eq (ws : WsHeader) :
    ws.frameSize = (ws.headerSize + ws.N) % 4294967296 := Word.add_wrap _ _ _

theorem WsHeader.frameSize_of_lt {ws : WsHeader} (h : ws.headerSize + ws.N < 4294967296) :
    ws.frameSize = ws.headerSize + ws.N := ws.frameSize_eq.trans (Nat.mod_eq_of_lt h)

/-- The payload length as the source assembles it from the bytes after the second. -/
def extendedLength (data : ℕ → UInt8) (N0 : ℕ) : ℕ :=
  if N0 < 126 then N0
  else if N0 = 126 then (data 2).toNat <<< 8 ||| (data 3).toNat <<< 0
  else
    (data 2).toNat <<< 56 ||| (data 3).toNat <<< 48 ||| (data 4).toNat <<< 40 |||
      (data 5).toNat <<< 32 ||| (data 6).toNat <<< 24 ||| (data 7).toNat <<< 16 |||
      (data 8).toNat <<< 8 ||| (data 9).toNat <<< 0

/-- The index of the masking key: `i` in the source. -/
def keyIndex (N0 : ℕ) : ℕ := if N0 < 126 then 2 else if N0 = 126 then 4 else 10

/-- `header_size`, from the seven-bit length field and the mask bit. -/
def sizeOfHeader (N0 : ℕ) (mask : Bool) : ℕ :=
  2 + (if N0 = 126 then 2 else 0) + (if N0 = 127 then 8 else 0) + (if mask then 4 else 0)

/-- The seven-bit length field `N0`. -/
def lengthField (data : ℕ → UInt8) : ℕ := (data 1 &&& 0x7f).toNat

/-- The mask bit. -/
def maskField (data : ℕ → UInt8) : Bool := data 1 &&& 0x80 == 0x80

/-- The fields of the header, decoded from the bytes at the front of the data. -/
def headerOf (data : ℕ → UInt8) : WsHeader where
  headerSize := sizeOfHeader (lengthField data) (maskField data)
  fin := data 0 &&& 0x80 == 0x80
  mask := maskField data
  opcode := Opcode.ofNat (data 0 &&& 0x0f).toNat
  N0 := lengthField data
  N := extendedLength data (lengthField data)
  maskingKey := fun j => if maskField data then data (keyIndex (lengthField data) + j) else 0

/-- The indices of the bytes from which a whole header is decoded: the first two, the extended
length, and the key if there is one. -/
def headerReads (ws : WsHeader) : List ℕ :=
  [0, 1] ++ (List.range (keyIndex ws.N0 - 2)).map (2 + ·) ++
    (if ws.mask then (List.range 4).map (keyIndex ws.N0 + ·) else [])

/-- Read the header at the front of `dataLen` bytes of data. Without enough bytes for it there is
no header. The second component lists the indices of `data` that were read. -/
def readHeader (data : ℕ → UInt8) (dataLen : ℕ) : Option WsHeader × List ℕ :=
  if dataLen < 2 then (none, [])
  else if dataLen < (headerOf data).headerSize then (none, [0, 1])
  else (some (headerOf data), headerReads (headerOf data))

/-- The bytes `header[0 .. headerLen)` that `sendData` builds. -/
def frameHeader (useMask : Bool) (type : Opcode) (messageSize : ℕ) (maskingKey : MaskingKey) :
    Bytes :=
  let maskBit : UInt8 := if useMask then 0x80 else 0
  let key : Bytes :=
    if useMask then [maskingKey 0, maskingKey 1, maskingKey 2, maskingKey 3] else []
  let byte (shift : ℕ) : UInt8 := UInt8.ofNat (messageSize >>> shift &&& 0xff)
  let first : UInt8 := 0x80 ||| UInt8.ofNat type.toNat
  if messageSize < 126 then [first, UInt8.ofNat (messageSize &&& 0xff) ||| maskBit] ++ key
  else if messageSize < 65536 then [first, 126 ||| maskBit, byte 8, byte 0] ++ key
  else
    [first, 127 ||| maskBit, byte 56, byte 48, byte 40, byte 32, byte 24, byte 16, byte 8,
      byte 0] ++ key

theorem length_frameHeader_le (useMask : Bool) (type : Opcode) (messageSize : ℕ)
    (maskingKey : MaskingKey) : (frameHeader useMask type messageSize maskingKey).length ≤ 14 := by
  unfold frameHeader
  split_ifs <;> simp

/-! ### What reading a header touches -/

variable {data : ℕ → UInt8} {dataLen : ℕ} {ws : WsHeader} {reads : List ℕ}

/-- The seven-bit field is at most 127. -/
theorem lengthField_le (data : ℕ → UInt8) : lengthField data ≤ 127 := by
  rw [lengthField, UInt8.toNat_and]
  exact Nat.and_le_right

theorem two_le_sizeOfHeader (N0 : ℕ) (mask : Bool) : 2 ≤ sizeOfHeader N0 mask := by
  unfold sizeOfHeader
  omega

/-- The key is the last part of the header. -/
theorem sizeOfHeader_eq {N0 : ℕ} (h : N0 ≤ 127) (mask : Bool) :
    sizeOfHeader N0 mask = keyIndex N0 + (if mask then 4 else 0) := by
  unfold sizeOfHeader keyIndex
  obtain h | rfl | rfl : N0 < 126 ∨ N0 = 126 ∨ N0 = 127 := by omega
  · rw [if_neg (by omega), if_neg (by omega), if_pos h]
  · rfl
  · rfl

theorem headerSize_pos (data : ℕ → UInt8) : 2 ≤ (headerOf data).headerSize :=
  two_le_sizeOfHeader _ _

/-- All bytes that are read for a header belong to it. -/
theorem lt_of_mem_headerReads {i : ℕ} (h : i ∈ headerReads (headerOf data)) :
    i < (headerOf data).headerSize := by
  have hsize : (headerOf data).headerSize =
      keyIndex (headerOf data).N0 + (if (headerOf data).mask then 4 else 0) :=
    sizeOfHeader_eq (lengthField_le data) _
  have hpos := headerSize_pos data
  simp only [headerReads, List.mem_append] at h
  rcases h with (h | h) | h
  · have : i = 0 ∨ i = 1 := by simpa using h
    omega
  · obtain ⟨j, hj, rfl⟩ := List.mem_map.mp h
    have hj := List.mem_range.mp hj
    omega
  · split_ifs at h with hm
    · obtain ⟨j, hj, rfl⟩ := List.mem_map.mp h
      have hj := List.mem_range.mp hj
      rw [if_pos hm] at hsize
      omega
    · cases h

/-- Without a header, only the first two bytes were read, and only if they are there. -/
theorem readHeader_none (h : readHeader data dataLen = (none, reads)) :
    ∀ i ∈ reads, i < dataLen := by
  unfold readHeader at h
  split_ifs at h with h2 hs
  · obtain rfl : [] = reads := by simpa using h
    simp
  · obtain rfl : [0, 1] = reads := by simpa using h
    simp
    omega
  · cases h

/-- A header that is read lies inside the data. -/
theorem readHeader_some (h : readHeader data dataLen = (some ws, reads)) :
    ws = headerOf data ∧ reads = headerReads ws ∧ ws.headerSize ≤ dataLen := by
  unfold readHeader at h
  split_ifs at h with h2 hs
  · cases h
  · cases h
  · obtain ⟨hws, rfl⟩ := Prod.mk.inj h
    obtain rfl := Option.some.inj hws
    exact ⟨rfl, rfl, Nat.le_of_not_lt hs⟩

/-- Only the bytes of the header decide what is read. -/
theorem headerOf_congr {data' : ℕ → UInt8} (h2 : 2 ≤ dataLen) (h : ∀ i < dataLen, data i = data' i)
    (hsize : (headerOf data).headerSize ≤ dataLen) : headerOf data = headerOf data' := by
  have hN0 : lengthField data = lengthField data' := by simp only [lengthField, h 1 (by omega)]
  have hmask : maskField data = maskField data' := by simp only [maskField, h 1 (by omega)]
  have hle := lengthField_le data
  have hindex : (headerOf data).headerSize =
      keyIndex (lengthField data) + (if maskField data then 4 else 0) :=
    sizeOfHeader_eq hle _
  have hext : extendedLength data (lengthField data) = extendedLength data' (lengthField data) := by
    unfold extendedLength
    unfold keyIndex at hindex
    by_cases h126 : lengthField data < 126
    · rw [if_pos h126, if_pos h126]
    by_cases h16 : lengthField data = 126
    · rw [if_neg h126, if_neg h126, if_pos h16, if_pos h16]
      rw [if_neg h126, if_pos h16] at hindex
      rw [h 2 (by omega), h 3 (by omega)]
    · rw [if_neg h126, if_neg h126, if_neg h16, if_neg h16]
      rw [if_neg h126, if_neg h16] at hindex
      rw [h 2 (by omega), h 3 (by omega), h 4 (by omega), h 5 (by omega), h 6 (by omega),
        h 7 (by omega), h 8 (by omega), h 9 (by omega)]
  have hkey : (fun j : Fin 4 => if maskField data then data (keyIndex (lengthField data) + j)
      else 0) = fun j : Fin 4 => if maskField data then data' (keyIndex (lengthField data) + j)
      else 0 := by
    funext j
    split_ifs at hindex ⊢
    · exact h _ (by omega)
    · rfl
  simp only [headerOf, ← hN0, ← hmask, hext, hkey, h 0 (by omega)]

theorem readHeader_congr {data' : ℕ → UInt8} (h : ∀ i < dataLen, data i = data' i) :
    readHeader data dataLen = readHeader data' dataLen := by
  unfold readHeader
  by_cases h2 : dataLen < 2
  · rw [if_pos h2, if_pos h2]
  have hsize : (headerOf data).headerSize = (headerOf data').headerSize := by
    simp only [headerOf, lengthField, maskField, h 1 (by omega)]
  rw [if_neg h2, if_neg h2, ← hsize]
  split_ifs with hlen
  · rfl
  · rw [headerOf_congr (by omega) h (by omega)]

theorem readHeader_eq_some (h : (headerOf data).headerSize ≤ dataLen) :
    readHeader data dataLen = (some (headerOf data), headerReads (headerOf data)) := by
  have hpos := headerSize_pos data
  rw [readHeader, if_neg (by omega), if_neg (by omega)]

end WsClient
