import WsClient.Frame
import WsClient.Library.BigEndian
import WsClient.Library.Framing

/-!
# The frame format

The frames of RFC 6455, section 5.2, as lists of bytes: reading one frame off a stream and writing
one frame. This file is independent of how the source reads and writes headers; `parseFrame_eq`
and `frameHeader_append` connect the two.

## Main definitions

* `Frame`, `parseFrame`, `frameDecoder`: a frame with its payload unmasked, and reading it.
* `encodeFrame`: an unfragmented frame with the shortest length encoding.

## Main results

* `parseFrame_encodeFrame`: the round trip.
* `parseFrame_eq`: the format read through the header fields of the source.
* `frameHeader_append`: the header of `sendData` followed by the payload is a frame of the format.
-/

namespace WsClient

/-- A frame with its payload unmasked. -/
structure Frame where
  /-- Whether this is the last frame of a message. -/
  fin : Bool
  opcode : Opcode
  payload : Bytes
  deriving DecidableEq

/-- The number of bytes of the extended payload length. -/
def extendedBytes (N0 : ℕ) : ℕ := if N0 < 126 then 0 else if N0 = 126 then 2 else 8

/-- The masking key at the front of a list of bytes. -/
def keyOf (s : Bytes) : MaskingKey := fun j => s.getD j 0

/-- Read the masking key, if there is one, and the payload of `N` bytes. -/
def parsePayload (fin : Bool) (opcode : Opcode) (masked : Bool) (N : ℕ) (s : Bytes) :
    Option (Frame × Bytes) :=
  if masked then
    if s.length < 4 + N then none
    else some (⟨fin, opcode, maskBytes (keyOf s) ((s.drop 4).take N)⟩, s.drop (4 + N))
  else
    if s.length < N then none
    else some (⟨fin, opcode, s.take N⟩, s.drop N)

/-- The payload length: the seven-bit field, or the number in the extended length. -/
def payloadLength (N0 : ℕ) (s : Bytes) : ℕ :=
  if N0 < 126 then N0 else ofBigEndian (s.take (extendedBytes N0))

/-- Read the extended payload length, the masking key and the payload. -/
def parseLength (fin : Bool) (opcode : Opcode) (masked : Bool) (N0 : ℕ) (s : Bytes) :
    Option (Frame × Bytes) :=
  if s.length < extendedBytes N0 then none
  else parsePayload fin opcode masked (payloadLength N0 s) (s.drop (extendedBytes N0))

/-- Read one frame off the front of a stream. -/
def parseFrame : Bytes → Option (Frame × Bytes)
  | b0 :: b1 :: s =>
    parseLength (b0 &&& 0x80 == 0x80) (Opcode.ofNat (b0 &&& 0x0f).toNat) (b1 &&& 0x80 == 0x80)
      (b1 &&& 0x7f).toNat s
  | _ => none

/-- The mask bit and the length of a payload, in the shortest of the three encodings. -/
def lengthBytes (masked : Bool) (n : ℕ) : Bytes :=
  if n < 126 then [UInt8.ofNat (128 * masked.toNat + n)]
  else if n < 65536 then UInt8.ofNat (128 * masked.toNat + 126) :: bigEndian 2 n
  else UInt8.ofNat (128 * masked.toNat + 127) :: bigEndian 8 n

/-- The masking key in a frame. -/
def keyBytes : Option MaskingKey → Bytes
  | none => []
  | some k => [k 0, k 1, k 2, k 3]

/-- The payload data in a frame. -/
def applyMask : Option MaskingKey → Bytes → Bytes
  | none, payload => payload
  | some k, payload => maskBytes k payload

/-- An unfragmented frame: `FIN` is set, the length encoding is the shortest, and with a key the
frame is masked. -/
def encodeFrame (key : Option MaskingKey) (opcode : Opcode) (payload : Bytes) : Bytes :=
  UInt8.ofNat (128 + opcode.toNat) ::
    (lengthBytes key.isSome payload.length ++ (keyBytes key ++ applyMask key payload))

@[simp] theorem length_applyMask (key : Option MaskingKey) (payload : Bytes) :
    (applyMask key payload).length = payload.length := by
  cases key <;> simp [applyMask]

/-! ### Reading is stable -/

variable {fin masked : Bool} {opcode : Opcode} {N N0 : ℕ} {s r t : Bytes} {f : Frame}

private theorem keyOf_append (h : 4 ≤ s.length) (t : Bytes) : keyOf (s ++ t) = keyOf s := by
  funext j
  have hj : (j : ℕ) < s.length := by omega
  simp [keyOf, List.getElem?_append_left hj]

private theorem parsePayload_stable (t : Bytes)
    (h : parsePayload fin opcode masked N s = some (f, r)) :
    parsePayload fin opcode masked N (s ++ t) = some (f, r ++ t) := by
  cases masked with
  | true =>
    simp only [parsePayload, if_true] at h ⊢
    split_ifs at h with hlen
    obtain ⟨rfl, rfl⟩ : _ ∧ _ := by simpa using h
    have hlen' : ¬(s ++ t).length < 4 + N := by simp; omega
    rw [if_neg hlen', keyOf_append (by omega), List.drop_append_of_le_length (by omega),
      List.drop_append_of_le_length (by omega), List.take_append_of_le_length (by simp; omega)]
  | false =>
    simp only [parsePayload, Bool.false_eq_true, if_false] at h ⊢
    split_ifs at h with hlen
    obtain ⟨rfl, rfl⟩ : _ ∧ _ := by simpa using h
    have hlen' : ¬(s ++ t).length < N := by simp; omega
    rw [if_neg hlen', List.drop_append_of_le_length (by omega),
      List.take_append_of_le_length (by omega)]

private theorem parseLength_stable (t : Bytes)
    (h : parseLength fin opcode masked N0 s = some (f, r)) :
    parseLength fin opcode masked N0 (s ++ t) = some (f, r ++ t) := by
  unfold parseLength at h ⊢
  split_ifs at h with hlen
  have hlen' : ¬(s ++ t).length < extendedBytes N0 := by simp; omega
  have hN : payloadLength N0 (s ++ t) = payloadLength N0 s := by
    rw [payloadLength, payloadLength, List.take_append_of_le_length (by omega)]
  rw [if_neg hlen', hN, List.drop_append_of_le_length (by omega)]
  exact parsePayload_stable t h

private theorem parsePayload_length (h : parsePayload fin opcode masked N s = some (f, r)) :
    r.length ≤ s.length := by
  unfold parsePayload at h
  split_ifs at h <;>
  · obtain ⟨-, rfl⟩ : _ ∧ _ := by simpa using h
    simp

private theorem parseLength_length (h : parseLength fin opcode masked N0 s = some (f, r)) :
    r.length ≤ s.length := by
  unfold parseLength at h
  split_ifs at h with hlen
  exact (parsePayload_length h).trans (by simp)

/-- Reading frames off a byte stream. -/
def frameDecoder : Decoder UInt8 Frame where
  parse := parseFrame
  length_lt {s f r} h := by
    match s with
    | [] | [_] => cases h
    | b0 :: b1 :: s =>
      have := parseLength_length h
      simp only [List.length_cons]
      omega
  stable {s f r} t h := by
    match s with
    | [] | [_] => cases h
    | b0 :: b1 :: s => exact parseLength_stable t h

@[simp] theorem frameDecoder_parse (s : Bytes) : frameDecoder.parse s = parseFrame s := rfl

/-! ### The round trip -/

/-- The fields of the first two bytes of an encoded frame. -/
private theorem first_byte : ∀ n : Fin 16,
    (UInt8.ofNat (128 + n) &&& 0x80 == 0x80) = true ∧
      (UInt8.ofNat (128 + n) &&& 0x0f).toNat = n := by decide +kernel

private theorem second_byte (masked : Bool) : ∀ n : Fin 128,
    (UInt8.ofNat (128 * masked.toNat + n) &&& 0x80 == 0x80) = masked ∧
      (UInt8.ofNat (128 * masked.toNat + n) &&& 0x7f).toNat = n := by
  cases masked <;> decide +kernel

private theorem parsePayload_encoded (key : Option MaskingKey) (payload r : Bytes) :
    parsePayload fin opcode key.isSome payload.length (keyBytes key ++ applyMask key payload ++ r) =
      some (⟨fin, opcode, payload⟩, r) := by
  cases key with
  | none => simp [parsePayload, keyBytes, applyMask]
  | some k =>
    have hkey : keyOf (keyBytes (some k) ++ applyMask (some k) payload ++ r) = k := by
      funext j
      fin_cases j <;> rfl
    have hlen : ¬(keyBytes (some k) ++ applyMask (some k) payload ++ r).length <
        4 + payload.length := by
      simp [keyBytes]
      omega
    simp only [parsePayload, Option.isSome_some, if_true, if_neg hlen, hkey]
    have hdrop : (keyBytes (some k) ++ applyMask (some k) payload ++ r).drop 4 =
        maskBytes k payload ++ r := rfl
    rw [← List.drop_drop, hdrop, List.take_left' (by simp), List.drop_left' (by simp),
      maskBytes_maskBytes]

/-- Reading the length of an encoded frame leads to its key and payload. -/
private theorem parseLength_encoded (masked : Bool) {n : ℕ} (s : Bytes) (h : n < 2 ^ 64)
    {b1 : UInt8} {rest : Bytes} (hb : lengthBytes masked n = b1 :: rest) :
    parseLength fin opcode (b1 &&& 0x80 == 0x80) (b1 &&& 0x7f).toNat (rest ++ s) =
      parsePayload fin opcode masked n s := by
  unfold lengthBytes at hb
  split_ifs at hb with h1 h2
  · obtain ⟨rfl, rfl⟩ := List.cons.inj hb
    obtain ⟨hm, hn⟩ := second_byte masked ⟨n, by omega⟩
    simp only at hm hn
    rw [hm, hn, parseLength]
    simp only [extendedBytes, payloadLength, if_pos h1, Nat.not_lt_zero, if_false, List.drop_zero,
      List.nil_append]
  · obtain ⟨rfl, rfl⟩ := List.cons.inj hb
    obtain ⟨hm, hn⟩ := second_byte masked ⟨126, by omega⟩
    simp only at hm hn
    have hext : extendedBytes 126 = 2 := rfl
    rw [hm, hn, parseLength, hext, if_neg (by rw [List.length_append, length_bigEndian]; omega),
      payloadLength, if_neg (by omega), hext, List.take_left' (length_bigEndian 2 _),
      List.drop_left' (length_bigEndian 2 _), ofBigEndian_bigEndian (by omega)]
  · obtain ⟨rfl, rfl⟩ := List.cons.inj hb
    obtain ⟨hm, hn⟩ := second_byte masked ⟨127, by omega⟩
    simp only at hm hn
    have hext : extendedBytes 127 = 8 := rfl
    rw [hm, hn, parseLength, hext, if_neg (by rw [List.length_append, length_bigEndian]; omega),
      payloadLength, if_neg (by omega), hext, List.take_left' (length_bigEndian 8 _),
      List.drop_left' (length_bigEndian 8 _), ofBigEndian_bigEndian (h.trans_le (by norm_num))]

/-- The opcodes of the enumeration survive the four-bit field. -/
theorem Opcode.ofNat_toNat (h : ∀ n, opcode ≠ .reserved n) :
    opcode.toNat < 16 ∧ Opcode.ofNat opcode.toNat = opcode := by
  cases opcode <;> first | exact ⟨by decide, rfl⟩ | exact absurd rfl (h _)

/-- Reading back an encoded frame, whatever follows it. -/
theorem parseFrame_encodeFrame (key : Option MaskingKey) {payload : Bytes} (r : Bytes)
    (hop : ∀ n, opcode ≠ .reserved n) (h : payload.length < 2 ^ 64) :
    parseFrame (encodeFrame key opcode payload ++ r) = some (⟨true, opcode, payload⟩, r) := by
  obtain ⟨hlt, hof⟩ := Opcode.ofNat_toNat hop
  obtain ⟨hfin, hcode⟩ := first_byte ⟨opcode.toNat, hlt⟩
  simp only at hfin hcode
  obtain ⟨b1, rest, hb⟩ : ∃ b1 rest, lengthBytes key.isSome payload.length = b1 :: rest := by
    unfold lengthBytes
    split_ifs <;> exact ⟨_, _, rfl⟩
  simp only [encodeFrame, hb, List.cons_append, parseFrame, hfin, hcode, hof, List.append_assoc]
  rw [parseLength_encoded key.isSome _ h hb, ← List.append_assoc]
  exact parsePayload_encoded key payload r

/-! ### The header fields of the source -/

/-- Two bytes shifted and combined are a base-256 numeral. -/
private theorem shiftLeft_or (a : ℕ) (b : UInt8) : a <<< 8 ||| b.toNat = a * 256 + b.toNat := by
  rw [← Nat.shiftLeft_add_eq_or_of_lt (b.toNat_lt), Nat.shiftLeft_eq]

/-- The extended length of the source is the big-endian number of its bytes. -/
private theorem extendedLength_eq (data : ℕ → UInt8) {N0 : ℕ} (h : ¬N0 < 126) (h' : N0 ≤ 127) :
    extendedLength data N0 =
      ofBigEndian ((List.range (extendedBytes N0)).map fun i => data (2 + i)) := by
  obtain rfl | rfl : N0 = 126 ∨ N0 = 127 := by omega
  · have hlist : (List.range (extendedBytes 126)).map (fun i => data (2 + i)) =
        [data 2, data 3] := rfl
    rw [hlist, extendedLength, if_neg h, if_pos rfl, ofBigEndian]
    simpa using shiftLeft_or (data 2).toNat (data 3)
  · have hlist : (List.range (extendedBytes 127)).map (fun i => data (2 + i)) =
        [data 2, data 3, data 4, data 5, data 6, data 7, data 8, data 9] := rfl
    rw [hlist, extendedLength, if_neg h, if_neg (by omega), ofBigEndian]
    simp only [List.foldl_cons, List.foldl_nil, ← shiftLeft_or, Nat.shiftLeft_or_distrib,
      ← Nat.shiftLeft_add]
    norm_num

/-- The frame at the front of `s`, read through the header fields of the source. -/
def frameOf (data : ℕ → UInt8) (s : Bytes) : Frame :=
  let ws := headerOf data
  { fin := ws.fin
    opcode := ws.opcode
    payload :=
      let body := (s.drop ws.headerSize).take ws.N
      if ws.mask then maskBytes ws.maskingKey body else body }

/-- The extended length lies between the first two bytes and the key. -/
private theorem keyIndex_eq {N0 : ℕ} : keyIndex N0 = 2 + extendedBytes N0 := by
  unfold keyIndex extendedBytes
  split_ifs <;> rfl

/-- Reading one frame is finding a header of the source and the payload it announces. -/
theorem parseFrame_eq {data : ℕ → UInt8} (hdata : ∀ i < s.length, s[i]? = some (data i)) :
    parseFrame s =
      if s.length < 2 ∨ s.length < (headerOf data).headerSize + (headerOf data).N then none
      else some (frameOf data s, s.drop ((headerOf data).headerSize + (headerOf data).N)) := by
  match s with
  | [] | [_] => simp [parseFrame]
  | b0 :: b1 :: s =>
    obtain rfl : b0 = data 0 := by simpa using hdata 0 (by simp)
    obtain rfl : b1 = data 1 := by simpa using hdata 1 (by simp)
    have htail (i : ℕ) (hi : i < s.length) : s[i]? = some (data (2 + i)) := by
      have := hdata (i + 2) (by simpa using hi)
      rwa [List.getElem?_cons_succ, List.getElem?_cons_succ, Nat.add_comm i 2] at this
    have hN0 := lengthField_le data
    have hsize : (headerOf data).headerSize =
        2 + extendedBytes (lengthField data) + (if maskField data then 4 else 0) := by
      rw [← keyIndex_eq]
      exact sizeOfHeader_eq hN0 _
    change parseLength (headerOf data).fin (headerOf data).opcode (maskField data)
      (lengthField data) s = _
    rw [parseLength]
    by_cases hext : s.length < extendedBytes (lengthField data)
    · rw [if_pos hext, if_pos (.inr (by simp only [List.length_cons]; omega))]
    have hN : payloadLength (lengthField data) s = (headerOf data).N := by
      change _ = extendedLength data (lengthField data)
      by_cases h126 : lengthField data < 126
      · rw [payloadLength, extendedLength, if_pos h126, if_pos h126]
      · rw [payloadLength, if_neg h126, extendedLength_eq data h126 hN0]
        congr 1
        refine List.ext_getElem (by simp; omega) fun i hi hi' => ?_
        have hlt : i < s.length := by simp at hi; omega
        rw [List.getElem_take, List.getElem_map, List.getElem_range]
        simpa [List.getElem?_eq_getElem hlt] using htail i hlt
    have hdrop (k : ℕ) : (data 0 :: data 1 :: s).drop (2 + k) = s.drop k := by
      rw [Nat.add_comm]
      rfl
    rw [if_neg hext, hN, parsePayload]
    cases hm : maskField data with
    | true =>
      simp only [hm, if_true] at hsize ⊢
      by_cases hlen : (s.drop (extendedBytes (lengthField data))).length < 4 + (headerOf data).N
      · rw [if_pos hlen, if_pos (.inr (by simp only [List.length_drop] at hlen; simp; omega))]
      · have hlen' : extendedBytes (lengthField data) + 4 + (headerOf data).N ≤ s.length := by
          simp only [List.length_drop] at hlen
          omega
        have hkey : keyOf (s.drop (extendedBytes (lengthField data))) =
            (headerOf data).maskingKey := by
          funext j
          have hj : extendedBytes (lengthField data) + j < s.length := by omega
          simp [keyOf, headerOf, hm, htail _ hj, keyIndex_eq, Nat.add_assoc]
        have hmask : (headerOf data).mask = true := hm
        rw [if_neg hlen, if_neg (by simp; omega), hkey, hsize, Nat.add_assoc, Nat.add_assoc, hdrop,
          frameOf]
        simp only [hmask, if_true, hsize, Nat.add_assoc, hdrop, List.drop_drop]
    | false =>
      simp only [hm, Bool.false_eq_true, if_false, Nat.add_zero] at hsize ⊢
      by_cases hlen : (s.drop (extendedBytes (lengthField data))).length < (headerOf data).N
      · rw [if_pos hlen, if_pos (.inr (by simp only [List.length_drop] at hlen; simp; omega))]
      · have hlen' : extendedBytes (lengthField data) + (headerOf data).N ≤ s.length := by
          simp only [List.length_drop] at hlen
          omega
        have hmask : (headerOf data).mask = false := hm
        rw [if_neg hlen, if_neg (by simp; omega), hsize, Nat.add_assoc, hdrop, frameOf]
        simp only [hmask, Bool.false_eq_true, if_false, hsize, hdrop, List.drop_drop]

/-- The header that `sendData` builds, in terms of the format. -/
private theorem frameHeader_eq (useMask : Bool) {type : Opcode} (n : ℕ) (key : MaskingKey)
    (hop : ∀ n, type ≠ .reserved n) :
    frameHeader useMask type n key = UInt8.ofNat (128 + type.toNat) ::
      (lengthBytes useMask n ++ keyBytes (if useMask then some key else none)) := by
  have hfirst : (0x80 : UInt8) ||| UInt8.ofNat type.toNat = UInt8.ofNat (128 + type.toNat) := by
    cases type <;> first | rfl | exact absurd rfl (hop _)
  have hsmall : ∀ n : Fin 128, UInt8.ofNat n ||| (if useMask then 0x80 else 0) =
      UInt8.ofNat (128 * useMask.toNat + n) := by
    cases useMask <;> decide +kernel
  have h126 : (126 : UInt8) ||| (if useMask then 0x80 else 0) =
      UInt8.ofNat (128 * useMask.toNat + 126) := hsmall ⟨126, by omega⟩
  have h127 : (127 : UInt8) ||| (if useMask then 0x80 else 0) =
      UInt8.ofNat (128 * useMask.toNat + 127) := hsmall ⟨127, by omega⟩
  have hand (m : ℕ) : m &&& 0xff = m % 256 := Nat.and_two_pow_sub_one_eq_mod m 8
  have hbyte (k s : ℕ) (hs : s = 8 * k) :
      UInt8.ofNat (n >>> s &&& 0xff) = UInt8.ofNat (n / 256 ^ k) := by
    rw [hs, hand, Nat.shiftRight_eq_div_pow, pow_mul]
    exact UInt8.ofNat_mod_size
  have hkey : (if useMask then [key 0, key 1, key 2, key 3] else []) =
      keyBytes (if useMask then some key else none) := by
    cases useMask <;> rfl
  unfold frameHeader lengthBytes
  simp only [hkey, hfirst, h126, h127]
  generalize keyBytes (if useMask then some key else none) = k
  by_cases h1 : n < 126
  · have hn : n &&& 0xff = n := by rw [hand, Nat.mod_eq_of_lt (by omega)]
    rw [if_pos h1, if_pos h1, hn, hsmall ⟨n, by omega⟩]
    rfl
  rw [if_neg h1, if_neg h1]
  by_cases h2 : n < 65536
  · rw [if_pos h2, if_pos h2, hbyte 1 8 rfl, hbyte 0 0 rfl]
    rfl
  · rw [if_neg h2, if_neg h2, hbyte 7 56 rfl, hbyte 6 48 rfl, hbyte 5 40 rfl, hbyte 4 32 rfl,
      hbyte 3 24 rfl, hbyte 2 16 rfl, hbyte 1 8 rfl, hbyte 0 0 rfl]
    rfl

/-- The header that `sendData` builds, followed by the payload as it is sent, is a frame of the
format. -/
theorem frameHeader_append (useMask : Bool) {type : Opcode} (payload : Bytes) (key : MaskingKey)
    (hop : ∀ n, type ≠ .reserved n) :
    frameHeader useMask type payload.length key ++
        applyMask (if useMask then some key else none) payload =
      encodeFrame (if useMask then some key else none) type payload := by
  have hsome : (if useMask then some key else none).isSome = useMask := by
    cases useMask <;> rfl
  rw [frameHeader_eq useMask _ key hop, encodeFrame, hsome, List.cons_append, List.append_assoc]

end WsClient
