import WsClient.AtomicSend
import WsClient.SenderRuns

/-!
# The first byte of the first frame

Unless the transmit buffer is damaged, every operation of a connection appends to it or hands its
front to the socket, and the first byte that goes out is the first byte of the first frame that was
issued. Whole frames are another matter: a payload that is refused leaves its header alone.

Two things damage the buffer. `sendData` masks the last bytes of the buffer also when it refused the
payload, and a payload for which the size of a larger block wraps around in 32 bits makes the block
smaller. The guard `PayloadsKept` excludes the steps in which one of them happens.

## Main definitions

* `WebSocketImpl.PayloadKept`, `Session.PayloadsKept`: the conditions on the state and the payload.
* `Extends`: what an operation does to the bytes that go out.

## Main results

* `Session.step_extends`, `Session.run_extends`: one step and whole runs.
* `Session.head_acceptedBytes`: the first byte that the socket accepts.
-/

namespace WsClient

namespace SimpleBuffer

/-- `NoWrap`, which depends on the cursors only. -/
def Extent.NoWrap (x : Extent) (n : ℕ) : Prop :=
  x.maxLen * 2 + n < 4294967296 ∨ 4294967296 ≤ x.maxLen + n

instance (x : Extent) (n : ℕ) : Decidable (x.NoWrap n) := inferInstanceAs (Decidable (_ ∨ _))

/-- Nothing has been put in the buffer of a connection. -/
def Fresh (b : SimpleBuffer) : Prop := b.extent = ⟨0, 0, defaultBufferSize, maximumBufferSize⟩

instance (b : SimpleBuffer) : Decidable b.Fresh := inferInstanceAs (Decidable (_ = _))

theorem Fresh.accepts {b : SimpleBuffer} (h : b.Fresh) {n : ℕ} (hn : n ≤ defaultBufferSize) :
    b.Accepts n := by
  rw [← accepts_extent, h]
  exact .inl hn

theorem Fresh.getData {b : SimpleBuffer} (h : b.Fresh) : b.getData = [] := by
  have hstart : b.mStartLoc = 0 := congrArg Extent.startLoc h
  have hend : b.mEndLoc = 0 := congrArg Extent.endLoc h
  rw [← getSize_eq_zero_iff, getSize, hstart, hend]
  rfl

theorem Fresh.wf {b : SimpleBuffer} (h : b.Fresh) (hsize : b.mMaxLen ≤ b.mBuffer.size) : b.WF := by
  have hstart : b.mStartLoc = 0 := congrArg Extent.startLoc h
  have hend : b.mEndLoc = 0 := congrArg Extent.endLoc h
  have hmax : b.mMaxLen = 16384 := congrArg Extent.maxLen h
  have hgrow : b.mMaxGrowSize = 536870912 := congrArg Extent.maxGrowSize h
  exact ⟨by omega, by omega, by omega, by omega, hsize⟩

end SimpleBuffer

/-- The bytes that the socket accepts, followed by those that are in the transmit buffer afterwards,
begin with those that were in it before. In a fresh buffer the first of them is the first byte that
is issued. No payload that is to be masked is refused. -/
structure Extends (w w' : WebSocketImpl) (es : List Event) : Prop where
  wf : w'.mTransmitBuffer.WF
  useMask : w'.mUseMask = w.mUseMask
  bytes : w.mTransmitBuffer.getData <+:
    es.flatMap Event.acceptedBytes ++ w'.mTransmitBuffer.getData
  fresh : w.mTransmitBuffer.Fresh →
    w'.mTransmitBuffer.Fresh ∧ es.flatMap Event.acceptedBytes = [] ∧
        es.flatMap (Event.issuedBytes w.mUseMask) = [] ∨
      ∃ b, (es.flatMap (Event.issuedBytes w.mUseMask)).head? = some b ∧
        (es.flatMap Event.acceptedBytes ++ w'.mTransmitBuffer.getData).head? = some b
  masked : ∀ e ∈ es, e.isMaskedRefusal = false

variable {w w' w'' : WebSocketImpl} {es es' : List Event}

theorem first_of_leading {α : Type*} {l l' : List α} {a : α} (h : l <+: l')
    (ha : l.head? = some a) : l'.head? = some a := by
  obtain ⟨r, rfl⟩ := h
  rw [List.head?_append, ha]
  rfl

theorem Extends.trans (h : Extends w w' es) (h' : Extends w' w'' es') :
    Extends w w'' (es ++ es') := by
  have hbytes : es.flatMap Event.acceptedBytes ++ w'.mTransmitBuffer.getData <+:
      (es ++ es').flatMap Event.acceptedBytes ++ w''.mTransmitBuffer.getData := by
    rw [List.flatMap_append, List.append_assoc]
    exact (List.prefix_append_right_inj _).mpr h'.bytes
  refine ⟨h'.wf, h'.useMask.trans h.useMask, h.bytes.trans hbytes, fun hfresh => ?_,
    fun e he => (List.mem_append.mp he).elim (h.masked e) (h'.masked e)⟩
  rcases h.fresh hfresh with ⟨hfresh', hacc, hissued⟩ | ⟨b, hissued, hacc⟩
  · simpa only [List.flatMap_append, hacc, hissued, List.nil_append, h.useMask] using
      h'.fresh hfresh'
  · exact .inr ⟨b, first_of_leading (by simp) hissued, first_of_leading hbytes hacc⟩

theorem Unrelated.extends (h : Unrelated w w' es) (hwf : w.mTransmitBuffer.WF) :
    Extends w w' es := by
  have hacc : es.flatMap Event.acceptedBytes = [] :=
    List.flatMap_eq_nil_iff.mpr fun e he => Event.acceptedBytes_of_isQuiet (h.quiet e he)
  have hissued : es.flatMap (Event.issuedBytes w.mUseMask) = [] :=
    List.flatMap_eq_nil_iff.mpr fun e he => Event.issuedBytes_of_isQuiet (h.quiet e he) _
  refine ⟨h.transmitBuffer ▸ hwf, h.useMask, ?_, fun hfresh => .inl ⟨?_, hacc, hissued⟩,
    fun e he => Event.isMaskedRefusal_of_isQuiet (h.quiet e he)⟩
  · rw [hacc, List.nil_append, h.transmitBuffer]
  · rwa [h.transmitBuffer]

namespace WebSocketImpl

/-- Behind the header of a frame, the size of the transmit buffer does not wrap around for a payload
of `n` bytes, and a payload that is to be masked is accepted. -/
def PayloadKept (w : WebSocketImpl) (n : ℕ) : Prop :=
  let x := w.mTransmitBuffer.extent
  let h := expectedHeaderLen w.mUseMask n
  let x' := if x.Accepts h then x.add h else x
  x'.NoWrap (u32 n) ∧ (w.mUseMask = true → x'.Accepts (u32 n))

instance (w : WebSocketImpl) (n : ℕ) : Decidable (w.PayloadKept n) :=
  inferInstanceAs (Decidable (_ ∧ _))

variable {type : Opcode} {data : Option Bytes} {n : ℕ} {key : MaskingKey} {ws : WsHeader}

/-- The first byte of a frame says its type only. -/
theorem head?_frameHeader (useMask : Bool) (hop : ∀ n, type ≠ .reserved n) (n : ℕ)
    (key : MaskingKey) :
    (frameHeader useMask type n key).head? = some (UInt8.ofNat (128 + type.toNat)) := by
  have hconst : (frameHeader useMask type n key).head? =
      (frameHeader useMask type 0 key).head? := by
    unfold frameHeader
    simp only
    split_ifs <;> rfl
  have hframe := congrArg List.head? (frameHeader_append useMask ([] : Bytes) key hop)
  rw [hconst]
  cases useMask <;> simpa [frameHeader, applyMask, maskBytes, encodeFrame] using hframe

/-- The buffer behind the header of a frame. -/
theorem addHeader_of_kept (type : Opcode) (key : MaskingKey) (hwf : w.mTransmitBuffer.WF)
    (hkept : w.PayloadKept n) :
    ∃ b : SimpleBuffer, b.WF ∧ (w.addTransmit .header (frameHeader w.mUseMask type n key)
        (frameHeader w.mUseMask type n key).length).1 = w.setTransmit b ∧
      b.getData = w.mTransmitBuffer.getData ++
        (if w.mTransmitBuffer.Accepts (expectedHeaderLen w.mUseMask n) then
          frameHeader w.mUseMask type n key else []) ∧
      b.NoWrap (u32 n) ∧ (w.mUseMask = true → b.Accepts (u32 n)) := by
  have hle := length_frameHeader_le w.mUseMask type n key
  obtain ⟨b, hb, heq, haccepted, hrefused⟩ := addTransmit_extent hwf .header
    (d := frameHeader w.mUseMask type n key) (n := (frameHeader w.mUseMask type n key).length)
    (by omega) (hwf.noWrap (by omega)) le_rfl
  refine ⟨b, hb, heq, ?_⟩
  rw [PayloadKept] at hkept
  rw [← length_frameHeader w.mUseMask type n key] at hkept ⊢
  split_ifs at hkept ⊢ with hh hh' hh'
  · obtain ⟨hdata, hext⟩ := haccepted hh
    rw [List.take_length] at hdata
    rw [← hext] at hkept
    exact ⟨hdata, hkept⟩
  · exact absurd hh hh'
  · exact absurd hh' hh
  · obtain rfl := (hrefused hh).2 (by omega)
    exact ⟨(List.append_nil _).symm, hkept⟩

/-- What is queued before the masking: the header if it is accepted, and behind it the payload if
that is to be masked. -/
theorem queueUnmasked_of_kept (type : Opcode) (key : MaskingKey) (hwf : w.mTransmitBuffer.WF)
    (hkept : w.PayloadKept n)
    (hlen : (data.getD []).length = n ∨ (data.getD []).length = u32 n) :
    ∃ d : Bytes, (w.mUseMask = true → d.length = u32 n) ∧
      (w.queueUnmasked type data n key).mTransmitBuffer.WF ∧
      (w.queueUnmasked type data n key).mTransmitBuffer.getData = w.mTransmitBuffer.getData ++
        (if w.mTransmitBuffer.Accepts (expectedHeaderLen w.mUseMask n) then
          frameHeader w.mUseMask type n key else []) ++ d := by
  have hlen' : u32 n ≤ (data.getD []).length :=
    hlen.elim (fun h => (Word.wrap_le _ _).trans (Nat.le_of_eq h.symm)) fun h => Nat.le_of_eq h.symm
  have hlt : u32 n < 2 ^ 32 := Word.wrap_lt n (by omega)
  obtain ⟨b, hb, heq, hdata, hwrap, hroom⟩ := addHeader_of_kept type key hwf hkept
  cases data with
  | none =>
    refine ⟨[], fun _ => ?_, ?_⟩
    · simpa using Eq.symm (Nat.eq_zero_of_le_zero hlen')
    · simp only [queueUnmasked, heq, List.append_nil]
      exact ⟨hb, hdata⟩
  | some d =>
    obtain ⟨b', hb', heq', haccepted', hrefused'⟩ := addTransmit_extent (w := w.setTransmit b) hb
      (.payload (if w.mUseMask then some key else none)) (d := d) hlt hwrap hlen'
    simp only [queueUnmasked, heq, heq']
    by_cases hp : b.Accepts (u32 n)
    · refine ⟨d.take (u32 n), fun _ => List.length_take_of_le hlen', hb', ?_⟩
      rw [← hdata]
      exact (haccepted' hp).1
    · refine ⟨[], fun hm => absurd (hroom hm) hp, hb', ?_⟩
      rw [← hdata, List.append_nil]
      exact (hrefused' hp).1

/-- A payload that is to be masked is accepted. -/
theorem sendData_isMaskedRefusal (type : Opcode) (key : MaskingKey) (hwf : w.mTransmitBuffer.WF)
    (hkept : w.mReadyState.rank < 2 → w.PayloadKept n)
    (hlen : (data.getD []).length = n ∨ (data.getD []).length = u32 n) :
    ∀ e ∈ (w.sendData type data n key).2, e.isMaskedRefusal = false := by
  unfold sendData
  split_ifs with hclosed
  · simp [Event.isMaskedRefusal]
  have hrank : w.mReadyState.rank < 2 := Nat.lt_of_not_le (mt ReadyState.two_le_rank.mp hclosed)
  obtain ⟨b, hb, heq, -, hwrap, hroom⟩ := addHeader_of_kept type key hwf (hkept hrank)
  have hheader : ∀ e ∈ (w.addTransmit .header (frameHeader w.mUseMask type n key)
      (frameHeader w.mUseMask type n key).length).2, e.isMaskedRefusal = false := by
    simp only [addTransmit]
    split_ifs <;> simp [Event.isMaskedRefusal]
  suffices hpayload : ∀ e ∈ ((w.setTransmit b).queuePayload data n key).2,
      e.isMaskedRefusal = false by
    simp only [heq]
    intro e he
    rcases List.mem_cons.mp he with rfl | he
    · rfl
    · exact (List.mem_append.mp he).elim (hheader e) (hpayload e)
  cases data with
  | none => simp [queuePayload]
  | some d =>
    have hlen' : (d.take (u32 n)).length = u32 n :=
      List.length_take_of_le (hlen.elim (fun h => (Word.wrap_le _ _).trans (Nat.le_of_eq h.symm))
        fun h => Nat.le_of_eq h.symm)
    simp only [queuePayload, addTransmit, setTransmit_mTransmitBuffer, setTransmit_mUseMask]
    cases hm : w.mUseMask with
    | true =>
      have hlt : u32 n < 2 ^ 32 := Word.wrap_lt n (by omega)
      have hok := (SimpleBuffer.addBuffer_of_noWrap hb hlt hwrap hlen').2.2.2.1
      rw [decide_eq_true (hroom hm), SimpleBuffer.addBuffer_take] at hok
      rw [if_pos hok]
      simp [Event.isMaskedRefusal]
    | false =>
      intro e he
      rw [List.mem_singleton.mp he]
      split <;> rfl

/-- Of the events of `sendData`, the call stands for the frame. -/
theorem sendData_issuedBytes (w : WebSocketImpl) (type : Opcode) (data : Option Bytes) (n : ℕ)
    (key : MaskingKey) (useMask : Bool) :
    (w.sendData type data n key).2.flatMap (Event.issuedBytes useMask) =
      Event.issuedBytes useMask (.sendData w.mReadyState type (data.getD []) key) := by
  rw [Session.flatMap_filter_isCall (fun e he => by cases e <;> first | rfl | cases he),
    sendData_calls]
  simp

theorem sendData_extends (hwf : w.mTransmitBuffer.WF) (hop : ∀ n, type ≠ .reserved n)
    (hkept : w.mReadyState.rank < 2 → w.PayloadKept n)
    (hlen : (data.getD []).length = n ∨ (data.getD []).length = u32 n) :
    Extends w (w.sendData type data n key).1 (w.sendData type data n key).2 := by
  have hacc : (w.sendData type data n key).2.flatMap Event.acceptedBytes = [] :=
    List.flatMap_eq_nil_iff.mpr fun e he =>
      Event.acceptedBytes_of_isFrame (sendData_isFrame w type data n key e he)
  have hissued := sendData_issuedBytes w type data n key w.mUseMask
  obtain ⟨b, hb⟩ := exists_sendData_eq w type data n key
  have hmask : (w.sendData type data n key).1.mUseMask = w.mUseMask := by rw [hb]; rfl
  by_cases hrank : w.mReadyState.rank < 2
  swap
  · have heq : w.sendData type data n key =
        (w, [.sendData w.mReadyState type (data.getD []) key]) := by
      rw [sendData, if_pos (ReadyState.two_le_rank.mp (Nat.le_of_not_lt hrank))]
    refine ⟨by rwa [heq], hmask, ?_, fun hfresh => .inl ⟨by rwa [heq], hacc, ?_⟩,
      sendData_isMaskedRefusal type key hwf hkept hlen⟩
    · rw [hacc, heq, List.nil_append]
    · rw [hissued, Event.issuedBytes, if_pos (Nat.le_of_not_lt hrank)]
  obtain ⟨d, hd, hwf', hdata⟩ := queueUnmasked_of_kept type key hwf (hkept hrank) hlen
  have hsend := sendData_eq_maskTransmit type data n key hrank
  -- the masking stays behind the header
  obtain ⟨hwf'', d', hdata'⟩ : (w.sendData type data n key).1.mTransmitBuffer.WF ∧
      ∃ d', (w.sendData type data n key).1.mTransmitBuffer.getData = w.mTransmitBuffer.getData ++
        (if w.mTransmitBuffer.Accepts (expectedHeaderLen w.mUseMask n) then
          frameHeader w.mUseMask type n key else []) ++ d' := by
    by_cases hm : w.mUseMask = true
    · obtain ⟨hwf'', hmasked, -⟩ := masked_of_append hwf' hdata (hd hm) key
      rw [hsend, if_pos hm]
      exact ⟨hwf'', _, hmasked⟩
    · rw [hsend, if_neg hm]
      exact ⟨hwf', d, hdata⟩
  refine ⟨hwf'', hmask, ?_, fun hfresh => .inr ⟨UInt8.ofNat (128 + type.toNat), ?_, ?_⟩,
    sendData_isMaskedRefusal type key hwf hkept hlen⟩
  · rw [hacc, hdata', List.nil_append, List.append_assoc]
    exact List.prefix_append _ _
  · rw [hissued, Event.issuedBytes, if_neg (Nat.not_le_of_lt hrank), encodeFrame, List.head?_cons]
  · have hh : w.mTransmitBuffer.Accepts (expectedHeaderLen w.mUseMask n) := by
      refine hfresh.accepts ?_
      have hheader := length_frameHeader w.mUseMask type n key
      have hle := length_frameHeader_le w.mUseMask type n key
      unfold defaultBufferSize
      omega
    rw [hacc, hdata', if_pos hh, hfresh.getData, List.nil_append, List.nil_append]
    exact first_of_leading (List.prefix_append _ _) (head?_frameHeader _ hop n key)

theorem close_isMaskedRefusal (w : WebSocketImpl) :
    ∀ e ∈ w.close.2, e.isMaskedRefusal = false := by
  unfold close
  split_ifs
  · simp [Event.isMaskedRefusal]
  · simp only [addTransmit]
    split_ifs <;> simp [Event.isMaskedRefusal]

theorem close_extends (hwf : w.mTransmitBuffer.WF) : Extends w w.close.1 w.close.2 := by
  have hacc : w.close.2.flatMap Event.acceptedBytes = [] :=
    List.flatMap_eq_nil_iff.mpr fun e he => Event.acceptedBytes_of_isFrame (close_isFrame w e he)
  have hmasked := close_isMaskedRefusal w
  have hissued : w.close.2.flatMap (Event.issuedBytes w.mUseMask) =
      Event.issuedBytes w.mUseMask (.closeCall w.mReadyState) := by
    rw [Session.flatMap_filter_isCall (fun e he => by cases e <;> first | rfl | cases he),
      (close_calls w).1]
    simp
  by_cases hclosed : w.mReadyState = .closing ∨ w.mReadyState = .closed
  · have heq : w.close = (w, [.closeCall w.mReadyState]) := by rw [close, if_pos hclosed]
    have hrank := ReadyState.two_le_rank.mpr hclosed
    rw [heq] at hacc hissued hmasked ⊢
    refine ⟨hwf, rfl, ?_, fun hfresh => .inl ⟨hfresh, hacc, ?_⟩, hmasked⟩
    · rw [hacc, List.nil_append]
    · rw [hissued, Event.issuedBytes, if_pos hrank]
  · have hrank : ¬2 ≤ w.mReadyState.rank := mt ReadyState.two_le_rank.mp hclosed
    obtain ⟨b, hb, heq, haccepted, hrefused⟩ := addTransmit_extent (w := w.setReadyState .closing)
      hwf .closeFrame (d := closeFrame) (n := closeFrame.length) (by decide)
      (hwf.noWrap (by decide)) le_rfl
    have hclose : w.close.1 = (w.setReadyState .closing).setTransmit b := by
      rw [close, if_neg hclosed]
      exact heq
    rw [hclose]
    refine ⟨hb, rfl, ?_, fun hfresh => .inr ⟨0x88, ?_, ?_⟩, hmasked⟩
    · rw [hacc, List.nil_append, setTransmit_mTransmitBuffer]
      by_cases hroom : w.mTransmitBuffer.Accepts closeFrame.length
      · exact ⟨_, (haccepted hroom).1.symm⟩
      · rw [(hrefused hroom).1]
        exact List.prefix_refl _
    · rw [hissued, Event.issuedBytes, if_neg hrank]
      rfl
    · rw [hacc, setTransmit_mTransmitBuffer, (haccepted (hfresh.accepts (by decide))).1,
        setReadyState_mTransmitBuffer, hfresh.getData]
      rfl

theorem transmitIteration_extends (hwf : w.mTransmitBuffer.WF) (callback : Bool) {r : SendResult}
    (hr : r.Valid w.mTransmitBuffer.getSize) :
    Extends w (w.transmitIteration callback r).1 (w.transmitIteration callback r).2.2 := by
  by_cases hsize : w.mTransmitBuffer.getSize = 0
  · rw [transmitIteration, if_pos hsize]
    exact (leaveTransmit_unrelated w callback).extends hwf
  have hsends := transmitIteration_sends hwf callback hr
  have hquiet : ∀ e ∈ (w.transmitIteration callback r).2.2,
      e.isMaskedRefusal = false ∧ e.queuedBytes = [] := by
    unfold transmitIteration leaveTransmit
    rw [if_neg hsize]
    cases r <;> simp only <;> (try split_ifs) <;> simp [Event.isMaskedRefusal, Event.queuedBytes]
  refine ⟨hsends.transmits.wf, hsends.transmits.useMask, ?_, fun hfresh => ?_,
    fun e he => (hquiet e he).1⟩
  · rw [hsends.transmits.bytes fun e he => (hquiet e he).1]
    exact List.prefix_append _ _
  · exact absurd (SimpleBuffer.getSize_eq_zero_iff.mpr hfresh.getData) hsize

/-- The answer to a `PING`. -/
theorem dispatchPing_extends (hwf : w.mTransmitBuffer.WF)
    (hkept : w.mReadyState.rank < 2 → w.PayloadKept ws.N) (key : MaskingKey) :
    Extends w (w.dispatchPing ws key).1 (w.dispatchPing ws key).2.2 := by
  have hr := unmaskPayload_unrelated w ws
  have hwf' : (w.unmaskPayload ws).1.mTransmitBuffer.WF := hr.transmitBuffer ▸ hwf
  have hkept' : (w.unmaskPayload ws).1.mReadyState.rank < 2 →
      (w.unmaskPayload ws).1.PayloadKept ws.N := fun hrank => by
    have := hkept (hr.rank_le.trans_lt hrank)
    rwa [PayloadKept, ← hr.transmitBuffer, ← hr.useMask] at this
  obtain ⟨data, hdata⟩ : ∃ data, data =
    if ws.N ≠ 0 then some ((w.unmaskPayload ws).1.payload ws) else none := ⟨_, rfl⟩
  have hlen : (data.getD []).length = ws.N ∨ (data.getD []).length = u32 ws.N := by
    rw [hdata]
    split_ifs with hN
    · exact .inr (by simp [payload, SimpleBuffer.slice])
    · exact .inl (by simpa using Eq.symm (not_not.mp hN))
  have hsend : Extends (w.unmaskPayload ws).1
      ((w.unmaskPayload ws).1.sendData .pong data ws.N key).1
      ((w.unmaskPayload ws).1.sendData .pong data ws.N key).2 :=
    sendData_extends hwf' (by simp) hkept' hlen
  rw [hdata] at hsend
  exact (((hr.trans (readAnswer_unrelated _ ws)).extends hwf).trans hsend).trans
    ((consumeFrame_unrelated _ _).extends hsend.wf)

theorem dispatchIteration_extends (hwf : w.mTransmitBuffer.WF) (key : MaskingKey)
    (hping : w.mReadyState.rank < 2 → (headerOf w.mReceiveBuffer.byteAt).opcode = .ping →
      (headerOf w.mReceiveBuffer.byteAt).headerSize ≤ w.mReceiveBuffer.getSize →
        (headerOf w.mReceiveBuffer.byteAt).frameSize ≤ w.mReceiveBuffer.getSize →
          w.PayloadKept (headerOf w.mReceiveBuffer.byteAt).N) :
    Extends w (w.dispatchIteration key).1 (w.dispatchIteration key).2.2 := by
  obtain ⟨reads, -, ⟨es, hes, heq, -⟩ | ⟨ws, rfl, hsize, hframe, heq⟩⟩ :=
    dispatchIteration_cases w key
  · rw [heq]
    exact (readHeader_unrelated w reads hes).extends hwf
  rw [heq]
  generalize hws : headerOf w.mReceiveBuffer.byteAt = ws at *
  have hhead : Extends w w ((reads.map fun i => .access .header i 1) ++
      [.parsed ws w.mReceiveBuffer.getSize]) :=
    (readHeader_unrelated w reads (by simp)).extends hwf
  have hdispatch : Extends w (w.dispatchFrame ws key).1 (w.dispatchFrame ws key).2.2 := by
    unfold dispatchFrame
    split
    · exact (dispatchData_unrelated w ws).extends hwf
    · exact (dispatchData_unrelated w ws).extends hwf
    · exact (dispatchData_unrelated w ws).extends hwf
    · rename_i hop
      exact dispatchPing_extends hwf (fun hrank => hping hrank hop hsize hframe) key
    · exact (consumeFrame_unrelated w _).extends hwf
    · exact close_extends hwf
    · exact close_extends hwf
  simpa using hhead.trans hdispatch

end WebSocketImpl

namespace Session

variable {s t : Session} {i : Input}

/-- The transmit buffer survives the payload that a step queues, if it queues one: that of a call,
or that of the `PING` that the frame loop is about to answer. -/
def PayloadsKept (s : Session) (i : Input) (_ : List Event) : Prop :=
  s.impl.mReadyState.rank < 2 → (∀ f ∈ i.frame, s.impl.PayloadKept f.2.1.length) ∧
    (s.stack.head? = some .dispatching →
      (headerOf s.impl.mReceiveBuffer.byteAt).opcode = .ping →
        (headerOf s.impl.mReceiveBuffer.byteAt).headerSize ≤ s.impl.mReceiveBuffer.getSize →
          (headerOf s.impl.mReceiveBuffer.byteAt).frameSize ≤ s.impl.mReceiveBuffer.getSize →
            s.impl.PayloadKept (headerOf s.impl.mReceiveBuffer.byteAt).N)

instance (s : Session) (i : Input) (es : List Event) : Decidable (PayloadsKept s i es) :=
  inferInstanceAs (Decidable (_ → _))

theorem step_extends (hwf : s.impl.mTransmitBuffer.WF) (hs : s.Consistent)
    (h : s.step i = some (t, es)) (hguard : PayloadsKept s i es) : Extends s.impl t.impl es := by
  cases step_cases h with
  | call _ hcall =>
    obtain ⟨type, data, key, hframe, rfl⟩ | ⟨-, rfl⟩ := WebSocketImpl.call_cases hcall
    · have hkept (hrank : s.impl.mReadyState.rank < 2) :
          s.impl.PayloadKept (data.getD []).length :=
        (hguard hrank).1 (type, data.getD [], key) hframe
      have hsend : Extends s.impl (s.impl.sendData type data (data.getD []).length key).1
          (s.impl.sendData type data (data.getD []).length key).2 :=
        WebSocketImpl.sendData_extends hwf (Input.frame_ne_reserved hframe) hkept (.inl rfl)
      exact hsend
    · exact WebSocketImpl.close_extends hwf
  | poll callback timeout _ =>
    refine Unrelated.extends ⟨rfl, rfl, le_rfl, ?_⟩ hwf
    unfold WebSocketImpl.poll
    split_ifs <;> simp [Event.isQuiet]
  | destroy => exact WebSocketImpl.close_extends hwf
  | connect expired v hstack =>
    exact (WebSocketImpl.processConnection_unrelated (hs.connecting _ hstack) expired v).extends hwf
  | receive => exact (WebSocketImpl.receiveIteration_unrelated _ _ _).extends hwf
  | transmit _ hr => exact WebSocketImpl.transmitIteration_extends hwf _ hr
  | dispatch key hstack =>
    refine WebSocketImpl.dispatchIteration_extends hwf key fun hrank => ?_
    exact (hguard hrank).2 (by rw [hstack]; rfl)
  | ret => exact (WebSocketImpl.finishDelivery_unrelated _ _ _).extends hwf
  | destroyLoop timedOut _ _ hes =>
    refine Unrelated.extends ⟨rfl, rfl, le_rfl, ?_⟩ hwf
    rcases hes with rfl | rfl <;> simp [Event.isQuiet]

theorem run_extends {tr : List (Input × List Event)} (hwf : s.impl.mTransmitBuffer.WF)
    (hs : s.Consistent) (h : sessionMachine.Run PayloadsKept s tr t) :
    t.Consistent ∧ Extends s.impl t.impl (Machine.events tr) := by
  refine h.invariant_events (P := fun (es : List Event) (t : Session) =>
    t.Consistent ∧ Extends s.impl t.impl es) ⟨hs, (Unrelated.refl _).extends hwf⟩ ?_
  rintro es t i es' u ⟨hc, hext⟩ hstep hguard
  exact ⟨step_consistent hc hstep, hext.trans (step_extends hext.wf hc hstep hguard)⟩

/-- The first byte that the socket accepts is the first byte of the first frame that was issued. -/
theorem head_acceptedBytes {tr : List (Input × List Event)} (hwf : s.impl.mTransmitBuffer.WF)
    (hs : s.Consistent) (hfresh : s.impl.mTransmitBuffer.Fresh)
    (h : sessionMachine.Run PayloadsKept s tr t) {b : UInt8}
    (hb : ((Machine.events tr).flatMap Event.acceptedBytes).head? = some b) :
    ((Machine.events tr).flatMap (Event.issuedBytes s.impl.mUseMask)).head? = some b := by
  rcases (run_extends hwf hs h).2.fresh hfresh with ⟨-, hnone, -⟩ | ⟨b', hissued, hacc⟩
  · rw [hnone] at hb
    cases hb
  · rw [hissued, ← hacc, first_of_leading (List.prefix_append _ _) hb]

end Session

end WsClient
