import WsClient.Transmit

/-!
# Frames that are queued in part

`sendData` appends the header and the payload with two calls whose results it does not look at, and
then masks as many bytes at the end of the queue as the payload has. Whether the two calls
succeed depends on the cursors of the transmit buffer alone. `SendFits` is the condition on them
under which a frame is queued whole or not at all, and `atomic_send` says so for every state of a
run whose frames all meet it.

## Main definitions

* `expectedHeaderLen`, `WebSocketImpl.SendFits`.
* `WebSocketImpl.queueUnmasked`: the object before the payload is masked.
* `WebSocketImpl.AtomicSend`: the frame is queued whole or not at all.

## Main results

* `WebSocketImpl.sendData_atomic`: one call.
* `Session.atomic_send`: the calls in a run.
-/

namespace WsClient

/-- `expectedHeaderLen` of `sendData`. -/
def expectedHeaderLen (useMask : Bool) (messageSize : ℕ) : ℕ :=
  2 + (if messageSize ≥ 126 then 2 else 0) + (if messageSize ≥ 65536 then 6 else 0) +
    (if useMask then 4 else 0)

/-- The assertion of `sendData`. -/
theorem length_frameHeader (useMask : Bool) (type : Opcode) (messageSize : ℕ) (key : MaskingKey) :
    (frameHeader useMask type messageSize key).length = expectedHeaderLen useMask messageSize := by
  unfold frameHeader expectedHeaderLen
  cases useMask <;> split_ifs <;> first | rfl | omega

namespace WebSocketImpl

/-- The transmit buffer accepts the header and then the payload, or it accepts neither: it refuses
the header, and the payload is empty in 32 bits or, without a mask, refused as well. -/
def SendFits (w : WebSocketImpl) (n : ℕ) : Prop :=
  let x := w.mTransmitBuffer.extent
  let h := expectedHeaderLen w.mUseMask n
  x.Accepts h ∧ (x.add h).Accepts n ∨
    ¬x.Accepts h ∧ (u32 n = 0 ∨
      w.mUseMask = false ∧ ¬x.Accepts (u32 n) ∧ w.mTransmitBuffer.NoWrap (u32 n))

instance (w : WebSocketImpl) (n : ℕ) : Decidable (w.SendFits n) :=
  inferInstanceAs (Decidable (_ ∨ _))

/-- `sendData` on a connection that is not closing, up to the masking. -/
def queueUnmasked (w : WebSocketImpl) (type : Opcode) (data : Option Bytes) (n : ℕ)
    (key : MaskingKey) : WebSocketImpl :=
  let header := frameHeader w.mUseMask type n key
  let w' := (w.addTransmit .header header header.length).1
  match data with
  | some d => (w'.addTransmit (.payload (if w.mUseMask then some key else none)) d (u32 n)).1
  | none => w'

/-- A frame is queued whole or not at all, and only queued bytes are masked. -/
structure AtomicSend (w : WebSocketImpl) (type : Opcode) (data : Option Bytes)
    (key : MaskingKey) : Prop where
  whole : (w.sendData type data (data.getD []).length key).1.mTransmitBuffer.getData =
        w.mTransmitBuffer.getData ++
          encodeFrame (if w.mUseMask then some key else none) type (data.getD []) ∨
      (w.sendData type data (data.getD []).length key).1.mTransmitBuffer.getData =
        w.mTransmitBuffer.getData
  inside : w.mUseMask = true →
    sub32 (w.queueUnmasked type data (data.getD []).length key).mTransmitBuffer.getSize
        (u32 (data.getD []).length) + u32 (data.getD []).length ≤
      (w.queueUnmasked type data (data.getD []).length key).mTransmitBuffer.getSize

variable {w : WebSocketImpl} {type : Opcode} {data : Option Bytes} {n : ℕ} {key : MaskingKey}

/-- The last part of `sendData` is the masking. -/
theorem sendData_eq_maskTransmit (type : Opcode) (data : Option Bytes) (n : ℕ)
    (key : MaskingKey) (hrank : w.mReadyState.rank < 2) :
    (w.sendData type data n key).1 =
      if w.mUseMask then (w.queueUnmasked type data n key).maskTransmit (u32 n) key
      else w.queueUnmasked type data n key := by
  have hopen : ¬(w.mReadyState = .closing ∨ w.mReadyState = .closed) := fun h => by
    have := ReadyState.two_le_rank.mpr h
    omega
  simp only [sendData, if_neg hopen, queuePayload, queueUnmasked]
  cases data <;> rfl

/-- Appending to the transmit buffer, in terms of its cursors. -/
theorem addTransmit_extent (hwf : w.mTransmitBuffer.WF) (use : BufferUse) {d : Bytes}
    (hn : n < 2 ^ 32) (hw : w.mTransmitBuffer.NoWrap n) (hd : n ≤ d.length) :
    ∃ b : SimpleBuffer, b.WF ∧ (w.addTransmit use d n).1 = w.setTransmit b ∧
      (w.mTransmitBuffer.Accepts n →
        b.getData = w.mTransmitBuffer.getData ++ d.take n ∧
          b.extent = w.mTransmitBuffer.extent.add n) ∧
      (¬w.mTransmitBuffer.Accepts n → b.getData = w.mTransmitBuffer.getData ∧
        (n ≤ 2 ^ 29 → b = w.mTransmitBuffer)) := by
  have hlen : (d.take n).length = n := List.length_take_of_le hd
  obtain ⟨hwf', -, -, hok, hdata, -⟩ := SimpleBuffer.addBuffer_of_noWrap hwf hn hw hlen
  refine ⟨_, hwf', by rw [SimpleBuffer.addBuffer_take]; rfl, fun ha => ?_, fun hno => ?_⟩
  · rw [hdata, hok, decide_eq_true ha]
    exact ⟨rfl, SimpleBuffer.extent_addBuffer hwf ha _⟩
  · refine ⟨by rw [hdata, hok, decide_eq_false hno]; exact List.append_nil _, fun hle => ?_⟩
    exact (SimpleBuffer.addBuffer_spec hwf hle hlen).2.2.2 (hok.trans (decide_eq_false hno))

/-- Masking a number of bytes that are at the end of the queue. -/
theorem masked_of_append (hwf : w.mTransmitBuffer.WF) {c d : Bytes}
    (hc : w.mTransmitBuffer.getData = c ++ d) (hd : d.length = n) (key : MaskingKey) :
    (w.maskTransmit n key).mTransmitBuffer.WF ∧
      (w.maskTransmit n key).mTransmitBuffer.getData = c ++ maskBytes key d ∧
      sub32 w.mTransmitBuffer.getSize n + n ≤ w.mTransmitBuffer.getSize := by
  obtain ⟨b, hb, heq, hdata⟩ := maskTransmit_spec hwf hc hd key
  have hsize : w.mTransmitBuffer.getSize = c.length + n := by
    rw [← SimpleBuffer.length_getData, hc, List.length_append, hd]
  have hle := hwf.getSize_le
  rw [heq]
  exact ⟨hb, hdata, by rw [sub32_of_le (by omega) (by omega)]; omega⟩

/-- What is queued before the masking when both parts fit. -/
private theorem queueUnmasked_of_accepts (type : Opcode) (key : MaskingKey)
    (hwf : w.mTransmitBuffer.WF)
    (hlen : (data.getD []).length = n) (hn : n ≤ 2 ^ 29)
    (hh : w.mTransmitBuffer.extent.Accepts (expectedHeaderLen w.mUseMask n))
    (hp : (w.mTransmitBuffer.extent.add (expectedHeaderLen w.mUseMask n)).Accepts n) :
    (w.queueUnmasked type data n key).mTransmitBuffer.WF ∧
      (w.queueUnmasked type data n key).mTransmitBuffer.getData =
        w.mTransmitBuffer.getData ++ frameHeader w.mUseMask type n key ++ data.getD [] := by
  have hheader := length_frameHeader w.mUseMask type n key
  have hle := length_frameHeader_le w.mUseMask type n key
  obtain ⟨b, hb, heq, haccepted, -⟩ := addTransmit_extent hwf .header
    (d := frameHeader w.mUseMask type n key) (n := (frameHeader w.mUseMask type n key).length)
    (by omega) (hwf.noWrap (by omega)) le_rfl
  obtain ⟨hdata, hext⟩ := haccepted (by rwa [hheader])
  rw [List.take_length] at hdata
  rw [hheader] at hext
  have hp' : b.Accepts n := by rwa [← SimpleBuffer.accepts_extent, hext]
  cases data with
  | none =>
    simp only [queueUnmasked, heq]
    exact ⟨hb, by simpa using hdata⟩
  | some d =>
    have hu : u32 n = n := u32_of_lt (by omega)
    obtain ⟨b', hb', heq', haccepted', -⟩ := addTransmit_extent (w := w.setTransmit b) hb
      (.payload (if w.mUseMask then some key else none)) (d := d) (n := n) (by omega)
      (hb.noWrap hn) (Nat.le_of_eq hlen.symm)
    simp only [queueUnmasked, heq, hu, heq']
    obtain ⟨hdata', -⟩ := haccepted' hp'
    refine ⟨hb', hdata'.trans ?_⟩
    rw [List.take_of_length_le (l := d) (Nat.le_of_eq hlen)]
    exact congrArg (· ++ d) hdata

/-- What is queued before the masking when neither part is accepted. -/
private theorem queueUnmasked_of_refused (type : Opcode) (key : MaskingKey)
    (hwf : w.mTransmitBuffer.WF)
    (hlen : u32 n ≤ (data.getD []).length)
    (hh : ¬w.mTransmitBuffer.extent.Accepts (expectedHeaderLen w.mUseMask n))
    (hp : u32 n = 0 ∨
      ¬w.mTransmitBuffer.extent.Accepts (u32 n) ∧ w.mTransmitBuffer.NoWrap (u32 n)) :
    (w.queueUnmasked type data n key).mTransmitBuffer.WF ∧
      (w.queueUnmasked type data n key).mTransmitBuffer.getData = w.mTransmitBuffer.getData := by
  have hheader := length_frameHeader w.mUseMask type n key
  have hle := length_frameHeader_le w.mUseMask type n key
  obtain ⟨b, -, heq, -, hrefused⟩ := addTransmit_extent hwf .header
    (d := frameHeader w.mUseMask type n key) (n := (frameHeader w.mUseMask type n key).length)
    (by omega) (hwf.noWrap (by omega)) le_rfl
  obtain rfl := (hrefused (by rwa [hheader])).2 (by omega)
  cases data with
  | none =>
    simp only [queueUnmasked, heq, setTransmit_self]
    exact ⟨hwf, trivial⟩
  | some d =>
    have hlt : u32 n < 2 ^ 32 := Word.wrap_lt n (by omega)
    have hw : w.mTransmitBuffer.NoWrap (u32 n) := by
      rcases hp with h0 | ⟨-, hw⟩
      · exact hwf.noWrap (by omega)
      · exact hw
    obtain ⟨b', hb', heq', haccepted, hno⟩ := addTransmit_extent hwf
      (.payload (if w.mUseMask then some key else none)) (d := d) hlt hw hlen
    simp only [queueUnmasked, heq, setTransmit_self, heq']
    refine ⟨hb', ?_⟩
    rcases hp with h0 | ⟨hp, -⟩
    · obtain ⟨hdata, -⟩ := haccepted (.inl (by omega))
      rw [setTransmit_mTransmitBuffer, hdata, h0, List.take_zero, List.append_nil]
    · exact (hno hp).1

/-- What is queued before the masking has the payload, or nothing, at its end. -/
private theorem queueUnmasked_cases (type : Opcode) (key : MaskingKey)
    (hwf : w.mTransmitBuffer.WF) (hfits : w.SendFits n)
    (hlen : (data.getD []).length = n ∨ (data.getD []).length = u32 n) :
    (w.queueUnmasked type data n key).mTransmitBuffer.WF ∧
      ((w.queueUnmasked type data n key).mTransmitBuffer.getData =
            w.mTransmitBuffer.getData ++ frameHeader w.mUseMask type n key ++ data.getD [] ∧
          n ≤ 2 ^ 29 ∧ (data.getD []).length = n ∨
        (w.queueUnmasked type data n key).mTransmitBuffer.getData = w.mTransmitBuffer.getData ∧
          (w.mUseMask = true → u32 n = 0)) := by
  rcases hfits with ⟨hh, hp⟩ | ⟨hh, hp⟩
  · have hn : n ≤ 2 ^ 29 := by
      have hheader := length_frameHeader w.mUseMask .pong n key
      have hle := length_frameHeader_le w.mUseMask .pong n key
      obtain ⟨b, hb, -, haccepted, -⟩ := addTransmit_extent hwf .header
        (d := frameHeader w.mUseMask .pong n key) (n := expectedHeaderLen w.mUseMask n)
        (by omega) (hwf.noWrap (by omega)) (Nat.le_of_eq hheader.symm)
      have hp' : b.Accepts n := by rwa [← SimpleBuffer.accepts_extent, (haccepted hh).2]
      have := hb.le_of_accepts hp'
      have := hb.grow_le
      omega
    have hu : u32 n = n := u32_of_lt (by omega)
    have hlen' : (data.getD []).length = n := hlen.elim id fun h => h.trans hu
    obtain ⟨hwf', hdata⟩ :=
      queueUnmasked_of_accepts type key hwf hlen' hn hh hp
    exact ⟨hwf', .inl ⟨hdata, hn, hlen'⟩⟩
  · have hlen' : u32 n ≤ (data.getD []).length :=
      hlen.elim (fun h => (Word.wrap_le _ _).trans (Nat.le_of_eq h.symm))
        fun h => Nat.le_of_eq h.symm
    obtain ⟨hwf', hdata⟩ := queueUnmasked_of_refused type key hwf hlen' hh
      (hp.imp_right And.right)
    refine ⟨hwf', .inr ⟨hdata, fun hm => hp.resolve_right fun h => ?_⟩⟩
    simp [hm] at h

/-- The buffer stays well formed when a frame fits. -/
theorem sendData_wf (hwf : w.mTransmitBuffer.WF) (hrank : w.mReadyState.rank < 2)
    (hfits : w.SendFits n)
    (hlen : (data.getD []).length = n ∨ (data.getD []).length = u32 n) :
    (w.sendData type data n key).1.mTransmitBuffer.WF := by
  obtain ⟨hwf', -⟩ := queueUnmasked_cases type key hwf hfits hlen
  rw [sendData_eq_maskTransmit type data n key hrank]
  split_ifs
  · exact hwf'.xorData _ _ _ key
  · exact hwf'

/-- A frame for which the condition holds is queued whole or not at all. -/
theorem sendData_atomic (hwf : w.mTransmitBuffer.WF) (hrank : w.mReadyState.rank < 2)
    (hop : ∀ n, type ≠ .reserved n) (hfits : w.SendFits (data.getD []).length) :
    AtomicSend w type data key := by
  have hsend := sendData_eq_maskTransmit type data (data.getD []).length key hrank
  have hframe := frameHeader_append w.mUseMask (data.getD []) key hop
  obtain ⟨hwf', ⟨hdata, hn, -⟩ | ⟨hdata, hzero⟩⟩ :=
    queueUnmasked_cases type key hwf hfits (.inl rfl)
  · have hu : u32 (data.getD []).length = (data.getD []).length := u32_of_lt (by omega)
    obtain ⟨-, hdata', hinside⟩ := masked_of_append hwf' hdata rfl key
    refine ⟨.inl ?_, fun _ => by rwa [hu]⟩
    rw [hsend, hu, ← hframe, ← List.append_assoc]
    cases hm : w.mUseMask with
    | true =>
      rw [hm] at hdata'
      exact hdata'
    | false =>
      rw [hm] at hdata
      exact hdata
  · cases hm : w.mUseMask with
    | true =>
      -- no byte is masked
      obtain ⟨-, hdata', hinside⟩ :=
        masked_of_append hwf' (List.append_nil _).symm List.length_nil key
      refine ⟨.inr ?_, fun _ => by rwa [hzero hm]⟩
      rw [hsend, hm, hzero hm, if_pos rfl, hdata', hdata]
      exact List.append_nil _
    | false =>
      refine ⟨.inr ?_, fun h => by simp [hm] at h⟩
      rw [hsend, hm, if_neg (by simp), hdata]

/-- Without a mask, a payload that is refused behind its header leaves the header alone in the
queue. -/
theorem not_atomicSend (hwf : w.mTransmitBuffer.WF) (hrank : w.mReadyState.rank < 2)
    (hm : w.mUseMask = false) (hop : ∀ n, type ≠ .reserved n) {d : Bytes} (hn : d.length ≤ 2 ^ 29)
    (hh : w.mTransmitBuffer.extent.Accepts (expectedHeaderLen false d.length))
    (hp : ¬(w.mTransmitBuffer.extent.add (expectedHeaderLen false d.length)).Accepts d.length) :
    ¬AtomicSend w type (some d) key := by
  intro hatomic
  have hheader := length_frameHeader false type d.length key
  have hle := length_frameHeader_le false type d.length key
  have hframe := frameHeader_append false d key hop
  rw [if_neg (by simp)] at hframe
  obtain ⟨b, hb, heq, haccepted, -⟩ := addTransmit_extent hwf .header
    (d := frameHeader false type d.length key) (by omega) (hwf.noWrap (by omega)) le_rfl
  obtain ⟨hdata, hext⟩ := haccepted (by rwa [hheader])
  obtain ⟨b', -, heq', -, hrefused⟩ := addTransmit_extent (w := w.setTransmit b) hb
    (.payload none) (d := d) (n := d.length) (by omega) (hb.noWrap hn) le_rfl
  have hno : ¬b.Accepts d.length := by rwa [← SimpleBuffer.accepts_extent, hext, hheader]
  have hq : w.queueUnmasked type (some d) d.length key = w.setTransmit b' := by
    simp only [queueUnmasked, hm, Bool.false_eq_true, if_false, heq, u32_of_lt
      (show d.length < 4294967296 by omega)]
    exact heq'
  have hqueued : (w.sendData type (some d) d.length key).1.mTransmitBuffer.getData =
      w.mTransmitBuffer.getData ++ frameHeader false type d.length key := by
    rw [sendData_eq_maskTransmit _ _ _ _ hrank, hq, if_neg (by simp [hm]),
      setTransmit_mTransmitBuffer,
      (hrefused hno).1, setTransmit_mTransmitBuffer, hdata, List.take_length]
  have hwhole := hatomic.whole
  rw [Option.getD_some, hqueued, if_neg (by simp [hm]), ← hframe] at hwhole
  rcases hwhole with hwhole | hwhole
  · have hlen := congrArg List.length hwhole
    simp only [List.length_append, length_applyMask] at hlen
    exact hno (.inl (by omega))
  · have hlen := congrArg List.length hwhole
    have : 2 ≤ expectedHeaderLen false d.length := by
      unfold expectedHeaderLen
      omega
    simp only [List.length_append] at hlen
    omega

end WebSocketImpl

namespace Session

variable {s t : Session} {i : Input} {es : List Event}

/-- The condition on the frame that a step queues, if it queues one: the frame of a call, or the
answer to the `PING` that the frame loop is about to process. -/
def SendsFit (s : Session) (i : Input) (_ : List Event) : Prop :=
  s.impl.mReadyState.rank < 2 → (∀ f ∈ i.frame, s.impl.SendFits f.2.1.length) ∧
    (s.stack.head? = some .dispatching →
      (headerOf s.impl.mReceiveBuffer.byteAt).opcode = .ping →
        (headerOf s.impl.mReceiveBuffer.byteAt).headerSize ≤ s.impl.mReceiveBuffer.getSize →
          (headerOf s.impl.mReceiveBuffer.byteAt).frameSize ≤ s.impl.mReceiveBuffer.getSize →
            s.impl.SendFits (headerOf s.impl.mReceiveBuffer.byteAt).N)

instance (s : Session) (i : Input) (es : List Event) : Decidable (SendsFit s i es) :=
  inferInstanceAs (Decidable (_ → _))

end Session

namespace WebSocketImpl

variable {w : WebSocketImpl} {ws : WsHeader} {key : MaskingKey}

/-- The frame loop keeps the transmit buffer well formed if the answer to a `PING` fits. -/
theorem dispatchIteration_wf (hwf : w.mTransmitBuffer.WF) (key : MaskingKey)
    (hping : w.mReadyState.rank < 2 → (headerOf w.mReceiveBuffer.byteAt).opcode = .ping →
      (headerOf w.mReceiveBuffer.byteAt).headerSize ≤ w.mReceiveBuffer.getSize →
        (headerOf w.mReceiveBuffer.byteAt).frameSize ≤ w.mReceiveBuffer.getSize →
          w.SendFits (headerOf w.mReceiveBuffer.byteAt).N) :
    (w.dispatchIteration key).1.mTransmitBuffer.WF := by
  obtain ⟨_, -, ⟨_, -, heq, -⟩ | ⟨ws, rfl, hsize, hframe, heq⟩⟩ := dispatchIteration_cases w key
  · rw [heq]
    exact hwf
  rw [heq]
  generalize hws : headerOf w.mReceiveBuffer.byteAt = ws at *
  unfold dispatchFrame
  split
  · exact (dispatchData_unrelated w ws).transmitBuffer ▸ hwf
  · exact (dispatchData_unrelated w ws).transmitBuffer ▸ hwf
  · exact (dispatchData_unrelated w ws).transmitBuffer ▸ hwf
  · rename_i hop
    have hr := unmaskPayload_unrelated w ws
    have hwf' : (w.unmaskPayload ws).1.mTransmitBuffer.WF := hr.transmitBuffer ▸ hwf
    have hstate := unmaskPayload_mReadyState w ws
    -- consuming the frame does not concern the transmit buffer
    change ((w.unmaskPayload ws).1.sendData .pong _ ws.N key).1.mTransmitBuffer.WF
    by_cases hrank : w.mReadyState.rank < 2
    · refine sendData_wf hwf' (hstate ▸ hrank) ?_ ?_
      · have := hping hrank hop hsize hframe
        rwa [SendFits, ← hr.transmitBuffer, ← hr.useMask] at this
      · split_ifs with hN
        · exact .inr (by simp [payload, SimpleBuffer.slice])
        · exact .inl (by simpa using Eq.symm (not_not.mp hN))
    · have hclosed := ReadyState.two_le_rank.mp (Nat.le_of_not_lt hrank)
      rw [sendData, hstate, if_pos hclosed]
      exact hwf'
  · exact hwf
  · exact (close_sends hwf).transmits.wf
  · exact (close_sends hwf).transmits.wf

end WebSocketImpl

namespace Session

variable {s t : Session} {i : Input} {es : List Event}

theorem step_transmit_wf (hwf : s.impl.mTransmitBuffer.WF) (hs : s.Consistent)
    (h : s.step i = some (t, es)) (hguard : SendsFit s i es) : t.impl.mTransmitBuffer.WF := by
  cases step_cases h with
  | call _ hcall =>
    obtain ⟨type, data, key, hframe, rfl⟩ | ⟨-, rfl⟩ := WebSocketImpl.call_cases hcall
    · by_cases hrank : s.impl.mReadyState.rank < 2
      · exact WebSocketImpl.sendData_wf hwf hrank ((hguard hrank).1 _ hframe) (.inl rfl)
      · have hclosed := ReadyState.two_le_rank.mp (Nat.le_of_not_lt hrank)
        rw [WebSocketImpl.sendData, if_pos hclosed]
        exact hwf
    · exact (WebSocketImpl.close_sends hwf).transmits.wf
  | poll => exact hwf
  | destroy => exact (WebSocketImpl.close_sends hwf).transmits.wf
  | connect expired v hstack =>
    exact ((WebSocketImpl.processConnection_unrelated (hs.connecting _ hstack) expired v).sends
      hwf).transmits.wf
  | receive => exact ((WebSocketImpl.receiveIteration_unrelated _ _ _).sends hwf).transmits.wf
  | transmit _ hr => exact (WebSocketImpl.transmitIteration_sends hwf _ hr).transmits.wf
  | dispatch key hstack =>
    refine WebSocketImpl.dispatchIteration_wf hwf key fun hrank => ?_
    exact (hguard hrank).2 (by rw [hstack]; rfl)
  | ret => exact ((WebSocketImpl.finishDelivery_unrelated _ _ _).sends hwf).transmits.wf
  | destroyLoop => exact hwf

/-- In every state of a run in which all frames fit, a frame that fits is queued whole or not at
all: `sendData` appends exactly one complete frame or leaves the queue as it is, and masks only
bytes of the queue. -/
theorem atomic_send {tr : List (Input × List Event)} (hs : Constructed s)
    (h : sessionMachine.Run SendsFit s tr t) (hrank : t.impl.mReadyState.rank < 2)
    {type : Opcode} (hop : ∀ n, type ≠ .reserved n) (data : Option Bytes) (key : MaskingKey)
    (hfits : t.impl.SendFits (data.getD []).length) : t.impl.AtomicSend type data key := by
  obtain ⟨heap, -, hbuf, -⟩ := hs.buffers
  have hwf := (h.invariant_state (P := fun t => t.Consistent ∧ t.impl.mTransmitBuffer.WF)
    ⟨hs.consistent, hbuf ▸ (newBuffer_spec _).1⟩ fun t i es u ih hstep hguard =>
      ⟨step_consistent ih.1 hstep, step_transmit_wf ih.2 ih.1 hstep hguard⟩).2
  exact WebSocketImpl.sendData_atomic hwf hrank hop hfits

/-- A server that queues two messages while it is still `CONNECTING`. -/
theorem atomic_send_server :
    ∃ tr t, sessionMachine.Run SendsFit (start (.ofSocket zeroPlatform true true)) tr t ∧
      t.impl.AtomicSend .textFrame (some (ascii "B")) 0 := by
  obtain ⟨tr, t, hrun, hok⟩ := Machine.exists_run_of_exec (M := sessionMachine)
    (G := SendsFit) (s := start (.ofSocket zeroPlatform true true))
    (l := [.sendText (some (ascii "A")) 0])
    (P := fun r => decide (r.1.impl.mReadyState.rank < 2 ∧
      r.1.impl.SendFits (ascii "B").length)) (by decide +kernel)
  obtain ⟨hrank, hfits⟩ := of_decide_eq_true hok
  exact ⟨tr, t, hrun, atomic_send (.server _ _ _) hrun hrank (by simp) _ 0 hfits⟩

/-- A message of `2 ^ 29` bytes on a connection that is still `CONNECTING`: the header is queued,
the payload is not. -/
theorem header_without_payload :
    ¬∀ (s t : Session) (tr : List (Input × List Event)), Constructed s →
      sessionMachine.Run Machine.anyStep s tr t → t.impl.mReadyState.rank < 2 →
        ∀ (data : Bytes) (key : MaskingKey), t.impl.AtomicSend .binaryFrame (some data) key := by
  intro h
  have hlen : (List.replicate 536870912 (0 : UInt8)).length = 536870912 := List.length_replicate
  refine WebSocketImpl.not_atomicSend (w := (start (.ofSocket zeroPlatform true false)).impl)
    (newBuffer_spec _).1 (by decide) rfl (by simp) hlen.le ?_ ?_
    (h _ _ [] (.server zeroPlatform true false) .nil (by decide) (List.replicate 536870912 0) 0)
  · rw [hlen]
    decide +kernel
  · rw [hlen]
    decide +kernel

end Session

end WsClient
