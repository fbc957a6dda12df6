import WsClient.Lifecycle

/-!
# The bounds of the frame loop

The loop compares the bytes it has with a 32-bit sum of the header size and the truncated payload
length. `frame_bounds` says that an iteration stays inside the received bytes and consumes what the
header announces exactly when this sum is not one that wrapped around and passed the check.

The loop goes on as long as it consumes something. `dispatch_terminates` follows the content of the
receive buffer through the loop: it ends unless it gets to a frame whose sum is zero.

## Main definitions

* `WebSocketImpl.FrameBounds`, `WebSocketImpl.Overflows`.
* `nextContent`, `MeetsEmptyFrame`: the content of the receive buffer from frame to frame.

## Main results

* `WebSocketImpl.frame_bounds`.
* `Session.dispatch_terminates`.
-/

namespace WsClient

/-- The event is more than reading a header. -/
def Event.isAction : Event → Bool
  | .access .header _ _ | .parsed _ _ => false
  | _ => true

namespace WebSocketImpl

variable {w : WebSocketImpl} {ws : WsHeader} {key : MaskingKey}

/-! ### What an iteration touches -/

/-- What happens to a frame that passed the length check. -/
structure Touches (w : WebSocketImpl) (ws : WsHeader)
    (r : WebSocketImpl × Flow × List Event) : Prop where
  acts : ∃ e ∈ r.2.2, e.isAction = true
  access : ∀ how offset length, .access how offset length ∈ r.2.2 →
    offset = ws.headerSize ∧ length = u32 ws.N
  outside : ∀ i, i < w.mReceiveBuffer.mStartLoc + ws.headerSize ∨
    w.mReceiveBuffer.mStartLoc + ws.headerSize + u32 ws.N ≤ i →
      r.1.mReceiveBuffer.mBuffer.cell i = w.mReceiveBuffer.mBuffer.cell i
  consumes : ∀ n, (.consumed n ∈ r.2.2 ∨ ∃ clear, r.2.1 = .deliver n clear) → n = ws.frameSize
  consumed : ws.opcode.isStop = false →
    .consumed ws.frameSize ∈ r.2.2 ∨ ∃ clear, r.2.1 = .deliver ws.frameSize clear

theorem consume_mBuffer (b : SimpleBuffer) (n : ℕ) : (b.consume n).mBuffer = b.mBuffer := by
  unfold SimpleBuffer.consume
  simp only
  split_ifs <;> rfl

/-- Queuing a frame touches no received byte and consumes none. -/
theorem sendData_quiet (w : WebSocketImpl) (type : Opcode) (data : Option Bytes) (n : ℕ)
    (key : MaskingKey) :
    (∀ how offset length, .access how offset length ∉ (w.sendData type data n key).2) ∧
      ∀ k, .consumed k ∉ (w.sendData type data n key).2 := by
  refine ⟨fun how offset length h => ?_, fun k h => ?_⟩
  · have := sendData_isFrame w type data n key _ h
    cases this
  · unfold sendData at h
    split_ifs at h
    · simp at h
    · cases data <;> simp only [queuePayload, addTransmit] at h <;> grind

theorem close_quiet (w : WebSocketImpl) :
    (∀ how offset length, .access how offset length ∉ w.close.2) ∧
      ∀ k, .consumed k ∉ w.close.2 := by
  refine ⟨fun how offset length h => ?_, fun k h => ?_⟩
  · have := close_isFrame w _ h
    cases this
  · unfold close at h
    split_ifs at h
    · simp at h
    · simp only [addTransmit] at h
      grind

theorem unmaskPayload_outside (w : WebSocketImpl) (ws : WsHeader) {i : ℕ}
    (h : i < w.mReceiveBuffer.mStartLoc + ws.headerSize ∨
      w.mReceiveBuffer.mStartLoc + ws.headerSize + u32 ws.N ≤ i) :
    (w.unmaskPayload ws).1.mReceiveBuffer.mBuffer.cell i = w.mReceiveBuffer.mBuffer.cell i := by
  unfold unmaskPayload
  split_ifs
  · simp only [setReceive_mReceiveBuffer, SimpleBuffer.xorData, cell_fastXOR]
    rw [if_neg (by omega)]
  · rfl

theorem mem_unmaskPayload_events {e : Event} (h : e ∈ (w.unmaskPayload ws).2) :
    e = .access .unmask ws.headerSize (u32 ws.N) := by
  unfold unmaskPayload at h
  split_ifs at h
  · exact List.mem_singleton.mp h
  · cases h

theorem mem_appendFragment_events {e : Event} (h : e ∈ (w.appendFragment ws).2) :
    e = .access .append ws.headerSize (u32 ws.N) ∨ e = .added .fragment (w.payload ws) ∨
      e = .refused .fragment (u32 ws.N) := by
  simp only [appendFragment, List.mem_cons, List.not_mem_nil, or_false] at h
  rcases h with rfl | rfl
  · exact .inl rfl
  · right
    split_ifs
    · exact .inl rfl
    · exact .inr rfl

theorem dispatchData_touches (w : WebSocketImpl) (ws : WsHeader) :
    Touches w ws (w.dispatchData ws) := by
  obtain ⟨es, hes, hstep⟩ := dispatchData_step w ws
  have houtside := @unmaskPayload_outside w ws
  have hunmask := @mem_unmaskPayload_events w ws
  have happend := @mem_appendFragment_events (w.unmaskPayload ws).1 ws
  have hmem : .access .append ws.headerSize (u32 ws.N) ∈
      ((w.unmaskPayload ws).1.appendFragment ws).2 := List.mem_cons_self
  have hbuffer : ((w.unmaskPayload ws).1.appendFragment ws).1.mReceiveBuffer =
      (w.unmaskPayload ws).1.mReceiveBuffer := rfl
  generalize w.dispatchData ws = r at *
  obtain ⟨w', flow, es'⟩ := r
  obtain rfl : es' = _ := hes
  cases hstep with
  | direct hfin hempty =>
    exact ⟨⟨_, List.mem_append_right _ List.mem_cons_self, rfl⟩, by grind, fun i => houtside,
      by grind, fun _ => .inr ⟨_, rfl⟩⟩
  | last hfin hsize hmore =>
    exact ⟨⟨_, List.mem_append_right _ (List.mem_append_left _ hmem), rfl⟩, by grind,
      fun i => houtside, by grind, fun _ => .inr ⟨_, rfl⟩⟩
  | nothing hfin hsize hmore =>
    refine ⟨⟨_, List.mem_append_right _ (List.mem_append_left _ hmem), rfl⟩, by grind, ?_,
      by grind, fun _ => .inl (by simp)⟩
    intro i hi
    simpa [finishDelivery, consumeFrame, consume_mBuffer, hbuffer] using houtside hi
  | fragment hfin =>
    refine ⟨⟨_, List.mem_append_right _ (List.mem_append_left _ hmem), rfl⟩, by grind, ?_,
      by grind, fun _ => .inl (by simp)⟩
    intro i hi
    simpa [consumeFrame, consume_mBuffer, hbuffer] using houtside hi

theorem dispatchPing_touches (w : WebSocketImpl) (ws : WsHeader) (key : MaskingKey) :
    Touches w ws (w.dispatchPing ws key) := by
  have houtside := @unmaskPayload_outside w ws
  have hunmask := @mem_unmaskPayload_events w ws
  obtain ⟨haccess, hconsumed⟩ := sendData_quiet (w.unmaskPayload ws).1 .pong
    (if ws.N ≠ 0 then some ((w.unmaskPayload ws).1.payload ws) else none) ws.N key
  obtain ⟨b, hb⟩ := exists_sendData_eq (w.unmaskPayload ws).1 .pong
    (if ws.N ≠ 0 then some ((w.unmaskPayload ws).1.payload ws) else none) ws.N key
  simp only [dispatchPing, consumeFrame, hb]
  refine ⟨⟨.consumed ws.frameSize, by simp, rfl⟩, ?_, fun i hi => ?_, ?_, fun _ => .inl (by simp)⟩
  · intro how offset length h
    simp only [List.mem_append] at h
    rcases h with ((h | h) | h) | h
    · have := hunmask h
      grind
    · split_ifs at h <;> grind
    · exact absurd h (haccess _ _ _)
    · cases List.mem_singleton.mp h
  · simpa [consume_mBuffer] using houtside hi
  · rintro n (h | ⟨clear, h⟩)
    · simp only [List.mem_append] at h
      rcases h with ((h | h) | h) | h
      · have := hunmask h
        grind
      · split_ifs at h <;> grind
      · exact absurd h (hconsumed _)
      · exact Event.consumed.inj (List.mem_singleton.mp h)
    · cases h

theorem close_touches (w : WebSocketImpl) (ws : WsHeader) (hop : ws.opcode.isStop = true) :
    Touches w ws (w.close.1, .stop, w.close.2) := by
  obtain ⟨haccess, hconsumed⟩ := close_quiet w
  refine ⟨?_, fun _ _ _ h => absurd h (haccess _ _ _), fun i _ => ?_, ?_,
    fun h => by simp [hop] at h⟩
  · unfold close
    split_ifs <;> exact ⟨_, List.mem_cons_self, rfl⟩
  · obtain h | ⟨-, b, h⟩ := exists_close_eq w <;> simp [h]
  · rintro n (h | ⟨clear, h⟩)
    · exact absurd h (hconsumed _)
    · cases h

theorem dispatchFrame_touches (w : WebSocketImpl) (ws : WsHeader) (key : MaskingKey) :
    Touches w ws (w.dispatchFrame ws key) := by
  unfold dispatchFrame
  split
  · exact dispatchData_touches w ws
  · exact dispatchData_touches w ws
  · exact dispatchData_touches w ws
  · exact dispatchPing_touches w ws key
  · exact ⟨⟨_, List.mem_cons_self, rfl⟩, by simp [consumeFrame],
      fun i _ => by simp [consumeFrame, consume_mBuffer], by simp [consumeFrame],
      fun _ => .inl (by simp [consumeFrame])⟩
  · rename_i hop
    exact close_touches w ws (by rw [hop]; rfl)
  · rename_i hop
    exact close_touches w ws (by rw [hop]; rfl)

/-- An iteration of the loop acts on the frame at the front of the received bytes only if the whole
frame is there, stays inside the received bytes, and consumes the frame. A frame that is delivered
is consumed when the callback returns. -/
structure FrameBounds (w : WebSocketImpl) (r : WebSocketImpl × Flow × List Event) : Prop where
  whole : (∃ e ∈ r.2.2, e.isAction = true) →
    (headerOf w.mReceiveBuffer.byteAt).headerSize + (headerOf w.mReceiveBuffer.byteAt).N ≤
      w.mReceiveBuffer.getSize
  inside : ∀ how offset length, .access how offset length ∈ r.2.2 →
    offset + length ≤ w.mReceiveBuffer.getSize
  outside : ∀ i, i < w.mReceiveBuffer.mStartLoc ∨
    w.mReceiveBuffer.mStartLoc + w.mReceiveBuffer.getSize ≤ i →
      r.1.mReceiveBuffer.mBuffer.cell i = w.mReceiveBuffer.mBuffer.cell i
  consumes : ∀ n, (.consumed n ∈ r.2.2 ∨ ∃ clear, r.2.1 = .deliver n clear) →
    n = (headerOf w.mReceiveBuffer.byteAt).headerSize + (headerOf w.mReceiveBuffer.byteAt).N
  consumed : (∃ e ∈ r.2.2, e.isAction = true) →
    (headerOf w.mReceiveBuffer.byteAt).opcode.isStop = false →
      ∃ n, .consumed n ∈ r.2.2 ∨ ∃ clear, r.2.1 = .deliver n clear

/-- The header at the front of the received bytes is complete, the size of its frame does not fit
in 32 bits, and what is left of it passes the length check. -/
def Overflows (w : WebSocketImpl) : Prop :=
  let ws := headerOf w.mReceiveBuffer.byteAt
  ws.headerSize ≤ w.mReceiveBuffer.getSize ∧ 4294967296 ≤ ws.headerSize + ws.N ∧
    (ws.headerSize + ws.N) % 4294967296 ≤ w.mReceiveBuffer.getSize

instance : Decidable w.Overflows := inferInstanceAs (Decidable (_ ∧ _ ∧ _))

theorem frameSize_le_of_overflows (h : w.Overflows) :
    (headerOf w.mReceiveBuffer.byteAt).frameSize ≤ w.mReceiveBuffer.getSize := by
  rw [WsHeader.frameSize_eq]
  exact h.2.2

/-- An iteration keeps the bounds of the frame at the front, for every content of the receive
buffer, if and only if the frame is not one of `2 ^ 32` bytes or more whose size passes the length
check once it is truncated to 32 bits. -/
theorem frame_bounds (w : WebSocketImpl) (key : MaskingKey) :
    FrameBounds w (w.dispatchIteration key) ↔ ¬w.Overflows := by
  obtain ⟨reads, hreads, hcases⟩ := dispatchIteration_cases w key
  constructor
  · rintro hbounds hover
    obtain ⟨es, -, -, hshort⟩ | ⟨ws, rfl, -, -, heq⟩ := hcases
    · have := hover.1
      have := frameSize_le_of_overflows hover
      omega
    · obtain ⟨e, he, hact⟩ := (dispatchFrame_touches w (headerOf w.mReceiveBuffer.byteAt) key).acts
      have hwhole := hbounds.whole ⟨e, by rw [heq]; simp [he], hact⟩
      have := w.mReceiveBuffer.getSize_lt
      have := hover.2.1
      omega
  · intro hover
    obtain ⟨es, hes, heq, -⟩ | ⟨ws, hws, hsize, hframe, heq⟩ := hcases
    · -- only the header was read
      have hno (e : Event) (he : e ∈ (w.dispatchIteration key).2.2) : e.isAction = false := by
        rw [heq] at he
        rcases List.mem_append.mp he with he | he
        · obtain ⟨i, -, rfl⟩ := List.mem_map.mp he
          rfl
        · obtain ⟨ws, n, rfl⟩ := hes e he
          rfl
      have hnone : ¬∃ e ∈ (w.dispatchIteration key).2.2, e.isAction = true := by
        rintro ⟨e, he, hact⟩
        simp [hno e he] at hact
      refine ⟨fun h => absurd h hnone, fun how offset length h => ?_, fun i _ => by rw [heq],
        fun n h => ?_, fun h => absurd h hnone⟩
      · rw [heq] at h
        rcases List.mem_append.mp h with h | h
        · obtain ⟨i, hi, heq'⟩ := List.mem_map.mp h
          obtain ⟨-, rfl, rfl⟩ := Event.access.inj heq'
          exact hreads i hi
        · obtain ⟨_, _, h⟩ := hes _ h
          cases h
      · rcases h with h | ⟨clear, h⟩
        · cases hno _ h
        · rw [heq] at h
          cases h
    · have htouches := dispatchFrame_touches w ws key
      have hlt : ws.headerSize + ws.N < 4294967296 := by
        by_contra hge
        refine hover ⟨hws ▸ hsize, by rw [← hws]; omega, ?_⟩
        rw [← hws, ← WsHeader.frameSize_eq]
        exact hframe
      have hfs := WsHeader.frameSize_of_lt hlt
      have hu : u32 ws.N = ws.N := u32_of_lt (by omega)
      rw [heq]
      refine ⟨fun _ => by rw [← hws]; omega, fun how offset length h => ?_, fun i hi => ?_,
        fun n h => ?_, fun _ hop => ?_⟩
      · simp only [List.mem_append, List.mem_map, List.mem_cons] at h
        rcases h with ⟨i, hi, heq'⟩ | heq' | h
        · obtain ⟨-, rfl, rfl⟩ := Event.access.inj heq'
          exact hreads i hi
        · cases heq'
        · obtain ⟨rfl, rfl⟩ := htouches.access _ _ _ h
          omega
      · exact htouches.outside i (by omega)
      · rw [← hws, ← hfs]
        refine htouches.consumes n (h.imp_left fun h => ?_)
        simpa using h
      · obtain h | ⟨clear, h⟩ := htouches.consumed (hws ▸ hop)
        · exact ⟨_, .inl (List.mem_append_right _ (List.mem_cons_of_mem _ h))⟩
        · exact ⟨_, .inr ⟨clear, h⟩⟩

/-- A connection that has received the given bytes. -/
def withReceived (s : Bytes) : WebSocketImpl :=
  (initial Session.zeroPlatform true).setReceive
    ((newBuffer (Session.zeroPlatform.heap 0)).addBuffer (some s) s.length).1

/-- A header that announces `2 ^ 32` bytes of payload passes the length check when nothing else has
been received, and an empty message is delivered for it. -/
theorem frame_bounds_overflow :
    ¬∀ (w : WebSocketImpl) (key : MaskingKey), FrameBounds w (w.dispatchIteration key) := by
  intro h
  have hbounds := h (withReceived [0x82, 127, 0, 0, 0, 1, 0, 0, 0, 0]) 0
  have hact : ∃ e ∈ ((withReceived [0x82, 127, 0, 0, 0, 1, 0, 0, 0, 0]).dispatchIteration 0).2.2,
      e.isAction = true :=
    List.any_eq_true.mp (by decide +kernel)
  have hwhole := hbounds.whole hact
  revert hwhole
  decide +kernel

end WebSocketImpl

/-! ### The content of the receive buffer through the loop -/

/-- The header of the frame that the loop processes next, if it does not leave. -/
def loopHeader (s : Bytes) : Option WsHeader :=
  match (readHeader (fun i => s.getD i 0) s.length).1 with
  | none => none
  | some ws => if s.length < ws.frameSize ∨ ws.opcode.isStop then none else some ws

/-- The content after the payload is unmasked; the payload of a `PONG` is not looked at. -/
def unmaskContent (ws : WsHeader) (s : Bytes) : Bytes :=
  if ws.mask = true ∧ ws.opcode ≠ .pong then
    s.take ws.headerSize ++ maskBytes ws.maskingKey ((s.drop ws.headerSize).take (u32 ws.N)) ++
      s.drop (ws.headerSize + u32 ws.N)
  else s

/-- The content after one iteration that does not leave the loop. -/
def nextContent (s : Bytes) : Option Bytes :=
  (loopHeader s).map fun ws => (unmaskContent ws s).drop ws.frameSize

/-- On its way through the content the loop gets to a `TEXT`, `BINARY`, `CONTINUATION`, `PING` or
`PONG` frame with a header size and a payload length that add up to a multiple of `2 ^ 32`. -/
inductive MeetsEmptyFrame : Bytes → Prop
  | here {s ws} (h : loopHeader s = some ws)
    (hsize : (ws.headerSize + ws.N) % 4294967296 = 0) : MeetsEmptyFrame s
  | later {s t} (h : nextContent s = some t) (ht : MeetsEmptyFrame t) : MeetsEmptyFrame s

variable {s t : Bytes} {ws : WsHeader}

theorem loopHeader_eq_some (h : loopHeader s = some ws) :
    ws = headerOf (fun i => s.getD i 0) ∧ ws.headerSize ≤ s.length ∧ ws.frameSize ≤ s.length ∧
      ws.opcode.isStop = false := by
  unfold loopHeader at h
  rcases hread : readHeader (fun i => s.getD i 0) s.length with ⟨_ | ws', reads⟩
  · simp only [hread] at h
    cases h
  · obtain ⟨rfl, -, hsize⟩ := readHeader_some hread
    simp only [hread] at h
    split_ifs at h with hno
    obtain rfl := Option.some.inj h
    rw [not_or] at hno
    exact ⟨rfl, hsize, Nat.le_of_not_lt hno.1, by simpa using hno.2⟩

@[simp] theorem length_unmaskContent (h : ws.headerSize ≤ s.length) :
    (unmaskContent ws s).length = s.length := by
  unfold unmaskContent
  split_ifs
  · simp
    omega
  · rfl

/-- The loop makes progress on every other frame. -/
theorem length_nextContent (h : nextContent s = some t) (hs : ¬MeetsEmptyFrame s) :
    t.length < s.length := by
  obtain ⟨ws, hws, rfl⟩ := Option.map_eq_some_iff.mp h
  obtain ⟨hhead, hsize, -, -⟩ := loopHeader_eq_some hws
  have hpos : 0 < ws.frameSize := by
    rw [WsHeader.frameSize_eq]
    exact Nat.pos_of_ne_zero fun h0 => hs (.here hws h0)
  have h2 : 2 ≤ ws.headerSize := hhead ▸ headerSize_pos _
  rw [List.length_drop, length_unmaskContent hsize]
  omega

/-- Unmasking does not change the header. -/
theorem loopHeader_unmaskContent (h : loopHeader s = some ws) :
    loopHeader (unmaskContent ws s) = some ws := by
  obtain ⟨hhead, hsize, -, -⟩ := loopHeader_eq_some h
  have hlen := length_unmaskContent hsize
  have hbyte (i : ℕ) (hi : i < ws.headerSize) : (unmaskContent ws s).getD i 0 = s.getD i 0 := by
    unfold unmaskContent
    split_ifs
    · rw [List.append_assoc, List.getD_eq_getElem?_getD, List.getD_eq_getElem?_getD,
        List.getElem?_append_left (by simp; omega), List.getElem?_take_of_lt hi]
    · rfl
  have h2 : 2 ≤ ws.headerSize := hhead ▸ headerSize_pos _
  have hcongr : headerOf (fun i => s.getD i 0) =
      headerOf fun i => (unmaskContent ws s).getD i 0 :=
    headerOf_congr h2 (fun i hi => (hbyte i hi).symm) (by rw [← hhead])
  have hread (c : Bytes) (hc : ws = headerOf fun i => c.getD i 0) (hl : c.length = s.length) :
      loopHeader c = if s.length < ws.frameSize ∨ ws.opcode.isStop then none else some ws := by
    rw [loopHeader, readHeader_eq_some (by rw [← hc, hl]; exact hsize), ← hc, hl]
  rw [hread _ (hhead.trans hcongr) hlen, ← hread s hhead rfl, h]

/-- The loop leaves at once. -/
theorem not_meetsEmptyFrame_of_none (h : loopHeader s = none) : ¬MeetsEmptyFrame s := by
  rintro (⟨h', -⟩ | ⟨h', -⟩)
  · cases h.symm.trans h'
  · rw [nextContent, h] at h'
    cases h'

/-- A frame of no bytes is met again and again. -/
theorem MeetsEmptyFrame.next (h : MeetsEmptyFrame s) :
    ∃ t, nextContent s = some t ∧ MeetsEmptyFrame t := by
  cases h with
  | @here _ ws hws hsize =>
    have hfs : (unmaskContent ws s).drop ws.frameSize = unmaskContent ws s := by
      rw [WsHeader.frameSize_eq, hsize, List.drop_zero]
    exact ⟨_, by rw [nextContent, hws, Option.map_some, hfs],
      .here (loopHeader_unmaskContent hws) hsize⟩
  | later hnext ht => exact ⟨_, hnext, ht⟩

namespace WebSocketImpl

variable {w : WebSocketImpl}

theorem readHeader_getData (b : SimpleBuffer) :
    readHeader (fun i => b.getData.getD i 0) b.getData.length = readHeader b.byteAt b.getSize := by
  rw [SimpleBuffer.length_getData]
  refine readHeader_congr fun i hi => ?_
  rw [List.getD_eq_getElem?_getD, SimpleBuffer.getData_getElem? hi, Option.getD_some]

/-- Unmasking, in terms of the content. -/
theorem unmaskPayload_content (hwf : w.mReceiveBuffer.WF)
    (hsize : ws.headerSize ≤ w.mReceiveBuffer.getSize) (hop : ws.opcode ≠ .pong) :
    (w.unmaskPayload ws).1.mReceiveBuffer.WF ∧
      (w.unmaskPayload ws).1.mReceiveBuffer.getData =
        unmaskContent ws w.mReceiveBuffer.getData := by
  unfold unmaskPayload unmaskContent
  by_cases hm : ws.mask = true
  · rw [if_pos hm, if_pos ⟨hm, hop⟩]
    exact ⟨hwf.xorData _ _ _ _, SimpleBuffer.getData_xorData_of_le _ _ _ hsize⟩
  · rw [if_neg hm, if_neg fun h => hm h.1]
    exact ⟨hwf, rfl⟩

/-- What a frame that does not end the loop does to the receive buffer. -/
theorem dispatchFrame_content (hwf : w.mReceiveBuffer.WF)
    (hsize : ws.headerSize ≤ w.mReceiveBuffer.getSize) (hop : ws.opcode.isStop = false)
    (key : MaskingKey) :
    (w.dispatchFrame ws key).1.mReceiveBuffer.WF ∧
      ((w.dispatchFrame ws key).2.1 = .again ∧
          (w.dispatchFrame ws key).1.mReceiveBuffer.getData =
            (unmaskContent ws w.mReceiveBuffer.getData).drop ws.frameSize ∨
        (∃ clear, (w.dispatchFrame ws key).2.1 = .deliver ws.frameSize clear) ∧
          (w.dispatchFrame ws key).1.mReceiveBuffer.getData =
            unmaskContent ws w.mReceiveBuffer.getData) := by
  have hdata (hpong : ws.opcode ≠ .pong) : (w.dispatchData ws).1.mReceiveBuffer.WF ∧
      ((w.dispatchData ws).2.1 = .again ∧ (w.dispatchData ws).1.mReceiveBuffer.getData =
          (unmaskContent ws w.mReceiveBuffer.getData).drop ws.frameSize ∨
        (∃ clear, (w.dispatchData ws).2.1 = .deliver ws.frameSize clear) ∧
          (w.dispatchData ws).1.mReceiveBuffer.getData =
            unmaskContent ws w.mReceiveBuffer.getData) := by
    obtain ⟨hwf', hcontent⟩ := unmaskPayload_content hwf hsize hpong
    obtain ⟨hwf'', -, hdrop⟩ := SimpleBuffer.consume_spec hwf' ws.frameSize
    obtain ⟨es, -, hstep⟩ := dispatchData_step w ws
    generalize w.dispatchData ws = r at hstep ⊢
    obtain ⟨w', flow, es'⟩ := r
    cases hstep with
    | direct => exact ⟨hwf', .inr ⟨⟨_, rfl⟩, hcontent⟩⟩
    | last => exact ⟨hwf', .inr ⟨⟨_, rfl⟩, hcontent⟩⟩
    | nothing => exact ⟨hwf'', .inl ⟨rfl, hdrop.trans (by rw [hcontent])⟩⟩
    | fragment => exact ⟨hwf'', .inl ⟨rfl, hdrop.trans (by rw [hcontent])⟩⟩
  cases hdataop : ws.opcode.isData with
  | true =>
    rw [dispatchFrame_of_isData hdataop]
    exact hdata fun hpong => by simp [hpong, Opcode.isData] at hdataop
  | false =>
    unfold dispatchFrame
    split <;> simp_all only [Opcode.isData, Opcode.isStop, Bool.true_eq_false]
    · obtain ⟨hwf', hcontent⟩ := unmaskPayload_content hwf hsize (by simp [*])
      obtain ⟨hwf'', -, hdrop⟩ := SimpleBuffer.consume_spec hwf' ws.frameSize
      obtain ⟨b, hb⟩ := exists_sendData_eq (w.unmaskPayload ws).1 .pong
        (if ws.N ≠ 0 then some ((w.unmaskPayload ws).1.payload ws) else none) ws.N key
      simp only [dispatchPing, consumeFrame, hb]
      exact ⟨hwf'', .inl ⟨trivial, hdrop.trans (by rw [hcontent])⟩⟩
    · rename_i hpong
      obtain ⟨hwf', -, hdrop⟩ := SimpleBuffer.consume_spec hwf ws.frameSize
      refine ⟨hwf', .inl ⟨trivial, hdrop.trans ?_⟩⟩
      rw [unmaskContent, if_neg fun h => h.2 hpong]

/-- One iteration, in terms of the content of the receive buffer. -/
theorem dispatchIteration_content (hwf : w.mReceiveBuffer.WF) (key : MaskingKey) :
    (w.dispatchIteration key).1.mReceiveBuffer.WF ∧
      match nextContent w.mReceiveBuffer.getData with
      | none => (w.dispatchIteration key).2.1 = .stop
      | some t =>
        (w.dispatchIteration key).2.1 = .again ∧
            (w.dispatchIteration key).1.mReceiveBuffer.getData = t ∨
          ∃ n clear, (w.dispatchIteration key).2.1 = .deliver n clear ∧
            (w.dispatchIteration key).1.mReceiveBuffer.getData.drop n = t := by
  have hread := readHeader_getData w.mReceiveBuffer
  have hlen := w.mReceiveBuffer.length_getData
  obtain ⟨reads, -, ⟨es, -, heq, hshort⟩ | ⟨ws, hws, hsize, hframe, heq⟩⟩ :=
    dispatchIteration_cases w key
  · have hnone : nextContent w.mReceiveBuffer.getData = none := by
      rw [nextContent, Option.map_eq_none_iff, Option.eq_none_iff_forall_ne_some]
      intro ws hloop
      obtain ⟨hhead, hsize, hframe, -⟩ := loopHeader_eq_some hloop
      have hread' := readHeader_eq_some (hhead ▸ hsize :
        (headerOf fun i => w.mReceiveBuffer.getData.getD i 0).headerSize ≤ _)
      obtain ⟨hhead', -, -⟩ := readHeader_some (hread.symm.trans hread')
      rw [← hhead', ← hhead] at hshort
      omega
    rw [heq, hnone]
    exact ⟨hwf, rfl⟩
  · have hloop : loopHeader w.mReceiveBuffer.getData =
        if ws.opcode.isStop then none else some ws := by
      rw [loopHeader, hread, readHeader_eq_some (hws ▸ hsize), ← hws, hlen]
      simp only [Nat.not_lt.mpr hframe, false_or]
    rw [heq, nextContent, hloop]
    cases hop : ws.opcode.isStop with
    | true =>
      rw [dispatchFrame_of_isStop hop]
      refine ⟨?_, rfl⟩
      obtain h | ⟨-, b, h⟩ := exists_close_eq w <;> rw [h] <;> exact hwf
    | false =>
      simp only [Bool.false_eq_true, if_false, Option.map_some]
      obtain ⟨hwf', ⟨hflow, hdata⟩ | ⟨⟨clear, hflow⟩, hdata⟩⟩ :=
        dispatchFrame_content hwf hsize hop key
      · exact ⟨hwf', .inl ⟨hflow, hdata⟩⟩
      · exact ⟨hwf', .inr ⟨_, _, hflow, by rw [hdata]⟩⟩

end WebSocketImpl

/-- An iteration of the frame loop. -/
def Input.isDispatch : Input → Bool
  | .dispatch _ => true
  | _ => false

namespace Session

variable {w : WebSocketImpl} {t : Session} {tr : List (Input × List Event)}

/-- Nothing but the frame loop runs: the callback calls functions that return without waiting, and
neither it nor the application polls or destroys the connection. -/
def LoopOnly (_ : Session) (i : Input) (_ : List Event) : Prop :=
  match i with
  | .poll _ _ | .destroy => False
  | _ => True

/-- The loop after `k` results, with room for `K` of them: each frame takes two, since the callback
returns, and there are at most as many frames as bytes. -/
inductive LoopBound (K k : ℕ) : Session → Prop
  | dispatching {w : WebSocketImpl} (hwf : w.mReceiveBuffer.WF)
    (hmeets : ¬MeetsEmptyFrame w.mReceiveBuffer.getData)
    (hk : k + 2 * w.mReceiveBuffer.getData.length + 1 ≤ K) : LoopBound K k ⟨w, [.dispatching]⟩
  | delivering {w : WebSocketImpl} {n : ℕ} {clear : Bool} (hwf : w.mReceiveBuffer.WF)
    (hmeets : ¬MeetsEmptyFrame (w.mReceiveBuffer.getData.drop n))
    (hk : k + 2 * (w.mReceiveBuffer.getData.drop n).length + 2 ≤ K) :
    LoopBound K k ⟨w, [.delivering n clear]⟩
  | done {w : WebSocketImpl} (hk : k ≤ K) : LoopBound K k ⟨w, []⟩

theorem LoopBound.le {K k : ℕ} {s : Session} (h : LoopBound K k s) : k ≤ K := by
  cases h <;> omega

/-- The calls of the callback do not concern the receive buffer. -/
theorem call_mReceiveBuffer {i : Input} {r : WebSocketImpl × List Event} (h : w.call i = some r) :
    r.1.mReceiveBuffer = w.mReceiveBuffer := by
  obtain ⟨type, data, key, -, rfl⟩ | ⟨-, rfl⟩ := WebSocketImpl.call_cases h
  · obtain ⟨b, hb⟩ := WebSocketImpl.exists_sendData_eq w type data (data.getD []).length key
    rw [hb, WebSocketImpl.setTransmit_mReceiveBuffer]
  · obtain hb | ⟨-, b, hb⟩ := WebSocketImpl.exists_close_eq w <;> rw [hb]
    rfl

theorem LoopBound.step {K k : ℕ} {s : Session} {i : Input} {es : List Event} (hs : LoopBound K k s)
    (h : s.step i = some (t, es)) (hguard : LoopOnly s i es) :
    LoopBound K (k + if i.isResult then 1 else 0) t := by
  have hcall {i : Input} {r : WebSocketImpl × List Event} (h : s.impl.call i = some r) :
      i.isResult = false := by
    cases i <;> first | rfl | cases h
  cases step_cases h with
  | call hcallable hc =>
    rw [hcall hc, if_neg (by simp), Nat.add_zero]
    have hbuf := call_mReceiveBuffer hc
    cases hs with
    | dispatching => cases hcallable
    | delivering hwf hmeets hk =>
      exact .delivering (hbuf ▸ hwf) (by rwa [hbuf]) (by rwa [hbuf])
    | done hk => exact .done hk
  | poll | destroy => exact hguard.elim
  | dispatch key hstack =>
    cases hs with
    | dispatching hwf hmeets hk =>
      obtain rfl := (List.cons.inj hstack).2
      obtain ⟨hwf', hcontent⟩ := WebSocketImpl.dispatchIteration_content hwf key
      simp only [List.append_nil]
      rcases hnext : nextContent _ with _ | c <;> rw [hnext] at hcontent
      · simp only at hcontent
        rw [hcontent]
        exact .done (by simp only [Input.isResult, if_true]; omega)
      · have hlt := length_nextContent hnext hmeets
        have hmeets' : ¬MeetsEmptyFrame c := fun hc => hmeets (.later hnext hc)
        rcases hcontent with ⟨hflow, rfl⟩ | ⟨n, clear, hflow, rfl⟩ <;> rw [hflow]
        · exact .dispatching hwf' hmeets' (by simp only [Input.isResult, if_true]; omega)
        · exact .delivering hwf' hmeets' (by simp only [Input.isResult, if_true]; omega)
    | delivering => cases hstack
    | done => cases hstack
  | ret hstack =>
    cases hs with
    | dispatching => cases hstack
    | @delivering w n clear hwf hmeets hk =>
      obtain ⟨rfl, rfl⟩ : _ ∧ _ := by simpa using (List.cons.inj hstack).1
      obtain rfl := (List.cons.inj hstack).2
      obtain ⟨hwf', -, hdrop⟩ := SimpleBuffer.consume_spec hwf n
      have hbuf : (w.finishDelivery n clear).1.mReceiveBuffer = w.mReceiveBuffer.consume n := by
        cases clear <;> rfl
      refine .dispatching (hbuf ▸ hwf') (by rwa [hbuf, hdrop]) ?_
      rw [hbuf, hdrop]
      simp only [Input.isResult, if_true]
      omega
    | done => cases hstack
  | connect _ _ hstack | receive hstack _ | transmit hstack _ | destroyLoop _ hstack _ _ =>
    cases hs <;> cases hstack

/-- One turn of the loop: an iteration and, if a message is delivered, the return of the
callback. -/
theorem exists_turn {c : Bytes} (hwf : w.mReceiveBuffer.WF)
    (hnext : nextContent w.mReceiveBuffer.getData = some c) :
    ∃ w' tr, sessionMachine.Run LoopOnly ⟨w, [.dispatching]⟩ tr ⟨w', [.dispatching]⟩ ∧
      w'.mReceiveBuffer.WF ∧ w'.mReceiveBuffer.getData = c ∧
      tr.countP (·.1.isDispatch) = 1 := by
  obtain ⟨hwf', hcontent⟩ := WebSocketImpl.dispatchIteration_content hwf 0
  rw [hnext] at hcontent
  have hstep : sessionMachine.step ⟨w, [.dispatching]⟩ (.dispatch 0) =
      some (⟨(w.dispatchIteration 0).1, (w.dispatchIteration 0).2.1.next ++ []⟩,
        (w.dispatchIteration 0).2.2) := rfl
  rcases hcontent with ⟨hflow, rfl⟩ | ⟨n, clear, hflow, rfl⟩ <;> rw [hflow] at hstep
  · exact ⟨_, _, .single hstep trivial, hwf', rfl, rfl⟩
  · obtain ⟨hwf'', -, hdrop⟩ := SimpleBuffer.consume_spec hwf' n
    have hbuf : ((w.dispatchIteration 0).1.finishDelivery n clear).1.mReceiveBuffer =
        (w.dispatchIteration 0).1.mReceiveBuffer.consume n := by
      cases clear <;> rfl
    have hret : sessionMachine.step ⟨(w.dispatchIteration 0).1, [.delivering n clear]⟩ .ret =
        some (⟨((w.dispatchIteration 0).1.finishDelivery n clear).1, [.dispatching]⟩,
          ((w.dispatchIteration 0).1.finishDelivery n clear).2) := rfl
    exact ⟨_, _, (Machine.Run.single hstep trivial).snoc hret trivial, hbuf ▸ hwf'',
      by rw [hbuf, hdrop], rfl⟩

/-- From a content with an empty frame in its way the loop goes on for any number of turns. -/
theorem exists_long_run (n : ℕ) (hwf : w.mReceiveBuffer.WF)
    (hmeets : MeetsEmptyFrame w.mReceiveBuffer.getData) :
    ∃ tr w', sessionMachine.Run LoopOnly ⟨w, [.dispatching]⟩ tr ⟨w', [.dispatching]⟩ ∧
      tr.countP (·.1.isDispatch) = n := by
  induction n generalizing w with
  | zero => exact ⟨[], _, .nil, rfl⟩
  | succ n ih =>
    obtain ⟨c, hnext, hmeets'⟩ := hmeets.next
    obtain ⟨w', tr, hrun, hwf', rfl, hcount⟩ := exists_turn hwf hnext
    obtain ⟨tr', t, hrun', hcount'⟩ := ih hwf' hmeets'
    exact ⟨tr ++ tr', t, hrun.trans hrun', by rw [List.countP_append]; omega⟩

/-- The frame loop ends after finitely many iterations, whatever the callback does short of polling,
if and only if it does not get to a frame whose size is zero in 32 bits. -/
theorem dispatch_terminates (hwf : w.mReceiveBuffer.WF) :
    (∃ n, ∀ tr t, sessionMachine.Run LoopOnly ⟨w, [.dispatching]⟩ tr t →
        tr.countP (·.1.isDispatch) ≤ n) ↔
      ¬MeetsEmptyFrame w.mReceiveBuffer.getData := by
  constructor
  · rintro ⟨n, hn⟩ hmeets
    obtain ⟨tr, t, hrun, hcount⟩ := exists_long_run (n + 1) hwf hmeets
    have := hn tr _ hrun
    omega
  · intro hmeets
    refine ⟨2 * w.mReceiveBuffer.getData.length + 1, fun tr t hrun => ?_⟩
    have hbound : LoopBound (2 * w.mReceiveBuffer.getData.length + 1)
        (tr.countP (·.1.isResult)) t := by
      refine hrun.invariant (P := fun tr t =>
        LoopBound (2 * w.mReceiveBuffer.getData.length + 1) (tr.countP (·.1.isResult)) t)
        (.dispatching hwf hmeets (by simp)) fun tr t i es u _ ih hstep hguard => ?_
      rw [List.countP_append, List.countP_singleton]
      exact ih.step hstep hguard
    refine (List.countP_mono_left fun p _ hp => ?_).trans hbound.le
    cases hi : p.1 <;> simp_all [Input.isDispatch, Input.isResult]

theorem withReceived_spec {s : Bytes} (h : s.length ≤ 16384) :
    (WebSocketImpl.withReceived s).mReceiveBuffer.WF ∧
      (WebSocketImpl.withReceived s).mReceiveBuffer.getData = s := by
  obtain ⟨hwf, hdata⟩ := newBuffer_spec (zeroPlatform.heap 0)
  have hroom : (WebSocketImpl.newBuffer (zeroPlatform.heap 0)).Accepts s.length := .inl h
  obtain ⟨hwf', -, -, hok, hdata', -⟩ :=
    SimpleBuffer.addBuffer_of_noWrap hwf (by omega) (hwf.noWrap (by omega)) (d := s) rfl
  refine ⟨hwf', hdata'.trans ?_⟩
  rw [hok, decide_eq_true hroom, hdata, if_pos rfl, List.nil_append]

/-- The loop over a single `PING`. -/
theorem dispatch_terminates_ping :
    (∃ n, ∀ tr t,
        sessionMachine.Run LoopOnly ⟨.withReceived [0x89, 0], [.dispatching]⟩ tr t →
        tr.countP (·.1.isDispatch) ≤ n) ↔
      ¬MeetsEmptyFrame (WebSocketImpl.withReceived [0x89, 0]).mReceiveBuffer.getData :=
  dispatch_terminates (withReceived_spec (by decide)).1

/-- A `PONG` that announces `2 ^ 32 - 10` bytes behind its header of ten: nothing is consumed and
the loop never ends. -/
theorem dispatch_diverges :
    ¬∀ w : WebSocketImpl, w.mReceiveBuffer.WF →
      ∃ n, ∀ tr t, sessionMachine.Run LoopOnly ⟨w, [.dispatching]⟩ tr t →
        tr.countP (·.1.isDispatch) ≤ n := by
  intro h
  obtain ⟨hwf, hdata⟩ := withReceived_spec (s := [0x8A, 127, 0, 0, 0, 0, 0xFF, 0xFF, 0xFF, 0xF6])
    (by decide)
  obtain ⟨n, hn⟩ := h _ hwf
  have hmeets : MeetsEmptyFrame [0x8A, 127, 0, 0, 0, 0, 0xFF, 0xFF, 0xFF, 0xF6] := by
    obtain ⟨ws, hws, hsize⟩ := (Option.any_eq_true _ _).mp
      (show (loopHeader [0x8A, 127, 0, 0, 0, 0, 0xFF, 0xFF, 0xFF, 0xF6]).any
        (fun ws => (ws.headerSize + ws.N) % 4294967296 == 0) = true by decide +kernel)
    exact .here hws (beq_iff_eq.mp hsize)
  obtain ⟨tr, t, hrun, hcount⟩ := exists_long_run (n + 1) hwf (hdata.symm ▸ hmeets)
  have := hn tr _ hrun
  omega

end Session

end WsClient
