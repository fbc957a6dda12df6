import WsClient.PollLoops

/-!
# A receive buffer that does not grow

The receive loop of `poll` is left when the receive buffer has no room and does not grow. What the
rest of that `poll` does about it depends on what has been received. It takes bytes out of the
buffer or the connection out of `OPEN` if the frame at the front is there as a whole, and it returns
if its frame loop does not get to a frame of no bytes.

## Main definitions

* `WebSocketImpl.HeadComplete`: the length check of the frame loop.
* `Session.Removes`, `Session.Drains`: what the rest of a `poll` should do.
* `Doubled`: a buffer that has grown by doubling only.

## Main results

* `Session.full_buffer_drains`.
* `Session.fill_run`: a run that fills the receive buffer.
* `Session.oversized_frame_stalls`: a frame that never leaves the buffer.
-/

namespace WsClient

namespace WebSocketImpl

variable {w : WebSocketImpl} {ws : WsHeader} {key : MaskingKey}

/-- The header of the frame at the front and, as far as the loop looks, the whole frame have been
received. -/
def HeadComplete (w : WebSocketImpl) : Prop :=
  (headerOf w.mReceiveBuffer.byteAt).headerSize ≤ w.mReceiveBuffer.getSize ∧
    (headerOf w.mReceiveBuffer.byteAt).frameSize ≤ w.mReceiveBuffer.getSize

instance : Decidable w.HeadComplete := inferInstanceAs (Decidable (_ ∧ _))

/-- What an iteration makes of a complete frame that is not of no bytes: it consumes it, delivers
it, or closes the connection. -/
theorem dispatchIteration_of_headComplete (hwf : w.mReceiveBuffer.WF) (h : w.HeadComplete)
    (hmeets : ¬MeetsEmptyFrame w.mReceiveBuffer.getData) (key : MaskingKey) :
    ((w.dispatchIteration key).2.1 = .again ∧
        (w.dispatchIteration key).1.mReceiveBuffer.getSize < w.mReceiveBuffer.getSize) ∨
      (∃ n clear, (w.dispatchIteration key).2.1 = .deliver n clear ∧ 0 < n ∧
        0 < (w.dispatchIteration key).1.mReceiveBuffer.getSize) ∨
      (w.dispatchIteration key).2.1 = .stop ∧ (w.dispatchIteration key).1 = w.close.1 := by
  obtain ⟨reads, -, ⟨es, -, -, hshort⟩ | ⟨ws, hws, hsize, hframe, heq⟩⟩ :=
    dispatchIteration_cases w key
  · have := h.1
    have := h.2
    omega
  · rw [heq]
    cases hop : ws.opcode.isStop with
    | true =>
      rw [dispatchFrame_of_isStop hop]
      exact .inr (.inr ⟨rfl, rfl⟩)
    | false =>
      have hloop : loopHeader w.mReceiveBuffer.getData = some ws := by
        rw [loopHeader, readHeader_getData, readHeader_eq_some (hws ▸ hsize), ← hws,
          SimpleBuffer.length_getData]
        simp [Nat.not_lt.mpr hframe, hop]
      have hpos : 0 < ws.frameSize := by
        rw [WsHeader.frameSize_eq]
        exact Nat.pos_of_ne_zero fun h0 => hmeets (.here hloop h0)
      have hlen : (unmaskContent ws w.mReceiveBuffer.getData).length =
          w.mReceiveBuffer.getSize := by
        rw [length_unmaskContent (by rwa [SimpleBuffer.length_getData]),
          SimpleBuffer.length_getData]
      obtain ⟨-, ⟨hflow, hdata⟩ | ⟨⟨clear, hflow⟩, hdata⟩⟩ :=
        dispatchFrame_content hwf hsize hop key
      · refine .inl ⟨hflow, ?_⟩
        rw [← SimpleBuffer.length_getData, hdata, List.length_drop, hlen]
        omega
      · refine .inr (.inl ⟨_, clear, hflow, hpos, ?_⟩)
        rw [← SimpleBuffer.length_getData, hdata, hlen]
        omega

/-- An iteration leaves the loop if the frame at the front is not complete, and changes nothing. -/
theorem dispatchIteration_of_not_headComplete (h : ¬w.HeadComplete) (key : MaskingKey) :
    (w.dispatchIteration key).1 = w ∧ (w.dispatchIteration key).2.1 = .stop := by
  obtain ⟨reads, -, ⟨es, hes, heq, -⟩ | ⟨ws, rfl, hsize, hframe, -⟩⟩ :=
    dispatchIteration_cases w key
  · rw [heq]
    exact ⟨rfl, rfl⟩
  · exact absurd ⟨hsize, hframe⟩ h

theorem close_mReadyState_ne (w : WebSocketImpl) : w.close.1.mReadyState ≠ .opened := by
  unfold close
  split_ifs with h
  · rcases h with h | h <;> simp [h]
  · simp [addTransmit]

end WebSocketImpl

namespace Session

variable {s t : Session} {i : Input} {es es' : List Event}

/-! ### The rest of the poll -/

/-- The functions above `rest` have not returned. -/
def Within (rest : List Activation) (s : Session) (_ : Input) (_ : List Event) : Prop :=
  rest.length < s.stack.length

/-- The functions above `rest` have not returned, and the callback calls only functions that return
without waiting. -/
def WithinLoop (rest : List Activation) (s : Session) (i : Input) (es : List Event) : Prop :=
  Within rest s i es ∧ LoopOnly s i es

/-- After one of its steps, a run has fewer bytes in the receive buffer than before it. -/
def Removes (s : Session) (tr : List (Input × List Event)) : Prop :=
  ∃ tr' p u v, tr' ++ [p] <+: tr ∧ sessionMachine.Run Machine.anyStep s tr' u ∧
    u.step p.1 = some (v, p.2) ∧ v.impl.mReceiveBuffer.getSize < u.impl.mReceiveBuffer.getSize

/-- A `poll` above `rest` removes bytes from the receive buffer or takes the connection out of
`OPEN`, whatever the socket, the callback and the application do; and if the callback returns and
does not poll, so does the `poll`: it takes a bounded number of results, and can go on until it has
returned. -/
structure Drains (rest : List Activation) (s : Session) : Prop where
  returns : ∃ n, ∀ tr t, sessionMachine.Run (WithinLoop rest) s tr t →
    tr.countP (·.1.isResult) ≤ n ∧
      (t.stack ≠ rest → ∃ i, i.isResult = true ∧ (t.step i).isSome = true)
  drains : ∀ tr t, sessionMachine.Run (Within rest) s tr t → t.stack = rest →
    Removes s tr ∨ t.impl.mReadyState ≠ .opened

variable {w : WebSocketImpl} {rest above : List Activation} {tr : List (Input × List Event)}
  {p : Input × List Event}

theorem Removes.snoc (h : Removes s tr) (p : Input × List Event) : Removes s (tr ++ [p]) := by
  obtain ⟨tr', q, u, v, hpre, hrest⟩ := h
  exact ⟨tr', q, u, v, hpre.trans (List.prefix_append _ _), hrest⟩

theorem removes_of_step {G : Session → Input → List Event → Prop} (h : sessionMachine.Run G s tr t)
    {u : Session} (hstep : sessionMachine.step t p.1 = some (u, p.2))
    (hless : u.impl.mReceiveBuffer.getSize < t.impl.mReceiveBuffer.getSize) :
    Removes s (tr ++ [p]) :=
  ⟨tr, p, t, u, List.prefix_refl _, h.mono fun _ _ _ _ => trivial, hstep, hless⟩

theorem not_removes_nil : ¬Removes s [] := by
  rintro ⟨tr', p, -, -, hpre, -⟩
  simpa using hpre.length_le

/-- A step after which there are as many bytes as before removes none. -/
theorem not_removes_snoc {G : Session → Input → List Event → Prop} (hno : ¬Removes s tr)
    (h : sessionMachine.Run G s tr t) {u : Session}
    (hstep : sessionMachine.step t i = some (u, es))
    (hle : t.impl.mReceiveBuffer.getSize ≤ u.impl.mReceiveBuffer.getSize) :
    ¬Removes s (tr ++ [(i, es)]) := by
  rintro ⟨tr', q, t', u', hpre, hrun, hstep', hless⟩
  rcases List.prefix_concat_iff.mp hpre with heq | hpre
  · obtain ⟨rfl, rfl⟩ := List.append_singleton_inj.mp heq
    obtain rfl := h.unique hrun
    obtain ⟨rfl, -⟩ := Prod.mk.inj (Option.some.inj (hstep.symm.trans hstep'))
    omega
  · exact hno ⟨tr', q, t', u', hpre, hrun, hstep', hless⟩

/-! ### What runs above other functions -/

/-- A run above `rest` is one without the functions below. -/
theorem run_above (h : sessionMachine.Run (WithinLoop rest) ⟨w, above ++ rest⟩ tr t) :
    ∃ above', t.stack = above' ++ rest ∧
      sessionMachine.Run LoopOnly ⟨w, above⟩ tr ⟨t.impl, above'⟩ := by
  induction h with
  | nil => exact ⟨above, rfl, .nil⟩
  | @snoc tr t i es u h hstep hguard ih =>
    obtain ⟨above', hstack, hrun⟩ := ih
    have hne : above' ≠ [] := by
      rintro rfl
      have hwithin := hguard.1
      simp [Within, hstack] at hwithin
    have ht : t = ⟨t.impl, above' ++ rest⟩ := by rw [← hstack]
    rw [ht, sessionMachine_step, step_append _ rest i hne] at hstep
    obtain ⟨r, hr, heq⟩ := Option.map_eq_some_iff.mp hstep
    obtain ⟨rfl, rfl⟩ := Prod.mk.inj heq
    exact ⟨_, rfl, hrun.snoc hr hguard.2⟩

/-- A run that has not returned is one above any functions. -/
theorem run_below (rest : List Activation) (h : sessionMachine.Run LoopOnly ⟨w, above⟩ tr t)
    (hne : t.stack ≠ []) :
    sessionMachine.Run (WithinLoop rest) ⟨w, above ++ rest⟩ tr ⟨t.impl, t.stack ++ rest⟩ := by
  induction h with
  | nil => exact .nil
  | @snoc tr t i es u h hstep hguard ih =>
    have hnil : t.stack ≠ [] := by
      intro hnil
      cases step_cases hstep with
      | call => exact hne hnil
      | poll => exact hguard
      | destroy => exact hguard
      | _ => simp_all
    refine (ih hnil).snoc (u := ⟨u.impl, u.stack ++ rest⟩) ?_ ⟨?_, hguard⟩
    · rw [sessionMachine_step, step_append _ rest i hnil]
      exact Option.map_eq_some_iff.mpr ⟨_, hstep, rfl⟩
    · have := List.length_pos_of_ne_nil hnil
      simp only [Within, List.length_append]
      omega

/-! ### The loops of a full buffer -/

theorem leaveTransmit_of_opened (hopen : w.mReadyState = .opened) :
    w.leaveTransmit true = (w, [.dispatching], []) := by
  rw [WebSocketImpl.leaveTransmit, if_neg (by simp [hopen]), if_neg (by simp [hopen])]
  rfl

theorem transmitIteration_of_opened (hopen : w.mReadyState = .opened) (r : SendResult) :
    ((w.transmitIteration true r).2.1 = [.transmitting true] ∨
        (w.transmitIteration true r).2.1 = [.dispatching]) ∧
        (w.transmitIteration true r).1.mReadyState = .opened ∨
      (w.transmitIteration true r).2.1 = [] ∧
        (w.transmitIteration true r).1.mReadyState = .closed := by
  unfold WebSocketImpl.transmitIteration
  rw [leaveTransmit_of_opened hopen]
  split_ifs
  · exact .inl ⟨.inr rfl, hopen⟩
  · cases r with
    | accepted n => exact .inl ⟨.inl rfl, hopen⟩
    | wouldBlock => exact .inl ⟨.inr rfl, hopen⟩
    | zero => exact .inr ⟨rfl, rfl⟩
    | error => exact .inr ⟨rfl, rfl⟩

/-- The receive loop is left when the buffer is full. -/
theorem receiveIteration_of_full (hwf : w.mReceiveBuffer.WF) (hopen : w.mReadyState = .opened)
    (hfull : (w.mReceiveBuffer.confirmCapacity maxReadSize).2 = false) (r : RecvResult) :
    w.receiveIteration true r = (w, [.transmitting true], [.refused .receive maxReadSize]) := by
  have hsame := (SimpleBuffer.confirmCapacity_spec hwf (n := maxReadSize) (by decide)).2.2.2.2 hfull
  have hset : w.setReceive w.mReceiveBuffer = w := rfl
  simp only [WebSocketImpl.receiveIteration, hfull, hsame, hset, Bool.false_eq_true, if_false,
    WebSocketImpl.leaveReceive, hopen, reduceCtorEq]

/-- How far the rest of a `poll` is after `k` results, with room for `K` of them: one for the
receive loop, one for the end of the transmit loop and at most one for each of its bytes, and those
of the frame loop. -/
inductive PollBound (K k : ℕ) : Session → Prop
  | receiving {w : WebSocketImpl} (hwf : w.mReceiveBuffer.WF) (hopen : w.mReadyState = .opened)
    (hfull : (w.mReceiveBuffer.confirmCapacity maxReadSize).2 = false)
    (hmeets : ¬MeetsEmptyFrame w.mReceiveBuffer.getData)
    (hk : k + 2 * w.mReceiveBuffer.getSize + w.mTransmitBuffer.getSize + 3 ≤ K) :
    PollBound K k ⟨w, [.receiving true]⟩
  | transmitting {w : WebSocketImpl} (hwf : w.mReceiveBuffer.WF)
    (hmeets : ¬MeetsEmptyFrame w.mReceiveBuffer.getData)
    (hk : k + 2 * w.mReceiveBuffer.getSize + w.mTransmitBuffer.getSize + 2 ≤ K) :
    PollBound K k ⟨w, [.transmitting true]⟩
  | looping {s : Session} (h : LoopBound K k s) : PollBound K k s

theorem PollBound.le {K k : ℕ} (h : PollBound K k s) : k ≤ K := by
  cases h with
  | looping h => exact h.le
  | receiving | transmitting => omega

theorem PollBound.step {K k : ℕ} (hs : PollBound K k s) (h : s.step i = some (t, es))
    (hguard : LoopOnly s i es) : PollBound K (k + if i.isResult then 1 else 0) t := by
  cases hs with
  | @receiving w hwf hopen hfull hmeets hk =>
    cases step_cases h with
    | @receive callback rest' r hs' hr =>
      obtain ⟨rfl, rfl⟩ : callback = true ∧ rest' = [] := by simpa [eq_comm] using hs'
      rw [receiveIteration_of_full hwf hopen hfull]
      exact .transmitting hwf hmeets (by simp only [Input.isResult, if_true]; omega)
    | _ => simp_all [callable]
  | @transmitting w hwf hmeets hk =>
    cases step_cases h with
    | @transmit callback rest' r hs' hr =>
      obtain ⟨rfl, rfl⟩ : callback = true ∧ rest' = [] := by simpa [eq_comm] using hs'
      have hkeep := (WebSocketImpl.transmitIteration_keepsReceived w true r).receiveBuffer
      simp only [Input.isResult, if_true, List.append_nil]
      obtain ⟨hnext, hless⟩ | hnext | hnext := w.transmitIteration_progress true hr <;> rw [hnext]
      · exact .transmitting (hkeep.symm ▸ hwf) (by rwa [hkeep]) (by rw [hkeep]; omega)
      · exact .looping (.done (by omega))
      · refine .looping (.dispatching (hkeep.symm ▸ hwf) (by rwa [hkeep]) ?_)
        rw [hkeep, SimpleBuffer.length_getData]
        omega
    | _ => simp_all [callable]
  | looping hloop => exact .looping (hloop.step h hguard)

/-- It can go on. -/
theorem PollBound.exists_result {K k : ℕ} (hs : PollBound K k ⟨w, above⟩) (hne : above ≠ [])
    (rest : List Activation) :
    ∃ i, i.isResult = true ∧ (Session.step ⟨w, above ++ rest⟩ i).isSome = true := by
  cases hs with
  | receiving => exact ⟨.receive .wouldBlock, rfl, rfl⟩
  | transmitting => exact ⟨.send .wouldBlock, rfl, rfl⟩
  | looping h =>
    cases h with
    | dispatching => exact ⟨.dispatch 0, rfl, rfl⟩
    | delivering => exact ⟨.ret, rfl, rfl⟩
    | done => exact absurd rfl hne

/-- What is left of the `poll` whose receive loop finds the buffer full returns. -/
theorem returns_of_full (hwf : w.mReceiveBuffer.WF) (hopen : w.mReadyState = .opened)
    (hfull : (w.mReceiveBuffer.confirmCapacity maxReadSize).2 = false)
    (hmeets : ¬MeetsEmptyFrame w.mReceiveBuffer.getData)
    (h : sessionMachine.Run (WithinLoop rest) ⟨w, .receiving true :: rest⟩ tr t) :
    tr.countP (·.1.isResult) ≤ 2 * w.mReceiveBuffer.getSize + w.mTransmitBuffer.getSize + 3 ∧
      (t.stack ≠ rest → ∃ i, i.isResult = true ∧ (t.step i).isSome = true) := by
  have h : sessionMachine.Run (WithinLoop rest) ⟨w, [.receiving true] ++ rest⟩ tr t := h
  obtain ⟨above, hstack, hrun⟩ := run_above h
  have hbound : PollBound (2 * w.mReceiveBuffer.getSize + w.mTransmitBuffer.getSize + 3)
      (tr.countP (·.1.isResult)) ⟨t.impl, above⟩ := by
    refine hrun.invariant (P := fun tr t =>
      PollBound (2 * w.mReceiveBuffer.getSize + w.mTransmitBuffer.getSize + 3)
        (tr.countP (·.1.isResult)) t) (.receiving hwf hopen hfull hmeets (by simp))
      fun tr t i es u _ ih hstep hguard => ?_
    rw [List.countP_append, List.countP_singleton]
    exact ih.step hstep hguard
  refine ⟨hbound.le, fun hne => ?_⟩
  have ht : t = ⟨t.impl, above ++ rest⟩ := by rw [← hstack]
  rw [ht]
  exact hbound.exists_result (fun hnil => hne (by rw [hstack, hnil, List.nil_append])) rest

/-! ### What becomes of the frame at the front -/

/-- How far a `poll` of the connection `w` has got since its receive loop found the buffer full:
it is still sending, it is about to look at the frame at the front, it is delivering it, or it is
done with it. -/
inductive Draining (w : WebSocketImpl) (rest : List Activation) (s₀ : Session)
    (tr : List (Input × List Event)) (s : Session) : Prop
  | sending (hstack : s.stack = .receiving true :: rest ∨ s.stack = .transmitting true :: rest)
    (hsame : s.impl.mReceiveBuffer = w.mReceiveBuffer) (hopen : s.impl.mReadyState = .opened)
  | looking (hstack : s.stack = .dispatching :: rest)
    (hsame : s.impl.mReceiveBuffer = w.mReceiveBuffer) (hopen : s.impl.mReadyState = .opened)
  | delivering {above : List Activation} {n : ℕ} {clear : Bool}
    (hstack : s.stack = above ++ .delivering n clear :: rest) (hwf : s.impl.mReceiveBuffer.WF)
    (hn : 0 < n) (hsize : 0 < s.impl.mReceiveBuffer.getSize)
  | removed (h : Removes s₀ tr)
  | left (hstack : s.stack = rest) (hclosed : s.impl.mReadyState ≠ .opened)

theorem Draining.step {s₀ : Session} (hwf : w.mReceiveBuffer.WF)
    (hfull : (w.mReceiveBuffer.confirmCapacity maxReadSize).2 = false) (hhead : w.HeadComplete)
    (hmeets : ¬MeetsEmptyFrame w.mReceiveBuffer.getData) (hs : Draining w rest s₀ tr s)
    (hrun : sessionMachine.Run (Within rest) s₀ tr s) (h : s.step i = some (t, es))
    (hwithin : Within rest s i es) : Draining w rest s₀ (tr ++ [(i, es)]) t := by
  cases hs with
  | sending hstack hsame hopen =>
    cases step_cases h with
    | @receive callback rest' r hs' hr =>
      obtain ⟨rfl, rfl⟩ : callback = true ∧ rest' = rest := by
        rcases hstack with hstack | hstack <;> simp_all
      rw [receiveIteration_of_full (hsame ▸ hwf) hopen (hsame ▸ hfull)]
      exact .sending (.inr rfl) hsame hopen
    | @transmit callback rest' r hs' hr =>
      obtain ⟨rfl, rfl⟩ : callback = true ∧ rest' = rest := by
        rcases hstack with hstack | hstack <;> simp_all
      have hkeep := (WebSocketImpl.transmitIteration_keepsReceived s.impl true r).receiveBuffer
      obtain ⟨hnext | hnext, hopen'⟩ | ⟨hnext, hclosed⟩ := transmitIteration_of_opened hopen r
      · exact .sending (.inr (by rw [hnext]; rfl)) (hkeep.trans hsame) hopen'
      · exact .looking (by rw [hnext]; rfl) (hkeep.trans hsame) hopen'
      · exact .left (by rw [hnext]; rfl) (by simp [hclosed])
    | _ => rcases hstack with hstack | hstack <;> simp_all [callable]
  | looking hstack hsame hopen =>
    have hwf' := step_receive_wf (hsame ▸ hwf) h
    cases step_cases h with
    | @dispatch rest' key hs' =>
      obtain rfl : rest' = rest := by simp_all
      have hhead' : s.impl.HeadComplete := by
        unfold WebSocketImpl.HeadComplete at hhead ⊢
        rwa [hsame]
      obtain ⟨-, hless⟩ | ⟨n, clear, hflow, hn, hsize⟩ | ⟨hflow, hclose⟩ :=
        WebSocketImpl.dispatchIteration_of_headComplete (hsame ▸ hwf) hhead' (hsame ▸ hmeets) key
      · exact .removed (removes_of_step (p := (.dispatch key, _)) hrun h hless)
      · have hstack' : (s.impl.dispatchIteration key).2.1.next ++ rest' =
            [] ++ .delivering n clear :: rest' := by rw [hflow]; rfl
        exact .delivering hstack' hwf' hn hsize
      · refine .left (by rw [hflow]; rfl) ?_
        rw [hclose]
        exact WebSocketImpl.close_mReadyState_ne _
    | _ => simp_all [callable]
  | @delivering above n clear hstack hwf hn hsize =>
    by_cases hless : t.impl.mReceiveBuffer.getSize < s.impl.mReceiveBuffer.getSize
    · exact .removed (removes_of_step (p := (i, es)) hrun h hless)
    have hwf' := step_receive_wf hwf h
    have hsize' : 0 < t.impl.mReceiveBuffer.getSize := by omega
    -- whatever runs above `receiveMessage`, the stack below stays until it returns
    have habove {a : Activation} {rest' : List Activation} (next : List Activation)
        (hs' : s.stack = a :: rest') (ha : a.delivery = none) :
        ∃ above', next ++ rest' = above' ++ .delivering n clear :: rest := by
      cases above with
      | nil =>
        rw [hstack] at hs'
        obtain ⟨rfl, -⟩ := List.cons.inj hs'
        cases ha
      | cons b above =>
        rw [hstack] at hs'
        obtain ⟨rfl, rfl⟩ := List.cons.inj hs'
        exact ⟨next ++ above, (List.append_assoc _ _ _).symm⟩
    cases step_cases h with
    | call => exact .delivering hstack hwf' hn hsize'
    | poll => exact .delivering (by rw [hstack, ← List.append_assoc]) hwf' hn hsize'
    | destroy hnil => simp [hstack] at hnil
    | connect _ _ hs' => exact .delivering (habove [] hs' rfl).choose_spec hwf' hn hsize'
    | receive hs' => exact .delivering (habove _ hs' rfl).choose_spec hwf' hn hsize'
    | transmit hs' => exact .delivering (habove _ hs' rfl).choose_spec hwf' hn hsize'
    | dispatch _ hs' => exact .delivering (habove _ hs' rfl).choose_spec hwf' hn hsize'
    | destroyLoop _ hs' => exact .delivering (habove _ hs' rfl).choose_spec hwf' hn hsize'
    | @ret n' clear' rest' hs' =>
      cases above with
      | nil =>
        -- the frame itself is consumed
        obtain ⟨rfl, rfl⟩ : n' = n ∧ clear' = clear := by
          simpa using (List.cons.inj (hs'.symm.trans hstack)).1
        refine absurd ?_ hless
        have hbuf : (s.impl.finishDelivery n' clear').1.mReceiveBuffer =
            s.impl.mReceiveBuffer.consume n' := by cases clear' <;> rfl
        obtain ⟨-, -, hdrop⟩ := SimpleBuffer.consume_spec hwf n'
        rw [hbuf, ← SimpleBuffer.length_getData, hdrop, List.length_drop,
          SimpleBuffer.length_getData]
        omega
      | cons b above =>
        obtain ⟨-, rfl⟩ := List.cons.inj (hs'.symm.trans hstack)
        exact .delivering (List.cons_append ..).symm hwf' hn hsize'
  | removed hmem => exact .removed (hmem.snoc _)
  | left hstack => exact absurd hwithin (by simp [Within, hstack])

/-- The receive loop is left when the socket would block. -/
theorem step_receive_wouldBlock (rest : List Activation) (hwf : w.mReceiveBuffer.WF)
    (hopen : w.mReadyState = .opened) :
    ∃ b es, sessionMachine.step ⟨w, .receiving true :: rest⟩ (.receive .wouldBlock) =
        some (⟨w.setReceive b, .transmitting true :: rest⟩, es) ∧
      b.WF ∧ b.getData = w.mReceiveBuffer.getData ∧ es.flatMap Event.receivedBytes = [] ∧
        es.flatMap Event.outputs = [] := by
  obtain ⟨hwf', hdata, -⟩ := SimpleBuffer.confirmCapacity_spec hwf (n := maxReadSize) (by decide)
  refine ⟨(w.mReceiveBuffer.confirmCapacity maxReadSize).1,
    if (w.mReceiveBuffer.confirmCapacity maxReadSize).2 then []
      else [.refused .receive maxReadSize], ?_, hwf', hdata, ?_⟩
  · cases hok : (w.mReceiveBuffer.confirmCapacity maxReadSize).2 <;>
      simp [step, WebSocketImpl.resume, RecvResult.Valid, WebSocketImpl.receiveIteration,
        WebSocketImpl.leaveReceive, hok, hopen]
  · split_ifs <;> exact ⟨rfl, rfl⟩

/-- The transmit loop is left when the socket would block. -/
theorem step_send_wouldBlock (rest : List Activation) (hopen : w.mReadyState = .opened) :
    ∃ es, sessionMachine.step ⟨w, .transmitting true :: rest⟩ (.send .wouldBlock) =
        some (⟨w, .dispatching :: rest⟩, es) ∧
      (es = [] ∨ es = [.transmit w.mTransmitBuffer.getData .wouldBlock]) := by
  have hsend : ∃ es, w.transmitIteration true .wouldBlock = (w, [.dispatching], es) ∧
      (es = [] ∨ es = [.transmit w.mTransmitBuffer.getData .wouldBlock]) := by
    rw [WebSocketImpl.transmitIteration, leaveTransmit_of_opened hopen]
    split_ifs
    · exact ⟨[], rfl, .inl rfl⟩
    · exact ⟨_, rfl, .inr rfl⟩
  obtain ⟨es, hsend, hes⟩ := hsend
  exact ⟨es, by simp [step, WebSocketImpl.resume, SendResult.Valid, hsend], hes⟩

/-- If the socket would block, the frame loop begins with what is in the full buffer. -/
theorem exists_dispatching (rest : List Activation) (hwf : w.mReceiveBuffer.WF)
    (hopen : w.mReadyState = .opened)
    (hfull : (w.mReceiveBuffer.confirmCapacity maxReadSize).2 = false) :
    ∃ tr, sessionMachine.Run (WithinLoop rest) ⟨w, .receiving true :: rest⟩ tr
        ⟨w, .dispatching :: rest⟩ ∧ ¬Removes ⟨w, .receiving true :: rest⟩ tr := by
  obtain ⟨es, hsend, -⟩ := step_send_wouldBlock rest hopen
  have hreceive : sessionMachine.step ⟨w, .receiving true :: rest⟩ (.receive .wouldBlock) =
      some (⟨w, .transmitting true :: rest⟩, [.refused .receive maxReadSize]) := by
    simp [step, WebSocketImpl.resume, RecvResult.Valid, receiveIteration_of_full hwf hopen hfull]
  have hrun := Machine.Run.single (G := WithinLoop rest) hreceive
    ⟨by simp [Within], trivial⟩
  have hno := not_removes_snoc not_removes_nil (Machine.Run.nil (G := WithinLoop rest)) hreceive
    le_rfl
  exact ⟨_, hrun.snoc hsend ⟨by simp [Within], trivial⟩, not_removes_snoc hno hrun hsend le_rfl⟩

/-- The socket would block, and the frame loop finds an incomplete frame. -/
theorem stalled_run (rest : List Activation) (hwf : w.mReceiveBuffer.WF)
    (hopen : w.mReadyState = .opened)
    (hfull : (w.mReceiveBuffer.confirmCapacity maxReadSize).2 = false) (hhead : ¬w.HeadComplete) :
    ∃ tr, sessionMachine.Run (Within rest) ⟨w, .receiving true :: rest⟩ tr ⟨w, rest⟩ ∧
      ¬Removes ⟨w, .receiving true :: rest⟩ tr := by
  obtain ⟨tr, hrun, hno⟩ := exists_dispatching rest hwf hopen hfull
  obtain ⟨hsame, hflow⟩ := WebSocketImpl.dispatchIteration_of_not_headComplete hhead 0
  have hstep : sessionMachine.step ⟨w, .dispatching :: rest⟩ (.dispatch 0) =
      some (⟨w, rest⟩, (w.dispatchIteration 0).2.2) := by
    simp [step, WebSocketImpl.resume, hsame, hflow, WebSocketImpl.Flow.next]
  exact ⟨_, (hrun.mono fun _ _ _ hguard => hguard.1).snoc hstep (by simp [Within]),
    not_removes_snoc hno hrun hstep le_rfl⟩

/-- The socket would block, and the frame loop gets to a frame of no bytes: it takes any number of
results. -/
theorem endless_run (rest : List Activation) (hwf : w.mReceiveBuffer.WF)
    (hopen : w.mReadyState = .opened)
    (hfull : (w.mReceiveBuffer.confirmCapacity maxReadSize).2 = false)
    (hmeets : MeetsEmptyFrame w.mReceiveBuffer.getData) (n : ℕ) :
    ∃ tr t, sessionMachine.Run (WithinLoop rest) ⟨w, .receiving true :: rest⟩ tr t ∧
      n ≤ tr.countP (·.1.isResult) := by
  obtain ⟨tr, hrun, -⟩ := exists_dispatching rest hwf hopen hfull
  obtain ⟨tr', w', hrun', hcount⟩ := exists_long_run n hwf hmeets
  refine ⟨_, _, hrun.trans (run_below rest hrun' (by simp)), ?_⟩
  rw [List.countP_append]
  have hmono : tr'.countP (·.1.isDispatch) ≤ tr'.countP (·.1.isResult) :=
    List.countP_mono_left fun p _ hp => by
      cases hi : p.1 <;> simp_all [Input.isDispatch, Input.isResult]
  omega

/-- When the receive loop of a `poll` with a callback finds the buffer full on an open connection,
that `poll` returns, and has removed bytes from the buffer or taken the connection out of `OPEN`,
whatever the socket, the callback and the application do, if and only if the frame at the front is
complete and the frame loop does not get to a frame of no bytes. -/
theorem full_buffer_drains {s₀ : Session} {tr₀ : List (Input × List Event)} (hs₀ : Constructed s₀)
    (h₀ : sessionMachine.Run Machine.anyStep s₀ tr₀ s) (hstack : s.stack = .receiving true :: rest)
    (hopen : s.impl.mReadyState = .opened)
    (hfull : (s.impl.mReceiveBuffer.confirmCapacity maxReadSize).2 = false) :
    Drains rest s ↔ s.impl.HeadComplete ∧ ¬MeetsEmptyFrame s.impl.mReceiveBuffer.getData := by
  have hwf := run_receive_wf hs₀ h₀
  obtain ⟨w, stack⟩ := s
  obtain rfl : stack = _ := hstack
  constructor
  · intro hdrains
    constructor
    · by_contra hhead
      obtain ⟨tr, hrun, hno⟩ := stalled_run rest hwf hopen hfull hhead
      exact (hdrains.drains tr _ hrun rfl).elim hno fun hclosed => hclosed hopen
    · intro hmeets
      obtain ⟨n, hn⟩ := hdrains.returns
      obtain ⟨tr, t, hrun, hcount⟩ := endless_run rest hwf hopen hfull hmeets (n + 1)
      have := (hn tr t hrun).1
      omega
  · rintro ⟨hhead, hmeets⟩
    refine ⟨⟨_, fun tr t hrun => returns_of_full hwf hopen hfull hmeets hrun⟩,
      fun tr t hrun ht => ?_⟩
    have hend : Draining w rest _ tr t :=
      hrun.invariant (P := fun tr t => Draining w rest _ tr t) (.sending (.inl rfl) rfl hopen)
        fun _ _ _ _ _ hrun ih hstep hguard => ih.step hwf hfull hhead hmeets hrun hstep hguard
    cases hend with
    | sending hstack => rcases hstack with hstack | hstack <;> simp [ht] at hstack
    | looking hstack => simp [ht] at hstack
    | delivering hstack =>
      have := congrArg List.length (ht.symm.trans hstack)
      simp at this
      omega
    | removed hmem => exact .inl hmem
    | left _ hclosed => exact .inr hclosed

end Session

/-! ### Filling the buffer -/

/-- A buffer from which nothing was consumed and which has only doubled in size. -/
structure Doubled (b : SimpleBuffer) : Prop where
  wf : b.WF
  startLoc : b.mStartLoc = 0
  maxGrowSize : b.mMaxGrowSize = 536870912
  maxLen : ∃ k ≤ 15, b.mMaxLen = 16384 * 2 ^ k

variable {b : SimpleBuffer}

theorem Doubled.getSize_eq (h : Doubled b) : b.getSize = b.mEndLoc := by
  rw [h.wf.getSize_eq, h.startLoc, Nat.sub_zero]

/-- There is room for another call of `receive`, after doubling the size if need be. -/
theorem Doubled.confirmCapacity (h : Doubled b) (hsize : b.getSize + maxReadSize ≤ 2 ^ 29) :
    Doubled (b.confirmCapacity maxReadSize).1 ∧ (b.confirmCapacity maxReadSize).2 = true := by
  have hgs := h.getSize_eq
  obtain ⟨k, hk, hmax⟩ := h.maxLen
  have hstart := h.startLoc
  have hgrow := h.maxGrowSize
  have hend := h.wf.end_le
  have hlow : 16384 ≤ b.mMaxLen := by
    rw [hmax]
    exact Nat.le_mul_of_pos_right _ (Nat.two_pow_pos k)
  have hread : maxReadSize = 4096 := rfl
  have hdouble : b.mMaxLen - b.mEndLoc < maxReadSize → k < 15 := by
    intro hfull
    refine lt_of_le_of_ne hk fun h15 => ?_
    subst h15
    omega
  have hgrown : b.extent.grown maxReadSize = b.mMaxLen * 2 :=
    if_neg (by simp only [SimpleBuffer.extent]; omega)
  have ha : b.Accepts maxReadSize := by
    by_cases hroom : maxReadSize ≤ b.mMaxLen - b.mEndLoc
    · exact .inl hroom
    · have hpow : 2 ^ k ≤ 2 ^ 14 :=
        Nat.pow_le_pow_right (by decide) (Nat.le_of_lt_succ (hdouble (by omega)))
      refine SimpleBuffer.accepts_extent.mp (.inr (.inr ?_))
      rw [hgrown]
      simp only [SimpleBuffer.extent]
      omega
  have hw := h.wf.noWrap (n := maxReadSize) (by decide)
  have hroom := (SimpleBuffer.room_ensure_iff h.wf (by decide) hw).mpr ha
  have hwf := (SimpleBuffer.ensure_spec h.wf (n := maxReadSize) (by decide)).1
  have hext : (b.ensure maxReadSize).extent = ⟨0, b.mEndLoc, b.mMaxLen, b.mMaxGrowSize⟩ ∨
      (b.ensure maxReadSize).extent = ⟨0, b.mEndLoc, b.mMaxLen * 2, b.mMaxGrowSize⟩ ∧ k < 15 := by
    rw [SimpleBuffer.extent_ensure h.wf ha, hgrown]
    split_ifs with h₁ h₂
    · exact .inl (by rw [SimpleBuffer.extent, hstart])
    · omega
    · exact .inr ⟨by rw [hstart, Nat.sub_zero], hdouble (by omega)⟩
  refine ⟨⟨hwf, ?_, ?_, ?_⟩, ?_⟩
  · rcases hext with hext | ⟨hext, -⟩ <;> exact congrArg SimpleBuffer.Extent.startLoc hext
  · rcases hext with hext | ⟨hext, -⟩ <;>
      exact (congrArg SimpleBuffer.Extent.maxGrowSize hext).trans hgrow
  · rcases hext with hext | ⟨hext, hlt⟩
    · exact ⟨k, hk, (congrArg SimpleBuffer.Extent.maxLen hext).trans hmax⟩
    · refine ⟨k + 1, hlt, (congrArg SimpleBuffer.Extent.maxLen hext).trans ?_⟩
      simp only [hmax, Nat.pow_succ, Nat.mul_assoc]
  · rw [SimpleBuffer.confirmCapacity, hwf.available_eq]
    exact decide_eq_true hroom

/-- One more byte is stored. -/
theorem Doubled.receiveInto (h : Doubled b) (c : UInt8) (hroom : 1 ≤ b.mMaxLen - b.mEndLoc) :
    Doubled ((b.writeAtEnd [c]).addBuffer none 1).1 := by
  obtain ⟨-, hwf, hgrow, -⟩ := SimpleBuffer.receiveInto_spec h.wf (d := [c]) hroom
  have hwf' : (b.writeAtEnd [c]).WF :=
    ⟨h.wf.start_le, h.wf.end_le, h.wf.max_le, h.wf.grow_le, h.wf.size_le⟩
  have hext := SimpleBuffer.extent_addBuffer hwf' (n := 1) (.inl hroom) none
  have hadd : (b.writeAtEnd [c]).extent.add 1 =
      ⟨b.mStartLoc, b.mEndLoc + 1, b.mMaxLen, b.mMaxGrowSize⟩ := if_pos hroom
  rw [hadd] at hext
  obtain ⟨k, hk, hmax⟩ := h.maxLen
  exact ⟨hwf, (congrArg SimpleBuffer.Extent.startLoc hext).trans h.startLoc,
    hgrow.trans h.maxGrowSize, k, hk, (congrArg SimpleBuffer.Extent.maxLen hext).trans hmax⟩

/-- The buffer is full when fewer than `maxReadSize` bytes are left below the limit. -/
theorem Doubled.full (h : Doubled b) (hsize : 2 ^ 29 < b.getSize + maxReadSize) :
    (b.confirmCapacity maxReadSize).2 = false := by
  have hw := h.wf.noWrap (n := maxReadSize) (by decide)
  have hwf := (SimpleBuffer.ensure_spec h.wf (n := maxReadSize) (by decide)).1
  have hno : ¬b.Accepts maxReadSize := fun ha => by
    have := h.wf.le_of_accepts ha
    have := h.maxGrowSize
    omega
  rw [SimpleBuffer.confirmCapacity, hwf.available_eq]
  exact decide_eq_false (mt (SimpleBuffer.room_ensure_iff h.wf (by decide) hw).mp hno)

namespace Session

variable {w : WebSocketImpl} {G : Session → Input → List Event → Prop}

/-- The trace of receiving bytes one by one. -/
def receiveTrace (d : Bytes) : List (Input × List Event) :=
  d.map fun c => (.receive (.data [c]), [.received [c]])

theorem receiveTrace_spec (d : Bytes) :
    (Machine.events (receiveTrace d)).flatMap Event.receivedBytes = d ∧
      (Machine.events (receiveTrace d)).flatMap Event.outputs = [] := by
  induction d with
  | nil => exact ⟨rfl, rfl⟩
  | cons c d ih =>
    simp only [receiveTrace, List.map_cons, Machine.events_cons, List.flatMap_append] at ih ⊢
    rw [ih.1, ih.2]
    exact ⟨rfl, rfl⟩

/-- One call of `receive` that stores a byte. -/
theorem step_receive_byte (hb : Doubled w.mReceiveBuffer)
    (hsize : w.mReceiveBuffer.getSize + maxReadSize ≤ 2 ^ 29) (callback : Bool)
    (rest : List Activation) (c : UInt8) :
    ∃ b, sessionMachine.step ⟨w, .receiving callback :: rest⟩ (.receive (.data [c])) =
        some (⟨w.setReceive b, .receiving callback :: rest⟩, [.received [c]]) ∧
      Doubled b ∧ b.getData = w.mReceiveBuffer.getData ++ [c] := by
  obtain ⟨hb', hok⟩ := hb.confirmCapacity hsize
  obtain ⟨-, hdata, -, hroom, -⟩ :=
    SimpleBuffer.confirmCapacity_spec hb.wf (n := maxReadSize) (by decide)
  have hroom' : 1 ≤ (w.mReceiveBuffer.confirmCapacity maxReadSize).1.mMaxLen -
      (w.mReceiveBuffer.confirmCapacity maxReadSize).1.mEndLoc :=
    le_trans (by decide) (hroom hok)
  obtain ⟨-, -, -, hdata'⟩ := SimpleBuffer.receiveInto_spec hb'.wf (d := [c]) hroom'
  refine ⟨_, ?_, hb'.receiveInto c hroom', hdata'.trans (by rw [hdata])⟩
  have hvalid : (RecvResult.data [c]).Valid maxReadSize := ⟨by simp, by simp [maxReadSize]⟩
  simp [step, WebSocketImpl.resume, hvalid, WebSocketImpl.receiveIteration, hok]

/-- A run that receives the given bytes. -/
theorem fill_run (hG : ∀ s d, G s (.receive (.data d)) [.received d]) (callback : Bool)
    (rest : List Activation) (d : Bytes) (hb : Doubled w.mReceiveBuffer)
    (hsize : w.mReceiveBuffer.getSize + d.length + maxReadSize ≤ 2 ^ 29 + 1) :
    ∃ b, sessionMachine.Run G ⟨w, .receiving callback :: rest⟩ (receiveTrace d)
        ⟨w.setReceive b, .receiving callback :: rest⟩ ∧
      Doubled b ∧ b.getData = w.mReceiveBuffer.getData ++ d := by
  induction d generalizing w with
  | nil => exact ⟨w.mReceiveBuffer, .nil, hb, (List.append_nil _).symm⟩
  | cons c d ih =>
    rw [List.length_cons] at hsize
    obtain ⟨b, hstep, hb', hdata⟩ := step_receive_byte hb (by omega) callback rest c
    have hlen : b.getSize = w.mReceiveBuffer.getSize + 1 := by
      rw [← SimpleBuffer.length_getData, hdata, List.length_append, SimpleBuffer.length_getData]
      rfl
    obtain ⟨b', hrun, hb'', hdata'⟩ := ih (w := w.setReceive b) hb'
      (by rw [WebSocketImpl.setReceive_mReceiveBuffer, hlen]; omega)
    refine ⟨b', (Machine.Run.single hstep (hG _ _)).trans hrun, hb'', ?_⟩
    rw [hdata', WebSocketImpl.setReceive_mReceiveBuffer, hdata, List.append_assoc]
    rfl

/-- The header at the front of the content. -/
theorem headerOf_of_getData {b : SimpleBuffer} {header d : Bytes} (h2 : 2 ≤ header.length)
    (hheader : (headerOf fun i => header.getD i 0).headerSize ≤ header.length)
    (hdata : b.getData = header ++ d) :
    headerOf b.byteAt = headerOf fun i => header.getD i 0 := by
  refine (headerOf_congr h2 (fun i hi => ?_) hheader).symm
  have hsize : i < b.getSize := by
    rw [← SimpleBuffer.length_getData, hdata, List.length_append]
    omega
  have hget := SimpleBuffer.getData_getElem? hsize
  rw [hdata, List.getElem?_append_left hi] at hget
  rw [List.getD_eq_getElem?_getD, hget]
  rfl

theorem openServer_eq : openServer = ⟨openServer.impl, []⟩ := by
  have hstack : openServer.stack = [] := by decide +kernel
  rw [← hstack]

/-- The handshake of `openServer` is a run for any guard that its steps meet. -/
theorem run_openServer_of {G : Session → Input → List Event → Prop}
    [∀ s i es, Decidable (G s i es)]
    (h : (sessionMachine.exec G (start (.ofSocket zeroPlatform true true))
      (handshakeInputs (ascii "GET / HTTP/1.1\r\n\r\n"))).isSome = true) :
    sessionMachine.Run G (start (.ofSocket zeroPlatform true true))
      (serverHandshake.get serverHandshake_isSome).2 openServer := by
  have hexec := Machine.exec_congr (Option.some_get h).symm
    (Option.some_get serverHandshake_isSome).symm
  exact Machine.run_exec ((Option.some_get h).symm.trans (congrArg some hexec))

theorem openServer_doubled : Doubled openServer.impl.mReceiveBuffer := by
  have hwf := run_receive_wf (.server zeroPlatform true true) run_openServer
  exact ⟨hwf, by decide +kernel, by decide +kernel, 0, by decide, by decide +kernel⟩

/-- A server that has received so much in one `poll` that its receive buffer is full. -/
theorem exists_full (d : Bytes) (hlen : d.length = 536866817) :
    ∃ tr b, sessionMachine.Run Machine.anyStep (start (.ofSocket zeroPlatform true true)) tr
        ⟨openServer.impl.setReceive b, [.receiving true]⟩ ∧ b.WF ∧ b.getData = d ∧
      (b.confirmCapacity maxReadSize).2 = false := by
  have hopen : openServer.impl.mReadyState = .opened := by decide +kernel
  have hsock : openServer.impl.mSocket = true := by decide +kernel
  have hempty : openServer.impl.mReceiveBuffer.getSize = 0 := by decide +kernel
  have hrun : sessionMachine.Run Machine.anyStep _ _ openServer :=
    run_openServer.mono fun _ _ _ _ => trivial
  rw [openServer_eq] at hrun
  have hpoll : sessionMachine.step ⟨openServer.impl, []⟩ (.poll true 0) =
      some (⟨openServer.impl, [.receiving true]⟩, []) := by
    simp [step, enter, callable, WebSocketImpl.poll, hsock, hopen]
  obtain ⟨b, hfill, hb, hdata⟩ := fill_run (G := Machine.anyStep) (fun _ _ => trivial) true [] d
    openServer_doubled (by rw [hempty, hlen]; decide)
  rw [SimpleBuffer.getSize_eq_zero_iff.mp hempty, List.nil_append] at hdata
  have hsize : b.getSize = 536866817 := by rw [← SimpleBuffer.length_getData, hdata, hlen]
  exact ⟨_, b, (hrun.snoc hpoll trivial).trans hfill, hb.wf, hdata,
    hb.full (by rw [hsize]; decide)⟩

/-- The frame loop behind a header that is there. -/
theorem loopHeader_append {header : Bytes} (d : Bytes) (h2 : 2 ≤ header.length)
    (hheader : (headerOf fun i => header.getD i 0).headerSize ≤ header.length) :
    loopHeader (header ++ d) =
      if (header ++ d).length < (headerOf fun i => header.getD i 0).frameSize ∨
          (headerOf fun i => header.getD i 0).opcode.isStop then none
      else some (headerOf fun i => header.getD i 0) := by
  have hhead : (headerOf fun i => header.getD i 0) = headerOf fun i => (header ++ d).getD i 0 :=
    headerOf_congr h2 (fun i hi => by
      rw [List.getD_eq_getElem?_getD, List.getD_eq_getElem?_getD, List.getElem?_append_left hi])
      hheader
  rw [loopHeader, readHeader_eq_some (by rw [← hhead, List.length_append]; omega), ← hhead]

/-- A `PING` at the front of a full buffer leaves it, and the `CLOSE` behind it ends the loop. -/
theorem full_buffer_drains_ping :
    ∃ s : Session, s.stack = [.receiving true] ∧
      (s.impl.mReceiveBuffer.confirmCapacity maxReadSize).2 = false ∧ Drains [] s := by
  obtain ⟨d, hlen⟩ : ∃ d : Bytes, d.length = 536866813 := ⟨_, List.length_replicate (a := 0)⟩
  obtain ⟨tr, b, hrun, -, hdata, hfull⟩ :=
    exists_full ([0x89, 0] ++ ([0x88, 0] ++ d)) (by simp [hlen])
  have hhead : headerOf b.byteAt = headerOf fun i => ([0x89, 0] : Bytes).getD i 0 :=
    headerOf_of_getData (by decide) (by decide) hdata
  have hsize : b.getSize = 536866817 := by
    rw [← SimpleBuffer.length_getData, hdata]
    simp [hlen]
  have hclose : loopHeader ([0x88, 0] ++ d) = none := by
    rw [loopHeader_append d (by decide) (by decide), if_pos (.inr (by decide))]
  have hping : loopHeader ([0x89, 0] ++ ([0x88, 0] ++ d)) =
      some (headerOf fun i => ([0x89, 0] : Bytes).getD i 0) := by
    rw [loopHeader_append _ (by decide) (by decide), if_neg]
    simp only [List.length_append, hlen]
    decide
  have hmeets : ¬MeetsEmptyFrame ([0x89, 0] ++ ([0x88, 0] ++ d)) := by
    intro h
    cases h with
    | here h hsize =>
      obtain rfl := Option.some.inj (hping.symm.trans h)
      revert hsize
      decide
    | later h ht =>
      rw [nextContent, hping] at h
      obtain rfl : [0x88, 0] ++ d = _ := Option.some.inj h
      exact not_meetsEmptyFrame_of_none hclose ht
  have hopen : openServer.impl.mReadyState = .opened := by decide +kernel
  refine ⟨⟨openServer.impl.setReceive b, [.receiving true]⟩, rfl, hfull,
    (full_buffer_drains (.server zeroPlatform true true) hrun rfl hopen hfull).mpr ⟨?_, ?_⟩⟩
  · rw [WebSocketImpl.HeadComplete, WebSocketImpl.setReceive_mReceiveBuffer, hhead, hsize]
    decide
  · rwa [WebSocketImpl.setReceive_mReceiveBuffer, hdata]

/-- The header of a frame of `2 ^ 29` bytes of payload. -/
def oversizedHeader : Bytes := [0x82, 0x7f, 0, 0, 0, 0, 0x20, 0, 0, 0]

/-- A frame of `2 ^ 29` bytes fills the buffer, and the `poll` that finds it full returns with the
connection still `OPEN` and all bytes still in the buffer. -/
theorem oversized_frame_stalls :
    ¬∀ (s₀ s t : Session) (rest : List Activation) (tr₀ tr : List (Input × List Event)),
      Constructed s₀ → sessionMachine.Run Machine.anyStep s₀ tr₀ s →
        s.stack = .receiving true :: rest → s.impl.mReadyState = .opened →
        (s.impl.mReceiveBuffer.confirmCapacity maxReadSize).2 = false →
        sessionMachine.Run (Within rest) s tr t → t.stack = rest →
          Removes s tr ∨ t.impl.mReadyState ≠ .opened := by
  intro h
  have hopen : openServer.impl.mReadyState = .opened := by decide +kernel
  obtain ⟨d, hlen⟩ : ∃ d : Bytes, d.length = 536866807 := ⟨_, List.length_replicate (a := 0)⟩
  obtain ⟨tr₀, b, hrun, hwf, hdata, hfull⟩ := exists_full (oversizedHeader ++ d)
    (by simp [hlen, oversizedHeader])
  have hheader : headerOf b.byteAt = headerOf fun i => oversizedHeader.getD i 0 :=
    headerOf_of_getData (by decide) (by decide) hdata
  have hsize : b.getSize = 536866817 := by
    rw [← SimpleBuffer.length_getData, hdata]
    simp [hlen, oversizedHeader]
  have hhead : ¬(openServer.impl.setReceive b).HeadComplete := by
    rw [WebSocketImpl.HeadComplete, WebSocketImpl.setReceive_mReceiveBuffer, hheader, hsize]
    decide
  obtain ⟨tr, hstall, hno⟩ :=
    stalled_run (w := openServer.impl.setReceive b) [] hwf hopen hfull hhead
  exact (h _ _ _ [] tr₀ tr (.server zeroPlatform true true) hrun rfl hopen hfull hstall rfl).elim
    hno fun hclosed => hclosed hopen

end Session

end WsClient
