import WsClient.BufferQueue

/-!
# Shrinking the buffer

`shrinkBuffer` allocates a smaller block, copies the content into it and resets the cursors to the
front, but `mBuffer` still points to the old block: the new one is lost, and what the buffer shows
afterwards is the front of the old one. That is the content only if the front has it already, for
instance if nothing was consumed since the content was last moved.

What later calls see is compared for a buffer with and without the call. Which of them bring bytes
into the buffer depends on the cursors alone, and the call changes these: from the smaller size the
buffer may refuse a request that it would have granted, and grant one that it would have refused.

## Main definitions

* `SimpleBuffer.shrinkBuffer`, `SimpleBuffer.front`.
* `StorageCall`, `SimpleBuffer.next`, `SimpleBuffer.seen`: calls, and what they see.
* `SimpleBuffer.Extent.next`, `SimpleBuffer.Extent.stored`: what calls do to the cursors, and how
  many bytes they bring.
* `SimpleBuffer.AtFront`: the front of the block has the content.
* `SimpleBuffer.Preserves`: what shrinking should do.

## Main results

* `SimpleBuffer.extent_next`, `SimpleBuffer.next_spec`: one call.
* `shrink_preserves`: when shrinking keeps the content for all that follows.
-/

namespace WsClient

namespace SimpleBuffer

/-- Shrink the buffer to the default size, or to the current size if that is greater. The second
component is the block that was allocated and filled, to which the buffer does not refer; the third
is the result. -/
def shrinkBuffer (b : SimpleBuffer) : SimpleBuffer × Block UInt8 × ℕ :=
  let currentSize := b.getSize
  let newSize := if currentSize > b.mDefaultSize then currentSize else b.mDefaultSize
  let (newBuffer, heap) := Block.malloc b.heap newSize
  let newBuffer :=
    if currentSize ≠ 0 then newBuffer.write 0 (b.mBuffer.read b.mStartLoc currentSize)
    else newBuffer
  ({ b with heap := heap, mStartLoc := 0, mEndLoc := currentSize, mMaxLen := newSize }, newBuffer,
    newSize)

/-- As many bytes as the buffer holds, from the front of its block. -/
def front (b : SimpleBuffer) : Bytes := b.mBuffer.read 0 b.getSize

end SimpleBuffer

/-- The calls on a buffer, shrinking included. -/
inductive StorageCall
  | buffer (c : BufferCall)
  | shrinkBuffer
  deriving DecidableEq

namespace SimpleBuffer

/-- One call on a buffer. -/
def storageCall (b : SimpleBuffer) : StorageCall → Option (SimpleBuffer × List BufferEvent)
  | .buffer c => b.call c
  | .shrinkBuffer => some (b.shrinkBuffer.1, [])

/-- The buffer after a call. -/
def next (b : SimpleBuffer) (c : StorageCall) : SimpleBuffer :=
  ((b.storageCall c).map Prod.fst).getD b

/-- What `getData` shows after each of the calls. -/
def seen : SimpleBuffer → List StorageCall → List Bytes
  | _, [] => []
  | b, c :: cs => (b.next c).getData :: seen (b.next c) cs

end SimpleBuffer

/-- The machine whose runs are the sequences of calls, shrinking included. -/
def storageMachine : Machine SimpleBuffer StorageCall BufferEvent := ⟨SimpleBuffer.storageCall⟩

namespace SimpleBuffer

/-! ### The cursors of a buffer -/

namespace Extent

variable (x : Extent)

/-- `getSize`. -/
def size : ℕ := sub32 x.endLoc x.startLoc

/-- The number of bytes behind the content. -/
def room : ℕ := sub32 x.maxLen x.endLoc

/-- `growBuffer`. -/
def grow (n : ℕ) : Extent :=
  if n < x.startLoc then { x with startLoc := 0, endLoc := x.size }
  else
    let doubled := mul32 x.maxLen 2
    let newMaxLen := if sub32 doubled x.endLoc < n then add32 doubled n else doubled
    if newMaxLen > x.maxGrowSize then x
    else { x with startLoc := 0, endLoc := x.size, maxLen := newMaxLen }

/-- `growBuffer`, if there is less room than the request asks for. -/
def reserve (n : ℕ) : Extent := if n > x.room then x.grow n else x

/-- The request is granted. -/
def Grants (n : ℕ) : Prop := n ≤ (x.reserve n).room

instance (n : ℕ) : Decidable (x.Grants n) := inferInstanceAs (Decidable (_ ≤ _))

/-- `addBuffer`. -/
def append (n : ℕ) : Extent :=
  if x.Grants n then { x.reserve n with endLoc := add32 (x.reserve n).endLoc n } else x.reserve n

/-- `consume`. -/
def consume (removeLen : ℕ) : Extent :=
  let start := add32 x.startLoc (if removeLen > x.size then x.size else removeLen)
  if start = x.endLoc then { x with startLoc := 0, endLoc := 0 } else { x with startLoc := start }

/-- The same content at the front of a block of the default size, or of its own size if that is
greater. -/
def packed (defaultLen : ℕ) : Extent := ⟨0, x.size, max defaultLen x.size, x.maxGrowSize⟩

/-- The cursors after a call on a buffer of the default size. -/
def next (defaultLen : ℕ) : StorageCall → Extent
  | .buffer (.addBuffer data) => x.append data.length
  | .buffer (.receive capacity data) =>
    if data.length ≤ capacity then
      if x.Grants capacity then (x.reserve capacity).append data.length else x.reserve capacity
    else x
  | .buffer (.consume removeLen) => x.consume removeLen
  | .buffer .clear => { x with startLoc := 0, endLoc := 0 }
  | .shrinkBuffer => x.packed defaultLen

/-- How many bytes a call brings. -/
def brings : StorageCall → ℕ
  | .buffer (.addBuffer data) => if x.Grants data.length then data.length else 0
  | .buffer (.receive capacity data) =>
    if data.length ≤ capacity ∧ x.Grants capacity then data.length else 0
  | .buffer (.consume _) | .buffer .clear | .shrinkBuffer => 0

/-- How many bytes each of the calls brings. -/
def stored (defaultLen : ℕ) : Extent → List StorageCall → List ℕ
  | _, [] => []
  | x, c :: cs => x.brings c :: stored defaultLen (x.next defaultLen c) cs

/-- Growing on demand does not wrap around. -/
def Safe (n : ℕ) : Prop :=
  n ≤ x.maxLen - x.endLoc ∨ n < x.startLoc ∨ x.maxLen * 2 < 4294967296 ∧
    (x.maxLen * 2 + n < 4294967296 ∨ 4294967296 ≤ x.maxLen + n)

instance (n : ℕ) : Decidable (x.Safe n) := inferInstanceAs (Decidable (_ ∨ _ ∨ _ ∧ (_ ∨ _)))

end Extent

end SimpleBuffer

/-- The requests are 32-bit numbers and growing for them does not wrap around. -/
def StorageCall.Safe (x : SimpleBuffer.Extent) : StorageCall → Prop
  | .buffer (.addBuffer data) => data.length < 2 ^ 32 ∧ x.Safe data.length
  | .buffer (.receive capacity _) => capacity < 2 ^ 32 ∧ x.Safe capacity
  | _ => True

instance (x : SimpleBuffer.Extent) : (c : StorageCall) → Decidable (c.Safe x)
  | .buffer (.addBuffer _) => inferInstanceAs (Decidable (_ ∧ _))
  | .buffer (.receive _ _) => inferInstanceAs (Decidable (_ ∧ _))
  | .buffer (.consume _) | .buffer .clear | .shrinkBuffer => inferInstanceAs (Decidable True)

namespace SimpleBuffer

namespace Extent

/-- A sequence of calls without a request that wraps around. -/
def SafeCalls (defaultLen : ℕ) : Extent → List StorageCall → Prop
  | _, [] => True
  | x, c :: cs => c.Safe x ∧ SafeCalls defaultLen (x.next defaultLen c) cs

instance decidableSafeCalls (defaultLen : ℕ) : (x : Extent) → (cs : List StorageCall) →
    Decidable (x.SafeCalls defaultLen cs)
  | _, [] => isTrue trivial
  | x, c :: cs =>
    @instDecidableAnd _ _ inferInstance (decidableSafeCalls defaultLen (x.next defaultLen c) cs)

/-- Each time that the buffer is shrunk in a sequence of calls, its content is at the front of the
block. -/
def ShrinksAtFront (defaultLen : ℕ) : Extent → List StorageCall → Prop
  | _, [] => True
  | x, c :: cs => (c = .shrinkBuffer → x.startLoc = 0 ∨ x.size = 0) ∧
    ShrinksAtFront defaultLen (x.next defaultLen c) cs

instance decidableShrinksAtFront (defaultLen : ℕ) : (x : Extent) → (cs : List StorageCall) →
    Decidable (x.ShrinksAtFront defaultLen cs)
  | _, [] => isTrue trivial
  | x, c :: cs =>
    @instDecidableAnd _ _ inferInstance
      (decidableShrinksAtFront defaultLen (x.next defaultLen c) cs)

end Extent

/-- The content after a call. -/
def contentAfter (b : SimpleBuffer) : StorageCall → Bytes
  | .buffer (.addBuffer data) =>
    b.getData ++ data.take (b.extent.brings (.buffer (.addBuffer data)))
  | .buffer (.receive capacity data) =>
    b.getData ++ data.take (b.extent.brings (.buffer (.receive capacity data)))
  | .buffer (.consume removeLen) => b.getData.drop removeLen
  | .buffer .clear => []
  | .shrinkBuffer => b.front

/-- The bytes at the front of the block are those of the content, as they are if the content is
there. -/
def AtFront (b : SimpleBuffer) : Prop :=
  ∀ i < b.getSize, b.mBuffer.cell i = b.mBuffer.cell (b.mStartLoc + i)

instance (b : SimpleBuffer) : Decidable b.AtFront := inferInstanceAs (Decidable (∀ i < _, _))

/-- Shrinking leaves the content as it is, sets the capacity to the larger of the default size and
the size of the content, and makes no difference to what the later calls see. -/
structure Preserves (defaultLen : ℕ) (b : SimpleBuffer) (cs : List StorageCall) : Prop where
  content : b.shrinkBuffer.1.getData = b.getData
  capacity : b.shrinkBuffer.1.getMaxBufferSize = max defaultLen b.getSize
  later : b.shrinkBuffer.1.seen cs = b.seen cs

variable {b b' : SimpleBuffer} {c : StorageCall} {cs : List StorageCall} {defaultLen n : ℕ}

/-! ### What a call does to the cursors -/

theorem extent_reserve (b : SimpleBuffer) (n : ℕ) : (b.ensure n).extent = b.extent.reserve n := by
  unfold ensure growBuffer Extent.reserve Extent.grow
  simp only
  split_ifs <;> first | rfl | contradiction

theorem grants_iff (b : SimpleBuffer) (n : ℕ) :
    b.extent.Grants n ↔ n ≤ sub32 (b.ensure n).mMaxLen (b.ensure n).mEndLoc := by
  rw [Extent.Grants, ← extent_reserve]
  rfl

theorem extent_append (b : SimpleBuffer) (data : Option Bytes) (n : ℕ) :
    (b.addBuffer data n).1.extent = b.extent.append n ∧
      (b.addBuffer data n).2 = decide (b.extent.Grants n) := by
  unfold addBuffer Extent.append
  by_cases h : b.extent.Grants n
  · rw [if_pos h, if_pos ((b.grants_iff n).mp h), ← extent_reserve, decide_eq_true h]
    exact ⟨rfl, rfl⟩
  · rw [if_neg h, if_neg (mt (b.grants_iff n).mpr h), ← extent_reserve, decide_eq_false h]
    exact ⟨rfl, rfl⟩

theorem extent_consume (b : SimpleBuffer) (n : ℕ) : (b.consume n).extent = b.extent.consume n := by
  unfold consume
  simp only
  rw [apply_ite extent]
  rfl

theorem confirmCapacity_grants (b : SimpleBuffer) (n : ℕ) :
    (b.confirmCapacity n).2 = decide (b.extent.Grants n) :=
  decide_eq_decide.mpr (b.grants_iff n).symm

theorem extent_shrinkBuffer (b : SimpleBuffer) :
    b.shrinkBuffer.1.extent = b.extent.packed b.mDefaultSize := by
  have hmax : (if b.getSize > b.mDefaultSize then b.getSize else b.mDefaultSize) =
      max b.mDefaultSize b.getSize := by
    rw [max_def]
    split_ifs <;> omega
  simp only [shrinkBuffer, hmax]
  rfl

/-- A call of `confirmCapacity` and what is stored after it. -/
theorem next_receive (b : SimpleBuffer) (capacity : ℕ) (data : Bytes) :
    b.next (.buffer (.receive capacity data)) =
      if data.length ≤ capacity then
        if b.extent.Grants capacity then
          (((b.confirmCapacity capacity).1.writeAtEnd data).addBuffer none data.length).1
        else (b.confirmCapacity capacity).1
      else b := by
  simp only [next, storageCall, call, confirmCapacity_grants, decide_eq_true_eq]
  split_ifs <;> rfl

/-- A call does to the cursors what it does to the buffer. -/
theorem extent_next (h : b.mDefaultSize = defaultLen) (c : StorageCall) :
    (b.next c).extent = b.extent.next defaultLen c := by
  cases c with
  | shrinkBuffer =>
    subst h
    exact extent_shrinkBuffer b
  | buffer c =>
    cases c with
    | addBuffer data => exact (extent_append b (some data) data.length).1
    | receive capacity data =>
      rw [next_receive, Extent.next]
      split_ifs
      · rw [(extent_append _ none data.length).1, ← extent_reserve b capacity]
        rfl
      · exact extent_reserve b capacity
      · rfl
    | consume removeLen => exact extent_consume b removeLen
    | clear => rfl

/-! ### One call -/

/-- The cursors are ordered, and the buffer has at least the size that it was created with. -/
structure AtLeastDefault (defaultLen : ℕ) (b : SimpleBuffer) : Prop where
  ordered : b.Ordered
  default_eq : b.mDefaultSize = defaultLen
  default_le : defaultLen ≤ b.mMaxLen

theorem mDefaultSize_ensure (b : SimpleBuffer) (n : ℕ) :
    (b.ensure n).mDefaultSize = b.mDefaultSize := by
  unfold ensure growBuffer
  simp only
  split_ifs <;> rfl

theorem mDefaultSize_addBuffer (b : SimpleBuffer) (data : Option Bytes) (n : ℕ) :
    (b.addBuffer data n).1.mDefaultSize = b.mDefaultSize := by
  unfold addBuffer
  simp only
  split_ifs <;> exact mDefaultSize_ensure b n

theorem mMaxLen_writeAtEnd (b : SimpleBuffer) {d : Bytes} (h : b.Ordered)
    (hroom : d.length ≤ b.mMaxLen - b.mEndLoc) :
    ((b.writeAtEnd d).addBuffer none d.length).1.mMaxLen = b.mMaxLen := by
  have hens : (b.writeAtEnd d).ensure d.length = b.writeAtEnd d := by
    have havailable : sub32 (b.writeAtEnd d).mMaxLen (b.writeAtEnd d).mEndLoc =
        b.mMaxLen - b.mEndLoc := h.available_eq
    rw [ensure, havailable, if_neg (by omega)]
  rw [mMaxLen_addBuffer, hens]
  rfl

theorem consume_sizes (b : SimpleBuffer) (n : ℕ) :
    (b.consume n).mMaxLen = b.mMaxLen ∧ (b.consume n).mDefaultSize = b.mDefaultSize := by
  unfold consume
  simp only
  split_ifs <;> exact ⟨rfl, rfl⟩

/-- Shrinking keeps the cursors in order, and shows the front of the old block. -/
theorem shrinkBuffer_spec (h : b.AtLeastDefault defaultLen) :
    b.shrinkBuffer.1.AtLeastDefault defaultLen ∧ b.shrinkBuffer.1.getData = b.front ∧
      b.shrinkBuffer.1.getMaxBufferSize = max defaultLen b.getSize ∧
      b.shrinkBuffer.2.2 = max defaultLen b.getSize := by
  obtain ⟨hord, rfl, hle⟩ := h
  have hsize := hord.getSize_eq
  obtain ⟨hse, hem, hmg, hg, hbs⟩ := hord
  have hmax : (if b.getSize > b.mDefaultSize then b.getSize else b.mDefaultSize) =
      max b.mDefaultSize b.getSize := by
    rw [max_def]
    split_ifs <;> omega
  have hnew : max b.mDefaultSize b.getSize ≤ b.mMaxLen := max_le hle (by omega)
  have hsub : sub32 b.getSize 0 = b.getSize := sub32_zero b.getSize_lt
  simp only [shrinkBuffer, hmax]
  refine ⟨⟨⟨Nat.zero_le _, le_max_right _ _, hnew.trans hmg, hg, hnew.trans hbs⟩, rfl,
    le_max_left _ _⟩, ?_, rfl, trivial⟩
  simp only [getData, getSize, front]
  rw [show sub32 (sub32 b.mEndLoc b.mStartLoc) 0 = sub32 b.mEndLoc b.mStartLoc from hsub]

/-- The content is in the block that is lost. -/
theorem read_shrinkBuffer (b : SimpleBuffer) :
    b.shrinkBuffer.2.1.read 0 b.getSize = b.getData := by
  simp only [shrinkBuffer, Block.read_move]
  rfl

/-- What a call does: the sizes stay in order, and the content is that of `contentAfter`. -/
theorem next_spec (h : b.AtLeastDefault defaultLen) (hsafe : c.Safe b.extent) :
    (b.next c).AtLeastDefault defaultLen ∧ (b.next c).getData = b.contentAfter c := by
  obtain ⟨hord, hdef, hle⟩ := id h
  cases c with
  | shrinkBuffer =>
    obtain ⟨hinv, hdata, -⟩ := shrinkBuffer_spec h
    exact ⟨hinv, hdata⟩
  | buffer c =>
    cases c with
    | addBuffer data =>
      obtain ⟨hord', -, hmax, -, hdata, -⟩ := addBuffer_of_safe hord hsafe.1 hsafe.2 rfl
      refine ⟨⟨hord', (mDefaultSize_addBuffer _ _ _).trans hdef, hle.trans hmax⟩, ?_⟩
      change (b.addBuffer (some data) data.length).1.getData = _
      rw [hdata, (extent_append b (some data) data.length).2, contentAfter, Extent.brings]
      by_cases hg : b.extent.Grants data.length <;> simp [hg]
    | receive capacity data =>
      obtain ⟨hord', hdata, -, hmax, -, hroom⟩ := confirmCapacity_of_safe hord hsafe.1 hsafe.2
      have hdef' : (b.confirmCapacity capacity).1.mDefaultSize = defaultLen :=
        (mDefaultSize_ensure b capacity).trans hdef
      rw [next_receive, contentAfter, Extent.brings]
      by_cases hlen : data.length ≤ capacity
      swap
      · rw [if_neg hlen, if_neg (by simp [hlen]), List.take_zero, List.append_nil]
        exact ⟨h, rfl⟩
      by_cases hg : b.extent.Grants capacity
      · have hfits := hlen.trans (hroom ((confirmCapacity_grants b capacity).trans
          (decide_eq_true hg)))
        obtain ⟨-, hord'', -, hdata''⟩ := receiveInto_of_ordered hord' hfits
        rw [if_pos hlen, if_pos hg, if_pos ⟨hlen, hg⟩, List.take_length]
        refine ⟨⟨hord'', (mDefaultSize_addBuffer _ _ _).trans hdef', ?_⟩, by rw [hdata'', hdata]⟩
        rw [mMaxLen_writeAtEnd _ hord' hfits]
        exact hle.trans hmax
      · rw [if_pos hlen, if_neg hg, if_neg (by simp [hg]), List.take_zero, List.append_nil]
        exact ⟨⟨hord', hdef', hle.trans hmax⟩, hdata⟩
    | consume removeLen =>
      obtain ⟨hord', -, hdata⟩ := consume_of_ordered hord removeLen
      obtain ⟨hmax, hdef'⟩ := consume_sizes b removeLen
      exact ⟨⟨hord', hdef'.trans hdef, hle.trans hmax.ge⟩, hdata⟩
    | clear => exact ⟨⟨hord.clear, hdef, hle⟩, getData_clear b⟩

/-! ### Two buffers with the same content -/

/-- A call brings all of its bytes or none. -/
theorem Extent.append_take_brings {x x' : Extent} {s data : Bytes}
    (hc : c = .buffer (.addBuffer data) ∨ ∃ capacity, c = .buffer (.receive capacity data)) :
    s ++ data.take (x.brings c) = s ++ data.take (x'.brings c) ↔ x.brings c = x'.brings c := by
  have hbrings (x : Extent) : x.brings c = 0 ∨ x.brings c = data.length := by
    rcases hc with rfl | ⟨capacity, rfl⟩ <;> simp only [brings] <;> split_ifs <;> simp
  have hle (x : Extent) : x.brings c ≤ data.length := by
    rcases hbrings x with h | h <;> omega
  rw [List.append_cancel_left_eq]
  refine ⟨fun heq => ?_, fun heq => by rw [heq]⟩
  have hlen := congrArg List.length heq
  rwa [List.length_take_of_le (hle x), List.length_take_of_le (hle x')] at hlen

/-- Two buffers with the same content have the same content after a call that brings the same to
both, and after no other. -/
theorem contentAfter_eq_iff (hdata : b.getData = b'.getData) (hc : c ≠ .shrinkBuffer) :
    b.contentAfter c = b'.contentAfter c ↔ b.extent.brings c = b'.extent.brings c := by
  cases c with
  | shrinkBuffer => exact absurd rfl hc
  | buffer c =>
    cases c with
    | addBuffer data =>
      simp only [contentAfter, hdata]
      exact Extent.append_take_brings (.inl rfl)
    | receive capacity data =>
      simp only [contentAfter, hdata]
      exact Extent.append_take_brings (.inr ⟨capacity, rfl⟩)
    | consume => simp only [contentAfter, hdata, Extent.brings]
    | clear => exact iff_of_true rfl rfl

theorem front_eq_iff : b.front = b.getData ↔ b.AtFront := by
  simp only [front, getData, AtFront, Block.read, List.map_inj_left, List.mem_range, Nat.zero_add]

/-- What a buffer shows at the front of its block, if its content is there. -/
theorem front_eq (h : b.extent.startLoc = 0 ∨ b.extent.size = 0) : b.front = b.getData := by
  obtain h | h : b.mStartLoc = 0 ∨ b.getSize = 0 := h
  · rw [front, getData, h]
  · rw [front, getData, h]
    rfl

theorem Extent.shrinksAtFront_of_notMem {x : Extent} (h : .shrinkBuffer ∉ cs) :
    x.ShrinksAtFront defaultLen cs := by
  induction cs generalizing x with
  | nil => trivial
  | cons c cs ih =>
    rw [List.mem_cons, not_or] at h
    exact ⟨fun heq => absurd heq.symm h.1, ih h.2⟩

/-- They see the same in a sequence of calls that brings the same to both, as long as they are not
shrunk with their content elsewhere. -/
theorem seen_eq (h : b.AtLeastDefault defaultLen) (h' : b'.AtLeastDefault defaultLen)
    (hdata : b.getData = b'.getData) (hsafe : b.extent.SafeCalls defaultLen cs)
    (hsafe' : b'.extent.SafeCalls defaultLen cs)
    (hstored : b'.extent.stored defaultLen cs = b.extent.stored defaultLen cs)
    (hfront : b.extent.ShrinksAtFront defaultLen cs)
    (hfront' : b'.extent.ShrinksAtFront defaultLen cs) : b'.seen cs = b.seen cs := by
  induction cs generalizing b b' with
  | nil => rfl
  | cons c cs ih =>
    obtain ⟨hnext, hcontent⟩ := next_spec h hsafe.1
    obtain ⟨hnext', hcontent'⟩ := next_spec h' hsafe'.1
    obtain ⟨hbrings, hlater⟩ := List.cons.inj hstored
    have hstep : (b'.next c).getData = (b.next c).getData := by
      rw [hcontent, hcontent']
      by_cases hc : c = .shrinkBuffer
      · subst hc
        exact (front_eq (hfront'.1 rfl)).trans (hdata.symm.trans (front_eq (hfront.1 rfl)).symm)
      · exact (contentAfter_eq_iff hdata.symm hc).mpr hbrings
    have hext := extent_next h.default_eq c
    have hext' := extent_next h'.default_eq c
    rw [seen, seen, hstep]
    refine congrArg _ (ih hnext hnext' hstep.symm ?_ ?_ ?_ ?_ ?_)
    · rw [hext]
      exact hsafe.2
    · rw [hext']
      exact hsafe'.2
    · rw [hext, hext']
      exact hlater
    · rw [hext]
      exact hfront.2
    · rw [hext']
      exact hfront'.2

/-- What they see tells what each call has brought. -/
theorem stored_eq_of_seen_eq (h : b.AtLeastDefault defaultLen) (h' : b'.AtLeastDefault defaultLen)
    (hdata : b.getData = b'.getData) (hsafe : b.extent.SafeCalls defaultLen cs)
    (hsafe' : b'.extent.SafeCalls defaultLen cs) (hno : .shrinkBuffer ∉ cs)
    (hseen : b'.seen cs = b.seen cs) :
    b'.extent.stored defaultLen cs = b.extent.stored defaultLen cs := by
  induction cs generalizing b b' with
  | nil => rfl
  | cons c cs ih =>
    obtain ⟨hnext, hcontent⟩ := next_spec h hsafe.1
    obtain ⟨hnext', hcontent'⟩ := next_spec h' hsafe'.1
    obtain ⟨hstep, hlater⟩ := List.cons.inj hseen
    rw [List.mem_cons, not_or] at hno
    have hbrings : b'.extent.brings c = b.extent.brings c :=
      (contentAfter_eq_iff hdata.symm (Ne.symm hno.1)).mp (by rw [← hcontent, ← hcontent', hstep])
    have hext := extent_next h.default_eq c
    have hext' := extent_next h'.default_eq c
    have hrest := ih hnext hnext' hstep.symm (by rw [hext]; exact hsafe.2)
      (by rw [hext']; exact hsafe'.2) hno.2 hlater
    rw [hext, hext'] at hrest
    rw [Extent.stored, Extent.stored, hbrings, hrest]

end SimpleBuffer

open SimpleBuffer

/-! ### Runs -/

variable {heap : ℕ → Block UInt8} {defaultLen maxGrowSize : ℕ} {b : SimpleBuffer}
  {tr : List (StorageCall × List BufferEvent)}

theorem create_atLeastDefault (heap : ℕ → Block UInt8) (hdefault : defaultLen < 2 ^ 32)
    (hmax : maxGrowSize < 2 ^ 32) :
    (create heap defaultLen maxGrowSize).AtLeastDefault defaultLen := by
  refine ⟨create_ordered heap hdefault hmax, ?_, ?_⟩ <;>
    (simp only [create, reset]; split <;> simp)

theorem run_atLeastDefault (hdefault : defaultLen < 2 ^ 32) (hmax : maxGrowSize < 2 ^ 32)
    (h : storageMachine.Run (fun b c _ => c.Safe b.extent) (create heap defaultLen maxGrowSize) tr
      b) : b.AtLeastDefault defaultLen := by
  refine h.invariant_state (create_atLeastDefault heap hdefault hmax) ?_
  intro b c es b' hb hstep hsafe
  have hnext : b.next c = b' := by
    change b.storageCall c = some (b', es) at hstep
    rw [next, hstep]
    rfl
  exact hnext ▸ (next_spec hb hsafe).1


/-- When shrinking keeps the content for all that follows, in every state that a sequence of calls
without a wrapped request leads to. The content must be at the front of the block, as it is if
nothing was consumed since it was last moved; and the later calls must bring the same from the
cursors of the smaller block as from the old ones. If the buffer is not shrunk again, this is exact.
Where it is, its content must be at the front of the block from both. -/
theorem shrink_preserves (hdefault : defaultLen < 2 ^ 32) (hmax : maxGrowSize < 2 ^ 32)
    (h : storageMachine.Run (fun b c _ => c.Safe b.extent) (create heap defaultLen maxGrowSize) tr
      b) {cs : List StorageCall} (hsafe : b.extent.SafeCalls defaultLen cs)
    (hsafe' : (b.extent.packed defaultLen).SafeCalls defaultLen cs) :
    (b.AtFront → (b.extent.packed defaultLen).stored defaultLen cs =
        b.extent.stored defaultLen cs → b.extent.ShrinksAtFront defaultLen cs →
          (b.extent.packed defaultLen).ShrinksAtFront defaultLen cs →
            b.Preserves defaultLen cs) ∧
      (.shrinkBuffer ∉ cs → (b.Preserves defaultLen cs ↔ b.AtFront ∧
        (b.extent.packed defaultLen).stored defaultLen cs = b.extent.stored defaultLen cs)) := by
  have hb := run_atLeastDefault hdefault hmax h
  obtain ⟨hb', hdata, hcapacity, -⟩ := shrinkBuffer_spec hb
  have hext : b.shrinkBuffer.1.extent = b.extent.packed defaultLen :=
    (extent_shrinkBuffer b).trans (by rw [hb.default_eq])
  rw [← hext] at hsafe' ⊢
  refine ⟨fun hfront hstored hshrinks hshrinks' => ?_, fun hno => ⟨fun hkeeps => ?_, ?_⟩⟩
  · have hcontent := hdata.trans (front_eq_iff.mpr hfront)
    exact ⟨hcontent, hcapacity,
      seen_eq hb hb' hcontent.symm hsafe hsafe' hstored hshrinks hshrinks'⟩
  · exact ⟨front_eq_iff.mp (hdata.symm.trans hkeeps.content),
      stored_eq_of_seen_eq hb hb' hkeeps.content.symm hsafe hsafe' hno hkeeps.later⟩
  · rintro ⟨hfront, hstored⟩
    have hcontent := hdata.trans (front_eq_iff.mpr hfront)
    exact ⟨hcontent, hcapacity, seen_eq hb hb' hcontent.symm hsafe hsafe' hstored
      (Extent.shrinksAtFront_of_notMem hno) (Extent.shrinksAtFront_of_notMem hno)⟩

/-- Nothing was consumed; later two bytes are added, and the buffer is shrunk again. -/
theorem shrink_preserves_small :
    ∃ tr b, storageMachine.Run (fun b c _ => c.Safe b.extent)
        (create (fun _ => ⟨0, 0, fun _ => 0⟩) 4 16) tr b ∧ b.getData = [1, 2, 3, 4, 5] ∧
      b.getMaxBufferSize = 8 ∧ b.Preserves 4 [.buffer (.addBuffer [6, 7]), .shrinkBuffer] := by
  obtain ⟨tr, b, hrun, hP⟩ := Machine.exists_run_of_exec (M := storageMachine)
    (G := fun b c _ => c.Safe b.extent) (s := create (fun _ => ⟨0, 0, fun _ => 0⟩) 4 16)
    (l := [.buffer (.addBuffer [1, 2, 3]), .buffer (.addBuffer [4, 5])])
    (P := fun r =>
      let cs := [.buffer (.addBuffer [6, 7]), .shrinkBuffer]
      let x := r.1.extent.packed 4
      decide (r.1.getData = [1, 2, 3, 4, 5] ∧ r.1.getMaxBufferSize = 8 ∧
        r.1.extent.SafeCalls 4 cs ∧ x.SafeCalls 4 cs ∧ r.1.AtFront ∧
        x.stored 4 cs = r.1.extent.stored 4 cs ∧ r.1.extent.ShrinksAtFront 4 cs ∧
        x.ShrinksAtFront 4 cs)) (by decide +kernel)
  obtain ⟨hdata, hcapacity, hsafe, hsafe', hfront, hstored, hshrinks, hshrinks'⟩ :=
    of_decide_eq_true hP
  exact ⟨tr, b, hrun, hdata, hcapacity,
    (shrink_preserves (by decide) (by decide) hrun hsafe hsafe').1 hfront hstored hshrinks
      hshrinks'⟩

/-- A buffer of four bytes that holds the second and the third shows the first and the second after
shrinking. -/
theorem shrink_loses_content :
    ¬∀ (heap : ℕ → Block UInt8) (defaultLen maxGrowSize : ℕ)
      (tr : List (StorageCall × List BufferEvent)) (b : SimpleBuffer) (cs : List StorageCall),
      defaultLen < 2 ^ 32 → maxGrowSize < 2 ^ 32 →
        storageMachine.Run (fun b c _ => c.Safe b.extent) (create heap defaultLen maxGrowSize) tr
          b → b.extent.SafeCalls defaultLen cs →
          (b.extent.packed defaultLen).SafeCalls defaultLen cs → b.Preserves defaultLen cs := by
  intro h
  obtain ⟨tr, b, hrun, hP⟩ := Machine.exists_run_of_exec (M := storageMachine)
    (G := fun b c _ => c.Safe b.extent) (s := create (fun _ => ⟨0, 0, fun _ => 0⟩) 4 8)
    (l := [.buffer (.addBuffer [1, 2, 3]), .buffer (.consume 1)])
    (P := fun r => decide (r.1.getData = [2, 3] ∧ r.1.shrinkBuffer.1.getData = [1, 2]))
    (by decide +kernel)
  obtain ⟨hdata, hshrunk⟩ := of_decide_eq_true hP
  have hsame := (h _ 4 8 tr b [] (by decide) (by decide) hrun trivial trivial).content
  rw [hdata, hshrunk] at hsame
  simp at hsame

end WsClient
