import WsClient.Handshake

/-!
# The grammar of the handshakes

A server takes the line `GET / HTTP/1.1`, any lines that are not empty and one empty line, and is
`OPEN` exactly behind the empty line. A client takes a status line and then counts five lines, so
it is `OPEN` behind the empty line of a response with exactly four header lines.

Every access to `mConnectionBuffer` has an index below 256, for all bytes.

## Main definitions

* `ShortLine`, `joinLines`: lines that fit the connection buffer.
* `RequestHead`, `BadRequest`: the streams that a server accepts and rejects.
* `ConnectionAccess`: the indices at which `processConnection` accesses `mConnectionBuffer`.
* `Session.WhileConnecting`: the guard of a run that ends when the handshake does.
* `StatusLine`, `Session.OpensAt`: the status line of a response, and where a client is to be
  `OPEN`.

## Main results

* `Session.server_grammar`: a server accepts exactly its grammar.
* `Session.client_counts_lines`: when a client is `OPEN` at the end of a response.
-/

namespace WsClient

/-! ### Lines that fit the connection buffer -/

/-- The bytes of a line before its LF: fewer than 255. -/
def ShortLine (l : Bytes) : Prop := 0x0A ∉ l ∧ l.length < 255

instance : DecidablePred ShortLine := fun _ => inferInstanceAs (Decidable (_ ∧ _))

/-- Lines, each with its LF. -/
def joinLines (ls : List Bytes) : Bytes := ls.flatMap (· ++ [0x0A])

@[simp] theorem joinLines_append (ls ls' : List Bytes) :
    joinLines (ls ++ ls') = joinLines ls ++ joinLines ls' := List.flatMap_append

@[simp] theorem joinLines_cons (l : Bytes) (ls : List Bytes) :
    joinLines (l :: ls) = l ++ [0x0A] ++ joinLines ls := rfl

@[simp] theorem joinLines_nil : joinLines [] = [] := rfl

theorem mem_joinLines {ls : List Bytes} {l : Bytes} {c : UInt8} (hl : l ∈ ls) (hc : c ∈ l) :
    c ∈ joinLines ls :=
  List.mem_flatMap.mpr ⟨l, hl, List.mem_append_left _ hc⟩

/-! ### The grammar of a server -/

/-- A first line that a server answers, and lines that are not empty. -/
def RequestLines (ls : List Bytes) : Prop :=
  ∃ first headers, ls = first :: headers ∧ ShortLine first ∧
    stripCR first = ascii "GET / HTTP/1.1" ∧ ∀ l ∈ headers, ShortLine l ∧ stripCR l ≠ []

/-- The request that a server accepts. -/
def RequestHead (bs : Bytes) : Prop :=
  ∃ ls last, RequestLines ls ∧ ShortLine last ∧ stripCR last = [] ∧ bs = joinLines (ls ++ [last])

/-- The requests that a server rejects: another first line, or a line of 255 bytes without LF. -/
def BadRequest (bs : Bytes) : Prop :=
  (∃ first, ShortLine first ∧ stripCR first ≠ ascii "GET / HTTP/1.1" ∧ bs = first ++ [0x0A]) ∨
    ∃ ls l, (ls = [] ∨ RequestLines ls) ∧ 0x0A ∉ l ∧ l.length = 255 ∧ bs = joinLines ls ++ l

/-- The lines that lead a server from its first phase to another. -/
theorem server_passes_iff {ls : List Bytes} {phase : ConnectionPhase} (hnul : 0 ∉ joinLines ls) :
    (handshakeReader true).Passes .httpStatus ls phase ↔
      ls = [] ∧ phase = .httpStatus ∨ RequestLines ls ∧ phase = .serverClientStrings := by
  have htext {l : Bytes} (hl : l ∈ ls) : lineText l = stripCR l :=
    lineText_eq fun h0 => hnul (mem_joinLines hl h0)
  constructor
  · intro h
    induction h with
    | nil => exact .inl ⟨rfl, rfl⟩
    | @snoc ls phase' l phase'' hpass hl hnext ih =>
      right
      have hl' := htext (l := l) (by simp)
      rcases ih (fun h => hnul (by simp [h])) (fun h => htext (List.mem_append_left _ h)) with
        ⟨rfl, rfl⟩ | ⟨⟨first, headers, rfl, hfirst, hget, hheaders⟩, rfl⟩
      · simp only [handshakeReader, hl', if_true] at hnext
        split_ifs at hnext with hget
        exact ⟨⟨l, [], rfl, hl, hget, by simp⟩, (Sum.inl.inj hnext).symm⟩
      · simp only [handshakeReader, hl'] at hnext
        split_ifs at hnext with hempty
        refine ⟨⟨first, headers ++ [l], rfl, hfirst, hget, fun l' hl'' => ?_⟩,
          (Sum.inl.inj hnext).symm⟩
        rcases List.mem_append.mp hl'' with hl'' | hl''
        · exact hheaders l' hl''
        · rw [List.mem_singleton.mp hl'']
          exact ⟨hl, hempty⟩
  · rintro (⟨rfl, rfl⟩ | ⟨⟨first, headers, rfl, hfirst, hget, hheaders⟩, rfl⟩)
    · exact .nil _
    · have hone : (handshakeReader true).Passes .httpStatus ([] ++ [first])
          .serverClientStrings := by
        refine .snoc (.nil _) hfirst ?_
        simp [handshakeReader, htext (l := first) (by simp), hget]
      induction headers using List.reverseRecOn with
      | nil => exact hone
      | append_singleton headers l ih =>
        have hl := hheaders l (by simp)
        have hrest := ih (fun h =>
          hnul (by simp only [joinLines_cons, joinLines_append] at h ⊢; grind))
          (fun {l'} h => htext (by simp only [List.mem_cons, List.mem_append] at h ⊢; grind))
          fun l' hl' => hheaders l' (List.mem_append_left _ hl')
        refine hrest.snoc hl.1 ?_
        simp [handshakeReader, htext (l := l) (by simp), hl.2]

theorem server_accepts_iff {bs : Bytes} (hnul : 0 ∉ bs) :
    (handshakeReader true).read (.reading .httpStatus []) bs = .accepted ↔ RequestHead bs := by
  rw [LineReader.read_eq_accepted_iff (by simp [handshakeReader])]
  constructor
  · rintro ⟨ls, phase, l, hpass, hl, hnext, rfl⟩
    have hls : 0 ∉ joinLines ls := fun h => hnul (List.mem_append_left _ h)
    have htext : lineText l = stripCR l := lineText_eq fun h => hnul (by simp [h])
    rcases (server_passes_iff hls).mp hpass with ⟨rfl, rfl⟩ | ⟨hreq, rfl⟩
    · simp only [handshakeReader, if_true] at hnext
      split_ifs at hnext
      cases hnext
    · simp only [handshakeReader, htext] at hnext
      split_ifs at hnext with hempty
      exact ⟨ls, l, hreq, hl, hempty, by simp [joinLines, LineReader.join, handshakeReader]⟩
  · rintro ⟨ls, last, hreq, hlast, hempty, rfl⟩
    have hls : 0 ∉ joinLines ls := fun h => hnul (by simp [h])
    have htext : lineText last = stripCR last := lineText_eq fun h => hnul (by simp [h])
    refine ⟨ls, _, last, (server_passes_iff hls).mpr (.inr ⟨hreq, rfl⟩), hlast, ?_, ?_⟩
    · simp [handshakeReader, htext, hempty]
    · simp [joinLines, LineReader.join, handshakeReader]

theorem server_rejects_iff {bs : Bytes} (hnul : 0 ∉ bs) :
    (handshakeReader true).read (.reading .httpStatus []) bs = .rejected ↔ BadRequest bs := by
  rw [LineReader.read_eq_rejected_iff (by simp [handshakeReader])]
  constructor
  · rintro ⟨ls, phase, l, hpass, hend⟩
    have hls : 0 ∉ joinLines ls := by
      rcases hend with ⟨-, -, rfl⟩ | ⟨-, -, rfl⟩ <;>
        exact fun h => hnul (List.mem_append_left _ h)
    have hwhole := (server_passes_iff hls).mp hpass
    rcases hend with ⟨hl, hnext, rfl⟩ | ⟨hlf, hlen, rfl⟩
    · have htext : lineText l = stripCR l := lineText_eq fun h => hnul (by simp [h])
      rcases hwhole with ⟨rfl, rfl⟩ | ⟨-, rfl⟩
      · simp only [handshakeReader, if_true, htext] at hnext
        split_ifs at hnext with hget
        exact .inl ⟨l, hl, hget, rfl⟩
      · simp only [handshakeReader] at hnext
        split_ifs at hnext
        cases hnext
    · exact .inr ⟨ls, l, hwhole.imp And.left And.left, hlf, hlen, rfl⟩
  · rintro (⟨first, hfirst, hget, rfl⟩ | ⟨ls, l, hwhole, hlf, hlen, rfl⟩)
    · have htext : lineText first = stripCR first := lineText_eq fun h => hnul (by simp [h])
      refine ⟨[], _, first, .nil _, .inl ⟨hfirst, ?_, rfl⟩⟩
      simp [handshakeReader, htext, hget]
    · have hls : 0 ∉ joinLines ls := fun h => hnul (by simp [h])
      obtain ⟨phase, hpass⟩ : ∃ phase, (handshakeReader true).Passes .httpStatus ls phase := by
        rcases hwhole with rfl | hreq
        · exact ⟨_, .nil _⟩
        · exact ⟨_, (server_passes_iff hls).mpr (.inr ⟨hreq, rfl⟩)⟩
      exact ⟨ls, phase, l, hpass, .inr ⟨hlf, hlen, rfl⟩⟩

/-- The first line is complete, and a server answers it. -/
def RightFirstLine (bs : Bytes) : Prop :=
  ∃ first rest, 0x0A ∉ first ∧ stripCR first = ascii "GET / HTTP/1.1" ∧ bs = first ++ [0x0A] ++ rest

theorem answered_iff {bs : Bytes} (hnul : 0 ∉ bs) : Answered bs ↔ RightFirstLine bs := by
  constructor
  · rintro ⟨hlf, hget⟩
    obtain ⟨rest, hrest⟩ : ∃ rest, bs.dropWhile (· != 0x0A) = 0x0A :: rest := by
      cases hdrop : bs.dropWhile (· != 0x0A) with
      | nil =>
        have hall := List.dropWhile_eq_nil_iff.mp hdrop _ hlf
        simp at hall
      | cons c rest =>
        have hc := List.head?_dropWhile_not (fun c : UInt8 => c != 0x0A) bs
        rw [hdrop] at hc
        exact ⟨rest, by simpa using hc⟩
    have hsplit := List.takeWhile_append_dropWhile (p := (· != 0x0A)) (l := bs)
    have hmem : ∀ c ∈ bs.takeWhile (· != 0x0A), c ∈ bs := fun c hc =>
      (List.takeWhile_prefix _).subset hc
    rw [lineText_eq fun h => hnul (hmem _ h)] at hget
    refine ⟨bs.takeWhile (· != 0x0A), rest, fun h => ?_, hget, ?_⟩
    · have := List.mem_takeWhile_imp h
      simp at this
    · rw [List.append_assoc, List.singleton_append, ← hrest, hsplit]
  · rintro ⟨first, rest, hlf, hget, rfl⟩
    have htext : lineText first = stripCR first := lineText_eq fun h => hnul (by simp [h])
    rw [answered_append (by simp), answered_line hlf, htext, hget]

/-! ### Accesses to the connection buffer -/

/-- The indices at which `processConnection` accesses `mConnectionBuffer` for a byte `c`. -/
inductive ConnectionAccess (w : WebSocketImpl) (c : UInt8) : ℕ → Prop
  /-- `receive` stores the byte, it is compared with LF, and a NUL is stored in the place of LF. -/
  | store : ConnectionAccess w c w.mConnectionIndex
  /-- The byte before LF is compared with CR, and a NUL is stored in its place. -/
  | lookBack (hc : c = 0x0A) (h : 0 < w.mConnectionIndex) :
    ConnectionAccess w c (w.mConnectionIndex - 1)
  /-- `strlen`, `strcmp` and `sscanf` read the characters up to the first NUL. -/
  | scan (hc : c = 0x0A) {i : ℕ}
    (h : ∀ j < i,
      WebSocketImpl.cutLine (w.storeChar c).mConnectionBuffer w.mConnectionIndex j ≠ 0) :
    ConnectionAccess w c i

theorem ConnectionAccess.le {w : WebSocketImpl} {c : UInt8} {i : ℕ} (h : ConnectionAccess w c i)
    (hindex : w.mConnectionIndex < 255) : i ≤ 255 := by
  cases h with
  | store => omega
  | lookBack => omega
  | scan _ hscan =>
    by_contra hlt
    refine hscan w.mConnectionIndex (by omega) ?_
    unfold WebSocketImpl.cutLine
    split_ifs with hcr
    · rw [Function.update_of_ne (by omega), Function.update_self]
    · rw [Function.update_self]

namespace WebSocketImpl

theorem processLine_mConnectionIndex (w : WebSocketImpl) :
    w.processLine.1.mConnectionIndex = w.mConnectionIndex := by
  unfold processLine
  split <;> (try split_ifs) <;> rfl

/-- While the connection is `CONNECTING` and has a socket, the index stays below 255. -/
theorem processConnection_index {w : WebSocketImpl} (h : w.mConnectionIndex < 255) (expired : Bool)
    (v : Option UInt8) (hsock : (w.processConnection expired v).1.mSocket = true) :
    (w.processConnection expired v).1.mConnectionIndex < 255 := by
  unfold processConnection at hsock ⊢
  split_ifs at hsock ⊢
  · exact h
  · simp [releaseSocket] at hsock
  · cases v with
    | none => exact h
    | some c =>
      simp only at hsock ⊢
      split_ifs at hsock ⊢
      · unfold endLine at hsock ⊢
        simp only at hsock ⊢
        split_ifs at hsock ⊢
        · rw [processLine_mConnectionIndex]
          simp
        · simp [releaseSocket] at hsock
      · unfold extendLine at hsock ⊢
        simp only at hsock ⊢
        split_ifs at hsock ⊢ with hfull
        · simp [releaseSocket] at hsock
        · simp only [storeChar, setConnection_mConnectionIndex] at hfull ⊢
          omega

/-- The step that completes the handshake opens the connection. -/
theorem processConnection_done {w : WebSocketImpl} {expired : Bool} {v : Option UInt8}
    (h : .handshakeDone ∈ (w.processConnection expired v).2) :
    (w.processConnection expired v).1.mReadyState = .opened := by
  have hline {w : WebSocketImpl} (h : .handshakeDone ∈ w.processLine.2.2) :
      w.processLine.1.mReadyState = .opened ∧ w.processLine.2.1 = true := by
    unfold processLine at h ⊢
    split at h <;> (try split_ifs at h ⊢) <;>
      first | exact ⟨rfl, rfl⟩ | simp at h
  unfold processConnection at h ⊢
  split_ifs at h ⊢
  · cases h
  · simp [releaseSocket] at h
  · cases v with
    | none => cases h
    | some c =>
      simp only at h ⊢
      rw [List.mem_cons, or_iff_right (by simp)] at h
      split_ifs at h ⊢
      · unfold endLine at h ⊢
        simp only at h ⊢
        split_ifs at h ⊢ with hok
        · exact (hline h).1
        · rw [List.mem_append, or_iff_left (by simp [releaseSocket])] at h
          exact absurd (hline h).2 hok
      · unfold extendLine at h
        simp only at h
        split_ifs at h
        · simp [releaseSocket] at h
        · cases h

end WebSocketImpl

namespace Session

variable {s t : Session} {i : Input} {es es' : List Event} {tr : List (Input × List Event)}

/-- The connection buffer has room for the byte that is asked for. -/
def InBuffer (s : Session) : Prop :=
  s.impl.mReadyState = .connecting → s.impl.mSocket = true → s.impl.mConnectionIndex < 255

theorem step_inBuffer (hs : s.Consistent) (hin : s.InBuffer) (h : s.step i = some (t, es)) :
    t.InBuffer := by
  intro ht hsock
  have hrank := step_rank_le hs h
  have hstate : s.impl.mReadyState = .connecting := by
    rw [ht, ReadyState.rank_connecting, Nat.le_zero] at hrank
    cases hst : s.impl.mReadyState <;> simp_all
  have hpast {a : Activation} {rest : List Activation} (hstack : s.stack = a :: rest)
      (ha : a.isPast = true) : False := by
    have := hs.past a (hstack ▸ List.mem_cons_self) ha
    simp [hstate] at this
  cases step_cases h with
  | call _ hcall =>
    obtain ⟨type, data, key, -, rfl⟩ | ⟨-, rfl⟩ := WebSocketImpl.call_cases hcall
    · obtain ⟨b, hb⟩ := WebSocketImpl.exists_sendData_eq s.impl type data (data.getD []).length key
      rw [hb] at hsock ⊢
      exact hin hstate hsock
    · have := (WebSocketImpl.close_calls s.impl).2
      rw [show s.impl.close.1.mReadyState = .connecting from ht] at this
      simp at this
  | poll => exact hin hstate hsock
  | destroy =>
    have := (WebSocketImpl.close_calls s.impl).2
    rw [show s.impl.close.1.mReadyState = .connecting from ht] at this
    simp at this
  | connect expired v hstack =>
    by_cases hsock' : s.impl.mSocket = true
    · exact WebSocketImpl.processConnection_index (hin hstate hsock') expired v hsock
    · rw [step_mSocket h (by simpa using hsock')] at hsock
      cases hsock
  | receive hstack => exact (hpast hstack rfl).elim
  | transmit hstack => exact (hpast hstack rfl).elim
  | dispatch _ hstack => exact (hpast hstack rfl).elim
  | ret hstack => exact (hpast hstack rfl).elim
  | destroyLoop => exact hin hstate hsock

/-- The step that completes the handshake opens the connection. -/
theorem step_done (h : s.step i = some (t, es)) (hdone : .handshakeDone ∈ es) :
    t.impl.mReadyState = .opened := by
  by_cases hstack : ∃ rest, s.stack = .connecting :: rest
  · obtain ⟨rest, hstack⟩ := hstack
    cases step_cases h with
    | connect => exact WebSocketImpl.processConnection_done hdone
    | call hs | poll _ _ hs =>
      rw [hstack] at hs
      cases hs
    | destroy hs => simp [hstack] at hs
    | receive hs | transmit hs | dispatch _ hs | ret hs | destroyLoop _ hs => simp [hstack] at hs
  · rw [not_exists] at hstack
    exact absurd (step_isHandshake h hstack _ hdone) Bool.noConfusion

/-- The guard of a run that ends when the handshake does: the time for it is not over, and `close`
does not run. -/
def WhileConnecting (s : Session) (i : Input) (es : List Event) : Prop :=
  s.impl.mReadyState = .connecting ∧ i.isTimeout = false ∧ ∀ e ∈ es, e.isClosing = false

instance (s : Session) (i : Input) (es : List Event) : Decidable (WhileConnecting s i es) :=
  inferInstanceAs (Decidable (_ ∧ _))

/-- A run that ends with the handshake: the ready state tells what the reader of lines is at. -/
theorem run_whileConnecting {isServer : Bool} (hs : Handshaking isServer [] s)
    (h : sessionMachine.Run WhileConnecting s tr t) :
    Handshaking isServer (Machine.events tr) t ∧
      (t.impl.mReadyState = .opened ↔ handshakeReading isServer (Machine.events tr) = .accepted) ∧
      (t.impl.mReadyState = .closed ↔ handshakeReading isServer (Machine.events tr) = .rejected) ∧
      t.impl.mReadyState ≠ .closing := by
  obtain ⟨ht, hopen⟩ : Handshaking isServer (Machine.events tr) t ∧
      (.handshakeDone ∈ Machine.events tr → t.impl.mReadyState = .opened) := by
    refine h.invariant_events (P := fun es (t : Session) => Handshaking isServer es t ∧
      (.handshakeDone ∈ es → t.impl.mReadyState = .opened)) ⟨hs, by simp⟩ ?_
    rintro es u i es' v ⟨hu, -⟩ hstep ⟨hconn, hguard⟩
    refine ⟨step_handshaking hu hstep fun _ => hguard, fun hdone => ?_⟩
    have hno : .handshakeDone ∉ es := fun hmem => by
      obtain ⟨phase, line, hread, -⟩ := hu.reading_of_connecting hconn
      simp [hu.done.mp hmem] at hread
    exact step_done hstep ((List.mem_append.mp hdone).resolve_left hno)
  refine ⟨ht, ?_⟩
  have hr := ht.reading
  have hdone := ht.done
  revert hr hdone
  cases handshakeReading isServer (Machine.events tr) with
  | reading phase line => exact fun hr _ => by simp [hr.1]
  | accepted => exact fun _ hdone => by simp [hopen (hdone.mpr rfl)]
  | rejected => exact fun hr _ => by simp [hr.1]
  | overrun => exact fun hr _ => hr.elim

theorem handshaking_ofSocket (p : Platform) (useMask : Bool) :
    Handshaking true [] (start (.ofSocket p true useMask)) :=
  .start rfl rfl rfl rfl rfl

/-- A constructed object starts at the front of the connection buffer. -/
theorem Constructed.inBuffer (hs : Constructed s) : s.InBuffer := by
  intro _ _
  cases hs with
  | server => exact Nat.zero_lt_succ _
  | client p url origin useMask connected =>
    simp only [start, WebSocketImpl.ofUrl]
    split_ifs
    · exact Nat.zero_lt_succ _
    · exact Nat.zero_lt_succ _
    · split
      · exact Nat.zero_lt_succ _
      · split_ifs <;> exact Nat.zero_lt_succ _

/-- In every run, for all bytes, the connection buffer is accessed inside its 256 characters. -/
theorem run_inBuffer (hs : Constructed s) (h : sessionMachine.Run Machine.anyStep s tr t)
    {rest : List Activation} (hstack : t.stack = .connecting :: rest)
    (hsock : t.impl.mSocket = true) {c : UInt8} {k : ℕ} (hk : ConnectionAccess t.impl c k) :
    k ≤ 255 := by
  obtain ⟨hc, hin⟩ : t.Consistent ∧ t.InBuffer :=
    h.invariant_state (P := fun t : Session => t.Consistent ∧ t.InBuffer)
      ⟨hs.consistent, hs.inBuffer⟩ fun t i es u ht hstep _ =>
        ⟨step_consistent ht.1 hstep, step_inBuffer ht.1 ht.2 hstep⟩
  exact hk.le (hin (hc.connecting rest hstack) hsock)

/-- A server accepts exactly the requests of its grammar. In a run that ends with the handshake the
connection is `OPEN` when the bytes read are such a request, `CLOSED` when they are one that is
rejected and `CONNECTING` otherwise. In every run in which the time for the handshake is not over
and `close` does not run before its end, nothing is read behind the request, and the response is
sent once when the first line is the right one. Whatever the bytes are and whatever runs, the
connection buffer is accessed inside its bounds. -/
theorem server_grammar (p : Platform) (useMask : Bool) :
    (∀ tr t, sessionMachine.Run WhileConnecting (start (.ofSocket p true useMask)) tr t →
      0 ∉ handshakeBytes (Machine.events tr) →
      (t.impl.mReadyState = .opened ↔ RequestHead (handshakeBytes (Machine.events tr))) ∧
      (t.impl.mReadyState = .closed ↔ BadRequest (handshakeBytes (Machine.events tr))) ∧
      (t.impl.mReadyState = .connecting ↔ ¬RequestHead (handshakeBytes (Machine.events tr)) ∧
        ¬BadRequest (handshakeBytes (Machine.events tr)))) ∧
    (∀ tr t, sessionMachine.Run Patient (start (.ofSocket p true useMask)) tr t →
      0 ∉ handshakeBytes (Machine.events tr) →
      (.handshakeDone ∈ Machine.events tr ↔ RequestHead (handshakeBytes (Machine.events tr))) ∧
      (∀ head, RequestHead head → head <+: handshakeBytes (Machine.events tr) →
        handshakeBytes (Machine.events tr) = head) ∧
      (RightFirstLine (handshakeBytes (Machine.events tr)) →
        handshakeSends (Machine.events tr) = responseLines) ∧
      (¬RightFirstLine (handshakeBytes (Machine.events tr)) →
        handshakeSends (Machine.events tr) = [])) ∧
    ∀ tr t rest, sessionMachine.Run Machine.anyStep (start (.ofSocket p true useMask)) tr t →
      t.stack = .connecting :: rest → t.impl.mSocket = true →
      ∀ c k, ConnectionAccess t.impl c k → k ≤ 255 := by
  refine ⟨fun tr t hrun hnul => ?_, fun tr t hrun hnul => ?_,
    fun tr t rest hrun hstack hsock c k => run_inBuffer (.server p true useMask) hrun hstack hsock⟩
  · obtain ⟨-, hopen, hclosed, hno⟩ := run_whileConnecting (handshaking_ofSocket p useMask) hrun
    rw [← server_accepts_iff hnul, ← server_rejects_iff hnul]
    simp only [handshakeReading] at hopen hclosed
    rw [← hopen, ← hclosed]
    refine ⟨Iff.rfl, Iff.rfl, ?_⟩
    revert hno
    cases t.impl.mReadyState <;> simp
  · have ht := run_handshaking (handshaking_ofSocket p useMask) hrun
    have hread := ht.reading
    refine ⟨by rw [ht.done, handshakeReading, server_accepts_iff hnul], fun head hhead hle => ?_,
      fun hright => ?_, fun hright => ?_⟩
    · have hnul' : 0 ∉ head := fun h0 => hnul (hle.subset h0)
      have hover : handshakeReading true (Machine.events tr) ≠ .overrun := fun hover => by
        rw [hover] at hread
        exact hread
      obtain ⟨hle', -⟩ := LineReader.isPrefix_of_final ((server_accepts_iff hnul').mpr hhead) hle
        List.prefix_rfl hover
      exact hle'.eq_of_length (le_antisymm hle'.length_le hle.length_le)
    · rw [ht.sent, if_pos ⟨rfl, (answered_iff hnul).mpr hright⟩]
    · rw [ht.sent, if_neg fun ha => hright ((answered_iff hnul).mp ha.2)]

/-- A request with one header line: the server is `OPEN` behind it, and has answered. -/
theorem server_grammar_request :
    ∃ tr t, sessionMachine.Run WhileConnecting (start (.ofSocket zeroPlatform true true)) tr t ∧
      handshakeBytes (Machine.events tr) = ascii "GET / HTTP/1.1\r\nHost: h\n\r\n" ∧
      RequestHead (handshakeBytes (Machine.events tr)) ∧
      handshakeSends (Machine.events tr) = responseLines := by
  obtain ⟨tr, t, hrun, hP⟩ := Machine.exists_run_of_exec (M := sessionMachine)
    (G := WhileConnecting) (s := start (.ofSocket zeroPlatform true true))
    (l := handshakeInputs (ascii "GET / HTTP/1.1\r\nHost: h\n\r\n"))
    (P := fun r => decide (r.1.impl.mReadyState = .opened ∧
      handshakeBytes (Machine.events r.2) = ascii "GET / HTTP/1.1\r\nHost: h\n\r\n"))
    (by decide +kernel)
  obtain ⟨hopen, hbytes⟩ := of_decide_eq_true hP
  have hnul : 0 ∉ handshakeBytes (Machine.events tr) := by
    rw [hbytes]
    decide
  obtain ⟨hclosed, hlong, -⟩ := server_grammar zeroPlatform true
  have hhead := (hclosed tr t hrun hnul).1.mp hopen
  refine ⟨tr, t, hrun, hbytes, hhead, (hlong tr t
    (hrun.mono fun _ _ _ hguard _ => hguard.2) hnul).2.2.1 ?_⟩
  exact ⟨ascii "GET / HTTP/1.1\r", ascii "Host: h\n\r\n", by decide, by decide, hbytes⟩

/-! ### Runs that read given bytes -/

/-- A poll that reads one byte of the handshake. -/
theorem exists_run_byte {isServer : Bool} (hs : Handshaking isServer es s) (hstack : s.stack = [])
    (hstate : s.impl.mReadyState = .connecting) (c : UInt8) :
    ∃ tr t, sessionMachine.Run WhileConnecting s tr t ∧ t.stack = [] ∧
      Handshaking isServer (es ++ Machine.events tr) t ∧
      handshakeBytes (Machine.events tr) = [c] ∧
      (Machine.events tr).flatMap Event.takenBytes = [c] := by
  obtain ⟨phase, line, -, hat⟩ := hs.reading_of_connecting hstate
  obtain ⟨es', heq, -, -, -, htaken⟩ := WebSocketImpl.processConnection_at hat c
  have hes' : (s.impl.processConnection false (some c)).2 = .handshakeByte c :: es' :=
    congrArg Prod.snd heq
  have hpoll : s.step (.poll true 0) = some (⟨s.impl, [.connecting]⟩, []) := by
    simp [step, enter, hstack, callable, WebSocketImpl.poll, hat.2.1, hstate]
  have hconnect : Session.step ⟨s.impl, [.connecting]⟩ (.connect false (some c)) =
      some (⟨(s.impl.processConnection false (some c)).1, []⟩, .handshakeByte c :: es') := by
    simp [step, WebSocketImpl.resume, hes']
  have hclosing : ∀ e ∈ Event.handshakeByte c :: es', e.isClosing = false := by
    rw [← hes']
    intro e he
    have hcalls := WebSocketImpl.processConnection_calls s.impl false (some c)
    by_contra hne
    have hcall : e.isCall = true := by
      cases e <;> first | rfl | exact absurd rfl hne
    have hmem := List.mem_filter.mpr ⟨he, hcall⟩
    rw [hcalls] at hmem
    cases hmem
  have h₁ := step_handshaking hs hpoll fun _ => ⟨rfl, by simp⟩
  have h₂ := step_handshaking h₁ hconnect fun _ => ⟨rfl, hclosing⟩
  have hno : es'.flatMap Event.handshakeBytes = [] := by
    refine List.flatMap_eq_nil_iff.mpr fun e he => ?_
    have := List.flatMap_eq_nil_iff.mp htaken e he
    cases e <;> first | rfl | cases this
  have hrun : sessionMachine.Run WhileConnecting s
      ([(.poll true 0, [])] ++ [(.connect false (some c), .handshakeByte c :: es')])
      ⟨(s.impl.processConnection false (some c)).1, []⟩ :=
    (Machine.Run.single (M := sessionMachine) hpoll ⟨hstate, rfl, by simp⟩).trans
      (.single (M := sessionMachine) hconnect ⟨hstate, rfl, hclosing⟩)
  refine ⟨_, _, hrun, rfl, by simpa using h₂, ?_, ?_⟩
  · simpa [handshakeBytes, Event.handshakeBytes] using hno
  · simpa [Event.takenBytes] using htaken

/-- Any bytes that the reader of lines takes can be read. -/
theorem exists_run_bytes {isServer : Bool} (hs : Handshaking isServer es s) (hstack : s.stack = [])
    (bs : Bytes)
    (hne : (handshakeReader isServer).read (handshakeReading isServer es) bs ≠ .overrun) :
    ∃ tr t, sessionMachine.Run WhileConnecting s tr t ∧ t.stack = [] ∧
      Handshaking isServer (es ++ Machine.events tr) t ∧
      handshakeBytes (Machine.events tr) = bs ∧
      (Machine.events tr).flatMap Event.takenBytes = bs := by
  induction bs generalizing es s with
  | nil => exact ⟨[], s, .nil, hstack, by simpa using hs, rfl, rfl⟩
  | cons c bs ih =>
    have hread : ∃ phase line, handshakeReading isServer es = .reading phase line := by
      cases hr : handshakeReading isServer es with
      | reading phase line => exact ⟨phase, line, rfl⟩
      | _ =>
        rw [hr] at hne
        exact absurd (LineReader.read_overrun _ bs) hne
    have hstate : s.impl.mReadyState = .connecting := by
      obtain ⟨phase, line, hread⟩ := hread
      have := hs.reading
      rw [hread] at this
      exact this.1
    obtain ⟨tr, t, hrun, ht, hh, hbytes, htaken⟩ := exists_run_byte hs hstack hstate c
    have hnext : handshakeReading isServer (es ++ Machine.events tr) =
        (handshakeReader isServer).readOne (handshakeReading isServer es) c := by
      rw [handshakeReading, handshakeBytes_append, hbytes, LineReader.read_snoc]
      rfl
    obtain ⟨tr', t', hrun', ht', hh', hbytes', htaken'⟩ := ih hh ht (by rw [hnext]; exact hne)
    refine ⟨tr ++ tr', t', hrun.trans hrun', ht', ?_, ?_, ?_⟩
    · simpa using hh'
    · simp [hbytes, hbytes']
    · simp [htaken, htaken']

end Session

/-! ### The lines of a client -/

/-- The status line of a response that accepts the connection. -/
def StatusLine (l : Bytes) : Prop :=
  ∃ rest, l = ascii "HTTP/1.1 101" ++ rest ∧ (rest = [] ∨ rest.head? = some 0x20)

/-- A response: a status line, header lines and an empty line, each with CR LF. -/
def responseHead (status : Bytes) (headers : List Bytes) : Bytes :=
  joinLines ((status :: headers ++ [[]]).map (· ++ [0x0D]))

theorem statusOk_of_statusLine {l : Bytes} (h : StatusLine l) :
    WebSocketImpl.statusOk l = true := by
  obtain ⟨rest, rfl, rfl | hrest⟩ := h
  · decide
  · obtain ⟨c, rest, rfl⟩ : ∃ c r, rest = c :: r := by
      cases rest with
      | nil => cases hrest
      | cons c r => exact ⟨c, r, rfl⟩
    obtain rfl : c = 0x20 := by simpa using hrest
    have hsplit : ascii "HTTP/1.1 101" = ascii "HTTP/1.1" ++ [0x20, 0x31, 0x30, 0x31] := by decide
    rw [WebSocketImpl.statusOk, hsplit, List.append_assoc, Scan.literal_append]
    simp [Scan.skipSpace, Scan.int, Scan.set, Scan.isSpace, Scan.isDigit, Scan.digits,
      Scan.toInt32]

theorem lineText_crlf {l : Bytes} (hnul : 0 ∉ l) : lineText (l ++ [0x0D]) = l := by
  rw [lineText_eq (by simpa using hnul), stripCR]
  simp

/-- The phase of a client behind the status line and `n` more lines. -/
def headerPhase : ℕ → ConnectionPhase
  | 0 => .hconnectionUpgrade
  | 1 => .hsecWebsocketAccept
  | 2 => .hserverWebsocket
  | 3 => .hupgradeWebsocket
  | _ => .h

/-- A client counts the lines behind the status line, whatever they are. -/
theorem client_passes {status : Bytes} {headers : List Bytes} (hstatus : StatusLine status)
    (hnul : 0 ∉ status) (hshort : ShortLine (status ++ [0x0D]))
    (hheaders : ∀ l ∈ headers, ShortLine l) (hlen : headers.length ≤ 4) :
    (handshakeReader false).Passes .httpStatus ((status ++ [0x0D]) :: headers)
      (headerPhase headers.length) := by
  induction headers using List.reverseRecOn with
  | nil =>
    have hnil : (handshakeReader false).Passes .httpStatus [] .httpStatus := .nil _
    refine hnil.snoc hshort ?_
    simp [handshakeReader, lineText_crlf hnul, statusOk_of_statusLine hstatus, headerPhase]
  | append_singleton headers l ih =>
    rw [List.length_append, List.length_singleton] at hlen ⊢
    have hpass := ih (fun l' hl' => hheaders l' (List.mem_append_left _ hl')) (by omega)
    refine hpass.snoc (hheaders l (by simp)) ?_
    obtain h | h | h | h : headers.length = 0 ∨ headers.length = 1 ∨ headers.length = 2 ∨
      headers.length = 3 := by omega
    all_goals
      rw [h]
      rfl

/-- A client is `OPEN` behind the status line and five more lines. -/
theorem client_accepts {status last : Bytes} {headers : List Bytes} (hstatus : StatusLine status)
    (hnul : 0 ∉ status) (hshort : ShortLine (status ++ [0x0D]))
    (hheaders : ∀ l ∈ headers, ShortLine l) (hlen : headers.length = 4) (hlast : ShortLine last) :
    (handshakeReader false).read (.reading .httpStatus [])
      (joinLines ((status ++ [0x0D]) :: headers ++ [last])) = .accepted := by
  have hpass := client_passes hstatus hnul hshort hheaders hlen.le
  rw [hlen] at hpass
  refine (LineReader.read_eq_accepted_iff (by simp [handshakeReader])).mpr
    ⟨_, _, last, hpass, hlast, rfl, ?_⟩
  rw [joinLines_append]
  simp [joinLines, LineReader.join, handshakeReader]

/-- The response of the server of this repository. -/
theorem flatten_responseLines : responseLines.flatten =
    responseHead (ascii "HTTP/1.1 101 Switching Protocols")
      [ascii "HConnection: upgrade", ascii "HSec-WebSocket-Accept: HSmrc0sMlYUkAGmm5OPpG2HaGWk=",
        ascii "HServer: WebSocket++/0.7.0", ascii "HUpgrade: websocket"] := by decide +kernel

theorem statusLine_response : StatusLine (ascii "HTTP/1.1 101 Switching Protocols") :=
  ⟨ascii " Switching Protocols", by decide, .inr (by decide)⟩

/-- A client accepts a response with four header lines. -/
theorem client_accepts_responseHead {status : Bytes} {headers : List Bytes}
    (hstatus : StatusLine status)
    (hlines : ∀ l ∈ status :: headers, 0 ∉ l ∧ ShortLine (l ++ [0x0D]))
    (hlen : headers.length = 4) :
    (handshakeReader false).read (.reading .httpStatus []) (responseHead status headers) =
      .accepted := by
  obtain ⟨hnul, hshort⟩ := hlines status List.mem_cons_self
  have hfour : ∀ l ∈ headers.map (· ++ [0x0D]), ShortLine l := fun l hl => by
    obtain ⟨l', hl', rfl⟩ := List.mem_map.mp hl
    exact (hlines l' (List.mem_cons_of_mem _ hl')).2
  have hempty : ShortLine ([] ++ [0x0D]) := by decide
  have hacc := client_accepts hstatus hnul hshort hfour (by simpa using hlen) hempty
  rw [responseHead]
  simpa using hacc

/-- A client of this repository accepts it. -/
theorem client_accepts_response : (handshakeReader false).read (.reading .httpStatus [])
    responseLines.flatten = .accepted := by
  rw [flatten_responseLines]
  exact client_accepts_responseHead statusLine_response (by decide) rfl

namespace Session

variable {s : Session}

/-- For a server that sends the stream, the connection is `OPEN` exactly when it has read the head:
none of the head is left for the frame loop, and nothing behind it is read as a line. -/
def OpensAt (s : Session) (head stream : Bytes) : Prop :=
  ∀ tr t, sessionMachine.Run Patient s tr t →
    (Machine.events tr).flatMap Event.takenBytes <+: stream →
    handshakeBytes (Machine.events tr) <+: head ∧
      (.handshakeDone ∈ Machine.events tr ↔ handshakeBytes (Machine.events tr) = head)

theorem handshaking_ofUrl {p : Platform} {url origin : Bytes} {useMask connected : Bool}
    (hsock : (WebSocketImpl.ofUrl p url origin useMask connected).1.mSocket = true) :
    Handshaking false [] (start (WebSocketImpl.ofUrl p url origin useMask connected).1) := by
  unfold WebSocketImpl.ofUrl at hsock ⊢
  split_ifs at hsock ⊢
  · cases hsock
  · cases hsock
  · split at hsock
    · cases hsock
    · simp only at hsock ⊢
      split_ifs at hsock ⊢
      · exact .start rfl rfl rfl rfl rfl
      · cases hsock

/-- A connection opens at a head that its reader of lines accepts. -/
theorem Handshaking.opensAt {isServer : Bool} (hs : Handshaking isServer [] s) {head : Bytes}
    (hhead : (handshakeReader isServer).read (.reading .httpStatus []) head = .accepted)
    (frames : Bytes) : s.OpensAt head (head ++ frames) := by
  intro tr t hrun htaken
  have ht := run_handshaking hs hrun
  have hread := ht.reading
  rw [ht.taken] at htaken
  have hover : handshakeReading isServer (Machine.events tr) ≠ .overrun := fun hover => by
    rw [hover] at hread
    exact hread
  obtain ⟨hle, hacc⟩ := LineReader.isPrefix_of_final hhead (List.prefix_append head frames)
    ((List.prefix_append _ _).trans htaken) hover
  exact ⟨hle, ht.done.trans hacc⟩

/-- A client is `OPEN` at the end of the response exactly if that has four header lines. -/
theorem client_counts_lines {p : Platform} {url origin : Bytes} {useMask connected : Bool}
    (hsock : (WebSocketImpl.ofUrl p url origin useMask connected).1.mSocket = true)
    {status : Bytes} {headers : List Bytes} (hstatus : StatusLine status)
    (hlines : ∀ l ∈ status :: headers, 0 ∉ l ∧ ShortLine (l ++ [0x0D])) (frames : Bytes) :
    (start (WebSocketImpl.ofUrl p url origin useMask connected).1).OpensAt
        (responseHead status headers) (responseHead status headers ++ frames) ↔
      headers.length = 4 := by
  have hs := handshaking_ofUrl hsock
  obtain ⟨hnul, hshort⟩ := hlines status List.mem_cons_self
  have hempty : ShortLine ([] ++ [0x0D]) := by decide
  have hall : ∀ l ∈ (headers ++ [[]]).map (· ++ [0x0D]), ShortLine l := by
    intro l hl
    obtain ⟨l', hl', rfl⟩ := List.mem_map.mp hl
    rcases List.mem_append.mp hl' with hl' | hl'
    · exact (hlines l' (List.mem_cons_of_mem _ hl')).2
    · rw [List.mem_singleton.mp hl']
      exact hempty
  have hhead : responseHead status headers =
      joinLines ((status ++ [0x0D]) :: (headers ++ [[]]).map (· ++ [0x0D])) := rfl
  constructor
  · intro hopens
    rcases Nat.lt_trichotomy headers.length 4 with hlt | heq | hgt
    · -- the client still waits for a line behind the empty one
      have hpass := client_passes hstatus hnul hshort hall (by simpa using hlt)
      have hread : (handshakeReader false).read (.reading .httpStatus [])
          (responseHead status headers) = .reading _ [] := hpass.read
      obtain ⟨tr, t, hrun, -, hh, hbytes, htaken⟩ := exists_run_bytes hs rfl
        (responseHead status headers) (by rw [handshakeReading]; simp [handshakeBytes, hread])
      have hdone := (hopens tr t (hrun.mono fun _ _ _ hguard _ => hguard.2)
        (htaken ▸ List.prefix_append _ _)).2.mpr hbytes
      have hacc := hh.done.mp (by simpa using hdone)
      rw [List.nil_append, handshakeReading, hbytes, hread] at hacc
      cases hacc
    · exact heq
    · -- the client is `OPEN` before the end of the header lines
      obtain ⟨first, fifth, rest, rfl, hfirst⟩ : ∃ first fifth rest,
          headers = first ++ fifth :: rest ∧ first.length = 4 :=
        ⟨headers.take 4, headers[4], headers.drop 5, by
          rw [← List.drop_eq_getElem_cons hgt, List.take_append_drop], by simp; omega⟩
      have hfour : ∀ l ∈ first.map (· ++ [0x0D]), ShortLine l := fun l hl =>
        hall l (by simp only [List.map_append, List.mem_append]; exact .inl (.inl hl))
      have hacc := client_accepts hstatus hnul hshort hfour (by simpa using hfirst)
        (hlines fifth (by simp)).2
      obtain ⟨x, hx⟩ : ∃ x, x = joinLines ((status ++ [0x0D]) :: first.map (· ++ [0x0D]) ++
        [fifth ++ [0x0D]]) := ⟨_, rfl⟩
      rw [← hx] at hacc
      obtain ⟨tr, t, hrun, -, hh, hbytes, htaken⟩ := exists_run_bytes hs rfl x (by
        change (handshakeReader false).read (.reading .httpStatus []) x ≠ _
        rw [hacc]
        simp)
      have hsplit : responseHead status (first ++ fifth :: rest) =
          x ++ joinLines ((rest ++ [[]]).map (· ++ [0x0D])) := by
        rw [hhead, hx, ← joinLines_append]
        simp
      have hdone : .handshakeDone ∈ Machine.events tr := by
        have := hh.done.mpr (by rw [List.nil_append, handshakeReading, hbytes, hacc])
        simpa using this
      have hend := (hopens tr t (hrun.mono fun _ _ _ hguard _ => hguard.2) (by
        rw [htaken, hsplit, List.append_assoc]
        exact List.prefix_append _ _)).2.mp hdone
      rw [hbytes, hsplit] at hend
      have hlen := congrArg List.length hend
      simp [joinLines] at hlen
  · intro hlen
    exact hs.opensAt (client_accepts_responseHead hstatus hlines hlen) frames

/-- The response of the server of this repository has four header lines. -/
theorem client_counts_lines_response :
    (start (WebSocketImpl.ofUrl zeroPlatform (ascii "ws://h") [] true true).1).OpensAt
      (responseHead (ascii "HTTP/1.1 101 Switching Protocols")
        [ascii "HConnection: upgrade", ascii "HSec-WebSocket-Accept: HSmrc0sMlYUkAGmm5OPpG2HaGWk=",
          ascii "HServer: WebSocket++/0.7.0", ascii "HUpgrade: websocket"])
      (responseLines.flatten ++ [0x81, 1, 0x41]) := by
  have hsock : (WebSocketImpl.ofUrl zeroPlatform (ascii "ws://h") [] true true).1.mSocket = true :=
    by decide +kernel
  rw [flatten_responseLines]
  exact (client_counts_lines hsock statusLine_response (by decide) [0x81, 1, 0x41]).mpr rfl

/-- A response with three header lines: the client has read its empty line and is still
`CONNECTING`, so that it takes the first frame for a line. -/
theorem client_counts_lines_three :
    ¬(start (WebSocketImpl.ofUrl zeroPlatform (ascii "ws://h") [] true true).1).OpensAt
      (responseHead (ascii "HTTP/1.1 101 Switching Protocols")
        [ascii "Upgrade: websocket", ascii "Connection: Upgrade", ascii "Sec-WebSocket-Accept: x"])
      (responseHead (ascii "HTTP/1.1 101 Switching Protocols")
        [ascii "Upgrade: websocket", ascii "Connection: Upgrade",
          ascii "Sec-WebSocket-Accept: x"] ++ [0x81, 1, 0x41]) := by
  intro hopens
  obtain ⟨tr, t, hrun, hP⟩ := Machine.exists_run_of_exec (M := sessionMachine) (G := Patient)
    (s := start (WebSocketImpl.ofUrl zeroPlatform (ascii "ws://h") [] true true).1)
    (l := handshakeInputs (responseHead (ascii "HTTP/1.1 101 Switching Protocols")
      [ascii "Upgrade: websocket", ascii "Connection: Upgrade", ascii "Sec-WebSocket-Accept: x"]))
    (P := fun r => decide (
      (Machine.events r.2).flatMap Event.takenBytes = responseHead
        (ascii "HTTP/1.1 101 Switching Protocols")
        [ascii "Upgrade: websocket", ascii "Connection: Upgrade", ascii "Sec-WebSocket-Accept: x"] ∧
      handshakeBytes (Machine.events r.2) = responseHead
        (ascii "HTTP/1.1 101 Switching Protocols")
        [ascii "Upgrade: websocket", ascii "Connection: Upgrade", ascii "Sec-WebSocket-Accept: x"] ∧
      .handshakeDone ∉ Machine.events r.2)) (by decide +kernel)
  obtain ⟨htaken, hbytes, hno⟩ := of_decide_eq_true hP
  exact hno ((hopens tr t hrun (htaken ▸ List.prefix_append _ _)).2.mpr hbytes)

end Session

end WsClient
