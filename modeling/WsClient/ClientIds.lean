import Mathlib.Data.Nat.ModEq
import WsClient.SimpleServer

/-!
# The ids of the clients

A new client of the chat server gets as its id the number of the clients with it. Clients are
removed at any position, so that the number falls and an id is given away again while the client
that got it first may be connected still.

What counts is where clients were removed. A client has as its id its position, counted from one,
and the number of the clients that were removed in front of it. That number is a history variable
here, recorded along the runs of the server.

## Main definitions

* `SimpleServer.ids`: the ids of the clients, in their order.
* `removedInFront`, `historyMachine`: how many clients were removed in front of each.
* `SimpleServer.CountsDiffer`: the condition on a new client.

## Main results

* `SimpleServer.step_clients`: what a step does to the clients.
* `SimpleServer.step_tracked`: ids are positions and removals.
* `SimpleServer.client_ids`: when the ids are distinct, and what the removal loop leaves.
-/

namespace WsClient

/-! ### Ids stay with their clients -/

namespace ClientConnection

variable {c c' : ClientConnection} {es : List Event}

theorem callback_mId (c : ClientConnection) (e : Event) : (c.callback e).mId = c.mId := by
  cases e with
  | receiveMessage data isAscii =>
    simp only [callback, receiveMessage]
    split_ifs <;> rfl
  | _ => rfl

theorem foldl_callback_mId (c : ClientConnection) (es : List Event) :
    (es.foldl callback c).mId = c.mId := by
  induction es generalizing c with
  | nil => rfl
  | cons e es ih => rw [List.foldl_cons, ih, callback_mId]

theorem step_mId {i : Input} (h : clientMachine.step c i = some (c', es)) : c'.mId = c.mId := by
  obtain ⟨r, -, hr⟩ := Option.map_eq_some_iff.mp h
  rw [← (Prod.mk.inj hr).1, foldl_callback_mId]

theorem getMessage_mId {results : List Input} {str : Option Bytes}
    (h : c.getMessage results = some (c', str, es)) : c'.mId = c.mId := by
  unfold getMessage at h
  split_ifs at h
  obtain ⟨⟨c'', tr⟩, hexec, hr⟩ := Option.bind_eq_some_iff.mp h
  simp only at hr
  split_ifs at hr with hstack
  all_goals
    obtain ⟨rfl, -⟩ := Prod.mk.inj (Option.some.inj hr)
    exact (Machine.run_exec hexec).invariant_state (P := fun d => d.mId = c.mId) rfl
      fun d i es d' hd hstep _ => (step_mId hstep).trans hd

end ClientConnection

theorem sendAll_mId (str : Bytes) (keys : ℕ → MaskingKey) (k : ℕ) (cs : List ClientConnection) :
    (sendAll str keys k cs).1.map ClientConnection.mId = cs.map ClientConnection.mId := by
  induction cs generalizing k with
  | nil => rfl
  | cons c cs ih =>
    simp only [sendAll, List.map_cons, ih]
    rfl

/-- A round of the loop that removes clients removes one. -/
theorem eraseDropped_sublist {cs cs' : List ClientConnection} (h : eraseDropped cs = some cs') :
    cs'.Sublist cs := by
  induction cs generalizing cs' with
  | nil => cases h
  | cons c cs ih =>
    rw [eraseDropped] at h
    split_ifs at h
    · obtain ⟨ds, hds, rfl⟩ := Option.map_eq_some_iff.mp h
      exact (ih hds).cons_cons c
    · obtain rfl := Option.some.inj h
      exact List.sublist_cons_self c cs

/-- After any number of its rounds the clients that are left stand in their order. -/
theorem dropLoop_sublist (n : ℕ) (cs : List ClientConnection) : (dropLoop n cs).Sublist cs := by
  induction n generalizing cs with
  | zero => exact .refl cs
  | succ n ih =>
    rw [dropLoop]
    split
    · exact .refl cs
    · rename_i cs' hsome
      exact (ih cs').trans (eraseDropped_sublist hsome)

namespace SimpleServer

variable {s t : SimpleServer} {i : ServerInput} {es : List ServerEvent}

/-- The ids of the clients, in their order. -/
def ids (s : SimpleServer) : List ℕ := s.mClients.map ClientConnection.mId

theorem turn_ids {index : ℕ} {results : List Input} {keys : ℕ → MaskingKey}
    (h : s.turn index results keys = some (t, es)) : t.ids = s.ids := by
  obtain ⟨c, hc, hr⟩ := Option.bind_eq_some_iff.mp h
  obtain ⟨⟨c', str, es'⟩, hmessage, hr⟩ := Option.map_eq_some_iff.mp hr
  obtain ⟨rfl, -⟩ := Prod.mk.inj hr
  obtain ⟨hindex, hget⟩ := List.getElem?_eq_some_iff.mp hc
  have hset : (s.mClients.set index c').map ClientConnection.mId = s.ids := by
    rw [List.map_set, ClientConnection.getMessage_mId hmessage, ids, ← hget,
      ← List.getElem_map ClientConnection.mId (h := by simpa using hindex), List.set_getElem_self]
  cases str with
  | none => exact hset
  | some str => exact (sendAll_mId str keys 0 _).trans hset

/-- Ids that are distinct stay so in the middle of the loop that removes clients. -/
theorem nodup_dropLoop (h : s.ids.Nodup) (n : ℕ) :
    ((dropLoop n s.mClients).map ClientConnection.mId).Nodup :=
  h.sublist ((dropLoop_sublist n s.mClients).map _)

/-- What a step does to the clients: one is added, those that are not connected are removed, or all
stay with their ids. -/
inductive ClientStep (s : SimpleServer) : ServerInput → SimpleServer → Prop
  | accept {t : SimpleServer} (p : Platform)
    (h : t.mClients = s.mClients ++ [.connect p (add32 (u32 s.mClients.length) 1)]) :
    ClientStep s (.pollServer (some p)) t
  | drop {t : SimpleServer} (h : t.mClients = s.mClients.filter ClientConnection.isConnected) :
    ClientStep s .dropClients t
  | keep {j : ServerInput} {t : SimpleServer} (haccept : ∀ p, j ≠ .pollServer (some p))
    (hdrop : j ≠ .dropClients) (h : t.ids = s.ids) : ClientStep s j t

theorem step_clients (h : s.step i = some (t, es)) : ClientStep s i t := by
  unfold step at h
  split at h
  · obtain ⟨rfl, -⟩ := Prod.mk.inj (Option.some.inj h)
    exact .keep (by simp) (by simp) rfl
  · obtain ⟨rfl, -⟩ := Prod.mk.inj (Option.some.inj h)
    exact .accept _ rfl
  · obtain ⟨rfl, -⟩ := Prod.mk.inj (Option.some.inj h)
    exact .keep (by simp) (by simp) rfl
  · split_ifs at h
    · obtain ⟨rfl, -⟩ := Prod.mk.inj (Option.some.inj h)
      exact .keep (by simp) (by simp) rfl
    · obtain ⟨rfl, -⟩ := Prod.mk.inj (Option.some.inj h)
      exact .keep (by simp) (by simp) (sendAll_mId _ _ _ _)
  · obtain ⟨rfl, -⟩ := Prod.mk.inj (Option.some.inj h)
    exact .drop (dropLoop_eq le_rfl)
  · exact .keep (by simp) (by simp) (turn_ids h)
  · split_ifs at h
    all_goals
      obtain ⟨rfl, -⟩ := Prod.mk.inj (Option.some.inj h)
      exact .keep (by simp) (by simp) rfl
  · cases h

end SimpleServer

/-! ### Removals in front of a client -/

/-- For each client that stays, how many clients have been removed in front of it, where `d` clients
in front of the list are removed now. -/
def removedInFront : ℕ → List ClientConnection → List ℕ → List ℕ
  | d, c :: cs, r :: removed =>
    if c.isConnected then (r + d) :: removedInFront d cs removed
    else removedInFront (d + 1) cs removed
  | _, _, _ => []

/-- How many clients were removed in front of each client, after a step. -/
def recordRemovals (removed : List ℕ) (s : SimpleServer) : ServerInput → List ℕ
  | .pollServer (some _) => removed ++ [0]
  | .dropClients => removedInFront 0 s.mClients removed
  | _ => removed

/-- The server with the number of removals in front of each client. -/
def historyMachine : Machine (SimpleServer × List ℕ) ServerInput ServerEvent :=
  serverMachine.withHistory recordRemovals

/-- The ids of clients from a position on, from the removals in front of them. -/
def idsFrom : ℕ → List ℕ → List ℕ
  | _, [] => []
  | k, r :: removed => u32 (k + r + 1) :: idsFrom (k + 1) removed

variable {k d x : ℕ} {removed : List ℕ} {cs : List ClientConnection}

@[simp] theorem length_idsFrom (k : ℕ) (removed : List ℕ) :
    (idsFrom k removed).length = removed.length := by
  induction removed generalizing k with
  | nil => rfl
  | cons r removed ih => rw [idsFrom, List.length_cons, List.length_cons, ih]

theorem idsFrom_append (k : ℕ) (removed removed' : List ℕ) :
    idsFrom k (removed ++ removed') =
      idsFrom k removed ++ idsFrom (k + removed.length) removed' := by
  induction removed generalizing k with
  | nil => rfl
  | cons r removed ih =>
    have hpos : k + 1 + removed.length = k + (removed.length + 1) := by omega
    rw [List.cons_append, idsFrom, idsFrom, ih, List.length_cons, List.cons_append, hpos]

theorem mem_idsFrom :
    x ∈ idsFrom k removed ↔ ∃ j, ∃ hj : j < removed.length, u32 (k + j + removed[j] + 1) = x := by
  induction removed generalizing k with
  | nil => simp [idsFrom]
  | cons r removed ih =>
    rw [idsFrom, List.mem_cons, ih]
    constructor
    · rintro (rfl | ⟨j, hj, rfl⟩)
      · exact ⟨0, by simp, rfl⟩
      · exact ⟨j + 1, by simpa using hj, by rw [List.getElem_cons_succ]; congr 1; omega⟩
    · rintro ⟨j, hj, rfl⟩
      cases j with
      | zero => exact .inl rfl
      | succ j =>
        exact .inr ⟨j, by simpa using hj, by rw [List.getElem_cons_succ]; congr 1; omega⟩

/-- Removing clients changes the positions of those behind them, and the count in front of them. -/
theorem idsFrom_removedInFront (h : cs.map ClientConnection.mId = idsFrom (k + d) removed) :
    (cs.filter ClientConnection.isConnected).map ClientConnection.mId =
      idsFrom k (removedInFront d cs removed) := by
  induction cs generalizing k d removed with
  | nil => rfl
  | cons c cs ih =>
    cases removed with
    | nil => cases h
    | cons r removed =>
      obtain ⟨hid, htail⟩ := List.cons.inj h
      rw [removedInFront]
      by_cases hc : c.isConnected = true
      · rw [if_pos hc, List.filter_cons_of_pos hc, List.map_cons, hid, idsFrom,
          ih (k := k + 1) (by rw [htail, Nat.add_right_comm]), Nat.add_right_comm k d r,
          Nat.add_assoc k r d]
      · rw [if_neg hc, List.filter_cons_of_neg hc, ih (k := k) (by rw [htail, Nat.add_assoc])]

namespace SimpleServer

variable {s t : SimpleServer} {i : ServerInput} {es : List ServerEvent}
  {p q : SimpleServer × List ℕ}

/-- The ids are the positions and the removals in front. -/
def Tracked (p : SimpleServer × List ℕ) : Prop := p.1.ids = idsFrom 0 p.2

theorem Tracked.length_eq (h : Tracked p) : p.2.length = p.1.mClients.length := by
  have hlen := congrArg List.length h
  rw [length_idsFrom, ids, List.length_map] at hlen
  exact hlen.symm

theorem step_tracked (hp : Tracked p) (h : historyMachine.step p i = some (q, es)) :
    Tracked q := by
  obtain ⟨hstep, hrecord⟩ := Machine.withHistory_cases h
  rw [Tracked, hrecord]
  cases step_clients hstep with
  | accept client hclients =>
    rw [ids, hclients, List.map_append, ← ids, hp, recordRemovals, idsFrom_append,
      Nat.zero_add, hp.length_eq]
    simp [idsFrom, ClientConnection.connect, u32, add32, Word.wrap, Word.add]
  | drop hclients =>
    rw [ids, hclients]
    exact idsFrom_removedInFront hp
  | keep haccept hdrop hids =>
    have hsame : recordRemovals p.2 p.1 i = p.2 := by
      cases i with
      | pollServer client =>
        cases client with
        | none => rfl
        | some client => exact absurd rfl (haccept client)
      | dropClients => exact absurd rfl hdrop
      | _ => rfl
    rw [hsame, hids]
    exact hp

/-- When a client is accepted, there is no client in front of which as many clients have been
removed as are behind it with the new one, in 32 bits. -/
def CountsDiffer (p : SimpleServer × List ℕ) (i : ServerInput) (_ : List ServerEvent) : Prop :=
  match i with
  | .pollServer (some _) =>
    ∀ k (hk : k < p.2.length), ¬p.2[k] ≡ p.1.mClients.length - k [MOD 2 ^ 32]
  | _ => True

instance (p : SimpleServer × List ℕ) (i : ServerInput) (es : List ServerEvent) :
    Decidable (CountsDiffer p i es) :=
  match i with
  | .pollServer (some _) => inferInstanceAs (Decidable (∀ k (_ : k < p.2.length), _))
  | .pollServer none | .inputLine _ _ | .dropClients | .turn _ _ | .endPass => isTrue trivial

/-- The id of a new client is not in use if and only if the counts differ for every client. -/
theorem Tracked.notMem_ids_iff (hp : Tracked p) :
    add32 (u32 p.1.mClients.length) 1 ∉ p.1.ids ↔
      ∀ k (hk : k < p.2.length), ¬p.2[k] ≡ p.1.mClients.length - k [MOD 2 ^ 32] := by
  have hlen := hp.length_eq
  rw [show p.1.ids = idsFrom 0 p.2 from hp, mem_idsFrom, not_exists]
  refine forall_congr' fun k => ?_
  rw [not_exists]
  refine forall_congr' fun hk => not_congr ?_
  have hnew : add32 (u32 p.1.mClients.length) 1 =
      (k + (p.1.mClients.length - k) + 1) % 2 ^ 32 := by
    rw [Nat.add_sub_cancel' (by omega)]
    simp [add32, u32, Word.add, Word.wrap]
  rw [hnew, Nat.zero_add]
  change k + p.2[k] + 1 ≡ k + (p.1.mClients.length - k) + 1 [MOD 2 ^ 32] ↔ _
  exact ⟨fun h => (h.add_right_cancel' 1).add_left_cancel' k,
    fun h => (h.add_left k).add_right 1⟩

/-- A step keeps the ids distinct if and only if the counts differ. -/
theorem step_nodup_iff (hp : Tracked p) (hids : p.1.ids.Nodup)
    (h : historyMachine.step p i = some (q, es)) : q.1.ids.Nodup ↔ CountsDiffer p i es := by
  cases step_clients (Machine.withHistory_cases h).1 with
  | accept client hclients =>
    rw [CountsDiffer, ← hp.notMem_ids_iff, ids, hclients, List.map_append, ← ids,
      List.map_singleton, ← List.concat_eq_append, List.nodup_concat]
    exact and_iff_left hids
  | drop hclients =>
    rw [ids, hclients, ← dropLoop_eq le_rfl]
    exact iff_of_true (nodup_dropLoop hids _) trivial
  | keep haccept _ heq =>
    refine iff_of_true (heq ▸ hids) ?_
    cases i with
    | pollServer client =>
      cases client with
      | none => trivial
      | some client => exact absurd rfl (haccept client)
    | _ => trivial

/-- In a run in which the counts differ the ids are tracked and distinct. -/
theorem run_nodup {tr : List (ServerInput × List ServerEvent)}
    (h : historyMachine.Run CountsDiffer (start, []) tr p) : Tracked p ∧ p.1.ids.Nodup :=
  h.invariant_state (P := fun p => Tracked p ∧ p.1.ids.Nodup) ⟨rfl, .nil⟩
    fun _ _ _ _ hP hstep hguard =>
      ⟨step_tracked hP.1 hstep, (step_nodup_iff hP.1 hP.2 hstep).mpr hguard⟩

/-- The loop that removes clients leaves those that are connected, in their order. In a run of the
server the ids of the clients are distinct in every state that it goes through if and only if at no
time a client is accepted while, for a client that is still there, as many clients have been removed
in front of it as are behind it, the new one included, in 32 bits. -/
theorem client_ids {tr : List (ServerInput × List ServerEvent)}
    (h : serverMachine.Run Machine.anyStep start tr t) :
    (∀ s u es, serverMachine.step s .dropClients = some (u, es) →
        u.mClients = s.mClients.filter ClientConnection.isConnected) ∧
      ((∀ tr' s, tr' <+: tr → serverMachine.Run Machine.anyStep start tr' s → s.ids.Nodup) ↔
        ∃ removed, historyMachine.Run CountsDiffer (start, []) tr (t, removed)) := by
  refine ⟨fun s u es hstep => ?_, fun hall => ?_, ?_⟩
  · cases step_clients hstep with
    | drop hclients => exact hclients
    | keep _ hdrop => exact absurd rfl hdrop
  · induction h with
    | nil => exact ⟨[], .nil⟩
    | @snoc tr s i es u hrun hstep _ ih =>
      obtain ⟨removed, hhistory⟩ := ih fun tr' v hpre => hall tr' v (hpre.trans (by simp))
      obtain ⟨htracked, hids⟩ := run_nodup hhistory
      have hstep' : historyMachine.step (s, removed) i =
          some ((u, recordRemovals removed s i), es) := Machine.withHistory_step hstep removed
      have hafter : u.ids.Nodup := hall _ _ List.prefix_rfl (hrun.snoc hstep trivial)
      exact ⟨_, hhistory.snoc hstep' ((step_nodup_iff htracked hids hstep').mp hafter)⟩
  · rintro ⟨removed, hhistory⟩ tr' s hpre hs
    obtain ⟨p, hp⟩ := hhistory.of_prefix hpre
    rw [hs.unique hp.forget]
    exact (run_nodup hp).2

/-- A round in which a client may come, and each client is polled; the time of its handshake may be
over. -/
def pollRound (client : Option Platform) (expired : List Bool) : List ServerInput :=
  .pollServer client :: quietRound ++
    expired.map (fun e => .turn [.connect e none] fun _ => 0) ++ [.endPass]

/-- The first two of three clients are removed, and another one comes. -/
theorem client_ids_distinct :
    ∃ tr t, serverMachine.Run Machine.anyStep start tr t ∧ t.ids = [3, 2] ∧
      ∀ tr' s, tr' <+: tr → serverMachine.Run Machine.anyStep start tr' s → s.ids.Nodup := by
  obtain ⟨tr, p, hrun, hP⟩ := Machine.exists_run_of_exec (M := historyMachine)
    (G := CountsDiffer) (s := (start, []))
    (l := pollRound (some Session.zeroPlatform) [false] ++
      pollRound (some Session.zeroPlatform) [false, false] ++
      pollRound (some Session.zeroPlatform) [true, true, false] ++ pollRound none [false] ++
      pollRound (some Session.zeroPlatform) [false, false])
    (P := fun r => decide (r.1.1.ids = [3, 2])) (by decide +kernel)
  exact ⟨tr, p.1, hrun.forget, of_decide_eq_true hP,
    (client_ids hrun.forget).2.mpr ⟨p.2, hrun⟩⟩

/-- The first of two clients is removed, and another one comes: both have the id 2. -/
theorem client_ids_repeat :
    ¬∀ (tr : List (ServerInput × List ServerEvent)) (t : SimpleServer),
      serverMachine.Run Machine.anyStep start tr t → t.ids.Nodup := by
  intro h
  obtain ⟨tr, t, hrun, hP⟩ := Machine.exists_run_of_exec (M := serverMachine)
    (G := Machine.anyStep) (s := start)
    (l := pollRound (some Session.zeroPlatform) [false] ++
      pollRound (some Session.zeroPlatform) [true, false] ++ pollRound none [false] ++
      [.pollServer (some Session.zeroPlatform)])
    (P := fun r => decide (r.1.ids = [2, 2])) (by decide +kernel)
  have hids := h tr t hrun
  rw [of_decide_eq_true hP] at hids
  exact absurd hids (by decide)

end SimpleServer

end WsClient
