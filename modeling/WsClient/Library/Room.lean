import Mathlib.Data.List.Forall2

/-!
# What the members of a room are told

Members come to a room and leave it in any order, and what happens there is written down. A member
has been told what happened since it came: all but the first `came` entries of the log. So the
members have been told the same in the same order, those that came first the most.

Of each member something is remembered, at least when it came. `Told l g m` says that the member
`m`, of whom `g` is remembered, has been told `l`. What a member is made of is left open.

## Main definitions

* `Room`: the log and the members, in the order in which they came.

## Main results

* `Room.join`, `Room.go`, `Room.leave`: what happens in a room.
* `Room.suffix`: who came later has been told the end of it.
-/

namespace WsClient

variable {α β γ : Type*} {came : γ → ℕ} {Told : List β → γ → α → Prop} {log : List β}
  {past past' : List γ} {members members' : List α}

/-- Each member has been told what happened since it came. -/
structure Room (came : γ → ℕ) (Told : List β → γ → α → Prop) (log : List β) (past : List γ)
    (members : List α) : Prop where
  order : past.Pairwise fun g g' => came g ≤ came g'
  within : ∀ g ∈ past, came g ≤ log.length
  told : List.Forall₂ (fun g m => Told (log.drop (came g)) g m) past members

/-- What is remembered of the members that stay. -/
def staying (p : α → Bool) (past : List γ) (members : List α) : List γ :=
  ((past.zip members).filter fun q => p q.2).map Prod.fst

theorem staying_sublist (p : α → Bool) (h : past.length ≤ members.length) :
    (staying p past members).Sublist past := by
  have hsub := (List.filter_sublist (l := past.zip members) (p := fun q => p q.2)).map Prod.fst
  rwa [List.map_fst_zip h] at hsub

namespace Room

theorem empty (came : γ → ℕ) (Told : List β → γ → α → Prop) (log : List β) :
    Room came Told log [] [] :=
  ⟨.nil, by simp, .nil⟩

/-- A member comes, which has been told nothing. -/
theorem join {g : γ} {m : α} (h : Room came Told log past members) (hg : came g = log.length)
    (hm : Told [] g m) : Room came Told log (past ++ [g]) (members ++ [m]) := by
  refine ⟨?_, fun g' hg' => ?_, List.rel_append h.told (.cons ?_ .nil)⟩
  · refine List.pairwise_append.mpr
      ⟨h.order, List.pairwise_singleton _ _, fun g' hg' g'' hg'' => ?_⟩
    rw [List.mem_singleton.mp hg'', hg]
    exact h.within g' hg'
  · rcases List.mem_append.mp hg' with hg' | hg'
    · exact h.within g' hg'
    · exact Nat.le_of_eq (List.mem_singleton.mp hg' ▸ hg)
  · rw [hg, List.drop_length]
    exact hm

/-- Something happens of which all members are told. -/
theorem go {e : β} (h : Room came Told log past members) (hcame : past'.map came = past.map came)
    (hgo : ∀ l : ℕ → List β, List.Forall₂ (fun g m => Told (l (came g)) g m) past members →
      List.Forall₂ (fun g m => Told (l (came g) ++ [e]) g m) past' members') :
    Room came Told (log ++ [e]) past' members' := by
  have hwithin : ∀ g ∈ past', came g ≤ log.length := fun g hg => by
    obtain ⟨g', hg', heq⟩ := List.mem_map.mp (hcame ▸ List.mem_map_of_mem hg)
    rw [← heq]
    exact h.within g' hg'
  refine ⟨List.pairwise_map.mp (hcame ▸ List.pairwise_map.mpr h.order), fun g hg => ?_, ?_⟩
  · have hle := hwithin g hg
    rw [List.length_append]
    omega
  · have htold := (List.forall₂_and_left _ _).mpr ⟨hwithin, hgo (fun n => log.drop n) h.told⟩
    refine htold.imp fun g m hm => ?_
    rw [List.drop_append_of_le_length hm.1]
    exact hm.2

/-- Some members leave. -/
theorem leave (h : Room came Told log past members) (p : α → Bool) :
    Room came Told log (staying p past members) (members.filter p) := by
  obtain ⟨horder, hwithin, htold⟩ := h
  have hsub := staying_sublist p (Nat.le_of_eq htold.length_eq)
  refine ⟨horder.sublist hsub, fun g hg => hwithin g (hsub.subset hg), ?_⟩
  clear horder hwithin hsub
  induction htold with
  | nil => exact .nil
  | @cons g m past members hm _ ih =>
    unfold staying at ih ⊢
    cases hp : p m with
    | true =>
      rw [List.zip_cons_cons, List.filter_cons_of_pos (by exact hp), List.filter_cons_of_pos hp]
      exact .cons hm ih
    | false =>
      rw [List.zip_cons_cons, List.filter_cons_of_neg (by simp [hp]),
        List.filter_cons_of_neg (by simp [hp])]
      exact ih

/-- Who came later has been told the end of what those before it have been told. -/
theorem suffix (h : Room came Told log past members) :
    past.Pairwise fun g g' => log.drop (came g') <:+ log.drop (came g) :=
  h.order.imp fun hle => List.drop_suffix_drop_left _ hle

end Room

end WsClient
