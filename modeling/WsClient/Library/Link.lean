import WsClient.Library.Transition

/-!
# Two machines on a reliable link

Two parties that run the same machine are joined by a stream in each direction. What a party
takes from its stream must stand at the front of what is on the way to it, and what it gives is
on the way to the other party behind what was sent before. The steps of the two parties
interleave in any order.

The functions `taken` and `given` say which symbols an event of the machine takes from the stream
and which it gives to it.

## Main definitions

* `Side`, `Link`: the two ends, the states of the parties and what is on the way to them.
* `Machine.link`: the machine of the pair, whose inputs name the side that makes a step.
* `Machine.trace`: the part of a trace that is one side's.

## Main results

* `Machine.link_cases`: everything that a step of the pair can do.
* `Machine.Run.project`: in a run of the pair, each side makes a run of its own.
* `Machine.Run.conserves`: nothing is lost, added or reordered between the parties.
-/

namespace WsClient

/-- The ends of a link. -/
inductive Side
  | left
  | right
  deriving DecidableEq, Repr

namespace Side

/-- The end at which the other party is. -/
def other : Side → Side
  | left => right
  | right => left

@[simp] theorem other_other (side : Side) : side.other.other = side := by cases side <;> rfl

@[simp] theorem other_ne (side : Side) : side.other ≠ side := by cases side <;> simp [other]

@[simp] theorem ne_other (side : Side) : side ≠ side.other := side.other_ne.symm

theorem eq_or_eq_other (side side' : Side) : side' = side ∨ side' = side.other := by
  cases side <;> cases side' <;> simp [other]

instance {p : Side → Prop} [DecidablePred p] : Decidable (∀ side, p side) :=
  decidable_of_iff (p left ∧ p right)
    ⟨fun h side => match side with | left => h.1 | right => h.2, fun h => ⟨h left, h right⟩⟩

end Side

/-- The states of two parties, and what is on the way to each of them. -/
structure Link (σ β : Type*) where
  left : σ
  right : σ
  toLeft : List β
  toRight : List β

namespace Link

variable {σ β : Type*}

/-- The state of the party at an end. -/
def party (l : Link σ β) : Side → σ
  | .left => l.left
  | .right => l.right

/-- What is on the way to the party at an end. -/
def wire (l : Link σ β) : Side → List β
  | .left => l.toLeft
  | .right => l.toRight

/-- The party at an end goes on to a state, `rest` is left on the way to it, and `sent` is on the
way to the other party. -/
def advance (l : Link σ β) (side : Side) (t : σ) (rest sent : List β) : Link σ β :=
  match side with
  | .left => ⟨t, l.right, rest, l.toRight ++ sent⟩
  | .right => ⟨l.left, t, l.toLeft ++ sent, rest⟩

variable (l : Link σ β) (side : Side) (t : σ) (rest sent : List β)

@[simp] theorem party_advance : (l.advance side t rest sent).party side = t := by
  cases side <;> rfl

@[simp] theorem party_other_advance :
    (l.advance side t rest sent).party side.other = l.party side.other := by cases side <;> rfl

@[simp] theorem wire_advance : (l.advance side t rest sent).wire side = rest := by
  cases side <;> rfl

@[simp] theorem wire_other_advance :
    (l.advance side t rest sent).wire side.other = l.wire side.other ++ sent := by
  cases side <;> rfl

/-- Nothing happens. -/
theorem advance_self : l.advance side (l.party side) (l.wire side) [] = l := by
  cases side <;> simp [advance, party, wire]

theorem advance_advance (t' : σ) (rest' sent' : List β) :
    (l.advance side t rest sent).advance side t' rest' sent' =
      l.advance side t' rest' (sent ++ sent') := by
  cases side <;> simp [advance]

end Link

namespace Machine

variable {σ ι ε β : Type*} [DecidableEq β]

/-- The pair of two parties that run `M`: an input of the pair is a side and an input of the party
there. -/
def link (M : Machine σ ι ε) (taken given : ε → List β) : Machine (Link σ β) (Side × ι) ε where
  step l i := (M.step (l.party i.1) i.2).bind fun r =>
    if r.2.flatMap taken <+: l.wire i.1 then
      some (l.advance i.1 r.1 ((l.wire i.1).drop (r.2.flatMap taken).length) (r.2.flatMap given),
        r.2)
    else none

/-- A guard for each of the two parties. -/
def linkGuard (G : Side → σ → ι → List ε → Prop) (l : Link σ β) (i : Side × ι) (es : List ε) :
    Prop := G i.1 (l.party i.1) i.2 es

instance {G : Side → σ → ι → List ε → Prop} [∀ side s i es, Decidable (G side s i es)]
    (l : Link σ β) (i : Side × ι) (es : List ε) : Decidable (linkGuard G l i es) :=
  inferInstanceAs (Decidable (G _ _ _ _))

/-- The steps of one side. -/
def trace (side : Side) (tr : List ((Side × ι) × List ε)) : List (ι × List ε) :=
  tr.filterMap fun p => if p.1.1 = side then some (p.1.2, p.2) else none

/-- The steps of one side, as steps of the pair. -/
def lift (side : Side) (tr : List (ι × List ε)) : List ((Side × ι) × List ε) :=
  tr.map fun p => ((side, p.1), p.2)

section Trace

variable (side : Side) (tr tr' : List ((Side × ι) × List ε)) (i : ι) (es : List ε)

@[simp] theorem trace_nil : trace side ([] : List ((Side × ι) × List ε)) = [] := rfl

@[simp] theorem trace_single : trace side [((side, i), es)] = [(i, es)] := by simp [trace]

@[simp] theorem trace_other_single : trace side.other [((side, i), es)] = [] := by simp [trace]

@[simp] theorem trace_append : trace side (tr ++ tr') = trace side tr ++ trace side tr' :=
  List.filterMap_append

@[simp] theorem trace_lift (u : List (ι × List ε)) : trace side (lift side u) = u := by
  simp [trace, lift, List.filterMap_map]

@[simp] theorem trace_lift_other (u : List (ι × List ε)) : trace side (lift side.other u) = [] := by
  simp [trace, lift]

@[simp] theorem trace_other_lift (u : List (ι × List ε)) : trace side.other (lift side u) = [] := by
  simp [trace, lift]

end Trace

variable {M : Machine σ ι ε} {taken given : ε → List β} {G : Side → σ → ι → List ε → Prop}
  {l l' : Link σ β} {side : Side} {i : ι} {es : List ε} {tr : List ((Side × ι) × List ε)}

/-- Everything that a step of the pair can do: a step of one party, with what it takes at the front
of what is on the way to it. -/
theorem link_cases {p : Side × ι} (h : (M.link taken given).step l p = some (l', es)) :
    ∃ t rest, M.step (l.party p.1) p.2 = some (t, es) ∧
      l.wire p.1 = es.flatMap taken ++ rest ∧
      l' = l.advance p.1 t rest (es.flatMap given) := by
  obtain ⟨⟨t, es'⟩, hstep, hif⟩ := Option.bind_eq_some_iff.mp h
  split_ifs at hif with htaken
  obtain ⟨rfl, rfl⟩ := Prod.mk.inj (Option.some.inj hif)
  obtain ⟨rest, hrest⟩ := htaken
  refine ⟨t, rest, hstep, hrest.symm, ?_⟩
  rw [← hrest, List.drop_left]

theorem link_step {t : σ} {rest : List β} (h : M.step (l.party side) i = some (t, es))
    (hwire : l.wire side = es.flatMap taken ++ rest) :
    (M.link taken given).step l (side, i) =
      some (l.advance side t rest (es.flatMap given), es) := by
  simp only [link, h, Option.bind_some, hwire]
  rw [if_pos (List.prefix_append _ _), List.drop_left]

/-- A run of one party is a run of the pair, if what it takes is on the way to it. -/
theorem Run.lift {t : σ} {tr : List (ι × List ε)} {rest : List β}
    (h : M.Run (G side) (l.party side) tr t)
    (hwire : l.wire side = (events tr).flatMap taken ++ rest) :
    (M.link taken given).Run (linkGuard G) l (Machine.lift side tr)
      (l.advance side t rest ((events tr).flatMap given)) := by
  induction h generalizing rest with
  | nil =>
    have hrest : l.wire side = rest := hwire
    rw [← hrest]
    exact (Link.advance_self l side).symm ▸ .nil
  | @snoc tr t i es u _ hstep hguard ih =>
    have hlater : l.wire side = (events tr).flatMap taken ++ (es.flatMap taken ++ rest) := by
      simpa using hwire
    have hlast : (M.link taken given).step (l.advance side t (es.flatMap taken ++ rest)
          ((events tr).flatMap given)) (side, i) =
        some ((l.advance side t (es.flatMap taken ++ rest) ((events tr).flatMap given)).advance
          side u rest (es.flatMap given), es) :=
      link_step (by simpa using hstep) (by simp)
    rw [Link.advance_advance] at hlast
    have hrun := (ih hlater).snoc hlast (by simpa [linkGuard] using hguard)
    simpa [Machine.lift] using hrun

/-- A run of the pair goes on with a run of one party. -/
theorem Run.append_lift {t : σ} {u : List (ι × List ε)} {rest : List β}
    (h : (M.link taken given).Run (linkGuard G) l tr l') (hu : M.Run (G side) (l'.party side) u t)
    (hwire : l'.wire side = (events u).flatMap taken ++ rest) :
    ∃ m, (M.link taken given).Run (linkGuard G) l (tr ++ Machine.lift side u) m ∧
      m.party side = t ∧ m.party side.other = l'.party side.other ∧ m.wire side = rest ∧
      m.wire side.other = l'.wire side.other ++ (events u).flatMap given :=
  ⟨_, h.trans (hu.lift hwire), by simp, by simp, by simp, by simp⟩

/-- In a run of the pair, each side makes a run of its own. -/
theorem Run.project (h : (M.link taken given).Run (linkGuard G) l tr l') (side : Side) :
    M.Run (G side) (l.party side) (trace side tr) (l'.party side) := by
  induction h with
  | nil => exact .nil
  | @snoc tr t p es u _ hstep hguard ih =>
    obtain ⟨v, rest, hv, -, rfl⟩ := link_cases hstep
    obtain ⟨side', i⟩ := p
    obtain rfl | rfl := side'.eq_or_eq_other side
    · simpa using ih.snoc hv hguard
    · simpa using ih

/-- What a party has taken, followed by what is on the way to it, is what was on the way to it
before the run, followed by what the other party has given. -/
theorem Run.conserves {H : Link σ β → Side × ι → List ε → Prop}
    (h : (M.link taken given).Run H l tr l') (side : Side) :
    (events (trace side tr)).flatMap taken ++ l'.wire side =
      l.wire side ++ (events (trace side.other tr)).flatMap given := by
  induction h with
  | nil => simp
  | @snoc tr t p es u _ hstep _ ih =>
    obtain ⟨v, rest, -, hwire, rfl⟩ := link_cases hstep
    obtain ⟨side', i⟩ := p
    obtain rfl | rfl := side'.eq_or_eq_other side
    · simpa [hwire] using ih
    · rw [Side.other_other] at ih
      simp only [trace_append, trace_single, trace_other_single, Link.wire_other_advance,
        Side.other_other, events_append, events_cons, events_nil, List.flatMap_append,
        List.append_nil]
      rw [← List.append_assoc, ih, List.append_assoc]

end Machine

end WsClient
