import Mathlib.Data.List.Basic
import Mathlib.Data.List.Induction
import Mathlib.Data.List.Flatten
import Mathlib.Data.Nat.Notation
import Mathlib.Logic.Relation

/-!
# Machines driven by their environment

A `Machine` is a partial step function: in a state it accepts an input of its environment, moves
to the next state and emits the events an observer can see. The results of system calls, the
calls of an application and the choices of a scheduler are all inputs, so a statement about every
run is a statement about every environment.

A run carries a *guard*, a condition on each of its steps. Runs of an unrestricted environment
are those with the guard `Machine.anyStep`.

## Main definitions

* `Machine`, `Machine.Run`, `Machine.events`.
* `Machine.Precedes`: an event comes only after another.
* `Machine.Excludes`: no event of a kind comes between two others.
* `Machine.exec`: the executable run of a list of inputs.
* `Machine.withHistory`: the machine with a history variable.
* `Machine.drive`: the run in which the environment answers by a strategy.

## Main results

* `Machine.Run.invariant`: a property kept by every step holds of every run.
* `Machine.Run.trans`, `Machine.Run.mono`: runs compose, and a guard can be weakened.
* `Machine.Run.of_prefix`, `Machine.Run.unique`: the states that a run goes through.
* `Machine.run_exec`, `Machine.exists_run_of_exec`: what `exec` computes is a run.
* `Machine.exists_exit`: a loop with a measure that decreases is left.
-/

namespace WsClient

/-- A machine: its step function takes an input and emits events, and is undefined on the inputs
that the environment cannot give in that state. -/
structure Machine (σ ι ε : Type*) where
  /-- The next state and the events of the step. -/
  step : σ → ι → Option (σ × List ε)

namespace Machine

variable {σ ι ε : Type*}

/-- The guard that allows every step. -/
def anyStep : σ → ι → List ε → Prop := fun _ _ _ => True

/-- `M.Run G s tr t`: from `s` the machine reaches `t` by steps that all meet the guard `G`; the
trace `tr` lists the input and the events of each step. -/
inductive Run (M : Machine σ ι ε) (G : σ → ι → List ε → Prop) (s : σ) :
    List (ι × List ε) → σ → Prop
  | nil : Run M G s [] s
  | snoc {tr t i es u} (h : Run M G s tr t) (hstep : M.step t i = some (u, es))
      (hguard : G t i es) : Run M G s (tr ++ [(i, es)]) u

/-- The events of a trace, in order. -/
def events (tr : List (ι × List ε)) : List ε := tr.flatMap Prod.snd

@[simp] theorem events_nil : events ([] : List (ι × List ε)) = [] := rfl

@[simp] theorem events_cons (p : ι × List ε) (tr : List (ι × List ε)) :
    events (p :: tr) = p.2 ++ events tr := rfl

@[simp] theorem events_append (tr tr' : List (ι × List ε)) :
    events (tr ++ tr') = events tr ++ events tr' := List.flatMap_append

/-- Every event with the property `q` comes after one with the property `p`. -/
def Precedes (p q : ε → Prop) (es : List ε) : Prop :=
  ∀ pre e post, es = pre ++ e :: post → q e → ∃ e' ∈ pre, p e'

theorem Precedes.nil {p q : ε → Prop} : Precedes p q [] := fun pre e post h => by simp at h

theorem Precedes.append {p q : ε → Prop} {es es' : List ε} (h : Precedes p q es)
    (h' : ∀ e ∈ es', q e → ∃ e' ∈ es, p e') : Precedes p q (es ++ es') := by
  intro pre e post heq hq
  rcases List.append_eq_append_iff.mp heq with ⟨l, rfl, hl⟩ | ⟨l, rfl, hl⟩
  · obtain ⟨e', he', hp⟩ := h' e (hl ▸ by simp) hq
    exact ⟨e', List.mem_append_left _ he', hp⟩
  · cases l with
    | nil =>
      obtain ⟨e', he', hp⟩ := h' e (by simp only [List.nil_append] at hl; simp [← hl]) hq
      exact ⟨e', by simpa using he', hp⟩
    | cons e'' l =>
      obtain ⟨rfl, rfl⟩ : e = e'' ∧ post = l ++ es' := by simpa using hl
      exact h pre e l rfl hq

/-- A last event with the property `p` has not been followed by one with the property `q`. -/
def IsOpen (p q : ε → Prop) (es : List ε) : Prop :=
  ∃ pre e mid, es = pre ++ e :: mid ∧ p e ∧ ∀ e' ∈ mid, ¬q e'

/-- Between an event with the property `p` and the next one with the property `q` there is none
with the property `r`. -/
def Excludes (p q r : ε → Prop) (es : List ε) : Prop :=
  ∀ pre e mid post, es = pre ++ e :: (mid ++ post) → p e → (∀ e' ∈ mid, ¬q e') → ∀ e' ∈ mid, ¬r e'

section Excludes

variable {p q r : ε → Prop} {es : List ε} {e : ε}

theorem not_isOpen_nil : ¬IsOpen p q [] := by
  rintro ⟨pre, e, mid, h, -⟩
  simp at h

theorem isOpen_snoc : IsOpen p q (es ++ [e]) ↔ p e ∨ (IsOpen p q es ∧ ¬q e) := by
  constructor
  · rintro ⟨pre, a, mid, h, hp, hq⟩
    rcases List.eq_nil_or_concat' mid with rfl | ⟨mid, b, rfl⟩
    · obtain ⟨-, rfl⟩ : es = pre ∧ e = a := by simpa using h
      exact .inl hp
    · have h : es ++ [e] = (pre ++ a :: mid) ++ [b] := by simpa using h
      obtain ⟨rfl, rfl⟩ : es = pre ++ a :: mid ∧ e = b := List.append_singleton_inj.mp h
      exact .inr ⟨⟨pre, a, mid, rfl, hp, fun x hx => hq x (List.mem_append_left _ hx)⟩,
        hq e (by simp)⟩
  · rintro (hp | ⟨⟨pre, a, mid, rfl, hp, hq⟩, he⟩)
    · exact ⟨es, e, [], rfl, hp, by simp⟩
    · refine ⟨pre, a, mid ++ [e], by simp, hp, fun x hx => ?_⟩
      rcases List.mem_append.mp hx with hx | hx
      · exact hq x hx
      · rwa [List.mem_singleton.mp hx]

theorem Excludes.nil : Excludes p q r [] := fun _ _ _ _ h => by simp at h

theorem Excludes.snoc (h : Excludes p q r es) (he : r e → ¬IsOpen p q es) :
    Excludes p q r (es ++ [e]) := by
  intro pre a mid post heq hp hq x hx hr
  rcases List.eq_nil_or_concat' post with rfl | ⟨post, b, rfl⟩
  · rcases List.eq_nil_or_concat' mid with rfl | ⟨mid, b, rfl⟩
    · cases hx
    · have heq : es ++ [e] = (pre ++ a :: mid) ++ [b] := by simpa using heq
      obtain ⟨rfl, rfl⟩ : es = pre ++ a :: mid ∧ e = b := List.append_singleton_inj.mp heq
      have hq' : ∀ y ∈ mid, ¬q y := fun y hy => hq y (List.mem_append_left _ hy)
      rcases List.mem_append.mp hx with hx | hx
      · exact h pre a mid [] (by simp) hp hq' x hx hr
      · rw [List.mem_singleton.mp hx] at hr
        exact he hr ⟨pre, a, mid, rfl, hp, hq'⟩
  · refine h pre a mid post ?_ hp hq x hx hr
    have heq : es ++ [e] = (pre ++ a :: (mid ++ post)) ++ [b] := by simpa using heq
    exact (List.append_singleton_inj.mp heq).1

/-- Events that do not open the interval again can only close it. -/
theorem isOpen_append {es' : List ε} (hp : ∀ e ∈ es', ¬p e) :
    IsOpen p q (es ++ es') ↔ IsOpen p q es ∧ ∀ e ∈ es', ¬q e := by
  induction es' using List.reverseRecOn with
  | nil => simp
  | append_singleton es' e ih =>
    have he : ¬p e := hp e (by simp)
    rw [← List.append_assoc, isOpen_snoc, ih fun x hx => hp x (List.mem_append_left _ hx)]
    simp [he, or_imp, forall_and, and_assoc]

theorem Excludes.append {es' : List ε} (h : Excludes p q r es) (hp : ∀ e ∈ es', ¬p e)
    (hr : ∀ e ∈ es', r e → ¬IsOpen p q es) : Excludes p q r (es ++ es') := by
  induction es' using List.reverseRecOn with
  | nil => simpa using h
  | append_singleton es' e ih =>
    have hp' : ∀ x ∈ es', ¬p x := fun x hx => hp x (List.mem_append_left _ hx)
    rw [← List.append_assoc]
    refine (ih hp' fun x hx => hr x (List.mem_append_left _ hx)).snoc fun he hopen => ?_
    exact hr e (by simp) he ((isOpen_append hp').mp hopen).1

end Excludes

variable {M : Machine σ ι ε} {G G' : σ → ι → List ε → Prop} {s t u : σ}
  {tr tr' : List (ι × List ε)}

/-- The invariant rule: what holds of the empty trace and is kept by every guarded step holds at
the end of every run. -/
theorem Run.invariant {P : List (ι × List ε) → σ → Prop} (h : M.Run G s tr t) (h0 : P [] s)
    (hstep : ∀ tr t i es u, M.Run G s tr t → P tr t → M.step t i = some (u, es) → G t i es →
      P (tr ++ [(i, es)]) u) : P tr t := by
  induction h with
  | nil => exact h0
  | snoc h hs hg ih => exact hstep _ _ _ _ _ h ih hs hg

/-- The invariant rule for a property of the events emitted and the state reached. -/
theorem Run.invariant_events {P : List ε → σ → Prop} (h : M.Run G s tr t) (h0 : P [] s)
    (hstep : ∀ es t i es' u, P es t → M.step t i = some (u, es') → G t i es' →
      P (es ++ es') u) : P (events tr) t := by
  refine h.invariant (P := fun tr t => P (events tr) t) h0 ?_
  intro tr t i es u _ hP hs hg
  simpa using hstep _ _ _ _ _ hP hs hg

/-- A property of the state kept by every guarded step. -/
theorem Run.invariant_state {P : σ → Prop} (h : M.Run G s tr t) (h0 : P s)
    (hstep : ∀ t i es u, P t → M.step t i = some (u, es) → G t i es → P u) : P t :=
  h.invariant (P := fun _ t => P t) h0 fun _ t i es u _ => hstep t i es u

theorem Run.mono (hG : ∀ s i es, G s i es → G' s i es) (h : M.Run G s tr t) :
    M.Run G' s tr t := by
  induction h with
  | nil => exact .nil
  | snoc _ hs hg ih => exact ih.snoc hs (hG _ _ _ hg)

theorem Run.trans (h : M.Run G s tr t) (h' : M.Run G t tr' u) : M.Run G s (tr ++ tr') u := by
  induction h' with
  | nil => simpa using h
  | snoc _ hs hg ih => simpa using ih.snoc hs hg

theorem Run.single {i : ι} {es : List ε} (hs : M.step s i = some (t, es)) (hg : G s i es) :
    M.Run G s [(i, es)] t := by
  simpa using (Run.nil (M := M) (G := G)).snoc hs hg

theorem Run.of_nil (h : M.Run G s [] t) : t = s := by
  generalize htr : ([] : List (ι × List ε)) = tr at h
  cases h with
  | nil => rfl
  | snoc => simp at htr

theorem Run.of_snoc {p : ι × List ε} (h : M.Run G s (tr ++ [p]) u) :
    ∃ t, M.Run G s tr t ∧ M.step t p.1 = some (u, p.2) ∧ G t p.1 p.2 := by
  generalize htr : tr ++ [p] = tr' at h
  cases h with
  | nil => simp at htr
  | snoc hrun hs hg =>
    obtain ⟨rfl, rfl⟩ := List.append_singleton_inj.mp htr
    exact ⟨_, hrun, hs, hg⟩

/-- A run goes through a state after each part of its trace. -/
theorem Run.of_prefix (h : M.Run G s tr t) (hpre : tr' <+: tr) : ∃ u, M.Run G s tr' u := by
  induction h with
  | nil => exact ⟨s, List.prefix_nil.mp hpre ▸ .nil⟩
  | snoc hrun hs hg ih =>
    rcases List.prefix_concat_iff.mp hpre with rfl | hpre
    · exact ⟨_, hrun.snoc hs hg⟩
    · exact ih hpre

/-- The trace determines the state that is reached. -/
theorem Run.unique (h : M.Run G s tr t) (h' : M.Run G' s tr u) : t = u := by
  induction h generalizing u with
  | nil => exact h'.of_nil.symm
  | snoc _ hs _ ih =>
    obtain ⟨v, hrun, hs', -⟩ := h'.of_snoc
    rw [← ih hrun, hs] at hs'
    exact (Prod.mk.inj (Option.some.inj hs')).1

/-- Every entry of a trace is a step from the state in front of it. -/
theorem Run.exists_step {p : ι × List ε} (h : M.Run G s (tr ++ p :: tr') t) :
    ∃ u v, M.Run G s tr u ∧ M.step u p.1 = some (v, p.2) ∧ G u p.1 p.2 := by
  have hfront : tr ++ [p] <+: tr ++ p :: tr' := ⟨tr', by simp⟩
  obtain ⟨v, hv⟩ := h.of_prefix hfront
  obtain ⟨u, hu, hstep, hguard⟩ := hv.of_snoc
  exact ⟨u, v, hu, hstep, hguard⟩

/-- What is known of the inputs of a run is a guard of it. -/
theorem Run.of_inputs {P : ι → Prop} (h : M.Run G s tr t) (hP : ∀ i ∈ tr.map Prod.fst, P i) :
    M.Run (fun _ i _ => P i) s tr t := by
  induction h with
  | nil => exact .nil
  | snoc _ hstep _ ih =>
    rw [List.map_append] at hP
    exact (ih fun i hi => hP i (List.mem_append_left _ hi)).snoc hstep (hP _ (by simp))

/-- Run the machine on a list of inputs, as long as every step meets the guard. -/
def exec (M : Machine σ ι ε) (G : σ → ι → List ε → Prop) [∀ s i es, Decidable (G s i es)]
    (s : σ) : List ι → Option (σ × List (ι × List ε))
  | [] => some (s, [])
  | i :: is =>
    match M.step s i with
    | none => none
    | some (t, es) =>
      if G s i es then (exec M G t is).map fun r => (r.1, (i, es) :: r.2) else none

instance (s : σ) (i : ι) (es : List ε) : Decidable (anyStep s i es) := isTrue trivial

/-- What `exec` computes is a run. -/
theorem run_exec [∀ s i es, Decidable (G s i es)] {l : List ι}
    (h : M.exec G s l = some (t, tr)) : M.Run G s tr t := by
  induction l generalizing s tr with
  | nil =>
    obtain ⟨rfl, rfl⟩ : s = t ∧ [] = tr := by simpa [exec] using h
    exact .nil
  | cons i l ih =>
    rw [exec] at h
    split at h
    · cases h
    · rename_i v es hstep
      by_cases hguard : G s i es
      · rw [if_pos hguard] at h
        obtain ⟨⟨v', tr'⟩, hrest, heq⟩ := Option.map_eq_some_iff.mp h
        obtain ⟨rfl, rfl⟩ : v' = t ∧ (i, es) :: tr' = tr := by simpa using heq
        exact (Run.single hstep hguard).trans (ih hrest)
      · rw [if_neg hguard] at h
        cases h

/-- The inputs of the run that `exec` computes are those that it was given. -/
theorem inputs_exec [∀ s i es, Decidable (G s i es)] {l : List ι}
    (h : M.exec G s l = some (t, tr)) : tr.map Prod.fst = l := by
  induction l generalizing s tr with
  | nil =>
    obtain ⟨rfl, rfl⟩ : s = t ∧ [] = tr := by simpa [exec] using h
    rfl
  | cons i l ih =>
    rw [exec] at h
    split at h
    · cases h
    · split_ifs at h
      obtain ⟨⟨v, tr'⟩, hrest, heq⟩ := Option.map_eq_some_iff.mp h
      obtain ⟨rfl, rfl⟩ : v = t ∧ (i, _) :: tr' = tr := by simpa using heq
      rw [List.map_cons, ih hrest]

/-- Guards do not change what a list of inputs does. -/
theorem exec_congr [∀ s i es, Decidable (G s i es)] [∀ s i es, Decidable (G' s i es)] {l : List ι}
    {r r' : σ × List (ι × List ε)} (h : M.exec G s l = some r) (h' : M.exec G' s l = some r') :
    r = r' := by
  induction l generalizing s r r' with
  | nil => exact Option.some.inj (h.symm.trans h')
  | cons i l ih =>
    rw [exec] at h h'
    cases hstep : M.step s i with
    | none => simp [hstep] at h
    | some q =>
      simp only [hstep] at h h'
      have hg : G s i q.2 := Decidable.byContradiction fun hg => by simp [hg] at h
      have hg' : G' s i q.2 := Decidable.byContradiction fun hg' => by simp [hg'] at h'
      rw [if_pos hg] at h
      rw [if_pos hg'] at h'
      obtain ⟨v, hv, rfl⟩ := Option.map_eq_some_iff.mp h
      obtain ⟨v', hv', rfl⟩ := Option.map_eq_some_iff.mp h'
      rw [ih hv hv']

/-- A run found by computation, with a property of its end and its trace that was computed along. -/
theorem exists_run_of_exec [∀ s i es, Decidable (G s i es)] {l : List ι}
    {P : σ × List (ι × List ε) → Bool} (h : (M.exec G s l).any P = true) :
    ∃ tr t, M.Run G s tr t ∧ P (t, tr) = true := by
  obtain ⟨r, hr, hP⟩ := (Option.any_eq_true _ _).mp h
  exact ⟨r.2, r.1, run_exec hr, hP⟩

/-! ### History variables -/

section History

variable {η : Type*} {record : η → σ → ι → η}

/-- The machine that records its past along, on which its steps do not depend. -/
def withHistory (M : Machine σ ι ε) (record : η → σ → ι → η) : Machine (σ × η) ι ε where
  step p i := (M.step p.1 i).map fun r => ((r.1, record p.2 p.1 i), r.2)

theorem withHistory_cases {p q : σ × η} {i : ι} {es : List ε}
    (h : (M.withHistory record).step p i = some (q, es)) :
    M.step p.1 i = some (q.1, es) ∧ q.2 = record p.2 p.1 i := by
  obtain ⟨r, hr, heq⟩ := Option.map_eq_some_iff.mp h
  obtain ⟨rfl, rfl⟩ := Prod.mk.inj heq
  exact ⟨hr, rfl⟩

theorem withHistory_step {i : ι} {es : List ε} (h : M.step s i = some (t, es)) (x : η) :
    (M.withHistory record).step (s, x) i = some ((t, record x s i), es) := by
  simp [withHistory, h]

/-- A run with its history is a run. -/
theorem Run.forget {H : σ × η → ι → List ε → Prop} {p q : σ × η}
    (h : (M.withHistory record).Run H p tr q) : M.Run anyStep p.1 tr q.1 := by
  induction h with
  | nil => exact .nil
  | snoc _ hs _ ih => exact ih.snoc (withHistory_cases hs).1 trivial

end History

/-! ### Loops -/

/-- The state after `n` steps in which the environment answers by a strategy: a choice of the input
from the number of the step and the state. -/
def drive (M : Machine σ ι ε) (f : ℕ → σ → ι) (s : σ) : ℕ → Option σ
  | 0 => some s
  | n + 1 => (drive M f s n).bind fun t => (M.step t (f n t)).map Prod.fst

/-- A loop is left if each of its steps decreases a measure or leaves it; the measure bounds the
number of steps. -/
theorem exists_exit {P Q : σ → Prop} {μ : σ → ℕ} {f : ℕ → σ → ι}
    (hstep : ∀ n s, P s → ∃ t es, M.step s (f n s) = some (t, es) ∧ (P t ∧ μ t < μ s ∨ Q t))
    (hs : P s) : ∃ n t, n ≤ μ s + 1 ∧ M.drive f s n = some t ∧ Q t := by
  -- after `n` steps the loop has been left, or the measure has decreased by `n`
  have hrun (n : ℕ) : (∃ k t, k ≤ n ∧ M.drive f s k = some t ∧ Q t) ∨
      ∃ t, M.drive f s n = some t ∧ P t ∧ μ t + n ≤ μ s := by
    induction n with
    | zero => exact .inr ⟨s, rfl, hs, Nat.le_refl _⟩
    | succ n ih =>
      obtain ⟨k, t, hk, hdrive, hQ⟩ | ⟨t, hdrive, hP, hμ⟩ := ih
      · exact .inl ⟨k, t, by omega, hdrive, hQ⟩
      · obtain ⟨u, es, hu, hnext⟩ := hstep n t hP
        have hdrive' : M.drive f s (n + 1) = some u := by
          rw [drive, hdrive, Option.bind_some, hu]
          rfl
        obtain ⟨hP', hlt⟩ | hQ := hnext
        · exact .inr ⟨u, hdrive', hP', by omega⟩
        · exact .inl ⟨n + 1, u, Nat.le_refl _, hdrive', hQ⟩
  obtain ⟨k, t, hk, hdrive, hQ⟩ | ⟨t, -, -, hμ⟩ := hrun (μ s + 1)
  · exact ⟨k, t, hk, hdrive, hQ⟩
  · omega

end Machine

end WsClient
