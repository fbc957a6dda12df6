import WsClient.Library.Transition

/-!
# Refinement between machines

A machine that says at each of its steps which steps of another machine it has made: its events are
entries of the trace of that machine. It refines the other machine if, from related states, the
entries that a step emits are a run of the other machine to a related state. The events of a whole
run are then the trace of a run, and what holds of every run of the other machine holds of it.

A step may emit no entry, one, or several.

## Main definitions

* `Machine.Refines`: the steps of a machine are runs of another one.

## Main results

* `Machine.Refines.run`: its runs are runs of the other one.
-/

namespace WsClient

namespace Machine

variable {σ ι ε σ' ι' ε' : Type*}

/-- From related states, the entries that a guarded step of `M` emits are a run of `N` to a related
state. -/
def Refines (M : Machine σ ι (ι' × List ε')) (G : σ → ι → List (ι' × List ε') → Prop)
    (N : Machine σ' ι' ε') (G' : σ' → ι' → List ε' → Prop) (R : σ → σ' → Prop) : Prop :=
  ∀ s i t es s', R s s' → M.step s i = some (t, es) → G s i es → ∃ t', N.Run G' s' es t' ∧ R t t'

variable {M : Machine σ ι (ι' × List ε')} {G : σ → ι → List (ι' × List ε') → Prop}
  {N : Machine σ' ι' ε'} {G' : σ' → ι' → List ε' → Prop} {R : σ → σ' → Prop} {s t : σ} {s' : σ'}
  {tr : List (ι × List (ι' × List ε'))}

/-- The events of a run of the one machine are the trace of a run of the other. -/
theorem Refines.run (h : M.Refines G N G' R) (hrun : M.Run G s tr t) (hs : R s s') :
    ∃ t', N.Run G' s' (events tr) t' ∧ R t t' := by
  induction hrun with
  | nil => exact ⟨s', .nil, hs⟩
  | snoc _ hstep hguard ih =>
    obtain ⟨u', hu, hR⟩ := ih
    obtain ⟨t', ht, hR'⟩ := h _ _ _ _ _ hR hstep hguard
    exact ⟨t', by simpa using hu.trans ht, hR'⟩

end Machine

end WsClient
