import NetUtils.Transition

/-!
# One machine seen through another

A concrete machine *refines* an abstract one if what can be observed of its
runs is what can be observed of the abstract machine's. An event of the one is
seen as a list of events of the other, so that steps which the abstract machine
does not have are seen as nothing. `Run.simulate` is the rule for it: a relation
between the states that holds at the start, and a run of the abstract machine
for every step of the concrete one.
-/

variable {σ α ε σ' α' ε' : Type}

namespace Machine

variable {M : Machine σ α ε} {M' : Machine σ' α' ε'}
variable {ok : σ → α → Prop} {ok' : σ' → α' → Prop} {s₀ : σ} {t₀ : σ'}

/-- **The simulation rule.** The relation may speak of what has happened so
far, and a step may use that the run has led to it. -/
theorem Run.simulate {R : List ε → σ → σ' → Prop} (obs : ε → List ε') (h₀ : R [] s₀ t₀)
    (hstep : ∀ {es s a s' es' t}, M.Run ok s₀ es s → M'.Run ok' t₀ (es.flatMap obs) t →
      R es s t → ok s a → M.step s a = some (s', es') →
      ∃ t', M'.Run ok' t (es'.flatMap obs) t' ∧ R (es ++ es') s' t')
    {es : List ε} {s : σ} (h : M.Run ok s₀ es s) :
    ∃ t, M'.Run ok' t₀ (es.flatMap obs) t ∧ R es s t := by
  induction h with
  | start => exact ⟨t₀, .start, h₀⟩
  | snoc hrun hok hs ih =>
    obtain ⟨t, hrun', hR⟩ := ih
    obtain ⟨t', hstep', hR'⟩ := hstep hrun hrun' hR hok hs
    refine ⟨t', ?_, hR'⟩
    rw [List.flatMap_append]
    exact hrun'.trans hstep'

end Machine
