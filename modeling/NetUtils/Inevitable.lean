import NetUtils.Transition
import Mathlib.Data.Nat.Notation

/-!
# What a machine cannot avoid

The runs of `NetUtils.Transition` say what a machine can reach. This module is
about what it has to reach: `P` is *inevitable* from a state if it holds there,
or if the machine can move and every step it can take leads to a state from
which `P` is inevitable. No fairness is assumed. Where several threads can move,
whichever the scheduler picks is a step towards `P`, and so is every answer of
the environment.

`Inevitable.of_measure` is the rule for establishing it: an invariant, a measure
that every step towards `P` takes down, and a step that is enabled as long as
`P` does not hold. `Inevitable.narrow` sharpens what has been established by an
invariant, and `Inevitable.lift` carries it from a part to the whole: a machine
whose steps move a part of it, which is never stuck where the part is not, cannot
avoid what the part cannot.
-/

variable {σ α ε τ γ η : Type}

namespace Machine

/-- **`P` cannot be avoided** by the steps that `ok` allows. -/
inductive Inevitable (M : Machine σ α ε) (ok : σ → α → Prop) (P : σ → Prop) : σ → Prop where
  /-- `P` holds. -/
  | now {s : σ} (h : P s) : Inevitable M ok P s
  /-- Some step is enabled, and every step leads on towards `P`. -/
  | later {s : σ} (henabled : ∃ a next, ok s a ∧ M.step s a = some next)
      (hall : ∀ a s' es, ok s a → M.step s a = some (s', es) → Inevitable M ok P s') :
      Inevitable M ok P s

variable {M : Machine σ α ε} {ok : σ → α → Prop} {P : σ → Prop} {s : σ}

/-- **The measure rule.** While `P` does not hold, some step is enabled, and
every step reaches `P` or keeps the invariant and takes the measure down. -/
theorem Inevitable.of_measure {I : σ → Prop} (μ : σ → ℕ)
    (henabled : ∀ s, I s → ¬ P s → ∃ a next, ok s a ∧ M.step s a = some next)
    (hstep : ∀ s a s' es, I s → ¬ P s → ok s a → M.step s a = some (s', es) →
      P s' ∨ I s' ∧ μ s' < μ s)
    (hi : I s) : M.Inevitable ok P s := by
  induction hn : μ s using Nat.strongRecOn generalizing s with
  | ind n ih =>
    by_cases hP : P s
    · exact .now hP
    · refine .later (henabled s hi hP) fun a s' es hok hs => ?_
      rcases hstep s a s' es hi hP hok hs with hP' | ⟨hi', hlt⟩
      · exact .now hP'
      · exact ih (μ s') (hn ▸ hlt) hi' rfl

/-- **What is known on the way is known at the end.** -/
theorem Inevitable.narrow {I Q : σ → Prop}
    (hstep : ∀ s a s' es, I s → ¬ P s → ok s a → M.step s a = some (s', es) → I s')
    (hQ : ∀ s, I s → P s → Q s) (hi : I s) (h : M.Inevitable ok P s) : M.Inevitable ok Q s := by
  induction h with
  | now hP => exact .now (hQ _ hi hP)
  | @later s henabled _ ih =>
    by_cases hP : P s
    · exact .now (hQ s hi hP)
    · exact .later henabled fun a s' es hok hs => ih a s' es hok hs (hstep s a s' es hi hP hok hs)

/-- **From a part to the whole.** `R` says which state of the part `M` the whole `N`
is in. -/
theorem Inevitable.lift {N : Machine τ γ η} {ok' : τ → γ → Prop} {Q : τ → Prop}
    {R : σ → τ → Prop}
    (henabled : ∀ s t, R s t → (∃ a next, ok s a ∧ M.step s a = some next) →
      ∃ b next, ok' t b ∧ N.step t b = some next)
    (hstep : ∀ s t b t' es, R s t → ok' t b → N.step t b = some (t', es) →
      ∃ a s' es', ok s a ∧ M.step s a = some (s', es') ∧ R s' t')
    (hQ : ∀ s t, R s t → P s → Q t) {t : τ} (hR : R s t) (h : M.Inevitable ok P s) :
    N.Inevitable ok' Q t := by
  induction h generalizing t with
  | now hP => exact .now (hQ _ _ hR hP)
  | later hcan _ ih =>
    refine .later (henabled _ _ hR hcan) fun b t' es hok hs => ?_
    obtain ⟨a, s', es', hallowed, hmoves, hR'⟩ := hstep _ _ b t' es hR hok hs
    exact ih a s' es' hallowed hmoves hR'

end Machine
