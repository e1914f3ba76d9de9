import Mathlib.Logic.Relation

/-!
# Machines that step by actions, and their runs

A `Machine` is a transition system given by a computable step: in a state,
an *action* names the thread that moves and whatever the environment chose
for it, and the step answers with the next state and the observable events,
or with `none` when that thread cannot take that step. All nondeterminism
sits in the choice of the actions, so a statement about every interleaving
and every answer of the environment is one about every run.

A run carries the events it has emitted, in order, because most properties
of a server are about what it has done so far and not about its state alone.
It also carries a *guard*: `Run M ok s₀` are the runs whose every step meets
`ok` in the state before it. The unguarded runs are those of `always`, and a
property that holds only of schedules avoiding some coincidence is stated
over a guarded run.

`Run.invariant` is the induction every safety proof below uses, and
`Run.exists_of_exec` turns an evaluated list of actions into a run.
-/

variable {σ α ε : Type}

/-- **A machine**: states `σ`, actions `α`, observable events `ε`. -/
structure Machine (σ α ε : Type) where
  /-- The state after an action and the events it emits, or `none` where the
  action is not enabled. -/
  step : σ → α → Option (σ × List ε)

namespace Machine

/-- The guard every step meets. -/
def always : σ → α → Prop := fun _ _ => True

instance : DecidableRel (always : σ → α → Prop) := fun _ _ => instDecidableTrue

/-- **The runs of a machine whose steps all meet `ok`**, with the events
emitted so far and the state reached. -/
inductive Run (M : Machine σ α ε) (ok : σ → α → Prop) (s₀ : σ) :
    List ε → σ → Prop where
  /-- The empty run. -/
  | start : Run M ok s₀ [] s₀
  /-- A run followed by one more step. -/
  | snoc {es : List ε} {s : σ} {a : α} {s' : σ} {es' : List ε} :
      Run M ok s₀ es s → ok s a → M.step s a = some (s', es') →
        Run M ok s₀ (es ++ es') s'

variable {M : Machine σ α ε} {ok : σ → α → Prop} {s₀ : σ}

/-- **The invariant rule.** What holds at the start and is kept by every
step of the run holds at its end. The step may use that the run led to the
state it starts from, so invariants can be established one after another. -/
theorem Run.invariant {I : List ε → σ → Prop} (h₀ : I [] s₀)
    (hstep : ∀ {es s a s' es'}, M.Run ok s₀ es s → I es s → ok s a →
      M.step s a = some (s', es') → I (es ++ es') s')
    {es : List ε} {s : σ} (h : M.Run ok s₀ es s) : I es s := by
  induction h with
  | start => exact h₀
  | snoc hrun hok hs ih => exact hstep hrun ih hok hs

/-- The invariant rule for a property of states alone. -/
theorem Run.stateInvariant {I : σ → Prop} (h₀ : I s₀)
    (hstep : ∀ {s a s' es'}, I s → ok s a → M.step s a = some (s', es') → I s')
    {es : List ε} {s : σ} (h : M.Run ok s₀ es s) : I s :=
  h.invariant (I := fun _ s => I s) h₀ (fun _ hi hok hs => hstep hi hok hs)

/-- A run under a guard is a run under every weaker guard. -/
theorem Run.mono {ok' : σ → α → Prop} (hle : ∀ s a, ok s a → ok' s a)
    {es : List ε} {s : σ} (h : M.Run ok s₀ es s) : M.Run ok' s₀ es s := by
  induction h with
  | start => exact .start
  | snoc _ hok hs ih => exact ih.snoc (hle _ _ hok) hs

/-- Every guarded run is a run. -/
theorem Run.free {es : List ε} {s : σ} (h : M.Run ok s₀ es s) :
    M.Run always s₀ es s :=
  h.mono (fun _ _ _ => trivial)

/-- A single step is a run. -/
theorem Run.single {a : α} {s : σ} {es : List ε} (hok : ok s₀ a)
    (hs : M.step s₀ a = some (s, es)) : M.Run ok s₀ es s :=
  Run.start.snoc hok hs

/-- Two runs end to end are a run. -/
theorem Run.trans {s₁ s₂ : σ} {es₁ es₂ : List ε} (h₁ : M.Run ok s₀ es₁ s₁)
    (h₂ : M.Run ok s₁ es₂ s₂) : M.Run ok s₀ (es₁ ++ es₂) s₂ := by
  induction h₂ with
  | start => simpa using h₁
  | snoc _ hok hs ih => simpa [List.append_assoc] using ih.snoc hok hs

/-! ## What an event owes to those before it -/

/-- Every event of a history is related by `P` to the events before it. -/
def Preceded (P : List ε → ε → Prop) (es : List ε) : Prop :=
  ∀ es₁ e es₂, es = es₁ ++ e :: es₂ → P es₁ e

theorem preceded_nil (P : List ε → ε → Prop) : Preceded P [] := by
  intro es₁ e es₂ h
  cases es₁ <;> cases h

/-- One more event. -/
theorem preceded_snoc {P : List ε → ε → Prop} {es : List ε} {e : ε} :
    Preceded P (es ++ [e]) ↔ Preceded P es ∧ P es e := by
  constructor
  · intro h
    refine ⟨fun es₁ e' es₂ heq => h es₁ e' (es₂ ++ [e]) ?_, h es e [] rfl⟩
    rw [heq, List.append_assoc, List.cons_append]
  · rintro ⟨hes, he⟩ es₁ e' es₂ heq
    rcases es₂.eq_nil_or_concat with rfl | ⟨es₃, e'', rfl⟩
    · obtain ⟨rfl, heq'⟩ := List.append_inj' heq rfl
      rwa [← List.singleton_inj.mp heq']
    · rw [List.concat_eq_append, ← List.cons_append, ← List.append_assoc] at heq
      exact hes es₁ e' es₃ (List.append_inj' heq rfl).1

/-- Several more events. -/
theorem preceded_append {P : List ε → ε → Prop} {es es' : List ε} (h : Preceded P es)
    (h' : ∀ es₁ e es₂, es' = es₁ ++ e :: es₂ → P (es ++ es₁) e) : Preceded P (es ++ es') := by
  induction es' generalizing es with
  | nil => rwa [List.append_nil]
  | cons e es' ih =>
    have he : P es e := by simpa using h' [] e es' rfl
    rw [List.append_cons]
    refine ih (preceded_snoc.mpr ⟨h, he⟩) fun es₁ e' es₂ heq => ?_
    rw [List.append_assoc, List.singleton_append]
    exact h' (e :: es₁) e' es₂ (congrArg (e :: ·) heq)

/-! ## Executing a list of actions -/

/-- Take the actions one after another, as long as each meets the guard and
is enabled. -/
def exec (M : Machine σ α ε) (ok : σ → α → Prop) [DecidableRel ok] :
    σ → List α → Option (σ × List ε)
  | s, [] => some (s, [])
  | s, a :: as =>
    if ok s a then
      match M.step s a with
      | none => none
      | some (s', es) => (M.exec ok s' as).map (fun p => (p.1, es ++ p.2))
    else none

/-- **What executes is a run.** -/
theorem Run.of_exec [DecidableRel ok] (as : List α) {s : σ} {es : List ε}
    (h : M.exec ok s₀ as = some (s, es)) : M.Run ok s₀ es s := by
  induction as generalizing s₀ es with
  | nil =>
    obtain ⟨rfl, rfl⟩ : s₀ = s ∧ [] = es := by simpa [exec] using h
    exact .start
  | cons a as ih =>
    rw [exec] at h
    by_cases hok : ok s₀ a
    · rw [if_pos hok] at h
      cases hs : M.step s₀ a with
      | none => rw [hs] at h; cases h
      | some p =>
        obtain ⟨s₁, es₁⟩ := p
        rw [hs] at h
        obtain ⟨⟨s₂, es₂⟩, hexec, heq⟩ := Option.map_eq_some_iff.mp h
        obtain ⟨rfl, rfl⟩ : s₂ = s ∧ es₁ ++ es₂ = es := by simpa using heq
        exact (Run.start.snoc hok hs).trans (ih hexec)
    · rw [if_neg hok] at h
      cases h

/-- A run that reaches what an evaluated list of actions reaches. -/
theorem Run.exists_of_exec [DecidableRel ok] (as : List α) {P : List ε → σ → Prop}
    [∀ es s, Decidable (P es s)]
    (h : (M.exec ok s₀ as).any (fun p => decide (P p.2 p.1)) = true) :
    ∃ es s, M.Run ok s₀ es s ∧ P es s := by
  cases hexec : M.exec ok s₀ as with
  | none => rw [hexec] at h; cases h
  | some p =>
    rw [hexec] at h
    exact ⟨p.2, p.1, Run.of_exec as hexec, of_decide_eq_true h⟩

end Machine
