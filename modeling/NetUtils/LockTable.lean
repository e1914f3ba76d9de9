import Mathlib.Logic.Function.Basic

/-!
# Mutexes and the threads that hold them

A lock table says which thread holds each mutex. The threads of a program
know as well: at each point of its code a thread holds what the code has
locked and not unlocked. `Agrees` says that the table and the code tell the
same story, and `Agrees.move` that it stays so when one thread takes a step
that locks a free mutex, unlocks the one it holds, or does neither.

It is what mutual exclusion is proved from: two threads whose code is inside
one critical section would both be the one the table names
(`Agrees.unique`). And it is what absence of deadlock is proved from: where a
thread that wants a mutex holds none, nobody waits for a thread that waits
(`Agrees.not_deadlocked`).
-/

variable {μ τ : Type}

/-- Which thread holds each mutex. -/
abbrev LockTable (μ τ : Type) := μ → Option τ

namespace LockTable

/-- The table and the code tell the same story. -/
def Agrees (locks : LockTable μ τ) (held : τ → Option μ) : Prop :=
  ∀ m t, locks m = some t ↔ held t = some m

/-- **A deadlock** of the threads in `S`: each wants a mutex that one of them
holds. -/
def Deadlocked (locks : LockTable μ τ) (wants : τ → Option μ) (S : Set τ) : Prop :=
  S.Nonempty ∧ ∀ t ∈ S, ∃ m, wants t = some m ∧ ∃ u ∈ S, locks m = some u

variable [DecidableEq μ]

/-- **What one step of the thread `t` does to the mutexes**: from a table and
what its code holds to the table and what its code holds afterwards. -/
inductive Move (t : τ) (locks : LockTable μ τ) :
    Option μ → LockTable μ τ → Option μ → Prop where
  /-- Neither locks nor unlocks. -/
  | keep (h : Option μ) : Move t locks h locks h
  /-- Locks a free mutex. -/
  | lock (m : μ) (hfree : locks m = none) :
      Move t locks none (Function.update locks m (some t)) (some m)
  /-- Unlocks the mutex it holds. -/
  | unlock (m : μ) : Move t locks (some m) (Function.update locks m none) none

section Holding

omit [DecidableEq μ]

variable {locks : LockTable μ τ} {held : τ → Option μ}

/-- No two threads are inside one critical section. -/
theorem Agrees.unique (h : Agrees locks held) {m : μ} {t u : τ} (ht : held t = some m)
    (hu : held u = some m) : t = u :=
  Option.some.inj (((h m t).mpr ht).symm.trans ((h m u).mpr hu))

/-- A thread whose code holds no mutex has none in the table. -/
theorem Agrees.ne_some (h : Agrees locks held) {t : τ} (ht : held t = none) (m : μ) :
    locks m ≠ some t := by
  rw [ne_eq, h m t, ht]
  exact nofun

/-- Code that holds at most one mutex at a time has at most one in the
table. -/
theorem Agrees.eq_of_holds (h : Agrees locks held) {t : τ} {m m' : μ} (hm : locks m = some t)
    (hm' : locks m' = some t) : m = m' :=
  Option.some.inj (((h m t).mp hm).symm.trans ((h m' t).mp hm'))

/-- **No deadlock without holding while waiting.** -/
theorem Agrees.not_deadlocked (h : Agrees locks held) {wants : τ → Option μ}
    (hwants : ∀ t m, wants t = some m → held t = none) (S : Set τ) :
    ¬ Deadlocked locks wants S := by
  rintro ⟨⟨t, ht⟩, hall⟩
  obtain ⟨m, -, u, hu, hholds⟩ := hall t ht
  obtain ⟨m', hwant, -⟩ := hall u hu
  exact h.ne_some (hwants u m' hwant) m hholds

end Holding

/-- **Table and code stay in agreement** under a step of one thread. -/
theorem Agrees.move [DecidableEq τ] {locks locks' : LockTable μ τ}
    {held held' : τ → Option μ} {t : τ} (h : Agrees locks held)
    (hothers : ∀ u, u ≠ t → held' u = held u)
    (hm : Move t locks (held t) locks' (held' t)) : Agrees locks' held' := by
  generalize hb : held t = before at hm
  generalize ha : held' t = after at hm
  intro m u
  cases hm with
  | keep =>
    by_cases hu : u = t
    · rw [hu, ha, ← hb]
      exact h m t
    · rw [hothers u hu]
      exact h m u
  | lock m' hfree =>
    by_cases hm : m = m'
    · subst hm
      rw [Function.update_self]
      by_cases hu : u = t
      · rw [hu, ha]
        simp
      · rw [hothers u hu]
        have := h m u
        rw [hfree] at this
        simpa [Ne.symm hu] using this
    · rw [Function.update_of_ne hm]
      by_cases hu : u = t
      · have := h m t
        rw [hb] at this
        rw [hu, ha]
        simpa [Ne.symm hm] using this
      · rw [hothers u hu]
        exact h m u
  | unlock m' =>
    by_cases hm : m = m'
    · subst hm
      rw [Function.update_self]
      by_cases hu : u = t
      · rw [hu, ha]
        simp
      · have hne : held u ≠ some m := fun hc => hu (h.unique hc hb)
        rw [hothers u hu]
        simpa using hne
    · rw [Function.update_of_ne hm]
      by_cases hu : u = t
      · have := h m t
        rw [hb] at this
        rw [hu, ha]
        simpa [Ne.symm hm] using this
      · rw [hothers u hu]
        exact h m u

end LockTable
