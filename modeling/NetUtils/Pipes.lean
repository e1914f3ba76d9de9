import NetUtils.Transition
import Mathlib.Logic.Function.Basic

/-!
# What an echo service is

A pipe for each of its clients: what is put in at one end is taken out at the
other, in the order in which it was put in, and nothing else is. The pipes are a
machine of their own, whose actions are what can be observed of it. A machine
that refines it cannot lose, repeat or reorder anything, nor give to one client
what belongs to another (`Pipes.balance`).
-/

variable {ι β : Type}

/-- What is done to a pipe. -/
inductive Pipes.Event (ι β : Type) where
  /-- `xs` is put into the pipe `i`. -/
  | put (i : ι) (xs : List β)
  /-- `xs` is taken out of it. -/
  | take (i : ι) (xs : List β)

namespace Pipes

/-- What is put into the pipe `i` by an event. -/
def Event.given [DecidableEq ι] (i : ι) : Event ι β → List β
  | put j xs => if j = i then xs else []
  | take _ _ => []

/-- What is taken out of it. -/
def Event.taken [DecidableEq ι] (i : ι) : Event ι β → List β
  | put _ _ => []
  | take j xs => if j = i then xs else []

variable [DecidableEq ι]

/-- What has been put into the pipe `i`, in order. -/
def given (i : ι) (es : List (Event ι β)) : List β := es.flatMap (·.given i)

/-- What has been taken out of it, in order. -/
def taken (i : ι) (es : List (Event ι β)) : List β := es.flatMap (·.taken i)

@[simp] theorem given_nil (i : ι) : given i ([] : List (Event ι β)) = [] := rfl

@[simp] theorem taken_nil (i : ι) : taken i ([] : List (Event ι β)) = [] := rfl

@[simp] theorem given_singleton (i : ι) (e : Event ι β) : given i [e] = e.given i :=
  List.append_nil _

@[simp] theorem taken_singleton (i : ι) (e : Event ι β) : taken i [e] = e.taken i :=
  List.append_nil _

theorem given_append (i : ι) (es es' : List (Event ι β)) :
    given i (es ++ es') = given i es ++ given i es' := List.flatMap_append

theorem taken_append (i : ι) (es es' : List (Event ι β)) :
    taken i (es ++ es') = taken i es ++ taken i es' := List.flatMap_append

variable [DecidableEq β]

/-- The pipes as a machine, with what is in each of them. What is taken out is
what is at the front. -/
def machine (ι β : Type) [DecidableEq ι] [DecidableEq β] :
    Machine (ι → List β) (Event ι β) (Event ι β) where
  step s e :=
    match e with
    | .put i xs => some (Function.update s i (s i ++ xs), [.put i xs])
    | .take i xs =>
      if xs <+: s i then some (Function.update s i ((s i).drop xs.length), [.take i xs]) else none

/-- The pipes at the start. -/
def empty : ι → List β := fun _ => []

variable {s s' : ι → List β} {es : List (Event ι β)}

/-- Something can always be put in. -/
theorem run_put (s : ι → List β) (i : ι) (xs : List β) :
    (machine ι β).Run Machine.always s [.put i xs] (Function.update s i (s i ++ xs)) := by
  have hstep : (machine ι β).step s (.put i xs)
      = some (Function.update s i (s i ++ xs), [.put i xs]) := rfl
  exact .single trivial hstep

/-- What is at the front can be taken out. -/
theorem run_take {i : ι} {xs rest : List β} (h : s i = xs ++ rest) :
    (machine ι β).Run Machine.always s [.take i xs] (Function.update s i rest) := by
  have hstep : (machine ι β).step s (.take i xs)
      = some (Function.update s i rest, [.take i xs]) := by
    simp only [machine, h, List.prefix_append, if_true, List.drop_left]
  exact .single trivial hstep

/-- **The balance of a pipe**: what has been put in is what has been taken out,
and what is still in it. -/
theorem balance (h : (machine ι β).Run Machine.always empty es s) (i : ι) :
    given i es = taken i es ++ s i := by
  refine h.invariant (I := fun es s => given i es = taken i es ++ s i) rfl ?_
  intro es s a s' es' _ hi _ hs
  rw [given_append, taken_append, hi, List.append_assoc, List.append_assoc]
  refine congrArg (taken i es ++ ·) ?_
  cases a with
  | put j xs =>
    cases hs
    by_cases hij : j = i
    · subst hij
      simp [Event.given, Event.taken]
    · simp [Event.given, Event.taken, hij, Function.update_of_ne (Ne.symm hij)]
  | take j xs =>
    simp only [machine] at hs
    split at hs
    case isTrue hfront =>
      cases hs
      by_cases hij : j = i
      · subst hij
        simp [Event.given, Event.taken, List.prefix_iff_eq_append.mp hfront]
      · simp [Event.given, Event.taken, hij, Function.update_of_ne (Ne.symm hij)]
    case isFalse => cases hs

/-- **What the pipes can do next**: anything that leaves what has been taken out
of each of them the beginning of what has been put in. -/
theorem run_event (h : (machine ι β).Run Machine.always empty es s) (e : Event ι β)
    (hfifo : ∀ i, taken i (es ++ [e]) <+: given i (es ++ [e])) :
    ∃ s', (machine ι β).Run Machine.always s [e] s' := by
  cases e with
  | put i xs => exact ⟨_, run_put s i xs⟩
  | take i xs =>
    have htaken : taken i (es ++ [.take i xs]) = taken i es ++ xs := by
      simp [taken_append, Event.taken]
    have hgiven : given i (es ++ [.take i xs]) = taken i es ++ s i := by
      rw [← balance h i, given_append]
      exact List.append_nil _
    have hfront : taken i es ++ xs <+: taken i es ++ s i := htaken ▸ hgiven ▸ hfifo i
    obtain ⟨rest, hrest⟩ := (List.prefix_append_right_inj _).mp hfront
    exact ⟨_, run_take hrest.symm⟩

end Pipes
