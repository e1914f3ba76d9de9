import NetUtils.WorkerCompletes
import NetUtils.WorkerWakeup

/-!
# A published response is delivered

What publishers store in `mResponse` is what goes through a mailbox
(`NetUtils.WorkerPublish`): of several responses stored before the write thread
copies one, the newest is left. This module says that the newest is sent. It puts
together what the modules before it have: a write thread whose flag is set is not
left asleep, if no `enableWriteEvent()` has found it asleep (`NetUtils.WorkerWakeup`),
and a worker that serves its client comes to rest (`NetUtils.WorkerCompletes`). At
rest nothing is requested of the mailbox any more, and so what was stored last has
been handed to `send_bytes`.
-/

open Transfer

variable {w : ℕ} {β : Type}

namespace ThreadsTcpBroWorker

section Delivery

variable {s s' : ThreadsTcpBroWorker w β} {a : Action w β} {es es' : List (Event w β)}
variable {context : SocketContext w β}

/-- The condition on a step: it is one of a worker whose callers publish, and no
enabling call finds the thread it enables asleep. -/
def PublishingAwake (s : ThreadsTcpBroWorker w β) (a : Action w β) : Prop :=
  Publishing s a ∧ EnablesAwake s a

instance [DecidableEq β] :
    DecidableRel (PublishingAwake : ThreadsTcpBroWorker w β → Action w β → Prop) :=
  fun _ _ => inferInstanceAs (Decidable (_ ∧ _))

/-! ## After the publishers -/

/-- Where nobody calls, nobody is enabled. -/
theorem Idle.enablesAwake (hi : Idle s) (a : Action w β) : EnablesAwake s a := by
  cases a with
  | caller i =>
    rw [EnablesAwake, hi i]
    trivial
  | _ => trivial

/-- Nor is a response stored. -/
theorem Step.stores_eq_nil (h : Step s a s' es) (hi : Idle s) :
    Mailbox.stores (mailboxHistory es) = [] := by
  cases h with
  | callBody hpc => cases (hi _).symm.trans hpc
  | _ => rfl

theorem mClientFd_of_run (htype : context.type = .IPV4SocketContext)
    (h : (machine w β).Run Publishing (init context) es s) :
    s.mContext.mClientFd = context.mClientFd := by
  refine h.invariant (I := fun _ s => s.mContext.mClientFd = context.mClientFd) rfl ?_
  intro es s a s' es' hrun hi hok hs
  exact ((Step.of_step hs).mClientFd_eq (staysOpen_of_run htype hrun)).trans hi

/-- Once the publishers' calls have returned the worker serves its client. -/
theorem serving_of_publishing (htype : context.type = .IPV4SocketContext)
    (hfd : context.mClientFd ≠ INVALID_FD)
    (h : (machine w β).Run Publishing (init context) es s) (hcallers : Idle s) : Serving s where
  isOpen := staysOpen_of_run htype h
  mClientFd := by
    rw [mClientFd_of_run htype h]
    exact hfd
  callers := hcallers

/-- An undisturbed run goes on with the run of the publishers, and nothing more is
stored. -/
theorem publishing_of_undisturbed (htype : context.type = .IPV4SocketContext)
    (hrun : (machine w β).Run PublishingAwake (init context) es s) (hi : Serving s)
    (h : (machine w β).Run Undisturbed s es' s') :
    (machine w β).Run PublishingAwake (init context) (es ++ es') s' ∧ Serving s'
      ∧ Mailbox.stores (mailboxHistory es') = [] := by
  refine h.invariant (I := fun es' s' =>
    (machine w β).Run PublishingAwake (init context) (es ++ es') s' ∧ Serving s'
      ∧ Mailbox.stores (mailboxHistory es') = []) ⟨by rwa [List.append_nil], hi, rfl⟩ ?_
  rintro es₁ s₁ a s₂ es₂ - ⟨hrun, hi, hstores⟩ hok hs
  have hstep := Step.of_step hs
  have hinside := sendsInside_of_run hrun.free
  have hipv4 := (type_of_run hrun).trans htype
  refine ⟨?_, hi.step hstep hok hipv4 hinside, ?_⟩
  · rw [← List.append_assoc]
    exact hrun.snoc ⟨hstep.publishing hok hinside, hi.callers.enablesAwake a⟩ hs
  · rw [mailboxHistory, List.filterMap_append, Mailbox.stores, List.filterMap_append]
    exact List.append_eq_nil_iff.mpr ⟨hstores, hstep.stores_eq_nil hi.callers⟩

/-- **At rest nothing is requested**, where the write thread has not been left
asleep. -/
theorem AtRest.not_requested (hrest : s.AtRest) (hi : Serving s) (hwake : AboutToNotify s) :
    ¬ s.Requested := by
  rintro (hflag | hcopy | ⟨i, hstored⟩)
  · have henabling := hwake.write hflag hrest.2
    have hloop := hi.isOpen.reader
    cases hpc : s.reader with
    | exit e => rw [hpc] at hloop; cases hloop
    | _ => rw [hpc] at henabling; cases henabling
  · rw [hrest.2] at hcopy
    cases hcopy
  · rw [hi.callers i] at hstored
    cases hstored

end Delivery

/-- **What publishing delivers.** While the connection of an accepted client stays
open and `send_bytes` does not fail, the responses that publishers store are those
of a mailbox, in every run. And if no enabling call has found its thread asleep, the
newest of them is not lost: once the publishers' calls have returned, the worker
comes to rest on every undisturbed schedule, and there the response stored last is
the one handed to `send_bytes` last. -/
theorem published_delivers {context : SocketContext w β}
    (htype : context.type = .IPV4SocketContext) (hfd : context.mClientFd ≠ INVALID_FD) :
    (∀ es s, (machine w β).Run Publishing (init context) es s →
        s.mailbox.Delivers (mailboxHistory es))
      ∧ ∀ es s, (machine w β).Run PublishingAwake (init context) es s → Idle s →
        (machine w β).Inevitable Undisturbed AtRest s
          ∧ ∀ es' s', (machine w β).Run Undisturbed s es' s' → s'.AtRest →
            (Mailbox.handed (mailboxHistory (es ++ es'))).getLast?
              = (Mailbox.stores (mailboxHistory es)).getLast? := by
  refine ⟨fun _ _ h => delivers_of_run htype h, fun es s h hcallers => ?_⟩
  have hserving := serving_of_publishing htype hfd (h.mono fun _ _ hok => hok.1) hcallers
  refine ⟨inevitable_atRest htype h.free hserving, fun es' s' h' hrest => ?_⟩
  obtain ⟨hrun, hserving', hstores⟩ := publishing_of_undisturbed htype h hserving h'
  have hdelivers := delivers_of_run htype (hrun.mono fun _ _ hok => hok.1)
  have hwake := aboutToNotify_of_run (hrun.mono fun _ _ hok => hok.2)
  have hhand : s'.mailbox.inHand = none := by
    rw [mailbox, hrest.2]
    rfl
  have hsame : Mailbox.stores (mailboxHistory (es ++ es'))
      = Mailbox.stores (mailboxHistory es) := by
    rw [mailboxHistory, List.filterMap_append, Mailbox.stores, List.filterMap_append]
    exact (congrArg _ hstores).trans (List.append_nil _)
  rw [hdelivers.last_handed (hrest.not_requested hserving' hwake) hhand, hsame]

/-- One response has been published, before the write thread has come to its wait,
and is delivered. -/
theorem published_delivers_one :
    ∃ es s, (machine 64 ℕ).Run PublishingAwake (init aClient) es s
      ∧ s.mailbox.Delivers (mailboxHistory es)
      ∧ (machine 64 ℕ).Inevitable Undisturbed AtRest s
      ∧ ∃ es' s', (machine 64 ℕ).Run Undisturbed s es' s' ∧ s'.AtRest
        ∧ (Mailbox.handed (mailboxHistory (es ++ es'))).getLast? = some (oneByte 7) := by
  obtain ⟨es, s, hrun, hcallers, hstores, es', s', hgoes, hrest⟩ :
      ∃ es s, (machine 64 ℕ).Run PublishingAwake (init aClient) es s ∧ Idle s
        ∧ (Mailbox.stores (mailboxHistory es)).getLast? = some (oneByte 7)
        ∧ ∃ es' s', (machine 64 ℕ).Run Undisturbed s es' s' ∧ s'.AtRest :=
    ⟨_, _, Machine.Run.of_exec (times 4 .doWork ++ publish 7) rfl,
      fun i => by cases i <;> rfl, rfl, _, _,
      Machine.Run.of_exec (times 6 .reader ++ sendOne ++ times 4 .writer) rfl, ⟨rfl, rfl⟩⟩
  obtain ⟨hdelivers, hnewest⟩ := @published_delivers 64 ℕ aClient rfl (by decide)
  obtain ⟨hinevitable, hlast⟩ := hnewest es s hrun hcallers
  exact ⟨es, s, hrun, hdelivers es s (hrun.mono fun _ _ hok => hok.1), hinevitable, es', s',
    hgoes, hrest, (hlast es' s' hgoes hrest).trans hstores⟩

end ThreadsTcpBroWorker
