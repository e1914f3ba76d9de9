import NetUtils.HandleStep

/-!
# Taking from the queue

The write thread of an echo handler takes the front of `mMessageQueue` without
looking at it: the test was made before, at the wait. The IPv4 handler waits
with a predicate, so that behind the wait the queue has been found non-empty
under the mutex, and stays so: only the write thread pops. The IPv6 handler
tests once and waits once. Woken it goes on, whatever woke it – a spurious
wake-up, or the notification of a message that it has taken already: the read
thread notifies behind its unlock, and the write thread may have come for the
message in between.

`takes_from_nonempty` says that being woken to an empty queue, while the
connection has not ended, is the only way to it, and `takes_nothing_of_step`
that it always is one.
-/

open Transfer

variable {w : ℕ}

namespace ThreadsClientHandle

/-- **What is taken is there**: at `mMessageQueue.front()` the queue is not
empty. -/
def TakesMessage (s : ThreadsClientHandle w) : Prop :=
  s.writer = .takeFront → s.mMessageQueue ≠ []

/-- The IPv6 write thread is about to leave its wait, with nothing queued and
the connection not marked as ended. -/
def WokenToNothing (s : ThreadsClientHandle w) : Prop :=
  s.type = .IPV6ThreadsClientHandle ∧ s.writer = .notified ∧ s.mMessageQueue = []
    ∧ s.mClientFd ≠ INVALID_FD

/-- The condition on a step: the write thread is not woken to nothing. -/
def WokenToMessage (s : ThreadsClientHandle w) (a : Action) : Prop :=
  a = .writer → ¬ s.WokenToNothing

instance (s : ThreadsClientHandle w) : Decidable s.WokenToNothing :=
  inferInstanceAs (Decidable (_ ∧ _ ∧ _ ∧ _))

instance : DecidableRel (WokenToMessage : ThreadsClientHandle w → Action → Prop) :=
  fun s a => inferInstanceAs (Decidable (a = .writer → ¬ s.WokenToNothing))

section Invariants

variable {s s' : ThreadsClientHandle w} {a : Action} {es : List (Event w)}
variable {type : HandleType} {fd : ℤ}

/-- **What the write thread knows of the queue** past its wait. -/
structure KnowsQueue (s : ThreadsClientHandle w) : Prop where
  /-- Where it looks at `mClientFd`, there is a message or the connection has
  ended. -/
  checkFd : s.writer = .checkFd → s.mMessageQueue ≠ [] ∨ s.mClientFd = INVALID_FD
  /-- Where it takes the front, there is one. -/
  takeFront : s.TakesMessage

/-- A step of the write thread to a place where it needs to know nothing. -/
theorem KnowsQueue.of_elsewhere (hc : s.writer ≠ .checkFd) (ht : s.writer ≠ .takeFront) :
    KnowsQueue s where
  checkFd := fun h => absurd h hc
  takeFront := fun h => absurd h ht

theorem elsewhere_inSend (type : HandleType) (send_msg : Buffer w UInt8) (phase : Phase w) :
    inSend type send_msg phase ≠ .checkFd ∧ inSend type send_msg phase ≠ .takeFront :=
  inSend_cases (P := fun pc => pc ≠ .checkFd ∧ pc ≠ .takeFront) type send_msg phase
    (fun _ => ⟨nofun, nofun⟩) ⟨nofun, nofun⟩ ⟨nofun, nofun⟩ ⟨nofun, nofun⟩

theorem KnowsQueue.notifyOne (hi : KnowsQueue s) : KnowsQueue s.notifyOne where
  checkFd := fun h => hi.checkFd (by simpa using h)
  takeFront := fun h => hi.takeFront (by simpa using h)

theorem KnowsQueue.step (h : Step s a s' es) (hok : WokenToMessage s a) (hi : KnowsQueue s) :
    KnowsQueue s' := by
  cases h with
  | readPush =>
    -- the queue only grows
    exact ⟨fun _ => .inl (List.append_ne_nil_of_right_ne_nil _ (List.cons_ne_nil _ _)),
      fun _ => List.append_ne_nil_of_right_ne_nil _ (List.cons_ne_nil _ _)⟩
  | readStore => exact ⟨fun _ => .inr rfl, hi.takeFront⟩
  | readNotify => exact ⟨hi.notifyOne.checkFd, hi.notifyOne.takeFront⟩
  | readNotifyEnd => exact ⟨hi.notifyOne.checkFd, hi.notifyOne.takeFront⟩
  | writeWake => exact hi.notifyOne
  | writeNonempty _ hqueue => exact ⟨fun _ => .inl hqueue, nofun⟩
  | writeRelockIPV6 hpc _ htype =>
    refine ⟨fun _ => ?_, nofun⟩
    by_contra hnothing
    obtain ⟨hqueue, hfd⟩ := not_or.mp hnothing
    exact hok rfl ⟨htype, hpc, not_not.mp hqueue, hfd⟩
  | writeValid hpc hfd =>
    exact ⟨nofun, fun _ => (hi.checkFd hpc).resolve_right hfd⟩
  | writeUnlock => exact .of_elsewhere (elsewhere_inSend _ _ _).1 (elsewhere_inSend _ _ _).2
  | writeSend => exact .of_elsewhere (elsewhere_inSend _ _ _).1 (elsewhere_inSend _ _ _).2
  | _ =>
    first
    | exact ⟨hi.checkFd, hi.takeFront⟩
    | exact .of_elsewhere nofun nofun

/-! ## Along a run -/

theorem knowsQueue_of_run (h : (machine w).Run WokenToMessage (init type fd) es s) :
    KnowsQueue s :=
  h.stateInvariant (.of_elsewhere nofun nofun) (fun hi hok hs => hi.step (Step.of_step hs) hok)

/-- The IPv4 write thread is never woken to nothing. -/
theorem wokenToMessage_of_run
    (h : (machine w).Run Machine.always (init .IPV4ThreadsClientHandle fd) es s) :
    (machine w).Run WokenToMessage (init .IPV4ThreadsClientHandle fd) es s := by
  induction h with
  | start => exact .start
  | snoc hrun _ hs ih =>
    refine ih.snoc (fun _ hnothing => ?_) hs
    cases (type_client_of_run hrun).1.symm.trans hnothing.1

/-- **The echo writers take from a non-empty queue**: the IPv4 handler in every
run, and the IPv6 handler in every run in which its write thread is not woken
to an empty queue before the connection has ended. -/
theorem takes_from_nonempty :
    (∀ fd es (s : ThreadsClientHandle w),
      (machine w).Run Machine.always (init .IPV4ThreadsClientHandle fd) es s → s.TakesMessage)
    ∧ ∀ fd es (s : ThreadsClientHandle w),
      (machine w).Run WokenToMessage (init .IPV6ThreadsClientHandle fd) es s → s.TakesMessage :=
  ⟨fun _ _ _ h => (knowsQueue_of_run (wokenToMessage_of_run h)).takeFront,
    fun _ _ _ h => (knowsQueue_of_run h).takeFront⟩

/-- **A write thread woken to nothing takes from the empty queue**, if the read
thread does not come in between. -/
theorem takes_nothing_of_step (hnothing : s.WokenToNothing) (hfree : s.mMutex = none) :
    ∃ s', (machine w).Run Machine.always s [] s' ∧ ¬ s'.TakesMessage := by
  obtain ⟨htype, hpc, hqueue, hfd⟩ := hnothing
  have hrelock : (machine w).step s .writer
      = some ({ s with mMutex := some .threadHandleWrite, writer := .checkFd }, []) := by
    simp only [machine, step, stepWriter, hpc, htype, lock, if_pos hfree]
  have hcheck : (machine w).step { s with mMutex := some .threadHandleWrite, writer := .checkFd }
      .writer = some ({ s with mMutex := some .threadHandleWrite, writer := .takeFront }, []) := by
    simp only [machine, step, stepWriter, if_neg hfd]
  refine ⟨_, (Machine.Run.single trivial hrelock).snoc trivial hcheck, ?_⟩
  exact fun htakes => htakes rfl hqueue

end Invariants

/-! ## A message and its late notification -/

/-- One byte is received and pushed, and the write thread comes for it before
it is notified. -/
def takenUnnotified : List Action :=
  [.doWork, .doWork, .reader, .recv (.got [97]) []] ++ List.replicate 3 .reader
    ++ List.replicate 6 .writer ++ [.send (.count 1)]

/-- Each handler comes to take a message. -/
theorem takes_from_nonempty_oneMessage :
    (∃ es s, (machine 64).Run Machine.always (init .IPV4ThreadsClientHandle 5) es s
      ∧ s.writer = .takeFront ∧ s.TakesMessage)
    ∧ ∃ es s, (machine 64).Run WokenToMessage (init .IPV6ThreadsClientHandle 5) es s
      ∧ s.writer = .takeFront ∧ s.TakesMessage := by
  constructor
  · obtain ⟨es, s, hrun, hpc⟩ : ∃ es s,
        (machine 64).Run Machine.always (init .IPV4ThreadsClientHandle 5) es s
        ∧ s.writer = .takeFront :=
      Machine.Run.exists_of_exec (takenUnnotified.take 10) (by decide +kernel)
    exact ⟨es, s, hrun, hpc, takes_from_nonempty.1 5 es s hrun⟩
  · obtain ⟨es, s, hrun, hpc⟩ : ∃ es s,
        (machine 64).Run WokenToMessage (init .IPV6ThreadsClientHandle 5) es s
        ∧ s.writer = .takeFront :=
      Machine.Run.exists_of_exec (takenUnnotified.take 10) (by decide +kernel)
    exact ⟨es, s, hrun, hpc, takes_from_nonempty.2 5 es s hrun⟩

/-- **The IPv6 write thread takes from an empty queue.** It has sent the one
message and waits for the next, when it is notified of the one it has taken. -/
theorem takes_from_empty :
    ∃ es s, (machine 64).Run Machine.always (init .IPV6ThreadsClientHandle 5) es s
      ∧ s.writer = .takeFront ∧ s.mMessageQueue = [] ∧ ¬ s.TakesMessage := by
  obtain ⟨es, s, hrun, hpc, hqueue⟩ : ∃ es s,
      (machine 64).Run Machine.always (init .IPV6ThreadsClientHandle 5) es s
      ∧ s.writer = .takeFront ∧ s.mMessageQueue = [] := by
    refine Machine.Run.exists_of_exec
      (takenUnnotified ++ List.replicate 3 .writer ++ [.reader] ++ List.replicate 2 .writer) ?_
    decide +kernel
  exact ⟨es, s, hrun, hpc, hqueue, fun htakes => htakes hpc hqueue⟩

end ThreadsClientHandle
