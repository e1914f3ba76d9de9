import NetUtils.Ipv6Service
import NetUtils.WorkerPublish

/-!
# The end of the write thread and the read thread

The write thread's scope-exit handler is the mirror of the read thread's: it
closes the descriptor, sets `mIsReadEnabled`, requests an interruption and
notifies `mReadCond`. It meets a thread that can be blocked in two places,
and misses it in either.

In `recv` the read thread is not reached at all. It has loaded the descriptor
already, the interruption is looked at only at the interruption point, and a
`close` in one thread does not wake a `recv` in another: with a silent peer
it stays there. At its pause the read thread is woken, but it leaves the wait
only if it finds the flag set, and a `disbaleReadEvent()` after the handler
has set it takes that away; nobody will set it again.

`reader_not_left_blocked` says that these are the only two ways: along every
run in which the write thread does not close the descriptor under a `recv`,
and the read thread does not come to test a flag cleared after the handler
has set it (`EndsInTime`), it is not left blocked. A step that breaks the
condition can always be continued to where it is (`leftBlocked_of_step`).
-/

open Transfer

variable {w : ℕ} {β : Type}

/-- The read thread is in `recv` on a descriptor. -/
def ReadPc.inRecv : ReadPc β → Bool
  | recv fd => decide (fd ≠ INVALID_FD)
  | _ => false

/-- The write thread's handler has set `mIsReadEnabled`. -/
def WritePc.hasEnabled : WritePc w β → Bool
  | exit e => e.hasEnabled
  | returned => true
  | _ => false

namespace ThreadsTcpBroWorker

/-- **The read thread is left blocked.** The write thread has finished, and
the read thread is paused with its flag `false`, or in a `recv` entered before
the descriptor was closed. -/
def LeftBlocked (s : ThreadsTcpBroWorker w β) : Prop :=
  s.writer = .returned
    ∧ ((s.reader = .waiting ∧ s.mIsReadEnabled = false) ∨ s.reader.inRecv = true)

/-- The write thread is about to close the descriptor, and the read thread is
in `recv`. -/
def ClosesUnderRecv (s : ThreadsTcpBroWorker w β) : Prop :=
  s.writer = .exit .close ∧ s.reader.inRecv = true

/-- The read thread is about to find its flag `false` after the write
thread's handler has set it. -/
def TestsTooLate (s : ThreadsTcpBroWorker w β) : Prop :=
  s.reader = .testEnabled ∧ s.mIsReadEnabled = false ∧ s.writer.hasEnabled = true

/-- The condition on a step: it is neither the closing of the descriptor under
a `recv`, nor the test of a flag cleared too late. -/
def EndsInTime (s : ThreadsTcpBroWorker w β) (a : Action w β) : Prop :=
  (a.thread = some .sendThread → ¬ s.ClosesUnderRecv)
    ∧ (a.thread = some .recvThread → ¬ s.TestsTooLate)

instance [DecidableEq β] (s : ThreadsTcpBroWorker w β) : Decidable s.LeftBlocked :=
  inferInstanceAs (Decidable (_ ∧ (_ ∨ _)))

instance [DecidableEq β] (s : ThreadsTcpBroWorker w β) : Decidable s.ClosesUnderRecv :=
  inferInstanceAs (Decidable (_ ∧ _))

instance [DecidableEq β] (s : ThreadsTcpBroWorker w β) : Decidable s.TestsTooLate :=
  inferInstanceAs (Decidable (_ ∧ _ ∧ _))

instance [DecidableEq β] :
    DecidableRel (EndsInTime : ThreadsTcpBroWorker w β → Action w β → Prop) :=
  fun s _ => inferInstanceAs (Decidable ((_ → ¬ s.ClosesUnderRecv) ∧ (_ → ¬ s.TestsTooLate)))

section Invariants

variable {s s' : ThreadsTcpBroWorker w β} {a : Action w β} {es : List (Event w β)}
variable {context : SocketContext w β}

@[simp] theorem inRecv_notify (pc : ReadPc β) : pc.notify.inRecv = pc.inRecv :=
  apply_notify_read ReadPc.inRecv rfl pc

@[simp] theorem inRecv_afterRecv (answer : Received β) : (afterRecv answer).inRecv = false :=
  afterRecv_cases (P := fun pc => pc.inRecv = false) answer rfl rfl fun _ => rfl

@[simp] theorem hasEnabled_notify_write (pc : WritePc w β) :
    pc.notify.hasEnabled = pc.hasEnabled :=
  apply_notify_write WritePc.hasEnabled rfl pc

@[simp] theorem hasEnabled_inSendBytes (fd : ℤ) (response : Buffer w β) (phase : Phase w) :
    (inSendBytes fd response phase).hasEnabled = false :=
  inSendBytes_cases (P := fun pc => pc.hasEnabled = false) fd response phase
    (fun _ => rfl) rfl rfl

/-- **What each part of the handler leaves behind**, in a run that keeps the
condition: after the `close` no `recv` on the descriptor, after the flag is
set no thread about to wait, and after the notification none that waits. -/
structure Unblocks (s : ThreadsTcpBroWorker w β) : Prop where
  recv : s.writer.closed = true → s.reader.inRecv = false
  enterWait : s.writer.hasEnabled = true → s.reader ≠ .enterWait
  waiting : s.writer = .returned → s.reader ≠ .waiting

theorem Unblocks.step (h : Step s a s' es) (hl : LockTable.Agrees s.locks s.held)
    (hv : LeavesInvalid s) (hok : EndsInTime s a) (hi : Unblocks s) : Unblocks s' := by
  obtain ⟨hr, he, hw⟩ := hi
  cases h with
  | writeCastIPV6 _ hipv6 => cases hv.type.symm.trans hipv6
  | readLoadFd =>
    -- what it loads has been invalidated
    refine ⟨fun hclosed => ?_, fun _ => nofun, fun _ => nofun⟩
    simp [ReadPc.inRecv, hv.writer hclosed]
  | readDisabled hpc hflag =>
    refine ⟨fun _ => rfl, fun hset => ?_, fun _ => nofun⟩
    exact absurd ⟨hpc, hflag, hset⟩ (hok.2 rfl)
  | readWait hpc =>
    refine ⟨fun _ => rfl, fun _ => nofun, fun hdone => ?_⟩
    exact absurd hpc (he (by rw [show s.writer = .returned from hdone]; rfl))
  | writeExitClose hpc =>
    refine ⟨fun _ => ?_, nofun, nofun⟩
    by_contra hrecv
    exact hok.1 rfl ⟨hpc, Bool.of_not_eq_false hrecv⟩
  | writeExitEnable hpc =>
    -- the mutex it has locked is the one a thread about to wait holds
    refine ⟨fun _ => hr (by rw [hpc]; rfl), fun _ (hwait : s.reader = .enterWait) => ?_, nofun⟩
    cases hl.unique (held_writer hpc) (held_reader hwait)
  | writeExitNotify hpc =>
    refine ⟨fun _ => ?_, fun _ => ?_, fun _ => notify_read_ne_waiting _⟩
    · simpa using hr (by rw [hpc]; rfl)
    · simpa using he (by rw [hpc]; rfl)
  | readRecv => exact ⟨fun _ => by simp, fun _ => by simp, fun _ => by simp⟩
  | readWake hpc =>
    exact ⟨fun _ => by simp [hpc, ReadPc.inRecv], fun _ => by simp [hpc],
      fun _ => notify_read_ne_waiting _⟩
  | writeCallSend => exact ⟨by simp, by simp, by simp⟩
  | writeSend => exact ⟨by simp, by simp, by simp⟩
  | writeWake => exact ⟨by simpa using hr, by simpa using he, by simpa using hw⟩
  | readExitNotify => exact ⟨fun _ => rfl, fun _ => nofun, fun _ => nofun⟩
  | callBody => exact ⟨by simpa using hr, by simpa using he, by simpa using hw⟩
  | _ =>
    first
    | exact ⟨hr, he, hw⟩
    | exact ⟨fun _ => rfl, by rintro _ ⟨⟩, by rintro _ ⟨⟩⟩
    | exact ⟨fun hc => absurd hc Bool.false_ne_true, fun hc => absurd hc Bool.false_ne_true,
        by rintro ⟨⟩⟩
    | exact ⟨fun _ => hr (by rw [‹s.writer = _›]; rfl), fun hc => absurd hc Bool.false_ne_true,
        by rintro ⟨⟩⟩
    | exact ⟨fun _ => hr (by rw [‹s.writer = _›]; rfl),
        fun _ => he (by rw [‹s.writer = _›]; rfl), by rintro ⟨⟩⟩

theorem unblocks_of_run (htype : context.type = .IPV4SocketContext)
    (h : (machine w β).Run EndsInTime (init context) es s) : Unblocks s :=
  h.invariant (I := fun _ s => Unblocks s)
    ⟨by rintro ⟨⟩, by rintro ⟨⟩, by rintro ⟨⟩⟩
    (fun hrun hi hok hs => hi.step (Step.of_step hs) (agrees_of_run hrun)
      (leavesInvalid_of_run htype hrun) hok)

end Invariants

/-- **The end of the write thread leaves no read thread blocked** along every
run in which it ends in time. -/
theorem reader_not_left_blocked {context : SocketContext w β} {es : List (Event w β)}
    {s : ThreadsTcpBroWorker w β} (h : (machine w β).Run EndsInTime (init context) es s) :
    ¬ s.LeftBlocked := by
  rintro ⟨hdone, hblocked⟩
  cases htype : context.type with
  | IPV4SocketContext =>
    have hi := unblocks_of_run htype h
    rcases hblocked with ⟨hwait, -⟩ | hrecv
    · exact hi.waiting hdone hwait
    · rw [hi.recv (by rw [hdone]; rfl)] at hrecv
      cases hrecv
  | IPV6SocketContext =>
    -- such a worker has left before it could block
    rcases (unserved_of_run htype h).reader with hpc | hpc | hpc <;>
      · rw [hpc] at hblocked
        rcases hblocked with ⟨⟨⟩, -⟩ | ⟨⟨⟩⟩

/-- A response is published, and the write thread comes to its exit handler
because a `send` answers 0. -/
def giveUp : List (Action 64 ℕ) :=
  times 4 .doWork ++ publish 7 ++ times 10 .writer ++ [.send (.count 0)]

/-- The write thread ends while the read thread stands at its interruption
point, and the read thread follows. -/
theorem reader_not_left_blocked_giveUp :
    ∃ es s, (machine 64 ℕ).Run EndsInTime (init aClient) es s
      ∧ s.writer = .returned ∧ s.reader = .returned ∧ ¬ s.LeftBlocked := by
  obtain ⟨es, s, hrun, hdone, hreader⟩ :
      ∃ es s, (machine 64 ℕ).Run EndsInTime (init aClient) es s
        ∧ s.writer = .returned ∧ s.reader = .returned := by
    refine Machine.Run.exists_of_exec (giveUp ++ times 8 .writer ++ times 10 .reader) ?_
    rfl
  exact ⟨es, s, hrun, hdone, hreader, reader_not_left_blocked hrun⟩

/-- **The read thread is left blocked**, in `recv` – the write thread has
closed the descriptor it is in. -/
theorem reader_left_in_recv :
    ∃ es s, (machine 64 ℕ).Run Machine.always (init aClient) es s
      ∧ s.LeftBlocked ∧ s.reader = .recv 5 ∧ s.mContext.mClientFd = INVALID_FD := by
  refine Machine.Run.exists_of_exec (giveUp ++ times 6 .reader ++ times 8 .writer) ?_
  rfl

/-- **The read thread is left blocked**, at its pause: `disbaleReadEvent()` is
called after the write thread's handler has set the flag, and before the
interruption is requested the read thread has passed its interruption point. -/
theorem reader_left_paused :
    ∃ es s, (machine 64 ℕ).Run Machine.always (init aClient) es s
      ∧ s.LeftBlocked ∧ s.reader = .waiting := by
  refine Machine.Run.exists_of_exec (giveUp ++ times 6 .writer ++ times 2 .reader
    ++ .invoke 0 .disbaleReadEvent [] :: times 3 (.caller 0) ++ times 3 .reader
    ++ times 2 .writer ++ times 3 .reader) ?_
  rfl

/-! ## The condition is exact -/

section Exact

variable {s s' : ThreadsTcpBroWorker w β} {a : Action w β} {es es' : List (Event w β)}
variable {context : SocketContext w β}

theorem run_of_step (hs : s.step a = some (s', es)) :
    (machine w β).Run Machine.always s es s' :=
  Machine.Run.start.snoc (M := machine w β) trivial hs

/-- Some run takes the write thread to its end, and leaves the read thread and
its flag as they are. -/
def WriterFinishes (s : ThreadsTcpBroWorker w β) : Prop :=
  ∃ es s', (machine w β).Run Machine.always s es s' ∧ s'.writer = .returned
    ∧ s'.reader = s.reader ∧ s'.mIsReadEnabled = s.mIsReadEnabled

theorem WriterFinishes.of_step (hs : s.step a = some (s', es)) (hreader : s'.reader = s.reader)
    (hflag : s'.mIsReadEnabled = s.mIsReadEnabled) (h : WriterFinishes s') :
    WriterFinishes s := by
  obtain ⟨es', s'', hrun, hdone, hreader', hflag'⟩ := h
  exact ⟨es ++ es', s'', (run_of_step hs).trans hrun, hdone, hreader'.trans hreader,
    hflag'.trans hflag⟩

/-- Once the flag is set nothing holds the write thread up. -/
theorem writerFinishes_of_hasEnabled (hset : s.writer.hasEnabled = true)
    (hreader : s.reader.notify = s.reader) : WriterFinishes s := by
  have hnotify {s : ThreadsTcpBroWorker w β} (hpc : s.writer = .exit .notifyPeer)
      (hreader : s.reader.notify = s.reader) : WriterFinishes s := by
    have hs : s.step .writer = some ({ s.notifyRead with writer := .returned }, []) := by
      simp only [step, stepWriter, hpc, stepWriteExit]
    exact .of_step hs hreader rfl ⟨[], _, .start, rfl, rfl, rfl⟩
  have hinterrupt {s : ThreadsTcpBroWorker w β} (hpc : s.writer = .exit .interruptPeer)
      (hreader : s.reader.notify = s.reader) : WriterFinishes s := by
    have hs : s.step .writer
        = some ({ s.interruptRecv with writer := .exit .notifyPeer }, []) := by
      simp only [step, stepWriter, hpc, stepWriteExit]
    exact .of_step hs rfl rfl (hnotify rfl hreader)
  cases hpc : s.writer with
  | returned => exact ⟨[], s, .start, hpc, rfl, rfl⟩
  | exit e =>
    rw [hpc] at hset
    cases e with
    | unlockPeer =>
      have hs : s.step .writer
          = some ({ s.unlock .mReadMutex with writer := .exit .interruptPeer }, []) := by
        simp only [step, stepWriter, hpc, stepWriteExit]
      exact .of_step hs rfl rfl (hinterrupt rfl hreader)
    | interruptPeer => exact hinterrupt hpc hreader
    | notifyPeer => exact hnotify hpc hreader
    | _ => cases hset
  | _ => rw [hpc] at hset; cases hset

/-- A flag found `false` too late leaves the read thread waiting. -/
theorem leftBlocked_of_testsTooLate (h : s.TestsTooLate) :
    ∃ es' s'', (machine w β).Run Machine.always s es' s'' ∧ s''.LeftBlocked := by
  obtain ⟨hpc, hflag, hset⟩ := h
  obtain ⟨es₁, s₁, hrun, hdone, hreader, hflag₁⟩ :=
    writerFinishes_of_hasEnabled hset (by rw [hpc]; rfl)
  have htest : s₁.step .reader = some ({ s₁ with reader := .enterWait }, []) := by
    simp [step, stepReader, hreader, hpc, hflag₁, hflag]
  have hwait : ({ s₁ with reader := .enterWait } : ThreadsTcpBroWorker w β).step .reader
      = some ({ s₁.unlock .mReadMutex with reader := .waiting }, []) := rfl
  exact ⟨_, _, (hrun.trans (run_of_step htest)).trans (run_of_step hwait),
    hdone, .inl ⟨rfl, hflag₁.trans hflag⟩⟩

/-- A caller in a critical section goes on to leave it. -/
theorem caller_releases {i : ℕ} {m : Mutex} (hheld : s.held (.caller i) = some m) :
    ∃ es s', (machine w β).Run Machine.always s es s' ∧ s'.locks m = none
      ∧ s'.reader = s.reader ∧ s'.writer = s.writer := by
  have hunlock {s : ThreadsTcpBroWorker w β} {call : WorkerCall w β}
      {rest : List (WorkerCall w β)} (hpc : s.callers i = .inCall .unlock call rest) :
      ∃ pc, s.step (.caller i) = some ((s.unlock call.mutex).setCaller i pc, []) := by
    cases rest with
    | nil => exact ⟨.idle, by simp only [step, stepCaller, hpc]⟩
    | cons next rest => exact ⟨.inCall .lock next rest, by simp only [step, stepCaller, hpc]⟩
  rw [held] at hheld
  cases hpc : s.callers i with
  | idle => rw [hpc] at hheld; cases hheld
  | inCall stage call rest =>
    rw [hpc] at hheld
    cases stage with
    | lock => cases hheld
    | unlock =>
      cases hheld
      obtain ⟨pc, hs⟩ := hunlock hpc
      exact ⟨_, _, run_of_step hs, by simp, rfl, rfl⟩
    | body =>
      cases hheld
      have hbody : s.step (.caller i) = some
          ((s.assign call).setCaller i (.inCall .unlock call rest), [.called i call]) := by
        simp only [step, stepCaller, hpc]
      have hat : ((s.assign call).setCaller i (.inCall .unlock call rest)).callers i
          = .inCall .unlock call rest := by simp
      obtain ⟨pc, hs⟩ := hunlock hat
      exact ⟨_, _, (run_of_step hbody).trans (run_of_step hs), by simp, by simp, by simp⟩

/-- A mutex neither of the two threads holds can come free without them. -/
theorem mutex_comes_free (hl : LockTable.Agrees s.locks s.held) {m : Mutex}
    (hreader : s.reader.held ≠ some m) (hwriter : s.writer.held ≠ some m) :
    ∃ es s', (machine w β).Run Machine.always s es s' ∧ s'.locks m = none
      ∧ s'.reader = s.reader ∧ s'.writer = s.writer := by
  cases hlock : s.locks m with
  | none => exact ⟨[], s, .start, hlock, rfl, rfl⟩
  | some t =>
    have hheld : s.held t = some m := (hl m t).mp hlock
    cases t with
    | recvThread => exact absurd hheld hreader
    | sendThread => exact absurd hheld hwriter
    | caller i => exact caller_releases hheld

/-- A descriptor closed under a `recv` leaves the read thread in it. -/
theorem leftBlocked_of_closesUnderRecv
    (hrun : (machine w β).Run Machine.always (init context) es s) (h : s.ClosesUnderRecv) :
    ∃ es' s'', (machine w β).Run Machine.always s es' s'' ∧ s''.LeftBlocked := by
  obtain ⟨hpc, hrecv⟩ := h
  have hheld : s.reader.held ≠ some .mReadMutex := by
    cases hreader : s.reader with
    | recv fd => exact (Option.some_ne_none _).symm
    | _ => rw [hreader] at hrecv; cases hrecv
  have hnotify : s.reader.notify = s.reader := by
    cases hreader : s.reader with
    | waiting => rw [hreader] at hrecv; cases hrecv
    | _ => rfl
  -- up to the mutex of `enableReadEvent()`
  have hclose : s.step .writer = some ({ s.invalidate with writer := .exit .unlockContext },
      [.close s.mContext.mClientFd]) := by
    simp only [step, stepWriter, hpc, stepWriteExit]
  have hpast := (run_of_step hclose).trans (run_of_step (a := .writer) rfl)
  obtain ⟨es₁, s₁, hrun₁, hfree, hreader₁, hwriter₁⟩ :=
    mutex_comes_free (agrees_of_run (hrun.trans hpast)) hheld (Option.some_ne_none _).symm
  -- past it
  have hlock : s₁.step .writer
      = some ({ s₁.lockedBy .mReadMutex .sendThread with writer := .exit .enablePeer }, []) := by
    simp only [step, stepWriter, hwriter₁, stepWriteExit, lock, if_pos hfree]
  have henable : ({ s₁.lockedBy .mReadMutex .sendThread with writer := .exit .enablePeer }
      : ThreadsTcpBroWorker w β).step .writer = some
        ({ (s₁.lockedBy .mReadMutex .sendThread).enableReadEvent with
          writer := .exit .unlockPeer }, []) := rfl
  have hset := (run_of_step hlock).trans (run_of_step henable)
  obtain ⟨es₂, s₂, hrun₂, hdone, hreader₂, -⟩ := writerFinishes_of_hasEnabled
    (s := { (s₁.lockedBy .mReadMutex .sendThread).enableReadEvent with
      writer := .exit .unlockPeer }) rfl (by simpa [hreader₁] using hnotify)
  exact ⟨_, s₂, (hpast.trans hrun₁).trans (hset.trans hrun₂), hdone,
    .inr (by rw [hreader₂]; simpa [hreader₁] using hrecv)⟩

/-- **The condition is exact**: from a state a step of which breaks it, the
read thread can come to be left blocked. -/
theorem leftBlocked_of_step (hrun : (machine w β).Run Machine.always (init context) es s)
    (hbreak : ¬ EndsInTime s a) :
    ∃ es' s'', (machine w β).Run Machine.always s es' s'' ∧ s''.LeftBlocked := by
  by_cases hclose : s.ClosesUnderRecv
  · exact leftBlocked_of_closesUnderRecv hrun hclose
  · by_cases htest : s.TestsTooLate
    · exact leftBlocked_of_testsTooLate htest
    · exact absurd ⟨fun _ => hclose, fun _ => htest⟩ hbreak

end Exact

end ThreadsTcpBroWorker
