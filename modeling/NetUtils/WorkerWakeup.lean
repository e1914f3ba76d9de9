import NetUtils.WorkerStep

/-!
# Wake-ups on the enable switches

The two threads of a worker wait on `mReadCond` and `mWriteCond` for their
flag. Whoever sets a flag for a thread that is already asleep has to notify
it, and of the three places that set one, the scope-exit handlers do – flag,
then `notify_one()` – and `enableReadEvent()` and `enableWriteEvent()` do
not. A response enabled while the write thread sleeps is not sent, and a
paused reader stays paused, until a spurious wake-up or the end of the
connection.

`noLostWakeup_of_run` says that this is the only way to lose a wake-up: along
every run in which no such call finds its thread asleep (`EnablesAwake`), a
thread whose flag is set is never left asleep.
-/

open Transfer

variable {w : ℕ} {β : Type}

/-- The read thread's handler has enabled the write thread and not yet
notified it. -/
def ReadPc.enabling : ReadPc β → Bool
  | exit e => e.hasEnabled
  | _ => false

/-- The write thread's handler has enabled the read thread and not yet
notified it. -/
def WritePc.enabling : WritePc w β → Bool
  | exit e => e.hasEnabled
  | _ => false

namespace ThreadsTcpBroWorker

/-- **A call that has set `mIsReadEnabled` is in progress**: one of
`enableReadEvent()` that has not returned, or the write thread's handler
before its `notify_one()`. -/
def EnablingRead (s : ThreadsTcpBroWorker w β) : Prop :=
  (∃ i rest, s.callers i = .inCall .unlock .enableReadEvent rest)
    ∨ s.writer.enabling = true

/-- The same of `mIsWriteEnabled`. -/
def EnablingWrite (s : ThreadsTcpBroWorker w β) : Prop :=
  (∃ i rest, s.callers i = .inCall .unlock .enableWriteEvent rest)
    ∨ s.reader.enabling = true

/-- **No wake-up is lost.** A thread blocked in its wait, with no notification
on its way to it, does not have its flag set. -/
structure NoLostWakeup (s : ThreadsTcpBroWorker w β) : Prop where
  read : s.mIsReadEnabled = true → ¬ s.EnablingRead → s.reader ≠ .waiting
  write : s.mIsWriteEnabled = true → ¬ s.EnablingWrite → s.writer ≠ .waiting

/-- The assignment of an `enableReadEvent()` or `enableWriteEvent()` finds the
thread it enables awake, or about to be notified by the other one's handler. -/
def AssignsAwake (s : ThreadsTcpBroWorker w β) : CallerPc w β → Prop
  | .inCall .body .enableReadEvent _ => s.reader = .waiting → s.writer.enabling = true
  | .inCall .body .enableWriteEvent _ => s.writer = .waiting → s.reader.enabling = true
  | _ => True

/-- The condition on a step: no enabling call of another thread finds the
thread it enables asleep. -/
def EnablesAwake (s : ThreadsTcpBroWorker w β) : Action w β → Prop
  | .caller i => s.AssignsAwake (s.callers i)
  | _ => True

instance [DecidableEq β] (s : ThreadsTcpBroWorker w β) :
    (pc : CallerPc w β) → Decidable (s.AssignsAwake pc)
  | .inCall .body .enableReadEvent _ =>
    inferInstanceAs (Decidable (s.reader = .waiting → s.writer.enabling = true))
  | .inCall .body .enableWriteEvent _ =>
    inferInstanceAs (Decidable (s.writer = .waiting → s.reader.enabling = true))
  | .inCall .body .disbaleReadEvent _ => isTrue trivial
  | .inCall .body .disbaleWriteEvent _ => isTrue trivial
  | .inCall .body (.storeResponse _) _ => isTrue trivial
  | .inCall .lock _ _ => isTrue trivial
  | .inCall .unlock _ _ => isTrue trivial
  | .idle => isTrue trivial

instance [DecidableEq β] :
    DecidableRel (EnablesAwake : ThreadsTcpBroWorker w β → Action w β → Prop)
  | s, .caller i => inferInstanceAs (Decidable (s.AssignsAwake (s.callers i)))
  | _, .doWork => isTrue trivial
  | _, .reader => isTrue trivial
  | _, .recv _ => isTrue trivial
  | _, .wakeReader => isTrue trivial
  | _, .writer => isTrue trivial
  | _, .send _ => isTrue trivial
  | _, .wakeWriter => isTrue trivial
  | _, .invoke _ _ _ => isTrue trivial

/-- A thread asleep with its flag set is about to be notified. -/
structure AboutToNotify (s : ThreadsTcpBroWorker w β) : Prop where
  read : s.mIsReadEnabled = true → s.reader = .waiting → s.writer.enabling = true
  write : s.mIsWriteEnabled = true → s.writer = .waiting → s.reader.enabling = true

section Invariants

variable {s s' : ThreadsTcpBroWorker w β} {a : Action w β} {es : List (Event w β)}
variable {context : SocketContext w β}

@[simp] theorem enabling_notify_read (pc : ReadPc β) : pc.notify.enabling = pc.enabling :=
  apply_notify_read ReadPc.enabling rfl pc

@[simp] theorem enabling_notify_write (pc : WritePc w β) :
    pc.notify.enabling = pc.enabling :=
  apply_notify_write WritePc.enabling rfl pc

theorem AboutToNotify.step (h : Step s a s' es) (hok : EnablesAwake s a)
    (hd : DoWorkAgrees s) (ht : TestedUnderLock s) (hi : AboutToNotify s) :
    AboutToNotify s' := by
  obtain ⟨hr, hw⟩ := hi
  -- a thread that is not about to notify has no sleeper to notify
  have hread (hn : s.writer.enabling = false) {P : Prop} :
      s.mIsReadEnabled = true → s.reader = .waiting → P := fun hf hwait =>
    absurd (hn.symm.trans (hr hf hwait)) Bool.false_ne_true
  have hwrite (hn : s.reader.enabling = false) {P : Prop} :
      s.mIsWriteEnabled = true → s.writer = .waiting → P := fun hf hwait =>
    absurd (hn.symm.trans (hw hf hwait)) Bool.false_ne_true
  cases h with
  | startRecv hpc =>
    have hreader : s.reader = .unstarted := hd.recvStarted.mp (by rw [hpc]; rfl)
    exact ⟨nofun, hwrite (by rw [hreader]; rfl)⟩
  | startSend hpc =>
    have hwriter : s.writer = .unstarted := hd.sendStarted.mp (by rw [hpc]; rfl)
    exact ⟨hread (by rw [hwriter]; rfl), nofun⟩
  | readWait hpc =>
    -- the flag was found `false` under the mutex the wait releases
    have hfalse : s.mIsReadEnabled = false := ht.readWait hpc
    exact ⟨fun htrue => absurd (hfalse.symm.trans htrue) Bool.false_ne_true,
      hwrite (by rw [hpc]; rfl)⟩
  | writeWait hpc =>
    have hfalse : s.mIsWriteEnabled = false := ht.writeWait hpc
    exact ⟨hread (by rw [hpc]; rfl),
      fun htrue => absurd (hfalse.symm.trans htrue) Bool.false_ne_true⟩
  | readExitEnable => exact ⟨nofun, fun _ _ => rfl⟩
  | writeExitEnable => exact ⟨fun _ _ => rfl, nofun⟩
  | readExitUnlockPeer => exact ⟨nofun, fun _ _ => rfl⟩
  | writeExitUnlockPeer => exact ⟨fun _ _ => rfl, nofun⟩
  | readExitInterrupt => exact ⟨nofun, fun _ _ => rfl⟩
  | writeExitInterrupt => exact ⟨fun _ _ => rfl, nofun⟩
  | readExitNotify => exact ⟨nofun, fun _ hwait => absurd hwait (notify_write_ne_waiting _)⟩
  | writeExitNotify => exact ⟨fun _ hwait => absurd hwait (notify_read_ne_waiting _), nofun⟩
  | readWake hpc =>
    exact ⟨fun _ hwait => absurd hwait (notify_read_ne_waiting _), hwrite (by rw [hpc]; rfl)⟩
  | writeWake hpc =>
    exact ⟨hread (by rw [hpc]; rfl), fun _ hwait => absurd hwait (notify_write_ne_waiting _)⟩
  | readLock hpc => exact ⟨nofun, hwrite (by rcases hpc with hpc | hpc <;> rw [hpc] <;> rfl)⟩
  | writeLock hpc => exact ⟨hread (by rcases hpc with hpc | hpc <;> rw [hpc] <;> rfl), nofun⟩
  | readRecv hpc => exact ⟨by simp, hwrite (by rw [hpc]; rfl)⟩
  | writeCallSend hpc => exact ⟨hread (by rw [hpc]; rfl), by simp⟩
  | writeSend hpc => exact ⟨hread (by rw [hpc]; rfl), by simp⟩
  | @callBody i call rest hpc =>
    simp only [EnablesAwake, hpc] at hok
    cases call with
    | enableReadEvent => exact ⟨fun _ => hok, hw⟩
    | enableWriteEvent => exact ⟨hr, fun _ => hok⟩
    | disbaleReadEvent => exact ⟨nofun, hw⟩
    | disbaleWriteEvent => exact ⟨hr, nofun⟩
    | storeResponse response => exact ⟨hr, hw⟩
  | _ =>
    first
    | exact ⟨hr, hw⟩
    | exact ⟨nofun, hwrite (by rw [‹s.reader = _›]; rfl)⟩
    | exact ⟨hread (by rw [‹s.writer = _›]; rfl), nofun⟩

theorem AboutToNotify.init (context : SocketContext w β) : AboutToNotify (init context) where
  read := fun _ => nofun
  write := nofun

theorem aboutToNotify_of_run (h : (machine w β).Run EnablesAwake (init context) es s) :
    AboutToNotify s :=
  h.invariant (I := fun _ s => AboutToNotify s) (AboutToNotify.init context)
    (fun hrun hi hok hs => hi.step (Step.of_step hs) hok (doWorkAgrees_of_run hrun)
      (testedUnderLock_of_run hrun))

/-- A call that has made its assignment holds its mutex until it returns. -/
theorem lock_of_unlock (hl : LockTable.Agrees s.locks s.held) {i : ℕ}
    {call : WorkerCall w β} {rest : List (WorkerCall w β)}
    (hpc : s.callers i = .inCall .unlock call rest) : s.locks call.mutex = some (.caller i) :=
  (hl _ _).mpr (by rw [held, hpc]; rfl)

/-- After its assignment the caller returns, and then no call like it is in
progress. -/
theorem returns_of_body (hl : LockTable.Agrees s.locks s.held) {i : ℕ}
    {call : WorkerCall w β} {rest : List (WorkerCall w β)}
    (hpc : s.callers i = .inCall .body call rest) :
    ∃ pc, ((s.assign call).setCaller i (.inCall .unlock call rest)).step (.caller i)
        = some (((((s.assign call).setCaller i (.inCall .unlock call rest)).unlock
            call.mutex).setCaller i pc), [])
      ∧ ∀ j rest', Function.update s.callers i pc j ≠ .inCall .unlock call rest' := by
  have hothers {pc : CallerPc w β} (hne : ∀ rest', pc ≠ .inCall .unlock call rest') (j : ℕ)
      (rest' : List (WorkerCall w β)) :
      Function.update s.callers i pc j ≠ .inCall .unlock call rest' := by
    intro hj
    by_cases hji : j = i
    · rw [hji, Function.update_self] at hj
      exact hne rest' hj
    · rw [Function.update_of_ne hji] at hj
      have hheld : s.held (.caller j) = some call.mutex := by rw [held, hj]; rfl
      exact hji (Thread.caller.inj (eq_caller_of_held hl hpc hheld))
  cases rest with
  | nil =>
    refine ⟨.idle, ?_, hothers fun _ heq => by cases heq⟩
    simp [step, stepCaller]
  | cons next rest =>
    refine ⟨.inCall .lock next rest, ?_, hothers fun _ heq => by cases heq⟩
    simp [step, stepCaller]

/-- **The condition is exact**: where a step breaks it, the return of the call
it belongs to leaves a wake-up lost. -/
theorem lostWakeup_of_not_enablesAwake {es' : List (Event w β)}
    (h : (machine w β).Run Machine.always (init context) es s)
    (hs : (machine w β).step s a = some (s', es')) (hbreak : ¬ EnablesAwake s a) :
    ∃ s'', (machine w β).step s' a = some (s'', []) ∧ ¬ NoLostWakeup s'' := by
  have hl := agrees_of_run h
  cases Step.of_step hs with
  | @callBody i call rest hpc =>
    simp only [EnablesAwake, hpc] at hbreak
    obtain ⟨pc, hreturn, hnone⟩ := returns_of_body hl hpc
    refine ⟨_, hreturn, fun hlost => ?_⟩
    have hdone (j : ℕ) (rest' : List (WorkerCall w β)) :
        ((((s.assign call).setCaller i (.inCall .unlock call rest)).unlock
          call.mutex).setCaller i pc).callers j ≠ .inCall .unlock call rest' := by
      change Function.update (Function.update (s.assign call).callers i _) i pc j ≠ _
      rw [Function.update_idem, assign_callers]
      exact hnone j rest'
    cases call with
    | enableReadEvent =>
      obtain ⟨hwait, hwriter⟩ := Classical.not_imp.mp hbreak
      refine hlost.read rfl ?_ hwait
      rintro (⟨j, rest', hj⟩ | henabling)
      · exact hdone j rest' hj
      · exact hwriter henabling
    | enableWriteEvent =>
      obtain ⟨hwait, hreader⟩ := Classical.not_imp.mp hbreak
      refine hlost.write rfl ?_ hwait
      rintro (⟨j, rest', hj⟩ | henabling)
      · exact hdone j rest' hj
      · exact hreader henabling
    | disbaleReadEvent => exact hbreak trivial
    | disbaleWriteEvent => exact hbreak trivial
    | storeResponse response => exact hbreak trivial
  | callLock hpc => exact absurd (by simp only [EnablesAwake, hpc]; trivial) hbreak
  | callReturn hpc => exact absurd (by simp only [EnablesAwake, hpc]; trivial) hbreak
  | callNext hpc => exact absurd (by simp only [EnablesAwake, hpc]; trivial) hbreak
  | _ => exact absurd trivial hbreak

end Invariants

/-- **No wake-up is lost along a run in which no enabling call finds its
thread asleep.** -/
theorem noLostWakeup_of_run {context : SocketContext w β} {es : List (Event w β)}
    {s : ThreadsTcpBroWorker w β}
    (h : (machine w β).Run EnablesAwake (init context) es s) : NoLostWakeup s where
  read := fun hf hnone hwait => hnone (.inr ((aboutToNotify_of_run h).read hf hwait))
  write := fun hf hnone hwait => hnone (.inr ((aboutToNotify_of_run h).write hf hwait))

/-- The reader is paused and resumed before it comes to wait. -/
def pauseAndResumeAwake : List (Action 64 ℕ) :=
  times 4 .doWork ++ .invoke 0 .disbaleReadEvent [] :: times 3 (.caller 0)
    ++ .invoke 0 .enableReadEvent [] :: times 3 (.caller 0) ++ times 6 .reader

/-- Paused and resumed so, it goes on to receive. -/
theorem noLostWakeup_of_run_pauseAndResumeAwake :
    ∃ es s, (machine 64 ℕ).Run EnablesAwake (init aClient) es s
      ∧ s.reader = .recv 5 ∧ NoLostWakeup s := by
  obtain ⟨es, s, hrun, hreader⟩ : ∃ es s, (machine 64 ℕ).Run EnablesAwake (init aClient) es s
      ∧ s.reader = .recv 5 := by
    refine Machine.Run.exists_of_exec pauseAndResumeAwake ?_
    rfl
  exact ⟨es, s, hrun, hreader, noLostWakeup_of_run hrun⟩

/-- The reader is paused and falls asleep, and is then enabled. -/
def pauseAndResume : List (Action 64 ℕ) :=
  times 4 .doWork ++ .invoke 0 .disbaleReadEvent [] :: times 3 (.caller 0)
    ++ times 5 .reader ++ .invoke 0 .enableReadEvent [] :: times 3 (.caller 0)

/-- **`enableReadEvent()` loses the wake-up**: it has returned, and the read
thread is still asleep with no notification on its way. -/
theorem enableReadEvent_loses_wakeup :
    ∃ es s, (machine 64 ℕ).Run Machine.always (init aClient) es s
      ∧ ¬ NoLostWakeup s := by
  obtain ⟨es, s, hrun, hflag, hwait, hwriter, hfree⟩ : ∃ es s,
      (machine 64 ℕ).Run Machine.always (init aClient) es s
      ∧ s.mIsReadEnabled = true ∧ s.reader = .waiting ∧ s.writer = .castContext
      ∧ s.locks .mReadMutex = none := by
    refine Machine.Run.exists_of_exec pauseAndResume ?_
    rfl
  refine ⟨es, s, hrun, fun h => h.read hflag ?_ hwait⟩
  rintro (⟨i, rest, hpc⟩ | henabling)
  · have hheld := lock_of_unlock (agrees_of_run hrun) hpc
    cases hfree.symm.trans hheld
  · rw [hwriter] at henabling
    cases henabling

end ThreadsTcpBroWorker
