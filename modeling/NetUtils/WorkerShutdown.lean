import NetUtils.WorkerStep

/-!
# The end of the read thread and the write thread

When the read thread ends, its scope-exit handler has three ways to bring the
write thread to its end: it sets `mIsWriteEnabled`, it requests an
interruption, and it notifies `mWriteCond`. The flag and the notification get
the write thread out of its wait; only the interruption ends it, and only at
its interruption point. The three are raised one after another, so the write
thread can be out of its wait, consume the flag, send, and be back at its
interruption point before the request is there – or the request is never
raised, because `mSendThread` does not hold a thread yet. It then goes on to
wait for a flag nobody will set again.

`writer_not_left_waiting` says that this is the only way it is stranded:
along every run in which the write thread does not pass its interruption
point after it has consumed the flag of the handler (`StopsInTime`), it is not
waiting once the read thread has returned. `strands_of_passesTooLate` says
that a step which does pass it can always be continued to that end.
-/

open Transfer

variable {w : ℕ} {β : Type}

/-- The read thread's handler has set `mIsWriteEnabled`. -/
def ReadPc.hasEnabled : ReadPc β → Bool
  | exit e => e.hasEnabled
  | returned => true
  | _ => false

/-- The write thread is between its interruption point and the end of its
wait. -/
def WritePc.mayWait : WritePc w β → Bool
  | lockWrite => true
  | testEnabled => true
  | enterWait => true
  | waiting => true
  | notified => true
  | _ => false

/-- The call stores a response, and is none of the four methods. -/
def WorkerCall.stores : WorkerCall w β → Bool
  | storeResponse _ => true
  | _ => false

/-- The calls a thread is in or makes afterwards. -/
def CallerPc.calls : CallerPc w β → List (WorkerCall w β)
  | idle => []
  | inCall _ call rest => call :: rest

namespace ThreadsTcpBroWorker

/-- No other thread calls the enable and disable methods. -/
def Uncalled (_ : ThreadsTcpBroWorker w β) : Action w β → Prop
  | .invoke _ call rest => ∀ c ∈ call :: rest, c.stores = true
  | _ => True

instance : DecidableRel (Uncalled : ThreadsTcpBroWorker w β → Action w β → Prop)
  | _, .invoke _ call rest =>
    inferInstanceAs (Decidable (∀ c ∈ call :: rest, c.stores = true))
  | _, .doWork => isTrue trivial
  | _, .reader => isTrue trivial
  | _, .recv _ => isTrue trivial
  | _, .wakeReader => isTrue trivial
  | _, .writer => isTrue trivial
  | _, .send _ => isTrue trivial
  | _, .wakeWriter => isTrue trivial
  | _, .caller _ => isTrue trivial

/-- The write thread would pass its interruption point, no request being
there, after the read thread's handler has set the flag and the flag has been
consumed. -/
def PassesTooLate (s : ThreadsTcpBroWorker w β) : Prop :=
  s.writer = .interruptionPoint ∧ s.sendInterrupted = false
    ∧ s.reader.hasEnabled = true ∧ s.mIsWriteEnabled = false

instance [DecidableEq β] (s : ThreadsTcpBroWorker w β) : Decidable s.PassesTooLate :=
  inferInstanceAs (Decidable (_ ∧ _ ∧ _ ∧ _))

/-- The condition on a step: the write thread does not take the step from its
interruption point that passes it too late. -/
def StopsInTime (s : ThreadsTcpBroWorker w β) (a : Action w β) : Prop :=
  Uncalled s a ∧ (a.thread = some .sendThread → ¬ s.PassesTooLate)

instance [DecidableEq β] :
    DecidableRel (StopsInTime : ThreadsTcpBroWorker w β → Action w β → Prop) :=
  fun s a => inferInstanceAs (Decidable (Uncalled s a ∧ (_ → ¬ _)))

/-- All calls are of threads that store responses. -/
def OnlyStores (s : ThreadsTcpBroWorker w β) : Prop :=
  ∀ i, ∀ c ∈ (s.callers i).calls, c.stores = true

section Invariants

variable {s s' : ThreadsTcpBroWorker w β} {a : Action w β} {es : List (Event w β)}
variable {context : SocketContext w β}

/-- A caller that goes on with calls that store keeps them so. -/
theorem OnlyStores.setCaller (hi : OnlyStores s) {i : ℕ} {pc : CallerPc w β}
    (hpc : ∀ c ∈ pc.calls, c.stores = true) :
    ∀ j, ∀ c ∈ (Function.update s.callers i pc j).calls, c.stores = true := by
  intro j
  by_cases hji : j = i
  · rw [hji, Function.update_self]
    exact hpc
  · rw [Function.update_of_ne hji]
    exact hi j

theorem OnlyStores.step (h : Step s a s' es) (hok : Uncalled s a) (hi : OnlyStores s) :
    OnlyStores s' := by
  cases h with
  | invoke => exact hi.setCaller hok
  | @callLock i _ _ hpc => exact hi.setCaller (by have := hi i; rw [hpc] at this; exact this)
  | @callBody i call rest hpc =>
    have hcalls : ∀ c ∈ (CallerPc.inCall .unlock call rest).calls, c.stores = true := by
      have := hi i
      rw [hpc] at this
      exact this
    have hall := hi.setCaller (i := i) hcalls
    rw [← assign_callers s call] at hall
    exact hall
  | callReturn => exact hi.setCaller nofun
  | @callNext i _ _ _ hpc =>
    refine hi.setCaller fun c hc => ?_
    have := hi i
    rw [hpc] at this
    exact this c (List.mem_cons_of_mem _ hc)
  | _ => exact hi

/-- Once the handler's flag has been consumed, the write thread does not come
to wait. -/
def Consumed (s : ThreadsTcpBroWorker w β) : Prop :=
  s.reader.hasEnabled = true → s.mIsWriteEnabled = false → s.writer.mayWait = false

@[simp] theorem mayWait_notify (pc : WritePc w β) : pc.notify.mayWait = pc.mayWait :=
  apply_notify_write WritePc.mayWait rfl pc

@[simp] theorem mayWait_inSendBytes (fd : ℤ) (response : Buffer w β) (phase : Phase w) :
    (inSendBytes fd response phase).mayWait = false :=
  inSendBytes_cases (P := fun pc => pc.mayWait = false) fd response phase
    (fun _ => rfl) rfl rfl

@[simp] theorem hasEnabled_notify (pc : ReadPc β) : pc.notify.hasEnabled = pc.hasEnabled :=
  apply_notify_read ReadPc.hasEnabled rfl pc

@[simp] theorem hasEnabled_afterRecv (answer : Received β) :
    (afterRecv answer).hasEnabled = false :=
  afterRecv_cases (P := fun pc => pc.hasEnabled = false) answer rfl rfl fun _ => rfl

theorem Consumed.step (h : Step s a s' es) (htype : s.mContext.type = .IPV4SocketContext)
    (hstores : OnlyStores s) (hok : StopsInTime s a) (hi : Consumed s) : Consumed s' := by
  cases h with
  | writeGoOn hpc hreq =>
    -- the step the condition speaks of
    exact fun hread hflag => absurd ⟨hpc, hreq, hread, hflag⟩ (hok.2 rfl)
  | readCastIPV6 _ hipv6 => cases htype.symm.trans hipv6
  | readExitEnable => exact fun _ => nofun
  | readExitUnlockPeer hpc => exact fun _ => hi (by rw [hpc]; rfl)
  | readExitInterrupt hpc => exact fun _ => hi (by rw [hpc]; rfl)
  | readExitNotify hpc =>
    intro _ hflag
    simpa using hi (by rw [hpc]; rfl) hflag
  | readRecv => exact fun hread => absurd hread (by simp)
  | readWake => exact fun hread => hi (by simpa using hread)
  | writeExitNotify => exact fun _ _ => rfl
  | writeWake => exact fun hread hflag => by simpa using hi hread hflag
  | writeLock hpc =>
    exact fun hread hflag =>
      absurd (hi hread hflag) (by rcases hpc with hpc | hpc <;> rw [hpc] <;> exact nofun)
  | writeDisabled hpc =>
    exact fun hread hflag => absurd (hi hread hflag) (by rw [hpc]; exact nofun)
  | writeWait hpc =>
    exact fun hread hflag => absurd (hi hread hflag) (by rw [hpc]; exact nofun)
  | writeCallSend => exact fun _ _ => by simp
  | writeSend => exact fun _ _ => by simp
  | @callBody i call rest hpc =>
    have hstore : call.stores = true := by
      have := hstores i
      rw [hpc] at this
      exact this call List.mem_cons_self
    cases call with
    | storeResponse response => exact hi
    | enableReadEvent => cases hstore
    | enableWriteEvent => cases hstore
    | disbaleReadEvent => cases hstore
    | disbaleWriteEvent => cases hstore
  | _ =>
    first
    | exact hi
    | exact fun _ _ => rfl
    | exact fun hread => absurd hread Bool.false_ne_true

/-- **A returned read thread leaves no one waiting.** -/
def LeavesNoneWaiting (s : ThreadsTcpBroWorker w β) : Prop :=
  s.reader = .returned → s.writer ≠ .waiting

theorem LeavesNoneWaiting.step (h : Step s a s' es)
    (htype : s.mContext.type = .IPV4SocketContext) (ht : TestedUnderLock s) (hc : Consumed s)
    (hi : LeavesNoneWaiting s) : LeavesNoneWaiting s' := by
  cases h with
  | readCastIPV6 _ hipv6 => cases htype.symm.trans hipv6
  | readExitNotify => exact fun _ => notify_write_ne_waiting _
  | writeWait hpc =>
    -- it is about to wait, so the flag is `false` and not yet set by the handler
    intro hread _
    have hwait := hc (by rw [show s.reader = .returned from hread]; rfl) (ht.writeWait hpc)
    rw [hpc] at hwait
    cases hwait
  | writeWake => exact fun _ => notify_write_ne_waiting _
  | writeExitNotify => exact fun _ => nofun
  | readWake hpc => exact fun hread => absurd hread (by simp [hpc, ReadPc.notify])
  | readRecv => exact fun hread => absurd hread (by simp)
  | writeCallSend => exact fun _ => by simp
  | writeSend => exact fun _ => by simp
  | callBody => exact fun hread => by simpa using hi (by simpa using hread)
  | _ =>
    first
    | exact hi
    | rintro ⟨⟩
    | rintro _ ⟨⟩

variable {ok : ThreadsTcpBroWorker w β → Action w β → Prop}

theorem onlyStores_of_run (hok : ∀ s a, ok s a → Uncalled s a)
    (h : (machine w β).Run ok (init context) es s) : OnlyStores s :=
  h.stateInvariant (I := OnlyStores) (fun _ _ hc => absurd hc List.not_mem_nil)
    (fun hi hstep hs => hi.step (Step.of_step hs) (hok _ _ hstep))

theorem consumed_of_run (htype : context.type = .IPV4SocketContext)
    (h : (machine w β).Run StopsInTime (init context) es s) : Consumed s :=
  h.invariant (I := fun _ s => Consumed s) (fun _ _ => rfl)
    (fun hrun hi hok hs => hi.step (Step.of_step hs) ((type_of_run hrun).trans htype)
      (onlyStores_of_run (fun _ _ => And.left) hrun) hok)

end Invariants

/-- **The end of the read thread ends the wait of the write thread** along
every run in which the write thread stops in time. -/
theorem writer_not_left_waiting {context : SocketContext w β}
    (htype : context.type = .IPV4SocketContext) {es : List (Event w β)}
    {s : ThreadsTcpBroWorker w β} (h : (machine w β).Run StopsInTime (init context) es s)
    (hdone : s.reader = .returned) : s.writer ≠ .waiting :=
  h.invariant (I := fun _ s => LeavesNoneWaiting s) (fun _ hwait => absurd hwait (by simp [init]))
    (fun hrun hi _ hs => hi.step (Step.of_step hs) ((type_of_run hrun).trans htype)
      (testedUnderLock_of_run hrun) (consumed_of_run htype hrun))
    hdone

/-- The peer closes and the write thread is interrupted in time. -/
theorem writer_not_left_waiting_peerCloses :
    ∃ es s, (machine 64 ℕ).Run StopsInTime (init aClient) es s
      ∧ s.reader = .returned ∧ s.writer ≠ .waiting := by
  obtain ⟨es, s, hrun, hdone⟩ : ∃ es s, (machine 64 ℕ).Run StopsInTime (init aClient) es s
      ∧ s.reader = .returned := by
    refine Machine.Run.exists_of_exec peerCloses ?_
    rfl
  exact ⟨es, s, hrun, hdone, writer_not_left_waiting rfl hrun hdone⟩

/-! ## The condition is exact -/

section Stranded

variable {s : ThreadsTcpBroWorker w β} {es : List (Event w β)} {context : SocketContext w β}

/-- The write thread is on its way to a wait nothing will end. -/
structure Doomed (s : ThreadsTcpBroWorker w β) : Prop where
  writer : s.writer = .lockWrite
  flag : s.mIsWriteEnabled = false

/-- Some run leads the read thread to its end, and the write thread has not
moved. -/
def FinishesBefore (s : ThreadsTcpBroWorker w β) : Prop :=
  ∃ es s', (machine w β).Run Uncalled s es s' ∧ Doomed s' ∧ s'.reader = .returned

theorem FinishesBefore.of_step {s' : ThreadsTcpBroWorker w β}
    (hs : (machine w β).step s .reader = some (s', es)) (h : FinishesBefore s') :
    FinishesBefore s := by
  obtain ⟨es', s'', hrun, hend⟩ := h
  have hok : Uncalled s .reader := trivial
  exact ⟨es ++ es', s'', (Machine.Run.single hok hs).trans hrun, hend⟩

theorem Doomed.finishesBefore_of_notifyPeer (hs : Doomed s)
    (hpc : s.reader = .exit .notifyPeer) : FinishesBefore s := by
  have hstep : (machine w β).step s .reader
      = some ({ s.notifyWrite with reader := .returned }, []) := by
    simp only [machine, step, stepReader, hpc, stepReadExit]
  refine .of_step hstep ⟨[], _, .start, ⟨?_, hs.flag⟩, rfl⟩
  simp [hs.writer, WritePc.notify]

theorem Doomed.finishesBefore_of_interruptPeer (hs : Doomed s)
    (hpc : s.reader = .exit .interruptPeer) : FinishesBefore s := by
  have hstep : (machine w β).step s .reader
      = some ({ s.interruptSend with reader := .exit .notifyPeer }, []) := by
    simp only [machine, step, stepReader, hpc, stepReadExit]
  exact .of_step hstep (finishesBefore_of_notifyPeer ⟨hs.writer, hs.flag⟩ rfl)

theorem Doomed.finishesBefore (hs : Doomed s) (hread : s.reader.hasEnabled = true) :
    FinishesBefore s := by
  cases hpc : s.reader with
  | returned => exact ⟨[], s, .start, hs, hpc⟩
  | exit e =>
    rw [hpc] at hread
    cases e with
    | unlockPeer =>
      have hstep : (machine w β).step s .reader
          = some ({ s.unlock .mWriteMutex with reader := .exit .interruptPeer }, []) := by
        simp only [machine, step, stepReader, hpc, stepReadExit]
      exact .of_step hstep (finishesBefore_of_interruptPeer ⟨hs.writer, hs.flag⟩ rfl)
    | interruptPeer => exact hs.finishesBefore_of_interruptPeer hpc
    | notifyPeer => exact hs.finishesBefore_of_notifyPeer hpc
    | _ => cases hread
  | _ => rw [hpc] at hread; cases hread

/-- With the read thread gone and no caller of the methods, nobody holds
`mWriteMutex`. -/
theorem Doomed.mWriteMutex_free (hs : Doomed s) (hdone : s.reader = .returned)
    (hl : LockTable.Agrees s.locks s.held) (hstores : OnlyStores s) :
    s.locks .mWriteMutex = none := by
  refine Option.eq_none_iff_forall_ne_some.mpr fun t ht => ?_
  have hheld : s.held t = some .mWriteMutex := (hl _ t).mp ht
  cases t with
  | recvThread => rw [held_reader hdone] at hheld; cases hheld
  | sendThread => rw [held_writer hs.writer] at hheld; cases hheld
  | caller i =>
    have hcalls := hstores i
    rw [held] at hheld
    cases hpc : s.callers i with
    | idle => rw [hpc] at hheld; cases hheld
    | inCall stage call rest =>
      rw [hpc] at hheld hcalls
      have hstore : call.stores = true := hcalls call List.mem_cons_self
      cases call with
      | storeResponse response => cases stage <;> cases hheld
      | _ => cases hstore

/-- The write thread locks the mutex, finds the flag `false`, and waits. -/
theorem Doomed.waits (hs : Doomed s) (hfree : s.locks .mWriteMutex = none) :
    ∃ s', (machine w β).Run Uncalled s [] s' ∧ s'.reader = s.reader
      ∧ s'.writer = .waiting := by
  have hok (s : ThreadsTcpBroWorker w β) : Uncalled s .writer := trivial
  have hlock : (machine w β).step s .writer
      = some ({ s.lockedBy .mWriteMutex .sendThread with writer := .testEnabled }, []) := by
    simp only [machine, step, stepWriter, hs.writer, lock, hfree, if_true]
  have htest : (machine w β).step
        { s.lockedBy .mWriteMutex .sendThread with writer := .testEnabled } .writer
      = some ({ s.lockedBy .mWriteMutex .sendThread with writer := .enterWait }, []) := by
    simp [machine, step, stepWriter, hs.flag]
  have hwait : (machine w β).step
        { s.lockedBy .mWriteMutex .sendThread with writer := .enterWait } .writer
      = some ({ unlock { s.lockedBy .mWriteMutex .sendThread with writer := .enterWait }
          .mWriteMutex with writer := .waiting }, []) := by
    simp only [machine, step, stepWriter]
  exact ⟨_, ((Machine.Run.single (hok _) hlock).snoc (hok _) htest).snoc (hok _) hwait, rfl, rfl⟩

/-- **A step that breaks the condition strands the write thread**: it can be
continued to a state in which the read thread has returned and the write
thread waits. -/
theorem strands_of_passesTooLate
    (h : (machine w β).Run Uncalled (init context) es s) (hlate : s.PassesTooLate) :
    ∃ es' s', (machine w β).Run Uncalled s es' s'
      ∧ s'.reader = .returned ∧ s'.writer = .waiting := by
  obtain ⟨hpc, hreq, hread, hflag⟩ := hlate
  have hok : Uncalled s .writer := trivial
  have hgo : (machine w β).step s .writer = some ({ s with writer := .lockWrite }, []) := by
    simp [machine, step, stepWriter, hpc, hreq]
  obtain ⟨es₁, s₁, hrun₁, hdoomed, hdone⟩ := Doomed.finishesBefore
    (s := { s with writer := .lockWrite }) ⟨rfl, hflag⟩ hread
  have hpast := (Machine.Run.single hok hgo).trans hrun₁
  have hfree := hdoomed.mWriteMutex_free hdone (agrees_of_run (h.trans hpast))
    (onlyStores_of_run (fun _ _ hok => hok) (h.trans hpast))
  obtain ⟨s₂, hrun₂, hreader, hwriter⟩ := hdoomed.waits hfree
  exact ⟨_, s₂, hpast.trans hrun₂, hreader.trans hdone, hwriter⟩

end Stranded

/-- The peer closes. The read thread's handler enables the write thread, which
sends an empty response and is back at its wait before it is interrupted. -/
def peerClosesEarly : List (Action 64 ℕ) :=
  times 4 .doWork ++ times 6 .reader ++ [.recv (.got [])] ++ times 6 .reader
    ++ times 11 .writer ++ times 2 .reader ++ times 3 .writer

/-- **The write thread is left waiting.** The read thread has returned, the
flag is consumed, and `doWork` will not get past its second join. -/
theorem writer_left_waiting :
    ∃ es s, (machine 64 ℕ).Run Uncalled (init aClient) es s
      ∧ s.reader = .returned ∧ s.writer = .waiting ∧ s.mIsWriteEnabled = false := by
  refine Machine.Run.exists_of_exec peerClosesEarly ?_
  rfl

end ThreadsTcpBroWorker
