import NetUtils.BroService
import NetUtils.Inevitable
import NetUtils.WorkerLocks
import NetUtils.WorkerShutdown

/-!
# How the end of a connection goes on in its worker

`NetUtils.WorkerShutdown` says how the write thread of a worker can be stranded when the
read thread ends. Here the connection has ended: the read thread has returned, and no
other thread calls the worker. From then on everything is decided, whatever the
scheduler does.

The write thread gets away if it is at its scope-exit handler already, or if an
interruption has been requested and it comes to its interruption point once more
(`GetsAway`). What is not on the way to a wait comes there again: a `send` that is yet
to be made fails on the closed descriptor, and a failed `send` takes the counter of
`send_bytes` back by one byte, so the loop walks back to the start of its response and
ends. But the request may be missing, because `mSendThread` did not hold the thread yet
when it was made; and a thread past its interruption point looks for it only behind the
wait, which nothing ends but the flag.

`fate_is_decided` says that the two outcomes are these and no others, and that neither
can be averted. The argument is the measure of `NetUtils.Inevitable`.
-/

open Transfer IOHelper

variable {w : ℕ} {β : Type}

/-- A bound on the steps `doWork` still has to take. -/
def MainPc.toGo : MainPc → ℕ
  | startRecv => 7
  | storeRecv => 6
  | startSend => 5
  | storeSend => 4
  | joinRecv => 3
  | joinSend => 2
  | returned => 1
  | destroyed => 0

/-- A bound on the steps of a scope-exit handler that are still to take. -/
def ExitPc.toGo : ExitPc → ℕ
  | lockContext => 8
  | close => 7
  | unlockContext => 6
  | lockPeer => 5
  | enablePeer => 4
  | unlockPeer => 3
  | interruptPeer => 2
  | notifyPeer => 1

/-- A bound on the steps the write thread still has to take, apart from those it takes
for `mIsWriteEnabled`. -/
def WritePc.toGo : WritePc w β → ℕ
  | unstarted => 11
  | castContext => 10
  | interruptionPoint => 9
  | lockWrite => 3
  | testEnabled => 2
  | enterWait => 0
  | waiting => 0
  | notified => 3
  | clearEnabled => 1
  | unlockWrite => 15
  | lockResponse => 14
  | copyResponse => 13
  | unlockResponse _ => 12
  | callSend _ => 11
  | send _ _ total_send => 10 + 2 * total_send.toNat
  | exit e => e.toGo
  | returned => 0

namespace ThreadsTcpBroWorker

/-- A bound on the steps of the worker, once its read thread has returned. The flag is
worth one more round of the write thread's loop. -/
def toGo (s : ThreadsTcpBroWorker w β) : ℕ :=
  s.doWork.toGo + 40 * s.mIsWriteEnabled.toNat + s.writer.toGo

/-- The condition on a step: no other thread makes a call. -/
def Unattended (_ : ThreadsTcpBroWorker w β) : Action w β → Prop
  | .invoke _ _ _ => False
  | _ => True

/-- No other thread makes a call, and a `send` on a descriptor that has been closed
fails. -/
def LeftAlone (s : ThreadsTcpBroWorker w β) : Action w β → Prop
  | .invoke _ _ _ => False
  | .send (.count _) => s.mContext.mClientFd ≠ INVALID_FD
  | _ => True

/-- **The write thread gets away**: it has left its loop, or it comes to its interruption
point once more and finds a request there. -/
def GetsAway (s : ThreadsTcpBroWorker w β) : Prop :=
  s.writer.exited = true
    ∨ s.sendInterrupted = true ∧ (s.writer.mayWait = true → s.mIsWriteEnabled = true)

/-- It is at its wait or on the way to it, and the flag is not set. -/
def Waits (s : ThreadsTcpBroWorker w β) : Prop :=
  s.writer.mayWait = true ∧ s.mIsWriteEnabled = false

/-- **It waits for ever**, as long as nobody calls. -/
def WaitsForEver (s : ThreadsTcpBroWorker w β) : Prop :=
  ∀ es s', (machine w β).Run LeftAlone s es s' → s'.Waits

instance : DecidableRel (Unattended : ThreadsTcpBroWorker w β → Action w β → Prop)
  | _, .invoke _ _ _ => isFalse id
  | _, .doWork | _, .reader | _, .recv _ | _, .wakeReader | _, .writer | _, .send _
  | _, .wakeWriter | _, .caller _ => isTrue trivial

instance (s : ThreadsTcpBroWorker w β) : Decidable s.GetsAway :=
  inferInstanceAs (Decidable (_ ∨ _ ∧ (_ → _)))

section Invariants

variable {s s' : ThreadsTcpBroWorker w β} {a : Action w β} {es : List (Event w β)}
variable {context : SocketContext w β}

/-- Nobody is in a call. -/
def Idle (s : ThreadsTcpBroWorker w β) : Prop := ∀ i, s.callers i = .idle

theorem Idle.step (h : Step s a s' es) (hok : Unattended s a) (hi : Idle s) : Idle s' := by
  cases h with
  | invoke => exact hok.elim
  | callLock hpc => cases (hi _).symm.trans hpc
  | callBody hpc => cases (hi _).symm.trans hpc
  | callReturn hpc => cases (hi _).symm.trans hpc
  | callNext hpc => cases (hi _).symm.trans hpc
  | _ => exact hi

theorem idle_of_run (h : (machine w β).Run Unattended (init context) es s) : Idle s :=
  h.stateInvariant (I := Idle) (fun _ => rfl) fun hi hok hs => hi.step (Step.of_step hs) hok

/-- Nobody who calls, calls none of the four methods. -/
theorem Unattended.uncalled (h : Unattended s a) : Uncalled s a := by
  cases a with
  | invoke => exact h.elim
  | _ => trivial

/-- A write thread that waits once the read thread has returned waits for a flag that is
not set: the handler has set it before its notification. -/
def WaitsDisabled (s : ThreadsTcpBroWorker w β) : Prop :=
  s.reader = .returned → s.writer = .waiting → s.mIsWriteEnabled = false

theorem WaitsDisabled.step (h : Step s a s' es) (htype : s.mContext.type = .IPV4SocketContext)
    (ht : TestedUnderLock s) (hstores : OnlyStores s) (hi : WaitsDisabled s) :
    WaitsDisabled s' := by
  cases h with
  | readCastIPV6 _ hipv6 => cases htype.symm.trans hipv6
  | readExitNotify => exact fun _ hwait => absurd hwait (notify_write_ne_waiting _)
  | writeWait hpc => exact fun _ _ => ht.writeWait hpc
  | writeWake => exact fun _ hwait => absurd hwait (notify_write_ne_waiting _)
  | readWake hpc => exact fun hread => absurd hread (by simp [hpc, ReadPc.notify])
  | readRecv => exact fun hread => absurd hread (by simp)
  | writeCallSend => exact fun _ hwait => absurd hwait (by simp)
  | writeSend => exact fun _ hwait => absurd hwait (by simp)
  | @callBody i call rest hpc =>
    have hstore : call.stores = true := by
      have := hstores i
      rw [hpc] at this
      exact this call List.mem_cons_self
    cases call with
    | storeResponse response => exact hi
    | _ => cases hstore
  | _ =>
    first
    | exact hi
    | rintro ⟨⟩
    | rintro _ ⟨⟩

/-- **What holds once the read thread has returned**, and nobody is in a call. -/
structure ReadEnded (s : ThreadsTcpBroWorker w β) : Prop where
  reader : s.reader = .returned
  callers : Idle s
  doWork : DoWorkAgrees s
  locks : LockTable.Agrees s.locks s.held
  invalid : LeavesInvalid s
  tested : TestedUnderLock s
  inside : SendsInside s
  waiting : WaitsDisabled s

theorem ReadEnded.mClientFd (hi : ReadEnded s) : s.mContext.mClientFd = INVALID_FD :=
  hi.invalid.reader (by rw [hi.reader]; rfl)

/-- The read thread does not move any more. -/
theorem ReadEnded.not_reader (hi : ReadEnded s) {pc : ReadPc β} (hpc : s.reader = pc)
    (hne : pc ≠ .returned) : False :=
  hne (hpc.symm.trans hi.reader)

theorem ReadEnded.not_startRecv (hi : ReadEnded s) : s.doWork ≠ .startRecv := by
  intro hpc
  cases hi.reader.symm.trans (hi.doWork.recvStarted.mp (by rw [hpc]; rfl))

/-- A mutex the write thread is about to lock is free. -/
theorem ReadEnded.free (hi : ReadEnded s) {m : Mutex} (hwants : s.writer.wants = some m) :
    s.locks m = none := by
  refine Option.eq_none_iff_forall_ne_some.mpr fun t ht => ?_
  have hheld : s.held t = some m := (hi.locks m t).mp ht
  cases t with
  | recvThread => rw [held_reader hi.reader] at hheld; cases hheld
  | sendThread =>
    rw [held_eq_none_of_wants (t := .sendThread) hwants] at hheld
    cases hheld
  | caller i => rw [held, hi.callers i] at hheld; cases hheld

/-- **The steps that are left** are those of `doWork` and of the write thread. -/
theorem ReadEnded.thread (h : Step s a s' es) (hi : ReadEnded s) (hok : LeftAlone s a) :
    a = .doWork ∨ a.thread = some .sendThread := by
  have hreader (hmoves : s.reader ≠ .returned) : a = .doWork ∨ a.thread = some .sendThread :=
    absurd hi.reader hmoves
  have hcaller {i : ℕ} (hcalls : s.callers i ≠ .idle) :
      a = .doWork ∨ a.thread = some .sendThread := absurd (hi.callers i) hcalls
  cases h with
  | invoke => exact hok.elim
  | callLock hpc => exact hcaller (by rw [hpc]; exact nofun)
  | callBody hpc => exact hcaller (by rw [hpc]; exact nofun)
  | callReturn hpc => exact hcaller (by rw [hpc]; exact nofun)
  | callNext hpc => exact hcaller (by rw [hpc]; exact nofun)
  | readLock hpc => exact hreader (by rcases hpc with hpc | hpc <;> rw [hpc] <;> exact nofun)
  | _ =>
    first
    | exact .inl rfl
    | exact .inr rfl
    | have hpc := ‹s.reader = _›
      exact hreader (by rw [hpc]; exact nofun)

theorem ReadEnded.step (h : Step s a s' es) (hi : ReadEnded s) (hok : LeftAlone s a) :
    ReadEnded s' := by
  have hrest : s'.reader = .returned ∧ s'.callers = s.callers := by
    rcases hi.thread h hok with rfl | ht
    · cases h with
      | startRecv hpc => exact absurd hpc hi.not_startRecv
      | _ => exact ⟨hi.reader, rfl⟩
    · cases h with cases ht
      | writeExitNotify => exact ⟨by rw [notifyRead_reader, hi.reader]; rfl, rfl⟩
      | _ => exact ⟨hi.reader, rfl⟩
  exact
    { reader := hrest.1
      callers := fun i => by rw [hrest.2, hi.callers]
      doWork := hi.doWork.step h
      locks := agrees_step h hi.doWork hi.locks
      invalid := hi.invalid.step h
      tested := hi.tested.step h hi.locks
      inside := hi.inside.step h
      waiting := hi.waiting.step h hi.invalid.type hi.tested
        fun i c hc => by rw [hi.callers] at hc; cases hc }

/-- A `send` that is left fails. -/
theorem ReadEnded.answer (hi : ReadEnded s) {answer : IoResult}
    (hok : LeftAlone s (.send answer)) : ∃ e, answer = .error e := by
  cases answer with
  | error e => exact ⟨e, rfl⟩
  | count n => exact absurd hi.mClientFd hok

/-- **What a failed `send` leaves**: the write thread one byte back, or behind its
loop. -/
theorem ReadEnded.failed (hi : ReadEnded s) {fd : ℤ} {response : Buffer w β}
    {total_send : BitVec w} (hpc : s.writer = .send fd response total_send) (e : Errno) :
    let pc := inSendBytes fd response (sendBody response.size total_send (.error e))
    pc = .interruptionPoint
      ∨ ∃ back : BitVec w, back.toNat + 1 = total_send.toNat ∧ pc = .send fd response back := by
  have hsize : total_send.toNat < response.size.toNat := by
    rw [Buffer.toNat_size]
    exact hi.inside fd response total_send hpc
  rcases Nat.eq_zero_or_pos total_send.toNat with hzero | hpos
  · rw [sendBody_error_start e hsize hzero]
    exact .inl rfl
  · obtain ⟨back, hback, hbody⟩ := sendBody_error_later e hsize hpos
    rw [hbody]
    exact .inr ⟨back, hback, rfl⟩

/-- Behind the copy of the response the write thread is at the first `send` of it, or
through with it. -/
theorem inSendBytes_start (fd : ℤ) (response : Buffer w β) :
    let pc := inSendBytes fd response (test response.size 0#w)
    pc = .interruptionPoint ∨ pc = .send fd response 0#w := by
  rcases Nat.eq_zero_or_pos response.bytes.length with hnil | hpos
  · rw [test_of_le (by simp [hnil])]
    exact .inl rfl
  · rw [test_of_lt (by simpa using hpos)]
    exact .inr rfl

/-! ## The measure -/

/-- **Every step takes the measure down**, but those of a thread that waits. -/
theorem ReadEnded.toGo_lt (h : Step s a s' es) (hi : ReadEnded s) (hok : LeftAlone s a)
    (hnot : ¬ s.Waits) : s'.toGo < s.toGo := by
  rcases hi.thread h hok with rfl | ht
  · cases h with
    | startRecv hpc => exact absurd hpc hi.not_startRecv
    | startSend hpc =>
      have hwriter : s.writer = .unstarted := hi.doWork.sendStarted.mp (by rw [hpc]; rfl)
      simp only [toGo, hpc, hwriter, MainPc.toGo, WritePc.toGo]
      omega
    | _ =>
      have hpc := ‹s.doWork = _›
      simp [toGo, hpc, MainPc.toGo]
  · cases h with cases ht
    | writeLock hpc => rcases hpc with hpc | hpc <;> simp [toGo, hpc, WritePc.toGo]
    | writeDisabled hpc hflag => exact absurd ⟨by rw [hpc]; rfl, hflag⟩ hnot
    | writeWait hpc => exact absurd ⟨by rw [hpc]; rfl, hi.tested.writeWait hpc⟩ hnot
    | writeWake hpc => exact absurd ⟨by rw [hpc]; rfl, hi.waiting hi.reader hpc⟩ hnot
    | writeClear hpc => simp [toGo, hpc, hi.tested.writeClear hpc, WritePc.toGo]
    | @writeCallSend response hpc =>
      rcases inSendBytes_start s.mContext.mClientFd response with heq | heq <;>
        simp [toGo, hpc, heq, WritePc.toGo]
    | writeSend hpc =>
      obtain ⟨e, rfl⟩ := hi.answer hok
      rcases hi.failed hpc e with heq | ⟨back, hback, heq⟩
      · simp only [toGo, hpc, heq, WritePc.toGo]
        omega
      · simp only [toGo, hpc, heq, WritePc.toGo]
        omega
    | _ =>
      have hpc := ‹s.writer = _›
      simp [toGo, hpc, WritePc.toGo, ExitPc.toGo]

/-- `doWork` goes on where the write thread has returned, or not begun. -/
theorem ReadEnded.doWork_moves (hi : ReadEnded s) (hdestroyed : s.doWork ≠ .destroyed)
    (hwriter : s.writer = .returned ∨ s.writer = .unstarted) :
    ∃ next, s.stepDoWork = some next := by
  unfold stepDoWork
  cases hpc : s.doWork with
  | startRecv => exact absurd hpc hi.not_startRecv
  | destroyed => exact absurd hpc hdestroyed
  | joinRecv => simp [hi.reader]
  | joinSend =>
    rcases hwriter with hreturned | hunstarted
    · simp [hreturned]
    · have hnot := hi.doWork.sendStarted.mpr hunstarted
      rw [hpc] at hnot
      cases hnot
  | returned => simp [hi.mClientFd]
  | _ => exact ⟨_, rfl⟩

/-- **Some thread can move**, unless the write thread waits. -/
theorem ReadEnded.enabled (hi : ReadEnded s) (hdestroyed : s.doWork ≠ .destroyed)
    (hnot : ¬ s.Waits) : ∃ a next, LeftAlone s a ∧ (machine w β).step s a = some next := by
  have hmoves (hs : ∃ next, s.stepWriter = some next) :
      ∃ a next, LeftAlone s a ∧ (machine w β).step s a = some next := by
    obtain ⟨next, hs⟩ := hs
    exact ⟨.writer, next, trivial, hs⟩
  cases hpc : s.writer with
  | unstarted =>
    obtain ⟨next, hs⟩ := hi.doWork_moves hdestroyed (.inr hpc)
    exact ⟨.doWork, next, trivial, hs⟩
  | returned =>
    obtain ⟨next, hs⟩ := hi.doWork_moves hdestroyed (.inl hpc)
    exact ⟨.doWork, next, trivial, hs⟩
  | waiting => exact absurd ⟨by rw [hpc]; rfl, hi.waiting hi.reader hpc⟩ hnot
  | send fd response total_send =>
    have hanswer : (IoResult.error .EBADF).Allowed fd (response.size - total_send).toNat :=
      ⟨Nat.zero_le _, fun _ => rfl⟩
    obtain ⟨next, hs⟩ : ∃ next, s.stepSend (.error .EBADF) = some next := by
      simp only [stepSend, hpc, if_pos hanswer]
      exact ⟨_, rfl⟩
    exact ⟨.send (.error .EBADF), next, trivial, hs⟩
  | castContext => exact hmoves (by simp [stepWriter, hpc, hi.invalid.type])
  | interruptionPoint =>
    refine hmoves ?_
    cases hreq : s.sendInterrupted <;> simp [stepWriter, hpc, hreq]
  | lockWrite =>
    have hfree := hi.free (m := .mWriteMutex) (by rw [hpc]; rfl)
    exact hmoves (by simp [stepWriter, hpc, lock, hfree])
  | notified =>
    have hfree := hi.free (m := .mWriteMutex) (by rw [hpc]; rfl)
    exact hmoves (by simp [stepWriter, hpc, lock, hfree])
  | testEnabled =>
    refine hmoves ?_
    cases hflag : s.mIsWriteEnabled <;> simp [stepWriter, hpc, hflag]
  | lockResponse =>
    have hfree := hi.free (m := .mResponseMutex) (by rw [hpc]; rfl)
    exact hmoves (by simp [stepWriter, hpc, lock, hfree])
  | exit e =>
    refine hmoves ?_
    simp only [stepWriter, hpc]
    cases e with
    | lockContext =>
      have hfree := hi.free (m := .mMutex) (by rw [hpc]; rfl)
      simp [stepWriteExit, lock, hfree]
    | lockPeer =>
      have hfree := hi.free (m := .mReadMutex) (by rw [hpc]; rfl)
      simp [stepWriteExit, lock, hfree]
    | _ => exact ⟨_, rfl⟩
  | _ => exact hmoves (by simp [stepWriter, hpc])

/-! ## The fate of the write thread -/

/-- **No step changes whether it gets away.** -/
theorem ReadEnded.getsAway_iff (h : Step s a s' es) (hi : ReadEnded s) (hok : LeftAlone s a) :
    s'.GetsAway ↔ s.GetsAway := by
  rcases hi.thread h hok with rfl | ht
  · cases h with
    | startRecv hpc => exact absurd hpc hi.not_startRecv
    | startSend hpc =>
      have hwriter : s.writer = .unstarted := hi.doWork.sendStarted.mp (by rw [hpc]; rfl)
      simp [GetsAway, hwriter, WritePc.exited, WritePc.mayWait]
    | _ => exact .rfl
  · cases h with cases ht
    | writeCastIPV6 _ hipv6 => cases hi.invalid.type.symm.trans hipv6
    | writeLock hpc =>
      rcases hpc with hpc | hpc <;> simp [GetsAway, hpc, WritePc.exited, WritePc.mayWait]
    | writeWake hpc => simp [GetsAway, hpc]
    | @writeCallSend response hpc =>
      rcases inSendBytes_start s.mContext.mClientFd response with heq | heq <;>
        simp [GetsAway, hpc, heq, WritePc.exited, WritePc.mayWait]
    | writeSend hpc =>
      obtain ⟨e, rfl⟩ := hi.answer hok
      rcases hi.failed hpc e with heq | ⟨back, -, heq⟩ <;>
        simp [GetsAway, hpc, heq, WritePc.exited, WritePc.mayWait]
    | _ =>
      have hpc := ‹s.writer = _›
      simp [GetsAway, WritePc.exited, WritePc.mayWait, *]

/-- What waits does not get away. -/
theorem Waits.not_getsAway (h : s.Waits) : ¬ s.GetsAway := by
  obtain ⟨hwait, hflag⟩ := h
  rintro (hexited | ⟨-, hset⟩)
  · cases hpc : s.writer with rw [hpc] at hwait hexited
    | exit => cases hwait
    | returned => cases hwait
    | _ => cases hexited
  · exact absurd (hflag.symm.trans (hset hwait)) Bool.false_ne_true

theorem Waits.step (h : Step s a s' es) (hi : ReadEnded s) (hok : LeftAlone s a)
    (hwaits : s.Waits) : s'.Waits := by
  obtain ⟨hwait, hflag⟩ := hwaits
  rcases hi.thread h hok with rfl | ht
  · cases h with
    | startSend hpc =>
      rw [hi.doWork.sendStarted.mp (by rw [hpc]; rfl)] at hwait
      cases hwait
    | _ => exact ⟨hwait, hflag⟩
  · cases h with cases ht
    | writeWake => exact ⟨by simpa using hwait, hflag⟩
    | writeEnabled _ hset => exact absurd (hflag.symm.trans hset) Bool.false_ne_true
    | _ =>
      first
      | exact ⟨rfl, hflag⟩
      | exact absurd hwait (by simp [WritePc.mayWait, *])

/-- **A wait is for ever.** -/
theorem ReadEnded.waitsForEver (hi : ReadEnded s) (hwaits : s.Waits) : s.WaitsForEver := by
  intro es s' hrun
  have hboth := hrun.stateInvariant (I := fun s => ReadEnded s ∧ s.Waits) ⟨hi, hwaits⟩
    fun hi hok hs => ⟨hi.1.step (Step.of_step hs) hok, hi.2.step (Step.of_step hs) hi.1 hok⟩
  exact hboth.2

/-- A worker that has been destroyed had no thread left. -/
theorem ReadEnded.getsAway_of_destroyed (hi : ReadEnded s) (hpc : s.doWork = .destroyed) :
    s.GetsAway := by
  have hwriter : s.writer = .returned := hi.doWork.sendJoined (by rw [hpc]; rfl)
  exact .inl (by rw [hwriter]; rfl)

theorem ReadEnded.returns (hi : ReadEnded s) (haway : s.GetsAway) :
    (machine w β).Inevitable LeftAlone (fun s => s.doWork.sendJoined = true) s := by
  refine .of_measure (I := fun s => ReadEnded s ∧ s.GetsAway) toGo ?_ ?_ ⟨hi, haway⟩
  · rintro s ⟨hi, haway⟩ hnot
    exact hi.enabled (fun hpc => hnot (by rw [hpc]; rfl))
      fun hwaits => hwaits.not_getsAway haway
  · rintro s a s' es ⟨hi, haway⟩ - hok hs
    have hstep := Step.of_step hs
    exact .inr ⟨⟨hi.step hstep hok, (hi.getsAway_iff hstep hok).mpr haway⟩,
      hi.toGo_lt hstep hok fun hwaits => hwaits.not_getsAway haway⟩

theorem ReadEnded.strands (hi : ReadEnded s) (hno : ¬ s.GetsAway) :
    (machine w β).Inevitable LeftAlone WaitsForEver s := by
  refine .of_measure (I := fun s => ReadEnded s ∧ ¬ s.GetsAway) toGo ?_ ?_ ⟨hi, hno⟩
  · rintro s ⟨hi, hno⟩ hnot
    exact hi.enabled (fun hpc => hno (hi.getsAway_of_destroyed hpc))
      fun hwaits => hnot (hi.waitsForEver hwaits)
  · rintro s a s' es ⟨hi, hno⟩ hnot hok hs
    have hstep := Step.of_step hs
    exact .inr ⟨⟨hi.step hstep hok, fun haway => hno ((hi.getsAway_iff hstep hok).mp haway)⟩,
      hi.toGo_lt hstep hok fun hwaits => hnot (hi.waitsForEver hwaits)⟩

/-! ## Along a run -/

theorem waitsDisabled_of_run (htype : context.type = .IPV4SocketContext)
    (h : (machine w β).Run Uncalled (init context) es s) : WaitsDisabled s :=
  h.invariant (I := fun _ s => WaitsDisabled s) (by rintro ⟨⟩)
    fun hrun hi _ hs => hi.step (Step.of_step hs) ((type_of_run hrun).trans htype)
      (testedUnderLock_of_run hrun) (onlyStores_of_run (fun _ _ hok => hok) hrun)

end Invariants

/-- **The fate of a worker is decided when its read thread returns**, on a context of type
`IPV4SocketContext`. If the write thread gets away, `doWork` returns on every schedule; and
if not, every schedule leads to the write thread waiting for ever, with `doWork` at its
join. -/
theorem fate_is_decided {context : SocketContext w β} {es : List (Event w β)}
    {s : ThreadsTcpBroWorker w β} (htype : context.type = .IPV4SocketContext)
    (h : (machine w β).Run Uncalled (init context) es s) (hdone : s.reader = .returned)
    (hcallers : s.Idle) :
    (s.GetsAway → (machine w β).Inevitable LeftAlone (fun s => s.doWork.sendJoined = true) s)
      ∧ (¬ s.GetsAway → (machine w β).Inevitable LeftAlone WaitsForEver s) := by
  have hi : ReadEnded s :=
    { reader := hdone
      callers := hcallers
      doWork := doWorkAgrees_of_run h
      locks := agrees_of_run h
      invalid := leavesInvalid_of_run htype h
      tested := testedUnderLock_of_run h
      inside := sendsInside_of_run h
      waiting := waitsDisabled_of_run htype h }
  exact ⟨hi.returns, hi.strands⟩

/-- `doWork` takes `n` steps, and the client closes its end. -/
def closesAfter (n : ℕ) : List (Action 64 ℕ) :=
  times n .doWork ++ times 6 .reader ++ [.recv (.got [])] ++ times 8 .reader

/-- The client closes its end. Where `mSendThread` holds the write thread, it will find the
interruption requested; and where it does not hold it yet, nobody is interrupted, and the
write thread will wait for ever. -/
theorem fate_is_decided_peerCloses :
    (∃ es s, (machine 64 ℕ).Run Uncalled (init aClient) es s ∧ s.doWork = .joinRecv
      ∧ (machine 64 ℕ).Inevitable LeftAlone (fun s => s.doWork.sendJoined = true) s)
    ∧ ∃ es s, (machine 64 ℕ).Run Uncalled (init aClient) es s ∧ s.doWork = .storeSend
      ∧ (machine 64 ℕ).Inevitable LeftAlone WaitsForEver s := by
  constructor
  · obtain ⟨es, s, hrun, hdone, hpc, haway⟩ :
        ∃ es s, (machine 64 ℕ).Run Unattended (init aClient) es s ∧ s.reader = .returned
          ∧ s.doWork = .joinRecv ∧ s.GetsAway := by
      refine Machine.Run.exists_of_exec (closesAfter 4) ?_
      rfl
    have huncalled := hrun.mono fun _ _ => Unattended.uncalled
    exact ⟨es, s, huncalled, hpc,
      (fate_is_decided rfl huncalled hdone (idle_of_run hrun)).1 haway⟩
  · obtain ⟨es, s, hrun, hdone, hpc, hwaits⟩ :
        ∃ es s, (machine 64 ℕ).Run Unattended (init aClient) es s ∧ s.reader = .returned
          ∧ s.doWork = .storeSend ∧ ¬ s.GetsAway := by
      refine Machine.Run.exists_of_exec (closesAfter 3) ?_
      rfl
    have huncalled := hrun.mono fun _ _ => Unattended.uncalled
    exact ⟨es, s, huncalled, hpc,
      (fate_is_decided rfl huncalled hdone (idle_of_run hrun)).2 hwaits⟩

end ThreadsTcpBroWorker
