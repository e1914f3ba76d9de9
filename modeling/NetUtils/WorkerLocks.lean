import NetUtils.WorkerStep

/-!
# A worker is free of mutex deadlock

A worker's threads lock five mutexes, but each of them one at a time: a
thread that comes to a lock has unlocked what it held before. The lock table
agrees with the program points (`agrees_of_run`), so it is enough to look at
these: a program point at which a mutex is wanted holds none
(`held_eq_none_of_wants`), and neither do those in `recv`, in `send`, and
those at which an exit handler is entered – from whichever exit of the loop.

That `wants` names the points at which a thread can be kept by a mutex is
`moves_iff_free`.
-/

open Transfer

variable {w : ℕ} {β : Type}

/-- The mutex wanted next in a scope-exit handler; `peer` is the one of the
enable method it calls. -/
def ExitPc.wants (peer : Mutex) : ExitPc → Option Mutex
  | lockContext => some .mMutex
  | lockPeer => some peer
  | _ => none

/-- The mutex the read thread is about to lock. -/
def ReadPc.wants : ReadPc β → Option Mutex
  | lockRead => some .mReadMutex
  | notified => some .mReadMutex
  | lockRequest _ => some .mRequestMutex
  | exit e => e.wants .mWriteMutex
  | _ => none

/-- The mutex the write thread is about to lock. -/
def WritePc.wants : WritePc w β → Option Mutex
  | lockWrite => some .mWriteMutex
  | notified => some .mWriteMutex
  | lockResponse => some .mResponseMutex
  | exit e => e.wants .mReadMutex
  | _ => none

/-- The mutex a calling thread is about to lock. -/
def CallerPc.wants : CallerPc w β → Option Mutex
  | inCall .lock call _ => some call.mutex
  | _ => none

/-- The read thread is in its scope-exit handler. -/
def ReadPc.inExit : ReadPc β → Bool
  | exit _ => true
  | _ => false

/-- The write thread is in its scope-exit handler. -/
def WritePc.inExit : WritePc w β → Bool
  | exit _ => true
  | _ => false

namespace ThreadsTcpBroWorker

/-- The mutex a thread is about to lock, by where it stands. -/
def wants (s : ThreadsTcpBroWorker w β) : Thread → Option Mutex
  | .recvThread => s.reader.wants
  | .sendThread => s.writer.wants
  | .caller i => (s.callers i).wants

section Wanting

variable {s s' : ThreadsTcpBroWorker w β} {a : Action w β} {es : List (Event w β)}
variable {t : Thread} {m : Mutex}

@[simp] theorem inExit_notify_read (pc : ReadPc β) : pc.notify.inExit = pc.inExit :=
  apply_notify_read ReadPc.inExit rfl pc

@[simp] theorem inExit_notify_write (pc : WritePc w β) : pc.notify.inExit = pc.inExit :=
  apply_notify_write WritePc.inExit rfl pc

/-- A thread about to lock a mutex holds none. -/
theorem held_eq_none_of_wants (h : s.wants t = some m) : s.held t = none := by
  cases t with
  | recvThread =>
    cases hpc : s.reader with
    | exit e => cases e <;> simp_all [wants, held, ReadPc.wants, ReadPc.held, ExitPc.wants,
        ExitPc.held]
    | _ => simp_all [wants, held, ReadPc.wants, ReadPc.held]
  | sendThread =>
    cases hpc : s.writer with
    | exit e => cases e <;> simp_all [wants, held, WritePc.wants, WritePc.held, ExitPc.wants,
        ExitPc.held]
    | _ => simp_all [wants, held, WritePc.wants, WritePc.held]
  | caller i =>
    cases hpc : s.callers i with
    | idle => simp_all [wants, CallerPc.wants]
    | inCall stage call rest => cases stage <;> simp_all [wants, held, CallerPc.wants,
        CallerPc.held]

/-- A thread about to lock a mutex takes no step while another holds it. -/
theorem Step.free_of_wants (h : Step s a s' es) (ht : a.thread = some t)
    (hw : s.wants t = some m) : s.locks m = none := by
  cases h with cases ht
  | readLock hpc hfree =>
    rcases hpc with hpc | hpc <;>
      · rw [wants, hpc] at hw
        cases hw
        exact hfree
  | writeLock hpc hfree =>
    rcases hpc with hpc | hpc <;>
      · rw [wants, hpc] at hw
        cases hw
        exact hfree
  | _ =>
    simp only [wants, *] at hw
    cases hw
    try assumption

/-- The step of a thread about to lock a mutex is to lock it. -/
theorem step_of_wants (hw : s.wants t = some m) :
    ∃ a next, a.thread = some t ∧ s.step a = s.lock m t next := by
  cases t with
  | recvThread =>
    cases hpc : s.reader with
    | exit e =>
      cases e with (simp only [wants, ReadPc.wants, ExitPc.wants, hpc] at hw; cases hw)
      | _ => exact ⟨.reader, _, rfl, by simp only [step, stepReader, hpc, stepReadExit]; rfl⟩
    | _ =>
      simp only [wants, ReadPc.wants, hpc] at hw
      cases hw
      try exact ⟨.reader, _, rfl, by simp only [step, stepReader, hpc]; rfl⟩
  | sendThread =>
    cases hpc : s.writer with
    | exit e =>
      cases e with (simp only [wants, WritePc.wants, ExitPc.wants, hpc] at hw; cases hw)
      | _ => exact ⟨.writer, _, rfl, by simp only [step, stepWriter, hpc, stepWriteExit]; rfl⟩
    | _ =>
      simp only [wants, WritePc.wants, hpc] at hw
      cases hw
      try exact ⟨.writer, _, rfl, by simp only [step, stepWriter, hpc]; rfl⟩
  | caller i =>
    cases hpc : s.callers i with
    | idle => rw [wants, hpc] at hw; cases hw
    | inCall stage call rest =>
      cases stage with (simp only [wants, CallerPc.wants, hpc] at hw; cases hw)
      | lock => exact ⟨.caller i, _, rfl, by simp only [step, stepCaller, hpc]; rfl⟩

/-- **A thread that wants a mutex is kept by it and by nothing else**: it can
take a step if and only if the mutex is free. -/
theorem moves_iff_free (hw : s.wants t = some m) :
    (∃ a s' es, a.thread = some t ∧ s.step a = some (s', es)) ↔ s.locks m = none := by
  constructor
  · rintro ⟨a, s', es, ht, hs⟩
    exact (Step.of_step hs).free_of_wants ht hw
  · intro hfree
    obtain ⟨a, next, ht, hlock⟩ := step_of_wants hw
    exact ⟨a, next (s.lockedBy m t), [], ht, by rw [hlock, lock, if_pos hfree]⟩

/-- The read thread enters its handler at the top. -/
theorem Step.readExit (h : Step s a s' es) (hbefore : s.reader.inExit = false)
    (hafter : s'.reader.inExit = true) : s'.reader = .exit .lockContext := by
  cases h with
  | readInterrupted => rfl
  | readRecv =>
    refine afterRecv_cases (P := fun pc => pc.inExit = true → pc = .exit .lockContext) _
      ?_ (fun _ => rfl) ?_ hafter
    · rintro ⟨⟩
    · rintro _ ⟨⟩
  | readWake => simp [hbefore] at hafter
  | writeExitNotify => simp [hbefore] at hafter
  | callBody => simp [hbefore] at hafter
  | _ =>
    first
    | exact absurd hafter Bool.false_ne_true
    | exact absurd (hbefore.symm.trans hafter) Bool.false_ne_true
    | exact absurd hbefore (by rw [‹s.reader = _›]; exact Bool.false_ne_true.symm)

/-- The write thread enters its handler at the top. -/
theorem Step.writeExit (h : Step s a s' es) (hbefore : s.writer.inExit = false)
    (hafter : s'.writer.inExit = true) : s'.writer = .exit .lockContext := by
  have hsend (fd : ℤ) (response : Buffer w β) (phase : Phase w) :
      (inSendBytes fd response phase).inExit = true →
        inSendBytes fd response phase = .exit .lockContext := by
    refine inSendBytes_cases (P := fun pc => pc.inExit = true → pc = .exit .lockContext)
      fd response phase ?_ ?_ (fun _ => rfl)
    · rintro _ ⟨⟩
    · rintro ⟨⟩
  cases h with
  | writeInterrupted => rfl
  | writeCallSend => exact hsend _ _ _ hafter
  | writeSend => exact hsend _ _ _ hafter
  | writeWake => simp [hbefore] at hafter
  | readExitNotify => simp [hbefore] at hafter
  | callBody => simp [hbefore] at hafter
  | _ =>
    first
    | exact absurd hafter Bool.false_ne_true
    | exact absurd (hbefore.symm.trans hafter) Bool.false_ne_true
    | exact absurd hbefore (by rw [‹s.writer = _›]; exact Bool.false_ne_true.symm)

end Wanting

/-- **What a worker does with its mutexes** in a state. -/
structure LocksOneByOne (s : ThreadsTcpBroWorker w β) : Prop where
  /-- A thread holds at most one mutex. -/
  atMostOne : ∀ t m m', s.locks m = some t → s.locks m' = some t → m = m'
  /-- In `recv` the read thread holds none. -/
  recv : ∀ fd, s.reader = .recv fd → ∀ m, s.locks m ≠ some .recvThread
  /-- In `send` the write thread holds none. -/
  send : ∀ fd response total_send, s.writer = .send fd response total_send →
    ∀ m, s.locks m ≠ some .sendThread
  /-- The read thread holds none as it enters its exit handler. -/
  readExit : ∀ a s' es, s.step a = some (s', es) → s.reader.inExit = false →
    s'.reader.inExit = true → ∀ m, s'.locks m ≠ some .recvThread
  /-- The write thread holds none as it enters its exit handler. -/
  writeExit : ∀ a s' es, s.step a = some (s', es) → s.writer.inExit = false →
    s'.writer.inExit = true → ∀ m, s'.locks m ≠ some .sendThread
  /-- No threads are blocked each on a mutex one of them holds. -/
  notDeadlocked : ∀ S, ¬ LockTable.Deadlocked s.locks s.wants S
  /-- No thread is about to lock a mutex it holds. -/
  notRelocking : ∀ t m, s.wants t = some m → s.locks m ≠ some t

/-- **A worker is free of mutex deadlock**, in every state it reaches. -/
theorem locksOneByOne_of_run {context : SocketContext w β} {es : List (Event w β)}
    {s : ThreadsTcpBroWorker w β} (h : (machine w β).Run Machine.always (init context) es s) :
    LocksOneByOne s := by
  have hl := agrees_of_run h
  refine ⟨fun _ _ _ => hl.eq_of_holds, ?_, ?_, ?_, ?_, ?_, ?_⟩
  · intro fd hpc
    exact hl.ne_some (by rw [held_reader hpc]; rfl)
  · intro fd response total_send hpc
    exact hl.ne_some (by rw [held_writer hpc]; rfl)
  · intro a s' es' hs hbefore hafter
    have hpc := (Step.of_step hs).readExit hbefore hafter
    exact (agrees_of_run (h.snoc trivial hs)).ne_some (by rw [held_reader hpc]; rfl)
  · intro a s' es' hs hbefore hafter
    have hpc := (Step.of_step hs).writeExit hbefore hafter
    exact (agrees_of_run (h.snoc trivial hs)).ne_some (by rw [held_writer hpc]; rfl)
  · exact hl.not_deadlocked fun _ _ => held_eq_none_of_wants
  · exact fun t m hw => hl.ne_some (held_eq_none_of_wants hw) m

/-- The read thread in `recv` while a caller is about to lock `mReadMutex`:
neither keeps the other. -/
theorem locksOneByOne_of_run_inRecv :
    ∃ es s, (machine 64 ℕ).Run Machine.always (init aClient) es s
      ∧ s.reader = .recv 5 ∧ s.wants (.caller 0) = some .mReadMutex
      ∧ LocksOneByOne s := by
  obtain ⟨es, s, hrun, hpc, hw⟩ : ∃ es s, (machine 64 ℕ).Run Machine.always (init aClient) es s
      ∧ s.reader = .recv 5 ∧ s.wants (.caller 0) = some .mReadMutex := by
    refine Machine.Run.exists_of_exec
      (times 4 .doWork ++ times 6 .reader ++ [.invoke 0 .disbaleReadEvent []]) ?_
    rfl
  exact ⟨es, s, hrun, hpc, hw, locksOneByOne_of_run hrun⟩

end ThreadsTcpBroWorker
