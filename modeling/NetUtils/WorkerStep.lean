import NetUtils.ThreadsTcpBroWorker

/-!
# What a step of a worker can do

`Step s a s' es` lists the steps of `NetUtils.ThreadsTcpBroWorker` one by
one, each with its guard, the state after it and its events, and
`Step.of_step` is the inversion of the step function into that list. Every
invariant of a worker is proved by cases on it, so what a thread does at a
program point is worked out once.

The first invariant is mutual exclusion: the lock table agrees with what the
program points of the threads say they hold (`agrees_of_run`).
-/

open Transfer

variable {w : ℕ} {β : Type}

namespace ThreadsTcpBroWorker

/-- **The steps of a worker, one by one.** -/
inductive Step (s : ThreadsTcpBroWorker w β) :
    Action w β → ThreadsTcpBroWorker w β → List (Event w β) → Prop where
  -- `doWork`
  | startRecv (hpc : s.doWork = .startRecv) :
      Step s .doWork { s with reader := .castContext, doWork := .storeRecv } []
  | storeRecv (hpc : s.doWork = .storeRecv) :
      Step s .doWork { s with mRecvThread := true, doWork := .startSend } []
  | startSend (hpc : s.doWork = .startSend) :
      Step s .doWork { s with writer := .castContext, doWork := .storeSend } []
  | storeSend (hpc : s.doWork = .storeSend) :
      Step s .doWork { s with mSendThread := true, doWork := .joinRecv } []
  | joinRecv (hpc : s.doWork = .joinRecv) (hreader : s.reader = .returned) :
      Step s .doWork { s with mRecvThread := false, doWork := .joinSend } []
  | joinSend (hpc : s.doWork = .joinSend) (hwriter : s.writer = .returned) :
      Step s .doWork { s with mSendThread := false, doWork := .returned } []
  | destroyClosed (hpc : s.doWork = .returned) (hfd : s.mContext.mClientFd = INVALID_FD) :
      Step s .doWork { s with doWork := .destroyed } []
  | destroyOpen (hpc : s.doWork = .returned) (hfd : s.mContext.mClientFd ≠ INVALID_FD) :
      Step s .doWork { s with doWork := .destroyed } [.close s.mContext.mClientFd]
  -- `handleReadEvent`
  | readCastIPV4 (hpc : s.reader = .castContext)
      (htype : s.mContext.type = .IPV4SocketContext) :
      Step s .reader { s with reader := .interruptionPoint } []
  | readCastIPV6 (hpc : s.reader = .castContext)
      (htype : s.mContext.type = .IPV6SocketContext) :
      Step s .reader { s with reader := .returned } []
  | readInterrupted (hpc : s.reader = .interruptionPoint) (hreq : s.recvInterrupted = true) :
      Step s .reader { s with recvInterrupted := false, reader := .exit .lockContext } []
  | readGoOn (hpc : s.reader = .interruptionPoint) (hreq : s.recvInterrupted = false) :
      Step s .reader { s with reader := .lockRead } []
  | readLock (hpc : s.reader = .lockRead ∨ s.reader = .notified)
      (hfree : s.locks .mReadMutex = none) :
      Step s .reader { s.lockedBy .mReadMutex .recvThread with reader := .testEnabled } []
  | readEnabled (hpc : s.reader = .testEnabled) (hflag : s.mIsReadEnabled = true) :
      Step s .reader { s with reader := .unlockRead } []
  | readDisabled (hpc : s.reader = .testEnabled) (hflag : s.mIsReadEnabled = false) :
      Step s .reader { s with reader := .enterWait } []
  | readWait (hpc : s.reader = .enterWait) :
      Step s .reader { s.unlock .mReadMutex with reader := .waiting } []
  | readUnlock (hpc : s.reader = .unlockRead) :
      Step s .reader { s.unlock .mReadMutex with reader := .loadFd } []
  | readLoadFd (hpc : s.reader = .loadFd) :
      Step s .reader { s with reader := .recv s.mContext.mClientFd } []
  | readLockRequest {chunk : List β} (hpc : s.reader = .lockRequest chunk)
      (hfree : s.locks .mRequestMutex = none) :
      Step s .reader { s.lockedBy .mRequestMutex .recvThread with reader := .append chunk } []
  | readAppend {chunk : List β} (hpc : s.reader = .append chunk) :
      Step s .reader { s with
        mContext := { s.mContext with mRequest := s.mContext.mRequest ++ chunk }
        reader := .unlockRequest } []
  | readUnlockRequest (hpc : s.reader = .unlockRequest) :
      Step s .reader { s.unlock .mRequestMutex with reader := .interruptionPoint } []
  | readRecv {fd : ℤ} {answer : Received β} (hpc : s.reader = .recv fd)
      (hanswer : answer.Allowed fd) :
      Step s (.recv answer) { s with reader := afterRecv answer } [.recv fd answer]
  | readWake (hpc : s.reader = .waiting) : Step s .wakeReader s.notifyRead []
  -- the scope-exit handler of `handleReadEvent`
  | readExitLock (hpc : s.reader = .exit .lockContext) (hfree : s.locks .mMutex = none) :
      Step s .reader { s.lockedBy .mMutex .recvThread with reader := .exit .close } []
  | readExitClose (hpc : s.reader = .exit .close) :
      Step s .reader { s.invalidate with reader := .exit .unlockContext }
        [.close s.mContext.mClientFd]
  | readExitUnlock (hpc : s.reader = .exit .unlockContext) :
      Step s .reader { s.unlock .mMutex with reader := .exit .lockPeer } []
  | readExitLockPeer (hpc : s.reader = .exit .lockPeer)
      (hfree : s.locks .mWriteMutex = none) :
      Step s .reader
        { s.lockedBy .mWriteMutex .recvThread with reader := .exit .enablePeer } []
  | readExitEnable (hpc : s.reader = .exit .enablePeer) :
      Step s .reader { s.enableWriteEvent with reader := .exit .unlockPeer } []
  | readExitUnlockPeer (hpc : s.reader = .exit .unlockPeer) :
      Step s .reader { s.unlock .mWriteMutex with reader := .exit .interruptPeer } []
  | readExitInterrupt (hpc : s.reader = .exit .interruptPeer) :
      Step s .reader { s.interruptSend with reader := .exit .notifyPeer } []
  | readExitNotify (hpc : s.reader = .exit .notifyPeer) :
      Step s .reader { s.notifyWrite with reader := .returned } []
  -- `handleWriteEvent`
  | writeCastIPV4 (hpc : s.writer = .castContext)
      (htype : s.mContext.type = .IPV4SocketContext) :
      Step s .writer { s with writer := .interruptionPoint } []
  | writeCastIPV6 (hpc : s.writer = .castContext)
      (htype : s.mContext.type = .IPV6SocketContext) :
      Step s .writer { s with writer := .returned } []
  | writeInterrupted (hpc : s.writer = .interruptionPoint) (hreq : s.sendInterrupted = true) :
      Step s .writer { s with sendInterrupted := false, writer := .exit .lockContext } []
  | writeGoOn (hpc : s.writer = .interruptionPoint) (hreq : s.sendInterrupted = false) :
      Step s .writer { s with writer := .lockWrite } []
  | writeLock (hpc : s.writer = .lockWrite ∨ s.writer = .notified)
      (hfree : s.locks .mWriteMutex = none) :
      Step s .writer { s.lockedBy .mWriteMutex .sendThread with writer := .testEnabled } []
  | writeEnabled (hpc : s.writer = .testEnabled) (hflag : s.mIsWriteEnabled = true) :
      Step s .writer { s with writer := .clearEnabled } []
  | writeDisabled (hpc : s.writer = .testEnabled) (hflag : s.mIsWriteEnabled = false) :
      Step s .writer { s with writer := .enterWait } []
  | writeWait (hpc : s.writer = .enterWait) :
      Step s .writer { s.unlock .mWriteMutex with writer := .waiting } []
  | writeClear (hpc : s.writer = .clearEnabled) :
      Step s .writer { s with mIsWriteEnabled := false, writer := .unlockWrite } []
  | writeUnlock (hpc : s.writer = .unlockWrite) :
      Step s .writer { s.unlock .mWriteMutex with writer := .lockResponse } []
  | writeLockResponse (hpc : s.writer = .lockResponse)
      (hfree : s.locks .mResponseMutex = none) :
      Step s .writer
        { s.lockedBy .mResponseMutex .sendThread with writer := .copyResponse } []
  | writeCopy (hpc : s.writer = .copyResponse) :
      Step s .writer { s with writer := .unlockResponse s.mContext.mResponse }
        [.copied s.mContext.mResponse]
  | writeUnlockResponse {response : Buffer w β} (hpc : s.writer = .unlockResponse response) :
      Step s .writer { s.unlock .mResponseMutex with writer := .callSend response } []
  | writeCallSend {response : Buffer w β} (hpc : s.writer = .callSend response) :
      Step s .writer { s with
        writer := inSendBytes s.mContext.mClientFd response (test response.size 0#w) }
        [.sendBytes s.mContext.mClientFd response]
  | writeSend {fd : ℤ} {response : Buffer w β} {total_send : BitVec w} {answer : IoResult}
      (hpc : s.writer = .send fd response total_send)
      (hanswer : answer.Allowed fd (response.size - total_send).toNat) :
      Step s (.send answer) { s with
        writer := inSendBytes fd response
          (IOHelper.sendBody response.size total_send answer) }
        [.send fd ⟨total_send.toNat, (response.size - total_send).toNat, answer⟩]
  | writeWake (hpc : s.writer = .waiting) : Step s .wakeWriter s.notifyWrite []
  -- the scope-exit handler of `handleWriteEvent`
  | writeExitLock (hpc : s.writer = .exit .lockContext) (hfree : s.locks .mMutex = none) :
      Step s .writer { s.lockedBy .mMutex .sendThread with writer := .exit .close } []
  | writeExitClose (hpc : s.writer = .exit .close) :
      Step s .writer { s.invalidate with writer := .exit .unlockContext }
        [.close s.mContext.mClientFd]
  | writeExitUnlock (hpc : s.writer = .exit .unlockContext) :
      Step s .writer { s.unlock .mMutex with writer := .exit .lockPeer } []
  | writeExitLockPeer (hpc : s.writer = .exit .lockPeer)
      (hfree : s.locks .mReadMutex = none) :
      Step s .writer
        { s.lockedBy .mReadMutex .sendThread with writer := .exit .enablePeer } []
  | writeExitEnable (hpc : s.writer = .exit .enablePeer) :
      Step s .writer { s.enableReadEvent with writer := .exit .unlockPeer } []
  | writeExitUnlockPeer (hpc : s.writer = .exit .unlockPeer) :
      Step s .writer { s.unlock .mReadMutex with writer := .exit .interruptPeer } []
  | writeExitInterrupt (hpc : s.writer = .exit .interruptPeer) :
      Step s .writer { s.interruptRecv with writer := .exit .notifyPeer } []
  | writeExitNotify (hpc : s.writer = .exit .notifyPeer) :
      Step s .writer { s.notifyRead with writer := .returned } []
  -- the threads that call the worker's methods
  | invoke {i : ℕ} {call : WorkerCall w β} {rest : List (WorkerCall w β)}
      (hpc : s.callers i = .idle) :
      Step s (.invoke i call rest) (s.setCaller i (.inCall .lock call rest)) []
  | callLock {i : ℕ} {call : WorkerCall w β} {rest : List (WorkerCall w β)}
      (hpc : s.callers i = .inCall .lock call rest) (hfree : s.locks call.mutex = none) :
      Step s (.caller i)
        ((s.lockedBy call.mutex (.caller i)).setCaller i (.inCall .body call rest)) []
  | callBody {i : ℕ} {call : WorkerCall w β} {rest : List (WorkerCall w β)}
      (hpc : s.callers i = .inCall .body call rest) :
      Step s (.caller i) ((s.assign call).setCaller i (.inCall .unlock call rest))
        [.called i call]
  | callReturn {i : ℕ} {call : WorkerCall w β} (hpc : s.callers i = .inCall .unlock call []) :
      Step s (.caller i) ((s.unlock call.mutex).setCaller i .idle) []
  | callNext {i : ℕ} {call next : WorkerCall w β} {rest : List (WorkerCall w β)}
      (hpc : s.callers i = .inCall .unlock call (next :: rest)) :
      Step s (.caller i) ((s.unlock call.mutex).setCaller i (.inCall .lock next rest)) []

namespace Step

variable {s s' : ThreadsTcpBroWorker w β} {es : List (Event w β)}

theorem of_lock {m : Mutex} {t : Thread}
    {next : ThreadsTcpBroWorker w β → ThreadsTcpBroWorker w β}
    (h : s.lock m t next = some (s', es)) :
    s.locks m = none ∧ next (s.lockedBy m t) = s' ∧ [] = es := by
  unfold lock at h
  split at h
  · exact ⟨‹_›, by simpa using h⟩
  · cases h

theorem of_stepDoWork (h : s.stepDoWork = some (s', es)) : Step s .doWork s' es := by
  unfold stepDoWork at h
  split at h
  case h_1 hpc => cases h; exact .startRecv hpc
  case h_2 hpc => cases h; exact .storeRecv hpc
  case h_3 hpc => cases h; exact .startSend hpc
  case h_4 hpc => cases h; exact .storeSend hpc
  case h_5 hpc =>
    split at h
    · cases h; exact .joinRecv hpc ‹_›
    · cases h
  case h_6 hpc =>
    split at h
    · cases h; exact .joinSend hpc ‹_›
    · cases h
  case h_7 hpc =>
    split at h
    · cases h; exact .destroyClosed hpc ‹_›
    · cases h; exact .destroyOpen hpc ‹_›
  case h_8 => cases h

theorem of_stepReadExit {e : ExitPc} (hpc : s.reader = .exit e)
    (h : s.stepReadExit e = some (s', es)) : Step s .reader s' es := by
  cases e with simp only [stepReadExit] at h
  | lockContext => obtain ⟨hfree, rfl, rfl⟩ := of_lock h; exact .readExitLock hpc hfree
  | close => cases h; exact .readExitClose hpc
  | unlockContext => cases h; exact .readExitUnlock hpc
  | lockPeer => obtain ⟨hfree, rfl, rfl⟩ := of_lock h; exact .readExitLockPeer hpc hfree
  | enablePeer => cases h; exact .readExitEnable hpc
  | unlockPeer => cases h; exact .readExitUnlockPeer hpc
  | interruptPeer => cases h; exact .readExitInterrupt hpc
  | notifyPeer => cases h; exact .readExitNotify hpc

theorem of_stepReader (h : s.stepReader = some (s', es)) : Step s .reader s' es := by
  cases hpc : s.reader with simp only [stepReader, hpc] at h
  | unstarted => cases h
  | castContext =>
    split at h
    · cases h; exact .readCastIPV4 hpc ‹_›
    · cases h; exact .readCastIPV6 hpc ‹_›
  | interruptionPoint =>
    split at h
    · cases h; exact .readInterrupted hpc ‹_›
    · cases h; exact .readGoOn hpc (Bool.of_not_eq_true ‹_›)
  | lockRead => obtain ⟨hfree, rfl, rfl⟩ := of_lock h; exact .readLock (.inl hpc) hfree
  | testEnabled =>
    split at h
    · cases h; exact .readEnabled hpc ‹_›
    · cases h; exact .readDisabled hpc (Bool.of_not_eq_true ‹_›)
  | enterWait => cases h; exact .readWait hpc
  | waiting => cases h
  | notified => obtain ⟨hfree, rfl, rfl⟩ := of_lock h; exact .readLock (.inr hpc) hfree
  | unlockRead => cases h; exact .readUnlock hpc
  | loadFd => cases h; exact .readLoadFd hpc
  | recv fd => cases h
  | lockRequest chunk =>
    obtain ⟨hfree, rfl, rfl⟩ := of_lock h; exact .readLockRequest hpc hfree
  | append chunk => cases h; exact .readAppend hpc
  | unlockRequest => cases h; exact .readUnlockRequest hpc
  | exit e => exact of_stepReadExit hpc h
  | returned => cases h

theorem of_stepRecv {answer : Received β} (h : s.stepRecv answer = some (s', es)) :
    Step s (.recv answer) s' es := by
  unfold stepRecv at h
  split at h
  case h_1 fd hpc =>
    split at h
    · cases h; exact .readRecv hpc ‹_›
    · cases h
  case h_2 => cases h

theorem of_stepWriteExit {e : ExitPc} (hpc : s.writer = .exit e)
    (h : s.stepWriteExit e = some (s', es)) : Step s .writer s' es := by
  cases e with simp only [stepWriteExit] at h
  | lockContext => obtain ⟨hfree, rfl, rfl⟩ := of_lock h; exact .writeExitLock hpc hfree
  | close => cases h; exact .writeExitClose hpc
  | unlockContext => cases h; exact .writeExitUnlock hpc
  | lockPeer => obtain ⟨hfree, rfl, rfl⟩ := of_lock h; exact .writeExitLockPeer hpc hfree
  | enablePeer => cases h; exact .writeExitEnable hpc
  | unlockPeer => cases h; exact .writeExitUnlockPeer hpc
  | interruptPeer => cases h; exact .writeExitInterrupt hpc
  | notifyPeer => cases h; exact .writeExitNotify hpc

theorem of_stepWriter (h : s.stepWriter = some (s', es)) : Step s .writer s' es := by
  cases hpc : s.writer with simp only [stepWriter, hpc] at h
  | unstarted => cases h
  | castContext =>
    split at h
    · cases h; exact .writeCastIPV4 hpc ‹_›
    · cases h; exact .writeCastIPV6 hpc ‹_›
  | interruptionPoint =>
    split at h
    · cases h; exact .writeInterrupted hpc ‹_›
    · cases h; exact .writeGoOn hpc (Bool.of_not_eq_true ‹_›)
  | lockWrite => obtain ⟨hfree, rfl, rfl⟩ := of_lock h; exact .writeLock (.inl hpc) hfree
  | testEnabled =>
    split at h
    · cases h; exact .writeEnabled hpc ‹_›
    · cases h; exact .writeDisabled hpc (Bool.of_not_eq_true ‹_›)
  | enterWait => cases h; exact .writeWait hpc
  | waiting => cases h
  | notified => obtain ⟨hfree, rfl, rfl⟩ := of_lock h; exact .writeLock (.inr hpc) hfree
  | clearEnabled => cases h; exact .writeClear hpc
  | unlockWrite => cases h; exact .writeUnlock hpc
  | lockResponse =>
    obtain ⟨hfree, rfl, rfl⟩ := of_lock h; exact .writeLockResponse hpc hfree
  | copyResponse => cases h; exact .writeCopy hpc
  | unlockResponse response => cases h; exact .writeUnlockResponse hpc
  | callSend response => cases h; exact .writeCallSend hpc
  | send fd response total_send => cases h
  | exit e => exact of_stepWriteExit hpc h
  | returned => cases h

theorem of_stepSend {answer : IoResult} (h : s.stepSend answer = some (s', es)) :
    Step s (.send answer) s' es := by
  unfold stepSend at h
  split at h
  case h_1 fd response total_send hpc =>
    simp only at h
    split at h
    · cases h; exact .writeSend hpc ‹_›
    · cases h
  case h_2 => cases h

theorem of_stepCaller {i : ℕ} (h : s.stepCaller i = some (s', es)) :
    Step s (.caller i) s' es := by
  unfold stepCaller at h
  split at h
  case h_1 => cases h
  case h_2 call rest hpc => obtain ⟨hfree, rfl, rfl⟩ := of_lock h; exact .callLock hpc hfree
  case h_3 call rest hpc => cases h; exact .callBody hpc
  case h_4 call hpc => cases h; exact .callReturn hpc
  case h_5 call next rest hpc => cases h; exact .callNext hpc

/-- **Every step is one of the list.** -/
theorem of_step {a : Action w β} (h : s.step a = some (s', es)) : Step s a s' es := by
  cases a with
  | doWork => exact of_stepDoWork h
  | reader => exact of_stepReader h
  | recv answer => exact of_stepRecv h
  | wakeReader =>
    simp only [step] at h
    split at h
    · cases h; exact .readWake ‹_›
    · cases h
  | writer => exact of_stepWriter h
  | send answer => exact of_stepSend h
  | wakeWriter =>
    simp only [step] at h
    split at h
    · cases h; exact .writeWake ‹_›
    · cases h
  | invoke i call rest =>
    simp only [step] at h
    split at h
    · cases h; exact .invoke ‹_›
    · cases h
  | caller i => exact of_stepCaller h

end Step

/-! ## What the pieces of a step leave alone -/

section Frame

variable (s : ThreadsTcpBroWorker w β) (call : WorkerCall w β)

@[simp] theorem assign_doWork : (s.assign call).doWork = s.doWork := by cases call <;> rfl

@[simp] theorem assign_reader : (s.assign call).reader = s.reader := by cases call <;> rfl

@[simp] theorem assign_writer : (s.assign call).writer = s.writer := by cases call <;> rfl

@[simp] theorem assign_callers : (s.assign call).callers = s.callers := by cases call <;> rfl

@[simp] theorem assign_locks : (s.assign call).locks = s.locks := by cases call <;> rfl

@[simp] theorem assign_mClientFd :
    (s.assign call).mContext.mClientFd = s.mContext.mClientFd := by cases call <;> rfl

@[simp] theorem assign_type : (s.assign call).mContext.type = s.mContext.type := by
  cases call <;> rfl

end Frame

/-- A notification moves a thread from its wait, and nowhere else. What is the
same of a thread blocked and of one woken is so before and after. -/
theorem apply_notify_read {γ : Type} (f : ReadPc β → γ) (hf : f .notified = f .waiting)
    (pc : ReadPc β) : f pc.notify = f pc := by
  cases pc with
  | waiting => exact hf
  | _ => rfl

theorem apply_notify_write {γ : Type} (f : WritePc w β → γ) (hf : f .notified = f .waiting)
    (pc : WritePc w β) : f pc.notify = f pc := by
  cases pc with
  | waiting => exact hf
  | _ => rfl

@[simp] theorem notify_read_eq_iff {pc pc' : ReadPc β} (hw : pc' ≠ .waiting)
    (hn : pc' ≠ .notified) : pc.notify = pc' ↔ pc = pc' := by
  cases pc <;> simp [ReadPc.notify, hw.symm, hn.symm]

@[simp] theorem notify_write_eq_iff {pc pc' : WritePc w β} (hw : pc' ≠ .waiting)
    (hn : pc' ≠ .notified) : pc.notify = pc' ↔ pc = pc' := by
  cases pc <;> simp [WritePc.notify, hw.symm, hn.symm]

theorem notify_read_ne_waiting (pc : ReadPc β) : pc.notify ≠ .waiting := by
  cases pc <;> simp [ReadPc.notify]

theorem notify_write_ne_waiting (pc : WritePc w β) : pc.notify ≠ .waiting := by
  cases pc <;> simp [WritePc.notify]

/-- After `recv` the read thread is in one of three places. -/
theorem afterRecv_cases {P : ReadPc β → Prop} (answer : Received β)
    (hi : P .interruptionPoint) (he : P (.exit .lockContext))
    (hl : ∀ chunk, P (.lockRequest chunk)) : P (afterRecv answer) := by
  unfold afterRecv
  split
  · exact hi
  · exact hi
  · exact he
  · exact he
  · exact hl _

/-- In `send_bytes` and after it the write thread is in one of three places. -/
theorem inSendBytes_cases {P : WritePc w β → Prop} (fd : ℤ) (response : Buffer w β)
    (phase : Phase w) (hs : ∀ total_send, P (.send fd response total_send))
    (hi : P .interruptionPoint) (he : P (.exit .lockContext)) :
    P (inSendBytes fd response phase) := by
  unfold inSendBytes
  split
  · exact hs _
  · exact hi
  · exact he

@[simp] theorem afterRecv_ne {answer : Received β} {pc : ReadPc β}
    (hi : pc ≠ .interruptionPoint) (he : pc ≠ .exit .lockContext)
    (hl : ∀ chunk, pc ≠ .lockRequest chunk) : afterRecv answer ≠ pc :=
  afterRecv_cases (P := (· ≠ pc)) answer hi.symm he.symm fun chunk => (hl chunk).symm

@[simp] theorem inSendBytes_ne {fd : ℤ} {response : Buffer w β} {phase : Phase w}
    {pc : WritePc w β} (hi : pc ≠ .interruptionPoint) (he : pc ≠ .exit .lockContext)
    (hs : ∀ total_send, pc ≠ .send fd response total_send) :
    inSendBytes fd response phase ≠ pc :=
  inSendBytes_cases (P := (· ≠ pc)) fd response phase (fun total_send => (hs total_send).symm)
    hi.symm he.symm

/-! ## What `doWork` has done -/

end ThreadsTcpBroWorker

/-- The handler has set the flag of the other thread. -/
def ExitPc.hasEnabled : ExitPc → Bool
  | unlockPeer => true
  | interruptPeer => true
  | notifyPeer => true
  | _ => false

namespace MainPc

/-- `doWork` has started the read thread. -/
def recvStarted : MainPc → Bool
  | startRecv => false
  | _ => true

/-- `doWork` has started the write thread. -/
def sendStarted : MainPc → Bool
  | startRecv => false
  | storeRecv => false
  | startSend => false
  | _ => true

/-- `doWork` has joined the read thread. -/
def recvJoined : MainPc → Bool
  | joinSend => true
  | returned => true
  | destroyed => true
  | _ => false

/-- `doWork` has joined the write thread. -/
def sendJoined : MainPc → Bool
  | returned => true
  | destroyed => true
  | _ => false

end MainPc

/-- **A thread goes on by itself** from one place to another: it is started by
nobody, and does not come back once it has returned. -/
structure Onward {τ : Type} (unstarted returned pc pc' : τ) : Prop where
  /-- It has been started in both places or in neither. -/
  unstarted : pc = unstarted ↔ pc' = unstarted
  /-- Once returned it stays so. -/
  returned : pc = returned → pc' = returned

theorem Onward.refl {τ : Type} {unstarted returned : τ} (pc : τ) :
    Onward unstarted returned pc pc := ⟨.rfl, id⟩

namespace ReadPc

/-- The read thread has been started. -/
def started : ReadPc β → Bool
  | unstarted => false
  | _ => true

/-- The read thread has been started and has not returned. -/
def running : ReadPc β → Bool
  | unstarted => false
  | returned => false
  | _ => true

theorem onward_of_running {pc pc' : ReadPc β} (hrunning : pc.running = true)
    (hstarted : pc'.started = true) : Onward unstarted returned pc pc' where
  unstarted := by
    constructor
    · rintro rfl; cases hrunning
    · rintro rfl; cases hstarted
  returned := by rintro rfl; cases hrunning

theorem onward_notify (pc : ReadPc β) : Onward unstarted returned pc pc.notify := by
  cases pc with
  | waiting => exact onward_of_running rfl rfl
  | _ => exact .refl _

end ReadPc

namespace WritePc

/-- The write thread has been started. -/
def started : WritePc w β → Bool
  | unstarted => false
  | _ => true

/-- The write thread has been started and has not returned. -/
def running : WritePc w β → Bool
  | unstarted => false
  | returned => false
  | _ => true

theorem onward_of_running {pc pc' : WritePc w β} (hrunning : pc.running = true)
    (hstarted : pc'.started = true) : Onward unstarted returned pc pc' where
  unstarted := by
    constructor
    · rintro rfl; cases hrunning
    · rintro rfl; cases hstarted
  returned := by rintro rfl; cases hrunning

theorem onward_notify (pc : WritePc w β) : Onward unstarted returned pc pc.notify := by
  cases pc with
  | waiting => exact onward_of_running rfl rfl
  | _ => exact .refl _

end WritePc

namespace ThreadsTcpBroWorker

/-- **The thread in `doWork` and the two it starts agree** on what has been
started and what has been joined. -/
structure DoWorkAgrees (s : ThreadsTcpBroWorker w β) : Prop where
  /-- The read thread is unstarted until `doWork` starts it. -/
  recvStarted : s.doWork.recvStarted = false ↔ s.reader = .unstarted
  /-- The write thread is unstarted until `doWork` starts it. -/
  sendStarted : s.doWork.sendStarted = false ↔ s.writer = .unstarted
  /-- A joined read thread has returned. -/
  recvJoined : s.doWork.recvJoined = true → s.reader = .returned
  /-- A joined write thread has returned. -/
  sendJoined : s.doWork.sendJoined = true → s.writer = .returned

theorem DoWorkAgrees.init (context : SocketContext w β) : DoWorkAgrees (init context) where
  recvStarted := by simp [ThreadsTcpBroWorker.init, MainPc.recvStarted]
  sendStarted := by simp [ThreadsTcpBroWorker.init, MainPc.sendStarted]
  recvJoined := by simp [ThreadsTcpBroWorker.init, MainPc.recvJoined]
  sendJoined := by simp [ThreadsTcpBroWorker.init, MainPc.sendJoined]

theorem started_afterRecv (answer : Received β) : (afterRecv answer).started = true :=
  afterRecv_cases (P := fun pc => pc.started = true) answer rfl rfl fun _ => rfl

theorem started_inSendBytes (fd : ℤ) (response : Buffer w β) (phase : Phase w) :
    (inSendBytes fd response phase).started = true :=
  inSendBytes_cases (P := fun pc => pc.started = true) fd response phase
    (fun _ => rfl) rfl rfl

section Invariants

variable {s s' : ThreadsTcpBroWorker w β} {a : Action w β} {es : List (Event w β)}

/-- Threads that move on by themselves, `doWork` standing still. -/
theorem DoWorkAgrees.of_onward (hi : DoWorkAgrees s) (hdoWork : s'.doWork = s.doWork)
    (hreader : Onward .unstarted .returned s.reader s'.reader)
    (hwriter : Onward .unstarted .returned s.writer s'.writer) : DoWorkAgrees s' where
  recvStarted := by rw [hdoWork, hi.recvStarted, hreader.unstarted]
  sendStarted := by rw [hdoWork, hi.sendStarted, hwriter.unstarted]
  recvJoined := fun h => hreader.returned (hi.recvJoined (hdoWork ▸ h))
  sendJoined := fun h => hwriter.returned (hi.sendJoined (hdoWork ▸ h))

theorem DoWorkAgrees.step (h : Step s a s' es) (hi : DoWorkAgrees s) : DoWorkAgrees s' := by
  have ⟨hrs, hws, hrj, hwj⟩ := hi
  cases h with
  | startRecv hpc => rw [hpc] at hws; exact ⟨⟨nofun, nofun⟩, hws, nofun, nofun⟩
  | storeRecv hpc => rw [hpc] at hrs hws; exact ⟨hrs, hws, nofun, nofun⟩
  | startSend hpc => rw [hpc] at hrs; exact ⟨hrs, ⟨nofun, nofun⟩, nofun, nofun⟩
  | storeSend hpc => rw [hpc] at hrs hws; exact ⟨hrs, hws, nofun, nofun⟩
  | joinRecv hpc hreader => rw [hpc] at hrs hws; exact ⟨hrs, hws, fun _ => hreader, nofun⟩
  | joinSend hpc hwriter => rw [hpc] at hrs hws hrj; exact ⟨hrs, hws, hrj, fun _ => hwriter⟩
  | destroyClosed hpc => rw [hpc] at hrs hws hrj hwj; exact ⟨hrs, hws, hrj, hwj⟩
  | destroyOpen hpc => rw [hpc] at hrs hws hrj hwj; exact ⟨hrs, hws, hrj, hwj⟩
  | readLock hpc =>
    rcases hpc with hpc | hpc <;>
      exact hi.of_onward rfl (ReadPc.onward_of_running (by rw [hpc]; rfl) rfl) (.refl _)
  | writeLock hpc =>
    rcases hpc with hpc | hpc <;>
      exact hi.of_onward rfl (.refl _) (WritePc.onward_of_running (by rw [hpc]; rfl) rfl)
  | readRecv hpc =>
    exact hi.of_onward rfl
      (ReadPc.onward_of_running (by rw [hpc]; rfl) (started_afterRecv _)) (.refl _)
  | writeCallSend hpc =>
    exact hi.of_onward rfl (.refl _)
      (WritePc.onward_of_running (by rw [hpc]; rfl) (started_inSendBytes _ _ _))
  | writeSend hpc =>
    exact hi.of_onward rfl (.refl _)
      (WritePc.onward_of_running (by rw [hpc]; rfl) (started_inSendBytes _ _ _))
  | readWake => exact hi.of_onward rfl (ReadPc.onward_notify _) (.refl _)
  | writeWake => exact hi.of_onward rfl (.refl _) (WritePc.onward_notify _)
  | readExitNotify hpc =>
    exact hi.of_onward rfl (ReadPc.onward_of_running (by rw [hpc]; rfl) rfl)
      (WritePc.onward_notify _)
  | writeExitNotify hpc =>
    exact hi.of_onward rfl (ReadPc.onward_notify _)
      (WritePc.onward_of_running (by rw [hpc]; rfl) rfl)
  | callBody =>
    refine hi.of_onward (assign_doWork s _) ?_ ?_
    · exact assign_reader s _ ▸ .refl _
    · exact assign_writer s _ ▸ .refl _
  | _ =>
    first
    | exact hi.of_onward rfl (.refl _) (.refl _)
    | exact hi.of_onward rfl (ReadPc.onward_of_running (by rw [‹s.reader = _›]; rfl) rfl) (.refl _)
    | exact hi.of_onward rfl (.refl _) (WritePc.onward_of_running (by rw [‹s.writer = _›]; rfl) rfl)

/-! ## Mutual exclusion -/

/-- The mutex a thread holds, by where it stands. -/
def held (s : ThreadsTcpBroWorker w β) : Thread → Option Mutex
  | .recvThread => s.reader.held
  | .sendThread => s.writer.held
  | .caller i => (s.callers i).held

@[simp] theorem held_notify_read (pc : ReadPc β) : pc.notify.held = pc.held :=
  apply_notify_read ReadPc.held rfl pc

@[simp] theorem held_notify_write (pc : WritePc w β) : pc.notify.held = pc.held :=
  apply_notify_write WritePc.held rfl pc

theorem held_afterRecv (answer : Received β) : (afterRecv answer).held = none :=
  afterRecv_cases (P := fun pc => pc.held = none) answer rfl rfl fun _ => rfl

theorem held_inSendBytes (fd : ℤ) (response : Buffer w β) (phase : Phase w) :
    (inSendBytes fd response phase).held = none :=
  inSendBytes_cases (P := fun pc => pc.held = none) fd response phase
    (fun _ => rfl) rfl rfl

/-- The thread an action moves, unless it is the one in `doWork`, which locks
no mutex. -/
def Action.thread : Action w β → Option Thread
  | .doWork => none
  | .reader => some .recvThread
  | .recv _ => some .recvThread
  | .wakeReader => some .recvThread
  | .writer => some .sendThread
  | .send _ => some .sendThread
  | .wakeWriter => some .sendThread
  | .invoke i _ _ => some (.caller i)
  | .caller i => some (.caller i)

theorem held_setCaller (s : ThreadsTcpBroWorker w β) {i : ℕ} {pc : CallerPc w β} {u : Thread}
    (hu : u ≠ .caller i) : (s.setCaller i pc).held u = s.held u := by
  cases u with
  | recvThread => rfl
  | sendThread => rfl
  | caller j =>
    have hj : j ≠ i := fun hj => hu (congrArg Thread.caller hj)
    rw [held, setCaller_callers, Function.update_of_ne hj, held]

theorem held_reader {pc : ReadPc β} (h : s.reader = pc) : s.held .recvThread = pc.held := by
  rw [held, h]

theorem held_writer {pc : WritePc w β} (h : s.writer = pc) : s.held .sendThread = pc.held := by
  rw [held, h]

/-- What a thread holds changes by its own steps only. -/
theorem Step.held_of_ne (h : Step s a s' es) {t : Thread} (ht : a.thread = some t)
    {u : Thread} (hu : u ≠ t) : s'.held u = s.held u := by
  cases h with cases ht
  | invoke => exact held_setCaller _ hu
  | callLock => exact held_setCaller _ hu
  | callBody => rw [held_setCaller _ hu]; cases u <;> simp [held]
  | callReturn => exact held_setCaller _ hu
  | callNext => exact held_setCaller _ hu
  | _ =>
    cases u <;>
      first
      | rfl
      | exact absurd rfl hu
      | simp [held]

/-- **What a step does to the mutexes** is what the program points of the
thread before and after it say. -/
theorem Step.move (h : Step s a s' es) {t : Thread} (ht : a.thread = some t) :
    LockTable.Move t s.locks (s.held t) s'.locks (s'.held t) := by
  cases h with cases ht
  | readLock hpc hfree =>
    rcases hpc with hpc | hpc <;> · rw [held, hpc]; exact .lock _ hfree
  | writeLock hpc hfree =>
    rcases hpc with hpc | hpc <;> · rw [held, hpc]; exact .lock _ hfree
  | readWake => rw [held, held, notifyRead_reader, held_notify_read]; exact .keep _
  | writeWake => rw [held, held, notifyWrite_writer, held_notify_write]; exact .keep _
  | @callBody i call rest hpc =>
    have hlocks : ((s.assign call).setCaller i (.inCall .unlock call rest)).locks = s.locks :=
      assign_locks s call
    rw [held, held, hpc, setCaller_callers, Function.update_self, hlocks]
    exact .keep _
  | _ =>
    -- the guard says where the thread stands, and so what it holds
    simp only [held, setCaller_callers, Function.update_self, held_afterRecv,
      held_inSendBytes, *]
    first
    | exact .keep _
    | exact .unlock _
    | exact .lock _ ‹_›

/-- `doWork` starts threads that hold nothing. -/
theorem Step.held_of_doWork (h : Step s .doWork s' es) (hi : DoWorkAgrees s) (u : Thread) :
    s'.held u = s.held u := by
  cases h with
  | startRecv hpc =>
    have hreader : s.reader = .unstarted := hi.recvStarted.mp (by rw [hpc]; rfl)
    cases u with
    | recvThread => simp only [held, hreader]; rfl
    | _ => rfl
  | startSend hpc =>
    have hwriter : s.writer = .unstarted := hi.sendStarted.mp (by rw [hpc]; rfl)
    cases u with
    | sendThread => simp only [held, hwriter]; rfl
    | _ => rfl
  | _ => cases u <;> rfl

/-- No step changes the type of the context. -/
theorem Step.type (h : Step s a s' es) : s'.mContext.type = s.mContext.type := by
  cases h with
  | callBody => exact assign_type s _
  | _ => rfl

theorem agrees_step (h : Step s a s' es) (hd : DoWorkAgrees s)
    (hi : LockTable.Agrees s.locks s.held) : LockTable.Agrees s'.locks s'.held := by
  cases ht : a.thread with
  | some t => exact hi.move (fun u hu => h.held_of_ne ht hu) (h.move ht)
  | none =>
    cases a with cases ht
    | doWork =>
      have hheld : s'.held = s.held := funext (h.held_of_doWork hd)
      have hlocks : s'.locks = s.locks := by cases h <;> rfl
      rw [hheld, hlocks]
      exact hi

/-! ## Along a run -/

variable {ok : ThreadsTcpBroWorker w β → Action w β → Prop} {context : SocketContext w β}

theorem type_of_run (h : (machine w β).Run ok (init context) es s) :
    s.mContext.type = context.type :=
  h.stateInvariant (I := fun s => s.mContext.type = context.type) rfl
    (fun hi _ hs => (Step.of_step hs).type.trans hi)

theorem doWorkAgrees_of_run (h : (machine w β).Run ok (init context) es s) :
    DoWorkAgrees s :=
  h.stateInvariant (DoWorkAgrees.init context)
    (fun hi _ hs => hi.step (Step.of_step hs))

/-- **The lock table agrees with the program points** in every state a worker
reaches, so no two of its threads are ever inside one critical section. -/
theorem agrees_of_run (h : (machine w β).Run ok (init context) es s) :
    LockTable.Agrees s.locks s.held := by
  refine h.invariant (I := fun _ s => LockTable.Agrees s.locks s.held) ?_
    (fun hrun hi _ hs => agrees_step (Step.of_step hs) (doWorkAgrees_of_run hrun) hi)
  intro m t
  cases t <;> simp [init, held, ReadPc.held, WritePc.held, CallerPc.held]

/-- The mutex of a call in its critical section is held by no other thread. -/
theorem eq_caller_of_held (hl : LockTable.Agrees s.locks s.held) {i : ℕ}
    {call : WorkerCall w β} {rest : List (WorkerCall w β)}
    (hpc : s.callers i = .inCall .body call rest) {t : Thread}
    (ht : s.held t = some call.mutex) : t = .caller i :=
  hl.unique ht (by rw [held, hpc]; rfl)

/-! ## What a thread has tested it still finds -/

/-- **A flag tested under its mutex keeps its value** until the mutex is
released: a thread about to wait has it `false`, and the write thread about to
clear it has it `true`. -/
structure TestedUnderLock (s : ThreadsTcpBroWorker w β) : Prop where
  readWait : s.reader = .enterWait → s.mIsReadEnabled = false
  writeWait : s.writer = .enterWait → s.mIsWriteEnabled = false
  writeClear : s.writer = .clearEnabled → s.mIsWriteEnabled = true

theorem TestedUnderLock.step (h : Step s a s' es) (hl : LockTable.Agrees s.locks s.held)
    (hi : TestedUnderLock s) : TestedUnderLock s' := by
  obtain ⟨hr, hw, hc⟩ := hi
  cases h with
  | readEnabled => exact ⟨nofun, hw, hc⟩
  | readDisabled _ hflag => exact ⟨fun _ => hflag, hw, hc⟩
  | writeEnabled _ hflag => exact ⟨hr, nofun, fun _ => hflag⟩
  | writeDisabled _ hflag => exact ⟨hr, fun _ => hflag, nofun⟩
  | readExitEnable hpc =>
    refine ⟨nofun, fun (hwait : s.writer = .enterWait) => ?_, fun _ => rfl⟩
    cases hl.unique (held_reader hpc) (held_writer hwait)
  | writeExitEnable hpc =>
    refine ⟨fun (hwait : s.reader = .enterWait) => ?_, nofun, nofun⟩
    cases hl.unique (held_writer hpc) (held_reader hwait)
  | @callBody i call rest hpc =>
    cases call with
    | enableReadEvent =>
      refine ⟨fun (hwait : s.reader = .enterWait) => ?_, hw, hc⟩
      cases eq_caller_of_held hl hpc (held_reader hwait)
    | enableWriteEvent =>
      refine ⟨hr, fun (hwait : s.writer = .enterWait) => ?_, fun _ => rfl⟩
      cases eq_caller_of_held hl hpc (held_writer hwait)
    | disbaleReadEvent => exact ⟨fun _ => rfl, hw, hc⟩
    | disbaleWriteEvent =>
      refine ⟨hr, fun _ => rfl, fun (hclear : s.writer = .clearEnabled) => ?_⟩
      cases eq_caller_of_held hl hpc (held_writer hclear)
    | storeResponse response => exact ⟨hr, hw, hc⟩
  | readRecv => exact ⟨by simp, hw, hc⟩
  | writeCallSend => exact ⟨hr, by simp, by simp⟩
  | writeSend => exact ⟨hr, by simp, by simp⟩
  | readWake => exact ⟨by simpa using hr, hw, hc⟩
  | writeWake => exact ⟨hr, by simpa using hw, by simpa using hc⟩
  | readExitNotify => exact ⟨nofun, by simpa using hw, by simpa using hc⟩
  | writeExitNotify => exact ⟨by simpa using hr, nofun, nofun⟩
  | _ =>
    first
    | exact ⟨hr, hw, hc⟩
    | exact ⟨nofun, hw, hc⟩
    | exact ⟨hr, nofun, nofun⟩

theorem TestedUnderLock.init (context : SocketContext w β) :
    TestedUnderLock (init context) where
  readWait := nofun
  writeWait := nofun
  writeClear := nofun

theorem testedUnderLock_of_run (h : (machine w β).Run ok (init context) es s) :
    TestedUnderLock s :=
  h.invariant (I := fun _ s => TestedUnderLock s) (TestedUnderLock.init context)
    (fun hrun hi _ hs => hi.step (Step.of_step hs) (agrees_of_run hrun))

end Invariants

/-! ## A run to the end -/

/-- An action taken `n` times. -/
def times (n : ℕ) (a : Action w β) : List (Action w β) := List.replicate n a

/-- A client on descriptor 5, with nothing to be sent to it. -/
def aClient : SocketContext 64 ℕ := ⟨.IPV4SocketContext, 5, [], ⟨[], by decide⟩⟩

/-- The client closes its end; the read thread shuts down, and then the write
thread. -/
def peerCloses : List (Action 64 ℕ) :=
  times 4 .doWork ++ times 6 .reader ++ [.recv (.got [])]
    ++ times 8 .reader ++ times 10 .writer ++ times 2 .doWork

end ThreadsTcpBroWorker
