import NetUtils.ThreadsClientHandle

/-!
# What a step of an echo handler can do

`Step s a s' es` lists the steps of `NetUtils.ThreadsClientHandle` one by one,
as `NetUtils.WorkerStep` does for the worker, and `Step.of_step` is the
inversion of the step function into that list.

The first invariants are about the descriptor. A thread that has read
`mClientFd` holds the client's number or the connection has been closed, and
`mClientFd` is `INVALID_FD` only once it has been (`HoldsClient`). So as long
as the connection is open, every `recv` and every `send` is made on it. Another
is about the two starts in `doWork` (`StartsOnce`).
-/

open Transfer

variable {w : ℕ}

namespace ThreadsClientHandle

/-- **The steps of a handler, one by one.** -/
inductive Step (s : ThreadsClientHandle w) :
    Action → ThreadsClientHandle w → List (Event w) → Prop where
  -- `doWork`
  | startRead (hpc : s.doWork = .startRead) :
      Step s .doWork { s with reader := .loadFd, doWork := .startWrite } []
  | startWrite (hpc : s.doWork = .startWrite) :
      Step s .doWork { s with writer := .lock, doWork := .joinRead } []
  | joinRead (hpc : s.doWork = .joinRead) (hreader : s.reader = .returned) :
      Step s .doWork { s with doWork := .joinWrite } []
  | joinWrite (hpc : s.doWork = .joinWrite) (hwriter : s.writer = .returned) :
      Step s .doWork { s with doWork := .returned } []
  | destroyClosed (hpc : s.doWork = .returned) (hfd : s.mClientFd = INVALID_FD) :
      Step s .doWork { s with doWork := .destroyed } []
  | destroyOpen (hpc : s.doWork = .returned) (hfd : s.mClientFd ≠ INVALID_FD) :
      Step s .doWork { s.closed s.mClientFd with doWork := .destroyed } [.close s.mClientFd]
  -- `handleReadEvent`
  | readLoadFd (hpc : s.reader = .loadFd) :
      Step s .reader { s with reader := .recv s.mClientFd } []
  | readRecv {fd : ℤ} {answer : Received UInt8} {beyond : List UInt8} {pc : HandleReadPc w}
      (hpc : s.reader = .recv fd) (hanswer : answer.Allowed fd)
      (hafter : afterRecv s.type answer beyond = some pc) :
      Step s (.recv answer beyond) { s with reader := pc } [.recv fd (s.onClient fd) answer]
  | readLock {recv_msg : Buffer w UInt8} (hpc : s.reader = .lock recv_msg)
      (hfree : s.mMutex = none) :
      Step s .reader { s with mMutex := some .threadHandleRead, reader := .push recv_msg } []
  | readPush {recv_msg : Buffer w UInt8} (hpc : s.reader = .push recv_msg) :
      Step s .reader
        { s with mMessageQueue := s.mMessageQueue ++ [recv_msg], reader := .unlock }
        [.push recv_msg]
  | readUnlock (hpc : s.reader = .unlock) :
      Step s .reader { s with mMutex := none, reader := .notify } []
  | readNotify (hpc : s.reader = .notify) :
      Step s .reader { s.notifyOne with reader := .loadFd } []
  | readLoadClose (hpc : s.reader = .loadClose) :
      Step s .reader { s with reader := .close s.mClientFd } []
  | readClose {fd : ℤ} (hpc : s.reader = .close fd) :
      Step s .reader { s.closed fd with reader := .storeInvalid } [.close fd]
  | readStore (hpc : s.reader = .storeInvalid) :
      Step s .reader { s with mClientFd := INVALID_FD, reader := .notifyEnd } []
  | readNotifyEnd (hpc : s.reader = .notifyEnd) :
      Step s .reader { s.notifyOne with reader := .returned } []
  -- `handleWriteEvent`
  | writeLock (hpc : s.writer = .lock) (hfree : s.mMutex = none) :
      Step s .writer { s with mMutex := some .threadHandleWrite, writer := .testEmpty } []
  | writeEmpty (hpc : s.writer = .testEmpty) (hqueue : s.mMessageQueue = []) :
      Step s .writer { s with writer := .enterWait } []
  | writeNonempty (hpc : s.writer = .testEmpty) (hqueue : s.mMessageQueue ≠ []) :
      Step s .writer { s with writer := .checkFd } []
  | writeWait (hpc : s.writer = .enterWait) :
      Step s .writer { s with mMutex := none, writer := .waiting } []
  | writeRelockIPV4 (hpc : s.writer = .notified) (hfree : s.mMutex = none)
      (htype : s.type = .IPV4ThreadsClientHandle) :
      Step s .writer { s with mMutex := some .threadHandleWrite, writer := .testEmpty } []
  | writeRelockIPV6 (hpc : s.writer = .notified) (hfree : s.mMutex = none)
      (htype : s.type = .IPV6ThreadsClientHandle) :
      Step s .writer { s with mMutex := some .threadHandleWrite, writer := .checkFd } []
  | writeInvalid (hpc : s.writer = .checkFd) (hfd : s.mClientFd = INVALID_FD) :
      Step s .writer { s with writer := .exitUnlock } []
  | writeValid (hpc : s.writer = .checkFd) (hfd : s.mClientFd ≠ INVALID_FD) :
      Step s .writer { s with writer := .takeFront } []
  | writeTake {send_msg : Buffer w UInt8} {rest : List (Buffer w UInt8)}
      (hpc : s.writer = .takeFront) (hqueue : s.mMessageQueue = send_msg :: rest) :
      Step s .writer { s with mMessageQueue := rest, writer := .unlock send_msg } []
  | writeUnlock {send_msg : Buffer w UInt8} (hpc : s.writer = .unlock send_msg) :
      Step s .writer
        { s with mMutex := none, writer := inSend s.type send_msg (test send_msg.size 0#w) } []
  | writeLoadFd {send_msg : Buffer w UInt8} {total_send : BitVec w}
      (hpc : s.writer = .loadFd send_msg total_send) :
      Step s .writer { s with writer := .send s.mClientFd send_msg total_send } []
  | writeSend {fd : ℤ} {send_msg : Buffer w UInt8} {total_send : BitVec w} {answer : IoResult}
      (hpc : s.writer = .send fd send_msg total_send)
      (hanswer : answer.Allowed fd (send_msg.size - total_send).toNat) :
      Step s (.send answer)
        { s with
          writer := inSend s.type send_msg
            (IOHelper.sendBody send_msg.size total_send answer) }
        [.send fd (s.onClient fd) (slice send_msg.bytes total_send.toNat answer.transferred)]
  | writeExitIPV4 (hpc : s.writer = .exitUnlock) (htype : s.type = .IPV4ThreadsClientHandle) :
      Step s .writer { s with mMutex := none, writer := .returned } []
  | writeExitIPV6 (hpc : s.writer = .exitUnlock) (htype : s.type = .IPV6ThreadsClientHandle) :
      Step s .writer { s with mMutex := none, writer := .loadClose } []
  | writeLoadClose (hpc : s.writer = .loadClose) :
      Step s .writer { s with writer := .close s.mClientFd } []
  | writeClose {fd : ℤ} (hpc : s.writer = .close fd) :
      Step s .writer { s.closed fd with writer := .storeInvalid } [.close fd]
  | writeStoreIPV4 (hpc : s.writer = .storeInvalid)
      (htype : s.type = .IPV4ThreadsClientHandle) :
      Step s .writer { s with mClientFd := INVALID_FD, writer := .checkDone } []
  | writeStoreIPV6 (hpc : s.writer = .storeInvalid)
      (htype : s.type = .IPV6ThreadsClientHandle) :
      Step s .writer { s with mClientFd := INVALID_FD, writer := .returned } []
  | writeDone (hpc : s.writer = .checkDone) (hfd : s.mClientFd = INVALID_FD) :
      Step s .writer { s with writer := .returned } []
  | writeNext (hpc : s.writer = .checkDone) (hfd : s.mClientFd ≠ INVALID_FD) :
      Step s .writer { s with writer := .lock } []
  | writeWake (hpc : s.writer = .waiting) : Step s .wakeWriter s.notifyOne []

namespace Step

variable {s s' : ThreadsClientHandle w} {es : List (Event w)}

theorem of_lock {t : HandleThread} {next : ThreadsClientHandle w → ThreadsClientHandle w}
    (h : s.lock t next = some (s', es)) :
    s.mMutex = none ∧ next { s with mMutex := some t } = s' ∧ [] = es := by
  unfold lock at h
  split at h
  · exact ⟨‹_›, by simpa using h⟩
  · cases h

theorem of_stepDoWork (h : s.stepDoWork = some (s', es)) : Step s .doWork s' es := by
  cases hpc : s.doWork with simp only [stepDoWork, hpc] at h
  | startRead => cases h; exact .startRead hpc
  | startWrite => cases h; exact .startWrite hpc
  | joinRead =>
    split at h
    · cases h; exact .joinRead hpc ‹_›
    · cases h
  | joinWrite =>
    split at h
    · cases h; exact .joinWrite hpc ‹_›
    · cases h
  | returned =>
    split at h
    · cases h; exact .destroyClosed hpc ‹_›
    · cases h; exact .destroyOpen hpc ‹_›
  | destroyed => cases h

theorem of_stepReader (h : s.stepReader = some (s', es)) : Step s .reader s' es := by
  cases hpc : s.reader with simp only [stepReader, hpc] at h
  | unstarted => cases h
  | loadFd => cases h; exact .readLoadFd hpc
  | recv fd => cases h
  | lock recv_msg => obtain ⟨hfree, rfl, rfl⟩ := of_lock h; exact .readLock hpc hfree
  | push recv_msg => cases h; exact .readPush hpc
  | unlock => cases h; exact .readUnlock hpc
  | notify => cases h; exact .readNotify hpc
  | loadClose => cases h; exact .readLoadClose hpc
  | close fd => cases h; exact .readClose hpc
  | storeInvalid => cases h; exact .readStore hpc
  | notifyEnd => cases h; exact .readNotifyEnd hpc
  | returned => cases h

theorem of_stepRecv {answer : Received UInt8} {beyond : List UInt8}
    (h : s.stepRecv answer beyond = some (s', es)) : Step s (.recv answer beyond) s' es := by
  unfold stepRecv at h
  split at h
  case h_1 fd hpc =>
    split at h
    · obtain ⟨pc, hafter, heq⟩ := Option.map_eq_some_iff.mp h
      cases heq
      exact .readRecv hpc ‹_› hafter
    · cases h
  case h_2 => cases h

theorem of_stepWriter (h : s.stepWriter = some (s', es)) : Step s .writer s' es := by
  cases hpc : s.writer with simp only [stepWriter, hpc] at h
  | unstarted => cases h
  | lock => obtain ⟨hfree, rfl, rfl⟩ := of_lock h; exact .writeLock hpc hfree
  | testEmpty =>
    split at h
    case isTrue hempty => cases h; exact .writeEmpty hpc (List.isEmpty_iff.mp hempty)
    case isFalse hempty => cases h; exact .writeNonempty hpc (mt List.isEmpty_iff.mpr hempty)
  | enterWait => cases h; exact .writeWait hpc
  | waiting => cases h
  | notified =>
    split at h
    case h_1 htype => obtain ⟨hfree, rfl, rfl⟩ := of_lock h; exact .writeRelockIPV4 hpc hfree htype
    case h_2 htype => obtain ⟨hfree, rfl, rfl⟩ := of_lock h; exact .writeRelockIPV6 hpc hfree htype
  | checkFd =>
    split at h
    · cases h; exact .writeInvalid hpc ‹_›
    · cases h; exact .writeValid hpc ‹_›
  | takeFront =>
    split at h
    · cases h
    · cases h; exact .writeTake hpc ‹_›
  | unlock send_msg => cases h; exact .writeUnlock hpc
  | loadFd send_msg total_send => cases h; exact .writeLoadFd hpc
  | send fd send_msg total_send => cases h
  | exitUnlock =>
    split at h
    case h_1 htype => cases h; exact .writeExitIPV4 hpc htype
    case h_2 htype => cases h; exact .writeExitIPV6 hpc htype
  | loadClose => cases h; exact .writeLoadClose hpc
  | close fd => cases h; exact .writeClose hpc
  | storeInvalid =>
    split at h
    case h_1 htype => cases h; exact .writeStoreIPV4 hpc htype
    case h_2 htype => cases h; exact .writeStoreIPV6 hpc htype
  | checkDone =>
    split at h
    · cases h; exact .writeDone hpc ‹_›
    · cases h; exact .writeNext hpc ‹_›
  | returned => cases h

theorem of_stepSend {answer : IoResult} (h : s.stepSend answer = some (s', es)) :
    Step s (.send answer) s' es := by
  unfold stepSend at h
  split at h
  case h_1 fd send_msg total_send hpc =>
    simp only at h
    split at h
    · cases h; exact .writeSend hpc ‹_›
    · cases h
  case h_2 => cases h

/-- **Every step is one of the list.** -/
theorem of_step {a : Action} (h : s.step a = some (s', es)) : Step s a s' es := by
  cases a with
  | doWork => exact of_stepDoWork h
  | reader => exact of_stepReader h
  | recv answer beyond => exact of_stepRecv h
  | writer => exact of_stepWriter h
  | send answer => exact of_stepSend h
  | wakeWriter =>
    simp only [step] at h
    split at h
    · cases h; exact .writeWake ‹_›
    · cases h

end Step

/-! ## What the pieces of a step leave alone -/

/-- A notification moves the write thread from its wait, and nowhere else. -/
theorem apply_notify {γ : Type} (f : HandleWritePc w → γ) (hf : f .notified = f .waiting)
    (pc : HandleWritePc w) : f pc.notify = f pc := by
  cases pc with
  | waiting => exact hf
  | _ => rfl

@[simp] theorem notify_eq_iff {pc pc' : HandleWritePc w} (hw : pc' ≠ .waiting)
    (hn : pc' ≠ .notified) : pc.notify = pc' ↔ pc = pc' := by
  cases pc <;> simp [HandleWritePc.notify, hw.symm, hn.symm]

/-- After `recv` the read thread is in one of three places; a message it has
is made of the chunk received. -/
theorem afterRecv_cases {P : HandleReadPc w → Prop} {type : HandleType}
    {answer : Received UInt8} {beyond : List UInt8} {pc : HandleReadPc w}
    (h : afterRecv type answer beyond = some pc) (hl : P .loadFd) (hc : P .loadClose)
    (hm : ∀ m : Buffer w UInt8, ∀ chunk, answer = .got chunk →
      m.bytes = recvMessage type chunk beyond → P (.lock m)) : P pc := by
  unfold afterRecv at h
  split at h
  · cases h; exact hl
  · cases h; exact hl
  · cases h; exact hc
  · cases h; exact hc
  · obtain ⟨m, hbytes, rfl⟩ := Option.map_eq_some_iff.mp h
    exact hm m _ rfl (Buffer.bytes_of_ofBytes hbytes)

/-- In the sending loop and behind it the write thread is in one of four
places. -/
theorem inSend_cases {P : HandleWritePc w → Prop} (type : HandleType)
    (send_msg : Buffer w UInt8) (phase : Phase w)
    (hs : ∀ total_send, P (.loadFd send_msg total_send)) (hd : P .checkDone) (hl : P .lock)
    (hc : P .loadClose) : P (inSend type send_msg phase) := by
  cases phase with
  | calling total_send => exact hs total_send
  | returned ok => cases ok <;> cases type <;> assumption

end ThreadsClientHandle

/-- The descriptor the read thread has read from `mClientFd`. -/
def HandleReadPc.fd : HandleReadPc w → Option ℤ
  | recv fd => some fd
  | close fd => some fd
  | _ => none

/-- The descriptor the write thread has read from `mClientFd`. -/
def HandleWritePc.fd : HandleWritePc w → Option ℤ
  | send fd _ _ => some fd
  | close fd => some fd
  | _ => none

namespace ThreadsClientHandle

section Invariants

variable {s s' : ThreadsClientHandle w} {a : Action} {es : List (Event w)}

@[simp] theorem fd_notify (pc : HandleWritePc w) : pc.notify.fd = pc.fd :=
  apply_notify HandleWritePc.fd rfl pc

theorem fd_afterRecv {type : HandleType} {answer : Received UInt8} {beyond : List UInt8}
    {pc : HandleReadPc w} (h : afterRecv type answer beyond = some pc) :
    pc.fd = none ∧ pc ≠ .storeInvalid :=
  afterRecv_cases (P := fun pc => pc.fd = none ∧ pc ≠ .storeInvalid) h ⟨rfl, nofun⟩ ⟨rfl, nofun⟩
    fun _ _ _ _ => ⟨rfl, nofun⟩

theorem fd_inSend (type : HandleType) (send_msg : Buffer w UInt8) (phase : Phase w) :
    (inSend type send_msg phase).fd = none ∧ inSend type send_msg phase ≠ .storeInvalid :=
  inSend_cases (P := fun pc => pc.fd = none ∧ pc ≠ .storeInvalid) type send_msg phase
    (fun _ => ⟨rfl, nofun⟩) ⟨rfl, nofun⟩ ⟨rfl, nofun⟩ ⟨rfl, nofun⟩

/-- What does not change. -/
theorem Step.type_client (h : Step s a s' es) : s'.type = s.type ∧ s'.client = s.client := by
  cases h <;> exact ⟨rfl, rfl⟩

/-- A connection that is open has been open before. -/
theorem Step.isOpen (h : Step s a s' es) (hopen : s'.isOpen = true) : s.isOpen = true := by
  cases h with
  | destroyOpen => exact (Bool.and_eq_true_iff.mp hopen).1
  | readClose => exact (Bool.and_eq_true_iff.mp hopen).1
  | writeClose => exact (Bool.and_eq_true_iff.mp hopen).1
  | _ => exact hopen

/-- **While the connection is open everything is about it**: `mClientFd` and
the numbers the threads have read are the client's, and nobody is about to
store `INVALID_FD`. -/
structure HoldsClient (s : ThreadsClientHandle w) : Prop where
  valid : s.client ≠ INVALID_FD
  mClientFd : s.mClientFd = s.client
  reader : ∀ fd, s.reader.fd = some fd → fd = s.client
  writer : ∀ fd, s.writer.fd = some fd → fd = s.client
  readStore : s.reader ≠ .storeInvalid
  writeStore : s.writer ≠ .storeInvalid

theorem HoldsClient.step (h : Step s a s' es) (hopen : s'.isOpen = true)
    (hi : HoldsClient s) : HoldsClient s' := by
  obtain ⟨hv, hm, hr, hw, hrs, hws⟩ := hi
  have hother {fd : ℤ} (hfd : (s.isOpen && decide (fd ≠ s.client)) = true) : fd ≠ s.client :=
    of_decide_eq_true (Bool.and_eq_true_iff.mp hfd).2
  cases h with
  | startRead => exact ⟨hv, hm, nofun, hw, nofun, hws⟩
  | startWrite => exact ⟨hv, hm, hr, nofun, hrs, nofun⟩
  | destroyOpen => exact absurd hm (hother hopen)
  | readLoadFd => exact ⟨hv, hm, fun fd hfd => Option.some.inj hfd ▸ hm, hw, nofun, hws⟩
  | readRecv _ _ hafter =>
    obtain ⟨hnone, hne⟩ := fd_afterRecv hafter
    exact ⟨hv, hm, fun fd hfd => absurd (hnone.symm.trans hfd) nofun, hw, hne, hws⟩
  | readNotify => exact ⟨hv, hm, nofun, by simpa using hw, nofun, by simpa using hws⟩
  | readLoadClose => exact ⟨hv, hm, fun fd hfd => Option.some.inj hfd ▸ hm, hw, nofun, hws⟩
  | readClose hpc => exact absurd (hr _ (by rw [hpc]; rfl)) (hother hopen)
  | readStore hpc => exact absurd hpc hrs
  | readNotifyEnd => exact ⟨hv, hm, nofun, by simpa using hw, nofun, by simpa using hws⟩
  | writeUnlock =>
    obtain ⟨hnone, hne⟩ := fd_inSend s.type _ _
    exact ⟨hv, hm, hr, fun fd hfd => absurd (hnone.symm.trans hfd) nofun, hrs, hne⟩
  | writeLoadFd => exact ⟨hv, hm, hr, fun fd hfd => Option.some.inj hfd ▸ hm, hrs, nofun⟩
  | writeSend =>
    obtain ⟨hnone, hne⟩ := fd_inSend s.type _ _
    exact ⟨hv, hm, hr, fun fd hfd => absurd (hnone.symm.trans hfd) nofun, hrs, hne⟩
  | writeLoadClose => exact ⟨hv, hm, hr, fun fd hfd => Option.some.inj hfd ▸ hm, hrs, nofun⟩
  | writeClose hpc => exact absurd (hw _ (by rw [hpc]; rfl)) (hother hopen)
  | writeStoreIPV4 hpc => exact absurd hpc hws
  | writeStoreIPV6 hpc => exact absurd hpc hws
  | writeWake => exact ⟨hv, hm, hr, by simpa using hw, hrs, by simpa using hws⟩
  | _ =>
    first
    | exact ⟨hv, hm, hr, hw, hrs, hws⟩
    | exact ⟨hv, hm, by rintro _ ⟨⟩, hw, by rintro ⟨⟩, hws⟩
    | exact ⟨hv, hm, hr, by rintro _ ⟨⟩, hrs, by rintro ⟨⟩⟩

/-! ## The two starts -/

/-- Behind the sending loop, and in it, the write thread has been started. -/
theorem inSend_ne_unstarted (type : HandleType) (send_msg : Buffer w UInt8) (phase : Phase w) :
    inSend type send_msg phase ≠ .unstarted :=
  inSend_cases (P := (· ≠ .unstarted)) type send_msg phase (fun _ => nofun) nofun nofun nofun

/-- **`doWork` starts each thread once**: a thread has not been started just as
long as `doWork` is still to come to its start. -/
structure StartsOnce (s : ThreadsClientHandle w) : Prop where
  read : s.reader = .unstarted ↔ s.doWork = .startRead
  write : s.writer = .unstarted ↔ s.doWork = .startRead ∨ s.doWork = .startWrite

/-- A step of a thread that has been started. -/
theorem StartsOnce.of_thread (hi : StartsOnce s) (hmain : s'.doWork = s.doWork)
    (hr : s'.reader = .unstarted ↔ s.reader = .unstarted)
    (hw : s'.writer = .unstarted ↔ s.writer = .unstarted) : StartsOnce s' where
  read := by rw [hr, hmain]; exact hi.read
  write := by rw [hw, hmain]; exact hi.write

/-- A step of `doWork` behind its two starts. -/
theorem StartsOnce.of_doWork (hi : StartsOnce s)
    (hpc : s.doWork ≠ .startRead ∧ s.doWork ≠ .startWrite)
    (hpc' : s'.doWork ≠ .startRead ∧ s'.doWork ≠ .startWrite) (hreader : s'.reader = s.reader)
    (hwriter : s'.writer = s.writer) : StartsOnce s' where
  read := by
    rw [hreader, hi.read]
    exact iff_of_false hpc.1 hpc'.1
  write := by
    rw [hwriter, hi.write]
    exact iff_of_false (not_or.mpr hpc) (not_or.mpr hpc')

theorem StartsOnce.step (h : Step s a s' es) (hi : StartsOnce s) : StartsOnce s' := by
  cases h with
  | startRead hpc =>
    exact ⟨iff_of_false nofun nofun, iff_of_true (hi.write.mpr (.inl hpc)) (.inr rfl)⟩
  | startWrite hpc =>
    refine ⟨iff_of_false (fun hreader => ?_) nofun,
      iff_of_false nofun (by rintro (h | h) <;> cases h)⟩
    cases hpc.symm.trans (hi.read.mp hreader)
  | joinRead hpc => exact hi.of_doWork (by simp [hpc]) (by simp) rfl rfl
  | joinWrite hpc => exact hi.of_doWork (by simp [hpc]) (by simp) rfl rfl
  | destroyClosed hpc => exact hi.of_doWork (by simp [hpc]) (by simp) rfl rfl
  | destroyOpen hpc => exact hi.of_doWork (by simp [hpc]) (by simp) rfl rfl
  | readRecv hpc _ hafter =>
    have hstarted := afterRecv_cases (P := (· ≠ .unstarted)) hafter nofun nofun
      (fun _ _ _ _ => nofun)
    exact hi.of_thread rfl (iff_of_false hstarted (by rw [hpc]; exact nofun)) Iff.rfl
  | readNotify hpc =>
    exact hi.of_thread rfl (iff_of_false nofun (by rw [hpc]; exact nofun))
      (notify_eq_iff nofun nofun)
  | readNotifyEnd hpc =>
    exact hi.of_thread rfl (iff_of_false nofun (by rw [hpc]; exact nofun))
      (notify_eq_iff nofun nofun)
  | writeUnlock hpc =>
    exact hi.of_thread rfl Iff.rfl
      (iff_of_false (inSend_ne_unstarted _ _ _) (by rw [hpc]; exact nofun))
  | writeSend hpc =>
    exact hi.of_thread rfl Iff.rfl
      (iff_of_false (inSend_ne_unstarted _ _ _) (by rw [hpc]; exact nofun))
  | writeWake => exact hi.of_thread rfl Iff.rfl (notify_eq_iff nofun nofun)
  | _ =>
    first
    | exact hi.of_thread rfl (iff_of_false nofun (by rw [‹s.reader = _›]; exact nofun)) Iff.rfl
    | exact hi.of_thread rfl Iff.rfl (iff_of_false nofun (by rw [‹s.writer = _›]; exact nofun))

/-! ## Along a run -/

variable {ok : ThreadsClientHandle w → Action → Prop} {type : HandleType} {fd : ℤ}

theorem type_client_of_run (h : (machine w).Run ok (init type fd) es s) :
    s.type = type ∧ s.client = fd :=
  h.stateInvariant (I := fun s => s.type = type ∧ s.client = fd) ⟨rfl, rfl⟩
    (fun hi _ hs =>
      have heq := (Step.of_step hs).type_client
      ⟨heq.1.trans hi.1, heq.2.trans hi.2⟩)

theorem startsOnce_of_run (h : (machine w).Run ok (init type fd) es s) : StartsOnce s :=
  h.stateInvariant (I := StartsOnce)
    ⟨⟨fun _ => rfl, fun _ => rfl⟩, ⟨fun _ => .inl rfl, fun _ => rfl⟩⟩
    (fun hi _ hs => hi.step (Step.of_step hs))

theorem holdsClient_of_run (h : (machine w).Run ok (init type fd) es s) :
    s.isOpen = true → HoldsClient s := by
  refine h.stateInvariant (I := fun s => s.isOpen = true → HoldsClient s) (fun hopen => ?_)
    (fun hi _ hs hopen => (hi ((Step.of_step hs).isOpen hopen)).step (Step.of_step hs) hopen)
  exact ⟨of_decide_eq_true hopen, rfl, nofun, nofun, nofun, nofun⟩

end Invariants

end ThreadsClientHandle
