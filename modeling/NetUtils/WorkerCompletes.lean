import NetUtils.WorkerFinish
import NetUtils.WorkerPublish
import NetUtils.WorkerSendBytes

/-!
# What a worker owes its client is sent

`NetUtils.WorkerFinish` is about a worker whose connection has ended. Here the
connection is open and stays so: the client sends nothing more, takes what it is
sent, and no other thread calls the worker. This module says that the write thread
then sends all that it owes, and nothing else.

What it owes is the rest of the response it has in hand; and, where it comes to test
`mIsWriteEnabled` once more and the flag is set, the response in `mResponse`
(`due`). A response that has been enabled while the write thread slept is not owed:
`enableWriteEvent()` notifies nobody, and no step of the worker will.

`sends_what_is_due` says that what has been sent and what is due make up the same
bytes all along, and that on every schedule the two threads come to rest, where
nothing is due any more. The argument is again a measure: the reading of a request
costs a number of steps, and a response a step for each of its bytes.
-/

open Transfer IOHelper

variable {w : ℕ} {β : Type}

/-- The read thread is blocked, in `recv` or in its wait. -/
def ReadPc.blocked : ReadPc β → Bool
  | recv _ => true
  | waiting => true
  | _ => false

/-- A bound on the steps the read thread takes until it is blocked. -/
def ReadPc.toBlock : ReadPc β → ℕ
  | lockRequest _ => 10
  | append _ => 9
  | unstarted => 9
  | castContext => 8
  | unlockRequest => 8
  | interruptionPoint => 7
  | lockRead => 6
  | notified => 6
  | testEnabled => 5
  | unlockRead => 2
  | enterWait => 1
  | loadFd => 1
  | _ => 0

/-- A bound on the steps the write thread takes until it waits, apart from those for
`mIsWriteEnabled`. The length is that of `mResponse`. -/
def WritePc.toWait (length : ℕ) : WritePc w β → ℕ
  | unlockWrite => 15 + length
  | lockResponse => 14 + length
  | copyResponse => 13 + length
  | unlockResponse response => 12 + response.bytes.length
  | callSend response => 11 + response.bytes.length
  | send _ response total_send => 10 + (response.bytes.length - total_send.toNat)
  | unstarted => 11
  | castContext => 10
  | interruptionPoint => 9
  | lockWrite => 3
  | notified => 3
  | testEnabled => 2
  | clearEnabled => 1
  | enterWait => 1
  | _ => 0

/-- The bytes the write thread is about to send, `mResponse` being `response`. -/
def WritePc.carries (response : List β) : WritePc w β → List β
  | clearEnabled => response
  | unlockWrite => response
  | lockResponse => response
  | copyResponse => response
  | unlockResponse response => response.bytes
  | callSend response => response.bytes
  | send _ response total_send => response.bytes.drop total_send.toNat
  | _ => []

/-- It comes to test `mIsWriteEnabled` before it waits again. -/
def WritePc.testsFlag : WritePc w β → Bool
  | clearEnabled => false
  | enterWait => false
  | waiting => false
  | exit _ => false
  | returned => false
  | _ => true

namespace ThreadsTcpBroWorker

/-- The response that has been enabled, if one has. -/
def requested (s : ThreadsTcpBroWorker w β) : List β :=
  if s.mIsWriteEnabled then s.mContext.mResponse.bytes else []

/-- **What the write thread owes its client.** -/
def due (s : ThreadsTcpBroWorker w β) : List β :=
  s.writer.carries s.mContext.mResponse.bytes ++ if s.writer.testsFlag then s.requested else []

/-- The bytes the kernel has accepted over some calls of `send_bytes`, the last one
first. -/
def bytesSent (cs : List (SendBytesCall w β)) : List β :=
  cs.reverse.flatMap fun c => accepted c.response.bytes c.calls

/-- The bytes the kernel has accepted from the write thread. -/
def sent (es : List (Event w β)) : List β := bytesSent (sendBytesCalls es)

/-- The condition on a step: nothing is received, every `send` takes some bytes, no
wake-up is spurious and nobody calls. -/
def Undisturbed (_ : ThreadsTcpBroWorker w β) : Action w β → Prop
  | .recv _ => False
  | .send answer => 0 < answer.transferred
  | .wakeReader => False
  | .wakeWriter => False
  | .invoke _ _ _ => False
  | _ => True

instance : DecidableRel (Undisturbed : ThreadsTcpBroWorker w β → Action w β → Prop)
  | _, .recv _ => instDecidableFalse
  | _, .send _ => inferInstanceAs (Decidable (_ < _))
  | _, .wakeReader => instDecidableFalse
  | _, .wakeWriter => instDecidableFalse
  | _, .invoke _ _ _ => instDecidableFalse
  | _, .doWork | _, .reader | _, .writer | _, .caller _ => instDecidableTrue

/-- **The worker serves its client**: the connection is open, neither thread has left
its loop or been asked to, and nobody is in a call. -/
structure Serving (s : ThreadsTcpBroWorker w β) : Prop where
  isOpen : StaysOpen s
  mClientFd : s.mContext.mClientFd ≠ INVALID_FD
  callers : Idle s

/-- The worker is at rest: the read thread is blocked, and the write thread waits. -/
def AtRest (s : ThreadsTcpBroWorker w β) : Prop :=
  s.reader.blocked = true ∧ s.writer = .waiting

/-- The work that is left. -/
def work (s : ThreadsTcpBroWorker w β) : ℕ :=
  s.doWork.toGo + s.reader.toBlock + s.writer.toWait s.mContext.mResponse.bytes.length
    + if s.mIsWriteEnabled then 20 + s.mContext.mResponse.bytes.length else 0

section Completion

variable {s s' : ThreadsTcpBroWorker w β} {a : Action w β} {es es' : List (Event w β)}
variable {context : SocketContext w β} {cs : List (SendBytesCall w β)}

/-! ## A worker that serves goes on serving -/

/-- A `send` that takes some bytes leaves the write thread in its loop, that many
bytes on. -/
theorem inSendBytes_of_takesSome {fd : ℤ} {response : Buffer w β} {total : BitVec w}
    {answer : IoResult} (hlt : total.toNat < response.bytes.length)
    (hanswer : answer.Allowed fd (response.size - total).toNat) (hsome : 0 < answer.transferred) :
    ∃ next : BitVec w, next.toNat = total.toNat + answer.transferred
      ∧ next.toNat ≤ response.bytes.length
      ∧ inSendBytes fd response (sendBody response.size total answer)
        = inSendBytes fd response (test response.size next) := by
  cases answer with
  | error e => cases hsome
  | count n =>
    have hpos : 0 < n := hsome
    have hwithin : n ≤ (response.size - total).toNat := hanswer.1
    rw [toNat_left (by simpa using hlt.le)] at hwithin
    have hle : total.toNat + n ≤ response.size.toNat := by
      rw [Buffer.toNat_size] at hwithin ⊢
      omega
    have hnext : (total + BitVec.ofNat w n).toNat = total.toNat + n := toNat_advance hle
    refine ⟨total + BitVec.ofNat w n, hnext, ?_, by rw [sendBody_count hpos hle]⟩
    rwa [hnext, ← Buffer.toNat_size]

/-- An undisturbed step is one of a worker whose callers publish. -/
theorem Step.publishing (h : Step s a s' es') (hok : Undisturbed s a) (hinside : SendsInside s) :
    Publishing s a := by
  cases h with
  | readRecv => exact absurd hok id
  | invoke => exact absurd hok id
  | writeSend hpc hanswer =>
    obtain ⟨next, -, -, heq⟩ := inSendBytes_of_takesSome (hinside _ _ _ hpc) hanswer hok
    simp [Publishing, ThreadsTcpBroWorker.publishing, hpc, heq, exited_inSendBytes_test]
  | _ => rfl

theorem Undisturbed.isUnattended (hok : Undisturbed s a) : Unattended s a := by
  cases a with
  | invoke => exact absurd hok id
  | _ => trivial

theorem Serving.step (h : Step s a s' es') (hok : Undisturbed s a)
    (htype : s.mContext.type = .IPV4SocketContext) (hinside : SendsInside s) (hi : Serving s) :
    Serving s' where
  isOpen := hi.isOpen.step h htype (h.publishing hok hinside)
  callers := hi.callers.step h hok.isUnattended
  mClientFd := by
    rw [h.mClientFd_eq hi.isOpen]
    exact hi.mClientFd

/-! ## The work that is left -/

/-- At the head of the sending loop a step is due for each byte left. -/
theorem toWait_inSendBytes_test_le (length : ℕ) (fd : ℤ) (response : Buffer w β)
    (total : BitVec w) :
    (inSendBytes fd response (test response.size total)).toWait length
      ≤ 10 + (response.bytes.length - total.toNat) := by
  unfold test
  split
  · exact le_rfl
  · exact Nat.le_add_right_of_le (show 9 ≤ 10 by decide)

/-- A step of the read thread that leaves the rest alone. -/
theorem work_lt_of_reader (hmain : s'.doWork = s.doWork) (hwriter : s'.writer = s.writer)
    (hresponse : s'.mContext.mResponse = s.mContext.mResponse)
    (hflag : s'.mIsWriteEnabled = s.mIsWriteEnabled)
    (hlt : s'.reader.toBlock < s.reader.toBlock) : s'.work < s.work := by
  rw [work, work, hmain, hwriter, hresponse, hflag]
  omega

/-- A step of the write thread that leaves the rest alone. -/
theorem work_lt_of_writer (hmain : s'.doWork = s.doWork) (hreader : s'.reader = s.reader)
    (hresponse : s'.mContext.mResponse = s.mContext.mResponse)
    (hflag : s'.mIsWriteEnabled = s.mIsWriteEnabled)
    (hlt : s'.writer.toWait s.mContext.mResponse.bytes.length
      < s.writer.toWait s.mContext.mResponse.bytes.length) : s'.work < s.work := by
  rw [work, work, hmain, hreader, hresponse, hflag]
  omega

/-- **Every undisturbed step of a worker that serves leaves less work.** -/
theorem Step.work_lt (h : Step s a s' es') (hok : Undisturbed s a) (hi : Serving s)
    (hd : DoWorkAgrees s) (ht : TestedUnderLock s) (hinside : SendsInside s) :
    s'.work < s.work := by
  have hreads {pc : ReadPc β} (hpc : s.reader = pc) (hends : pc.exited = true) : False :=
    Bool.false_ne_true (hi.isOpen.reader.symm.trans (hpc ▸ hends))
  have hwrites {pc : WritePc w β} (hpc : s.writer = pc) (hends : pc.exited = true) : False :=
    Bool.false_ne_true (hi.isOpen.writer.symm.trans (hpc ▸ hends))
  have hjoined (hjoined : s.doWork.recvJoined = true) : False := hreads (hd.recvJoined hjoined) rfl
  cases h with
  | startRecv hpc =>
    have hreader : s.reader = .unstarted := hd.recvStarted.mp (by rw [hpc]; rfl)
    simp only [work, hpc, hreader, MainPc.toGo, ReadPc.toBlock]
    omega
  | startSend hpc =>
    have hwriter : s.writer = .unstarted := hd.sendStarted.mp (by rw [hpc]; rfl)
    simp only [work, hpc, hwriter, MainPc.toGo, WritePc.toWait]
    omega
  | storeRecv hpc => simp only [work, hpc, MainPc.toGo]; omega
  | storeSend hpc => simp only [work, hpc, MainPc.toGo]; omega
  | joinRecv _ hreader => exact (hreads hreader rfl).elim
  | joinSend _ hwriter => exact (hwrites hwriter rfl).elim
  | destroyClosed hpc => exact (hjoined (by rw [hpc]; rfl)).elim
  | destroyOpen hpc => exact (hjoined (by rw [hpc]; rfl)).elim
  | readInterrupted _ hreq => cases hi.isOpen.recvInterrupted.symm.trans hreq
  | writeInterrupted _ hreq => cases hi.isOpen.sendInterrupted.symm.trans hreq
  | readLock hpc =>
    refine work_lt_of_reader rfl rfl rfl rfl ?_
    rcases hpc with hpc | hpc <;>
      · rw [hpc]
        exact Nat.lt_succ_self 5
  | readRecv => exact absurd hok id
  | readWake => exact absurd hok id
  | writeWake => exact absurd hok id
  | invoke => exact absurd hok id
  | callLock hpc => cases (hi.callers _).symm.trans hpc
  | callBody hpc => cases (hi.callers _).symm.trans hpc
  | callReturn hpc => cases (hi.callers _).symm.trans hpc
  | callNext hpc => cases (hi.callers _).symm.trans hpc
  | writeLock hpc =>
    refine work_lt_of_writer rfl rfl rfl rfl ?_
    rcases hpc with hpc | hpc <;>
      · rw [hpc]
        exact Nat.lt_succ_self 2
  | writeClear hpc =>
    rw [work, work, hpc, ht.writeClear hpc, if_pos rfl, if_neg Bool.false_ne_true]
    simp only [WritePc.toWait]
    omega
  | @writeCallSend response hpc =>
    refine work_lt_of_writer rfl rfl rfl rfl ?_
    have hnext := toWait_inSendBytes_test_le s.mContext.mResponse.bytes.length
      s.mContext.mClientFd response 0#w
    rw [hpc, WritePc.toWait]
    exact Nat.lt_of_le_of_lt hnext (by omega)
  | @writeSend fd response total_send answer hpc hanswer =>
    refine work_lt_of_writer rfl rfl rfl rfl ?_
    obtain ⟨next, hnext, hle, heq⟩ :=
      inSendBytes_of_takesSome (hinside _ _ _ hpc) hanswer hok
    have hwork := toWait_inSendBytes_test_le s.mContext.mResponse.bytes.length fd response next
    have hsome : 0 < answer.transferred := hok
    rw [hpc, WritePc.toWait, heq]
    exact Nat.lt_of_le_of_lt hwork (by omega)
  | _ =>
    first
    | have hpc := ‹s.reader = _›
      refine work_lt_of_reader rfl rfl rfl rfl ?_
      rw [hpc]
      simp only [ReadPc.toBlock]
      omega
    | have hpc := ‹s.writer = _›
      refine work_lt_of_writer rfl rfl rfl rfl ?_
      rw [hpc]
      simp only [WritePc.toWait]
      omega
    | have hpc := ‹s.reader = _›
      exact (hreads hpc rfl).elim
    | have hpc := ‹s.writer = _›
      exact (hwrites hpc rfl).elim

/-! ## Somebody can move until the worker is at rest -/

/-- The mutexes the read thread uses in its loop. -/
theorem readLoop_uses {pc : ReadPc β} {m : Mutex} (hloop : pc.exited = false)
    (huses : pc.held = some m ∨ pc.wants = some m) : m = .mReadMutex ∨ m = .mRequestMutex := by
  cases pc with
  | exit => cases hloop
  | returned => cases hloop
  | _ => rcases huses with ⟨⟨⟩⟩ | ⟨⟨⟩⟩ <;> simp

/-- The mutexes the write thread uses in its loop. -/
theorem writeLoop_uses {pc : WritePc w β} {m : Mutex} (hloop : pc.exited = false)
    (huses : pc.held = some m ∨ pc.wants = some m) : m = .mWriteMutex ∨ m = .mResponseMutex := by
  cases pc with
  | exit => cases hloop
  | returned => cases hloop
  | _ => rcases huses with ⟨⟨⟩⟩ | ⟨⟨⟩⟩ <;> simp

/-- **While the worker serves, no thread is kept by a mutex.** -/
theorem Serving.free (hi : Serving s) (hl : LockTable.Agrees s.locks s.held) {t : Thread}
    {m : Mutex} (hwants : s.wants t = some m) : s.locks m = none := by
  refine Option.eq_none_iff_forall_ne_some.mpr fun u hu => ?_
  have hheld : s.held u = some m := (hl m u).mp hu
  have hne : u ≠ t := by
    rintro rfl
    rw [held_eq_none_of_wants hwants] at hheld
    cases hheld
  cases u with
  | caller i => rw [held, hi.callers i] at hheld; cases hheld
  | recvThread =>
    have hm := readLoop_uses hi.isOpen.reader (.inl hheld)
    cases t with
    | recvThread => exact hne rfl
    | sendThread =>
      rcases writeLoop_uses hi.isOpen.writer (.inr hwants) with rfl | rfl <;>
        (rcases hm with heq | heq <;> cases heq)
    | caller i => rw [wants, hi.callers i] at hwants; cases hwants
  | sendThread =>
    have hm := writeLoop_uses hi.isOpen.writer (.inl hheld)
    cases t with
    | sendThread => exact hne rfl
    | recvThread =>
      rcases readLoop_uses hi.isOpen.reader (.inr hwants) with rfl | rfl <;>
        (rcases hm with heq | heq <;> cases heq)
    | caller i => rw [wants, hi.callers i] at hwants; cases hwants

/-- A thread that has not been started is about to be. -/
theorem enabled_start (hd : DoWorkAgrees s)
    (hstart : s.reader = .unstarted ∨ s.writer = .unstarted) :
    ∃ a next, Undisturbed s a ∧ (machine w β).step s a = some next := by
  refine ⟨.doWork, ?_⟩
  have hmoves : ∃ next, s.stepDoWork = some next := by
    unfold stepDoWork
    cases hpc : s.doWork with
    | startRecv => exact ⟨_, rfl⟩
    | storeRecv => exact ⟨_, rfl⟩
    | startSend => exact ⟨_, rfl⟩
    | _ =>
      rcases hstart with hreader | hwriter
      · have hnot := hd.recvStarted.mpr hreader
        rw [hpc] at hnot
        cases hnot
      · have hnot := hd.sendStarted.mpr hwriter
        rw [hpc] at hnot
        cases hnot
  obtain ⟨next, hs⟩ := hmoves
  exact ⟨next, trivial, hs⟩

/-- A read thread that is not blocked moves. -/
theorem Serving.enabled_reader (hi : Serving s) (hl : LockTable.Agrees s.locks s.held)
    (htype : s.mContext.type = .IPV4SocketContext) (hstarted : s.reader ≠ .unstarted)
    (hmoves : s.reader.blocked = false) :
    ∃ a next, Undisturbed s a ∧ (machine w β).step s a = some next := by
  suffices hs : ∃ next, s.stepReader = some next by
    obtain ⟨next, hs⟩ := hs
    exact ⟨.reader, next, trivial, hs⟩
  have hloop := hi.isOpen.reader
  unfold stepReader
  cases hpc : s.reader with
  | unstarted => exact absurd hpc hstarted
  | recv => rw [hpc] at hmoves; cases hmoves
  | waiting => rw [hpc] at hmoves; cases hmoves
  | exit => rw [hpc] at hloop; cases hloop
  | returned => rw [hpc] at hloop; cases hloop
  | castContext => simp [htype]
  | interruptionPoint => simp [hi.isOpen.recvInterrupted]
  | lockRead =>
    have hfree := hi.free hl (t := .recvThread) (m := .mReadMutex) (by rw [wants, hpc]; rfl)
    simp [lock, hfree]
  | notified =>
    have hfree := hi.free hl (t := .recvThread) (m := .mReadMutex) (by rw [wants, hpc]; rfl)
    simp [lock, hfree]
  | testEnabled => cases hflag : s.mIsReadEnabled <;> simp
  | lockRequest =>
    have hfree := hi.free hl (t := .recvThread) (m := .mRequestMutex) (by rw [wants, hpc]; rfl)
    simp [lock, hfree]
  | _ => exact ⟨_, rfl⟩

/-- A write thread that does not wait moves, and its `send` can take all that is
left. -/
theorem Serving.enabled_writer (hi : Serving s) (hl : LockTable.Agrees s.locks s.held)
    (htype : s.mContext.type = .IPV4SocketContext) (hstarted : s.writer ≠ .unstarted)
    (hinside : SendsInside s) (hholds : HoldsClient s) (hwaits : s.writer ≠ .waiting) :
    ∃ a next, Undisturbed s a ∧ (machine w β).step s a = some next := by
  have hmoves (hs : ∃ next, s.stepWriter = some next) :
      ∃ a next, Undisturbed s a ∧ (machine w β).step s a = some next := by
    obtain ⟨next, hs⟩ := hs
    exact ⟨.writer, next, trivial, hs⟩
  have hloop := hi.isOpen.writer
  cases hpc : s.writer with
  | unstarted => exact absurd hpc hstarted
  | waiting => exact absurd hpc hwaits
  | exit => rw [hpc] at hloop; cases hloop
  | returned => rw [hpc] at hloop; cases hloop
  | send fd response total_send =>
    have hlt := hinside _ _ _ hpc
    have hleft : 0 < (response.size - total_send).toNat := by
      rw [toNat_left (by simpa using hlt.le), Buffer.toNat_size]
      omega
    have hfd : fd = s.mContext.mClientFd := hholds hi.mClientFd fd (.inr (by rw [hpc]; rfl))
    have hanswer : (IoResult.count (response.size - total_send).toNat).Allowed fd
        (response.size - total_send).toNat :=
      ⟨le_rfl, fun hinvalid => absurd (hfd.symm.trans hinvalid) hi.mClientFd⟩
    obtain ⟨next, hs⟩ :
        ∃ next, s.stepSend (.count (response.size - total_send).toNat) = some next := by
      simp only [stepSend, hpc, if_pos hanswer]
      exact ⟨_, rfl⟩
    exact ⟨.send (.count (response.size - total_send).toNat), next, hleft, hs⟩
  | castContext => exact hmoves (by simp [stepWriter, hpc, htype])
  | interruptionPoint => exact hmoves (by simp [stepWriter, hpc, hi.isOpen.sendInterrupted])
  | lockWrite =>
    have hfree := hi.free hl (t := .sendThread) (m := .mWriteMutex) (by rw [wants, hpc]; rfl)
    exact hmoves (by simp [stepWriter, hpc, lock, hfree])
  | notified =>
    have hfree := hi.free hl (t := .sendThread) (m := .mWriteMutex) (by rw [wants, hpc]; rfl)
    exact hmoves (by simp [stepWriter, hpc, lock, hfree])
  | testEnabled =>
    refine hmoves ?_
    cases hflag : s.mIsWriteEnabled <;> simp [stepWriter, hpc, hflag]
  | lockResponse =>
    have hfree := hi.free hl (t := .sendThread) (m := .mResponseMutex) (by rw [wants, hpc]; rfl)
    exact hmoves (by simp [stepWriter, hpc, lock, hfree])
  | _ => exact hmoves (by simp [stepWriter, hpc])

/-- **Some thread of a worker that serves can move**, until it is at rest. -/
theorem Serving.enabled (hi : Serving s) (htype : context.type = .IPV4SocketContext)
    (hrun : (machine w β).Run Machine.always (init context) es s) (hbusy : ¬ s.AtRest) :
    ∃ a next, Undisturbed s a ∧ (machine w β).step s a = some next := by
  have hl := agrees_of_run hrun
  have hipv4 : s.mContext.type = .IPV4SocketContext := (type_of_run hrun).trans htype
  by_cases hstart : s.reader = .unstarted ∨ s.writer = .unstarted
  · exact enabled_start (doWorkAgrees_of_run hrun) hstart
  obtain ⟨hreader, hwriter⟩ := not_or.mp hstart
  by_cases hwaits : s.writer = .waiting
  · refine hi.enabled_reader hl hipv4 hreader (Bool.of_not_eq_true fun hblocked => ?_)
    exact hbusy ⟨hblocked, hwaits⟩
  · exact hi.enabled_writer hl hipv4 hwriter (sendsInside_of_run hrun)
      (holdsClient_of_run htype hrun) hwaits

/-! ## What is sent is what was due -/

/-- A `send` of the call that is going on. -/
theorem bytesSent_send (c : SendBytesCall w β) (cs : List (SendBytesCall w β))
    (call : Call IoResult) :
    bytesSent (⟨c.response, c.calls ++ [call]⟩ :: cs)
      = bytesSent (c :: cs)
        ++ slice c.response.bytes call.offset call.result.transferred := by
  simp [bytesSent, accepted]

/-- A call that has been made sends nothing yet. -/
theorem bytesSent_call (response : Buffer w β) (cs : List (SendBytesCall w β)) :
    bytesSent (⟨response, []⟩ :: cs) = bytesSent cs := by
  simp [bytesSent, accepted]

/-- At the head of the sending loop the bytes from the counter on are due, and what is
enabled after them. -/
theorem due_of_inSendBytes_test {fd : ℤ} {response : Buffer w β} {total : BitVec w}
    (hpc : s.writer = inSendBytes fd response (test response.size total)) :
    s.due = response.bytes.drop total.toNat ++ s.requested := by
  rw [due, hpc]
  rcases Nat.lt_or_ge total.toNat response.bytes.length with h | h
  · rw [test_of_lt (by rw [Buffer.toNat_size]; exact h)]
    rfl
  · rw [test_of_le (by rw [Buffer.toNat_size]; exact h), List.drop_of_length_le h]
    rfl

/-- **What has been sent and what is due** make up the same bytes before and after an
undisturbed step. -/
theorem Step.sent_due (h : Step s a s' es') (hok : Undisturbed s a) (hi : Serving s)
    (htype : s.mContext.type = .IPV4SocketContext) (hd : DoWorkAgrees s) (hinside : SendsInside s)
    (hcs : SendState s cs) :
    bytesSent (es'.foldl sendEvent cs) ++ s'.due = bytesSent cs ++ s.due := by
  have hreads {pc : ReadPc β} (hpc : s.reader = pc) (hends : pc.exited = true) : False :=
    Bool.false_ne_true (hi.isOpen.reader.symm.trans (hpc ▸ hends))
  have hwrites {pc : WritePc w β} (hpc : s.writer = pc) (hends : pc.exited = true) : False :=
    Bool.false_ne_true (hi.isOpen.writer.symm.trans (hpc ▸ hends))
  cases h with
  | startSend hpc =>
    have hwriter : s.writer = .unstarted := hd.sendStarted.mp (by rw [hpc]; rfl)
    simp only [due, hwriter]
    rfl
  | writeCastIPV6 _ hipv6 => cases htype.symm.trans hipv6
  | writeInterrupted _ hreq => cases hi.isOpen.sendInterrupted.symm.trans hreq
  | readRecv => exact absurd hok id
  | readWake => exact absurd hok id
  | writeWake => exact absurd hok id
  | invoke => exact absurd hok id
  | callLock hpc => cases (hi.callers _).symm.trans hpc
  | callBody hpc => cases (hi.callers _).symm.trans hpc
  | callReturn hpc => cases (hi.callers _).symm.trans hpc
  | callNext hpc => cases (hi.callers _).symm.trans hpc
  | writeLock hpc => rcases hpc with hpc | hpc <;> (simp only [due, hpc]; rfl)
  | writeEnabled hpc hflag => simp [due, requested, hpc, hflag, WritePc.carries, WritePc.testsFlag]
  | writeDisabled hpc hflag => simp [due, requested, hpc, hflag, WritePc.carries, WritePc.testsFlag]
  | writeClear hpc => simp [due, requested, hpc, WritePc.carries, WritePc.testsFlag]
  | @writeCallSend response hpc =>
    have hdue : s.due = response.bytes ++ s.requested := by
      rw [due, hpc]
      rfl
    rw [due_of_inSendBytes_test rfl, hdue, List.foldl_cons, List.foldl_nil, sendEvent,
      bytesSent_call, BitVec.toNat_ofNat, Nat.zero_mod, List.drop_zero]
    rfl
  | @writeSend fd response total_send answer hpc hanswer =>
    obtain ⟨next, hnext, -, heq⟩ := inSendBytes_of_takesSome (hinside _ _ _ hpc) hanswer hok
    cases hcs with
    | outside hat => rw [hpc] at hat; cases hat
    | gaveUp hexited => exact (hwrites rfl hexited).elim
    | @inside _ c _ cs hat =>
      cases hpc.symm.trans hat
      have hdue : s.due = c.response.bytes.drop total_send.toNat ++ s.requested := by
        rw [due, hpc]
        rfl
      have hslice : slice c.response.bytes total_send.toNat answer.transferred
          ++ c.response.bytes.drop next.toNat = c.response.bytes.drop total_send.toNat := by
        rw [hnext, slice, ← List.drop_drop]
        exact List.take_append_drop _ _
      rw [due_of_inSendBytes_test heq, hdue, List.foldl_cons, List.foldl_nil, sendEvent,
        bytesSent_send, ← hslice, List.append_assoc, List.append_assoc]
      rfl
  | _ =>
    first
    | rfl
    | have hpc := ‹s.writer = _›
      simp only [due, hpc]
      rfl
    | have hpc := ‹s.reader = _›
      exact (hreads hpc rfl).elim

/-- At rest nothing is due. -/
theorem AtRest.due (h : s.AtRest) : s.due = [] := by
  rw [ThreadsTcpBroWorker.due, h.2]
  rfl

theorem inevitable_atRest (htype : context.type = .IPV4SocketContext)
    (hrun : (machine w β).Run Machine.always (init context) es s) (hi : Serving s) :
    (machine w β).Inevitable Undisturbed AtRest s := by
  refine .of_measure
    (I := fun s => Serving s
      ∧ ∃ es, (machine w β).Run Machine.always (init context) es s)
    work ?_ ?_ ⟨hi, es, hrun⟩
  · rintro s ⟨hi, es, hrun⟩ hbusy
    exact hi.enabled htype hrun hbusy
  · rintro s a s' es' ⟨hi, es, hrun⟩ - hok hs
    have hstep := Step.of_step hs
    have hinside := sendsInside_of_run hrun
    exact .inr ⟨⟨hi.step hstep hok ((type_of_run hrun).trans htype) hinside, _,
        hrun.snoc trivial hs⟩,
      hstep.work_lt hok hi (doWorkAgrees_of_run hrun) (testedUnderLock_of_run hrun) hinside⟩

/-- An undisturbed run goes on serving, and sends of what was due. -/
theorem serving_of_undisturbed (htype : context.type = .IPV4SocketContext)
    (hrun : (machine w β).Run Machine.always (init context) es s) (hi : Serving s)
    (h : (machine w β).Run Undisturbed s es' s') :
    Serving s' ∧ sent (es ++ es') ++ s'.due = sent es ++ s.due := by
  have hboth := h.invariant (I := fun es' s' =>
    (machine w β).Run Machine.always (init context) (es ++ es') s'
      ∧ Serving s' ∧ sent (es ++ es') ++ s'.due = sent es ++ s.due)
    ⟨by rwa [List.append_nil], hi, by rw [List.append_nil]⟩ ?_
  · exact hboth.2
  · rintro es₁ s₁ a s₂ es₂ - ⟨hrun, hi, hsent⟩ hok hs
    have hstep := Step.of_step hs
    have hinside := sendsInside_of_run hrun
    have hipv4 := (type_of_run hrun).trans htype
    refine ⟨?_, hi.step hstep hok hipv4 hinside, ?_⟩
    · rw [← List.append_assoc]
      exact hrun.snoc trivial hs
    · rw [← hsent, ← List.append_assoc, sent, sent, sendBytesCalls_append]
      exact hstep.sent_due hok hi hipv4 (doWorkAgrees_of_run hrun) hinside (sendState_of_run hrun)

/-- **What a worker owes its client is sent.** After any run, and while the worker
serves its client: if the client sends nothing more and takes what it is sent, and
nobody calls the worker, what is sent is the beginning of what was due; and on every
schedule the worker comes to rest, where all of it has been sent. -/
theorem sends_what_is_due (htype : context.type = .IPV4SocketContext)
    (h : (machine w β).Run Machine.always (init context) es s) (hserving : s.Serving) :
    (machine w β).Inevitable Undisturbed AtRest s
      ∧ ∀ es' s', (machine w β).Run Undisturbed s es' s' →
        sent (es ++ es') <+: sent es ++ s.due
          ∧ (s'.AtRest → sent (es ++ es') = sent es ++ s.due) := by
  refine ⟨inevitable_atRest htype h hserving, fun es' s' h' => ?_⟩
  obtain ⟨-, hsent⟩ := serving_of_undisturbed htype h hserving h'
  refine ⟨⟨s'.due, hsent⟩, fun hrest => ?_⟩
  rw [← hsent, hrest.due, List.append_nil]

end Completion

/-- A response of two bytes is enabled while the write thread is on its way; one of
them has been taken. -/
def oneIsTaken : List (Action 64 ℕ) :=
  times 4 .doWork ++ .invoke 0 (.storeResponse ⟨[31, 32], by decide⟩) [.enableWriteEvent]
    :: times 6 (.caller 0) ++ times 10 .writer ++ [.send (.count 1)]

theorem sends_what_is_due_oneIsTaken :
    ∃ es s, (machine 64 ℕ).Run Machine.always (init aClient) es s
      ∧ sent es = [31] ∧ s.due = [32] ∧ (machine 64 ℕ).Inevitable Undisturbed AtRest s := by
  have hrun : (machine 64 ℕ).Run Machine.always (init aClient) _ _ :=
    Machine.Run.of_exec oneIsTaken rfl
  refine ⟨_, _, hrun, rfl, rfl, (sends_what_is_due rfl hrun ?_).1⟩
  exact
    { isOpen := ⟨rfl, rfl, rfl, rfl⟩
      mClientFd := by decide
      callers := fun i => by cases i <;> rfl }

end ThreadsTcpBroWorker
