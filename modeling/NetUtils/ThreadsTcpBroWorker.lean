import NetUtils.IOHelper
import NetUtils.LockTable
import NetUtils.Transition
import Mathlib.Tactic.Simps.Basic

/-!
# `ThreadsTcpBroWorker`

One accepted client: its `SocketContext`, the read thread and the write
thread that serve it, the thread in `doWork` that starts and joins them, and
any number of other threads that call the worker's four enable and disable
methods or store a response in the context.

The worker is a `Machine`. A step is one step of one thread, and the threads'
program counters name the lines of the source they stand at: locking a mutex,
what is done under it, and unlocking it are steps of their own, and so are
the load of `mClientFd`, each `recv` and each `send`. Closing the descriptor
and storing `INVALID_FD`, which the source does under `mMutex`, is one step.

Two things about the threads come from the libraries. A
`std::condition_variable` wait releases its mutex as it blocks, and ends by a
notification or spuriously, after which the thread has to lock the mutex
again. An interruption request of a `boost::thread` is a flag of the thread
that only `interruption_point` reads and clears; `interrupt()` raises it on
the thread the object holds, and does nothing where the object holds none.
-/

open Transfer

variable {w : ℕ} {β : Type}

/-- `MAX_MESSAGEBUFF_LEN`, the size of the read thread's buffer. -/
def MAX_MESSAGEBUFF_LEN : ℕ := 1024 * 1024 * 1

/-- The dynamic type of a context. -/
inductive ContextType where
  /-- Built by `ThreadsTcpBroServer::run`. -/
  | IPV4SocketContext
  /-- Built by `ThreadsTcp6BroServer::run`. -/
  | IPV6SocketContext
  deriving DecidableEq, Repr

/-- **`SocketContext`**: what the threads of a worker share about the client.
Its three mutexes are among those of the worker below. -/
structure SocketContext (w : ℕ) (β : Type) where
  /-- The dynamic type. -/
  type : ContextType
  /-- The descriptor of the client, or `INVALID_FD`. -/
  mClientFd : ℤ
  /-- The bytes received. -/
  mRequest : List β
  /-- The bytes to send. -/
  mResponse : Buffer w β

/-- The mutexes a worker's threads lock: two of the worker, three of its
context. -/
inductive Mutex where
  /-- Guards `mIsReadEnabled`. -/
  | mReadMutex
  /-- Guards `mIsWriteEnabled`. -/
  | mWriteMutex
  /-- Guards the closing of `mClientFd`. -/
  | mMutex
  /-- Guards `mRequest`. -/
  | mRequestMutex
  /-- Guards `mResponse`. -/
  | mResponseMutex
  deriving DecidableEq, Repr

/-- The threads that lock them. -/
inductive Thread where
  /-- The thread of `handleReadEvent`. -/
  | recvThread
  /-- The thread of `handleWriteEvent`. -/
  | sendThread
  /-- A thread that calls the worker's methods. -/
  | caller (i : ℕ)
  deriving DecidableEq, Repr

/-- The answer of the read thread's `recv`: an error, or the bytes given. No
bytes is what `recv` gives once the peer has closed. -/
inductive Received (β : Type) where
  /-- `-1`, with `errno` set. -/
  | failed (errno : Errno)
  /-- The bytes stored in `recv_buffer`. -/
  | got (chunk : List β)
  deriving DecidableEq, Repr

/-- The answer is one `recv` can give on the descriptor `fd`: `EBADF` on
`INVALID_FD`, and no more bytes than the buffer holds. -/
def Received.Allowed (fd : ℤ) : Received β → Prop
  | failed e => fd = INVALID_FD → e = .EBADF
  | got chunk => fd ≠ INVALID_FD ∧ chunk.length ≤ MAX_MESSAGEBUFF_LEN

instance (fd : ℤ) : (r : Received β) → Decidable (r.Allowed fd)
  | .failed e => inferInstanceAs (Decidable (fd = INVALID_FD → e = .EBADF))
  | .got chunk =>
    inferInstanceAs (Decidable (fd ≠ INVALID_FD ∧ chunk.length ≤ MAX_MESSAGEBUFF_LEN))

/-- The answer is one `send` can give on the descriptor `fd` when offered
`len` bytes. -/
def IoResult.Allowed (fd : ℤ) (len : ℕ) (r : IoResult) : Prop :=
  r.Within len ∧ (fd = INVALID_FD → r = .error .EBADF)

instance (fd : ℤ) (len : ℕ) (r : IoResult) : Decidable (r.Allowed fd len) :=
  inferInstanceAs (Decidable (_ ∧ _))

/-- A call another thread makes: one of the four methods, or storing a
response under `mResponseMutex`. -/
inductive WorkerCall (w : ℕ) (β : Type) where
  /-- `enableReadEvent()`. -/
  | enableReadEvent
  /-- `enableWriteEvent()`. -/
  | enableWriteEvent
  /-- `disbaleReadEvent()`. -/
  | disbaleReadEvent
  /-- `disbaleWriteEvent()`. -/
  | disbaleWriteEvent
  /-- `mResponse = response`. -/
  | storeResponse (response : Buffer w β)
  deriving DecidableEq

/-- The mutex a call locks. -/
def WorkerCall.mutex : WorkerCall w β → Mutex
  | enableReadEvent => .mReadMutex
  | enableWriteEvent => .mWriteMutex
  | disbaleReadEvent => .mReadMutex
  | disbaleWriteEvent => .mWriteMutex
  | storeResponse _ => .mResponseMutex

/-! ## Where the threads stand -/

/-- Where the thread in `doWork` stands. -/
inductive MainPc where
  /-- `boost::thread(… handleReadEvent …)` starts the read thread. -/
  | startRecv
  /-- The new thread is stored in `mRecvThread`. -/
  | storeRecv
  /-- `boost::thread(… handleWriteEvent …)` starts the write thread. -/
  | startSend
  /-- The new thread is stored in `mSendThread`. -/
  | storeSend
  /-- `mRecvThread.join()`. -/
  | joinRecv
  /-- `mSendThread.join()`. -/
  | joinSend
  /-- `doWork` has returned. -/
  | returned
  /-- The context has been destroyed. -/
  | destroyed
  deriving DecidableEq, Repr

/-- Where a thread stands in its scope-exit handler. The two handlers are one
sequence of steps: close the descriptor, enable the events of the other
thread, interrupt it and notify it. -/
inductive ExitPc where
  /-- `std::unique_lock ctx_lk(socket_context->mMutex)`. -/
  | lockContext
  /-- `close(mClientFd); mClientFd = INVALID_FD;`. -/
  | close
  /-- `ctx_lk` goes out of scope. -/
  | unlockContext
  /-- Locking in `enableWriteEvent()`, or `enableReadEvent()`. -/
  | lockPeer
  /-- Setting the flag there. -/
  | enablePeer
  /-- Unlocking there. -/
  | unlockPeer
  /-- `mSendThread.interrupt()`, or `mRecvThread.interrupt()`. -/
  | interruptPeer
  /-- `mWriteCond.notify_one()`, or `mReadCond.notify_one()`. -/
  | notifyPeer
  deriving DecidableEq, Repr

/-- Where the read thread stands in `handleReadEvent`. -/
inductive ReadPc (β : Type) where
  /-- Not started. -/
  | unstarted
  /-- The `dynamic_pointer_cast` to `IPV4SocketContext`. -/
  | castContext
  /-- `boost::this_thread::interruption_point()`. -/
  | interruptionPoint
  /-- `std::unique_lock lk(mReadMutex)`. -/
  | lockRead
  /-- The test of `while (!mIsReadEnabled)`. -/
  | testEnabled
  /-- `mReadCond.wait(lk)`, about to release the mutex and block. -/
  | enterWait
  /-- Blocked in the wait. -/
  | waiting
  /-- Woken, and about to lock the mutex again. -/
  | notified
  /-- `lk.unlock()`. -/
  | unlockRead
  /-- Loading `mClientFd` for `recv`. -/
  | loadFd
  /-- In `recv` on the descriptor loaded. -/
  | recv (fd : ℤ)
  /-- `std::unique_lock ctx_lk(mRequestMutex)`, with the bytes received. -/
  | lockRequest (chunk : List β)
  /-- `std::copy(…, std::back_inserter(mRequest))`. -/
  | append (chunk : List β)
  /-- `ctx_lk.unlock()`. -/
  | unlockRequest
  /-- In the scope-exit handler. -/
  | exit (e : ExitPc)
  /-- Returned. -/
  | returned
  deriving DecidableEq, Repr

/-- Where the write thread stands in `handleWriteEvent`. -/
inductive WritePc (w : ℕ) (β : Type) where
  /-- Not started. -/
  | unstarted
  /-- The `dynamic_pointer_cast` to `IPV4SocketContext`. -/
  | castContext
  /-- `boost::this_thread::interruption_point()`. -/
  | interruptionPoint
  /-- `std::unique_lock lk(mWriteMutex)`. -/
  | lockWrite
  /-- The predicate of `mWriteCond.wait(lk, …)`. -/
  | testEnabled
  /-- The wait, about to release the mutex and block. -/
  | enterWait
  /-- Blocked in the wait. -/
  | waiting
  /-- Woken, and about to lock the mutex again. -/
  | notified
  /-- `mIsWriteEnabled = false`. -/
  | clearEnabled
  /-- `lk.unlock()`. -/
  | unlockWrite
  /-- `std::unique_lock ctx_lk(mResponseMutex)`. -/
  | lockResponse
  /-- `auto response = mResponse`. -/
  | copyResponse
  /-- `ctx_lk.unlock()`, with the copy. -/
  | unlockResponse (response : Buffer w β)
  /-- Loading `mClientFd` and calling `send_bytes`. -/
  | callSend (response : Buffer w β)
  /-- At a `send` of `send_bytes`, with the descriptor passed to it. -/
  | send (fd : ℤ) (response : Buffer w β) (total_send : BitVec w)
  /-- In the scope-exit handler. -/
  | exit (e : ExitPc)
  /-- Returned. -/
  | returned
  deriving DecidableEq

/-- Where a calling thread stands in a call. -/
inductive CallStage where
  /-- About to lock the mutex. -/
  | lock
  /-- Under the mutex, before the assignment. -/
  | body
  /-- Under the mutex, after the assignment. -/
  | unlock
  deriving DecidableEq, Repr

/-- Where a calling thread stands: between calls, or in a call with the calls
it makes afterwards. -/
inductive CallerPc (w : ℕ) (β : Type) where
  /-- Not in a call. -/
  | idle
  /-- In a call. -/
  | inCall (stage : CallStage) (call : WorkerCall w β) (rest : List (WorkerCall w β))

/-! ### What each holds -/

/-- The mutex held in a scope-exit handler; `peer` is the one of the enable
method it calls. -/
def ExitPc.held (peer : Mutex) : ExitPc → Option Mutex
  | close => some .mMutex
  | unlockContext => some .mMutex
  | enablePeer => some peer
  | unlockPeer => some peer
  | _ => none

/-- The mutex the read thread holds. -/
def ReadPc.held : ReadPc β → Option Mutex
  | testEnabled => some .mReadMutex
  | enterWait => some .mReadMutex
  | unlockRead => some .mReadMutex
  | append _ => some .mRequestMutex
  | unlockRequest => some .mRequestMutex
  | exit e => e.held .mWriteMutex
  | _ => none

/-- The mutex the write thread holds. -/
def WritePc.held : WritePc w β → Option Mutex
  | testEnabled => some .mWriteMutex
  | enterWait => some .mWriteMutex
  | clearEnabled => some .mWriteMutex
  | unlockWrite => some .mWriteMutex
  | copyResponse => some .mResponseMutex
  | unlockResponse _ => some .mResponseMutex
  | exit e => e.held .mReadMutex
  | _ => none

/-- The mutex a calling thread holds. -/
def CallerPc.held : CallerPc w β → Option Mutex
  | inCall .body call _ => some call.mutex
  | inCall .unlock call _ => some call.mutex
  | _ => none

/-! ### Being notified -/

/-- Where the read thread stands after `mReadCond` is notified. -/
def ReadPc.notify : ReadPc β → ReadPc β
  | waiting => notified
  | pc => pc

/-- Where the write thread stands after `mWriteCond` is notified. -/
def WritePc.notify : WritePc w β → WritePc w β
  | waiting => notified
  | pc => pc

/-! ## The state of a worker -/

/-- **`ThreadsTcpBroWorker`**: its fields, its context, and where each of its
threads stands. -/
structure ThreadsTcpBroWorker (w : ℕ) (β : Type) where
  /-- The client's context. -/
  mContext : SocketContext w β
  /-- The read thread may call `recv`. -/
  mIsReadEnabled : Bool
  /-- There is a response to send. -/
  mIsWriteEnabled : Bool
  /-- The object `mRecvThread` holds the read thread. -/
  mRecvThread : Bool
  /-- The object `mSendThread` holds the write thread. -/
  mSendThread : Bool
  /-- An interruption of the read thread has been requested. -/
  recvInterrupted : Bool
  /-- An interruption of the write thread has been requested. -/
  sendInterrupted : Bool
  /-- Which thread holds each mutex. -/
  locks : LockTable Mutex Thread
  /-- The thread in `doWork`. -/
  doWork : MainPc
  /-- The read thread, in `handleReadEvent`. -/
  reader : ReadPc β
  /-- The write thread, in `handleWriteEvent`. -/
  writer : WritePc w β
  /-- The threads that call the worker's methods. -/
  callers : ℕ → CallerPc w β

namespace ThreadsTcpBroWorker

/-- The worker `ThreadsTcpBroProcessor::process` makes for a context, as its
`doWork` is entered. -/
def init (context : SocketContext w β) : ThreadsTcpBroWorker w β where
  mContext := context
  mIsReadEnabled := true
  mIsWriteEnabled := false
  mRecvThread := false
  mSendThread := false
  recvInterrupted := false
  sendInterrupted := false
  locks := fun _ => none
  doWork := .startRecv
  reader := .unstarted
  writer := .unstarted
  callers := fun _ => .idle

/-- What can be observed of a worker. -/
inductive Event (w : ℕ) (β : Type) where
  /-- `recv` on the descriptor `fd` gave this answer. -/
  | recv (fd : ℤ) (answer : Received β)
  /-- `send_bytes` was called with this descriptor and response. -/
  | sendBytes (fd : ℤ) (response : Buffer w β)
  /-- A `send` of `send_bytes` on the descriptor `fd`. -/
  | send (fd : ℤ) (call : Transfer.Call IoResult)
  /-- `close(fd)`. -/
  | close (fd : ℤ)
  /-- A calling thread made the assignment of its call. -/
  | called (i : ℕ) (call : WorkerCall w β)
  /-- The write thread copied the response. -/
  | copied (response : Buffer w β)

/-- The steps of a worker: the thread that moves, and what the environment
answers it. -/
inductive Action (w : ℕ) (β : Type) where
  /-- The thread in `doWork`. -/
  | doWork
  /-- The read thread, not in `recv`. -/
  | reader
  /-- The read thread's `recv` answers. -/
  | recv (answer : Received β)
  /-- The read thread's wait ends spuriously. -/
  | wakeReader
  /-- The write thread, not in `send`. -/
  | writer
  /-- The write thread's `send` answers. -/
  | send (answer : IoResult)
  /-- The write thread's wait ends spuriously. -/
  | wakeWriter
  /-- A calling thread starts on a list of calls. -/
  | invoke (i : ℕ) (call : WorkerCall w β) (rest : List (WorkerCall w β))
  /-- A calling thread in a call. -/
  | caller (i : ℕ)

/-! ## Steps -/

/-- What a step answers. -/
abbrev Next (w : ℕ) (β : Type) := Option (ThreadsTcpBroWorker w β × List (Event w β))

variable (s : ThreadsTcpBroWorker w β)

/-- The mutex `m` is now held by `thread`. -/
@[simps] def lockedBy (m : Mutex) (thread : Thread) : ThreadsTcpBroWorker w β :=
  { s with locks := Function.update s.locks m (some thread) }

/-- The mutex `m` is free again. -/
@[simps] def unlock (m : Mutex) : ThreadsTcpBroWorker w β :=
  { s with locks := Function.update s.locks m none }

/-- `thread` locks `m`, once it is free, and goes on as `next` says. -/
def lock (m : Mutex) (thread : Thread)
    (next : ThreadsTcpBroWorker w β → ThreadsTcpBroWorker w β) : Next w β :=
  if s.locks m = none then some (next (s.lockedBy m thread), []) else none

/-- The assignment of `enableReadEvent()`. -/
@[simps] def enableReadEvent : ThreadsTcpBroWorker w β := { s with mIsReadEnabled := true }

/-- The assignment of `enableWriteEvent()`. -/
@[simps] def enableWriteEvent : ThreadsTcpBroWorker w β := { s with mIsWriteEnabled := true }

/-- The assignment of `disbaleReadEvent()`. -/
@[simps] def disbaleReadEvent : ThreadsTcpBroWorker w β := { s with mIsReadEnabled := false }

/-- The assignment of `disbaleWriteEvent()`. -/
@[simps] def disbaleWriteEvent : ThreadsTcpBroWorker w β := { s with mIsWriteEnabled := false }

/-- `mResponse = response`. -/
@[simps] def storeResponse (response : Buffer w β) : ThreadsTcpBroWorker w β :=
  { s with mContext := { s.mContext with mResponse := response } }

/-- `mClientFd = INVALID_FD`. -/
@[simps] def invalidate : ThreadsTcpBroWorker w β :=
  { s with mContext := { s.mContext with mClientFd := INVALID_FD } }

/-- The read thread, if it is blocked in `mReadCond`, is woken. -/
@[simps] def notifyRead : ThreadsTcpBroWorker w β :=
  { s with reader := s.reader.notify }

/-- The write thread, if it is blocked in `mWriteCond`, is woken. -/
@[simps] def notifyWrite : ThreadsTcpBroWorker w β :=
  { s with writer := s.writer.notify }

/-- `mRecvThread.interrupt()`. -/
@[simps] def interruptRecv : ThreadsTcpBroWorker w β :=
  { s with recvInterrupted := s.recvInterrupted || s.mRecvThread }

/-- `mSendThread.interrupt()`. -/
@[simps] def interruptSend : ThreadsTcpBroWorker w β :=
  { s with sendInterrupted := s.sendInterrupted || s.mSendThread }

/-- One step of `doWork`, and of what follows it. A `join` waits for the
thread to return, and leaves the object with none. The context's destructor
closes the descriptor unless it is `INVALID_FD`. -/
def stepDoWork : Next w β :=
  match s.doWork with
  | .startRecv => some ({ s with reader := .castContext, doWork := .storeRecv }, [])
  | .storeRecv => some ({ s with mRecvThread := true, doWork := .startSend }, [])
  | .startSend => some ({ s with writer := .castContext, doWork := .storeSend }, [])
  | .storeSend => some ({ s with mSendThread := true, doWork := .joinRecv }, [])
  | .joinRecv =>
    match s.reader with
    | .returned => some ({ s with mRecvThread := false, doWork := .joinSend }, [])
    | _ => none
  | .joinSend =>
    match s.writer with
    | .returned => some ({ s with mSendThread := false, doWork := .returned }, [])
    | _ => none
  | .returned =>
    if s.mContext.mClientFd = INVALID_FD then
      some ({ s with doWork := .destroyed }, [])
    else
      some ({ s with doWork := .destroyed }, [.close s.mContext.mClientFd])
  | .destroyed => none

/-- One step of the read thread's scope-exit handler. -/
def stepReadExit : ExitPc → Next w β
  | .lockContext => s.lock .mMutex .recvThread fun s => { s with reader := .exit .close }
  | .close =>
    some ({ s.invalidate with reader := .exit .unlockContext }, [.close s.mContext.mClientFd])
  | .unlockContext => some ({ s.unlock .mMutex with reader := .exit .lockPeer }, [])
  | .lockPeer => s.lock .mWriteMutex .recvThread fun s => { s with reader := .exit .enablePeer }
  | .enablePeer => some ({ s.enableWriteEvent with reader := .exit .unlockPeer }, [])
  | .unlockPeer => some ({ s.unlock .mWriteMutex with reader := .exit .interruptPeer }, [])
  | .interruptPeer => some ({ s.interruptSend with reader := .exit .notifyPeer }, [])
  | .notifyPeer => some ({ s.notifyWrite with reader := .returned }, [])

/-- One step of the read thread, other than the answer of its `recv`. -/
def stepReader : Next w β :=
  match s.reader with
  | .unstarted => none
  | .castContext =>
    match s.mContext.type with
    | .IPV4SocketContext => some ({ s with reader := .interruptionPoint }, [])
    | .IPV6SocketContext => some ({ s with reader := .returned }, [])
  | .interruptionPoint =>
    if s.recvInterrupted then
      some ({ s with recvInterrupted := false, reader := .exit .lockContext }, [])
    else some ({ s with reader := .lockRead }, [])
  | .lockRead => s.lock .mReadMutex .recvThread fun s => { s with reader := .testEnabled }
  | .testEnabled =>
    if s.mIsReadEnabled then some ({ s with reader := .unlockRead }, [])
    else some ({ s with reader := .enterWait }, [])
  | .enterWait => some ({ s.unlock .mReadMutex with reader := .waiting }, [])
  | .waiting => none
  | .notified => s.lock .mReadMutex .recvThread fun s => { s with reader := .testEnabled }
  | .unlockRead => some ({ s.unlock .mReadMutex with reader := .loadFd }, [])
  | .loadFd => some ({ s with reader := .recv s.mContext.mClientFd }, [])
  | .recv _ => none
  | .lockRequest chunk =>
    s.lock .mRequestMutex .recvThread fun s => { s with reader := .append chunk }
  | .append chunk =>
    some ({ s with
      mContext := { s.mContext with mRequest := s.mContext.mRequest ++ chunk }
      reader := .unlockRequest }, [])
  | .unlockRequest =>
    some ({ s.unlock .mRequestMutex with reader := .interruptionPoint }, [])
  | .exit e => s.stepReadExit e
  | .returned => none

/-- Where `handleReadEvent` goes with the answer of `recv`. -/
def afterRecv (answer : Received β) : ReadPc β :=
  match answer with
  | .failed .EAGAIN => .interruptionPoint
  | .failed .EWOULDBLOCK => .interruptionPoint
  | .failed _ => .exit .lockContext
  | .got [] => .exit .lockContext
  | .got (b :: bs) => .lockRequest (b :: bs)

/-- The answer of the read thread's `recv`. -/
def stepRecv (answer : Received β) : Next w β :=
  match s.reader with
  | .recv fd =>
    if answer.Allowed fd then
      some ({ s with reader := afterRecv answer }, [.recv fd answer])
    else none
  | _ => none

/-- One step of the write thread's scope-exit handler. -/
def stepWriteExit : ExitPc → Next w β
  | .lockContext => s.lock .mMutex .sendThread fun s => { s with writer := .exit .close }
  | .close =>
    some ({ s.invalidate with writer := .exit .unlockContext }, [.close s.mContext.mClientFd])
  | .unlockContext => some ({ s.unlock .mMutex with writer := .exit .lockPeer }, [])
  | .lockPeer => s.lock .mReadMutex .sendThread fun s => { s with writer := .exit .enablePeer }
  | .enablePeer => some ({ s.enableReadEvent with writer := .exit .unlockPeer }, [])
  | .unlockPeer => some ({ s.unlock .mReadMutex with writer := .exit .interruptPeer }, [])
  | .interruptPeer => some ({ s.interruptRecv with writer := .exit .notifyPeer }, [])
  | .notifyPeer => some ({ s.notifyRead with writer := .returned }, [])

/-- Where `handleWriteEvent` stands while `send_bytes` is at `phase`, and
where it goes once it has returned. -/
def inSendBytes (fd : ℤ) (response : Buffer w β) : Phase w → WritePc w β
  | .calling total_send => .send fd response total_send
  | .returned true => .interruptionPoint
  | .returned false => .exit .lockContext

/-- One step of the write thread, other than the answer of a `send`. The wait
with a predicate tests it before it blocks. -/
def stepWriter : Next w β :=
  match s.writer with
  | .unstarted => none
  | .castContext =>
    match s.mContext.type with
    | .IPV4SocketContext => some ({ s with writer := .interruptionPoint }, [])
    | .IPV6SocketContext => some ({ s with writer := .returned }, [])
  | .interruptionPoint =>
    if s.sendInterrupted then
      some ({ s with sendInterrupted := false, writer := .exit .lockContext }, [])
    else some ({ s with writer := .lockWrite }, [])
  | .lockWrite => s.lock .mWriteMutex .sendThread fun s => { s with writer := .testEnabled }
  | .testEnabled =>
    if s.mIsWriteEnabled then some ({ s with writer := .clearEnabled }, [])
    else some ({ s with writer := .enterWait }, [])
  | .enterWait => some ({ s.unlock .mWriteMutex with writer := .waiting }, [])
  | .waiting => none
  | .notified => s.lock .mWriteMutex .sendThread fun s => { s with writer := .testEnabled }
  | .clearEnabled => some ({ s with mIsWriteEnabled := false, writer := .unlockWrite }, [])
  | .unlockWrite => some ({ s.unlock .mWriteMutex with writer := .lockResponse }, [])
  | .lockResponse =>
    s.lock .mResponseMutex .sendThread fun s => { s with writer := .copyResponse }
  | .copyResponse =>
    some ({ s with writer := .unlockResponse s.mContext.mResponse },
      [.copied s.mContext.mResponse])
  | .unlockResponse response =>
    some ({ s.unlock .mResponseMutex with writer := .callSend response }, [])
  | .callSend response =>
    some ({ s with
      writer := inSendBytes s.mContext.mClientFd response (test response.size 0#w) },
      [.sendBytes s.mContext.mClientFd response])
  | .send _ _ _ => none
  | .exit e => s.stepWriteExit e
  | .returned => none

/-- The answer of a `send` the write thread is at. -/
def stepSend (answer : IoResult) : Next w β :=
  match s.writer with
  | .send fd response total_send =>
    let left := (response.size - total_send).toNat
    if answer.Allowed fd left then
      some ({ s with
        writer := inSendBytes fd response
          (IOHelper.sendBody response.size total_send answer) },
        [.send fd ⟨total_send.toNat, left, answer⟩])
    else none
  | _ => none

/-- What a call assigns. -/
def assign : WorkerCall w β → ThreadsTcpBroWorker w β
  | .enableReadEvent => s.enableReadEvent
  | .enableWriteEvent => s.enableWriteEvent
  | .disbaleReadEvent => s.disbaleReadEvent
  | .disbaleWriteEvent => s.disbaleWriteEvent
  | .storeResponse response => s.storeResponse response

/-- The calling thread `i` is now at `pc`. -/
@[simps] def setCaller (i : ℕ) (pc : CallerPc w β) : ThreadsTcpBroWorker w β :=
  { s with callers := Function.update s.callers i pc }

/-- One step of a calling thread in a call. -/
def stepCaller (i : ℕ) : Next w β :=
  match s.callers i with
  | .idle => none
  | .inCall .lock call rest =>
    s.lock call.mutex (.caller i) fun s => s.setCaller i (.inCall .body call rest)
  | .inCall .body call rest =>
    some ((s.assign call).setCaller i (.inCall .unlock call rest), [.called i call])
  | .inCall .unlock call [] => some ((s.unlock call.mutex).setCaller i .idle, [])
  | .inCall .unlock call (next :: rest) =>
    some ((s.unlock call.mutex).setCaller i (.inCall .lock next rest), [])

/-- **One step of a worker.** -/
def step : Action w β → Next w β
  | .doWork => s.stepDoWork
  | .reader => s.stepReader
  | .recv answer => s.stepRecv answer
  | .wakeReader =>
    match s.reader with
    | .waiting => some (s.notifyRead, [])
    | _ => none
  | .writer => s.stepWriter
  | .send answer => s.stepSend answer
  | .wakeWriter =>
    match s.writer with
    | .waiting => some (s.notifyWrite, [])
    | _ => none
  | .invoke i call rest =>
    match s.callers i with
    | .idle => some (s.setCaller i (.inCall .lock call rest), [])
    | .inCall _ _ _ => none
  | .caller i => s.stepCaller i

/-- A worker as a machine. -/
def machine (w : ℕ) (β : Type) :
    Machine (ThreadsTcpBroWorker w β) (Action w β) (Event w β) where
  step := step

end ThreadsTcpBroWorker
