import NetUtils.ThreadsTcpBroWorker

/-!
# The echo handlers

`IPV4ThreadsClientHandle` and `IPV6ThreadsClientHandle` serve one client
each, with a read thread that pushes what it receives on `mMessageQueue` and
a write thread that sends it back. They are edited copies of one another, and
are one machine here, with the places where they differ decided by the class:
how the message is made from the receive buffer, how the write thread waits,
what it does when a `send` answers `0`, and how it ends.

As in `NetUtils.ThreadsTcpBroWorker` a step is one step of one thread. Unlike
there the descriptor is not guarded by a mutex: reading `mClientFd`, closing
what was read and storing `INVALID_FD` are steps of their own in either
thread. The kernel's side of the connection is part of the state: the number
it was accepted on, and whether that is still open. A number closed can be
given to another client, so a call made on it afterwards may be answered in
any way, but it is not a call on this client's connection.

The handlers' constructors take a context of their own type, so the casts at
the head of the two event functions succeed and are left out.
-/

open Transfer

variable {w : ℕ}

/-- The class of a handler. -/
inductive HandleType where
  /-- The handler of `IPV4ThreadsTcpServer`. -/
  | IPV4ThreadsClientHandle
  /-- The handler of `IPV6ThreadsTcpServer`. -/
  | IPV6ThreadsClientHandle
  deriving DecidableEq, Repr

/-- The threads that lock `mMutex`. -/
inductive HandleThread where
  /-- The thread of `handleReadEvent`. -/
  | threadHandleRead
  /-- The thread of `handleWriteEvent`. -/
  | threadHandleWrite
  deriving DecidableEq, Repr

/-- The memory from the first byte of `recv_msg_buf` on, after `recv` has
stored `chunk` there; `beyond` is what lies behind the buffer. -/
def recvMemory (chunk beyond : List UInt8) : List UInt8 :=
  overwrite (List.replicate MAX_MESSAGEBUFF_LEN 0) 0 chunk ++ beyond

/-- The message made of a chunk: `std::string(recv_msg_buf, rb)`, or
`std::string(recv_msg_buf)`, which ends before the first zero byte. -/
def recvMessage (type : HandleType) (chunk beyond : List UInt8) : List UInt8 :=
  match type with
  | .IPV4ThreadsClientHandle => (recvMemory chunk beyond).take chunk.length
  | .IPV6ThreadsClientHandle => (recvMemory chunk beyond).takeWhile (· ≠ 0)

/-! ## Where the threads stand -/

/-- Where the thread in `doWork` stands. -/
inductive HandleMainPc where
  /-- `std::thread threadHandleRead(…)`. -/
  | startRead
  /-- `std::thread threadHandleWrite(…)`. -/
  | startWrite
  /-- `threadHandleRead.join()`. -/
  | joinRead
  /-- `threadHandleWrite.join()`. -/
  | joinWrite
  /-- `doWork` has returned. -/
  | returned
  /-- The context has been destroyed. -/
  | destroyed
  deriving DecidableEq, Repr

/-- Where the read thread stands in `handleReadEvent`. -/
inductive HandleReadPc (w : ℕ) where
  /-- Not started. -/
  | unstarted
  /-- Reading `mClientFd` for `recv`. -/
  | loadFd
  /-- In `recv` on the descriptor read. -/
  | recv (fd : ℤ)
  /-- `std::unique_lock<std::mutex> lk(mMutex)`, with the message. -/
  | lock (recv_msg : Buffer w UInt8)
  /-- `mMessageQueue.push(recv_msg)`. -/
  | push (recv_msg : Buffer w UInt8)
  /-- `lk.unlock()`. -/
  | unlock
  /-- `mCond.notify_one()` behind a message. -/
  | notify
  /-- Reading `mClientFd` for `CLOSE_SOCKET`. -/
  | loadClose
  /-- `CLOSE_SOCKET`, of the descriptor read. -/
  | close (fd : ℤ)
  /-- `mClientFd = INVALID_FD`. -/
  | storeInvalid
  /-- `mCond.notify_one()` at the end. -/
  | notifyEnd
  /-- Returned. -/
  | returned
  deriving DecidableEq

/-- Where the write thread stands in `handleWriteEvent`. -/
inductive HandleWritePc (w : ℕ) where
  /-- Not started. -/
  | unstarted
  /-- `std::unique_lock<std::mutex> lk(mMutex)`. -/
  | lock
  /-- The test of `mMessageQueue.empty()` before the wait. -/
  | testEmpty
  /-- The wait, about to release the mutex and block. -/
  | enterWait
  /-- Blocked in the wait. -/
  | waiting
  /-- Woken, and about to lock the mutex again. -/
  | notified
  /-- `if (mClientFd == INVALID_FD)`, under the mutex. -/
  | checkFd
  /-- `mMessageQueue.front()` and `pop()`. -/
  | takeFront
  /-- `lk.unlock()`, with the message taken. -/
  | unlock (send_msg : Buffer w UInt8)
  /-- Reading `mClientFd` for `send`. -/
  | loadFd (send_msg : Buffer w UInt8) (total_send : BitVec w)
  /-- In `send` on the descriptor read. -/
  | send (fd : ℤ) (send_msg : Buffer w UInt8) (total_send : BitVec w)
  /-- Leaving the loop, `lk` going out of scope. -/
  | exitUnlock
  /-- Reading `mClientFd` for the close. -/
  | loadClose
  /-- The close of the descriptor read. -/
  | close (fd : ℤ)
  /-- `mClientFd = INVALID_FD`. -/
  | storeInvalid
  /-- `if (mClientFd == INVALID_FD)` behind the sending loop. -/
  | checkDone
  /-- Returned. -/
  | returned
  deriving DecidableEq

/-- Where the write thread stands after `mCond` is notified. -/
def HandleWritePc.notify : HandleWritePc w → HandleWritePc w
  | waiting => notified
  | pc => pc

/-! ## The state of a handler -/

/-- **An echo handler**: its fields, its context, where its threads stand, and
the client's connection. -/
structure ThreadsClientHandle (w : ℕ) where
  /-- The class. -/
  type : HandleType
  /-- The descriptor of the context, or `INVALID_FD`. -/
  mClientFd : ℤ
  /-- The messages received and not yet taken. -/
  mMessageQueue : List (Buffer w UInt8)
  /-- The thread that holds `mMutex`. -/
  mMutex : Option HandleThread
  /-- The thread in `doWork`. -/
  doWork : HandleMainPc
  /-- The read thread. -/
  reader : HandleReadPc w
  /-- The write thread. -/
  writer : HandleWritePc w
  /-- The number the connection was accepted on. -/
  client : ℤ
  /-- The connection has not been closed. -/
  isOpen : Bool

namespace ThreadsClientHandle

/-- A handler for the connection accepted on `fd`. -/
def init (type : HandleType) (fd : ℤ) : ThreadsClientHandle w where
  type := type
  mClientFd := fd
  mMessageQueue := []
  mMutex := none
  doWork := .startRead
  reader := .unstarted
  writer := .unstarted
  client := fd
  isOpen := decide (fd ≠ INVALID_FD)

/-- What can be observed of a handler. A `recv` or a `send` comes with whether
it was made on the client's connection. -/
inductive Event (w : ℕ) where
  /-- `recv` on the descriptor `fd` gave this answer. -/
  | recv (fd : ℤ) (onClient : Bool) (answer : Received UInt8)
  /-- A message was pushed. -/
  | push (message : Buffer w UInt8)
  /-- `send` on the descriptor `fd`, and the bytes the kernel accepted. -/
  | send (fd : ℤ) (onClient : Bool) (bytes : List UInt8)
  /-- `close(fd)`. -/
  | close (fd : ℤ)

/-- The steps of a handler: the thread that moves, and what the environment
answers it. -/
inductive Action where
  /-- The thread in `doWork`. -/
  | doWork
  /-- The read thread, not in `recv`. -/
  | reader
  /-- The read thread's `recv` answers, with what lies behind its buffer. -/
  | recv (answer : Received UInt8) (beyond : List UInt8)
  /-- The write thread, not in `send`. -/
  | writer
  /-- The write thread's `send` answers. -/
  | send (answer : IoResult)
  /-- The write thread's wait ends spuriously. -/
  | wakeWriter
  deriving DecidableEq

/-! ## Steps -/

/-- What a step answers. -/
abbrev Next (w : ℕ) := Option (ThreadsClientHandle w × List (Event w))

variable (s : ThreadsClientHandle w)

/-- The descriptor is that of the client's connection, which is open. -/
def onClient (fd : ℤ) : Bool := s.isOpen && decide (fd = s.client)

/-- The kernel's side of `close(fd)`. -/
@[simps] def closed (fd : ℤ) : ThreadsClientHandle w :=
  { s with isOpen := s.isOpen && decide (fd ≠ s.client) }

/-- `mCond.notify_one()`. Only the write thread waits. -/
@[simps] def notifyOne : ThreadsClientHandle w := { s with writer := s.writer.notify }

/-- `thread` locks `mMutex`, once it is free, and goes on as `next` says. -/
def lock (thread : HandleThread) (next : ThreadsClientHandle w → ThreadsClientHandle w) :
    Next w :=
  if s.mMutex = none then some (next { s with mMutex := some thread }, []) else none

/-- One step of `doWork`, and of what follows it. The context's destructor
closes the descriptor unless it is `INVALID_FD`. -/
def stepDoWork : Next w :=
  match s.doWork with
  | .startRead => some ({ s with reader := .loadFd, doWork := .startWrite }, [])
  | .startWrite => some ({ s with writer := .lock, doWork := .joinRead }, [])
  | .joinRead =>
    match s.reader with
    | .returned => some ({ s with doWork := .joinWrite }, [])
    | _ => none
  | .joinWrite =>
    match s.writer with
    | .returned => some ({ s with doWork := .returned }, [])
    | _ => none
  | .returned =>
    if s.mClientFd = INVALID_FD then some ({ s with doWork := .destroyed }, [])
    else some ({ s.closed s.mClientFd with doWork := .destroyed }, [.close s.mClientFd])
  | .destroyed => none

/-- One step of the read thread, other than the answer of its `recv`. -/
def stepReader : Next w :=
  match s.reader with
  | .unstarted => none
  | .loadFd => some ({ s with reader := .recv s.mClientFd }, [])
  | .recv _ => none
  | .lock recv_msg => s.lock .threadHandleRead fun s => { s with reader := .push recv_msg }
  | .push recv_msg =>
    some ({ s with mMessageQueue := s.mMessageQueue ++ [recv_msg], reader := .unlock },
      [.push recv_msg])
  | .unlock => some ({ s with mMutex := none, reader := .notify }, [])
  | .notify => some ({ s.notifyOne with reader := .loadFd }, [])
  | .loadClose => some ({ s with reader := .close s.mClientFd }, [])
  | .close fd => some ({ s.closed fd with reader := .storeInvalid }, [.close fd])
  | .storeInvalid => some ({ s with mClientFd := INVALID_FD, reader := .notifyEnd }, [])
  | .notifyEnd => some ({ s.notifyOne with reader := .returned }, [])
  | .returned => none

/-- Where `handleReadEvent` goes with the answer of `recv`, and what lies
behind its buffer. A message is no longer than memory is. -/
def afterRecv (type : HandleType) (answer : Received UInt8) (beyond : List UInt8) :
    Option (HandleReadPc w) :=
  match answer with
  | .failed .EAGAIN => some .loadFd
  | .failed .EWOULDBLOCK => some .loadFd
  | .failed _ => some .loadClose
  | .got [] => some .loadClose
  | .got (b :: bs) => (Buffer.ofBytes (recvMessage type (b :: bs) beyond)).map .lock

/-- The answer of the read thread's `recv`. -/
def stepRecv (answer : Received UInt8) (beyond : List UInt8) : Next w :=
  match s.reader with
  | .recv fd =>
    if answer.Allowed fd then
      (afterRecv s.type answer beyond).map fun pc =>
        ({ s with reader := pc }, [.recv fd (s.onClient fd) answer])
    else none
  | _ => none

/-- Where `handleWriteEvent` goes while its sending loop is at `phase`, and
where it goes behind the loop. Only the IPv4 handler closes when a `send` has
failed, and only it looks at `mClientFd` there. -/
def inSend (type : HandleType) (send_msg : Buffer w UInt8) : Phase w → HandleWritePc w
  | .calling total_send => .loadFd send_msg total_send
  | .returned true =>
    match type with
    | .IPV4ThreadsClientHandle => .checkDone
    | .IPV6ThreadsClientHandle => .lock
  | .returned false =>
    match type with
    | .IPV4ThreadsClientHandle => .loadClose
    | .IPV6ThreadsClientHandle => .lock

/-- One step of the write thread, other than the answer of its `send`. The
IPv4 handler waits with a predicate, the IPv6 handler once. Taking the front
of an empty queue is undefined, and no step is modelled for it. -/
def stepWriter : Next w :=
  match s.writer with
  | .unstarted => none
  | .lock => s.lock .threadHandleWrite fun s => { s with writer := .testEmpty }
  | .testEmpty =>
    if s.mMessageQueue.isEmpty then some ({ s with writer := .enterWait }, [])
    else some ({ s with writer := .checkFd }, [])
  | .enterWait => some ({ s with mMutex := none, writer := .waiting }, [])
  | .waiting => none
  | .notified =>
    match s.type with
    | .IPV4ThreadsClientHandle =>
      s.lock .threadHandleWrite fun s => { s with writer := .testEmpty }
    | .IPV6ThreadsClientHandle =>
      s.lock .threadHandleWrite fun s => { s with writer := .checkFd }
  | .checkFd =>
    if s.mClientFd = INVALID_FD then some ({ s with writer := .exitUnlock }, [])
    else some ({ s with writer := .takeFront }, [])
  | .takeFront =>
    match s.mMessageQueue with
    | [] => none
    | send_msg :: rest =>
      some ({ s with mMessageQueue := rest, writer := .unlock send_msg }, [])
  | .unlock send_msg =>
    some ({ s with mMutex := none, writer := inSend s.type send_msg (test send_msg.size 0#w) },
      [])
  | .loadFd send_msg total_send =>
    some ({ s with writer := .send s.mClientFd send_msg total_send }, [])
  | .send _ _ _ => none
  | .exitUnlock =>
    match s.type with
    | .IPV4ThreadsClientHandle => some ({ s with mMutex := none, writer := .returned }, [])
    | .IPV6ThreadsClientHandle => some ({ s with mMutex := none, writer := .loadClose }, [])
  | .loadClose => some ({ s with writer := .close s.mClientFd }, [])
  | .close fd => some ({ s.closed fd with writer := .storeInvalid }, [.close fd])
  | .storeInvalid =>
    match s.type with
    | .IPV4ThreadsClientHandle =>
      some ({ s with mClientFd := INVALID_FD, writer := .checkDone }, [])
    | .IPV6ThreadsClientHandle =>
      some ({ s with mClientFd := INVALID_FD, writer := .returned }, [])
  | .checkDone =>
    if s.mClientFd = INVALID_FD then some ({ s with writer := .returned }, [])
    else some ({ s with writer := .lock }, [])
  | .returned => none

/-- The answer of a `send`. The sending loop is that of `IOHelper::send_bytes`:
the answer is stored in a `size_t`, and the branch under `sb < 0` does what
the one under `sb == 0` does. -/
def stepSend (answer : IoResult) : Next w :=
  match s.writer with
  | .send fd send_msg total_send =>
    let left := (send_msg.size - total_send).toNat
    if answer.Allowed fd left then
      some ({ s with
        writer := inSend s.type send_msg (IOHelper.sendBody send_msg.size total_send answer) },
        [.send fd (s.onClient fd)
          (slice send_msg.bytes total_send.toNat answer.transferred)])
    else none
  | _ => none

/-- **One step of a handler.** -/
def step : Action → Next w
  | .doWork => s.stepDoWork
  | .reader => s.stepReader
  | .recv answer beyond => s.stepRecv answer beyond
  | .writer => s.stepWriter
  | .send answer => s.stepSend answer
  | .wakeWriter =>
    match s.writer with
    | .waiting => some (s.notifyOne, [])
    | _ => none

/-- A handler as a machine. -/
def machine (w : ℕ) : Machine (ThreadsClientHandle w) Action (Event w) where
  step := step

end ThreadsClientHandle
