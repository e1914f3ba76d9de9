import NetUtils.BroServer
import NetUtils.HexDump

/-!
# The process of an engine

The engine of `NetUtils.BroServer` among the things that can take it away from its
clients: the listening socket, the peers that break their connections, the errors of
`accept`, and what ends the process.

A worker's `send` is made with no flags. Once the peer has broken the connection such
a `send` raises `SIGPIPE`, whose default action ends the process. (The IPv4 echo
handler passes `MSG_NOSIGNAL`.) Two log texts can read beyond the response: the hex
trace, as in `NetUtils.HexDump`, and the one for a `send_bytes` that has failed,
which prints the bytes of a `std::vector` as a C string. Such a read is undefined,
and taken for the end of the process. And the constructors of the threads can throw:
that of `ThreadsTcpBroProcessor::process` within `run`, those of `doWork` within a
detached thread. Nobody catches what they throw.
-/

open Transfer IOHelper

variable {w : ℕ}

/-- `MSG_NOSIGNAL`. -/
def MSG_NOSIGNAL : BitVec 32 := 0x4000

/-- The flags `handleWriteEvent` gives `send_bytes`, which gives them to `send`. -/
def ThreadsTcpBroWorker.sendFlags : BitVec 32 := 0

/-- A `send` with these flags raises `SIGPIPE` on a broken connection. -/
def raisesSigpipe (flags : BitVec 32) : Bool := flags &&& MSG_NOSIGNAL == 0

/-- The errors of `accept`. -/
inductive AcceptError where
  /-- The peer has aborted the connection before it was accepted. -/
  | ECONNABORTED
  /-- A signal has been caught. -/
  | EINTR
  /-- The descriptor is not a listening socket, or no longer open. -/
  | EBADF
  /-- Any other error that leaves the listening socket usable. -/
  | other (code : ℕ)
  deriving DecidableEq, Repr

/-- **The process of an engine.** -/
structure BroProcess (w : ℕ) where
  /-- The engine. -/
  server : BroServer w UInt8
  /-- The descriptor the engine listens on. -/
  mFd : ℤ
  /-- The process has not been ended. -/
  alive : Bool
  /-- The listening socket is open and usable. -/
  listening : Bool
  /-- The connections their peers have broken. -/
  broken : ℕ → Bool
  /-- `isTraceEnabled()`. -/
  traced : Bool
  /-- `CBT_DEBUG` puts its text together. -/
  debugged : Bool

namespace BroProcess

/-- The process as `run` is entered. -/
def init (mFd : ℤ) (traced debugged : Bool) : BroProcess w where
  server := BroServer.init
  mFd := mFd
  alive := true
  listening := true
  broken := fun _ => false
  traced := traced
  debugged := debugged

/-- What ends the process. -/
inductive Cause where
  /-- The `SIGPIPE` of a `send` that the worker of `c` makes on the broken connection
  of `d`. -/
  | SIGPIPE (c d : ℕ)
  /-- The hex trace of a `send` of the worker of `c` reads beyond the response, or
  counts beyond `INT_MAX`. -/
  | hexTrace (c : ℕ)
  /-- The log of a failed `send_bytes` of the worker of `c` reads beyond the
  response. -/
  | failedSend (c : ℕ)
  /-- A thread cannot be had. -/
  | noThread
  deriving DecidableEq, Repr

/-- What can be observed. -/
inductive Event (w : ℕ) where
  /-- An event of the engine. -/
  | served (event : BroServer.Event w UInt8)
  /-- `accept` has failed. -/
  | acceptFailed (error : AcceptError)
  /-- The peer of a connection has broken it. -/
  | peerBroke (c : ℕ)
  /-- The listening socket has been closed, or has become unusable. -/
  | listenerEnded
  /-- The process has been ended. -/
  | ended (cause : Cause)

/-- The steps of the process, of the peers and of the listening socket. -/
inductive Action (w : ℕ) where
  /-- `accept` answers a descriptor. -/
  | accept (client_socket : ℤ)
  /-- `accept` answers a descriptor, and `process` gets no thread for the client. -/
  | acceptNoThread (client_socket : ℤ)
  /-- `accept` fails. -/
  | acceptFails (error : AcceptError)
  /-- A step of the worker of a connection. -/
  | worker (c : ℕ) (a : ThreadsTcpBroWorker.Action w UInt8)
  /-- The worker of a connection gets no read thread, or no write thread. -/
  | threadFails (c : ℕ)
  /-- The peer of a connection breaks it. -/
  | peerBreaks (c : ℕ)
  /-- Somebody else than a worker closes the listening socket, or makes it
  unusable. -/
  | listenerEnds

section Steps

variable (s : BroProcess w) (c : ℕ)

/-- A `send` of the worker of `c` on this descriptor raises `SIGPIPE`. -/
def signalled (fd : ℤ) : Option Cause :=
  (s.server.sockets fd).bind fun d =>
    if s.broken d && raisesSigpipe ThreadsTcpBroWorker.sendFlags then some (.SIGPIPE c d)
    else none

/-- The hex trace of a `send` of this response reads or counts too far. -/
def tracedBeyond (response : Buffer w UInt8) (answer : IoResult) : Option Cause :=
  if s.traced && (sendTraced w answer).any fun sb =>
      decide (response.bytes.length < sb.toNat ∨ INT_MAX < sb.toNat) then some (.hexTrace c)
  else none

/-- The answer makes `send_bytes` fail, and no byte of the response ends the C string
that `handleWriteEvent` logs. -/
def loggedBeyond (response : Buffer w UInt8) (total_send : BitVec w) (answer : IoResult) :
    Option Cause :=
  if s.debugged ∧ sendBody response.size total_send answer = .returned false
      ∧ 0 ∉ response.bytes then some (.failedSend c)
  else none

/-- What a step of the worker of `c` ends the process by. -/
def endedBy : ThreadsTcpBroWorker.Action w UInt8 → Option Cause
  | .send answer =>
    match s.server.workers[c]?.map ThreadsTcpBroWorker.writer with
    | some (.send fd response total_send) =>
      ((s.signalled c fd).or (s.tracedBeyond c response answer)).or
        (s.loggedBeyond c response total_send answer)
    | _ => none
  | _ => none

/-- The process ends. -/
def endBy (cause : Cause) : BroProcess w × List (Event w) :=
  ({ s with alive := false }, [.ended cause])

/-- The numbers that some events close. -/
def closedNumbers (es : List (BroServer.Event w UInt8)) : List ℤ :=
  ThreadsTcpBroWorker.closes (es.map BroServer.Event.event)

/-- The engine is now `server`, through these events. A `close` of the number the
engine listens on ends the listening socket, whoever makes it. -/
def served (server : BroServer w UInt8) (es : List (BroServer.Event w UInt8)) :
    BroProcess w :=
  { s with
    server := server
    listening := s.listening && decide (s.mFd ∉ closedNumbers es) }

/-- One step. Where the listening socket is usable `accept` answers its number for no
client and does not fail with `EBADF`, and elsewhere it answers nothing else. -/
def step (type : ContextType) (a : Action w) : Option (BroProcess w × List (Event w)) :=
  if s.alive then
    match a with
    | .accept client_socket =>
      if s.listening = true ∧ client_socket ≠ s.mFd then
        (s.server.step type (.accept client_socket)).map fun next =>
          (s.served next.1 next.2, next.2.map .served)
      else none
    | .acceptNoThread client_socket =>
      if s.listening = true ∧ client_socket ≠ s.mFd then
        (s.server.step type (.accept client_socket)).map fun _ => s.endBy .noThread
      else none
    | .acceptFails error =>
      if error = .EBADF ↔ s.listening = false then
        (s.server.step type .acceptFails).map fun next =>
          (s.served next.1 next.2, .acceptFailed error :: next.2.map .served)
      else none
    | .worker c a =>
      (s.server.step type (.worker c a)).map fun next =>
        match s.endedBy c a with
        | some cause => s.endBy cause
        | none => (s.served next.1 next.2, next.2.map .served)
    | .threadFails c =>
      match s.server.workers[c]?.map ThreadsTcpBroWorker.doWork with
      | some .startRecv => some (s.endBy .noThread)
      | some .startSend => some (s.endBy .noThread)
      | _ => none
    | .peerBreaks c =>
      some ({ s with broken := Function.update s.broken c true }, [.peerBroke c])
    | .listenerEnds => some ({ s with listening := false }, [.listenerEnded])
  else none

end Steps

/-- A process as a machine. -/
def machine (w : ℕ) (type : ContextType) : Machine (BroProcess w) (Action w) (Event w) where
  step s := s.step type

/-! ## What a step does -/

section Inversion

variable {type : ContextType} {s s' : BroProcess w} {a : Action w} {es : List (Event w)}

/-- The steps of a process, one by one. -/
inductive Step (type : ContextType) (s : BroProcess w) :
    Action w → BroProcess w → List (Event w) → Prop where
  | accept {client_socket : ℤ} {server : BroServer w UInt8}
      {es : List (BroServer.Event w UInt8)} (hlisten : s.listening = true)
      (hother : client_socket ≠ s.mFd)
      (hs : s.server.step type (.accept client_socket) = some (server, es)) :
      Step type s (.accept client_socket) (s.served server es) (es.map .served)
  | acceptFails {error : AcceptError} {server : BroServer w UInt8}
      {es : List (BroServer.Event w UInt8)} (herror : error = .EBADF ↔ s.listening = false)
      (hs : s.server.step type .acceptFails = some (server, es)) :
      Step type s (.acceptFails error) (s.served server es)
        (.acceptFailed error :: es.map .served)
  | worker {c : ℕ} {a : ThreadsTcpBroWorker.Action w UInt8} {server : BroServer w UInt8}
      {es : List (BroServer.Event w UInt8)} (hlasts : s.endedBy c a = none)
      (hs : s.server.step type (.worker c a) = some (server, es)) :
      Step type s (.worker c a) (s.served server es) (es.map .served)
  | ends {c : ℕ} {a : ThreadsTcpBroWorker.Action w UInt8} {cause : Cause}
      (hends : s.endedBy c a = some cause) :
      Step type s (.worker c a) { s with alive := false } [.ended cause]
  | noThread {a : Action w} (hthread : (∃ n, a = .acceptNoThread n) ∨ ∃ c, a = .threadFails c) :
      Step type s a { s with alive := false } [.ended .noThread]
  | peerBreaks (c : ℕ) :
      Step type s (.peerBreaks c) { s with broken := Function.update s.broken c true }
        [.peerBroke c]
  | listenerEnds : Step type s .listenerEnds { s with listening := false } [.listenerEnded]

/-- **Every step is one of the list**, and is taken by a process that has not
ended. -/
theorem Step.of_step (h : s.step type a = some (s', es)) :
    s.alive = true ∧ Step type s a s' es := by
  unfold step at h
  split at h
  case isFalse => cases h
  case isTrue halive =>
    refine ⟨halive, ?_⟩
    cases a with simp only at h
    | accept client_socket =>
      split at h
      case isFalse => cases h
      case isTrue hlisten =>
        obtain ⟨next, hs, heq⟩ := Option.map_eq_some_iff.mp h
        cases heq
        exact .accept hlisten.1 hlisten.2 hs
    | acceptNoThread client_socket =>
      split at h
      case isFalse => cases h
      case isTrue =>
        obtain ⟨next, -, heq⟩ := Option.map_eq_some_iff.mp h
        cases heq
        exact .noThread (.inl ⟨_, rfl⟩)
    | acceptFails error =>
      split at h
      case isFalse => cases h
      case isTrue herror =>
        obtain ⟨next, hs, heq⟩ := Option.map_eq_some_iff.mp h
        cases heq
        exact .acceptFails herror hs
    | worker c a =>
      obtain ⟨next, hs, heq⟩ := Option.map_eq_some_iff.mp h
      split at heq
      case h_1 cause hends => cases heq; exact .ends hends
      case h_2 hlasts => cases heq; exact .worker hlasts hs
    | threadFails c =>
      split at h
      case h_1 => cases h; exact .noThread (.inr ⟨_, rfl⟩)
      case h_2 => cases h; exact .noThread (.inr ⟨_, rfl⟩)
      case h_3 => cases h
    | peerBreaks c => cases h; exact .peerBreaks c
    | listenerEnds => cases h; exact .listenerEnds

end Inversion

end BroProcess
