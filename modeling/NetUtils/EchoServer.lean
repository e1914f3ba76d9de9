import NetUtils.HandleStep
import NetUtils.Pool
import NetUtils.TcpServer

/-!
# An echo server and the clients it serves

A `TcpServer` with the handlers its `run` has made: every client accepted is
given to `handleClient` on a detached thread of its own, which makes a handler
for it and calls its `doWork`. The server and the handlers are the machines of
`NetUtils.TcpServer` and `NetUtils.ThreadsClientHandle`. What they share is the
process's table of descriptors: a `close` of a handler closes whatever its number
stands for, a listening socket too, and a `recv` or `send` on a number that
stands for nothing fails with `EBADF`.

Beside the table stands who has each client's descriptor (`sockets`): the thread
in `run()` that has accepted it, until it has made its handler, and the handler
from then on. The IPv4 server calls `setsockopt` twice in between, and leaves
`run()` without closing the descriptor where one of the calls fails; the
descriptor is that thread's for ever.
-/

variable {w : ℕ}

/-- The class of the handlers a server makes. -/
def TcpServerType.handleType : TcpServerType → HandleType
  | IPV4ThreadsTcpServer => .IPV4ThreadsClientHandle
  | IPV6ThreadsTcpServer => .IPV6ThreadsClientHandle

/-- The descriptor an event is about. -/
def ThreadsClientHandle.Event.fd : ThreadsClientHandle.Event w → Option ℤ
  | .recv fd _ _ => some fd
  | .push _ => none
  | .send fd _ _ => some fd
  | .close fd => some fd

/-- Who has the descriptor of an accepted client. -/
inductive Holder where
  /-- The `i`-th thread in `run()`. -/
  | run (i : ℕ)
  /-- The handler of a connection. -/
  | handle (c : ℕ)
  deriving DecidableEq, Repr

/-- **A server serving its clients.** -/
structure EchoServer (w : ℕ) where
  /-- The server. -/
  server : TcpServer
  /-- The handlers, in the order in which they were made. -/
  handles : List (ThreadsClientHandle w)
  /-- Who has the client's descriptor that a number stands for. -/
  sockets : ℤ → Option Holder

namespace EchoServer

/-- The server its constructor builds, with no client. -/
def init (type : TcpServerType) (ip : String) (port : BitVec 16)
    (table : ℤ → Option Descriptor) : EchoServer w where
  server := .init type ip port table
  handles := []
  sockets := fun _ => none

/-- What can be observed. An event of a handler comes with who has the socket
it acts on. -/
inductive Event (w : ℕ) where
  /-- An event of the server. -/
  | server (event : TcpServer.Event)
  /-- An event of the handler of a connection. -/
  | handle (connection : ℕ) (socket : Option Holder) (event : ThreadsClientHandle.Event w)

/-- The steps: those of the server and of the rest of the process, and those of
the handlers. -/
inductive Action where
  /-- A step of the server, or of the rest of the process. -/
  | server (a : TcpServer.Action)
  /-- A step of the handler of a connection. -/
  | handle (c : ℕ) (a : ThreadsClientHandle.Action)
  deriving DecidableEq

variable (syn : AddressSyntax) (s : EchoServer w)

/-- The number `fd` is now in the hands of `holder`. -/
@[simps] def setSocket (fd : ℤ) (holder : Option Holder) : EchoServer w :=
  { s with sockets := Function.update s.sockets fd holder }

/-- `handleClient(context)`, for a context with this descriptor. -/
def handleClient (client_socket : ℤ) : EchoServer w :=
  { s.setSocket client_socket (some (.handle s.handles.length)) with
    handles := s.handles ++ [.init s.server.type.handleType client_socket] }

/-- Who has the clients' descriptors after a step of the server. The IPv4
server's `run` makes the handler behind its second `setsockopt`, the IPv6
server's behind `accept`. -/
def clientsAfter : TcpServer.Action → EchoServer w
  | .stop => s.setSocket s.server.mFd none
  | .runAccept i (some client_socket) =>
    match s.server.type with
    | .IPV4ThreadsTcpServer => s.setSocket client_socket (some (.run i))
    | .IPV6ThreadsTcpServer => s.handleClient client_socket
  | .runSetsockopt i true =>
    match s.server.runs[i]? with
    | some (.setSndTimeo client_socket) => s.handleClient client_socket
    | _ => s
  | _ => s

/-- The rest of the process does not close a client's descriptor. -/
def NotOurs : TcpServer.Action → Prop
  | .otherCloses fd => s.sockets fd = none
  | _ => True

instance : DecidablePred s.NotOurs
  | .otherCloses fd => inferInstanceAs (Decidable (s.sockets fd = none))
  | .start | .stop | .go | .socket _ | .setsockopt _ | .bind _ | .listen _ | .runGo _
  | .runAccept _ _ | .runSetsockopt _ _ | .otherOpens _ _ _ => isTrue trivial

/-- A step of the server. -/
def stepServer (a : TcpServer.Action) : Option (EchoServer w × List (Event w)) :=
  if s.NotOurs a then
    (s.server.step syn a).map fun next =>
      ({ s.clientsAfter a with server := next.1 }, next.2.map .server)
  else none

/-- The kernel's answer to a call of a handler is one it can give: on a number
that stands for nothing the call fails with `EBADF`. -/
def Answers (table : ℤ → Option Descriptor) (handle : ThreadsClientHandle w) :
    ThreadsClientHandle.Action → Prop
  | .recv answer _ => ∀ fd ∈ handle.reader.fd, table fd = none → answer.Allowed INVALID_FD
  | .send answer => ∀ fd ∈ handle.writer.fd, table fd = none → answer = .error .EBADF
  | _ => True

instance (table : ℤ → Option Descriptor) (handle : ThreadsClientHandle w) :
    DecidablePred (Answers table handle)
  | .recv answer _ => inferInstanceAs (Decidable
      (∀ fd ∈ handle.reader.fd, table fd = none → answer.Allowed INVALID_FD))
  | .send answer => inferInstanceAs (Decidable
      (∀ fd ∈ handle.writer.fd, table fd = none → answer = .error .EBADF))
  | .doWork | .reader | .writer | .wakeWriter => isTrue trivial

/-- The kernel's side of an event of a handler. A `close` frees its number,
whoever has it. -/
def afterEvent : ThreadsClientHandle.Event w → EchoServer w
  | .close fd => { s.setSocket fd none with server := s.server.closed fd }
  | _ => s

/-- A step of the handler of a connection. -/
def stepHandle (c : ℕ) (a : ThreadsClientHandle.Action) :
    Option (EchoServer w × List (Event w)) :=
  match s.handles[c]? with
  | none => none
  | some handle =>
    if Answers s.server.table handle a then
      (handle.step a).map fun next =>
        ({ next.2.foldl afterEvent s with handles := s.handles.set c next.1 },
          next.2.map fun e => .handle c (e.fd.bind s.sockets) e)
    else none

/-- **One step of the process.** -/
def step : Action → Option (EchoServer w × List (Event w))
  | .server a => s.stepServer syn a
  | .handle c a => s.stepHandle c a

/-- An echo server as a machine. -/
def machine (w : ℕ) (syn : AddressSyntax) : Machine (EchoServer w) Action (Event w) where
  step := step syn

/-! ## What a step can do -/

/-- **The steps of the process, one by one.** -/
inductive Step (s : EchoServer w) : Action → EchoServer w → List (Event w) → Prop where
  | server {a : TcpServer.Action} {server' : TcpServer} {es : List TcpServer.Event}
      (hours : s.NotOurs a) (hstep : s.server.step syn a = some (server', es)) :
      Step s (.server a) { s.clientsAfter a with server := server' } (es.map .server)
  | handle {c : ℕ} {a : ThreadsClientHandle.Action} {handle handle' : ThreadsClientHandle w}
      {es : List (ThreadsClientHandle.Event w)} (hc : s.handles[c]? = some handle)
      (hanswers : Answers s.server.table handle a) (hstep : handle.step a = some (handle', es)) :
      Step s (.handle c a) { es.foldl afterEvent s with handles := s.handles.set c handle' }
        (es.map fun e => .handle c (e.fd.bind s.sockets) e)

variable {syn s} {s' : EchoServer w} {a : Action} {es : List (Event w)}

/-- **Every step is one of the two.** -/
theorem Step.of_step (h : s.step syn a = some (s', es)) : Step syn s a s' es := by
  cases a with
  | server a =>
    simp only [step, stepServer] at h
    split at h
    case isTrue hours =>
      obtain ⟨⟨server', es'⟩, hstep, heq⟩ := Option.map_eq_some_iff.mp h
      cases heq
      exact .server hours hstep
    case isFalse => cases h
  | handle c a =>
    simp only [step, stepHandle] at h
    split at h
    case h_1 => cases h
    case h_2 handle hc =>
      split at h
      case isTrue hanswers =>
        obtain ⟨⟨handle', es'⟩, hstep, heq⟩ := Option.map_eq_some_iff.mp h
        cases heq
        exact .handle hc hanswers hstep
      case isFalse => cases h

end EchoServer
