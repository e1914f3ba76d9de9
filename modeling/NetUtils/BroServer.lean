import NetUtils.Pool
import NetUtils.WorkerClose
import NetUtils.WorkerIo

/-!
# `ThreadsTcpBroServer` and `ThreadsTcp6BroServer`

An engine in its `run` loop: it accepts clients, and
`ThreadsTcpBroProcessor::process` gives each a `ThreadsTcpBroWorker` of its
own on a thread of its own. The two engines differ in the type of the context
they make. A connection is known by the order in which it was accepted; the
kernel's part is the table of descriptor numbers, which says whose socket a
number stands for. `accept` may answer any number that stands for none, and
`close` frees its number.

The threads of a worker know their client by a number only, so connections
are kept apart exactly as long as a number does not change hands while a
thread holds it. The source closes `mClientFd` under `mMutex` and loads it
without, so nothing in it prevents that: `connections_isolated` is what holds
as long as `accept` never answers a number that a thread still holds.
-/

open Transfer

variable {w : ℕ} {β : Type}

/-- **An engine serving its clients.** -/
structure BroServer (w : ℕ) (β : Type) where
  /-- `run` is in its loop. -/
  running : Bool
  /-- The connection whose socket each descriptor number stands for. -/
  sockets : ℤ → Option ℕ
  /-- The workers, in the order in which their clients were accepted. -/
  workers : List (ThreadsTcpBroWorker w β)
  /-- The contexts pushed by `run`, as connections. -/
  mSocketContextQueue : List ℕ

namespace BroServer

/-- The context `run` makes for a client. -/
def accepted (type : ContextType) (client_socket : ℤ) : SocketContext w β where
  type := type
  mClientFd := client_socket
  mRequest := []
  mResponse := ⟨[], Nat.two_pow_pos w⟩

/-- `ThreadsTcpBroProcessor::process`: a worker for the context, on a thread
of its own. It always answers `true`. -/
def process (context : SocketContext w β) : ThreadsTcpBroWorker w β :=
  ThreadsTcpBroWorker.init context

/-- The engine as `run` is entered. -/
def init : BroServer w β where
  running := true
  sockets := fun _ => none
  workers := []
  mSocketContextQueue := []

/-- What can be observed: an event of a connection's worker, and the
connection whose socket its descriptor number stands for at that moment. -/
structure Event (w : ℕ) (β : Type) where
  /-- The connection the worker serves. -/
  connection : ℕ
  /-- Whose socket the call is made on. -/
  socket : Option ℕ
  /-- The event. -/
  event : ThreadsTcpBroWorker.Event w β

/-- The steps of the accept loop and of the workers. -/
inductive Action (w : ℕ) (β : Type) where
  /-- `accept` answers a descriptor; the client is given a worker. -/
  | accept (client_socket : ℤ)
  /-- `accept` fails, and `run` returns `false`. -/
  | acceptFails
  /-- A step of the worker of a connection. -/
  | worker (c : ℕ) (a : ThreadsTcpBroWorker.Action w β)

/-- An event is one the kernel can answer: on a number that stands for no
socket, what it answers on `INVALID_FD`. -/
def Answers (sockets : ℤ → Option ℕ) : ThreadsTcpBroWorker.Event w β → Prop
  | .recv fd answer => sockets fd = none → answer.Allowed INVALID_FD
  | .send fd call => sockets fd = none → call.result.Allowed INVALID_FD call.length
  | _ => True

instance (sockets : ℤ → Option ℕ) :
    (e : ThreadsTcpBroWorker.Event w β) → Decidable (Answers sockets e)
  | .recv fd answer => inferInstanceAs (Decidable (sockets fd = none → answer.Allowed INVALID_FD))
  | .send fd call =>
    inferInstanceAs (Decidable (sockets fd = none → call.result.Allowed INVALID_FD call.length))
  | .sendBytes _ _ => isTrue trivial
  | .close _ => isTrue trivial
  | .called _ _ => isTrue trivial
  | .copied _ => isTrue trivial

/-- The table after the `close` calls of some events. -/
def afterCloses (sockets : ℤ → Option ℕ) (es : List (ThreadsTcpBroWorker.Event w β)) :
    ℤ → Option ℕ :=
  (ThreadsTcpBroWorker.closes es).foldl (fun table fd => Function.update table fd none) sockets

/-- One step of the accept loop or of a worker. -/
def step (type : ContextType) (s : BroServer w β) :
    Action w β → Option (BroServer w β × List (Event w β))
  | .accept client_socket =>
    if s.running = true ∧ 0 ≤ client_socket ∧ s.sockets client_socket = none then
      some ({ s with
        sockets := Function.update s.sockets client_socket (some s.workers.length)
        workers := s.workers ++ [process (accepted type client_socket)]
        mSocketContextQueue := s.mSocketContextQueue ++ [s.workers.length] }, [])
    else none
  | .acceptFails => if s.running then some ({ s with running := false }, []) else none
  | .worker c a =>
    match s.workers[c]? with
    | none => none
    | some worker =>
      match worker.step a with
      | none => none
      | some (worker', es) =>
        if ∀ e ∈ es, Answers s.sockets e then
          some ({ s with
            sockets := afterCloses s.sockets es
            workers := s.workers.set c worker' },
            es.map (fun e => ⟨c, e.fd.bind s.sockets, e⟩))
        else none

/-- An engine as a machine. -/
def machine (w : ℕ) (β : Type) (type : ContextType) :
    Machine (BroServer w β) (Action w β) (Event w β) where
  step := step type

end BroServer

/-- `ThreadsTcpBroServer`, which makes contexts of type `IPV4SocketContext`. -/
def ThreadsTcpBroServer.machine (w : ℕ) (β : Type) :=
  BroServer.machine w β .IPV4SocketContext

/-- `ThreadsTcp6BroServer`, which makes contexts of type `IPV6SocketContext`. -/
def ThreadsTcp6BroServer.machine (w : ℕ) (β : Type) :=
  BroServer.machine w β .IPV6SocketContext

namespace BroServer

/-! ## What a step does -/

section Steps

variable {type : ContextType} {s s' : BroServer w β} {a : Action w β} {es : List (Event w β)}

/-- The steps of an engine, one by one. -/
inductive Step (type : ContextType) (s : BroServer w β) :
    Action w β → BroServer w β → List (Event w β) → Prop where
  | accept {client_socket : ℤ} (hrun : s.running = true) (hfd : 0 ≤ client_socket)
      (hfree : s.sockets client_socket = none) :
      Step type s (.accept client_socket)
        { s with
          sockets := Function.update s.sockets client_socket (some s.workers.length)
          workers := s.workers ++ [process (accepted type client_socket)]
          mSocketContextQueue := s.mSocketContextQueue ++ [s.workers.length] } []
  | acceptFails (hrun : s.running = true) :
      Step type s .acceptFails { s with running := false } []
  | worker {c : ℕ} {a : ThreadsTcpBroWorker.Action w β} {worker worker' : ThreadsTcpBroWorker w β}
      {es : List (ThreadsTcpBroWorker.Event w β)} (hc : s.workers[c]? = some worker)
      (hstep : worker.step a = some (worker', es)) (hanswers : ∀ e ∈ es, Answers s.sockets e) :
      Step type s (.worker c a)
        { s with
          sockets := afterCloses s.sockets es
          workers := s.workers.set c worker' }
        (es.map (fun e => ⟨c, e.fd.bind s.sockets, e⟩))

/-- **Every step is one of the list.** -/
theorem Step.of_step (h : s.step type a = some (s', es)) : Step type s a s' es := by
  cases a with
  | accept client_socket =>
    simp only [step] at h
    split at h
    case isTrue hif => cases h; exact .accept hif.1 hif.2.1 hif.2.2
    case isFalse => cases h
  | acceptFails =>
    simp only [step] at h
    split at h
    case isTrue hif => cases h; exact .acceptFails hif
    case isFalse => cases h
  | worker c a =>
    simp only [step] at h
    split at h
    case h_1 => cases h
    case h_2 worker hc =>
      split at h
      case h_1 => cases h
      case h_2 worker' es' hstep =>
        split at h
        case isTrue hanswers => cases h; exact .worker hc hstep hanswers
        case isFalse => cases h

/-! ## Each worker runs its own machine -/

/-- Of which worker an event is, and what it is there. -/
def Event.ofWorker (e : Event w β) : Option (ℕ × ThreadsTcpBroWorker.Event w β) :=
  some (e.connection, e.event)

/-- The events of one connection. -/
def eventsOf (c : ℕ) (es : List (Event w β)) : List (ThreadsTcpBroWorker.Event w β) :=
  Pool.eventsOf Event.ofWorker c es

theorem eventsOf_append (c : ℕ) (es es' : List (Event w β)) :
    eventsOf c (es ++ es') = eventsOf c es ++ eventsOf c es' := Pool.eventsOf_append _ _ _ _

/-- A worker as `process` makes it for an accepted client. -/
def Processed (type : ContextType) (worker : ThreadsTcpBroWorker w β) : Prop :=
  ∃ client_socket : ℤ, 0 ≤ client_socket ∧ worker = process (accepted type client_socket)

/-- **The workers of an engine each run on their own**, and what a condition on the
engine's steps says of the steps of one worker is a condition on its run. -/
theorem guardedWorkers_of_run {ok : BroServer w β → Action w β → Prop}
    {allowed : ThreadsTcpBroWorker w β → ThreadsTcpBroWorker.Action w β → Prop}
    (hok : ∀ s c a worker, ok s (.worker c a) → s.workers[c]? = some worker → allowed worker a)
    (h : (machine w β type).Run ok init es s) :
    Pool.MembersRun (ThreadsTcpBroWorker.machine w β) allowed (Processed type) Event.ofWorker es
      s.workers := by
  refine h.invariant (I := fun es s => Pool.MembersRun (ThreadsTcpBroWorker.machine w β) allowed
    (Processed type) Event.ofWorker es s.workers) .nil ?_
  intro es s a s' es' _ hi hguard hs
  cases Step.of_step hs with
  | accept _ hfd =>
    rw [List.append_nil]
    exact hi.join ⟨_, hfd, rfl⟩
  | acceptFails =>
    rw [List.append_nil]
    exact hi
  | worker hc hstep => exact hi.move (fun _ => rfl) hc (hok _ _ _ _ hguard hc) hstep

/-- So what every run of a worker satisfies, each of them does. -/
theorem workersRun_of_run {ok : BroServer w β → Action w β → Prop}
    (h : (machine w β type).Run ok init es s) :
    Pool.MembersRun (ThreadsTcpBroWorker.machine w β) Machine.always (Processed type)
      Event.ofWorker es s.workers :=
  guardedWorkers_of_run (fun _ _ _ _ _ _ => trivial) h

end Steps

end BroServer
