import NetUtils.EchoSockets
import NetUtils.IPV4Echo
import NetUtils.Pipes

/-!
# The echo server is an echo service

What an echo service is says `NetUtils.Pipes`: a pipe for each client, and what
a client has sent comes out of its own pipe in the order in which it was sent.
The process is seen as one by its `recv` and `send` calls, and these by the
sockets they act on: by whom the kernel takes bytes from and gives them to, and
not by the handler that makes the call.

That both are the same is `clients_isolated`, which holds of both servers: a call
of a handler acts on its own client's socket, or on none and moves nothing.
Together with what an IPv4 handler does with its client (`NetUtils.IPV4Echo`) it
makes the IPv4 server, with any number of clients and in any interleaving of
their threads, a refinement of the pipes (`echo_refines_pipes`).
-/

open ThreadsClientHandle (NoSendFails)

variable {w : ℕ}

namespace EchoServer

/-- **A call of a handler acts on its own client's socket**, or on none and
moves nothing; and the handler knows which. -/
def Event.Own : Event w → Prop
  | .handle c socket (.recv _ onClient answer) =>
    socket = some (.handle c) ∧ onClient = true
      ∨ socket = none ∧ onClient = false ∧ answer.bytes = []
  | .handle c socket (.send _ onClient bytes) =>
    socket = some (.handle c) ∧ onClient = true ∨ socket = none ∧ onClient = false ∧ bytes = []
  | _ => True

/-- What an event is at the clients' ends: bytes taken from a client are put into
its pipe, and bytes accepted for one are taken out of it. -/
def Event.onSocket : Event w → List (Pipes.Event ℕ UInt8)
  | .handle _ (some (.handle d)) (.recv _ _ answer) => [.put d answer.bytes]
  | .handle _ (some (.handle d)) (.send _ _ bytes) => [.take d bytes]
  | _ => []

/-- No `send` of a handler fails on its client's connection. -/
def SendsSucceed (s : EchoServer w) : Action → Prop
  | .handle c a => ∀ handle ∈ s.handles[c]?, NoSendFails handle a
  | .server _ => True

/-- The condition on a step: no number is given away while it is held, and no
`send` fails on a client's connection. -/
def Echoing (s : EchoServer w) (a : Action) : Prop := s.FreshNumbers a ∧ s.SendsSucceed a

instance (s : EchoServer w) : DecidablePred s.SendsSucceed
  | .handle c a => inferInstanceAs (Decidable (∀ handle ∈ s.handles[c]?, NoSendFails handle a))
  | .server _ => isTrue trivial

instance : DecidableRel (Echoing : EchoServer w → Action → Prop) :=
  fun s a => inferInstanceAs (Decidable (s.FreshNumbers a ∧ s.SendsSucceed a))

section Service

variable {syn : AddressSyntax} {s s' : EchoServer w} {a : Action} {es es' : List (Event w)}
variable {type : TcpServerType} {ip : String} {port : BitVec 16}
variable {table : ℤ → Option Descriptor}

/-! ## Isolation -/

/-- A number a handler holds is its client's, and the connection is open, or it
stands for nothing. -/
theorem OwnsSockets.socket_cases (hi : OwnsSockets s) {c : ℕ} {handle : ThreadsClientHandle w}
    (hc : s.handles[c]? = some handle) {fd : ℤ} (hholds : handle.Holds fd) :
    s.sockets fd = some (.handle c) ∧ handle.onClient fd = true
      ∨ s.sockets fd = none ∧ handle.onClient fd = false ∧ s.server.table fd = none := by
  rcases hi.held c handle hc fd hholds with ⟨hopen, rfl⟩ | hnone
  · refine .inl ⟨hi.handle c handle hc hopen, ?_⟩
    simp [ThreadsClientHandle.onClient, hopen]
  · have hnobody : s.sockets fd = none := hi.nobody_of_free hnone
    refine .inr ⟨hnobody, Bool.eq_false_iff.mpr fun hclient => ?_, hnone⟩
    obtain ⟨hopen, heq⟩ := Bool.and_eq_true_iff.mp hclient
    have hmine := hi.handle c handle hc hopen
    rw [← of_decide_eq_true heq, hnobody] at hmine
    cases hmine

/-- Each call a step makes is on the client's own socket. -/
theorem OwnsSockets.own (hi : OwnsSockets s) (h : Step syn s a s' es') : ∀ e ∈ es', e.Own := by
  cases h with
  | server =>
    intro e he
    obtain ⟨_, _, rfl⟩ := List.mem_map.mp he
    trivial
  | @handle c a handle handle' es' hc hanswers hstep =>
    intro e he
    obtain ⟨e, hmem, rfl⟩ := List.mem_map.mp he
    have hstep' := ThreadsClientHandle.Step.of_step hstep
    cases hstep' with
    | @readRecv fd answer _ _ hpc =>
      obtain rfl := List.mem_singleton.mp hmem
      have hfd : handle.reader.fd = some fd := by rw [hpc]; rfl
      refine (hi.socket_cases hc (.inr (.inl hfd))).imp_right fun ⟨hsocket, hoff, hnone⟩ => ?_
      refine ⟨hsocket, hoff, ?_⟩
      cases answer with
      | failed e => rfl
      | got chunk => exact absurd rfl (hanswers fd hfd hnone).1
    | @writeSend fd msg total answer hpc =>
      obtain rfl := List.mem_singleton.mp hmem
      have hfd : handle.writer.fd = some fd := by rw [hpc]; rfl
      refine (hi.socket_cases hc (.inr (.inr hfd))).imp_right fun ⟨hsocket, hoff, hnone⟩ => ?_
      refine ⟨hsocket, hoff, ?_⟩
      rw [hanswers fd hfd hnone]
      exact Transfer.slice_zero ..
    | destroyOpen =>
      obtain rfl := List.mem_singleton.mp hmem
      trivial
    | readPush =>
      obtain rfl := List.mem_singleton.mp hmem
      trivial
    | readClose =>
      obtain rfl := List.mem_singleton.mp hmem
      trivial
    | writeClose =>
      obtain rfl := List.mem_singleton.mp hmem
      trivial
    | _ => cases hmem

theorem own_of_run (htable : table INVALID_FD = none)
    (h : (machine w syn).Run FreshNumbers (init type ip port table) es s) : ∀ e ∈ es, e.Own := by
  refine h.invariant (I := fun es _ => ∀ e ∈ es, e.Own) nofun ?_
  intro es s a s' es' hrun hi _ hs
  rw [List.forall_mem_append]
  exact ⟨hi, (serverRun_of_run htable hrun).2.own (Step.of_step hs)⟩

/-! ## What is received from a client, and accepted for it -/

/-- The events of one handler, event by event. -/
theorem eventsOf_singleton (c d : ℕ) (socket : Option Holder) (e : ThreadsClientHandle.Event w) :
    Pool.eventsOf Event.ofHandle c [.handle d socket e] = if d = c then [e] else [] := by
  by_cases hdc : d = c <;> simp [Pool.eventsOf, Event.ofHandle, hdc]

/-- What an event puts into a pipe and takes out of it is what the handler of the
connection receives and sends. -/
theorem given_taken_onSocket (c : ℕ) {e : Event w} (hown : e.Own) :
    Pipes.given c e.onSocket = ThreadsClientHandle.received (Pool.eventsOf Event.ofHandle c [e])
      ∧ Pipes.taken c e.onSocket
        = ThreadsClientHandle.accepted (Pool.eventsOf Event.ofHandle c [e]) := by
  cases e with
  | server event => exact ⟨rfl, rfl⟩
  | handle d socket e =>
    -- an event that is about nobody's bytes
    have hquiet (he : e.received = [] ∧ e.accepted = [])
        (hsocket : (Event.handle d socket e).onSocket = []) :
        Pipes.given c (Event.handle d socket e).onSocket
            = ThreadsClientHandle.received (if d = c then [e] else [])
          ∧ Pipes.taken c (Event.handle d socket e).onSocket
            = ThreadsClientHandle.accepted (if d = c then [e] else []) := by
      rw [hsocket]
      split <;> simp [he]
    rw [eventsOf_singleton]
    cases e with
    | recv fd onClient answer =>
      rcases hown with ⟨rfl, rfl⟩ | ⟨rfl, rfl, -⟩
      · by_cases hdc : d = c <;> simp [Event.onSocket, Pipes.Event.given, Pipes.Event.taken,
          ThreadsClientHandle.Event.received, ThreadsClientHandle.Event.accepted, hdc]
      · exact hquiet ⟨rfl, rfl⟩ rfl
    | send fd onClient bytes =>
      rcases hown with ⟨rfl, rfl⟩ | ⟨rfl, rfl, -⟩
      · by_cases hdc : d = c <;> simp [Event.onSocket, Pipes.Event.given, Pipes.Event.taken,
          ThreadsClientHandle.Event.received, ThreadsClientHandle.Event.accepted, hdc]
      · exact hquiet ⟨rfl, rfl⟩ rfl
    | push message => exact hquiet ⟨rfl, rfl⟩ (by rcases socket with _ | (_ | _) <;> rfl)
    | close fd => exact hquiet ⟨rfl, rfl⟩ (by rcases socket with _ | (_ | _) <;> rfl)

/-- The same of all that has happened. -/
theorem given_taken_of_own (c : ℕ) (hown : ∀ e ∈ es, e.Own) :
    Pipes.given c (es.flatMap Event.onSocket)
        = ThreadsClientHandle.received (Pool.eventsOf Event.ofHandle c es)
      ∧ Pipes.taken c (es.flatMap Event.onSocket)
        = ThreadsClientHandle.accepted (Pool.eventsOf Event.ofHandle c es) := by
  induction es with
  | nil => exact ⟨rfl, rfl⟩
  | cons e es ih =>
    obtain ⟨he, hes⟩ := List.forall_mem_cons.mp hown
    obtain ⟨hgiven, htaken⟩ := given_taken_onSocket c he
    obtain ⟨hgivens, htakens⟩ := ih hes
    rw [List.flatMap_cons, Pipes.given_append, Pipes.taken_append, hgiven, htaken, hgivens,
      htakens, ← ThreadsClientHandle.received_append, ← ThreadsClientHandle.accepted_append,
      ← Pool.eventsOf_append]
    exact ⟨rfl, rfl⟩

/-- **The clients are isolated from each other**, whatever the type of the
server. In every run in which no number is given away while a handler holds it,
the bytes taken from a client's connection are those its own handler has received,
and the bytes given to the client those its own handler has sent; what a handler
does on any other number moves nothing. -/
theorem clients_isolated (htable : table INVALID_FD = none)
    (h : (machine w syn).Run FreshNumbers (init type ip port table) es s) :
    (∀ e ∈ es, e.Own) ∧ ∀ c, Pipes.given c (es.flatMap Event.onSocket)
          = ThreadsClientHandle.received (Pool.eventsOf Event.ofHandle c es)
      ∧ Pipes.taken c (es.flatMap Event.onSocket)
          = ThreadsClientHandle.accepted (Pool.eventsOf Event.ofHandle c es) :=
  ⟨own_of_run htable h, fun c => given_taken_of_own c (own_of_run htable h)⟩

/-! ## The refinement -/

/-- An event is one at the clients' ends, or none. -/
theorem Event.onSocket_cases (e : Event w) : e.onSocket = [] ∨ ∃ p, e.onSocket = [p] := by
  cases e with
  | server => exact .inl rfl
  | handle c socket e =>
    rcases socket with _ | (_ | d)
    · exact .inl rfl
    · exact .inl rfl
    · cases e with
      | recv => exact .inr ⟨_, rfl⟩
      | send => exact .inr ⟨_, rfl⟩
      | _ => exact .inl rfl

/-- A step is one event at the clients' ends, or none. -/
theorem Step.onSocket_cases (h : Step syn s a s' es') :
    es'.flatMap Event.onSocket = [] ∨ ∃ p, es'.flatMap Event.onSocket = [p] := by
  cases h with
  | server => exact .inl (List.flatMap_eq_nil_iff.mpr fun e he => by
      obtain ⟨_, _, rfl⟩ := List.mem_map.mp he
      rfl)
  | handle _ _ hstep =>
    rcases (ThreadsClientHandle.Step.of_step hstep).events_cases with rfl | ⟨e, rfl⟩
    · exact .inl rfl
    · rw [List.map_singleton, List.flatMap_singleton]
      exact Event.onSocket_cases _

/-- What a client has been given is the beginning of what it has sent. -/
theorem taken_prefix_given (htable : table INVALID_FD = none)
    (h : (machine w syn).Run Echoing (init .IPV4ThreadsTcpServer ip port table) es s) (c : ℕ) :
    Pipes.taken c (es.flatMap Event.onSocket) <+: Pipes.given c (es.flatMap Event.onSocket) := by
  obtain ⟨hgiven, htaken⟩ :=
    given_taken_of_own c (own_of_run htable (h.mono fun _ _ hok => hok.1))
  have hmembers := membersRun_of_run NoSendFails h fun _ _ _ _ hok hc => hok.2 _ hc
  rw [hgiven, htaken]
  cases hc : s.handles[c]? with
  | none =>
    rw [hmembers.fresh c (List.getElem?_eq_none_iff.mp hc)]
    exact List.prefix_refl _
  | some handle =>
    obtain ⟨_, ⟨fd, rfl⟩, hrun⟩ := hmembers.run c handle hc
    exact (ThreadsClientHandle.echoes_of_run hrun).inOrder

/-- **The IPv4 echo server refines the pipes**, in every run in which no number
is given away while a handler holds it and no `send` fails on a client's
connection: what happens at the clients' ends, in any interleaving of any number
of them, is what happens at the ends of a pipe for each. What is in a client's
pipe is what its handler has received and not yet sent, as long as the connection
is open and the write thread has not begun to close. -/
theorem echo_refines_pipes (htable : table INVALID_FD = none)
    (h : (machine w syn).Run Echoing (init .IPV4ThreadsTcpServer ip port table) es s) :
    ∃ pipes, (Pipes.machine ℕ UInt8).Run Machine.always Pipes.empty
        (es.flatMap Event.onSocket) pipes
      ∧ ∀ (c : ℕ) (handle : ThreadsClientHandle w), s.handles[c]? = some handle →
        handle.isOpen = true → handle.writer.closing = false →
        pipes c = handle.outgoing ++ handle.reader.inHand.toList.flatten := by
  have hsimulates : ∃ pipes, (Pipes.machine ℕ UInt8).Run Machine.always Pipes.empty
      (es.flatMap Event.onSocket) pipes ∧ True := by
    refine h.simulate (R := fun _ _ _ => True) Event.onSocket trivial ?_
    intro es s a s' es' pipes hrun hpipes _ hok hs
    rcases (Step.of_step hs).onSocket_cases with hnone | ⟨p, hp⟩
    · exact ⟨pipes, hnone ▸ .start, trivial⟩
    · have hfifo (c : ℕ) := taken_prefix_given htable (hrun.snoc hok hs) c
      rw [List.flatMap_append, hp] at hfifo
      obtain ⟨pipes', hpipes'⟩ := Pipes.run_event hpipes p hfifo
      exact ⟨pipes', hp ▸ hpipes', trivial⟩
  obtain ⟨pipes, hpipes, -⟩ := hsimulates
  refine ⟨pipes, hpipes, fun c handle hc hopen hclosing => ?_⟩
  obtain ⟨hgiven, htaken⟩ :=
    given_taken_of_own c (own_of_run htable (h.mono fun _ _ hok => hok.1))
  obtain ⟨_, ⟨fd, rfl⟩, hrun⟩ := (membersRun_of_run NoSendFails h
    fun _ _ _ _ hok hc => hok.2 _ hc).run c handle hc
  have hcomplete := (ThreadsClientHandle.echoes_of_run hrun).complete hopen hclosing
  rw [← hgiven, ← htaken, Pipes.balance hpipes c, List.append_assoc] at hcomplete
  exact (List.append_cancel_left hcomplete).symm

end Service

/-! ## Two clients at once -/

open ITcpBrokerServerEngine (loopback)
open ThreadsClientHandle (untilSend)

/-- Two clients, on 5 and 6, have sent three bytes each. The second gets two of
its own back, and then the first all three of its own. -/
def twoClients : List Action :=
  startedOn3 ++ acceptOn 5 ++ acceptOn 6
    ++ ofHandle 0 untilSend ++ ofHandle 1 (untilSend ++ [.send (.count 2)])
    ++ ofHandle 0 [.send (.count 3)]

theorem clients_isolated_twoClients :
    ∃ es s, (machine 64 loopback).Run FreshNumbers
        (init .IPV4ThreadsTcpServer "127.0.0.1" 9001 (fun _ => none)) es s
      ∧ Pipes.taken 0 (es.flatMap Event.onSocket) = [97, 98, 99]
      ∧ ThreadsClientHandle.accepted (Pool.eventsOf Event.ofHandle 0 es) = [97, 98, 99] := by
  obtain ⟨es, s, hrun, htaken⟩ : ∃ es s, (machine 64 loopback).Run FreshNumbers
        (init .IPV4ThreadsTcpServer "127.0.0.1" 9001 (fun _ => none)) es s
      ∧ Pipes.taken 0 (es.flatMap Event.onSocket) = [97, 98, 99] :=
    Machine.Run.exists_of_exec twoClients (by decide +kernel)
  exact ⟨es, s, hrun, htaken, ((clients_isolated rfl hrun).2 0).2.symm.trans htaken⟩

theorem echo_refines_pipes_twoClients :
    ∃ es s pipes, (machine 64 loopback).Run Echoing
        (init .IPV4ThreadsTcpServer "127.0.0.1" 9001 (fun _ => none)) es s
      ∧ Pipes.taken 1 (es.flatMap Event.onSocket) = [97, 98]
      ∧ (Pipes.machine ℕ UInt8).Run Machine.always Pipes.empty
        (es.flatMap Event.onSocket) pipes := by
  obtain ⟨es, s, hrun, htaken⟩ : ∃ es s, (machine 64 loopback).Run Echoing
        (init .IPV4ThreadsTcpServer "127.0.0.1" 9001 (fun _ => none)) es s
      ∧ Pipes.taken 1 (es.flatMap Event.onSocket) = [97, 98] :=
    Machine.Run.exists_of_exec twoClients (by decide +kernel)
  obtain ⟨pipes, hpipes, -⟩ := echo_refines_pipes rfl hrun
  exact ⟨es, s, pipes, hrun, htaken, hpipes⟩

end EchoServer
