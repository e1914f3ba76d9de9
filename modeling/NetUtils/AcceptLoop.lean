import NetUtils.BroProcess
import NetUtils.BroService
import NetUtils.WorkerCompletes

/-!
# What ends the service of an engine

`ThreadsTcpBroServer::run` and `ThreadsTcp6BroServer::run` leave their loop at the
first `accept` that fails, whatever the error. Some errors are about the listening
socket; others are about one client, such as the `ECONNABORTED` of a peer that has
gone before it was accepted, and leave the socket as usable as it was.

Otherwise the clients are safe from each other, and `service_goes_on` says how far.
The loop is left by a failed `accept` only. No worker closes the listening socket,
neither by the number it knows nor by one it still holds. The process is ended by one
of four causes, each with its occasion. And while the process runs, a worker of
`ThreadsTcpBroServer` that serves its client goes on to do so, whatever the other
clients, their workers and the loop do in between: it can always be brought to rest
by its own steps, and has then sent all that was due.
-/

open Transfer IOHelper

variable {w : ℕ} {β : Type}

namespace ThreadsTcpBroWorker

section Steps

variable {s s' : ThreadsTcpBroWorker w β} {a : Action w β} {es : List (Event w β)}
variable {context : SocketContext w β} {answer : IoResult}

/-- A step closes no number but the client's, and leaves it or stores
`INVALID_FD`. -/
theorem Step.closes_own (h : Step s a s' es) :
    (∀ fd ∈ closes es, fd = s.mContext.mClientFd)
      ∧ (s'.mContext.mClientFd = s.mContext.mClientFd ∨ s'.mContext.mClientFd = INVALID_FD) := by
  rcases h.close_cases with ⟨hkeeps, hcloses⟩ | ⟨hstores, hcloses⟩ | ⟨-, -, hkeeps, hcloses⟩
  · exact ⟨by simp [hcloses], .inl hkeeps⟩
  · exact ⟨by simp [hcloses], .inr hstores⟩
  · exact ⟨by simp [hcloses], .inl hkeeps⟩

/-- What is being sent has been passed to `send_bytes`. -/
theorem handed_of_run {ok : ThreadsTcpBroWorker w β → Action w β → Prop}
    (h : (machine w β).Run ok (init context) es s) {response : Buffer w β}
    (hresponse : s.writer.response = some response) :
    ∃ fd, Event.sendBytes fd response ∈ es := by
  revert response
  refine h.invariant (I := fun es s => ∀ {response : Buffer w β},
    s.writer.response = some response → ∃ fd, Event.sendBytes fd response ∈ es)
    (fun hresponse => by cases hresponse) ?_
  intro es s a s' es' hrun hi _ hs response hresponse
  have hearlier (h : s.writer.response = some response) :
      ∃ fd, Event.sendBytes fd response ∈ es ++ es' :=
    (hi h).imp fun _ => List.mem_append_left _
  cases (Step.of_step hs).onWire (doWorkAgrees_of_run hrun) with
  | quiet _ hsame => exact hearlier (hsame ▸ hresponse)
  | call _ hpc =>
    rw [hpc] at hresponse
    obtain rfl := response_inSendBytes hresponse
    exact ⟨_, List.mem_append_right _ (List.mem_singleton_self _)⟩
  | send hpc _ hpc' =>
    rw [hpc'] at hresponse
    obtain rfl := response_inSendBytes hresponse
    exact hearlier (by rw [hpc]; rfl)

/-- Where a `send` can take some bytes, it can take one. -/
theorem send_one {fd : ℤ} {response : Buffer w β} {total_send : BitVec w}
    (hpc : s.writer = .send fd response total_send)
    (hanswer : answer.Allowed fd (response.size - total_send).toNat)
    (hsome : 0 < answer.transferred) :
    s.step (.send (.count 1)) = some ({ s with
      writer := inSendBytes fd response (sendBody response.size total_send (.count 1)) },
      [.send fd ⟨total_send.toNat, (response.size - total_send).toNat, .count 1⟩]) := by
  have hone : (IoResult.count 1).Allowed fd (response.size - total_send).toNat := by
    refine ⟨hsome.trans_le hanswer.1, fun hinvalid => ?_⟩
    rw [hanswer.2 hinvalid] at hsome
    cases hsome
  simp only [step, stepSend, hpc, if_pos hone]

end Steps

end ThreadsTcpBroWorker

namespace BroProcess

/-! ## Along a run -/

section Runs

variable {type : ContextType} {s s' : BroProcess w} {a : Action w} {es es' : List (Event w)}
variable {ok : BroProcess w → Action w → Prop} {mFd : ℤ} {traced debugged : Bool}

/-- The event, if it is one of the engine's. -/
def Event.ofServer : Event w → Option (BroServer.Event w UInt8)
  | .served event => some event
  | _ => none

/-- The events of the engine. -/
def serverEvents (es : List (Event w)) : List (BroServer.Event w UInt8) :=
  es.filterMap Event.ofServer

theorem serverEvents_append (es es' : List (Event w)) :
    serverEvents (es ++ es') = serverEvents es ++ serverEvents es' := List.filterMap_append

@[simp] theorem serverEvents_map (es : List (BroServer.Event w UInt8)) :
    serverEvents (es.map .served) = es := by
  rw [serverEvents, List.filterMap_map]
  exact List.filterMap_some

theorem mem_serverEvents {e : BroServer.Event w UInt8} :
    e ∈ serverEvents es ↔ .served e ∈ es := by
  refine List.mem_filterMap.trans ⟨?_, fun h => ⟨_, h, rfl⟩⟩
  rintro ⟨e', he', heq⟩
  cases e' with
  | served event => cases heq; exact he'
  | _ => cases heq

/-- **The engine in its process runs as an engine does**, so what every run of an
engine satisfies, it does. -/
theorem server_of_run (h : (machine w type).Run ok (init mFd traced debugged) es s) :
    (BroServer.machine w UInt8 type).Run Machine.always BroServer.init (serverEvents es)
      s.server := by
  refine h.invariant (I := fun es s => (BroServer.machine w UInt8 type).Run Machine.always
    BroServer.init (serverEvents es) s.server) .start ?_
  have hsnoc {es es' : List (BroServer.Event w UInt8)} {server server' : BroServer w UInt8}
      {a : BroServer.Action w UInt8} (h : (BroServer.machine w UInt8 type).Run Machine.always
        BroServer.init es server) (hs : server.step type a = some (server', es')) :
      (BroServer.machine w UInt8 type).Run Machine.always BroServer.init (es ++ es') server' :=
    h.snoc (a := a) trivial hs
  intro es s a s' es' _ hi _ hs
  rw [serverEvents_append]
  cases (Step.of_step hs).2 with
  | accept _ _ hserver => rw [serverEvents_map]; exact hsnoc hi hserver
  | acceptFails _ hserver =>
    have hevents (error : AcceptError) (es : List (BroServer.Event w UInt8)) :
        serverEvents (.acceptFailed error :: es.map .served) = es := serverEvents_map es
    rw [hevents]
    exact hsnoc hi hserver
  | worker _ hserver => rw [serverEvents_map]; exact hsnoc hi hserver
  | _ => rwa [show serverEvents [_] = [] from rfl, List.append_nil]

/-! ## The listening socket is left alone -/

/-- No worker knows its client by the number the engine listens on. -/
structure Apart (mFd : ℤ) (s : BroProcess w) : Prop where
  number : s.mFd = mFd
  client : ∀ (c : ℕ) (worker : ThreadsTcpBroWorker w UInt8),
    s.server.workers[c]? = some worker → worker.mContext.mClientFd ≠ mFd

/-- A step of the engine does not close the number it listens on. -/
theorem Apart.not_mem_closedNumbers (hi : Apart mFd s) {a : BroServer.Action w UInt8}
    {server : BroServer w UInt8} {es : List (BroServer.Event w UInt8)}
    (h : s.server.step type a = some (server, es)) : s.mFd ∉ closedNumbers es := by
  rw [hi.number]
  cases BroServer.Step.of_step h with
  | accept => exact List.not_mem_nil
  | acceptFails => exact List.not_mem_nil
  | @worker c _ worker _ es hc hstep =>
    have hsame : closedNumbers (es.map fun e =>
        (⟨c, e.fd.bind s.server.sockets, e⟩ : BroServer.Event w UInt8))
          = ThreadsTcpBroWorker.closes es := by
      rw [closedNumbers, List.map_map]
      exact congrArg _ es.map_id
    rw [hsame]
    intro hmem
    exact hi.client c worker hc
      ((ThreadsTcpBroWorker.Step.of_step hstep).closes_own.1 mFd hmem).symm

theorem Apart.listening_served (hi : Apart mFd s) {a : BroServer.Action w UInt8}
    {server : BroServer w UInt8} {es : List (BroServer.Event w UInt8)}
    (h : s.server.step type a = some (server, es)) :
    (s.served server es).listening = s.listening := by
  rw [served, decide_eq_true (hi.not_mem_closedNumbers h), Bool.and_true]

/-- **The flags of a process are what its events say.** -/
structure Told (traced debugged : Bool) (es : List (Event w)) (s : BroProcess w) : Prop where
  running : s.server.running = false ↔ ∃ error, .acceptFailed error ∈ es
  listening : s.listening = false ↔ .listenerEnded ∈ es
  alive : s.alive = false ↔ ∃ cause, .ended cause ∈ es
  broken : ∀ c, s.broken c = true ↔ .peerBroke c ∈ es
  traced : s.traced = traced
  debugged : s.debugged = debugged

/-- A step of the engine within its loop. -/
theorem Told.served (hi : Told traced debugged es s) (hapart : Apart mFd s)
    {a : BroServer.Action w UInt8} {server : BroServer w UInt8}
    {served : List (BroServer.Event w UInt8)}
    (h : s.server.step type a = some (server, served))
    (hrunning : server.running = s.server.running) :
    Told traced debugged (es ++ served.map .served) (s.served server served) where
  running := by simpa [BroProcess.served, hrunning] using hi.running
  listening := by rw [hapart.listening_served h]; simpa using hi.listening
  alive := by simpa [BroProcess.served] using hi.alive
  broken := fun c => by simpa [BroProcess.served] using hi.broken c
  traced := hi.traced
  debugged := hi.debugged

/-- The worker of `c` has passed this response to `send_bytes`. -/
def Sends (es : List (Event w)) (c : ℕ) (response : Buffer w UInt8) : Prop :=
  ∃ socket fd, Event.served ⟨c, socket, .sendBytes fd response⟩ ∈ es

/-- A response that is being sent has been passed to `send_bytes`. -/
theorem sends_of_run (h : (machine w type).Run ok (init mFd traced debugged) es s) {c : ℕ}
    {worker : ThreadsTcpBroWorker w UInt8} (hc : s.server.workers[c]? = some worker)
    {response : Buffer w UInt8} (hresponse : worker.writer.response = some response) :
    Sends es c response := by
  obtain ⟨_, ⟨_, _, rfl⟩, hworker⟩ := (BroServer.workersRun_of_run (server_of_run h)).run c _ hc
  obtain ⟨fd, hmem⟩ := ThreadsTcpBroWorker.handed_of_run hworker hresponse
  obtain ⟨⟨d, socket, e⟩, he, hmine⟩ := List.mem_filterMap.mp hmem
  obtain ⟨rfl, rfl⟩ : d = c ∧ e = .sendBytes fd response := by
    simpa [BroServer.Event.ofWorker] using hmine
  exact ⟨socket, fd, mem_serverEvents.mp he⟩

open ThreadsTcpBroWorker (Undisturbed sent)

/-- The condition on a step: the worker of `d` is undisturbed, and its connection is
not broken. All others do as they like. -/
def Spares (d : ℕ) (_ : BroProcess w) : Action w → Prop
  | .worker c (.recv _) => c ≠ d
  | .worker c (.send answer) => c = d → 0 < answer.transferred
  | .worker c .wakeReader => c ≠ d
  | .worker c .wakeWriter => c ≠ d
  | .worker c (.invoke _ _ _) => c ≠ d
  | .peerBreaks c => c ≠ d
  | _ => True

/-- The condition on a step: it is one of the worker of `d`, undisturbed, and the
process goes on. -/
def ServesOnly (d : ℕ) (s : BroProcess w) : Action w → Prop
  | .worker c a => c = d ∧ Spares d s (.worker c a) ∧ s.endedBy c a = none
  | _ => False

/-- The worker of `d` is at rest. -/
def RestsAt (d : ℕ) (s : BroProcess w) : Prop :=
  ∃ worker : ThreadsTcpBroWorker w UInt8, s.server.workers[d]? = some worker ∧ worker.AtRest

/-- What a step of the worker of `d` is allowed, it is allowed by itself. -/
theorem undisturbed_iff {d : ℕ} {worker : ThreadsTcpBroWorker w UInt8}
    {a : ThreadsTcpBroWorker.Action w UInt8} :
    Spares d s (.worker d a) ↔ Undisturbed worker a := by
  cases a <;> simp [Spares, Undisturbed]

section Serving

variable {d : ℕ} {worker worker' : ThreadsTcpBroWorker w UInt8}
variable {a : ThreadsTcpBroWorker.Action w UInt8}
variable {des : List (ThreadsTcpBroWorker.Event w UInt8)}

/-- **The worker of `d` serves its client in a process that runs**, on a connection
that is not broken. -/
structure Serves (d : ℕ) (worker : ThreadsTcpBroWorker w UInt8) (s : BroProcess w) : Prop where
  alive : s.alive = true
  member : s.server.workers[d]? = some worker
  unbroken : s.broken d = false
  serving : worker.Serving
  reached : ∃ es, (ThreadsTcpBroServer.machine w UInt8).Run Machine.always BroServer.init es
    s.server

/-- The worker has run as a worker does. -/
theorem Serves.run (hi : Serves d worker s) :
    ∃ context es, context.type = .IPV4SocketContext
      ∧ (ThreadsTcpBroWorker.machine w UInt8).Run Machine.always
        (ThreadsTcpBroWorker.init context) es worker := by
  obtain ⟨_, hrun⟩ := hi.reached
  obtain ⟨_, ⟨_, _, rfl⟩, hworker⟩ := (BroServer.workersRun_of_run hrun).run d _ hi.member
  exact ⟨_, _, rfl, hworker⟩

/-- A descriptor passed to `send_bytes` stands for the client's socket. -/
theorem Serves.socket (hi : Serves d worker s) {fd : ℤ} (hfd : worker.writer.fd = some fd) :
    s.server.sockets fd = some d := by
  obtain ⟨_, hrun⟩ := hi.reached
  obtain ⟨-, -, hholds⟩ := BroServer.workers_of_run hrun hi.member
  rw [hholds hi.serving.mClientFd fd (.inr hfd)]
  exact (BroServer.accounts_of_run hrun).client d worker hi.member hi.serving.mClientFd

/-- A step of the worker that the kernel answers is one of the process. -/
theorem Serves.takes (hi : Serves d worker s) (hok : Undisturbed worker a)
    (hs : worker.step a = some (worker', des))
    (hanswers : ∀ e ∈ des, BroServer.Answers s.server.sockets e)
    (hlasts : s.endedBy d a = none) :
    ∃ b next, ServesOnly d s b ∧ s.step .IPV4SocketContext b = some next := by
  refine ⟨.worker d a, ?_⟩
  simp only [step, if_pos hi.alive, BroServer.step, hi.member, hs, if_pos hanswers, hlasts,
    Option.map_some]
  exact ⟨_, ⟨rfl, undisturbed_iff.mpr hok, hlasts⟩, rfl⟩

/-- A `send` that takes one byte does not end the process. -/
theorem Serves.endedBy_send_one (hi : Serves d worker s) {fd : ℤ} {response : Buffer w UInt8}
    {total_send : BitVec w} (hpc : worker.writer = .send fd response total_send)
    (hlt : total_send.toNat < response.bytes.length) :
    s.endedBy d (.send (.count 1)) = none := by
  have hsocket : s.server.sockets fd = some d := hi.socket (by rw [hpc]; rfl)
  have hsignal : s.signalled d fd = none := by
    simp [signalled, hsocket, hi.unbroken]
  have htrace : s.tracedBeyond d response (.count 1) = none := by
    obtain ⟨sb, hsb, hone⟩ : ∃ sb : BitVec w, sendTraced w (.count 1) = some sb ∧ sb.toNat = 1 :=
      sendTraced_count Nat.one_pos (Nat.lt_of_le_of_lt (by omega) response.fits)
    have hnear : ¬ (response.bytes.length < 1 ∨ INT_MAX < 1) := by
      rw [INT_MAX]
      omega
    rw [tracedBeyond, hsb, Option.any_some, hone, decide_eq_false hnear, Bool.and_false,
      if_neg Bool.false_ne_true]
  have hlog : s.loggedBeyond d response total_send (.count 1) = none := by
    refine if_neg fun hlogged => ?_
    have hbody := hlogged.2.1
    rw [sendBody_count Nat.one_pos (by rw [Buffer.toNat_size]; exact hlt), test] at hbody
    split at hbody <;> cases hbody
  simp only [endedBy, hi.member, Option.map_some, hpc, hsignal, htrace, hlog, Option.or_none]

/-- The kernel is asked nothing by a step that is neither a `recv` nor a `send`. -/
theorem answers_of_step (h : ThreadsTcpBroWorker.Step worker a worker' des)
    (hrecv : ∀ answer, a ≠ .recv answer) (hsend : ∀ answer, a ≠ .send answer)
    (sockets : ℤ → Option ℕ) : ∀ e ∈ des, BroServer.Answers sockets e := by
  cases h with
  | readRecv => exact absurd rfl (hrecv _)
  | writeSend => exact absurd rfl (hsend _)
  | _ => simp [BroServer.Answers]

/-- **A worker that can move by itself can move in its process.** -/
theorem Serves.enabled (hi : Serves d worker s)
    (h : ∃ a next, Undisturbed worker a ∧ worker.step a = some next) :
    ∃ b next, ServesOnly d s b ∧ s.step .IPV4SocketContext b = some next := by
  obtain ⟨a, ⟨worker', des⟩, hok, hs⟩ := h
  have hquiet (hrecv : ∀ answer, a ≠ .recv answer) (hsend : ∀ answer, a ≠ .send answer) :=
    answers_of_step (ThreadsTcpBroWorker.Step.of_step hs) hrecv hsend s.server.sockets
  cases a with
  | recv => exact absurd hok id
  | send answer =>
    -- some bytes can be taken, and so can one
    obtain ⟨_, _, _, hworker⟩ := hi.run
    cases ThreadsTcpBroWorker.Step.of_step hs with
    | writeSend hpc hanswer =>
      refine hi.takes (a := .send (.count 1)) Nat.one_pos
        (ThreadsTcpBroWorker.send_one hpc hanswer hok) ?_
        (hi.endedBy_send_one hpc (ThreadsTcpBroWorker.sendsInside_of_run hworker _ _ _ hpc))
      intro e he
      obtain rfl := List.mem_singleton.mp he
      intro hnone
      cases (hi.socket (by rw [hpc]; rfl)).symm.trans hnone
  | _ => exact hi.takes hok hs (hquiet nofun nofun) rfl

/-- The worker goes on serving by the steps that only it takes. -/
theorem Serves.step {b : Action w} (hi : Serves d worker s) (hok : ServesOnly d s b)
    (hs : s.step .IPV4SocketContext b = some (s', es)) :
    ∃ a worker' des, Undisturbed worker a ∧ worker.step a = some (worker', des)
      ∧ Serves d worker' s' := by
  obtain ⟨halive, hstep⟩ := Step.of_step hs
  cases hstep with
  | @worker c a server es hlasts hserver =>
    obtain ⟨rfl, hspares, -⟩ := hok
    have hmember := hi.member
    have hreached := hi.reached
    obtain ⟨_, _, htype, hworker⟩ := hi.run
    cases BroServer.Step.of_step hserver with
    | @worker _ _ worker₀ worker' des hc hmoves =>
      obtain rfl := Option.some.inj (hc.symm.trans hmember)
      have hok : Undisturbed worker₀ a := undisturbed_iff.mp hspares
      refine ⟨a, worker', des, hok, hmoves, halive, ?_, hi.unbroken, ?_, ?_⟩
      · exact List.getElem?_set_self (List.getElem?_eq_some_iff.mp hc).1
      · exact hi.serving.step (ThreadsTcpBroWorker.Step.of_step hmoves) hok
          ((ThreadsTcpBroWorker.type_of_run hworker).trans htype)
          (ThreadsTcpBroWorker.sendsInside_of_run hworker)
      · obtain ⟨es, hrun⟩ := hreached
        exact ⟨_, hrun.snoc (a := BroServer.Action.worker c a) trivial hserver⟩
  | ends hends => cases hok.2.2.symm.trans hends
  | noThread hthread => rcases hthread with ⟨_, rfl⟩ | ⟨_, rfl⟩ <;> exact hok.elim
  | _ => exact hok.elim

/-- **The worker can be brought to rest** by its own steps. -/
theorem Serves.inevitable (hi : Serves d worker s) :
    (machine w .IPV4SocketContext).Inevitable (ServesOnly d) (RestsAt d) s := by
  obtain ⟨_, _, htype, hworker⟩ := hi.run
  refine (ThreadsTcpBroWorker.inevitable_atRest htype hworker hi.serving).lift
    (R := Serves d) ?_ ?_ ?_ hi
  · exact fun _ _ hi hcan => hi.enabled hcan
  · exact fun _ _ _ _ _ hi hok hs => hi.step hok hs
  · exact fun _ _ hi hrest => ⟨_, hi.member, hrest⟩

end Serving

/-! ## The service goes on -/

end Runs

/-! ## Runs -/

open ThreadsTcpBroWorker (times)

/-- The actions of one worker. -/
def ofWorker (c : ℕ) (as : List (ThreadsTcpBroWorker.Action w UInt8)) : List (Action w) :=
  as.map (.worker c)

/-- A response of two bytes is published, and the write thread of `c` comes to its first
`send`. -/
def comesToSend (c : ℕ) : List (Action 64) :=
  ofWorker c (times 4 .doWork
    ++ .invoke 0 (.storeResponse ⟨[1, 2], by decide⟩) [.enableWriteEvent]
      :: times 6 (.caller 0)
    ++ times 10 .writer)

/-- A peer that breaks its connection while it is sent a response ends the process, and
with it the service of the other client. -/
theorem broken_send_ends_process :
    ∃ es s, (machine 64 .IPV4SocketContext).Run Machine.always (init 4 false false) es s
      ∧ s.server.workers.length = 2 ∧ s.alive = false := by
  refine Machine.Run.exists_of_exec ([.accept 5, .accept 6] ++ comesToSend 0
    ++ [.peerBreaks 0, .worker 0 (.send (.error .EAGAIN))]) ?_
  decide +kernel

end BroProcess
