import NetUtils.BroServer

/-!
# Connections are kept apart while no held number changes hands

What a worker sends and receives goes to the socket its descriptor number
stands for at the moment of the call. `OwnsItsSocket` is the invariant that
makes it its own client's: `mClientFd` stands for the client's socket until
it is `INVALID_FD`, and a number held by a thread – loaded and not yet used –
stands for the client's socket or, once the other thread has closed it, for
none. The second half survives a close but not an `accept` that answers the
number while it is held, and that is the one thing the condition excludes.
-/

open Transfer

variable {w : ℕ} {β : Type}

/-- The number of bytes a call moves. -/
def ThreadsTcpBroWorker.Event.moved : ThreadsTcpBroWorker.Event w β → ℕ
  | .recv _ answer => answer.bytes.length
  | .send _ call => call.result.transferred
  | _ => 0

namespace BroServer

/-- **A call made for a connection acts on its own socket**, or on none and
moves nothing. -/
structure Event.Own (e : Event w β) : Prop where
  /-- It acts on no other connection's socket. -/
  socket : ∀ d, e.socket = some d → d = e.connection
  /-- Where it acts on none, no byte moves. -/
  moved : e.socket = none → e.event.moved = 0

/-- The condition on a step: `accept` does not answer a number that a thread of
an earlier connection holds. -/
def FreshNumbers (s : BroServer w β) : Action w β → Prop
  | .accept client_socket => ∀ worker ∈ s.workers, ¬ worker.Holds client_socket
  | _ => True

instance : DecidableRel (FreshNumbers : BroServer w β → Action w β → Prop)
  | s, .accept client_socket =>
    inferInstanceAs (Decidable (∀ worker ∈ s.workers, ¬ worker.Holds client_socket))
  | _, .acceptFails => isTrue trivial
  | _, .worker _ _ => isTrue trivial

/-- **The descriptor numbers of the workers and the sockets they stand for.** -/
structure OwnsItsSocket (s : BroServer w β) : Prop where
  /-- `mClientFd` stands for the client's socket until it is `INVALID_FD`. -/
  client : ∀ c worker, s.workers[c]? = some worker →
    worker.mContext.mClientFd ≠ INVALID_FD → s.sockets worker.mContext.mClientFd = some c
  /-- A number held stands for no other client's socket. -/
  held : ∀ c worker, s.workers[c]? = some worker → ∀ fd, worker.Holds fd →
    ∀ d, s.sockets fd = some d → d = c
  /-- `INVALID_FD` stands for no socket. -/
  invalid : s.sockets INVALID_FD = none

section Invariants

variable {s s' : BroServer w β} {a : Action w β} {es es' : List (Event w β)}

theorem OwnsItsSocket.init : OwnsItsSocket (init : BroServer w β) where
  client := fun _ _ hc => absurd hc (by simp [BroServer.init])
  held := fun _ _ hc => absurd hc (by simp [BroServer.init])
  invalid := rfl

/-- A worker not started holds no number. -/
theorem not_holds_process (context : SocketContext w β) (fd : ℤ) :
    ¬ (process context).Holds fd := by
  rintro (h | h) <;> cases h

theorem OwnsItsSocket.accept {client_socket : ℤ} (hi : OwnsItsSocket s)
    (hfd : 0 ≤ client_socket) (hfree : s.sockets client_socket = none)
    (hok : ∀ worker ∈ s.workers, ¬ worker.Holds client_socket) :
    OwnsItsSocket { s with
      sockets := Function.update s.sockets client_socket (some s.workers.length)
      workers := s.workers ++ [process (accepted .IPV4SocketContext client_socket)]
      mSocketContextQueue := s.mSocketContextQueue ++ [s.workers.length] } := by
  refine ⟨Pool.forall_join (fun c worker hc hne => ?_) fun _ => Function.update_self ..,
    Pool.forall_join (fun c worker hc fd hholds d hd => ?_)
      fun fd hholds => absurd hholds (not_holds_process _ fd), ?_⟩
  · have hsocket := hi.client c worker hc hne
    have hother : worker.mContext.mClientFd ≠ client_socket := fun heq => by
      rw [heq, hfree] at hsocket
      cases hsocket
    rw [← hsocket]
    exact Function.update_of_ne hother _ _
  · have hother : fd ≠ client_socket := fun heq =>
      hok worker (List.mem_of_getElem? hc) (heq ▸ hholds)
    change Function.update s.sockets client_socket _ fd = some d at hd
    rw [Function.update_of_ne hother] at hd
    exact hi.held c worker hc fd hholds d hd
  · have hother : INVALID_FD ≠ client_socket := by
      unfold INVALID_FD
      omega
    rw [← hi.invalid]
    exact Function.update_of_ne hother _ _

/-- A `close` takes sockets out of the table and adds none. -/
theorem afterCloses_eq_some {sockets : ℤ → Option ℕ}
    {es : List (ThreadsTcpBroWorker.Event w β)} {fd : ℤ} {d : ℕ}
    (h : afterCloses sockets es fd = some d) : sockets fd = some d := by
  unfold afterCloses at h
  generalize ThreadsTcpBroWorker.closes es = fds at h
  induction fds generalizing sockets with
  | nil => exact h
  | cons fd' rest ih =>
    have hrest : Function.update sockets fd' none fd = some d := ih h
    by_cases heq : fd = fd'
    · rw [heq, Function.update_self] at hrest
      cases hrest
    · rwa [Function.update_of_ne heq] at hrest

theorem OwnsItsSocket.worker {c : ℕ} {worker worker' : ThreadsTcpBroWorker w β}
    {a : ThreadsTcpBroWorker.Action w β} {es : List (ThreadsTcpBroWorker.Event w β)}
    (hi : OwnsItsSocket s) (hc : s.workers[c]? = some worker)
    (hstep : ThreadsTcpBroWorker.Step worker a worker' es)
    (hl : worker.LeavesInvalid) (hd : worker.DoWorkAgrees) :
    OwnsItsSocket { s with
      sockets := afterCloses s.sockets es
      workers := s.workers.set c worker' } := by
  -- the step closes nothing, or the descriptor that it forgets
  have hclose : (worker'.mContext.mClientFd = worker.mContext.mClientFd
        ∧ afterCloses s.sockets es = s.sockets)
      ∨ (worker'.mContext.mClientFd = INVALID_FD
        ∧ afterCloses s.sockets es
          = Function.update s.sockets worker.mContext.mClientFd none) := by
    rcases hstep.close_cases with ⟨hfd, hes⟩ | ⟨hfd, hes⟩ | ⟨hpc, hne, -⟩
    · exact .inl ⟨hfd, by rw [afterCloses, hes]; rfl⟩
    · exact .inr ⟨hfd, by rw [afterCloses, hes]; rfl⟩
    · have hreturned : worker.reader = .returned := hd.recvJoined (by rw [hpc]; rfl)
      exact absurd (hl.reader (by rw [hreturned]; rfl)) hne
  refine ⟨Pool.forall_move (fun d target htarget hdc hne => ?_) fun hne => ?_,
    Pool.forall_move (fun d target htarget _ fd hholds e he => ?_) fun fd hholds e he => ?_, ?_⟩
  · have hsocket := hi.client d target htarget hne
    rcases hclose with ⟨-, hsockets⟩ | ⟨-, hsockets⟩
    · exact (congrFun hsockets _).trans hsocket
    · -- the number closed is this connection's, and so not the other's
      refine (congrFun hsockets _).trans ?_
      rw [Function.update_of_ne, hsocket]
      intro heq
      rw [heq] at hsocket hne
      exact hdc (Option.some.inj (hsocket.symm.trans (hi.client c worker hc hne)))
  · rcases hclose with ⟨hfd, hsockets⟩ | ⟨hfd, -⟩
    · change afterCloses s.sockets es _ = _
      rw [hfd] at hne
      rw [hsockets, hfd]
      exact hi.client c worker hc hne
    · exact absurd hfd hne
  · exact hi.held d target htarget fd hholds e (afterCloses_eq_some he)
  · have hsocket : s.sockets fd = some e := afterCloses_eq_some he
    rcases hstep.holds hholds with hold | rfl
    · exact hi.held c worker hc fd hold e hsocket
    · by_cases hne : worker.mContext.mClientFd = INVALID_FD
      · rw [hne, hi.invalid] at hsocket
        cases hsocket
      · exact Option.some.inj (hsocket.symm.trans (hi.client c worker hc hne))
  · cases hfd : afterCloses s.sockets es INVALID_FD with
    | none => exact hfd
    | some d => cases hi.invalid.symm.trans (afterCloses_eq_some hfd)

theorem OwnsItsSocket.step (h : Step .IPV4SocketContext s a s' es') (hok : FreshNumbers s a)
    (hruns : Pool.MembersRun (ThreadsTcpBroWorker.machine w β) Machine.always
      (Processed .IPV4SocketContext) Event.ofWorker es s.workers)
    (hi : OwnsItsSocket s) : OwnsItsSocket s' := by
  cases h with
  | accept _ hfd hfree => exact hi.accept hfd hfree hok
  | acceptFails => exact ⟨hi.client, hi.held, hi.invalid⟩
  | worker hc hstep _ =>
    obtain ⟨_, ⟨_, _, rfl⟩, hrun⟩ := hruns.run _ _ hc
    exact hi.worker hc (ThreadsTcpBroWorker.Step.of_step hstep)
      (ThreadsTcpBroWorker.leavesInvalid_of_run rfl hrun)
      (ThreadsTcpBroWorker.doWorkAgrees_of_run hrun)

theorem ownsItsSocket_of_run
    (h : (ThreadsTcpBroServer.machine w β).Run FreshNumbers init es s) : OwnsItsSocket s :=
  h.invariant (I := fun _ s => OwnsItsSocket s) OwnsItsSocket.init
    (fun hrun hi hok hs => hi.step (Step.of_step hs) hok (workersRun_of_run hrun))

/-- On a number that stands for no socket the kernel moves nothing. -/
theorem moved_eq_zero {sockets : ℤ → Option ℕ} {e : ThreadsTcpBroWorker.Event w β}
    (hanswers : Answers sockets e) (hnone : e.fd.bind sockets = none) : e.moved = 0 := by
  cases e with
  | recv fd answer =>
    cases answer with
    | failed errno => rfl
    | got chunk => exact absurd rfl (hanswers hnone).1
  | send fd call =>
    rw [ThreadsTcpBroWorker.Event.moved, (hanswers hnone).2 rfl]
    rfl
  | _ => rfl

/-- **Each call a step makes is on the connection's own socket.** -/
theorem OwnsItsSocket.own (h : Step .IPV4SocketContext s a s' es') (hi : OwnsItsSocket s) :
    ∀ e ∈ es', e.Own := by
  cases h with
  | accept => nofun
  | acceptFails => nofun
  | @worker c _ worker _ es hc hstep hanswers =>
    intro e he
    obtain ⟨e, hmem, rfl⟩ := List.mem_map.mp he
    refine ⟨fun d hd => ?_, fun hnone => moved_eq_zero (hanswers e hmem) hnone⟩
    obtain ⟨fd, hfd, hsocket⟩ := Option.bind_eq_some_iff.mp hd
    have hholds := (ThreadsTcpBroWorker.Step.of_step hstep).holds_event hmem hfd
    exact hi.held c worker hc fd hholds d hsocket

end Invariants

/-- **Connections are isolated** in every run of `ThreadsTcpBroServer` in which
`accept` never answers a number that a thread still holds: every call made for
a connection acts on its own socket or on none, and `mRequest` is what was
received by those calls. -/
theorem connections_isolated {es : List (Event w β)} {s : BroServer w β}
    (h : (ThreadsTcpBroServer.machine w β).Run FreshNumbers init es s) :
    (∀ e ∈ es, e.Own)
      ∧ ∀ c worker, s.workers[c]? = some worker →
        worker.mContext.mRequest ++ worker.reader.chunk
          = ThreadsTcpBroWorker.received (eventsOf c es) := by
  constructor
  · refine h.invariant (I := fun es _ => ∀ e ∈ es, e.Own) nofun ?_
    intro es s a s' es' hrun hi _ hs e he
    rcases List.mem_append.mp he with hold | hnew
    · exact hi e hold
    · exact (ownsItsSocket_of_run hrun).own (Step.of_step hs) e hnew
  · intro c worker hc
    obtain ⟨_, ⟨_, _, rfl⟩, hrun⟩ := (workersRun_of_run h).run c worker hc
    exact ThreadsTcpBroWorker.request_of_run hrun

/-! ## Runs -/

open ThreadsTcpBroWorker (times)

/-- The actions of one worker. -/
def ofWorker (c : ℕ) (as : List (ThreadsTcpBroWorker.Action w β)) : List (Action w β) :=
  as.map (.worker c)

/-- Two clients, on 5 and 6; each sends a byte of its own. -/
def twoClients : List (Action 64 ℕ) :=
  [.accept 5, .accept 6]
    ++ ofWorker 0 (times 4 .doWork ++ times 6 .reader ++ [.recv (.got [10])]
      ++ times 3 .reader)
    ++ ofWorker 1 (times 4 .doWork ++ times 6 .reader ++ [.recv (.got [20])]
      ++ times 3 .reader)

theorem connections_isolated_twoClients :
    ∃ es s, (ThreadsTcpBroServer.machine 64 ℕ).Run FreshNumbers init es s
      ∧ (s.workers.map fun worker => worker.mContext.mRequest) = [[10], [20]]
      ∧ ∀ e ∈ es, e.Own := by
  obtain ⟨es, s, hrun, hrequests⟩ : ∃ es s,
      (ThreadsTcpBroServer.machine 64 ℕ).Run FreshNumbers init es s
      ∧ (s.workers.map fun worker => worker.mContext.mRequest) = [[10], [20]] := by
    refine Machine.Run.exists_of_exec twoClients ?_
    decide +kernel
  exact ⟨es, s, hrun, hrequests, (connections_isolated hrun).1⟩

/-- A client on 5 is sent two bytes, one at a time. After the first its read
thread sees the end of the connection and closes 5, and the next client is
accepted on 5. -/
def numberReused : List (Action 64 ℕ) :=
  [.accept 5]
    ++ ofWorker 0 (times 4 .doWork
      ++ .invoke 0 (.storeResponse ⟨[1, 2], by decide⟩) [.enableWriteEvent]
        :: times 6 (.caller 0)
      ++ times 10 .writer ++ [.send (.count 1)]
      ++ times 6 .reader ++ [.recv (.got [])] ++ times 2 .reader)
    ++ [.accept 5]
    ++ ofWorker 0 [.send (.count 1)]

/-- **The second byte goes to the wrong client.** The write thread still holds
the number it passed to `send_bytes`. -/
theorem response_reaches_other_client :
    ∃ es s, (ThreadsTcpBroServer.machine 64 ℕ).Run Machine.always init es s
      ∧ ¬ ∀ e ∈ es, e.Own := by
  obtain ⟨es, s, hrun, hlast⟩ : ∃ es s,
      (ThreadsTcpBroServer.machine 64 ℕ).Run Machine.always init es s
      ∧ (es.getLast?.map fun e => (e.connection, e.socket, e.event.moved))
        = some (0, some 1, 1) := by
    refine Machine.Run.exists_of_exec numberReused ?_
    decide +kernel
  refine ⟨es, s, hrun, fun hown => ?_⟩
  obtain ⟨e, he, heq⟩ := Option.map_eq_some_iff.mp hlast
  obtain ⟨hc, hsocket, -⟩ : e.connection = 0 ∧ e.socket = some 1 ∧ e.event.moved = 1 := by
    simpa using heq
  have hsame := (hown e (List.mem_of_getLast? he)).socket 1 hsocket
  rw [hc] at hsame
  cases hsame

end BroServer
