import NetUtils.BroServer

/-!
# What a client of `ThreadsTcp6BroServer` gets

Both engines hand their clients to the same worker, and both threads of a
worker begin by casting its context to `IPV4SocketContext`. On a context of
`ThreadsTcp6BroServer` the cast gives null: the threads return before they
have installed their scope-exit handlers, nothing is received, nothing is
sent, and `doWork` returns with the descriptor open and still in `mClientFd`.
That is every run of such a worker (`unserved_of_run`), so there is none in
which its client is served as one of `ThreadsTcpBroServer` is
(`ipv6_never_served`).
-/

open Transfer

variable {w : ℕ} {β : Type}

namespace ThreadsTcpBroWorker

/-- The response given to `send_bytes` by an event. -/
def Event.response : Event w β → Option (Buffer w β)
  | .sendBytes _ response => some response
  | _ => none

/-- The responses given to `send_bytes`, in order. -/
def responses (es : List (Event w β)) : List (Buffer w β) := es.filterMap Event.response

/-- **Two workers have given their clients the same service**: the same bytes
received, the same responses sent, the descriptor treated alike. -/
structure SameService (es es' : List (Event w β)) (s s' : ThreadsTcpBroWorker w β) : Prop where
  /-- The same bytes are in `mRequest`. -/
  request : s.mContext.mRequest = s'.mContext.mRequest
  /-- The same responses have been given to `send_bytes`. -/
  responses : responses es = responses es'
  /-- As many descriptors have been closed. -/
  closed : (closes es).length = (closes es').length
  /-- `mClientFd` is `INVALID_FD` in both or in neither. -/
  invalid : s.mContext.mClientFd = INVALID_FD ↔ s'.mContext.mClientFd = INVALID_FD

section Unserved

variable {s s' : ThreadsTcpBroWorker w β} {a : Action w β} {es es' : List (Event w β)}
variable {context : SocketContext w β}

/-- An event of a calling thread, which no step of the two threads makes. -/
def Event.isCall : Event w β → Bool
  | .called _ _ => true
  | _ => false

/-- **Nothing has been done for the client.** -/
structure Unserved (context : SocketContext w β) (es : List (Event w β))
    (s : ThreadsTcpBroWorker w β) : Prop where
  /-- The read thread has not started, is at its cast, or has returned. -/
  reader : s.reader = .unstarted ∨ s.reader = .castContext ∨ s.reader = .returned
  /-- So the write thread. -/
  writer : s.writer = .unstarted ∨ s.writer = .castContext ∨ s.writer = .returned
  /-- `mClientFd` is as it was. -/
  mClientFd : s.mContext.mClientFd = context.mClientFd
  /-- `mRequest` is as it was. -/
  mRequest : s.mContext.mRequest = context.mRequest
  /-- Until the context is destroyed nobody but a calling thread has done
  anything. -/
  events : s.doWork ≠ .destroyed → ∀ e ∈ es, e.isCall = true

theorem Unserved.init (context : SocketContext w β) : Unserved context [] (init context) where
  reader := .inl rfl
  writer := .inl rfl
  mClientFd := rfl
  mRequest := rfl
  events := fun _ => nofun

theorem Unserved.step (h : Step s a s' es') (htype : s.mContext.type = .IPV6SocketContext)
    (hi : Unserved context es s) : Unserved context (es ++ es') s' := by
  obtain ⟨hr, hw, hfd, hreq, hes⟩ := hi
  cases h with
  | destroyOpen => exact ⟨hr, hw, hfd, hreq, fun hne => absurd rfl hne⟩
  | destroyClosed => exact ⟨hr, hw, hfd, hreq, fun hne => absurd rfl hne⟩
  | startRecv hpc =>
    rw [List.append_nil]
    exact ⟨.inr (.inl rfl), hw, hfd, hreq, fun _ => hes (by rw [hpc]; nofun)⟩
  | startSend hpc =>
    rw [List.append_nil]
    exact ⟨hr, .inr (.inl rfl), hfd, hreq, fun _ => hes (by rw [hpc]; nofun)⟩
  | readCastIPV6 =>
    rw [List.append_nil]
    exact ⟨.inr (.inr rfl), hw, hfd, hreq, hes⟩
  | writeCastIPV6 =>
    rw [List.append_nil]
    exact ⟨hr, .inr (.inr rfl), hfd, hreq, hes⟩
  | readCastIPV4 _ hipv4 => cases htype.symm.trans hipv4
  | writeCastIPV4 _ hipv4 => cases htype.symm.trans hipv4
  | @callBody i call rest hpc =>
    have hall : s.doWork ≠ .destroyed → ∀ e ∈ es ++ [.called i call], e.isCall = true := by
      intro hne e he
      rcases List.mem_append.mp he with hold | hnew
      · exact hes hne e hold
      · rw [List.mem_singleton.mp hnew]
        rfl
    cases call <;> exact ⟨hr, hw, hfd, hreq, hall⟩
  | readLock hpc => rcases hpc with hpc | hpc <;> simp [hpc] at hr
  | writeLock hpc => rcases hpc with hpc | hpc <;> simp [hpc] at hw
  | _ =>
    first
    | (rw [List.append_nil]; exact ⟨hr, hw, hfd, hreq, hes⟩)
    | (rw [List.append_nil]
       exact ⟨hr, hw, hfd, hreq, fun _ => hes (by rw [‹s.doWork = _›]; nofun)⟩)
    | (rw [‹s.reader = _›] at hr; simp at hr)
    | (rw [‹s.writer = _›] at hw; simp at hw)

theorem unserved_of_run {ok : ThreadsTcpBroWorker w β → Action w β → Prop}
    (htype : context.type = .IPV6SocketContext)
    (h : (machine w β).Run ok (init context) es s) : Unserved context es s :=
  h.invariant (I := Unserved context) (Unserved.init context)
    (fun hrun hi _ hs => hi.step (Step.of_step hs) ((type_of_run hrun).trans htype))

/-- The calls of other threads close nothing and send nothing. -/
theorem closes_of_isCall (h : ∀ e ∈ es, e.isCall = true) : closes es = [] := by
  refine List.filterMap_eq_nil_iff.mpr fun e he => ?_
  cases e with
  | called i call => rfl
  | _ => cases h _ he

theorem responses_of_isCall (h : ∀ e ∈ es, e.isCall = true) : responses es = [] := by
  refine List.filterMap_eq_nil_iff.mpr fun e he => ?_
  cases e with
  | called i call => rfl
  | _ => cases h _ he

end Unserved

end ThreadsTcpBroWorker

namespace BroServer

open ThreadsTcpBroWorker

section Service

variable {es es' : List (Event w β)} {s s' : BroServer w β} {c c' : ℕ}
variable {worker worker' : ThreadsTcpBroWorker w β}

/-- **What `ThreadsTcp6BroServer` does for a client**: by the time `doWork`
returns, nothing has been received, sent or closed. -/
theorem ipv6_unserved (h : (ThreadsTcp6BroServer.machine w β).Run Machine.always init es s)
    (hc : s.workers[c]? = some worker) (hreturned : worker.doWork = .returned) :
    worker.mContext.mRequest = [] ∧ responses (eventsOf c es) = []
      ∧ closes (eventsOf c es) = [] ∧ worker.mContext.mClientFd ≠ INVALID_FD := by
  obtain ⟨_, ⟨client_socket, hfd, rfl⟩, hrun⟩ := (workersRun_of_run h).run c worker hc
  have hi := unserved_of_run rfl hrun
  have hcalls := hi.events (by rw [hreturned]; nofun)
  refine ⟨hi.mRequest, responses_of_isCall hcalls, closes_of_isCall hcalls, ?_⟩
  rw [hi.mClientFd]
  change client_socket ≠ INVALID_FD
  unfold INVALID_FD
  omega

/-- `ThreadsTcpBroServer` has its client's descriptor closed. -/
theorem ipv4_closed (h : (ThreadsTcpBroServer.machine w β).Run Machine.always init es s)
    (hc : s.workers[c]? = some worker) (hreturned : worker.doWork = .returned) :
    worker.mContext.mClientFd = INVALID_FD := by
  obtain ⟨_, ⟨_, _, rfl⟩, hrun⟩ := (workersRun_of_run h).run c worker hc
  have hwriter : worker.writer = .returned :=
    (doWorkAgrees_of_run hrun).sendJoined (by rw [hreturned]; rfl)
  exact (leavesInvalid_of_run rfl hrun).writer (by rw [hwriter]; rfl)

/-- **No client of `ThreadsTcp6BroServer` is served as one of
`ThreadsTcpBroServer` is.** Whatever the two clients send, whatever is
published for them and however the threads interleave, by the time the two
`doWork` have returned one descriptor is closed and the other is not. -/
theorem ipv6_never_served
    (h : (ThreadsTcpBroServer.machine w β).Run Machine.always init es s)
    (hc : s.workers[c]? = some worker) (hreturned : worker.doWork = .returned)
    (h' : (ThreadsTcp6BroServer.machine w β).Run Machine.always init es' s')
    (hc' : s'.workers[c']? = some worker') (hreturned' : worker'.doWork = .returned) :
    worker'.mContext.mClientFd ≠ INVALID_FD ∧ closes (eventsOf c' es') = []
      ∧ ¬ SameService (eventsOf c es) (eventsOf c' es') worker worker' := by
  obtain ⟨-, -, hnone, hopen⟩ := ipv6_unserved h' hc' hreturned'
  exact ⟨hopen, hnone, fun hsame => hopen (hsame.invalid.mp (ipv4_closed h hc hreturned))⟩

end Service

/-! ## A client of each -/

/-- A client is accepted on 5 and its worker takes these steps. -/
def serve (as : List (ThreadsTcpBroWorker.Action 64 ℕ)) : List (Action 64 ℕ) :=
  .accept 5 :: as.map (.worker 0)

/-- A worker whose threads return at once. -/
def returnsAtOnce : List (ThreadsTcpBroWorker.Action 64 ℕ) :=
  times 4 .doWork ++ [.reader, .writer] ++ times 2 .doWork

/-- The first worker of an engine has come to the end of `doWork`, with this
descriptor in its context. -/
def EndsWith (fd : ℤ) (s : BroServer 64 ℕ) : Prop :=
  (s.workers[0]?.map fun worker => (worker.doWork, worker.mContext.mClientFd))
    = some (.returned, fd)

instance (fd : ℤ) (s : BroServer 64 ℕ) : Decidable (EndsWith fd s) :=
  inferInstanceAs (Decidable (_ = _))

theorem EndsWith.worker {fd : ℤ} {s : BroServer 64 ℕ} (h : EndsWith fd s) :
    ∃ worker, s.workers[0]? = some worker ∧ worker.doWork = .returned
      ∧ worker.mContext.mClientFd = fd := by
  obtain ⟨worker, hc, heq⟩ := Option.map_eq_some_iff.mp h
  exact ⟨worker, hc, (Prod.mk.inj heq).1, (Prod.mk.inj heq).2⟩

theorem ipv4_client_run :
    ∃ es s, (ThreadsTcpBroServer.machine 64 ℕ).Run Machine.always init es s
      ∧ EndsWith INVALID_FD s := by
  refine Machine.Run.exists_of_exec (serve peerCloses) ?_
  decide +kernel

theorem ipv6_client_run :
    ∃ es s, (ThreadsTcp6BroServer.machine 64 ℕ).Run Machine.always init es s
      ∧ EndsWith 5 s := by
  refine Machine.Run.exists_of_exec (serve returnsAtOnce) ?_
  decide +kernel

theorem ipv6_never_served_left_open :
    ∃ es s worker, (ThreadsTcp6BroServer.machine 64 ℕ).Run Machine.always init es s
      ∧ s.workers[0]? = some worker ∧ worker.doWork = .returned
      ∧ worker.mContext.mClientFd ≠ INVALID_FD ∧ closes (eventsOf 0 es) = [] := by
  obtain ⟨es, s, h, hend⟩ := ipv4_client_run
  obtain ⟨es', s', h', hend'⟩ := ipv6_client_run
  obtain ⟨worker, hc, hreturned, -⟩ := hend.worker
  obtain ⟨worker', hc', hreturned', -⟩ := hend'.worker
  have hnever := ipv6_never_served h hc hreturned h' hc' hreturned'
  exact ⟨es', s', worker', h', hc', hreturned', hnever.1, hnever.2.1⟩

/-- **An IPv6 client is left with its descriptor open**, where the IPv4 client
has had its own closed: at the end of both, `mClientFd` is 5 in the one and
`INVALID_FD` in the other. -/
theorem ipv6_client_left_open :
    ∃ es s worker es' s' worker',
      (ThreadsTcpBroServer.machine 64 ℕ).Run Machine.always init es s
      ∧ s.workers[0]? = some worker ∧ worker.doWork = .returned
      ∧ (ThreadsTcp6BroServer.machine 64 ℕ).Run Machine.always init es' s'
      ∧ s'.workers[0]? = some worker' ∧ worker'.doWork = .returned
      ∧ worker'.mContext.mClientFd = 5
      ∧ ¬ SameService (eventsOf 0 es) (eventsOf 0 es') worker worker' := by
  obtain ⟨es, s, h, hend⟩ := ipv4_client_run
  obtain ⟨es', s', h', hend'⟩ := ipv6_client_run
  obtain ⟨worker, hc, hreturned, hfd⟩ := hend.worker
  obtain ⟨worker', hc', hreturned', hfd'⟩ := hend'.worker
  refine ⟨es, s, worker, es', s', worker', h, hc, hreturned, h', hc', hreturned', hfd', ?_⟩
  intro hsame
  cases hfd'.symm.trans (hsame.invalid.mp hfd)

end BroServer
