import NetUtils.ConnectionIsolation

/-!
# The descriptors of the clients of `ThreadsTcpBroServer`

A worker closes `mClientFd` and stores `INVALID_FD` under one lock of `mMutex`,
so that whichever of its threads comes second closes nothing. An echo handler
does the same two things without the lock, and can close a number that has been
given to somebody else. A worker cannot, even where a thread of it still holds
such a number: the accounts of `clients_accounted` are right in every run, and
not only in those of `connections_isolated`.
-/

open Transfer

variable {w : ℕ} {β : Type}

namespace ThreadsTcpBroWorker

section Steps

variable {s s' : ThreadsTcpBroWorker w β} {a : Action w β} {es : List (Event w β)}
variable {context : SocketContext w β}

/-- On a context of the handlers' type a step leaves the descriptor, or closes it
and stores `INVALID_FD`. -/
theorem Step.keeps_or_closes (h : Step s a s' es) (hl : LeavesInvalid s) (hd : DoWorkAgrees s) :
    (s'.mContext.mClientFd = s.mContext.mClientFd ∧ closes es = [])
      ∨ (s'.mContext.mClientFd = INVALID_FD ∧ closes es = [s.mContext.mClientFd]) := by
  rcases h.close_cases with hkeeps | hcloses | ⟨hpc, hne, -⟩
  · exact .inl hkeeps
  · exact .inr hcloses
  · have hreturned : s.reader = .returned := hd.recvJoined (by rw [hpc]; rfl)
    exact absurd (hl.reader (by rw [hreturned]; rfl)) hne

/-- While `mClientFd` is the client's, so is every number held. -/
def HoldsClient (s : ThreadsTcpBroWorker w β) : Prop :=
  s.mContext.mClientFd ≠ INVALID_FD → ∀ fd, s.Holds fd → fd = s.mContext.mClientFd

theorem HoldsClient.step (h : Step s a s' es) (hl : LeavesInvalid s) (hd : DoWorkAgrees s)
    (hi : HoldsClient s) : HoldsClient s' := by
  intro hne fd hholds
  rcases h.keeps_or_closes hl hd with ⟨hsame, -⟩ | ⟨hinvalid, -⟩
  · rw [hsame] at hne ⊢
    exact (h.holds hholds).elim (hi hne fd) id
  · exact absurd hinvalid hne

theorem holdsClient_of_run {ok : ThreadsTcpBroWorker w β → Action w β → Prop}
    (htype : context.type = .IPV4SocketContext)
    (h : (machine w β).Run ok (init context) es s) : HoldsClient s := by
  refine h.invariant (I := fun _ s => HoldsClient s) (fun _ _ hholds => ?_)
    fun hrun hi _ hs => hi.step (Step.of_step hs) (leavesInvalid_of_run htype hrun)
      (doWorkAgrees_of_run hrun)
  rcases hholds with hread | hwrite
  · cases hread
  · cases hwrite

end Steps

end ThreadsTcpBroWorker

namespace BroServer

/-- **The accounts of the clients' descriptors.** -/
structure Accounts (s : BroServer w β) : Prop where
  /-- A socket is that of a client whose worker knows it. -/
  owner : ∀ n c, s.sockets n = some c →
    ∃ worker, s.workers[c]? = some worker ∧ worker.mContext.mClientFd = n
  /-- What a worker knows is its client's socket, or `INVALID_FD`. -/
  client : ∀ (c : ℕ) (worker : ThreadsTcpBroWorker w β), s.workers[c]? = some worker →
    worker.mContext.mClientFd ≠ INVALID_FD → s.sockets worker.mContext.mClientFd = some c
  /-- `INVALID_FD` stands for no socket. -/
  invalid : s.sockets INVALID_FD = none

section Invariants

variable {s s' : BroServer w β} {a : Action w β} {es es' : List (Event w β)}

theorem Accounts.accept {client_socket : ℤ} (hi : Accounts s) (hfd : 0 ≤ client_socket)
    (hfree : s.sockets client_socket = none) :
    Accounts { s with
      sockets := Function.update s.sockets client_socket (some s.workers.length)
      workers := s.workers ++ [process (accepted .IPV4SocketContext client_socket)]
      mSocketContextQueue := s.mSocketContextQueue ++ [s.workers.length] } := by
  have hother {n : ℤ} {c : ℕ} (hn : s.sockets n = some c) : n ≠ client_socket := fun heq => by
    rw [heq, hfree] at hn
    cases hn
  refine ⟨fun n c hn => ?_,
    Pool.forall_join (fun c worker hc hne => ?_) fun _ => Function.update_self .., ?_⟩
  · change Function.update s.sockets client_socket _ n = some c at hn
    by_cases heq : n = client_socket
    · subst heq
      rw [Function.update_self] at hn
      obtain rfl := Option.some.inj hn
      exact ⟨_, List.getElem?_concat_length, rfl⟩
    · rw [Function.update_of_ne heq] at hn
      obtain ⟨worker, hc, hclient⟩ := hi.owner n c hn
      have hlt := (List.getElem?_eq_some_iff.mp hc).1
      exact ⟨worker, (List.getElem?_append_left hlt).trans hc, hclient⟩
  · have hsocket := hi.client c worker hc hne
    exact (Function.update_of_ne (hother hsocket) _ _).trans hsocket
  · refine (Function.update_of_ne (fun heq => ?_) _ _).trans hi.invalid
    exact absurd (heq ▸ hfd : (0 : ℤ) ≤ INVALID_FD) (by decide)

/-- What is left of the table after a worker's step: a client other than its own
keeps its socket. -/
theorem Accounts.afterCloses_of_ne {c d : ℕ} {worker worker' : ThreadsTcpBroWorker w β}
    {a : ThreadsTcpBroWorker.Action w β} {es : List (ThreadsTcpBroWorker.Event w β)}
    (hi : Accounts s) (hc : s.workers[c]? = some worker)
    (hstep : ThreadsTcpBroWorker.Step worker a worker' es)
    (hl : worker.LeavesInvalid) (hd : worker.DoWorkAgrees) {n : ℤ}
    (hn : s.sockets n = some d) (hne : d ≠ c) : afterCloses s.sockets es n = some d := by
  rcases hstep.keeps_or_closes hl hd with ⟨-, hnone⟩ | ⟨-, hclose⟩
  · rw [afterCloses, hnone]
    exact hn
  · -- the number closed is the worker's own, or `INVALID_FD`
    rw [afterCloses, hclose]
    refine (Function.update_of_ne (fun heq => ?_) _ _).trans hn
    by_cases hinvalid : worker.mContext.mClientFd = INVALID_FD
    · rw [heq, hinvalid, hi.invalid] at hn
      cases hn
    · rw [heq, hi.client c worker hc hinvalid] at hn
      exact hne (Option.some.inj hn).symm

theorem Accounts.worker {c : ℕ} {worker worker' : ThreadsTcpBroWorker w β}
    {a : ThreadsTcpBroWorker.Action w β} {es : List (ThreadsTcpBroWorker.Event w β)}
    (hi : Accounts s) (hc : s.workers[c]? = some worker)
    (hstep : ThreadsTcpBroWorker.Step worker a worker' es)
    (hl : worker.LeavesInvalid) (hd : worker.DoWorkAgrees) :
    Accounts { s with
      sockets := afterCloses s.sockets es
      workers := s.workers.set c worker' } := by
  have hlt := (List.getElem?_eq_some_iff.mp hc).1
  refine ⟨fun n d hn => ?_, Pool.forall_move (fun d target htarget hdc hne => ?_) fun hne => ?_, ?_⟩
  · obtain ⟨target, htarget, hclient⟩ := hi.owner n d (afterCloses_eq_some hn)
    by_cases hdc : d = c
    · subst hdc
      obtain rfl := Option.some.inj (hc.symm.trans htarget)
      refine ⟨worker', List.getElem?_set_self hlt, ?_⟩
      rcases hstep.keeps_or_closes hl hd with ⟨hsame, -⟩ | ⟨-, hclose⟩
      · exact hsame.trans hclient
      · -- the number has just been closed
        have hfree : afterCloses s.sockets es n = none := by
          rw [afterCloses, hclose, hclient]
          exact Function.update_self ..
        cases hfree.symm.trans hn
    · exact ⟨target, (List.getElem?_set_ne (Ne.symm hdc)).trans htarget, hclient⟩
  · exact hi.afterCloses_of_ne hc hstep hl hd (hi.client d target htarget hne) hdc
  · rcases hstep.keeps_or_closes hl hd with ⟨hsame, hnone⟩ | ⟨hinvalid, -⟩
    · show afterCloses s.sockets es _ = _
      rw [hsame] at hne ⊢
      rw [afterCloses, hnone]
      exact hi.client c worker hc hne
    · exact absurd hinvalid hne
  · cases hfd : afterCloses s.sockets es INVALID_FD with
    | none => exact hfd
    | some d => cases hi.invalid.symm.trans (afterCloses_eq_some hfd)

/-- What is known of the worker that takes a step. -/
theorem workers_of_run {ok : BroServer w β → Action w β → Prop}
    (h : (ThreadsTcpBroServer.machine w β).Run ok init es s) {c : ℕ}
    {worker : ThreadsTcpBroWorker w β} (hc : s.workers[c]? = some worker) :
    worker.LeavesInvalid ∧ worker.DoWorkAgrees ∧ worker.HoldsClient := by
  obtain ⟨_, ⟨_, _, rfl⟩, hrun⟩ := (workersRun_of_run h).run c worker hc
  exact ⟨ThreadsTcpBroWorker.leavesInvalid_of_run rfl hrun,
    ThreadsTcpBroWorker.doWorkAgrees_of_run hrun, ThreadsTcpBroWorker.holdsClient_of_run rfl hrun⟩

theorem accounts_of_run {ok : BroServer w β → Action w β → Prop}
    (h : (ThreadsTcpBroServer.machine w β).Run ok init es s) : Accounts s := by
  refine h.invariant (I := fun _ s => Accounts s) ⟨by simp [init], by simp [init], rfl⟩ ?_
  intro es s a s' es' hrun hi _ hs
  cases Step.of_step hs with
  | accept _ hfd hfree => exact hi.accept hfd hfree
  | acceptFails => exact ⟨hi.owner, hi.client, hi.invalid⟩
  | worker hc hstep =>
    obtain ⟨hl, hd, -⟩ := workers_of_run hrun hc
    exact hi.worker hc (ThreadsTcpBroWorker.Step.of_step hstep) hl hd

end Invariants

end BroServer
