import NetUtils.WorkerClose
import NetUtils.BroServer

/-!
# What the engine knows of its clients

`run` pushes the context of each client it accepts on `mSocketContextQueue`,
and hands the context to a thread that is detached. Nothing comes back from
there: nothing pops the queue, and nothing assigns `mConnections` or
`mIsRunning`, which stay what the constructor made them. So a context stays in
the queue when its worker has ended, and with it the client's two buffers; the
engine answers that it has no connections, and that it has not been started,
to the end of its days.

Here the engine of `NetUtils.BroServer` carries the two fields, and
`books_never_kept` says how far each of the three answers is right.
-/

variable {w : ℕ} {β : Type}

/-- The thread of the worker has come to the end of `doWork`. -/
def ThreadsTcpBroWorker.ended (s : ThreadsTcpBroWorker w β) : Bool :=
  decide (s.doWork = .returned ∨ s.doWork = .destroyed)

/-- **An engine with what it says of its clients.** -/
structure BroEngine (w : ℕ) (β : Type) where
  /-- The engine, its queue and the workers. -/
  server : BroServer w β
  /-- What `isStarted()` answers. -/
  mIsRunning : Bool
  /-- What `getConnections()` answers. -/
  mConnections : BitVec 32

namespace BroEngine

section Definitions

variable (s : BroEngine w β)

/-- The engine as `run` is entered, with the fields of the constructor. -/
def init : BroEngine w β where
  server := BroServer.init
  mIsRunning := false
  mConnections := 0

/-- `isStarted()`. -/
def isStarted : Bool := s.mIsRunning

/-- `getConnections()`. -/
def getConnections : BitVec 32 := s.mConnections

/-- One step of the accept loop or of a worker. Neither assigns the two
fields. -/
def step (type : ContextType) (a : BroServer.Action w β) :
    Option (BroEngine w β × List (BroServer.Event w β)) :=
  (s.server.step type a).map fun p => ({ s with server := p.1 }, p.2)

/-- An engine as a machine. -/
def machine (w : ℕ) (β : Type) (type : ContextType) :
    Machine (BroEngine w β) (BroServer.Action w β) (BroServer.Event w β) where
  step := fun s => s.step type

/-- The accepted clients whose workers have not ended. -/
def live : List ℕ :=
  (List.range s.server.workers.length).filter fun c =>
    s.server.workers[c]?.any fun worker => !worker.ended

/-- The queue holds one context for each such client, and no other. -/
def QueuesLive : Prop :=
  ∀ c, s.server.mSocketContextQueue.count c = if c ∈ s.live then 1 else 0

/-- **The engine keeps its books.** -/
structure KeepsBooks : Prop where
  /-- The queue is that of the clients being served. -/
  queued : s.QueuesLive
  /-- `getConnections()` is their number. -/
  counted : s.getConnections.toNat = s.live.length
  /-- `isStarted()` is true. -/
  started : s.isStarted = true

end Definitions

variable {type : ContextType} {s s' : BroEngine w β} {a : BroServer.Action w β}
variable {es : List (BroServer.Event w β)}

/-- **What is never updated**: the queue holds every client accepted, and the
two fields are as the constructor made them. -/
structure NeverUpdated (s : BroEngine w β) : Prop where
  queue : s.server.mSocketContextQueue = List.range s.server.workers.length
  mIsRunning : s.mIsRunning = false
  mConnections : s.mConnections = 0

theorem NeverUpdated.start : NeverUpdated (init : BroEngine w β) where
  queue := rfl
  mIsRunning := rfl
  mConnections := rfl

theorem NeverUpdated.step (h : s.step type a = some (s', es)) (hi : NeverUpdated s) :
    NeverUpdated s' := by
  obtain ⟨⟨server, es'⟩, hs, heq⟩ := Option.map_eq_some_iff.mp h
  cases heq
  refine ⟨?_, hi.mIsRunning, hi.mConnections⟩
  cases BroServer.Step.of_step hs with
  | accept =>
    rw [hi.queue, List.length_append, List.length_singleton, List.range_succ]
  | acceptFails => exact hi.queue
  | worker => rw [List.length_set]; exact hi.queue

theorem neverUpdated_of_run {ok : BroEngine w β → BroServer.Action w β → Prop}
    (h : (machine w β type).Run ok init es s) : NeverUpdated s :=
  h.stateInvariant NeverUpdated.start (fun hi _ hs => hi.step hs)

theorem lt_of_mem_live {c : ℕ} (hc : c ∈ s.live) : c < s.server.workers.length :=
  List.mem_range.mp (List.mem_of_mem_filter hc)

/-- A queue that holds every client accepted is right just as long as no worker
has ended. -/
theorem NeverUpdated.queuesLive_iff (hi : NeverUpdated s) :
    s.QueuesLive ↔ ∀ c < s.server.workers.length, c ∈ s.live := by
  have hcount (c : ℕ) : s.server.mSocketContextQueue.count c
      = if c < s.server.workers.length then 1 else 0 := by
    rw [hi.queue, List.nodup_range.count]
    simp only [List.mem_range]
  constructor
  · intro h c hc
    have hone := h c
    rw [hcount, if_pos hc] at hone
    by_contra hended
    rw [if_neg hended] at hone
    cases hone
  · intro h c
    rw [hcount]
    by_cases hc : c < s.server.workers.length
    · rw [if_pos hc, if_pos (h c hc)]
    · rw [if_neg hc, if_neg fun hmem => hc (lt_of_mem_live hmem)]

/-- **The engine keeps its books at no moment** of any run. Its queue is right
just as long as no worker has ended, its number of connections just where no
client is being served, and it never says that it is started. -/
theorem books_never_kept (h : (machine w β type).Run Machine.always init es s) :
    ¬ KeepsBooks s
      ∧ (s.QueuesLive ↔ ∀ c < s.server.workers.length, c ∈ s.live)
      ∧ (s.getConnections.toNat = s.live.length ↔ s.live = [])
      ∧ s.isStarted = false := by
  have hi := neverUpdated_of_run h
  refine ⟨fun hbooks => ?_, hi.queuesLive_iff, ?_, hi.mIsRunning⟩
  · cases hi.mIsRunning.symm.trans hbooks.started
  · have hnone : s.getConnections.toNat = 0 := by
      rw [getConnections, hi.mConnections]
      rfl
    rw [hnone, eq_comm, List.length_eq_zero_iff]

/-- Two clients are accepted on 5 and 6; the peer of the first has closed and
its worker has ended before the second comes. -/
def oneEndsOneComes : List (BroServer.Action 64 ℕ) :=
  .accept 5 :: ThreadsTcpBroWorker.peerCloses.map (.worker 0) ++ [.accept 6]

/-- The state after it. -/
theorem oneEndsOneComes_run :
    ∃ es s, (machine 64 ℕ .IPV4SocketContext).Run Machine.always init es s
      ∧ s.server.running = true ∧ s.server.mSocketContextQueue = [0, 1] ∧ s.live = [1]
      ∧ s.getConnections = 0 ∧ s.isStarted = false := by
  refine Machine.Run.exists_of_exec oneEndsOneComes ?_
  decide +kernel

theorem books_never_kept_oneEnded :
    ∃ es s, (machine 64 ℕ .IPV4SocketContext).Run Machine.always init es s
      ∧ s.server.running = true ∧ ¬ KeepsBooks s ∧ s.isStarted = false := by
  obtain ⟨es, s, h, hrunning, -⟩ := oneEndsOneComes_run
  have hnever := books_never_kept h
  exact ⟨es, s, h, hrunning, hnever.1, hnever.2.2.2⟩

/-- **The context of a client that has gone is kept**, and the engine, about to
accept a third client, says that it has no connections and is not started. -/
theorem ended_client_kept :
    ∃ es s, (machine 64 ℕ .IPV4SocketContext).Run Machine.always init es s
      ∧ s.server.running = true ∧ s.server.mSocketContextQueue = [0, 1] ∧ s.live = [1]
      ∧ ¬ s.QueuesLive ∧ s.getConnections.toNat ≠ s.live.length ∧ s.isStarted = false := by
  obtain ⟨es, s, h, hrunning, hqueue, hlive, hconnections, hstarted⟩ := oneEndsOneComes_run
  refine ⟨es, s, h, hrunning, hqueue, hlive, fun hqueues => ?_, ?_, hstarted⟩
  · have hone := hqueues 0
    rw [hqueue, hlive] at hone
    exact absurd hone (by decide)
  · rw [hconnections, hlive]
    decide

end BroEngine
