import NetUtils.BroService
import NetUtils.WorkerFinish

/-!
# An engine nobody attends to

A `ThreadsTcpBroServer` takes its clients' bytes in and leaves it to somebody else to
read `mRequest`, to store a response and to call `enableWriteEvent()`. The program
`ThreadsEchoEngine` starts two engines under the name `echo_engine`, and calls none of
this. Nobody else has a worker's address: it is made in
`ThreadsTcpBroProcessor::process` and known to its own threads only.

So such an engine sends nothing. A write thread sleeps until its client is gone, and is
then woken to an empty response. What the clients send is kept to the last byte, and
nothing takes it away (`unattended`).
-/

open Transfer

variable {w : ℕ} {β : Type}

/-- The write thread has not got past its wait, or has returned. -/
def WritePc.asleep : WritePc w β → Bool
  | unstarted => true
  | castContext => true
  | interruptionPoint => true
  | lockWrite => true
  | testEnabled => true
  | enterWait => true
  | waiting => true
  | notified => true
  | returned => true
  | _ => false

namespace ThreadsTcpBroWorker

/-- The event is not a `send`. -/
def Event.noSend : Event w β → Prop
  | .send _ _ => False
  | _ => True

/-- **A worker nobody attends to.** -/
structure Quiet (s : ThreadsTcpBroWorker w β) : Prop where
  /-- There is no response, -/
  mResponse : s.mContext.mResponse.bytes = []
  /-- none that has been copied, -/
  inHand : ∀ response, s.writer.inHand = some response → response.bytes = []
  /-- and none that is being sent. -/
  response : s.writer.response = none
  /-- Until the read thread wakes it for the last time, the write thread sleeps. -/
  asleep : s.reader.hasEnabled = false →
    s.mIsWriteEnabled = false ∧ s.sendInterrupted = false ∧ s.writer.asleep = true

section Quiet

variable {s s' : ThreadsTcpBroWorker w β} {a : Action w β} {es : List (Event w β)}
variable {context : SocketContext w β}

@[simp] theorem asleep_notify (pc : WritePc w β) : pc.notify.asleep = pc.asleep :=
  apply_notify_write WritePc.asleep rfl pc

theorem Quiet.init (hresponse : context.mResponse.bytes = []) : Quiet (init context) where
  mResponse := hresponse
  inHand := nofun
  response := rfl
  asleep := fun _ => ⟨rfl, rfl, rfl⟩

/-- `send_bytes` of nothing makes no call. -/
theorem inSendBytes_of_nil {fd : ℤ} {response : Buffer w β} (hnil : response.bytes = []) :
    inSendBytes fd response (test response.size 0#w) = .interruptionPoint := by
  rw [test_of_le (by simp [hnil])]
  rfl

/-- The read thread does not take back that it has set the flag. -/
theorem Step.hasEnabled (h : Step s a s' es) (hd : DoWorkAgrees s)
    (hread : s'.reader.hasEnabled = false) : s.reader.hasEnabled = false := by
  cases h with
  | startRecv hpc =>
    rw [hd.recvStarted.mp (by rw [hpc]; rfl)]
    rfl
  | readLock hpc => rcases hpc with hpc | hpc <;> rw [hpc] <;> rfl
  | readRecv hpc => rw [hpc]; rfl
  | readWake hpc => rw [hpc]; rfl
  | writeExitNotify => simpa using hread
  | callBody => simpa using hread
  | _ =>
    first
    | exact hread
    | have hpc := ‹s.reader = _›
      rw [hpc]
      rfl
    | cases hread

/-- **Nothing is put into an unattended worker** that it could send. -/
theorem Quiet.step (h : Step s a s' es) (hd : DoWorkAgrees s) (hidle : Idle s) (hi : Quiet s)
    (hok : Unattended s a) : Quiet s' where
  mResponse := by
    cases h with
    | callBody hpc => cases (hidle _).symm.trans hpc
    | _ => exact hi.mResponse
  inHand := by
    cases h with
    | writeCopy =>
      rintro _ ⟨⟩
      exact hi.mResponse
    | writeUnlockResponse hpc =>
      rintro _ ⟨⟩
      exact hi.inHand _ (by rw [hpc]; rfl)
    | writeCallSend => exact fun _ heq => absurd heq (by simp)
    | writeSend => exact fun _ heq => absurd heq (by simp)
    | writeWake => simpa using hi.inHand
    | readExitNotify => simpa using hi.inHand
    | callBody hpc => cases (hidle _).symm.trans hpc
    | _ =>
      first
      | exact hi.inHand
      | rintro _ ⟨⟩
  response := by
    cases h with
    | writeCallSend hpc =>
      rw [inSendBytes_of_nil (hi.inHand _ (by rw [hpc]; rfl))]
      rfl
    | writeSend hpc =>
      have hnone := hi.response
      rw [hpc] at hnone
      cases hnone
    | writeWake => simpa using hi.response
    | readExitNotify => simpa using hi.response
    | callBody hpc => cases (hidle _).symm.trans hpc
    | _ =>
      first
      | exact hi.response
      | rfl
  asleep := fun hread => by
    obtain ⟨hflag, hreq, hasleep⟩ := hi.asleep (h.hasEnabled hd hread)
    have hawake {pc : WritePc w β} (hpc : s.writer = pc) (hpast : pc.asleep = false) : False := by
      rw [hpc, hpast] at hasleep
      cases hasleep
    cases h with
    | writeInterrupted _ hset => cases hreq.symm.trans hset
    | writeEnabled _ hset => cases hflag.symm.trans hset
    | writeWake => exact ⟨hflag, hreq, by simpa using hasleep⟩
    | writeCallSend hpc => exact (hawake hpc rfl).elim
    | writeSend hpc => exact (hawake hpc rfl).elim
    | readExitNotify => cases hread
    | callBody hpc => cases (hidle _).symm.trans hpc
    | _ =>
      first
      | exact ⟨hflag, hreq, hasleep⟩
      | exact ⟨hflag, hreq, rfl⟩
      | cases hread
      | have hpc := ‹s.writer = _›
        exact (hawake hpc rfl).elim

/-- No step of it makes a `send`, nor calls `send_bytes` before the read thread wakes the
write thread. -/
theorem Quiet.events (h : Step s a s' es) (hi : Quiet s) :
    ∀ e ∈ es, e.noSend ∧ (s.reader.hasEnabled = false → e.offWire) := by
  have hone {e : Event w β} (he : e.noSend ∧ (s.reader.hasEnabled = false → e.offWire)) :
      ∀ e' ∈ [e], e'.noSend ∧ (s.reader.hasEnabled = false → e'.offWire) := by
    intro e' he'
    obtain rfl := List.mem_singleton.mp he'
    exact he
  cases h with
  | writeCallSend hpc =>
    refine hone ⟨trivial, fun hread => ?_⟩
    have hasleep := (hi.asleep hread).2.2
    rw [hpc] at hasleep
    cases hasleep
  | writeSend hpc =>
    have hnone := hi.response
    rw [hpc] at hnone
    cases hnone
  | _ =>
    first
    | exact List.forall_mem_nil _
    | exact hone ⟨trivial, fun _ => trivial⟩

/-- **What an unattended worker has done**, at a moment of a run. -/
structure HasSentNothing (es : List (Event w β)) (s : ThreadsTcpBroWorker w β) : Prop where
  quiet : Quiet s
  noSend : ∀ e ∈ es, e.noSend
  offWire : s.reader.hasEnabled = false → ∀ e ∈ es, e.offWire

theorem hasSentNothing_of_run (hresponse : context.mResponse.bytes = [])
    (h : (machine w β).Run Unattended (init context) es s) : HasSentNothing es s := by
  refine h.invariant (I := HasSentNothing)
    ⟨.init hresponse, List.forall_mem_nil _, fun _ => List.forall_mem_nil _⟩ ?_
  intro es s a s' es' hrun hi hok hs
  have hstep := Step.of_step hs
  have hd := doWorkAgrees_of_run hrun
  have hevents := hi.quiet.events hstep
  refine ⟨hi.quiet.step hstep hd (idle_of_run hrun) hok, ?_, fun hread => ?_⟩
  · rw [List.forall_mem_append]
    exact ⟨hi.noSend, fun e he => (hevents e he).1⟩
  · have hbefore := hstep.hasEnabled hd hread
    rw [List.forall_mem_append]
    exact ⟨hi.offWire hbefore, fun e he => (hevents e he).2 hbefore⟩

end Quiet

end ThreadsTcpBroWorker

namespace BroServer

/-- Nobody calls a worker of the engine's. -/
def Unattended (_ : BroServer w β) : Action w β → Prop
  | .worker _ (.invoke _ _ _) => False
  | _ => True

instance : DecidableRel (Unattended : BroServer w β → Action w β → Prop)
  | _, .worker _ (.invoke _ _ _) => isFalse id
  | _, .worker _ .doWork | _, .worker _ .reader | _, .worker _ (.recv _)
  | _, .worker _ .wakeReader | _, .worker _ .writer | _, .worker _ (.send _)
  | _, .worker _ .wakeWriter | _, .worker _ (.caller _) | _, .accept _
  | _, .acceptFails => isTrue trivial

section Unattended

variable {type : ContextType} {s : BroServer w β} {es : List (Event w β)}

theorem unattendedWorker_of_run (h : (machine w β type).Run Unattended init es s) {c : ℕ}
    {worker : ThreadsTcpBroWorker w β} (hc : s.workers[c]? = some worker) :
    ∃ client_socket : ℤ,
      (ThreadsTcpBroWorker.machine w β).Run ThreadsTcpBroWorker.Unattended
        (process (accepted type client_socket)) (eventsOf c es) worker := by
  have hworkers : Pool.MembersRun (ThreadsTcpBroWorker.machine w β)
      ThreadsTcpBroWorker.Unattended (Processed type) Event.ofWorker es s.workers := by
    refine guardedWorkers_of_run (fun s c a worker hok _ => ?_) h
    cases a with
    | invoke => exact hok.elim
    | _ => trivial
  obtain ⟨_, ⟨client_socket, _, rfl⟩, hrun⟩ := hworkers.run c worker hc
  exact ⟨client_socket, hrun⟩

/-- **An engine nobody attends to sends nothing**, to none of its clients and in no run,
and keeps all that it receives: `mRequest` is the whole of what has been received from
the client, up to the chunk in the read thread's hands. Until the read thread has come
to its end the write thread sleeps, and has not called `send_bytes`. -/
theorem unattended (h : (machine w β type).Run Unattended init es s) :
    (∀ e ∈ es, e.event.noSend)
      ∧ ∀ (c : ℕ) (worker : ThreadsTcpBroWorker w β), s.workers[c]? = some worker →
        worker.mContext.mRequest ++ worker.reader.chunk
            = ThreadsTcpBroWorker.received (eventsOf c es)
          ∧ (worker.reader.hasEnabled = false →
            worker.writer.asleep = true ∧ ∀ e ∈ eventsOf c es, e.offWire) := by
  refine ⟨fun e he => ?_, fun c worker hc => ?_⟩
  · have hmem : e.event ∈ eventsOf e.connection es :=
      List.mem_filterMap.mpr ⟨e, he, if_pos rfl⟩
    cases hc : s.workers[e.connection]? with
    | none =>
      rw [eventsOf, (workersRun_of_run h).fresh _ (List.getElem?_eq_none_iff.mp hc)] at hmem
      cases hmem
    | some worker =>
      obtain ⟨_, hrun⟩ := unattendedWorker_of_run h hc
      exact (ThreadsTcpBroWorker.hasSentNothing_of_run rfl hrun).noSend _ hmem
  · obtain ⟨_, hrun⟩ := unattendedWorker_of_run h hc
    have hnothing := ThreadsTcpBroWorker.hasSentNothing_of_run rfl hrun
    refine ⟨?_, fun hread => ⟨(hnothing.quiet.asleep hread).2.2, hnothing.offWire hread⟩⟩
    rw [ThreadsTcpBroWorker.request_of_run hrun]
    rfl

end Unattended

open ThreadsTcpBroWorker (times)

/-- Two clients of an engine that calls itself an echo engine. The first sends two bytes
and closes; it has got nothing back when its worker is done. -/
theorem unattended_echoEngine :
    ∃ es s, (ThreadsTcpBroServer.machine 64 ℕ).Run Unattended init es s
      ∧ ThreadsTcpBroWorker.received (eventsOf 0 es) = [1, 2] ∧ (∀ e ∈ es, e.event.noSend) := by
  obtain ⟨es, s, hrun, hreceived⟩ : ∃ es s,
      (ThreadsTcpBroServer.machine 64 ℕ).Run Unattended init es s
      ∧ ThreadsTcpBroWorker.received (eventsOf 0 es) = [1, 2] := by
    refine Machine.Run.exists_of_exec ([.accept 5, .accept 6]
      ++ ofWorker 0 (times 4 .doWork ++ times 6 .reader ++ [.recv (.got [1, 2])]
        ++ times 8 .reader ++ [.recv (.got [])] ++ times 8 .reader ++ times 10 .writer)) ?_
    decide +kernel
  exact ⟨es, s, hrun, hreceived, (unattended hrun).1⟩

end BroServer
