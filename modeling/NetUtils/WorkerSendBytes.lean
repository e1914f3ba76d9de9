import NetUtils.BroService
import NetUtils.SendRepeats

/-!
# The `send` calls of a worker are those of `send_bytes`

`IOHelper::send_bytes` is modelled twice. `NetUtils.IOHelper` has it as a function of the
answers of its `send` calls, which is what its contract is about. In a worker it runs in
small steps: each `send` is a step of the write thread, and between two of them the read
thread, the callers and the environment move. `sends_are_sendBytes` says that the two
are one. However the steps are interleaved, the `send` calls of a worker fall into those
of one `send_bytes` call after another, each as the function makes them; so what is
proved of the function holds of the threads, and first of all what it does when a `send`
fails.
-/

open Transfer IOHelper

variable {w : ℕ} {β : Type}

/-- A call of `send_bytes`, as seen from outside. -/
structure SendBytesCall (w : ℕ) (β : Type) where
  /-- The response passed to it. -/
  response : Buffer w β
  /-- Its `send` calls so far. -/
  calls : List (Call IoResult)

namespace SendBytesCall

/-- The answers of its `send` calls. -/
def answers (c : SendBytesCall w β) : List IoResult := c.calls.map (·.result)

/-- What `IOHelper.sendBytes` does over these answers. -/
def outcome (c : SendBytesCall w β) : Outcome IoResult := sendBytes c.response.size c.answers

/-- **The call is one of the function**, and stands at `phase`. -/
structure StandsAt (c : SendBytesCall w β) (phase : Phase w) : Prop where
  /-- The function makes these calls over these answers, -/
  calls : c.outcome.calls = c.calls
  /-- and is there after them. -/
  phase : after (sendBody c.response.size) (test c.response.size 0#w) c.answers = phase
  /-- No `send` has accepted more than it was offered. -/
  within : ∀ call ∈ c.calls, call.result.Within call.length

theorem StandsAt.returned {c : SendBytesCall w β} {phase : Phase w} (h : c.StandsAt phase) :
    c.outcome.returned = phase.answer := by
  rw [outcome, sendBytes, returned_loop, h.phase]

/-- It has just been made. -/
theorem StandsAt.start (response : Buffer w β) :
    StandsAt ⟨response, []⟩ (test response.size 0#w) where
  calls := by
    rw [outcome, answers, List.map_nil, sendBytes]
    cases test response.size 0#w <;> rfl
  phase := after_nil _ _
  within := List.forall_mem_nil _

/-- A `send` of it answers. -/
theorem StandsAt.send {c : SendBytesCall w β} {total : BitVec w} (h : c.StandsAt (.calling total))
    {answer : IoResult} (hwithin : answer.Within (c.response.size - total).toNat) :
    StandsAt ⟨c.response, c.calls ++ [⟨total.toNat, (c.response.size - total).toNat, answer⟩]⟩
      (sendBody c.response.size total answer) := by
  obtain ⟨hphase, hcalls⟩ : _ ∧ (loop c.response.size _ _ _).calls = _ :=
    loop_snoc h.phase answer
  refine ⟨?_, ?_, ?_⟩
  · rw [outcome, answers, List.map_append, List.map_singleton, sendBytes]
    exact hcalls.trans (congrArg (· ++ _) h.calls)
  · rw [answers, List.map_append, List.map_singleton]
    exact hphase
  · rw [List.forall_mem_append]
    refine ⟨h.within, fun call hcall => ?_⟩
    obtain rfl := List.mem_singleton.mp hcall
    exact hwithin

/-- What it has done is what the function does. -/
theorem StandsAt.walked {c : SendBytesCall w β} {phase : Phase w} (h : c.StandsAt phase) :
    Walked c.response.bytes [] c.outcome := by
  refine sendBytes_walked c.response fun call hcall => ?_
  have hmem : call ∈ c.outcome.calls := hcall
  rw [h.calls] at hmem
  exact h.within call hmem

end SendBytesCall

namespace ThreadsTcpBroWorker

/-- One more event, for the calls of `send_bytes` so far, the last one first. -/
def sendEvent (cs : List (SendBytesCall w β)) : Event w β → List (SendBytesCall w β)
  | .sendBytes _ response => ⟨response, []⟩ :: cs
  | .send _ call =>
    match cs with
    | [] => []
    | c :: cs => ⟨c.response, c.calls ++ [call]⟩ :: cs
  | _ => cs

/-- **The calls of `send_bytes`** that some events make up, the last one first. -/
def sendBytesCalls (es : List (Event w β)) : List (SendBytesCall w β) := es.foldl sendEvent []

/-- The `send` call of an event. -/
def Event.call : Event w β → Option (Call IoResult)
  | .send _ call => some call
  | _ => none

/-- The `send` calls of the write thread, in order. -/
def sendCalls (es : List (Event w β)) : List (Call IoResult) := es.filterMap Event.call

/-- **Where the write thread stands among its calls of `send_bytes`**, all of which have
answered `true` but perhaps the last. -/
inductive SendState (s : ThreadsTcpBroWorker w β) : List (SendBytesCall w β) → Prop where
  /-- It is in none of them. -/
  | outside {cs : List (SendBytesCall w β)} (hpc : s.writer.response = none)
      (hcs : ∀ c ∈ cs, c.StandsAt (.returned true)) : SendState s cs
  /-- It is in the last one. -/
  | inside {fd : ℤ} {c : SendBytesCall w β} {total : BitVec w} {cs : List (SendBytesCall w β)}
      (hpc : s.writer = .send fd c.response total) (hc : c.StandsAt (.calling total))
      (hcs : ∀ c ∈ cs, c.StandsAt (.returned true)) : SendState s (c :: cs)
  /-- The last one has answered `false`, and the thread has left its loop. -/
  | gaveUp {c : SendBytesCall w β} {cs : List (SendBytesCall w β)}
      (hpc : s.writer.exited = true) (hc : c.StandsAt (.returned false))
      (hcs : ∀ c ∈ cs, c.StandsAt (.returned true)) : SendState s (c :: cs)

section Steps

variable {s s' : ThreadsTcpBroWorker w β} {a : Action w β} {es : List (Event w β)}
variable {cs : List (SendBytesCall w β)} {context : SocketContext w β}

theorem sendBytesCalls_append (es es' : List (Event w β)) :
    sendBytesCalls (es ++ es') = es'.foldl sendEvent (sendBytesCalls es) := List.foldl_append

theorem foldl_sendEvent_offWire (hnone : ∀ e ∈ es, e.offWire) :
    es.foldl sendEvent cs = cs := by
  induction es generalizing cs with
  | nil => rfl
  | cons e es ih =>
    obtain ⟨he, hes⟩ := List.forall_mem_cons.mp hnone
    have hsame : sendEvent cs e = cs := by
      cases e with
      | sendBytes => cases he
      | send => cases he
      | _ => rfl
    rw [List.foldl_cons, hsame]
    exact ih hes

/-- At a `send` the write thread stays until it is answered. -/
theorem Step.keeps_send (h : Step s a s' es) {fd : ℤ} {response : Buffer w β}
    {total : BitVec w} (hd : DoWorkAgrees s) (hpc : s.writer = .send fd response total) :
    s'.writer = s.writer ∨ ∃ answer, a = .send answer := by
  cases h with
  | startSend hstart => cases hpc.symm.trans (hd.sendStarted.mp (by rw [hstart]; rfl))
  | writeSend => exact .inr ⟨_, rfl⟩
  | readExitNotify =>
    refine .inl ?_
    rw [notifyWrite_writer, hpc]
    rfl
  | callBody => exact .inl (assign_writer s _)
  | writeLock hat => rcases hat with hat | hat <;> cases hpc.symm.trans hat
  | _ =>
    first
    | exact .inl rfl
    | have hat := ‹s.writer = _›
      cases hpc.symm.trans hat

/-- The write thread goes on with the call it is in. -/
theorem SendState.of_inSendBytes {fd : ℤ} {c : SendBytesCall w β} {phase : Phase w}
    (hpc : s.writer = inSendBytes fd c.response phase) (hc : c.StandsAt phase)
    (hcs : ∀ c ∈ cs, c.StandsAt (.returned true)) : SendState s (c :: cs) := by
  match phase, hpc, hc with
  | .calling total, hpc, hc => exact .inside hpc hc hcs
  | .returned true, hpc, hc =>
    refine .outside (by rw [hpc]; rfl) ?_
    exact List.forall_mem_cons.mpr ⟨hc, hcs⟩
  | .returned false, hpc, hc => exact .gaveUp (by rw [hpc]; rfl) hc hcs

theorem SendState.step (h : Step s a s' es) (hd : DoWorkAgrees s) (hi : SendState s cs) :
    SendState s' (es.foldl sendEvent cs) := by
  cases h.onWire hd with
  | quiet hnone hresponse hrest hexited =>
    rw [foldl_sendEvent_offWire hnone]
    cases hi with
    | outside hpc hcs => exact .outside (hresponse.trans hpc) hcs
    | inside hpc hc hcs =>
      rcases h.keeps_send hd hpc with hsame | ⟨answer, rfl⟩
      · exact .inside (hsame.trans hpc) hc hcs
      · cases h with
        | writeSend => exact ((hnone _ List.mem_cons_self : False)).elim
    | gaveUp hpc hc hcs =>
      refine .gaveUp ?_ hc hcs
      by_contra hinside
      rw [hexited (Bool.of_not_eq_true hinside)] at hpc
      cases hpc
  | @call response hpc hpc' =>
    have hcs : ∀ c ∈ cs, c.StandsAt (.returned true) := by
      cases hi with
      | outside _ hcs => exact hcs
      | inside hat => cases hpc.symm.trans hat
      | gaveUp hexited =>
        rw [hpc] at hexited
        cases hexited
    exact .of_inSendBytes (c := ⟨response, []⟩) hpc' (.start response) hcs
  | @send fd response total answer hpc hanswer hpc' =>
    cases hi with
    | outside hat =>
      rw [hpc] at hat
      cases hat
    | gaveUp hexited =>
      rw [hpc] at hexited
      cases hexited
    | @inside _ c _ cs hat hc hcs =>
      cases hpc.symm.trans hat
      exact .of_inSendBytes hpc' (hc.send hanswer.1) hcs

theorem sendState_of_run {ok : ThreadsTcpBroWorker w β → Action w β → Prop}
    (h : (machine w β).Run ok (init context) es s) : SendState s (sendBytesCalls es) := by
  refine h.invariant (I := fun es s => SendState s (sendBytesCalls es))
    (.outside rfl (List.forall_mem_nil _)) ?_
  intro es s a s' es' hrun hi _ hs
  rw [sendBytesCalls_append]
  exact hi.step (Step.of_step hs) (doWorkAgrees_of_run hrun)

/-- Where the write thread stands, each of its calls is one of the function. -/
theorem SendState.standsAt (h : SendState s cs) : ∀ c ∈ cs, ∃ phase, c.StandsAt phase := by
  cases h with
  | outside _ hcs => exact fun c hc => ⟨_, hcs c hc⟩
  | inside _ hc hcs =>
    exact List.forall_mem_cons.mpr ⟨⟨_, hc⟩, fun c hc => ⟨_, hcs c hc⟩⟩
  | gaveUp _ hc hcs =>
    exact List.forall_mem_cons.mpr ⟨⟨_, hc⟩, fun c hc => ⟨_, hcs c hc⟩⟩

theorem SendState.tail (h : SendState s cs) : ∀ c ∈ cs.tail, c.StandsAt (.returned true) := by
  cases h with
  | outside _ hcs => exact fun c hc => hcs c (List.mem_of_mem_tail hc)
  | inside _ _ hcs => exact hcs
  | gaveUp _ _ hcs => exact hcs

theorem SendState.exited (h : SendState s cs) {c : SendBytesCall w β} (hc : c ∈ cs)
    (hfalse : c.outcome.returned = some false) : s.writer.exited = true := by
  have htrue {c : SendBytesCall w β} {cs : List (SendBytesCall w β)}
      (hcs : ∀ c ∈ cs, c.StandsAt (.returned true)) (hc : c ∈ cs)
      (hfalse : c.outcome.returned = some false) : False := by
    rw [(hcs c hc).returned] at hfalse
    cases hfalse
  cases h with
  | outside _ hcs => exact (htrue hcs hc hfalse).elim
  | inside _ hcalling hcs =>
    rcases List.mem_cons.mp hc with rfl | hc
    · rw [hcalling.returned] at hfalse
      cases hfalse
    · exact (htrue hcs hc hfalse).elim
  | gaveUp hpc => exact hpc

/-- Events that are not on the wire hand on nothing. -/
theorem nothing_offWire (hnone : ∀ e ∈ es, e.offWire) :
    sendCalls es = [] ∧ Mailbox.handed (mailboxHistory es) = [] := by
  induction es with
  | nil => exact ⟨rfl, rfl⟩
  | cons e es ih =>
    obtain ⟨he, hes⟩ := List.forall_mem_cons.mp hnone
    obtain ⟨hcalls, hhanded⟩ := ih hes
    cases e with
    | sendBytes => cases he
    | send => cases he
    | called i call => cases call <;> exact ⟨hcalls, hhanded⟩
    | _ => exact ⟨hcalls, hhanded⟩

theorem handed_append (es es' : List (Event w β)) :
    Mailbox.handed (mailboxHistory (es ++ es'))
      = Mailbox.handed (mailboxHistory es) ++ Mailbox.handed (mailboxHistory es') := by
  rw [mailboxHistory, mailboxHistory, mailboxHistory, List.filterMap_append, Mailbox.handed,
    Mailbox.handed, Mailbox.handed, List.filterMap_append]

/-- What a step adds to the calls of `send_bytes`. -/
theorem SendState.adds (h : Step s a s' es) (hd : DoWorkAgrees s) (hi : SendState s cs) :
    (es.foldl sendEvent cs).reverse.flatMap (·.calls)
        = cs.reverse.flatMap (·.calls) ++ sendCalls es
      ∧ (es.foldl sendEvent cs).reverse.map (·.response)
        = cs.reverse.map (·.response) ++ Mailbox.handed (mailboxHistory es) := by
  cases h.onWire hd with
  | quiet hnone =>
    obtain ⟨hcalls, hhanded⟩ := nothing_offWire hnone
    rw [foldl_sendEvent_offWire hnone, hcalls, hhanded, List.append_nil, List.append_nil]
    exact ⟨rfl, rfl⟩
  | call hpc =>
    simp [sendEvent, sendCalls, Event.call, mailboxHistory, Event.mailbox, Mailbox.handed,
      Mailbox.Event.handed?]
  | send hpc =>
    cases hi with
    | outside hat =>
      rw [hpc] at hat
      cases hat
    | gaveUp hexited =>
      rw [hpc] at hexited
      cases hexited
    | inside =>
      simp [sendEvent, sendCalls, Event.call, mailboxHistory, Event.mailbox, Mailbox.handed]

/-- The `send` calls of the write thread are those of its calls of `send_bytes`, and what
is passed to these is what has been handed on from the mailbox. -/
theorem sendBytesCalls_of_run {ok : ThreadsTcpBroWorker w β → Action w β → Prop}
    (h : (machine w β).Run ok (init context) es s) :
    (sendBytesCalls es).reverse.flatMap (·.calls) = sendCalls es
      ∧ (sendBytesCalls es).reverse.map (·.response) = Mailbox.handed (mailboxHistory es) := by
  refine h.invariant (I := fun es _ => (sendBytesCalls es).reverse.flatMap (·.calls) = sendCalls es
    ∧ (sendBytesCalls es).reverse.map (·.response) = Mailbox.handed (mailboxHistory es))
    ⟨rfl, rfl⟩ ?_
  rintro es s a s' es' hrun ⟨hcalls, hresponses⟩ _ hs
  obtain ⟨hcalls', hresponses'⟩ :=
    (sendState_of_run hrun).adds (Step.of_step hs) (doWorkAgrees_of_run hrun)
  rw [sendBytesCalls_append, hcalls', hresponses', hcalls, hresponses, handed_append, sendCalls,
    sendCalls, sendCalls, List.filterMap_append]
  exact ⟨rfl, rfl⟩

end Steps

/-- **The `send` calls of a worker are those of `send_bytes`**, in every run and however
its steps are interleaved: those of one call after another, each as the function makes
them. Each call but the last has answered `true`. What has answered `true` has delivered
its response, with a byte repeated for each failure, or has walked back to the start; and
after a `false` the write thread is out of its loop. -/
theorem sends_are_sendBytes {context : SocketContext w β} {es : List (Event w β)}
    {s : ThreadsTcpBroWorker w β} (h : (machine w β).Run Machine.always (init context) es s) :
    (sendBytesCalls es).reverse.flatMap (·.calls) = sendCalls es
      ∧ (sendBytesCalls es).reverse.map (·.response) = Mailbox.handed (mailboxHistory es)
      ∧ (∀ c ∈ sendBytesCalls es, c.outcome.calls = c.calls)
      ∧ (∀ c ∈ (sendBytesCalls es).tail, c.outcome.returned = some true)
      ∧ (∀ c ∈ sendBytesCalls es, c.outcome.returned = some true →
        Repeats c.response.bytes c.calls c.response.bytes.length ∨ WalksBack c.calls)
      ∧ ∀ c ∈ sendBytesCalls es, c.outcome.returned = some false → s.writer.exited = true := by
  have hi := sendState_of_run h
  obtain ⟨hcalls, hresponses⟩ := sendBytesCalls_of_run h
  refine ⟨hcalls, hresponses, fun c hc => ?_, fun c hc => ?_, fun c hc htrue => ?_,
    fun c hc hfalse => hi.exited hc hfalse⟩
  · obtain ⟨_, hat⟩ := hi.standsAt c hc
    exact hat.calls
  · rw [(hi.tail c hc).returned]
    rfl
  · obtain ⟨_, hat⟩ := hi.standsAt c hc
    rw [← hat.calls]
    exact hat.walked.ofTrue htrue

/-- A response of two bytes is sent while the peer takes one byte, then would block, then
takes both; the client has been sent three bytes. -/
theorem sends_are_sendBytes_wouldBlock :
    ∃ es s, (machine 64 ℕ).Run Machine.always (init aClient) es s
      ∧ sendCalls es = [⟨0, 2, .count 1⟩, ⟨1, 1, .error .EAGAIN⟩, ⟨0, 2, .count 2⟩]
      ∧ ∀ c ∈ sendBytesCalls es, c.outcome.returned = some true →
        Repeats c.response.bytes c.calls c.response.bytes.length ∨ WalksBack c.calls := by
  obtain ⟨es, s, hrun, hcalls⟩ : ∃ es s, (machine 64 ℕ).Run Machine.always (init aClient) es s
      ∧ sendCalls es = [⟨0, 2, .count 1⟩, ⟨1, 1, .error .EAGAIN⟩, ⟨0, 2, .count 2⟩] := by
    refine Machine.Run.exists_of_exec (times 4 .doWork
      ++ .invoke 0 (.storeResponse ⟨[1, 2], by decide⟩) [.enableWriteEvent] :: times 6 (.caller 0)
      ++ times 10 .writer
      ++ [.send (.count 1), .send (.error .EAGAIN), .send (.count 2)]) ?_
    decide +kernel
  exact ⟨es, s, hrun, hcalls, (sends_are_sendBytes hrun).2.2.2.2.1⟩

end ThreadsTcpBroWorker
