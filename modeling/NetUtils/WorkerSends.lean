import NetUtils.WorkerClose
import NetUtils.WorkerPublish

/-!
# Each send answers a request

`mIsWriteEnabled` serves two ends. A caller sets it to have `mResponse` sent,
and the read thread's scope-exit handler sets it to wake the write thread for
the last time; and `mResponse` is never cleared, so the write thread woken
for the last time has an old response to send. What keeps it from the client
is an order in either thread: the handler stores `INVALID_FD` before it sets
the flag, and the write thread clears the flag before it loads the
descriptor.

So a flag set while the descriptor is still there is a caller's, and setting
it earns one send: `sends_le_requests_of_run` counts the sends made and the
one still pending against the calls of `enableWriteEvent()`. That what is
sent is one value of `mResponse`, held after the flag was consumed, is
`carries_of_run`.
-/

open Transfer

variable {w : ℕ} {β : Type}

/-- The read thread's handler has stored `INVALID_FD`, and the thread has not
returned. -/
def ReadPc.hasInvalidated : ReadPc β → Bool
  | exit e => e.closed
  | _ => false

/-- The write thread has cleared the flag and not yet called `send_bytes`. -/
def WritePc.hasConsumed : WritePc w β → Bool
  | unlockWrite => true
  | lockResponse => true
  | copyResponse => true
  | unlockResponse _ => true
  | callSend _ => true
  | _ => false

namespace ThreadsTcpBroWorker

/-- `send_bytes` is called with a descriptor that is not `INVALID_FD`. -/
def Event.isSend : Event w β → Bool
  | .sendBytes fd _ => decide (fd ≠ INVALID_FD)
  | _ => false

/-- Another thread calls `enableWriteEvent()`. -/
def Event.isRequest : Event w β → Bool
  | .called _ .enableWriteEvent => true
  | _ => false

/-- The `send_bytes` calls that reach a client. -/
def sends (es : List (Event w β)) : ℕ := es.countP Event.isSend

/-- The calls of `enableWriteEvent()` by other threads. -/
def requests (es : List (Event w β)) : ℕ := es.countP Event.isRequest

/-- The sends that are still to come: one for the flag, and one for the write
thread between clearing it and calling `send_bytes`. -/
def pending (s : ThreadsTcpBroWorker w β) : ℕ :=
  s.mIsWriteEnabled.toNat + s.writer.hasConsumed.toNat

section Counting

variable {s s' : ThreadsTcpBroWorker w β} {a : Action w β} {es es' : List (Event w β)}
variable {context : SocketContext w β}
variable {ok : ThreadsTcpBroWorker w β → Action w β → Prop}

theorem sends_append (es es' : List (Event w β)) :
    sends (es ++ es') = sends es + sends es' := List.countP_append

theorem requests_append (es es' : List (Event w β)) :
    requests (es ++ es') = requests es + requests es' := List.countP_append

@[simp] theorem hasInvalidated_notify (pc : ReadPc β) :
    pc.notify.hasInvalidated = pc.hasInvalidated :=
  apply_notify_read ReadPc.hasInvalidated rfl pc

@[simp] theorem hasInvalidated_afterRecv (answer : Received β) :
    (afterRecv answer).hasInvalidated = false :=
  afterRecv_cases (P := fun pc => pc.hasInvalidated = false) answer rfl rfl fun _ => rfl

@[simp] theorem hasConsumed_notify (pc : WritePc w β) :
    pc.notify.hasConsumed = pc.hasConsumed :=
  apply_notify_write WritePc.hasConsumed rfl pc

@[simp] theorem hasConsumed_inSendBytes (fd : ℤ) (response : Buffer w β) (phase : Phase w) :
    (inSendBytes fd response phase).hasConsumed = false :=
  inSendBytes_cases (P := fun pc => pc.hasConsumed = false) fd response phase
    (fun _ => rfl) rfl rfl

/-- **The handler of the read thread has stored `INVALID_FD`** from its close
on, whatever the type of the context. -/
def InvalidatesFirst (s : ThreadsTcpBroWorker w β) : Prop :=
  s.reader.hasInvalidated = true → s.mContext.mClientFd = INVALID_FD

theorem InvalidatesFirst.step (h : Step s a s' es) (hi : InvalidatesFirst s) :
    InvalidatesFirst s' := by
  cases h with
  | readExitClose => exact fun _ => rfl
  | writeExitClose => exact fun _ => rfl
  | readRecv => exact fun hread => absurd hread (by simp)
  | readWake => exact fun hread => hi (by simpa using hread)
  | writeExitNotify => exact fun hread => hi (by simpa using hread)
  | callBody => exact fun hread => by simpa using hi (by simpa using hread)
  | _ =>
    first
    | exact hi
    | exact fun hread => absurd hread Bool.false_ne_true
    | exact fun _ => hi (by rw [‹s.reader = _›]; rfl)

theorem invalidatesFirst_of_run (h : (machine w β).Run ok (init context) es s) :
    InvalidatesFirst s :=
  h.stateInvariant (show InvalidatesFirst (init context) from nofun)
    (fun hi _ hs => hi.step (Step.of_step hs))

/-- Nothing brings a stored `INVALID_FD` back, and no send reaches a client
after it. -/
theorem Step.sends_of_invalid (h : Step s a s' es) (hfd : s.mContext.mClientFd = INVALID_FD) :
    s'.mContext.mClientFd = INVALID_FD ∧ sends es = 0 := by
  cases h with
  | writeCallSend => exact ⟨hfd, by simp [sends, Event.isSend, hfd]⟩
  | readExitClose => exact ⟨rfl, rfl⟩
  | writeExitClose => exact ⟨rfl, rfl⟩
  | callBody => exact ⟨by simpa using hfd, rfl⟩
  | _ => exact ⟨hfd, rfl⟩

/-- **A step earns what it spends.** While the descriptor is there, a send or
a new pending one is paid for by a pending one or by a request. -/
theorem Step.sends_add_pending_le (h : Step s a s' es)
    (hfd : s.mContext.mClientFd ≠ INVALID_FD) (hd : DoWorkAgrees s) (ht : TestedUnderLock s)
    (hr : InvalidatesFirst s) : sends es + s'.pending ≤ s.pending + requests es := by
  have hle (b : Bool) : b.toNat ≤ 1 := Bool.toNat_le b
  cases h with
  | startSend hpc =>
    have hwriter : s.writer = .unstarted := hd.sendStarted.mp (by rw [hpc]; rfl)
    simp [pending, hwriter, sends, requests, WritePc.hasConsumed]
  | readExitEnable hpc => exact absurd (hr (by rw [hpc]; rfl)) hfd
  | readExitNotify => simp [pending, sends, requests]
  | writeWake => simp [pending, sends, requests]
  | writeClear hpc =>
    -- the flag was tested under its mutex, and is still set
    simp [pending, hpc, ht.writeClear hpc, sends, requests, WritePc.hasConsumed]
  | writeCallSend hpc =>
    simp [pending, hpc, sends, requests, WritePc.hasConsumed, Event.isSend, Event.isRequest,
      hfd, Nat.add_comm]
  | writeSend hpc =>
    simp [pending, hpc, sends, requests, WritePc.hasConsumed, Event.isSend, Event.isRequest]
  | writeLock hpc =>
    rcases hpc with hpc | hpc <;> simp [pending, hpc, sends, requests, WritePc.hasConsumed]
  | @callBody i call rest hpc =>
    cases call with
    | enableWriteEvent =>
      have := hle s.mIsWriteEnabled
      simp only [pending, assign, setCaller, enableWriteEvent, sends, requests,
        List.countP_singleton, Event.isSend, Event.isRequest, Bool.toNat_true]
      simp
      omega
    | disbaleWriteEvent =>
      simp [pending, assign, sends, requests, Event.isSend, Event.isRequest]
    | _ => simp [pending, assign, sends, requests, Event.isSend, Event.isRequest]
  | _ =>
    simp [pending, sends, requests, Event.isSend, Event.isRequest, WritePc.hasConsumed, *]

/-- **The sends made are covered** by the requests, and while the descriptor
is there so are the pending ones. -/
structure Covered (es : List (Event w β)) (s : ThreadsTcpBroWorker w β) : Prop where
  sends_le : sends es ≤ requests es
  sends_add_pending_le :
    s.mContext.mClientFd ≠ INVALID_FD → sends es + s.pending ≤ requests es

theorem Covered.step (h : Step s a s' es') (hd : DoWorkAgrees s) (ht : TestedUnderLock s)
    (hr : InvalidatesFirst s) (hi : Covered es s) : Covered (es ++ es') s' := by
  by_cases hfd : s.mContext.mClientFd = INVALID_FD
  · obtain ⟨hfd', hnone⟩ := h.sends_of_invalid hfd
    have hle := hi.sends_le
    refine ⟨?_, fun hne => absurd hfd' hne⟩
    rw [sends_append, requests_append]
    omega
  · have hstep := h.sends_add_pending_le hfd hd ht hr
    have hle := hi.sends_add_pending_le hfd
    have hall : sends (es ++ es') + s'.pending ≤ requests (es ++ es') := by
      rw [sends_append, requests_append]
      omega
    exact ⟨(Nat.le_add_right _ _).trans hall, fun _ => hall⟩

theorem covered_of_run (h : (machine w β).Run ok (init context) es s) : Covered es s :=
  h.invariant (I := Covered) ⟨le_rfl, fun _ => le_rfl⟩
    (fun hrun hi _ hs => hi.step (Step.of_step hs) (doWorkAgrees_of_run hrun)
      (testedUnderLock_of_run hrun) (invalidatesFirst_of_run hrun))

end Counting

/-! ## What is sent -/

/-- The condition on a step: it is not the one in which the write thread
clears the flag. -/
def NotConsuming (s : ThreadsTcpBroWorker w β) (a : Action w β) : Prop :=
  ¬ (a = .writer ∧ s.writer = .clearEnabled)

/-- **The flag was last consumed** in a run to `s`: the run passes a step in
which the write thread clears it, and no later step does. -/
def ConsumedBefore (context : SocketContext w β) (es : List (Event w β))
    (s : ThreadsTcpBroWorker w β) : Prop :=
  ∃ es₀ s₀ s₁ es₁, (machine w β).Run Machine.always (init context) es₀ s₀
    ∧ s₀.writer = .clearEnabled ∧ s₀.step .writer = some (s₁, [])
    ∧ (machine w β).Run NotConsuming s₁ es₁ s ∧ es = es₀ ++ es₁

/-- **`response` was in `mResponse`** at one moment of a run to `s`, after the
flag was last consumed; the write thread then held `mResponseMutex`. -/
def HeldSinceConsumed (context : SocketContext w β) (es : List (Event w β))
    (s : ThreadsTcpBroWorker w β) (response : Buffer w β) : Prop :=
  ∃ es₁ s₁ es₂, ConsumedBefore context es₁ s₁
    ∧ s₁.locks .mResponseMutex = some .sendThread
    ∧ s₁.mContext.mResponse = response
    ∧ (machine w β).Run NotConsuming s₁ es₂ s ∧ es = es₁ ++ es₂

section Carrying

variable {s s' : ThreadsTcpBroWorker w β} {a : Action w β} {es es' : List (Event w β)}
variable {context : SocketContext w β} {response : Buffer w β}

theorem ConsumedBefore.snoc (h : ConsumedBefore context es s) (hok : NotConsuming s a)
    (hs : s.step a = some (s', es')) : ConsumedBefore context (es ++ es') s' := by
  obtain ⟨es₀, s₀, s₁, es₁, hrun, hpc, hclear, hsince, rfl⟩ := h
  exact ⟨es₀, s₀, s₁, es₁ ++ es', hrun, hpc, hclear, hsince.snoc hok hs,
    List.append_assoc _ _ _⟩

theorem HeldSinceConsumed.snoc (h : HeldSinceConsumed context es s response)
    (hok : NotConsuming s a) (hs : s.step a = some (s', es')) :
    HeldSinceConsumed context (es ++ es') s' response := by
  obtain ⟨es₁, s₁, es₂, hbefore, hlock, hresponse, hsince, rfl⟩ := h
  exact ⟨es₁, s₁, es₂ ++ es', hbefore, hlock, hresponse, hsince.snoc hok hs,
    List.append_assoc _ _ _⟩

/-- The write thread is about to copy the response after it has cleared the
flag, and only then. -/
theorem Step.aboutToCopy (h : Step s a s' es) (hcopy : s'.writer.aboutToCopy = true) :
    (a = .writer ∧ s.writer = .clearEnabled) ∨ s.writer.aboutToCopy = true := by
  cases h with
  | writeClear hpc => exact .inl ⟨rfl, hpc⟩
  | writeCallSend => exact absurd hcopy (by simp)
  | writeSend => exact absurd hcopy (by simp)
  | readExitNotify => exact .inr (by simpa using hcopy)
  | writeWake => exact .inr (by simpa using hcopy)
  | callBody => exact .inr (by simpa using hcopy)
  | writeUnlock hpc => exact .inr (by rw [hpc]; rfl)
  | writeLockResponse hpc => exact .inr (by rw [hpc]; rfl)
  | _ =>
    first
    | exact .inr hcopy
    | exact absurd hcopy Bool.false_ne_true

/-- The response in the write thread's hands is the one it has copied. -/
theorem Step.inHand (h : Step s a s' es) (hhand : s'.writer.inHand = some response) :
    (s.writer = .copyResponse ∧ s.mContext.mResponse = response)
      ∨ s.writer.inHand = some response := by
  cases h with
  | writeCopy hpc => exact .inl ⟨hpc, Option.some.inj hhand⟩
  | writeUnlockResponse hpc => exact .inr (by rw [hpc]; exact hhand)
  | writeCallSend => exact absurd hhand (by simp)
  | writeSend => exact absurd hhand (by simp)
  | readExitNotify => exact .inr (by simpa using hhand)
  | writeWake => exact .inr (by simpa using hhand)
  | callBody => exact .inr (by simpa using hhand)
  | _ =>
    first
    | exact .inr hhand
    | cases hhand

/-- The step that clears the flag, where the write thread stands at it. -/
theorem step_clearEnabled (hpc : s.writer = .clearEnabled)
    (hs : s.step .writer = some (s', es')) : s'.writer = .unlockWrite ∧ es' = [] := by
  simp only [step, stepWriter, hpc] at hs
  cases hs
  exact ⟨rfl, rfl⟩

/-- **What the write thread carries**: past the flag it is on a run that has
consumed it, and a response in its hands was in `mResponse` since. -/
structure Carries (context : SocketContext w β) (es : List (Event w β))
    (s : ThreadsTcpBroWorker w β) : Prop where
  aboutToCopy : s.writer.aboutToCopy = true → ConsumedBefore context es s
  inHand : ∀ response, s.writer.inHand = some response →
    HeldSinceConsumed context es s response

theorem Carries.start (context : SocketContext w β) : Carries context [] (init context) where
  aboutToCopy := fun hcopy => absurd hcopy Bool.false_ne_true
  inHand := by rintro _ ⟨⟩

theorem Carries.step (hrun : (machine w β).Run Machine.always (init context) es s)
    (hs : s.step a = some (s', es')) (hi : Carries context es s) :
    Carries context (es ++ es') s' := by
  by_cases hok : NotConsuming s a
  · refine ⟨fun hcopy => ?_, fun response hhand => ?_⟩
    · rcases (Step.of_step hs).aboutToCopy hcopy with hconsumes | hbefore
      · exact absurd hconsumes hok
      · exact (hi.aboutToCopy hbefore).snoc hok hs
    · rcases (Step.of_step hs).inHand hhand with ⟨hpc, hresponse⟩ | hbefore
      · -- the copy is made here, under the mutex
        have hlock : s.locks .mResponseMutex = some .sendThread :=
          (agrees_of_run hrun _ _).mpr (held_writer hpc)
        have hconsumed := hi.aboutToCopy (by rw [hpc]; rfl)
        exact ⟨es, s, es', hconsumed, hlock, hresponse,
          by simpa using Machine.Run.start.snoc hok hs, rfl⟩
      · exact (hi.inHand response hbefore).snoc hok hs
  · -- the flag is consumed anew
    obtain ⟨rfl, hpc⟩ := not_not.mp hok
    obtain ⟨hpc', rfl⟩ := step_clearEnabled hpc hs
    refine ⟨fun _ => ⟨es, s, s', [], hrun, hpc, hs, .start, rfl⟩, fun response hhand => ?_⟩
    rw [hpc'] at hhand
    cases hhand

theorem carries_of_run (h : (machine w β).Run Machine.always (init context) es s) :
    Carries context es s :=
  h.invariant (I := Carries context) (Carries.start context)
    (fun hrun hi _ hs => hi.step hrun hs)

/-- A `send_bytes` call is made with the response in hand. -/
theorem Step.inHand_of_sendBytes (h : Step s a s' es) {fd : ℤ}
    (hmem : .sendBytes fd response ∈ es) :
    s.writer.inHand = some response ∧ fd = s.mContext.mClientFd := by
  cases h with
  | writeCallSend hpc =>
    obtain ⟨rfl, rfl⟩ := Event.sendBytes.inj (List.mem_singleton.mp hmem)
    exact ⟨by rw [hpc]; rfl, rfl⟩
  | destroyOpen => cases List.mem_singleton.mp hmem
  | readRecv => cases List.mem_singleton.mp hmem
  | readExitClose => cases List.mem_singleton.mp hmem
  | writeCopy => cases List.mem_singleton.mp hmem
  | writeSend => cases List.mem_singleton.mp hmem
  | writeExitClose => cases List.mem_singleton.mp hmem
  | callBody => cases List.mem_singleton.mp hmem
  | _ => cases hmem

end Carrying

/-- **No response is sent without a request, and none is torn.** In every run
of a worker the `send_bytes` calls that reach a client are no more than the
calls of `enableWriteEvent()` by other threads. What is passed to each
`send_bytes` call is one value `mResponse` had after the flag was last
consumed, at a moment when the write thread held `mResponseMutex` – and while
it does, no other thread is in the middle of storing a response. -/
theorem sends_requested_and_whole {context : SocketContext w β} {es : List (Event w β)}
    {s : ThreadsTcpBroWorker w β}
    (h : (machine w β).Run Machine.always (init context) es s) :
    sends es ≤ requests es
      ∧ (∀ a s' es' fd response, s.step a = some (s', es') →
        .sendBytes fd response ∈ es' → HeldSinceConsumed context es s response)
      ∧ (s.locks .mResponseMutex = some .sendThread →
        ∀ i, (s.callers i).held ≠ some .mResponseMutex) := by
  refine ⟨(covered_of_run h).sends_le, fun a s' es' fd response hs hmem => ?_, fun hlock i hi => ?_⟩
  · have hhand := ((Step.of_step hs).inHand_of_sendBytes hmem).1
    exact (carries_of_run h).inHand response hhand
  · have hagrees := agrees_of_run h
    have hwriter := (hagrees _ _).mp hlock
    cases hagrees.unique (u := .caller i) hwriter hi

/-- The write thread sends the response that was asked for; then the peer
closes, and it is woken and calls `send_bytes` once more, on `INVALID_FD`. -/
def sendOnceAndClose : List (Action 64 ℕ) :=
  times 4 .doWork ++ publish 7 ++ sendOne ++ times 6 .reader ++ [.recv (.got [])]
    ++ times 6 .reader ++ times 9 .writer

/-- Two `send_bytes` calls, one request, and one of the calls reaches the
client. -/
theorem sends_requested_and_whole_sendOnceAndClose :
    ∃ es s, (machine 64 ℕ).Run Machine.always (init aClient) es s
      ∧ Mailbox.handed (mailboxHistory es) = [oneByte 7, oneByte 7]
      ∧ sends es = 1 ∧ sends es ≤ requests es := by
  obtain ⟨es, s, hrun, hhanded, hsends⟩ :
      ∃ es s, (machine 64 ℕ).Run Machine.always (init aClient) es s
        ∧ Mailbox.handed (mailboxHistory es) = [oneByte 7, oneByte 7] ∧ sends es = 1 := by
    refine Machine.Run.exists_of_exec sendOnceAndClose ?_
    rfl
  exact ⟨es, s, hrun, hhanded, hsends, (sends_requested_and_whole hrun).1⟩

end ThreadsTcpBroWorker
