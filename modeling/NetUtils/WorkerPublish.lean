import NetUtils.Mailbox
import NetUtils.WorkerStep

/-!
# Publishing responses

A thread publishes a response by storing it in `mResponse` and calling
`enableWriteEvent()`; the write thread clears the flag, copies `mResponse`
and gives the copy to `send_bytes`. One slot and one flag, under two mutexes:
the worker is a `Mailbox`, and `Step.mailbox` is the simulation. A response
that is overwritten before the write thread copies it is never sent. What
holds of all of them, as long as the connection stays open, is
`delivers_of_run`.

A mailbox does not promise when its reader comes: that a request is there is
all the last response is promised. Whether the write thread wakes up for it is
the subject of `NetUtils.WorkerWakeup`, and that it then is sent that of
`NetUtils.WorkerDelivers`.
-/

open Transfer

variable {w : ℕ} {β : Type}

/-- The read thread has left its loop. -/
def ReadPc.exited : ReadPc β → Bool
  | exit _ => true
  | returned => true
  | _ => false

/-- The write thread has left its loop. -/
def WritePc.exited : WritePc w β → Bool
  | exit _ => true
  | returned => true
  | _ => false

/-- The write thread has cleared the flag and not yet copied the response. -/
def WritePc.aboutToCopy : WritePc w β → Bool
  | unlockWrite => true
  | lockResponse => true
  | copyResponse => true
  | _ => false

/-- The response copied and not yet given to `send_bytes`. -/
def WritePc.inHand : WritePc w β → Option (Buffer w β)
  | unlockResponse response => some response
  | callSend response => some response
  | _ => none

/-- Where a publisher stands: storing a response, after which it enables the
write thread, or doing so. -/
def CallerPc.publishes : CallerPc w β → Prop
  | idle => True
  | inCall _ (.storeResponse _) rest => rest = [.enableWriteEvent]
  | inCall _ .enableWriteEvent rest => rest = []
  | inCall _ _ _ => False

/-- A publisher has stored its response and not yet set the flag. -/
def CallerPc.hasStored : CallerPc w β → Bool
  | inCall .unlock (.storeResponse _) _ => true
  | inCall .lock .enableWriteEvent _ => true
  | inCall .body .enableWriteEvent _ => true
  | _ => false

namespace ThreadsTcpBroWorker

/-- Other threads publish responses and do nothing else, the connection stays
open, and `send_bytes` does not fail. -/
def publishing (s : ThreadsTcpBroWorker w β) : Action w β → Bool
  | .invoke _ (.storeResponse _) [.enableWriteEvent] => true
  | .invoke _ _ _ => false
  | .recv answer => !(afterRecv answer).exited
  | .send answer =>
    match s.writer with
    | .send fd response total_send =>
      !(inSendBytes fd response (IOHelper.sendBody response.size total_send answer)).exited
    | _ => true
  | _ => true

/-- The condition on a step: it is one of a worker whose callers publish. -/
def Publishing (s : ThreadsTcpBroWorker w β) (a : Action w β) : Prop := s.publishing a = true

instance : DecidableRel (Publishing : ThreadsTcpBroWorker w β → Action w β → Prop) :=
  fun _ _ => inferInstanceAs (Decidable (_ = true))

section Open

variable {s s' : ThreadsTcpBroWorker w β} {a : Action w β} {es : List (Event w β)}
variable {context : SocketContext w β}

/-- **Neither thread leaves its loop**, and none has been asked to. -/
structure StaysOpen (s : ThreadsTcpBroWorker w β) : Prop where
  reader : s.reader.exited = false
  writer : s.writer.exited = false
  recvInterrupted : s.recvInterrupted = false
  sendInterrupted : s.sendInterrupted = false

@[simp] theorem exited_notify_read (pc : ReadPc β) : pc.notify.exited = pc.exited :=
  apply_notify_read ReadPc.exited rfl pc

@[simp] theorem exited_notify_write (pc : WritePc w β) : pc.notify.exited = pc.exited :=
  apply_notify_write WritePc.exited rfl pc

/-- Entering `send_bytes` is not failing in it. -/
theorem exited_inSendBytes_test (fd : ℤ) (response : Buffer w β) (len total : BitVec w) :
    (inSendBytes fd response (test len total)).exited = false := by
  unfold test
  split <;> rfl

theorem StaysOpen.step (h : Step s a s' es) (htype : s.mContext.type = .IPV4SocketContext)
    (hok : Publishing s a) (hi : StaysOpen s) : StaysOpen s' := by
  obtain ⟨hr, hw, hir, hiw⟩ := hi
  cases h with
  | readCastIPV6 _ hipv6 => cases htype.symm.trans hipv6
  | writeCastIPV6 _ hipv6 => cases htype.symm.trans hipv6
  | readInterrupted _ hreq => cases hir.symm.trans hreq
  | writeInterrupted _ hreq => cases hiw.symm.trans hreq
  | readRecv => exact ⟨by simpa [Publishing, publishing] using hok, hw, hir, hiw⟩
  | writeCallSend => exact ⟨hr, exited_inSendBytes_test _ _ _ _, hir, hiw⟩
  | writeSend hpc =>
    exact ⟨hr, by simpa [Publishing, publishing, hpc] using hok, hir, hiw⟩
  | readWake => exact ⟨by simpa using hr, hw, hir, hiw⟩
  | writeWake => exact ⟨hr, by simpa using hw, hir, hiw⟩
  | @callBody i call rest hpc => cases call <;> exact ⟨hr, hw, hir, hiw⟩
  | _ =>
    first
    | exact ⟨hr, hw, hir, hiw⟩
    | exact ⟨rfl, hw, hir, hiw⟩
    | exact ⟨hr, rfl, hir, hiw⟩
    | (rw [‹s.reader = _›] at hr; cases hr)
    | (rw [‹s.writer = _›] at hw; cases hw)

/-- While neither thread leaves its loop `mClientFd` stays what it is. -/
theorem Step.mClientFd_eq (h : Step s a s' es) (hi : StaysOpen s) :
    s'.mContext.mClientFd = s.mContext.mClientFd := by
  cases h with
  | readExitClose hpc => exact absurd hi.reader (by rw [hpc]; exact nofun)
  | writeExitClose hpc => exact absurd hi.writer (by rw [hpc]; exact nofun)
  | @callBody i call rest hpc => cases call <;> rfl
  | _ => rfl

/-- **The callers are publishers.** -/
def CallersPublish (s : ThreadsTcpBroWorker w β) : Prop := ∀ i, (s.callers i).publishes

theorem CallersPublish.setCaller (hi : CallersPublish s) {i : ℕ} {pc : CallerPc w β}
    (hpc : pc.publishes) : ∀ j, (Function.update s.callers i pc j).publishes :=
  (Function.forall_update_iff s.callers (fun _ pc => CallerPc.publishes pc)).mpr
    ⟨hpc, fun j _ => hi j⟩

theorem CallersPublish.step (h : Step s a s' es) (hok : Publishing s a)
    (hi : CallersPublish s) : CallersPublish s' := by
  cases h with
  | @invoke i call rest hpc =>
    refine hi.setCaller ?_
    unfold Publishing publishing at hok
    split at hok <;> simp_all [CallerPc.publishes]
  | @callLock i call rest hpc =>
    have hpub := hi i
    rw [hpc] at hpub
    exact hi.setCaller (by cases call <;> exact hpub)
  | @callBody i call rest hpc =>
    have hpub := hi i
    rw [hpc] at hpub
    have hall := hi.setCaller (i := i) (show (CallerPc.inCall .unlock call rest).publishes by
      cases call <;> exact hpub)
    rw [← assign_callers s call] at hall
    exact hall
  | callReturn => exact hi.setCaller trivial
  | @callNext i call next rest hpc =>
    have hpub := hi i
    rw [hpc] at hpub
    refine hi.setCaller ?_
    cases call with
    | storeResponse response =>
      obtain ⟨rfl, rfl⟩ := List.cons.inj hpub
      rfl
    | enableWriteEvent => cases hpub
    | _ => exact hpub.elim
  | _ => exact hi

/-! ## The worker is a mailbox -/

/-- A response has been stored that the write thread is still to copy: its
publisher is about to set the flag, the flag is set, or the write thread has
cleared it. -/
def Requested (s : ThreadsTcpBroWorker w β) : Prop :=
  s.mIsWriteEnabled = true ∨ s.writer.aboutToCopy = true
    ∨ ∃ i, (s.callers i).hasStored = true

/-- The mailbox a worker is. -/
def mailbox (s : ThreadsTcpBroWorker w β) : Mailbox (Buffer w β) where
  slot := s.mContext.mResponse
  requested := s.Requested
  inHand := s.writer.inHand

/-- What an event is to the mailbox. -/
def Event.mailbox : Event w β → Option (Mailbox.Event (Buffer w β))
  | .called _ (.storeResponse response) => some (.stored response)
  | .copied response => some (.copied response)
  | .sendBytes _ response => some (.handed response)
  | _ => none

/-- The history of the mailbox in the events of the worker. -/
def mailboxHistory (es : List (Event w β)) : List (Mailbox.Event (Buffer w β)) :=
  es.filterMap Event.mailbox

/-- A step that leaves the pieces of the mailbox alone. -/
theorem mailbox_quiet (hslot : s'.mContext.mResponse = s.mContext.mResponse)
    (hflag : s'.mIsWriteEnabled = s.mIsWriteEnabled)
    (hcopy : s'.writer.aboutToCopy = s.writer.aboutToCopy)
    (hstored : ∀ i, (s'.callers i).hasStored = (s.callers i).hasStored)
    (hhand : s'.writer.inHand = s.writer.inHand) : Mailbox.Move s.mailbox s'.mailbox [] := by
  refine .quiet hslot ?_ hhand
  simp only [mailbox, Requested, hflag, hcopy, hstored]

/-- A calling thread that moves without a change to what it has stored. -/
theorem hasStored_update {i : ℕ} {pc : CallerPc w β}
    (hpc : pc.hasStored = (s.callers i).hasStored) (j : ℕ) :
    (Function.update s.callers i pc j).hasStored = (s.callers j).hasStored := by
  by_cases hj : j = i
  · rw [hj, Function.update_self, hpc]
  · rw [Function.update_of_ne hj]

@[simp] theorem aboutToCopy_notify (pc : WritePc w β) :
    pc.notify.aboutToCopy = pc.aboutToCopy :=
  apply_notify_write WritePc.aboutToCopy rfl pc

@[simp] theorem inHand_notify (pc : WritePc w β) : pc.notify.inHand = pc.inHand :=
  apply_notify_write WritePc.inHand rfl pc

@[simp] theorem aboutToCopy_inSendBytes (fd : ℤ) (response : Buffer w β) (phase : Phase w) :
    (inSendBytes fd response phase).aboutToCopy = false :=
  inSendBytes_cases (P := fun pc => pc.aboutToCopy = false) fd response phase
    (fun _ => rfl) rfl rfl

@[simp] theorem inHand_inSendBytes (fd : ℤ) (response : Buffer w β) (phase : Phase w) :
    (inSendBytes fd response phase).inHand = none :=
  inSendBytes_cases (P := fun pc => pc.inHand = none) fd response phase
    (fun _ => rfl) rfl rfl

/-- **Each step of a worker is a step of its mailbox.** -/
theorem Step.mailbox (h : Step s a s' es) (hok : Publishing s a) (hd : DoWorkAgrees s)
    (ht : TestedUnderLock s) (hopen : StaysOpen s) (hcallers : CallersPublish s) :
    Mailbox.Move s.mailbox s'.mailbox (mailboxHistory es) := by
  cases h with
  | startSend hpc =>
    have hwriter : s.writer = .unstarted := hd.sendStarted.mp (by rw [hpc]; rfl)
    exact mailbox_quiet rfl rfl (by rw [hwriter]; rfl) (fun _ => rfl) (by rw [hwriter]; rfl)
  | writeClear hpc =>
    -- the request moves from the flag to the program point
    refine .quiet rfl ?_ (by simp only [mailbox, hpc]; rfl)
    exact ⟨fun _ => .inl (ht.writeClear hpc), fun _ => .inr (.inl rfl)⟩
  | writeCopy hpc =>
    refine .copy rfl (.inr (.inl (by rw [hpc]; rfl))) (by simp only [mailbox, hpc]; rfl) rfl
  | writeCallSend hpc =>
    refine .hand _ rfl ?_ (by simp only [mailbox, hpc]; rfl) (inHand_inSendBytes _ _ _)
    simp [mailbox, Requested, hpc, WritePc.aboutToCopy]
  | writeSend hpc =>
    exact mailbox_quiet rfl rfl (by rw [hpc]; exact aboutToCopy_inSendBytes _ _ _)
      (fun _ => rfl) (by rw [hpc]; exact inHand_inSendBytes _ _ _)
  | writeLock hpc =>
    rcases hpc with hpc | hpc <;>
      exact mailbox_quiet rfl rfl (by rw [hpc]; rfl) (fun _ => rfl) (by rw [hpc]; rfl)
  | writeWake =>
    exact mailbox_quiet rfl rfl (aboutToCopy_notify _) (fun _ => rfl) (inHand_notify _)
  | @invoke i call rest hpc =>
    refine mailbox_quiet rfl rfl rfl (hasStored_update (s := s) ?_) rfl
    unfold Publishing publishing at hok
    rw [hpc]
    split at hok <;> simp_all [CallerPc.hasStored]
  | @callLock i call rest hpc =>
    refine mailbox_quiet rfl rfl rfl (hasStored_update (s := s) ?_) rfl
    rw [hpc]
    cases call <;> rfl
  | @callBody i call rest hpc =>
    have hpub := hcallers i
    rw [hpc] at hpub
    cases call with
    | storeResponse response =>
      have hstored : ((((s.assign (.storeResponse response)).setCaller i
          (.inCall .unlock (.storeResponse response) rest)).callers i).hasStored) = true := by
        rw [setCaller_callers, Function.update_self]
        rfl
      exact .store response rfl (.inr (.inr ⟨i, hstored⟩)) rfl
    | enableWriteEvent =>
      refine .quiet rfl ?_ rfl
      exact ⟨fun _ => .inr (.inr ⟨i, by rw [hpc]; rfl⟩), fun _ => .inl rfl⟩
    | _ => exact hpub.elim
  | @callReturn i call hpc =>
    have hpub := hcallers i
    refine mailbox_quiet rfl rfl rfl (hasStored_update (s := s) ?_) rfl
    rw [hpc] at hpub ⊢
    cases call with
    | storeResponse response => cases hpub
    | _ => rfl
  | @callNext i call next rest hpc =>
    have hpub := hcallers i
    refine mailbox_quiet rfl rfl rfl (hasStored_update (s := s) ?_) rfl
    rw [hpc] at hpub ⊢
    cases call with
    | storeResponse response =>
      obtain ⟨rfl, rfl⟩ := List.cons.inj hpub
      rfl
    | enableWriteEvent => cases hpub
    | _ => exact hpub.elim
  | _ =>
    first
    | exact mailbox_quiet rfl rfl rfl (fun _ => rfl) rfl
    | exact mailbox_quiet rfl rfl (by rw [‹s.writer = _›]; rfl) (fun _ => rfl)
        (by rw [‹s.writer = _›]; rfl)
    | exact absurd hopen.reader (by rw [‹s.reader = _›]; exact nofun)

/-! ## Along a run -/

theorem staysOpen_of_run (htype : context.type = .IPV4SocketContext)
    (h : (machine w β).Run Publishing (init context) es s) : StaysOpen s :=
  h.invariant (I := fun _ s => StaysOpen s) ⟨rfl, rfl, rfl, rfl⟩
    (fun hrun hi hok hs => hi.step (Step.of_step hs) ((type_of_run hrun).trans htype) hok)

theorem callersPublish_of_run (h : (machine w β).Run Publishing (init context) es s) :
    CallersPublish s :=
  h.stateInvariant (show CallersPublish (init context) from fun _ => trivial)
    (fun hi hok hs => hi.step (Step.of_step hs) hok)

theorem not_requested_init (context : SocketContext w β) : ¬ (init context).Requested := by
  rintro (hflag | hcopy | ⟨i, hstored⟩)
  · cases hflag
  · cases hcopy
  · cases hstored

end Open

/-- **What publishing delivers.** In every run of a worker whose callers
publish responses while the connection stays open, the responses are those of
a mailbox. -/
theorem delivers_of_run {context : SocketContext w β}
    (htype : context.type = .IPV4SocketContext) {es : List (Event w β)}
    {s : ThreadsTcpBroWorker w β} (h : (machine w β).Run Publishing (init context) es s) :
    s.mailbox.Delivers (mailboxHistory es) := by
  refine h.invariant (I := fun es s => s.mailbox.Delivers (mailboxHistory es)) ?_ ?_
  · rw [mailbox, eq_false (not_requested_init context)]
    exact Mailbox.Delivers.start _
  · intro es s a s' es' hrun hi hok hs
    rw [mailboxHistory, List.filterMap_append]
    exact hi.move ((Step.of_step hs).mailbox hok (doWorkAgrees_of_run hrun)
      (testedUnderLock_of_run hrun) (staysOpen_of_run htype hrun) (callersPublish_of_run hrun))

/-- A response of one byte. -/
def oneByte (b : ℕ) : Buffer 64 ℕ := ⟨[b], by simp⟩

/-- A thread publishes a response of one byte. -/
def publish (b : ℕ) : List (Action 64 ℕ) :=
  .invoke 0 (.storeResponse (oneByte b)) [.enableWriteEvent] :: times 6 (.caller 0)

/-- The write thread sends a response of one byte. -/
def sendOne : List (Action 64 ℕ) := times 10 .writer ++ [.send (.count 1)]

/-- **A response can be overwritten before it is copied.** Two are published
before the write thread comes; it copies and sends the second, the flag is
consumed, and the first is never copied. -/
theorem published_overwritten :
    ∃ es s, (machine 64 ℕ).Run Publishing (init aClient) es s
      ∧ Mailbox.stores (mailboxHistory es) = [oneByte 1, oneByte 2]
      ∧ Mailbox.handed (mailboxHistory es) = [oneByte 2]
      ∧ s.mIsWriteEnabled = false
      ∧ ¬ ∀ r ∈ (Mailbox.stores (mailboxHistory es)).dropLast,
          r ∈ Mailbox.copies (mailboxHistory es) := by
  refine Machine.Run.exists_of_exec
    (times 4 .doWork ++ publish 1 ++ publish 2 ++ sendOne) ?_
  rfl

end ThreadsTcpBroWorker
