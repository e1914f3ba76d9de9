import NetUtils.HandleWaits
import NetUtils.Inevitable
import NetUtils.IPV4Echo

/-!
# The echo comes to its end

`NetUtils.IPV4Echo` says that nothing is echoed but what was received, in order.
This module says that it all is: while the client sends nothing more, and every
`send` on its connection takes some bytes, the two threads of the handler come
to rest, the read thread in `recv` and the write thread in its wait with the
queue empty, and by then every byte received has been accepted for sending.

That they come to rest rests on `WaitsOnEmpty` – the write thread does not go to
sleep on a message – and on a measure of the work that is left, in which a
message costs a step for each of its bytes and a few more. Both are those of
either handler. The IPv6 handler may in the end take from an empty queue
(`NetUtils.HandleQueue`) instead of coming to rest, but all has been sent by
then (`inevitable_sent`).
-/

open Transfer IOHelper

variable {w : ℕ}

/-- The work a message in the queue means: a call for each byte at most, a
reading of `mClientFd` before it, and what is done around them. -/
def Transfer.Buffer.work (m : Buffer w UInt8) : ℕ := 7 + 2 * m.bytes.length

/-- What `doWork` has to do until both threads run. -/
def HandleMainPc.work : HandleMainPc → ℕ
  | startRead => 2
  | startWrite => 1
  | _ => 0

/-- The read thread is in its loop, or about to begin it. -/
def HandleReadPc.serves : HandleReadPc w → Bool
  | unstarted => true
  | loadFd => true
  | recv _ => true
  | lock _ => true
  | push _ => true
  | unlock => true
  | notify => true
  | _ => false

/-- The read thread is in `recv`. -/
def HandleReadPc.receives : HandleReadPc w → Bool
  | recv _ => true
  | _ => false

/-- What the read thread has to do until it is in `recv`. A notification gives
the write thread work. -/
def HandleReadPc.work : HandleReadPc w → ℕ
  | unstarted => 1
  | loadFd => 1
  | lock recv_msg => 8 + recv_msg.work
  | push recv_msg => 7 + recv_msg.work
  | unlock => 6
  | notify => 5
  | _ => 0

/-- The write thread is in its loop, or about to begin it. -/
def HandleWritePc.serves : HandleWritePc w → Bool
  | exitUnlock => false
  | loadClose => false
  | close _ => false
  | storeInvalid => false
  | returned => false
  | _ => true

/-- What the write thread has to do until it waits, besides the messages in the
queue. -/
def HandleWritePc.work : HandleWritePc w → ℕ
  | unstarted => 3
  | lock => 3
  | testEmpty => 2
  | enterWait => 1
  | notified => 3
  | checkFd => 1
  | unlock send_msg => 6 + 2 * send_msg.bytes.length
  | loadFd send_msg total_send => 5 + 2 * (send_msg.bytes.length - total_send.toNat)
  | send _ send_msg total_send => 4 + 2 * (send_msg.bytes.length - total_send.toNat)
  | checkDone => 4
  | _ => 0

namespace ThreadsClientHandle

/-- **The handler serves its client**: the connection is open, and neither
thread has left its loop. -/
structure Serving (s : ThreadsClientHandle w) : Prop where
  isOpen : s.isOpen = true
  reader : s.reader.serves = true
  writer : s.writer.serves = true

/-- The handler is at rest: the read thread is in `recv`, and the write thread
waits with nothing queued. -/
def Idle (s : ThreadsClientHandle w) : Prop :=
  s.reader.receives = true ∧ s.writer = .waiting ∧ s.mMessageQueue = []

/-- The condition on a step: nothing is received, every `send` takes some bytes,
and no wake-up is spurious. -/
def Quiet (_ : ThreadsClientHandle w) : Action → Prop
  | .recv _ _ => False
  | .send answer => 0 < answer.transferred
  | .wakeWriter => False
  | _ => True

/-- The condition on a step: `recv` gives some bytes, or has none yet, and every
`send` takes some. -/
def DataFlows (_ : ThreadsClientHandle w) : Action → Prop
  | .recv (.got chunk) _ => chunk ≠ []
  | .recv (.failed e) _ => e = .EAGAIN ∨ e = .EWOULDBLOCK
  | .send answer => 0 < answer.transferred
  | _ => True

/-- The work that is left. -/
def work (s : ThreadsClientHandle w) : ℕ :=
  s.doWork.work + s.reader.work + s.writer.work + (s.mMessageQueue.map Buffer.work).sum

instance (s : ThreadsClientHandle w) : Decidable s.Idle := inferInstanceAs (Decidable (_ ∧ _ ∧ _))

instance : DecidableRel (Quiet : ThreadsClientHandle w → Action → Prop)
  | _, .recv _ _ => instDecidableFalse
  | _, .send _ => inferInstanceAs (Decidable (_ < _))
  | _, .wakeWriter => instDecidableFalse
  | _, .doWork | _, .reader | _, .writer => instDecidableTrue

instance : DecidableRel (DataFlows : ThreadsClientHandle w → Action → Prop)
  | _, .recv (.got _) _ => inferInstanceAs (Decidable (_ ≠ _))
  | _, .recv (.failed _) _ => inferInstanceAs (Decidable (_ ∨ _))
  | _, .send _ => inferInstanceAs (Decidable (_ < _))
  | _, .doWork | _, .reader | _, .writer | _, .wakeWriter => instDecidableTrue

section Completion

variable {s s' : ThreadsClientHandle w} {a : Action} {es es' : List (Event w)}
variable {type : HandleType} {fd : ℤ}

/-! ## A handler that serves goes on serving -/

@[simp] theorem serves_notify (pc : HandleWritePc w) : pc.notify.serves = pc.serves :=
  apply_notify HandleWritePc.serves rfl pc

theorem serves_inSend_test (type : HandleType) (send_msg : Buffer w UInt8) (total : BitVec w) :
    (inSend type send_msg (test send_msg.size total)).serves = true := by
  unfold test
  split
  · rfl
  · cases type <;> rfl

/-- A `recv` that gives some bytes, or has none yet, leaves the read thread in its
loop. -/
theorem serves_afterRecv {answer : Received UInt8} {beyond : List UInt8} {pc : HandleReadPc w}
    (hok : DataFlows s (.recv answer beyond)) (h : afterRecv type answer beyond = some pc) :
    pc.serves = true := by
  unfold afterRecv at h
  split at h
  case h_1 => cases h; rfl
  case h_2 => cases h; rfl
  case h_3 hagain hblock => exact (hok.elim hagain hblock).elim
  case h_4 => exact absurd rfl hok
  case h_5 =>
    obtain ⟨m, -, rfl⟩ := Option.map_eq_some_iff.mp h
    rfl

/-- A quiet step is one on the way of the data. -/
theorem Quiet.flows (hok : Quiet s a) : DataFlows s a := by
  cases a with
  | recv => exact absurd hok id
  | send => exact hok
  | _ => trivial

/-- A `send` that takes some bytes answers a count inside the message. -/
theorem count_of_sendsSome {send_msg : Buffer w UInt8} {total : BitVec w} {answer : IoResult}
    (hlt : total.toNat < send_msg.bytes.length)
    (hanswer : answer.Allowed fd (send_msg.size - total).toNat) (hsome : 0 < answer.transferred) :
    ∃ n, answer = .count n ∧ 0 < n ∧ total.toNat + n ≤ send_msg.size.toNat := by
  cases answer with
  | error e => cases hsome
  | count n =>
    have hwithin := hanswer.1
    rw [IoResult.Within, IoResult.transferred, toNat_left (by simpa using hlt.le)] at hwithin
    refine ⟨n, rfl, hsome, ?_⟩
    rw [Buffer.toNat_size] at hwithin ⊢
    omega

theorem Serving.step (h : Step s a s' es') (hok : DataFlows s a)
    (hrun : (machine w).Run Machine.always (init type fd) es s)
    (hi : Serving s) : Serving s' := by
  obtain ⟨hopen, hr, hw⟩ := hi
  have hclient := holdsClient_of_run hrun hopen
  have hvalid : s.mClientFd ≠ INVALID_FD := hclient.mClientFd ▸ hclient.valid
  have hreads {pc : HandleReadPc w} (hpc : s.reader = pc) (hends : pc.serves = false) : False :=
    Bool.false_ne_true (hends.symm.trans (hpc ▸ hr))
  have hwrites {pc : HandleWritePc w} (hpc : s.writer = pc) (hends : pc.serves = false) : False :=
    Bool.false_ne_true (hends.symm.trans (hpc ▸ hw))
  cases h with
  | startRead => exact ⟨hopen, rfl, hw⟩
  | startWrite => exact ⟨hopen, hr, rfl⟩
  | destroyOpen hpc =>
    exact (hreads ((fieldSound_of_run hrun).joined (by rw [hpc]; rfl)) rfl).elim
  | readRecv _ _ hafter => exact ⟨hopen, serves_afterRecv hok hafter, hw⟩
  | readLoadClose hpc => exact (hreads hpc rfl).elim
  | readClose hpc => exact (hreads hpc rfl).elim
  | readStore hpc => exact (hreads hpc rfl).elim
  | readNotifyEnd hpc => exact (hreads hpc rfl).elim
  | readNotify => exact ⟨hopen, rfl, (serves_notify _).trans hw⟩
  | writeWake => exact ⟨hopen, hr, (serves_notify _).trans hw⟩
  | writeInvalid _ hfd => exact absurd hfd hvalid
  | writeDone _ hfd => exact absurd hfd hvalid
  | writeLoadClose hpc => exact (hwrites hpc rfl).elim
  | writeClose hpc => exact (hwrites hpc rfl).elim
  | writeStoreIPV4 hpc => exact (hwrites hpc rfl).elim
  | writeStoreIPV6 hpc => exact (hwrites hpc rfl).elim
  | writeExitIPV4 hpc => exact (hwrites hpc rfl).elim
  | writeExitIPV6 hpc => exact (hwrites hpc rfl).elim
  | writeUnlock => exact ⟨hopen, hr, serves_inSend_test _ _ _⟩
  | writeSend hpc hanswer =>
    obtain ⟨n, rfl, hpos, hle⟩ :=
      count_of_sendsSome (sendsInside_of_run hrun _ _ (.inr ⟨_, hpc⟩)) hanswer hok
    refine ⟨hopen, hr, ?_⟩
    rw [sendBody_count hpos hle]
    exact serves_inSend_test _ _ _
  | _ =>
    first
    | exact ⟨hopen, hr, hw⟩
    | exact ⟨hopen, rfl, hw⟩
    | exact ⟨hopen, hr, rfl⟩

/-- **A handler serves its client as long as the data flows.** -/
theorem serving_of_run (hfd : fd ≠ INVALID_FD)
    (h : (machine w).Run DataFlows (init type fd) es s) : Serving s := by
  refine h.invariant (I := fun _ s => Serving s) ⟨decide_eq_true hfd, rfl, rfl⟩ ?_
  intro es s a s' es' hrun hi hok hs
  exact hi.step (Step.of_step hs) hok hrun.free

/-! ## The work that is left -/

/-- A notification gives the write thread at most the way back from its wait. -/
theorem work_notify_le (pc : HandleWritePc w) : pc.notify.work ≤ pc.work + 3 := by
  cases pc with
  | waiting => exact le_rfl
  | _ => exact Nat.le_add_right _ _

/-- At the head of the sending loop a step is due for each byte left. -/
theorem work_inSend_test_le (type : HandleType) (send_msg : Buffer w UInt8) (total : BitVec w) :
    (inSend type send_msg (test send_msg.size total)).work
      ≤ 5 + 2 * (send_msg.bytes.length - total.toNat) := by
  unfold test
  split
  · exact le_rfl
  · cases type with
    | IPV4ThreadsClientHandle => exact Nat.le_add_right_of_le (show 4 ≤ 5 by decide)
    | IPV6ThreadsClientHandle => exact Nat.le_add_right_of_le (show 3 ≤ 5 by decide)

/-- A step of the write thread that leaves the rest alone. -/
theorem work_lt_of_writer (hmain : s'.doWork = s.doWork) (hreader : s'.reader = s.reader)
    (hqueue : s'.mMessageQueue = s.mMessageQueue) (hlt : s'.writer.work < s.writer.work) :
    s'.work < s.work := by
  rw [work, work, hmain, hreader, hqueue]
  omega

/-- A step of the read thread that leaves the rest alone. -/
theorem work_lt_of_reader (hmain : s'.doWork = s.doWork) (hwriter : s'.writer = s.writer)
    (hqueue : s'.mMessageQueue = s.mMessageQueue) (hlt : s'.reader.work < s.reader.work) :
    s'.work < s.work := by
  rw [work, work, hmain, hwriter, hqueue]
  omega

/-- **Every step of a handler that serves leaves less work.** -/
theorem Step.work_lt (h : Step s a s' es') (hok : Quiet s a)
    (hrun : (machine w).Run Machine.always (init type fd) es s) (hi : Serving s) :
    s'.work < s.work := by
  have hreads {pc : HandleReadPc w} (hpc : s.reader = pc) (hends : pc.serves = false) : False :=
    Bool.false_ne_true (hends.symm.trans (hpc ▸ hi.reader))
  have hwrites {pc : HandleWritePc w} (hpc : s.writer = pc) (hends : pc.serves = false) : False :=
    Bool.false_ne_true (hends.symm.trans (hpc ▸ hi.writer))
  have hnot (hjoined : s.doWork.readJoined = true) : False :=
    hreads ((fieldSound_of_run hrun).joined hjoined) rfl
  cases h with
  | startRead hpc =>
    have hreader := (startsOnce_of_run hrun).read.mpr hpc
    simp [work, hpc, hreader, HandleMainPc.work, HandleReadPc.work]
  | startWrite hpc =>
    have hwriter := (startsOnce_of_run hrun).write.mpr (.inr hpc)
    simp [work, hpc, hwriter, HandleMainPc.work, HandleWritePc.work]
  | joinRead _ hreader => exact (hreads hreader rfl).elim
  | joinWrite _ hwriter => exact (hwrites hwriter rfl).elim
  | destroyClosed hpc => exact (hnot (by rw [hpc]; rfl)).elim
  | destroyOpen hpc => exact (hnot (by rw [hpc]; rfl)).elim
  | readRecv => exact absurd hok id
  | readLoadClose hpc => exact (hreads hpc rfl).elim
  | readClose hpc => exact (hreads hpc rfl).elim
  | readStore hpc => exact (hreads hpc rfl).elim
  | readNotifyEnd hpc => exact (hreads hpc rfl).elim
  | readPush hpc =>
    simp only [work, hpc, HandleReadPc.work, List.map_append, List.sum_append, List.map_singleton,
      List.sum_singleton]
    omega
  | readNotify hpc =>
    have hle := work_notify_le s.writer
    simp only [work, hpc, HandleReadPc.work, notifyOne_doWork, notifyOne_writer,
      notifyOne_mMessageQueue]
    omega
  | readLoadFd hpc => exact work_lt_of_reader rfl rfl rfl (by rw [hpc]; exact Nat.one_pos)
  | readLock hpc => exact work_lt_of_reader rfl rfl rfl (by simp [hpc, HandleReadPc.work])
  | readUnlock hpc => exact work_lt_of_reader rfl rfl rfl (by simp [hpc, HandleReadPc.work])
  | writeTake hpc hqueue =>
    simp only [work, hpc, hqueue, HandleWritePc.work, List.map_cons, List.sum_cons, Buffer.work]
    omega
  | writeUnlock hpc =>
    refine work_lt_of_writer rfl rfl rfl (Nat.lt_of_le_of_lt (work_inSend_test_le _ _ _) ?_)
    simp [hpc, HandleWritePc.work]
  | @writeSend _ send_msg total_send _ hpc hanswer =>
    have hlt := sendsInside_of_run hrun _ _ (.inr ⟨_, hpc⟩)
    obtain ⟨n, rfl, hpos, hle⟩ := count_of_sendsSome hlt hanswer hok
    refine work_lt_of_writer rfl rfl rfl ?_
    have hnext := work_inSend_test_le s.type send_msg (total_send + BitVec.ofNat w n)
    rw [toNat_advance hle] at hnext
    show (inSend s.type send_msg (sendBody send_msg.size total_send (.count n))).work < _
    rw [sendBody_count hpos hle, hpc, HandleWritePc.work]
    rw [Buffer.toNat_size] at hle
    omega
  | writeWake => exact absurd hok id
  | writeLoadClose hpc => exact (hwrites hpc rfl).elim
  | writeClose hpc => exact (hwrites hpc rfl).elim
  | writeStoreIPV4 hpc => exact (hwrites hpc rfl).elim
  | writeStoreIPV6 hpc => exact (hwrites hpc rfl).elim
  | writeExitIPV4 hpc => exact (hwrites hpc rfl).elim
  | writeExitIPV6 hpc => exact (hwrites hpc rfl).elim
  | _ =>
    refine work_lt_of_writer rfl rfl rfl ?_
    rw [‹s.writer = _›]
    simp [HandleWritePc.work]

/-! ## Somebody can move until the handler is at rest -/

/-- In `recv` the read thread does not hold the mutex. -/
theorem holds_of_receives {pc : HandleReadPc w} (h : pc.receives = true) : pc.holds = false := by
  cases pc with
  | recv f => rfl
  | _ => cases h

/-- The mutex is free while nobody is in a critical section. -/
theorem HoldsWhereHeld.free_of_out (hi : HoldsWhereHeld s) (hr : s.reader.holds = false)
    (hw : s.writer.holds = false) : s.mMutex = none := by
  cases hm : s.mMutex with
  | none => rfl
  | some t =>
    cases t with
    | threadHandleRead => cases hr.symm.trans (hi.reader hm)
    | threadHandleWrite => cases hw.symm.trans (hi.writer hm)

/-- A read thread that is neither in `recv` nor in want of the mutex moves. -/
theorem enabled_reader (hfree : (∃ m, s.reader = .lock m) → s.mMutex = none)
    (hserves : s.reader.serves = true) (hmoves : s.reader.receives = false)
    (hstarted : s.reader ≠ .unstarted) :
    ∃ a next, Quiet s a ∧ (machine w).step s a = some next := by
  cases hpc : s.reader with
  | unstarted => exact absurd hpc hstarted
  | recv f => rw [hpc] at hmoves; cases hmoves
  | lock m =>
    exact ⟨.reader, by simp [Quiet, machine, step, stepReader, hpc, lock, hfree ⟨m, hpc⟩]⟩
  | loadFd => exact ⟨.reader, by simp [Quiet, machine, step, stepReader, hpc]⟩
  | push m => exact ⟨.reader, by simp [Quiet, machine, step, stepReader, hpc]⟩
  | unlock => exact ⟨.reader, by simp [Quiet, machine, step, stepReader, hpc]⟩
  | notify => exact ⟨.reader, by simp [Quiet, machine, step, stepReader, hpc]⟩
  | _ => rw [hpc] at hserves; cases hserves

/-- A write thread that neither waits nor wants the mutex moves, and its `send`
can take all that is left. -/
theorem enabled_writer (hfree : s.writer = .lock ∨ s.writer = .notified → s.mMutex = none)
    (hserves : s.writer.serves = true) (hwaits : s.writer ≠ .waiting)
    (hstarted : s.writer ≠ .unstarted) (hqueue : s.TakesMessage) (hinside : SendsInside s)
    (hvalid : ∀ f, s.writer.fd = some f → f ≠ INVALID_FD) :
    ∃ a next, Quiet s a ∧ (machine w).step s a = some next := by
  cases hpc : s.writer with
  | unstarted => exact absurd hpc hstarted
  | waiting => exact absurd hpc hwaits
  | lock =>
    have hnone := hfree (.inl hpc)
    exact ⟨.writer, by simp [Quiet, machine, step, stepWriter, hpc, lock, hnone]⟩
  | notified =>
    have hnone := hfree (.inr hpc)
    cases htype : s.type with
    | IPV4ThreadsClientHandle =>
      exact ⟨.writer, by simp [Quiet, machine, step, stepWriter, hpc, htype, lock, hnone]⟩
    | IPV6ThreadsClientHandle =>
      exact ⟨.writer, by simp [Quiet, machine, step, stepWriter, hpc, htype, lock, hnone]⟩
  | testEmpty =>
    by_cases hempty : s.mMessageQueue = []
    · exact ⟨.writer, by simp [Quiet, machine, step, stepWriter, hpc, hempty]⟩
    · exact ⟨.writer, by simp [Quiet, machine, step, stepWriter, hpc, hempty]⟩
  | enterWait => exact ⟨.writer, by simp [Quiet, machine, step, stepWriter, hpc]⟩
  | checkFd =>
    by_cases hfd : s.mClientFd = INVALID_FD
    · exact ⟨.writer, by simp [Quiet, machine, step, stepWriter, hpc, hfd]⟩
    · exact ⟨.writer, by simp [Quiet, machine, step, stepWriter, hpc, hfd]⟩
  | takeFront =>
    obtain ⟨m, rest, hcons⟩ := List.exists_cons_of_ne_nil (hqueue hpc)
    exact ⟨.writer, by simp [Quiet, machine, step, stepWriter, hpc, hcons]⟩
  | unlock m => exact ⟨.writer, by simp [Quiet, machine, step, stepWriter, hpc]⟩
  | loadFd m total => exact ⟨.writer, by simp [Quiet, machine, step, stepWriter, hpc]⟩
  | send f m total =>
    have hlt := hinside m total (.inr ⟨f, hpc⟩)
    have hleft : 0 < (m.size - total).toNat := by
      rw [toNat_left (by simpa using hlt.le), Buffer.toNat_size]
      omega
    have hanswer : (IoResult.count (m.size - total).toNat).Allowed f (m.size - total).toNat :=
      ⟨le_rfl, fun hinvalid => absurd hinvalid (hvalid f (by rw [hpc]; rfl))⟩
    have hsome : 0 < (IoResult.count (m.size - total).toNat).transferred := hleft
    refine ⟨.send (.count (m.size - total).toNat), ?_⟩
    simpa only [Quiet, machine, step, stepSend, hpc, if_pos hanswer, Option.some_inj,
      exists_and_left, exists_eq', and_true] using hsome
  | checkDone =>
    by_cases hfd : s.mClientFd = INVALID_FD
    · exact ⟨.writer, by simp [Quiet, machine, step, stepWriter, hpc, hfd]⟩
    · exact ⟨.writer, by simp [Quiet, machine, step, stepWriter, hpc, hfd]⟩
  | _ => rw [hpc] at hserves; cases hserves

/-- **Some thread of a handler that serves can move**, until it is at rest. -/
theorem enabled_of_serving
    (hrun : (machine w).Run Machine.always (init type fd) es s)
    (hi : Serving s) (htakes : s.TakesMessage) (hbusy : ¬ s.Idle) :
    ∃ a next, Quiet s a ∧ (machine w).step s a = some next := by
  have hstarts := startsOnce_of_run hrun
  have hheld := holdsWhereHeld_of_run hrun
  have hclient := holdsClient_of_run hrun hi.isOpen
  by_cases hreader : s.reader = .unstarted
  · have hmain := hstarts.read.mp hreader
    exact ⟨.doWork, by simp [Quiet, machine, step, stepDoWork, hmain]⟩
  by_cases hwriter : s.writer = .unstarted
  · have hmain : s.doWork = .startWrite := by
      rcases hstarts.write.mp hwriter with hmain | hmain
      · exact absurd (hstarts.read.mpr hmain) hreader
      · exact hmain
    exact ⟨.doWork, by simp [Quiet, machine, step, stepDoWork, hmain]⟩
  have hwrites (hwaits : s.writer ≠ .waiting)
      (hfree : s.writer = .lock ∨ s.writer = .notified → s.mMutex = none) :=
    enabled_writer (s := s) hfree hi.writer hwaits hwriter htakes (sendsInside_of_run hrun)
      (fun f hf => hclient.writer f hf ▸ hclient.valid)
  by_cases hreceives : s.reader.receives = true
  · -- the read thread is in `recv`, and so the write thread is not to be notified
    refine hwrites (fun hwaits => hbusy ⟨hreceives, hwaits, ?_⟩) fun hlocks => ?_
    · rcases (waitsOnEmpty_of_run hrun).waiting hwaits with hempty | hpc | hpc
      · exact hempty
      · rw [hpc] at hreceives; cases hreceives
      · rw [hpc] at hreceives; cases hreceives
    · refine hheld.free_of_out (holds_of_receives hreceives) ?_
      rcases hlocks with hpc | hpc <;> rw [hpc] <;> rfl
  · have hmoves : s.reader.receives = false := by simpa using hreceives
    by_cases hlock : ∃ m, s.reader = .lock m
    · cases hholds : s.writer.holds with
      | false =>
        refine enabled_reader ?_ hi.reader hmoves hreader
        rintro ⟨m, hpc⟩
        exact hheld.free_of_out (by rw [hpc]; rfl) hholds
      | true =>
        -- the write thread has the mutex, and moves
        refine hwrites (fun hpc => ?_) (fun hlocks => ?_)
        · rw [hpc] at hholds
          cases hholds
        · rcases hlocks with hpc | hpc <;> rw [hpc] at hholds <;> cases hholds
    · exact enabled_reader (fun h => absurd h hlock) hi.reader hmoves hreader

/-! ## The echo is complete -/

theorem inevitable_idle
    (hrun : (machine w).Run Machine.always (init .IPV4ThreadsClientHandle fd) es s)
    (hi : Serving s) : (machine w).Inevitable Quiet Idle s := by
  refine .of_measure
    (I := fun s => Serving s
      ∧ ∃ es, (machine w).Run Machine.always (init .IPV4ThreadsClientHandle fd) es s)
    work ?_ ?_ ⟨hi, es, hrun⟩
  · rintro s ⟨hi, es, hrun⟩ hbusy
    exact enabled_of_serving hrun hi
      (knowsQueue_of_run (wokenToMessage_of_run hrun)).takeFront hbusy
  · rintro s a s' es' ⟨hi, es, hrun⟩ - hok hs
    have hstep := Step.of_step hs
    exact .inr ⟨⟨hi.step hstep hok.flows hrun, _, hrun.snoc trivial hs⟩,
      hstep.work_lt hok hrun hi⟩

/-- A quiet step makes no message. -/
theorem Step.inHand_of_quiet (h : Step s a s' es') (hok : Quiet s a) (hstart : StartsOnce s)
    (hnone : s.reader.inHand = none) : chunks es' = [] ∧ s'.reader.inHand = none := by
  have hchunks : chunks es' = [] := by
    cases h with
    | readRecv => exact absurd hok id
    | _ => rfl
  refine ⟨hchunks, ?_⟩
  have hmakes := h.makes hstart (f := id) fun chunk hchunk => by
    rw [hchunks] at hchunk
    cases hchunk
  rw [hnone, hchunks, Option.toList_none, List.map_nil, List.append_nil] at hmakes
  exact Option.toList_eq_nil_iff.mp (List.append_eq_nil_iff.mp hmakes).2

/-- **All that has been pushed is sent**, by either handler and on every schedule,
unless the read thread has a message in its hands. -/
theorem inevitable_sent (hrun : (machine w).Run Machine.always (init type fd) es s)
    (hi : Serving s) (hnone : s.reader.inHand = none) :
    (machine w).Inevitable Quiet (fun s => s.outgoing = []) s := by
  refine .of_measure
    (I := fun s => Serving s ∧ s.reader.inHand = none
      ∧ ∃ es, (machine w).Run Machine.always (init type fd) es s)
    work ?_ ?_ ⟨hi, hnone, es, hrun⟩
  · rintro s ⟨hi, -, es, hrun⟩ hleft
    -- a write thread that has come for a message that is not there has sent all
    refine enabled_of_serving hrun hi (fun hpc hqueue => hleft ?_) fun hidle => hleft ?_
    · rw [outgoing, hpc, hqueue]
      rfl
    · rw [outgoing, hidle.2.1, hidle.2.2]
      rfl
  · rintro s a s' es' ⟨hi, hnone, es, hrun⟩ - hok hs
    have hstep := Step.of_step hs
    exact .inr ⟨⟨hi.step hstep hok.flows hrun,
      (hstep.inHand_of_quiet hok (startsOnce_of_run hrun) hnone).2, _, hrun.snoc trivial hs⟩,
      hstep.work_lt hok hrun hi⟩

/-- Nothing is received in a quiet step, and no `send` fails. -/
theorem Step.of_quiet (h : Step s a s' es') (hok : Quiet s a) :
    received es' = [] ∧ NoSendFails s a := by
  cases h with
  | readRecv => exact absurd hok id
  | @writeSend _ _ _ answer =>
    refine ⟨rfl, ?_⟩
    cases answer with
    | error e => cases hok
    | count n => rfl
  | _ => exact ⟨rfl, rfl⟩

/-- A quiet run goes on serving, and receives nothing. -/
theorem serving_of_quiet
    (hrun : (machine w).Run NoSendFails (init .IPV4ThreadsClientHandle fd) es s)
    (hi : Serving s) (h : (machine w).Run Quiet s es' s') :
    (machine w).Run NoSendFails (init .IPV4ThreadsClientHandle fd) (es ++ es') s'
      ∧ Serving s' ∧ received es' = [] := by
  refine h.invariant (I := fun es' s' =>
    (machine w).Run NoSendFails (init .IPV4ThreadsClientHandle fd) (es ++ es') s'
      ∧ Serving s' ∧ received es' = []) ⟨by rwa [List.append_nil], hi, rfl⟩ ?_
  rintro es₁ s₁ a s₂ es₂ - ⟨hrun, hi, hrec⟩ hok hs
  have hstep := Step.of_step hs
  obtain ⟨hnone, hnofail⟩ := hstep.of_quiet hok
  refine ⟨?_, hi.step hstep hok.flows hrun.free, ?_⟩
  · rw [← List.append_assoc]
    exact hrun.snoc hnofail hs
  · rw [received, List.flatMap_append, ← received, ← received, hrec, hnone, List.append_nil]

/-- **The IPv4 handler echoes everything.** After any run in which no `send` on
the client's connection has failed, and while the handler serves its client: if
the client sends nothing more and every `send` takes some bytes, the handler
comes to rest on every schedule, and where it is at rest the bytes accepted for
sending are the bytes received. -/
theorem echo_completes
    (h : (machine w).Run NoSendFails (init .IPV4ThreadsClientHandle fd) es s)
    (hserving : s.Serving) :
    (machine w).Inevitable Quiet Idle s
      ∧ ∀ es' s', (machine w).Run Quiet s es' s' → s'.Idle →
        accepted (es ++ es') = received es := by
  refine ⟨inevitable_idle h.free hserving, fun es' s' h' hidle => ?_⟩
  obtain ⟨hrun, hi, hnone⟩ := serving_of_quiet h hserving h'
  obtain ⟨hreceives, hwaits, hempty⟩ := hidle
  have hcomplete := (echoes_of_run hrun).complete hi.isOpen (by rw [hwaits]; rfl)
  have hhand : s'.reader.inHand = none := by
    cases hpc : s'.reader with
    | recv f => rfl
    | _ => rw [hpc] at hreceives; cases hreceives
  have hreceived : received (es ++ es') = received es := by
    rw [received, List.flatMap_append, ← received, ← received, hnone, List.append_nil]
  rw [hreceived, outgoing, hwaits, hempty, hhand] at hcomplete
  simpa [HandleWritePc.rest] using hcomplete

end Completion

/-- Three bytes have been received, and the write thread is before its first
`send`. -/
theorem echo_completes_abc :
    ∃ es s, (machine 64).Run NoSendFails (init .IPV4ThreadsClientHandle 5) es s
      ∧ received es = [97, 98, 99] ∧ accepted es = [] ∧ s.Serving
      ∧ (machine 64).Inevitable Quiet Idle s := by
  obtain ⟨es, s, hrun, hrec, hacc, hopen, hreader, hwriter⟩ :
      ∃ es s, (machine 64).Run NoSendFails (init .IPV4ThreadsClientHandle 5) es s
        ∧ received es = [97, 98, 99] ∧ accepted es = [] ∧ s.isOpen = true
        ∧ s.reader.serves = true ∧ s.writer.serves = true :=
    Machine.Run.exists_of_exec untilSend (by decide +kernel)
  have hserving : s.Serving := ⟨hopen, hreader, hwriter⟩
  exact ⟨es, s, hrun, hrec, hacc, hserving, (echo_completes hrun hserving).1⟩

end ThreadsClientHandle
