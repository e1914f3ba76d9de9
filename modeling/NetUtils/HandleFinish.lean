import NetUtils.HandleStreams
import NetUtils.HandleWaits
import NetUtils.Inevitable

/-!
# A handler whose connection has ended comes to its end

Once the read thread of an echo handler has returned, `mClientFd` is
`INVALID_FD` and stays so. Every `send` that is yet to begin fails with
`EBADF`, and a failed `send` takes the counter of the sending loop back by one
byte, so the loop walks back to the start of its message before it ends
(`IOHelper.sendBody_error_start`). Behind it the write thread finds
`INVALID_FD` the next time it looks, and returns, `doWork` joins both threads
and the handler is destroyed – unless the write thread goes to its wait, from
which nobody will notify it (`NetUtils.HandleEnd`).

`destroyed_or_stranded` says that there is nothing else: whichever thread the
scheduler picks, and whatever a `send` that has begun earlier answers, one or
the other is reached. The argument is a measure that every step takes down.
Which of them it is has been decided at the last notification of the read thread:
`writer_learns_of_end` is about the runs in which that does not miss the write
thread, and `inevitable_stranded` about the others.
-/

open Transfer IOHelper

variable {w : ℕ}

/-- A bound on the steps `doWork` still has to take. -/
def HandleMainPc.toGo : HandleMainPc → ℕ
  | startRead => 5
  | startWrite => 4
  | joinRead => 3
  | joinWrite => 2
  | returned => 1
  | destroyed => 0

/-- A bound on the steps the write thread still has to take, once `mClientFd`
is `INVALID_FD`. A `send` on a descriptor read before can answer anything, and
leave the loop anywhere in the message. -/
def HandleWritePc.toGo : HandleWritePc w → ℕ
  | unstarted => 8
  | lock => 8
  | testEmpty => 7
  | enterWait => 0
  | waiting => 0
  | notified => 8
  | checkFd => 6
  | takeFront => 12
  | unlock _ => 11
  | loadFd _ total_send => 10 + 2 * total_send.toNat
  | send fd send_msg total_send =>
    9 + 2 * if fd = INVALID_FD then total_send.toNat else send_msg.bytes.length
  | exitUnlock => 5
  | loadClose => 4
  | close _ => 3
  | storeInvalid => 2
  | checkDone => 1
  | returned => 0

namespace ThreadsClientHandle

/-- A bound on the steps of the handler, once its read thread has returned. -/
def toGo (s : ThreadsClientHandle w) : ℕ := s.doWork.toGo + s.writer.toGo

/-- The handler has been destroyed, or its write thread is stranded. -/
def DestroyedOrStranded (s : ThreadsClientHandle w) : Prop :=
  s.doWork = .destroyed ∨ s.Stranded

instance (s : ThreadsClientHandle w) : Decidable s.DestroyedOrStranded :=
  inferInstanceAs (Decidable (_ ∨ _))

section Invariants

variable {s s' : ThreadsClientHandle w} {a : Action} {es : List (Event w)}
variable {type : HandleType} {fd : ℤ}

/-- **What holds once the read thread has returned.** -/
structure ReadEnded (s : ThreadsClientHandle w) : Prop where
  reader : s.reader = .returned
  starts : StartsOnce s
  held : HoldsWhereHeld s
  field : FieldSound s
  inside : SendsInside s
  queue : KnowsQueue s

theorem ReadEnded.mClientFd (hi : ReadEnded s) : s.mClientFd = INVALID_FD :=
  hi.field.stored (by rw [hi.reader]; rfl)

/-- The read thread does not move any more. -/
theorem ReadEnded.not_reader (hi : ReadEnded s) {pc : HandleReadPc w} (hpc : s.reader = pc)
    (hne : pc ≠ .returned) : False :=
  hne (hpc.symm.trans hi.reader)

theorem ReadEnded.not_startRead (hi : ReadEnded s) : s.doWork ≠ .startRead := by
  intro hpc
  cases hi.reader.symm.trans (hi.starts.read.mpr hpc)

theorem ReadEnded.step (h : Step s a s' es) (hi : ReadEnded s) : ReadEnded s' where
  reader := by
    cases h with
    | startRead hpc => exact absurd hpc hi.not_startRead
    | readLoadFd hpc => exact (hi.not_reader hpc nofun).elim
    | readRecv hpc => exact (hi.not_reader hpc nofun).elim
    | readLock hpc => exact (hi.not_reader hpc nofun).elim
    | readPush hpc => exact (hi.not_reader hpc nofun).elim
    | readUnlock hpc => exact (hi.not_reader hpc nofun).elim
    | readNotify hpc => exact (hi.not_reader hpc nofun).elim
    | readLoadClose hpc => exact (hi.not_reader hpc nofun).elim
    | readClose hpc => exact (hi.not_reader hpc nofun).elim
    | readStore hpc => exact (hi.not_reader hpc nofun).elim
    | readNotifyEnd hpc => exact (hi.not_reader hpc nofun).elim
    | _ => exact hi.reader
  starts := hi.starts.step h
  held := hi.held.step h hi.starts
  field := hi.field.step h
  inside := hi.inside.step h
  -- the write thread is woken to `INVALID_FD`, whatever the queue is
  queue := hi.queue.step h fun _ hwoken => hwoken.2.2.2 hi.mClientFd

/-! ## The measure -/

/-- Behind a message the write thread has less to do than in it. -/
theorem toGo_inSend_returned (type : HandleType) (send_msg : Buffer w UInt8) (ok : Bool) :
    (inSend type send_msg (.returned ok)).toGo ≤ 8 := by
  cases ok with
  | true => cases type <;> exact Nat.le_of_ble_eq_true rfl
  | false => cases type <;> exact Nat.le_of_ble_eq_true rfl

/-- At the head of its loop, with nothing sent. -/
theorem toGo_inSend_start (type : HandleType) (send_msg : Buffer w UInt8) :
    (inSend type send_msg (test send_msg.size 0#w)).toGo ≤ 10 := by
  rcases Nat.eq_zero_or_pos send_msg.bytes.length with hnil | hpos
  · rw [test_of_le (by simp [hnil])]
    exact (toGo_inSend_returned type send_msg true).trans (by decide)
  · rw [test_of_lt (by simpa using hpos)]
    simp [inSend, HandleWritePc.toGo]

/-- **A `send` on `INVALID_FD` leaves less to do**: the counter goes back by
one, or the loop ends. -/
theorem toGo_inSend_error (type : HandleType) {send_msg : Buffer w UInt8} {total : BitVec w}
    (e : Errno) (hlt : total.toNat < send_msg.bytes.length) :
    (inSend type send_msg (sendBody send_msg.size total (.error e))).toGo
      < 9 + 2 * total.toNat := by
  have hsize : total.toNat < send_msg.size.toNat := by rwa [Buffer.toNat_size]
  rcases Nat.eq_zero_or_pos total.toNat with hzero | hpos
  · rw [sendBody_error_start e hsize hzero]
    have hle := toGo_inSend_returned type send_msg true
    omega
  · obtain ⟨back, hback, hbody⟩ := sendBody_error_later e hsize hpos
    rw [hbody, inSend, HandleWritePc.toGo]
    omega

/-- So does one on a descriptor read before, whatever it answers. -/
theorem toGo_inSend_answer (type : HandleType) (send_msg : Buffer w UInt8) (total : BitVec w)
    (answer : IoResult) :
    (inSend type send_msg (sendBody send_msg.size total answer)).toGo
      < 9 + 2 * send_msg.bytes.length := by
  cases hphase : sendBody send_msg.size total answer with
  | calling next =>
    have hlt := lt_of_sendBody hphase
    rw [Buffer.toNat_size] at hlt
    rw [inSend, HandleWritePc.toGo]
    omega
  | returned ok =>
    have hle := toGo_inSend_returned type send_msg ok
    omega

/-- A `send` that answers leaves less to do. -/
theorem toGo_inSend {send_msg : Buffer w UInt8} {total_send : BitVec w} {answer : IoResult}
    (hi : SendsInside s) (hpc : s.writer = .send fd send_msg total_send)
    (hanswer : answer.Allowed fd (send_msg.size - total_send).toNat) :
    (inSend s.type send_msg (sendBody send_msg.size total_send answer)).toGo
      < s.writer.toGo := by
  rw [hpc, HandleWritePc.toGo]
  split
  case isTrue hinvalid =>
    rw [hanswer.2 hinvalid]
    exact toGo_inSend_error _ _ (hi _ _ (.inr ⟨fd, hpc⟩))
  case isFalse => exact toGo_inSend_answer _ _ _ _

/-- **Every step takes the measure down**, or leaves the write thread
stranded. -/
theorem ReadEnded.toGo_lt (h : Step s a s' es) (hi : ReadEnded s)
    (hnot : ¬ s.DestroyedOrStranded) : s'.DestroyedOrStranded ∨ s'.toGo < s.toGo := by
  have hwait {pc : HandleWritePc w} (hpc : s.writer = pc)
      (hat : pc = .enterWait ∨ pc = .waiting) : False :=
    hnot (.inr ⟨hi.reader, hpc ▸ hat⟩)
  cases h with
  | startRead hpc => exact absurd hpc hi.not_startRead
  | startWrite hpc =>
    have hwriter : s.writer = .unstarted := hi.starts.write.mpr (.inr hpc)
    refine .inr ?_
    simp [toGo, hpc, hwriter, HandleMainPc.toGo, HandleWritePc.toGo]
  | joinRead hpc => exact .inr (by simp [toGo, hpc, HandleMainPc.toGo])
  | joinWrite hpc => exact .inr (by simp [toGo, hpc, HandleMainPc.toGo])
  | destroyClosed => exact .inl (.inl rfl)
  | destroyOpen => exact .inl (.inl rfl)
  -- the read thread has returned
  | readLoadFd hpc => exact (hi.not_reader hpc nofun).elim
  | readRecv hpc => exact (hi.not_reader hpc nofun).elim
  | readLock hpc => exact (hi.not_reader hpc nofun).elim
  | readPush hpc => exact (hi.not_reader hpc nofun).elim
  | readUnlock hpc => exact (hi.not_reader hpc nofun).elim
  | readNotify hpc => exact (hi.not_reader hpc nofun).elim
  | readLoadClose hpc => exact (hi.not_reader hpc nofun).elim
  | readClose hpc => exact (hi.not_reader hpc nofun).elim
  | readStore hpc => exact (hi.not_reader hpc nofun).elim
  | readNotifyEnd hpc => exact (hi.not_reader hpc nofun).elim
  -- the write thread
  | writeEmpty => exact .inl (.inr ⟨hi.reader, .inl rfl⟩)
  | writeWait hpc => exact (hwait hpc (.inl rfl)).elim
  | writeWake hpc => exact (hwait hpc (.inr rfl)).elim
  | writeValid hpc hfd => exact absurd hi.mClientFd hfd
  | writeNext hpc hfd => exact absurd hi.mClientFd hfd
  | writeUnlock hpc =>
    refine .inr (Nat.add_lt_add_left ?_ _)
    rw [hpc, HandleWritePc.toGo]
    exact Nat.lt_succ_of_le (toGo_inSend_start _ _)
  | writeSend hpc hanswer =>
    exact .inr (Nat.add_lt_add_left (toGo_inSend hi.inside hpc hanswer) _)
  | writeLoadFd hpc =>
    refine .inr (Nat.add_lt_add_left ?_ _)
    rw [hpc, HandleWritePc.toGo, HandleWritePc.toGo, if_pos hi.mClientFd]
    omega
  | _ =>
    refine .inr (Nat.add_lt_add_left ?_ _)
    rw [‹s.writer = _›]
    simp [HandleWritePc.toGo]

/-- **Some thread can move.** -/
theorem enabled_of_readEnded (hi : ReadEnded s) (hnot : ¬ s.DestroyedOrStranded) :
    ∃ a next, (machine w).step s a = some next := by
  by_cases hreturned : s.writer = .returned
  · -- both threads have returned, and `doWork` goes on
    cases hpc : s.doWork with
    | startRead => exact absurd hpc hi.not_startRead
    | startWrite => cases hreturned.symm.trans (hi.starts.write.mpr (.inr hpc))
    | joinRead =>
      refine ⟨.doWork, ({ s with doWork := .joinWrite }, []), ?_⟩
      simp only [machine, step, stepDoWork, hpc, hi.reader]
    | joinWrite =>
      refine ⟨.doWork, ({ s with doWork := .returned }, []), ?_⟩
      simp only [machine, step, stepDoWork, hpc, hreturned]
    | returned =>
      refine ⟨.doWork, ({ s with doWork := .destroyed }, []), ?_⟩
      simp only [machine, step, stepDoWork, hpc, if_pos hi.mClientFd]
    | destroyed => exact absurd (.inl hpc) hnot
  · have hwaits : s.writer ≠ .waiting := fun hpc => hnot (.inr ⟨hi.reader, .inr hpc⟩)
    exact enabled_of_returned hi.held hi.starts hi.reader hwaits hreturned hi.queue.takeFront

theorem ReadEnded.inevitable (hi : ReadEnded s) :
    (machine w).Inevitable Machine.always DestroyedOrStranded s := by
  refine .of_measure (I := ReadEnded) toGo ?_ ?_ hi
  · intro s hi hnot
    obtain ⟨a, next, hs⟩ := enabled_of_readEnded hi hnot
    exact ⟨a, next, trivial, hs⟩
  · intro s a s' es hi hnot _ hs
    have hstep := Step.of_step hs
    exact (hi.toGo_lt hstep hnot).imp_right fun hlt => ⟨hi.step hstep, hlt⟩

/-! ## Which of the two it is -/

theorem ReadEnded.missesEnd_eq (h : Step s a s' es) (hi : ReadEnded s)
    (hnot : ¬ s.DestroyedOrStranded) : s'.MissesEnd ↔ s.MissesEnd :=
  h.missesEnd_eq hi.reader hi.mClientFd hi.starts fun hpc => hnot (.inr ⟨hi.reader, .inr hpc⟩)

/-- A write thread that does not miss the end returns, and the handler is
destroyed. -/
theorem ReadEnded.inevitable_destroyed (hi : ReadEnded s) (hsees : ¬ s.MissesEnd) :
    (machine w).Inevitable Machine.always (fun s => s.doWork = .destroyed) s := by
  refine hi.inevitable.narrow (I := fun s => ReadEnded s ∧ ¬ s.MissesEnd) ?_ ?_ ⟨hi, hsees⟩
  · rintro s a s' es ⟨hi, hsees⟩ hnot - hs
    have hstep := Step.of_step hs
    exact ⟨hi.step hstep, mt (hi.missesEnd_eq hstep hnot).mp hsees⟩
  · rintro s ⟨-, hsees⟩ (hdone | hstranded)
    · exact hdone
    · exact absurd hstranded.missesEnd hsees

/-- A write thread that misses the end has not been joined. -/
theorem MissesEnd.not_destroyed (h : s.MissesEnd) (hi : WriteJoined s) :
    s.doWork ≠ .destroyed := by
  intro hmain
  rw [MissesEnd, hi (.inr hmain)] at h
  cases h

/-- One that misses it is stranded. -/
theorem ReadEnded.inevitable_stranded (hi : ReadEnded s) (hjoined : WriteJoined s)
    (hmisses : s.MissesEnd) : (machine w).Inevitable Machine.always Stranded s := by
  refine hi.inevitable.narrow (I := fun s => ReadEnded s ∧ WriteJoined s ∧ s.MissesEnd) ?_ ?_
    ⟨hi, hjoined, hmisses⟩
  · rintro s a s' es ⟨hi, hjoined, hmisses⟩ hnot - hs
    have hstep := Step.of_step hs
    exact ⟨hi.step hstep, hjoined.step hstep, (hi.missesEnd_eq hstep hnot).mpr hmisses⟩
  · rintro s ⟨-, hjoined, hmisses⟩ (hdone | hstranded)
    · exact absurd hdone (hmisses.not_destroyed hjoined)
    · exact hstranded

/-! ## Along a run -/

theorem readEnded_of_run (h : (machine w).Run WokenToMessage (init type fd) es s)
    (hreader : s.reader = .returned) : ReadEnded s where
  reader := hreader
  starts := startsOnce_of_run h
  held := holdsWhereHeld_of_run h
  field := fieldSound_of_run h
  inside := sendsInside_of_run h
  queue := knowsQueue_of_run h

/-- **Once the connection has ended the handler is destroyed, or its write
thread is stranded**, on every schedule: the IPv4 handler after every run, and
the IPv6 handler after every run in which its write thread has not been woken
to an empty queue. -/
theorem destroyed_or_stranded :
    (∀ es s, (machine w).Run Machine.always (init .IPV4ThreadsClientHandle fd) es s →
        s.reader = .returned → (machine w).Inevitable Machine.always DestroyedOrStranded s)
      ∧ ∀ es s, (machine w).Run WokenToMessage (init .IPV6ThreadsClientHandle fd) es s →
        s.reader = .returned → (machine w).Inevitable Machine.always DestroyedOrStranded s :=
  ⟨fun _ _ h hreader => (readEnded_of_run (wokenToMessage_of_run h) hreader).inevitable,
    fun _ _ h hreader => (readEnded_of_run h hreader).inevitable⟩

/-- In a run that meets the condition the write thread has not missed the end
once the read thread has returned. -/
theorem seesEnd_of_run (h : (machine w).Run EndIsSeen (init type fd) es s) :
    s.reader = .returned → ¬ s.MissesEnd := by
  refine h.invariant (I := fun _ s => s.reader = .returned → ¬ s.MissesEnd) nofun ?_
  intro es s a s' es' hrun hi hok hs hreader
  have hstep := Step.of_step hs
  by_cases hreturned : s.reader = .returned
  · have hsees := hi hreturned
    have hfd := (fieldSound_of_run hrun).stored (by rw [hreturned]; rfl)
    refine mt (hstep.missesEnd_eq hreturned hfd (startsOnce_of_run hrun) fun hpc => ?_).mp hsees
    exact hsees (Stranded.missesEnd ⟨hreturned, .inr hpc⟩)
  · -- the read thread returns at its last notification
    cases hstep with
    | readNotifyEnd hpc => exact hok rfl hpc
    | readRecv _ _ hafter => exact absurd hreader (afterRecv_ne_returned hafter)
    | _ =>
      first
      | exact absurd hreader hreturned
      | cases hreader

/-- **The echo writers learn that the connection has ended**, in every run in
which the last notification of the read thread is not given to a write thread
that misses the end. No state of the run has a stranded write thread; and once
the read thread has returned every schedule leads past joining the write thread,
and to the destruction of the handler, if the write thread has not been woken to
an empty queue. -/
theorem writer_learns_of_end :
    (∀ es s, (machine w).Run EndIsSeen (init type fd) es s → ¬ s.Stranded)
      ∧ ∀ es s,
        (machine w).Run (fun s a => EndIsSeen s a ∧ WokenToMessage s a) (init type fd) es s →
        s.reader = .returned →
          (machine w).Inevitable Machine.always (fun s => s.doWork = .destroyed) s := by
  refine ⟨fun es s h hstranded => ?_, fun es s h hreader => ?_⟩
  · exact seesEnd_of_run h hstranded.1 hstranded.missesEnd
  · have hsees := seesEnd_of_run (h.mono fun _ _ hok => hok.1) hreader
    exact (readEnded_of_run (h.mono fun _ _ hok => hok.2) hreader).inevitable_destroyed hsees

/-- **The condition is exact**: once the read thread has returned, a write thread
that misses the end is stranded on every schedule. -/
theorem inevitable_stranded (h : (machine w).Run WokenToMessage (init type fd) es s)
    (hreader : s.reader = .returned) (hmisses : s.MissesEnd) :
    (machine w).Inevitable Machine.always Stranded s :=
  (readEnded_of_run h hreader).inevitable_stranded (writeJoined_of_run h) hmisses

end Invariants

/-- The write thread of either handler has been notified of the end. -/
theorem destroyed_or_stranded_notified :
    (∃ es s, (machine 64).Run Machine.always (init .IPV4ThreadsClientHandle 5) es s
      ∧ s.writer = .notified ∧ (machine 64).Inevitable Machine.always DestroyedOrStranded s)
    ∧ ∃ es s, (machine 64).Run WokenToMessage (init .IPV6ThreadsClientHandle 5) es s
      ∧ s.writer = .notified ∧ (machine 64).Inevitable Machine.always DestroyedOrStranded s := by
  constructor
  · obtain ⟨es, s, hrun, hreader, hwriter⟩ : ∃ es s,
        (machine 64).Run Machine.always (init .IPV4ThreadsClientHandle 5) es s
        ∧ s.reader = .returned ∧ s.writer = .notified :=
      Machine.Run.exists_of_exec (untilWait ++ [.writer] ++ readEnds) (by decide +kernel)
    exact ⟨es, s, hrun, hwriter, destroyed_or_stranded.1 es s hrun hreader⟩
  · obtain ⟨es, s, hrun, hreader, hwriter⟩ : ∃ es s,
        (machine 64).Run WokenToMessage (init .IPV6ThreadsClientHandle 5) es s
        ∧ s.reader = .returned ∧ s.writer = .notified :=
      Machine.Run.exists_of_exec (untilWait ++ [.writer] ++ readEnds) (by decide +kernel)
    exact ⟨es, s, hrun, hwriter, destroyed_or_stranded.2 es s hrun hreader⟩

/-- The write thread of the IPv4 handler is about to take a message when the
connection ends, and that of the IPv6 handler is in its wait. -/
theorem writer_learns_of_end_peerCloses :
    (∃ es s, (machine 64).Run (fun s a => EndIsSeen s a ∧ WokenToMessage s a)
        (init .IPV4ThreadsClientHandle 5) es s
      ∧ s.writer = .takeFront ∧ s.reader = .returned ∧ ¬ s.Stranded
      ∧ (machine 64).Inevitable Machine.always (fun s => s.doWork = .destroyed) s)
    ∧ ∃ es s, (machine 64).Run (fun s a => EndIsSeen s a ∧ WokenToMessage s a)
        (init .IPV6ThreadsClientHandle 5) es s
      ∧ s.writer = .notified ∧ s.reader = .returned ∧ ¬ s.Stranded
      ∧ (machine 64).Inevitable Machine.always (fun s => s.doWork = .destroyed) s := by
  constructor
  · obtain ⟨es, s, hrun, hwriter, hreader⟩ : ∃ es s,
        (machine 64).Run (fun s a => EndIsSeen s a ∧ WokenToMessage s a)
          (init .IPV4ThreadsClientHandle 5) es s ∧ s.writer = .takeFront ∧ s.reader = .returned :=
      Machine.Run.exists_of_exec (takenUnnotified.take 10 ++ [.reader] ++ readEnds)
        (by decide +kernel)
    exact ⟨es, s, hrun, hwriter, hreader,
      writer_learns_of_end.1 es s (hrun.mono fun _ _ hok => hok.1),
      writer_learns_of_end.2 es s hrun hreader⟩
  · obtain ⟨es, s, hrun, hwriter, hreader⟩ : ∃ es s,
        (machine 64).Run (fun s a => EndIsSeen s a ∧ WokenToMessage s a)
          (init .IPV6ThreadsClientHandle 5) es s ∧ s.writer = .notified ∧ s.reader = .returned :=
      Machine.Run.exists_of_exec (untilWait ++ [.writer] ++ readEnds) (by decide +kernel)
    exact ⟨es, s, hrun, hwriter, hreader,
      writer_learns_of_end.1 es s (hrun.mono fun _ _ hok => hok.1),
      writer_learns_of_end.2 es s hrun hreader⟩

end ThreadsClientHandle
