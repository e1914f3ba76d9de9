import NetUtils.HandleClose
import NetUtils.HandleQueue

/-!
# What a write thread of an echo handler waits for

The write thread goes to its wait when it has found the queue empty, under
`mMutex`, and keeps the mutex until it blocks. The read thread pushes under the
same mutex and notifies behind it. So as long as the read thread is in its loop
no message is left behind: while the write thread waits, the queue is empty, or
the notification for what is in it is still to come (`WaitsOnEmpty`). What can
be missed is the end of the connection (`NetUtils.HandleEnd`), and
`stranded_for_ever` is what then becomes of the IPv4 handler: a spurious wake-up
does not help, because the write thread finds the queue empty again. `doWork`
joins the read thread and never the write thread, and the handler is never
destroyed.
-/

open Transfer

variable {w : ℕ}

namespace ThreadsClientHandle

section Invariants

variable {s s' : ThreadsClientHandle w} {a : Action} {es : List (Event w)}
variable {ok : ThreadsClientHandle w → Action → Prop} {type : HandleType} {fd : ℤ}

/-! ## Mutual exclusion -/

/-- **A thread in its critical section is the one the mutex names.** -/
structure HoldsMutex (s : ThreadsClientHandle w) : Prop where
  reader : s.reader.holds = true → s.mMutex = some .threadHandleRead
  writer : s.writer.holds = true → s.mMutex = some .threadHandleWrite

/-- The two threads are not both in their critical sections. -/
theorem HoldsMutex.exclusive (hi : HoldsMutex s) (hr : s.reader.holds = true) :
    s.writer.holds = false := by
  cases hw : s.writer.holds with
  | false => rfl
  | true => cases (hi.reader hr).symm.trans (hi.writer hw)

/-- While the mutex is free nobody is in a critical section. -/
theorem HoldsMutex.of_free (hi : HoldsMutex s) (hfree : s.mMutex = none) :
    s.reader.holds = false ∧ s.writer.holds = false := by
  constructor
  · cases hr : s.reader.holds with
    | false => rfl
    | true => cases hfree.symm.trans (hi.reader hr)
  · cases hw : s.writer.holds with
    | false => rfl
    | true => cases hfree.symm.trans (hi.writer hw)

theorem holds_afterRecv {answer : Received UInt8} {beyond : List UInt8} {pc : HandleReadPc w}
    (h : afterRecv type answer beyond = some pc) : pc.holds = false :=
  afterRecv_cases (P := fun pc => pc.holds = false) h rfl rfl (fun _ _ _ _ => rfl)

theorem holds_inSend (type : HandleType) (send_msg : Buffer w UInt8) (phase : Phase w) :
    (inSend type send_msg phase).holds = false :=
  inSend_cases (P := fun pc => pc.holds = false) type send_msg phase (fun _ => rfl) rfl rfl rfl

/-- A step that leaves the mutex alone, and takes nobody into a critical
section. -/
theorem HoldsMutex.of_same (hi : HoldsMutex s) (hmutex : s'.mMutex = s.mMutex)
    (hr : s'.reader.holds = true → s.reader.holds = true)
    (hw : s'.writer.holds = true → s.writer.holds = true) : HoldsMutex s' where
  reader := fun h => hmutex.trans (hi.reader (hr h))
  writer := fun h => hmutex.trans (hi.writer (hw h))

/-- The write thread has locked. -/
theorem HoldsMutex.of_writeLock (hr : s'.reader.holds = false)
    (hmutex : s'.mMutex = some .threadHandleWrite) : HoldsMutex s' where
  reader := fun h => absurd (hr.symm.trans h) Bool.false_ne_true
  writer := fun _ => hmutex

/-- A thread that unlocks leaves nobody in a critical section. -/
theorem HoldsMutex.of_unlock (hr : s'.reader.holds = false) (hw : s'.writer.holds = false) :
    HoldsMutex s' where
  reader := fun h => absurd (hr.symm.trans h) Bool.false_ne_true
  writer := fun h => absurd (hw.symm.trans h) Bool.false_ne_true

/-- In its critical section the write thread is there alone. -/
theorem HoldsMutex.read_out (hi : HoldsMutex s) {pc : HandleWritePc w} (hpc : s.writer = pc)
    (hin : pc.holds = true) : s.reader.holds = false := by
  cases hr : s.reader.holds with
  | false => rfl
  | true => cases (hi.exclusive hr).symm.trans (hpc ▸ hin)

theorem HoldsMutex.step (h : Step s a s' es) (hi : HoldsMutex s) : HoldsMutex s' := by
  have hkeeps {pc : HandleWritePc w} (hpc : s.writer = pc) (hin : pc.holds = true) :
      s.writer.holds = true := hpc ▸ hin
  cases h with
  | startRead => exact hi.of_same rfl nofun id
  | startWrite => exact hi.of_same rfl id nofun
  -- the read thread
  | readLock _ hfree =>
    refine ⟨fun _ => rfl, fun hw => ?_⟩
    cases (hi.of_free hfree).2.symm.trans hw
  | readPush hpc => exact hi.of_same rfl (fun _ => by rw [hpc]; rfl) id
  | readUnlock hpc => exact .of_unlock rfl (hi.exclusive (by rw [hpc]; rfl))
  | readRecv _ _ hafter =>
    exact hi.of_same rfl (fun hr => by cases (holds_afterRecv hafter).symm.trans hr) id
  | readNotify => exact hi.of_same rfl nofun (fun hw => by simpa using hw)
  | readNotifyEnd => exact hi.of_same rfl nofun (fun hw => by simpa using hw)
  -- the write thread
  | writeLock _ hfree => exact .of_writeLock (hi.of_free hfree).1 rfl
  | writeRelockIPV4 _ hfree => exact .of_writeLock (hi.of_free hfree).1 rfl
  | writeRelockIPV6 _ hfree => exact .of_writeLock (hi.of_free hfree).1 rfl
  | writeEmpty hpc => exact hi.of_same rfl id (fun _ => hkeeps hpc rfl)
  | writeNonempty hpc => exact hi.of_same rfl id (fun _ => hkeeps hpc rfl)
  | writeInvalid hpc => exact hi.of_same rfl id (fun _ => hkeeps hpc rfl)
  | writeValid hpc => exact hi.of_same rfl id (fun _ => hkeeps hpc rfl)
  | writeTake hpc => exact hi.of_same rfl id (fun _ => hkeeps hpc rfl)
  | writeWait hpc => exact .of_unlock (hi.read_out hpc rfl) rfl
  | writeExitIPV4 hpc => exact .of_unlock (hi.read_out hpc rfl) rfl
  | writeExitIPV6 hpc => exact .of_unlock (hi.read_out hpc rfl) rfl
  | writeUnlock hpc => exact .of_unlock (hi.read_out hpc rfl) (holds_inSend _ _ _)
  | writeSend =>
    exact hi.of_same rfl id (fun hw => by cases (holds_inSend _ _ _).symm.trans hw)
  | writeWake => exact hi.of_same rfl id (fun hw => by simpa using hw)
  | _ =>
    first
    | exact hi.of_same rfl id id
    | exact hi.of_same rfl nofun id
    | exact hi.of_same rfl id nofun

theorem holdsMutex_of_run (h : (machine w).Run ok (init type fd) es s) : HoldsMutex s :=
  h.stateInvariant ⟨nofun, nofun⟩ (fun hi _ hs => hi.step (Step.of_step hs))

/-! ## Messages are not left behind -/

/-- **What is in the queue while the write thread waits.** -/
structure WaitsOnEmpty (s : ThreadsClientHandle w) : Prop where
  /-- About to wait it has found the queue empty, and holds the mutex. -/
  enterWait : s.writer = .enterWait → s.mMessageQueue = []
  /-- In its wait it has missed nothing of which it is not still to be
  notified. -/
  waiting : s.writer = .waiting →
    s.mMessageQueue = [] ∨ s.reader = .unlock ∨ s.reader = .notify

/-- A step that takes the write thread away from its wait. -/
theorem WaitsOnEmpty.of_elsewhere (he : s.writer ≠ .enterWait) (hw : s.writer ≠ .waiting) :
    WaitsOnEmpty s where
  enterWait := fun h => absurd h he
  waiting := fun h => absurd h hw

/-- A step of the read thread that neither pushes nor notifies. -/
theorem WaitsOnEmpty.of_reader (hi : WaitsOnEmpty s) {pc : HandleReadPc w} (hpc : s.reader = pc)
    (hne : pc ≠ .unlock ∧ pc ≠ .notify) (hqueue : s'.mMessageQueue = s.mMessageQueue)
    (hwriter : s'.writer = s.writer) : WaitsOnEmpty s' where
  enterWait := fun h => hqueue.trans (hi.enterWait (hwriter ▸ h))
  waiting := fun h => by
    rcases hi.waiting (hwriter ▸ h) with hempty | hunlock | hnotify
    · exact .inl (hqueue.trans hempty)
    · exact absurd (hpc.symm.trans hunlock) hne.1
    · exact absurd (hpc.symm.trans hnotify) hne.2

/-- A notification takes the write thread from its wait. -/
theorem WaitsOnEmpty.of_notify (hi : WaitsOnEmpty s) (hqueue : s'.mMessageQueue = s.mMessageQueue)
    (hwriter : s'.writer = s.writer.notify) : WaitsOnEmpty s' where
  enterWait := fun h => hqueue.trans (hi.enterWait (notify_eq_enterWait_iff.mp (hwriter ▸ h)))
  waiting := fun h => absurd (hwriter ▸ h) (notify_ne_waiting _)

theorem WaitsOnEmpty.step (h : Step s a s' es) (hmutex : HoldsMutex s)
    (hstart : StartsOnce s) (hi : WaitsOnEmpty s) :
    WaitsOnEmpty s' := by
  cases h with
  | startRead hpc => exact hi.of_reader (hstart.read.mpr hpc) ⟨nofun, nofun⟩ rfl rfl
  | readLoadFd hpc => exact hi.of_reader hpc ⟨nofun, nofun⟩ rfl rfl
  | readRecv hpc => exact hi.of_reader hpc ⟨nofun, nofun⟩ rfl rfl
  | readLock hpc => exact hi.of_reader hpc ⟨nofun, nofun⟩ rfl rfl
  | readLoadClose hpc => exact hi.of_reader hpc ⟨nofun, nofun⟩ rfl rfl
  | readClose hpc => exact hi.of_reader hpc ⟨nofun, nofun⟩ rfl rfl
  | readStore hpc => exact hi.of_reader hpc ⟨nofun, nofun⟩ rfl rfl
  | readPush hpc =>
    refine ⟨fun hwait => ?_, fun _ => .inr (.inl rfl)⟩
    have hout := hmutex.exclusive (by rw [hpc]; rfl)
    rw [show s.writer = .enterWait from hwait] at hout
    cases hout
  | readUnlock => exact ⟨hi.enterWait, fun _ => .inr (.inr rfl)⟩
  | readNotify => exact hi.of_notify rfl rfl
  | readNotifyEnd => exact hi.of_notify rfl rfl
  | writeWake => exact hi.of_notify rfl rfl
  | writeEmpty _ hqueue => exact ⟨fun _ => hqueue, nofun⟩
  | writeWait hpc => exact ⟨nofun, fun _ => .inl (hi.enterWait hpc)⟩
  | writeUnlock => exact .of_elsewhere (inSend_ne_wait _ _ _).1 (inSend_ne_wait _ _ _).2
  | writeSend => exact .of_elsewhere (inSend_ne_wait _ _ _).1 (inSend_ne_wait _ _ _).2
  | _ =>
    first
    | exact ⟨hi.enterWait, hi.waiting⟩
    | exact .of_elsewhere nofun nofun

/-- **No message is left behind**, in any run of either handler. -/
theorem waitsOnEmpty_of_run (h : (machine w).Run ok (init type fd) es s) : WaitsOnEmpty s := by
  refine h.invariant (I := fun _ s => WaitsOnEmpty s)
    (show WaitsOnEmpty (init type fd) from .of_elsewhere nofun nofun) ?_
  intro es s a s' es' hrun hi _ hs
  exact hi.step (Step.of_step hs) (holdsMutex_of_run hrun) (startsOnce_of_run hrun)

/-! ## Waiting for ever -/

/-- `doWork` is past joining a thread that has returned. -/
def WriteJoined (s : ThreadsClientHandle w) : Prop :=
  s.doWork = .returned ∨ s.doWork = .destroyed → s.writer = .returned

/-- A write thread that moves has not been joined. -/
theorem WriteJoined.of_writer (hi : WriteJoined s) {pc : HandleWritePc w} (hpc : s.writer = pc)
    (hne : pc ≠ .returned) (hmain : s'.doWork = s.doWork) : WriteJoined s' :=
  fun hjoined => absurd (hpc.symm.trans (hi (hmain ▸ hjoined))) hne

theorem WriteJoined.step (h : Step s a s' es) (hi : WriteJoined s) : WriteJoined s' := by
  cases h with
  | startRead => exact fun hjoined => by cases hjoined <;> contradiction
  | startWrite => exact fun hjoined => by cases hjoined <;> contradiction
  | joinRead => exact fun hjoined => by cases hjoined <;> contradiction
  | joinWrite _ hwriter => exact fun _ => hwriter
  | destroyClosed hpc => exact fun _ => hi (.inl hpc)
  | destroyOpen hpc => exact fun _ => hi (.inl hpc)
  | readNotify => exact fun hjoined => congrArg HandleWritePc.notify (hi hjoined)
  | readNotifyEnd => exact fun hjoined => congrArg HandleWritePc.notify (hi hjoined)
  | _ =>
    first
    | exact hi
    | have hpc := ‹s.writer = _›
      exact hi.of_writer hpc nofun rfl

theorem writeJoined_of_run (h : (machine w).Run ok (init type fd) es s) : WriteJoined s :=
  h.stateInvariant (show WriteJoined (init type fd) by rintro (h | h) <;> cases h)
    (fun hi _ hs => hi.step (Step.of_step hs))

/-- **The IPv4 handler waits for nothing**: the read thread has returned, the
queue is empty, and the write thread is about its wait, which ends only to find
that. -/
structure WaitsForNothing (s : ThreadsClientHandle w) : Prop where
  type : s.type = .IPV4ThreadsClientHandle
  reader : s.reader = .returned
  queue : s.mMessageQueue = []
  writer : s.writer = .testEmpty ∨ s.writer = .enterWait ∨ s.writer = .waiting
    ∨ s.writer = .notified
  doWork : s.doWork = .joinRead ∨ s.doWork = .joinWrite

/-- It stays so, and nothing can be observed of it. -/
theorem WaitsForNothing.step (h : Step s a s' es) (hi : WaitsForNothing s) :
    WaitsForNothing s' ∧ es = [] := by
  obtain ⟨htype, hreader, hqueue, hwriter, hmain⟩ := hi
  have hmoves {pc : HandleWritePc w} (hpc : s.writer = pc)
      (hnot : pc ≠ .testEmpty ∧ pc ≠ .enterWait ∧ pc ≠ .waiting ∧ pc ≠ .notified) : False := by
    subst hpc
    rcases hwriter with h | h | h | h
    · exact hnot.1 h
    · exact hnot.2.1 h
    · exact hnot.2.2.1 h
    · exact hnot.2.2.2 h
  cases h with
  | joinRead => exact ⟨⟨htype, hreader, hqueue, hwriter, .inr rfl⟩, rfl⟩
  | startRead hpc => rcases hmain with h | h <;> cases hpc.symm.trans h
  | startWrite hpc => rcases hmain with h | h <;> cases hpc.symm.trans h
  | joinWrite _ hreturned => exact (hmoves hreturned ⟨nofun, nofun, nofun, nofun⟩).elim
  | destroyClosed hpc => rcases hmain with h | h <;> cases hpc.symm.trans h
  | destroyOpen hpc => rcases hmain with h | h <;> cases hpc.symm.trans h
  | writeEmpty => exact ⟨⟨htype, hreader, hqueue, .inr (.inl rfl), hmain⟩, rfl⟩
  | writeNonempty _ hne => exact absurd hqueue hne
  | writeWait => exact ⟨⟨htype, hreader, hqueue, .inr (.inr (.inl rfl)), hmain⟩, rfl⟩
  | writeWake hpc =>
    refine ⟨⟨htype, hreader, hqueue, ?_, hmain⟩, rfl⟩
    rw [notifyOne_writer, hpc]
    exact .inr (.inr (.inr rfl))
  | writeRelockIPV4 => exact ⟨⟨htype, hreader, hqueue, .inl rfl, hmain⟩, rfl⟩
  | writeRelockIPV6 _ _ htype' => cases htype.symm.trans htype'
  | _ =>
    first
    | have hpc := ‹s.writer = _›
      exact (hmoves hpc ⟨nofun, nofun, nofun, nofun⟩).elim
    | cases hreader.symm.trans ‹s.reader = _›

/-- A stranded write thread of the IPv4 handler waits for nothing. -/
theorem waitsForNothing_of_stranded
    (h : (machine w).Run ok (init .IPV4ThreadsClientHandle fd) es s) (hstranded : s.Stranded) :
    WaitsForNothing s := by
  obtain ⟨hreader, hwriter⟩ := hstranded
  have hwaits := waitsOnEmpty_of_run h
  have hstart := startsOnce_of_run h
  refine ⟨(type_client_of_run h).1, hreader, ?_, ?_, ?_⟩
  · rcases hwriter with hpc | hpc
    · exact hwaits.enterWait hpc
    · refine (hwaits.waiting hpc).resolve_right ?_
      rintro (hpc' | hpc') <;> cases hreader.symm.trans hpc'
  · exact .inr (hwriter.imp_right .inl)
  · have hreturned : s.writer ≠ .returned := by
      rcases hwriter with hpc | hpc <;> rw [hpc] <;> exact nofun
    have hstarted : s.writer ≠ .unstarted := by
      rcases hwriter with hpc | hpc <;> rw [hpc] <;> exact nofun
    cases hmain : s.doWork with
    | startRead => exact absurd (hstart.write.mpr (.inl hmain)) hstarted
    | startWrite => exact absurd (hstart.write.mpr (.inr hmain)) hstarted
    | joinRead => exact .inl rfl
    | joinWrite => exact .inr rfl
    | returned => exact absurd (writeJoined_of_run h (.inl hmain)) hreturned
    | destroyed => exact absurd (writeJoined_of_run h (.inr hmain)) hreturned

/-- **Once its write thread is stranded, an IPv4 handler is there for ever**:
however the run goes on, spurious wake-ups included, `doWork` does not return
and the write thread does not, and nothing can be observed of either. -/
theorem stranded_for_ever (h : (machine w).Run ok (init .IPV4ThreadsClientHandle fd) es s)
    (hstranded : s.Stranded) {es' : List (Event w)}
    (h' : (machine w).Run Machine.always s es' s') :
    (s'.doWork = .joinRead ∨ s'.doWork = .joinWrite) ∧ s'.writer ≠ .returned ∧ es' = [] := by
  have hi : WaitsForNothing s' ∧ es' = [] := by
    refine h'.invariant (I := fun es s => WaitsForNothing s ∧ es = [])
      ⟨waitsForNothing_of_stranded h hstranded, rfl⟩ ?_
    rintro _ _ _ _ _ - ⟨hi, rfl⟩ - hs
    exact hi.step (Step.of_step hs)
  refine ⟨hi.1.doWork, ?_, hi.2⟩
  rcases hi.1.writer with hpc | hpc | hpc | hpc <;> rw [hpc] <;> exact nofun

end Invariants

/-- The write thread is stranded, and woken spuriously. -/
theorem stranded_for_ever_wakes :
    ∃ es s, (machine 64).Run Machine.always (init .IPV4ThreadsClientHandle 5) es s ∧ s.Stranded
      ∧ ∃ es' s', (machine 64).Run Machine.always s es' s' ∧ s'.writer = .notified
        ∧ (s'.doWork = .joinRead ∨ s'.doWork = .joinWrite) := by
  obtain ⟨es, s, hrun, hstranded, hpc⟩ : ∃ es s,
      (machine 64).Run Machine.always (init .IPV4ThreadsClientHandle 5) es s
      ∧ s.Stranded ∧ s.writer = .waiting :=
    Machine.Run.exists_of_exec
      (untilWait ++ [.writer] ++ readEnds ++ List.replicate 3 .writer) (by decide +kernel)
  have hwakes : (machine 64).Run Machine.always s [] s.notifyOne := by
    have hstep : (machine 64).step s .wakeWriter = some (s.notifyOne, []) := by
      simp only [machine, step, hpc]
    exact Machine.Run.single trivial hstep
  refine ⟨es, s, hrun, hstranded, [], _, hwakes, ?_, (stranded_for_ever hrun hstranded hwakes).1⟩
  rw [notifyOne_writer, hpc]
  rfl

end ThreadsClientHandle
