import NetUtils.HandleStep

/-!
# The end of the connection and the write thread

When the read thread of an echo handler ends, it closes the descriptor, stores
`INVALID_FD` and notifies `mCond`, all without `mMutex`. What becomes of the
write thread is decided at that notification. If it looks at `mClientFd` before
it waits again, it learns that the connection has ended. If it tests the queue
first and finds it empty, it goes to its wait, and nobody is left to notify it
again. The IPv6 handler does not look at `mClientFd` before it waits; the IPv4
handler does not look at it in the predicate of its wait either, so that it goes
back to its wait even when the notification has reached it. And a write thread
that stands between its test and its wait is not reached by it at all.

`missesEnd` says which it is, of where the write thread stands and what is in
the queue. `Step.missesEnd_eq` is that it does not change any more once the read
thread has returned; `NetUtils.HandleFinish` draws the conclusions.
-/

open Transfer

variable {w : ℕ}

/-- The read thread holds `mMutex`. -/
def HandleReadPc.holds : HandleReadPc w → Bool
  | push _ => true
  | unlock => true
  | _ => false

/-- The write thread holds `mMutex`. -/
def HandleWritePc.holds : HandleWritePc w → Bool
  | testEmpty => true
  | enterWait => true
  | checkFd => true
  | takeFront => true
  | unlock _ => true
  | exitUnlock => true
  | _ => false

/-- Behind its sending loop the write thread tests the queue again without a look
at `mClientFd`. -/
def HandleType.testsAgain : HandleType → Bool
  | IPV4ThreadsClientHandle => false
  | IPV6ThreadsClientHandle => true

/-- Once the read thread has returned, with `queue` in `mMessageQueue`, the write
thread comes to its wait before it looks at `mClientFd`. -/
def HandleWritePc.missesEnd (type : HandleType) (queue : List (Buffer w UInt8)) :
    HandleWritePc w → Bool
  | unstarted => queue.isEmpty
  | lock => queue.isEmpty
  | testEmpty => queue.isEmpty
  | enterWait => true
  | waiting => true
  | notified => !type.testsAgain && queue.isEmpty
  | takeFront => type.testsAgain && queue.tail.isEmpty
  | unlock _ => type.testsAgain && queue.isEmpty
  | loadFd _ _ => type.testsAgain && queue.isEmpty
  | send _ _ _ => type.testsAgain && queue.isEmpty
  | _ => false

namespace ThreadsClientHandle

section Definitions

variable (s : ThreadsClientHandle w) (a : Action)

/-- **The write thread is stranded**: the read thread has returned, and the
write thread is in its wait, or about to be. -/
def Stranded : Prop :=
  s.reader = .returned ∧ (s.writer = .enterWait ∨ s.writer = .waiting)

/-- **The write thread misses the end of the connection**, if this is marked
already. -/
def MissesEnd : Prop := s.writer.missesEnd s.type s.mMessageQueue = true

/-- The condition on a step: it is not the last notification of the read thread,
given to a write thread that misses the end. -/
def EndIsSeen : Prop := a = .reader → s.reader = .notifyEnd → ¬ s.notifyOne.MissesEnd

instance : Decidable s.Stranded := inferInstanceAs (Decidable (_ ∧ (_ ∨ _)))

instance : Decidable s.MissesEnd := inferInstanceAs (Decidable (_ = true))

instance : DecidableRel (EndIsSeen : ThreadsClientHandle w → Action → Prop) :=
  fun s _ => inferInstanceAs (Decidable (_ → _ → ¬ s.notifyOne.MissesEnd))

end Definitions

section Invariants

variable {s s' : ThreadsClientHandle w} {a : Action} {es : List (Event w)}
variable {type : HandleType} {fd : ℤ}

theorem notify_ne_waiting (pc : HandleWritePc w) : pc.notify ≠ .waiting := by
  cases pc <;> exact nofun

theorem notify_eq_enterWait_iff {pc : HandleWritePc w} :
    pc.notify = .enterWait ↔ pc = .enterWait :=
  notify_eq_iff nofun nofun

/-- After `recv` the read thread has not returned. -/
theorem afterRecv_ne_returned {answer : Received UInt8} {beyond : List UInt8}
    {pc : HandleReadPc w} (h : afterRecv type answer beyond = some pc) : pc ≠ .returned :=
  afterRecv_cases (P := (· ≠ .returned)) h nofun nofun (fun _ _ _ _ => nofun)

/-- In its sending loop and behind it the write thread is not at its wait. -/
theorem inSend_ne_wait (type : HandleType) (send_msg : Buffer w UInt8) (phase : Phase w) :
    inSend type send_msg phase ≠ .enterWait ∧ inSend type send_msg phase ≠ .waiting :=
  inSend_cases (P := fun pc => pc ≠ .enterWait ∧ pc ≠ .waiting) type send_msg phase
    (fun _ => ⟨nofun, nofun⟩) ⟨nofun, nofun⟩ ⟨nofun, nofun⟩ ⟨nofun, nofun⟩

/-! ## What is decided at the last notification -/

/-- A stranded write thread has missed the end. -/
theorem Stranded.missesEnd (h : s.Stranded) : s.MissesEnd := by
  rcases h.2 with hpc | hpc <;> rw [MissesEnd, hpc] <;> rfl

theorem missesEnd_inSend (type : HandleType) (queue : List (Buffer w UInt8))
    (send_msg : Buffer w UInt8) (phase : Phase w) :
    (inSend type send_msg phase).missesEnd type queue = (type.testsAgain && queue.isEmpty) := by
  cases phase with
  | calling total_send => rfl
  | returned ok => cases ok <;> cases type <;> rfl

/-- **Once the read thread has returned it is decided** whether the write thread
misses the end. -/
theorem Step.missesEnd_eq (h : Step s a s' es) (hreader : s.reader = .returned)
    (hfd : s.mClientFd = INVALID_FD) (hstart : StartsOnce s) (hwait : s.writer ≠ .waiting) :
    s'.MissesEnd ↔ s.MissesEnd := by
  have hsame {pc : HandleWritePc w} {b : Bool} (hpc : s.writer = pc)
      (hb : pc.missesEnd s.type s.mMessageQueue = b)
      (hb' : s'.writer.missesEnd s'.type s'.mMessageQueue = b) : s'.MissesEnd ↔ s.MissesEnd := by
    rw [MissesEnd, MissesEnd, hb', hpc, hb]
  cases h with
  | startRead hpc => cases hreader.symm.trans (hstart.read.mpr hpc)
  | startWrite hpc => exact hsame (hstart.write.mpr (.inr hpc)) rfl rfl
  | joinRead => exact Iff.rfl
  | joinWrite => exact Iff.rfl
  | destroyClosed => exact Iff.rfl
  | destroyOpen => exact Iff.rfl
  | writeLock hpc => exact hsame hpc rfl rfl
  | writeEmpty hpc hqueue => exact hsame hpc (by rw [hqueue]; rfl) rfl
  | writeNonempty hpc hqueue => exact hsame hpc (by simp [HandleWritePc.missesEnd, hqueue]) rfl
  | writeWait hpc => exact hsame hpc rfl rfl
  | writeWake hpc => exact absurd hpc hwait
  | writeRelockIPV4 hpc _ htype =>
    exact hsame (b := s.mMessageQueue.isEmpty) hpc (by rw [htype]; rfl) rfl
  | writeRelockIPV6 hpc _ htype => exact hsame hpc (by rw [htype]; rfl) rfl
  | writeInvalid hpc => exact hsame hpc rfl rfl
  | writeValid _ hvalid => exact absurd hfd hvalid
  | writeTake hpc hqueue => exact hsame hpc (by rw [hqueue]; rfl) rfl
  | writeUnlock hpc => exact hsame hpc rfl (missesEnd_inSend _ _ _ _)
  | writeLoadFd hpc => exact hsame hpc rfl rfl
  | writeSend hpc => exact hsame hpc rfl (missesEnd_inSend _ _ _ _)
  | writeExitIPV4 hpc => exact hsame hpc rfl rfl
  | writeExitIPV6 hpc => exact hsame hpc rfl rfl
  | writeLoadClose hpc => exact hsame hpc rfl rfl
  | writeClose hpc => exact hsame hpc rfl rfl
  | writeStoreIPV4 hpc => exact hsame hpc rfl rfl
  | writeStoreIPV6 hpc => exact hsame hpc rfl rfl
  | writeDone hpc => exact hsame hpc rfl rfl
  | writeNext _ hvalid => exact absurd hfd hvalid
  | _ => cases hreader.symm.trans ‹s.reader = _›

/-! ## A write thread that can move -/

@[simp] theorem holds_notify (pc : HandleWritePc w) : pc.notify.holds = pc.holds :=
  apply_notify HandleWritePc.holds rfl pc

/-- **Who holds `mMutex` stands where it is held.** -/
structure HoldsWhereHeld (s : ThreadsClientHandle w) : Prop where
  reader : s.mMutex = some .threadHandleRead → s.reader.holds = true
  writer : s.mMutex = some .threadHandleWrite → s.writer.holds = true

/-- A step of the read thread that leaves the mutex to the others. -/
theorem HoldsWhereHeld.of_reader (hi : HoldsWhereHeld s)
    (hreader : s'.mMutex = some .threadHandleRead → s'.reader.holds = true)
    (hmutex : s'.mMutex = some .threadHandleWrite → s.mMutex = some .threadHandleWrite)
    (hwriter : s'.writer.holds = s.writer.holds) : HoldsWhereHeld s' where
  reader := hreader
  writer := fun hm => hwriter.trans (hi.writer (hmutex hm))

/-- A step of the write thread that leaves the mutex to the others. -/
theorem HoldsWhereHeld.of_writer (hi : HoldsWhereHeld s)
    (hwriter : s'.mMutex = some .threadHandleWrite → s'.writer.holds = true)
    (hmutex : s'.mMutex = some .threadHandleRead → s.mMutex = some .threadHandleRead)
    (hreader : s'.reader = s.reader) : HoldsWhereHeld s' where
  reader := fun hm => by rw [hreader]; exact hi.reader (hmutex hm)
  writer := hwriter

/-- A step of the read thread from where it does not hold the mutex. -/
theorem HoldsWhereHeld.of_reader_free (hi : HoldsWhereHeld s) {pc : HandleReadPc w}
    (hpc : s.reader = pc) (hfree : pc.holds = false) (hmutex : s'.mMutex = s.mMutex)
    (hwriter : s'.writer.holds = s.writer.holds) : HoldsWhereHeld s' := by
  subst hpc
  refine hi.of_reader (fun hm => ?_) (fun hm => hmutex ▸ hm) hwriter
  cases hfree.symm.trans (hi.reader (hmutex ▸ hm))

/-- A step of the write thread from where it does not hold the mutex. -/
theorem HoldsWhereHeld.of_writer_free (hi : HoldsWhereHeld s) {pc : HandleWritePc w}
    (hpc : s.writer = pc) (hfree : pc.holds = false) (hmutex : s'.mMutex = s.mMutex)
    (hreader : s'.reader = s.reader) : HoldsWhereHeld s' := by
  subst hpc
  refine hi.of_writer (fun hm => ?_) (fun hm => hmutex ▸ hm) hreader
  cases hfree.symm.trans (hi.writer (hmutex ▸ hm))

theorem HoldsWhereHeld.step (h : Step s a s' es) (hstart : StartsOnce s)
    (hi : HoldsWhereHeld s) : HoldsWhereHeld s' := by
  cases h with
  | startRead hpc => exact hi.of_reader_free (hstart.read.mpr hpc) rfl rfl rfl
  | startWrite hpc => exact hi.of_writer_free (hstart.write.mpr (.inr hpc)) rfl rfl rfl
  | joinRead => exact ⟨hi.reader, hi.writer⟩
  | joinWrite => exact ⟨hi.reader, hi.writer⟩
  | destroyClosed => exact ⟨hi.reader, hi.writer⟩
  | destroyOpen => exact ⟨hi.reader, hi.writer⟩
  -- the read thread
  | readLock => exact hi.of_reader (fun _ => rfl) nofun rfl
  | readPush => exact hi.of_reader (fun _ => rfl) id rfl
  | readUnlock => exact hi.of_reader nofun nofun rfl
  | readNotify hpc => exact hi.of_reader_free hpc rfl rfl (holds_notify _)
  | readNotifyEnd hpc => exact hi.of_reader_free hpc rfl rfl (holds_notify _)
  | readLoadFd hpc => exact hi.of_reader_free hpc rfl rfl rfl
  | readRecv hpc => exact hi.of_reader_free hpc rfl rfl rfl
  | readLoadClose hpc => exact hi.of_reader_free hpc rfl rfl rfl
  | readClose hpc => exact hi.of_reader_free hpc rfl rfl rfl
  | readStore hpc => exact hi.of_reader_free hpc rfl rfl rfl
  -- the write thread, with the mutex
  | writeLock => exact hi.of_writer (fun _ => rfl) nofun rfl
  | writeRelockIPV4 => exact hi.of_writer (fun _ => rfl) nofun rfl
  | writeRelockIPV6 => exact hi.of_writer (fun _ => rfl) nofun rfl
  | writeEmpty => exact hi.of_writer (fun _ => rfl) id rfl
  | writeNonempty => exact hi.of_writer (fun _ => rfl) id rfl
  | writeInvalid => exact hi.of_writer (fun _ => rfl) id rfl
  | writeValid => exact hi.of_writer (fun _ => rfl) id rfl
  | writeTake => exact hi.of_writer (fun _ => rfl) id rfl
  | writeWait => exact hi.of_writer nofun nofun rfl
  | writeExitIPV4 => exact hi.of_writer nofun nofun rfl
  | writeExitIPV6 => exact hi.of_writer nofun nofun rfl
  | writeUnlock => exact hi.of_writer nofun nofun rfl
  -- and without
  | _ =>
    have hpc := ‹s.writer = _›
    exact hi.of_writer_free hpc rfl rfl rfl

theorem holdsWhereHeld_of_run {ok : ThreadsClientHandle w → Action → Prop}
    (h : (machine w).Run ok (init type fd) es s) : HoldsWhereHeld s :=
  h.invariant (I := fun _ s => HoldsWhereHeld s)
    (show HoldsWhereHeld (init type fd) from ⟨nofun, nofun⟩)
    (fun hrun hi _ hs => hi.step (Step.of_step hs) (startsOnce_of_run hrun))

/-- Once the read thread has returned, the mutex is free for a write thread
that does not hold it. -/
theorem HoldsWhereHeld.free (hi : HoldsWhereHeld s) (hreader : s.reader = .returned)
    (hfree : s.writer.holds = false) : s.mMutex = none := by
  cases hm : s.mMutex with
  | none => rfl
  | some t =>
    cases t with
    | threadHandleRead =>
      have hholds := hi.reader hm
      rw [hreader] at hholds
      cases hholds
    | threadHandleWrite => cases hfree.symm.trans (hi.writer hm)

/-- **Once the read thread has returned, a write thread that is not waiting can
move**, unless it has returned, or takes from an empty queue. -/
theorem enabled_of_returned (hi : HoldsWhereHeld s) (hstart : StartsOnce s)
    (hreader : s.reader = .returned) (hwait : s.writer ≠ .waiting) (hdone : s.writer ≠ .returned)
    (htake : s.writer = .takeFront → s.mMessageQueue ≠ []) : ∃ a next, s.step a = some next := by
  cases hpc : s.writer with
  | unstarted =>
    refine ⟨.doWork, ?_⟩
    rcases hstart.write.mp hpc with hmain | hmain
    · cases hreader.symm.trans (hstart.read.mpr hmain)
    · simp [step, stepDoWork, hmain]
  | lock =>
    have hfree := hi.free hreader (by rw [hpc]; rfl)
    exact ⟨.writer, by simp [step, stepWriter, hpc, lock, hfree]⟩
  | testEmpty =>
    by_cases hqueue : s.mMessageQueue = []
    · exact ⟨.writer, by simp [step, stepWriter, hpc, hqueue]⟩
    · exact ⟨.writer, by simp [step, stepWriter, hpc, hqueue]⟩
  | enterWait => exact ⟨.writer, by simp [step, stepWriter, hpc]⟩
  | waiting => exact absurd hpc hwait
  | notified =>
    have hfree := hi.free hreader (by rw [hpc]; rfl)
    refine ⟨.writer, ?_⟩
    cases htype : s.type <;> simp [step, stepWriter, hpc, htype, lock, hfree]
  | checkFd =>
    by_cases hfd : s.mClientFd = INVALID_FD
    · exact ⟨.writer, by simp [step, stepWriter, hpc, hfd]⟩
    · exact ⟨.writer, by simp [step, stepWriter, hpc, hfd]⟩
  | takeFront =>
    obtain ⟨m, rest, hqueue⟩ := List.exists_cons_of_ne_nil (htake hpc)
    exact ⟨.writer, by simp [step, stepWriter, hpc, hqueue]⟩
  | unlock send_msg => exact ⟨.writer, by simp [step, stepWriter, hpc]⟩
  | loadFd send_msg total_send => exact ⟨.writer, by simp [step, stepWriter, hpc]⟩
  | send n send_msg total_send =>
    have hanswer : (IoResult.error .EBADF).Allowed n (send_msg.size - total_send).toNat :=
      ⟨Nat.zero_le _, fun _ => rfl⟩
    refine ⟨.send (.error .EBADF), ?_⟩
    simpa only [step, stepSend, hpc, if_pos hanswer] using ⟨_, rfl⟩
  | exitUnlock =>
    refine ⟨.writer, ?_⟩
    cases htype : s.type <;> simp [step, stepWriter, hpc, htype]
  | loadClose => exact ⟨.writer, by simp [step, stepWriter, hpc]⟩
  | close n => exact ⟨.writer, by simp [step, stepWriter, hpc]⟩
  | storeInvalid =>
    refine ⟨.writer, ?_⟩
    cases htype : s.type <;> simp [step, stepWriter, hpc, htype]
  | checkDone =>
    by_cases hfd : s.mClientFd = INVALID_FD
    · exact ⟨.writer, by simp [step, stepWriter, hpc, hfd]⟩
    · exact ⟨.writer, by simp [step, stepWriter, hpc, hfd]⟩
  | returned => exact absurd hpc hdone

end Invariants

/-! ## A client that closes at once -/

/-- The write thread has found the queue empty, and is about to wait. -/
def untilWait : List Action := [.doWork, .doWork, .writer, .writer]

/-- The read thread sees its peer close, and returns. -/
def readEnds : List Action := [.reader, .recv (.got []) []] ++ List.replicate 4 .reader

/-- **Both write threads can be stranded.** That of the IPv4 handler has been
notified, has found the queue empty, and is back at its wait; that of the IPv6
handler was about to wait when it was notified. -/
theorem writers_stranded :
    (∃ es s, (machine 64).Run Machine.always (init .IPV4ThreadsClientHandle 5) es s
      ∧ s.reader = .returned ∧ s.writer = .waiting ∧ s.mMessageQueue = [] ∧ s.Stranded)
    ∧ ∃ es s, (machine 64).Run Machine.always (init .IPV6ThreadsClientHandle 5) es s
      ∧ s.reader = .returned ∧ s.writer = .waiting ∧ s.Stranded := by
  constructor
  · refine Machine.Run.exists_of_exec
      (untilWait ++ [.writer] ++ readEnds ++ List.replicate 3 .writer) ?_
    decide +kernel
  · refine Machine.Run.exists_of_exec (untilWait ++ readEnds ++ [.writer]) ?_
    decide +kernel

end ThreadsClientHandle
