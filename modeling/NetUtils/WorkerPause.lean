import NetUtils.WorkerIo

/-!
# Accumulating the request, and pausing it

`mRequest` grows by what `recv` gives, chunk by chunk (`request_of_run`).
`disbaleReadEvent()` pauses it, but not at once: the read thread tests
`mIsReadEnabled` before a `recv` and not before the append that follows, so a
thread already past its test receives and appends one more chunk. It does not
append two, because it tests the flag in between.

The chunks are counted where they are received and where they are in the read
thread's hands, so that "at most one is appended" is a statement about
chunks, whatever their bytes (`AppendsAtMostOne`).
-/

open Transfer

variable {w : ℕ} {β : Type}

/-- The chunk received and not yet appended. -/
def ReadPc.inHand : ReadPc β → Option (List β)
  | lockRequest chunk => some chunk
  | append chunk => some chunk
  | _ => none

/-- The read thread is past its test of `mIsReadEnabled`, and has not yet
appended what it receives. -/
def ReadPc.mayAppend : ReadPc β → Bool
  | unlockRead => true
  | loadFd => true
  | recv _ => true
  | lockRequest _ => true
  | append _ => true
  | _ => false

namespace ThreadsTcpBroWorker

/-- The chunk an event takes from the client. -/
def Event.chunk : Event w β → Option (List β)
  | .recv _ answer => answer.chunk
  | _ => none

/-- The chunks `recv` has given, in order. -/
def chunks (es : List (Event w β)) : List (List β) := es.filterMap Event.chunk

/-- `mIsReadEnabled` is set: by a call of `enableReadEvent()`, or by the write
thread's exit handler. -/
def SetsReadEnabled (s : ThreadsTcpBroWorker w β) (a : Action w β) : Prop :=
  (∃ i rest, a = .caller i ∧ s.callers i = .inCall .body .enableReadEvent rest)
    ∨ (a = .writer ∧ s.writer = .exit .enablePeer)

/-- The condition on a step: it does not set `mIsReadEnabled`. -/
def KeepsPaused (s : ThreadsTcpBroWorker w β) (a : Action w β) : Prop :=
  ¬ SetsReadEnabled s a

/-- **At most one more chunk is appended** on the way from `s₁` to `s₂`: of
the chunk in the read thread's hands and those received on the way, the
first, or none, is appended to `mRequest`; the rest are in its hands at the
end. -/
def AppendsAtMostOne (s₁ : ThreadsTcpBroWorker w β) (es : List (Event w β))
    (s₂ : ThreadsTcpBroWorker w β) : Prop :=
  ∃ appended : List (List β), appended.length ≤ 1
    ∧ s₁.reader.inHand.toList ++ chunks es = appended ++ s₂.reader.inHand.toList
    ∧ s₂.mContext.mRequest = s₁.mContext.mRequest ++ appended.flatten

section Pausing

variable {s s' s₁ : ThreadsTcpBroWorker w β} {a : Action w β} {es es' : List (Event w β)}
variable {context : SocketContext w β}
variable {ok : ThreadsTcpBroWorker w β → Action w β → Prop}

theorem chunks_append (es es' : List (Event w β)) :
    chunks (es ++ es') = chunks es ++ chunks es' := List.filterMap_append

@[simp] theorem inHand_notify_read (pc : ReadPc β) : pc.notify.inHand = pc.inHand :=
  apply_notify_read ReadPc.inHand rfl pc

@[simp] theorem mayAppend_notify (pc : ReadPc β) : pc.notify.mayAppend = pc.mayAppend :=
  apply_notify_read ReadPc.mayAppend rfl pc

theorem inHand_afterRecv (answer : Received β) : (afterRecv answer).inHand = answer.chunk := by
  unfold afterRecv
  split <;> rfl

/-- A thread with nothing in its hands has no bytes of a chunk in them. -/
theorem chunk_of_inHand {pc : ReadPc β} (h : pc.inHand = none) : pc.chunk = [] := by
  cases pc with
  | lockRequest => cases h
  | append => cases h
  | _ => rfl

/-- What a step does to `mIsReadEnabled`. -/
theorem Step.mIsReadEnabled_cases (h : Step s a s' es) :
    s'.mIsReadEnabled = s.mIsReadEnabled ∨ SetsReadEnabled s a ∨ s'.mIsReadEnabled = false := by
  cases h with
  | writeExitEnable hpc => exact .inr (.inl (.inr ⟨rfl, hpc⟩))
  | @callBody i call rest hpc =>
    cases call with
    | enableReadEvent => exact .inr (.inl (.inl ⟨i, rest, rfl, hpc⟩))
    | disbaleReadEvent => exact .inr (.inr rfl)
    | _ => exact .inl rfl
  | _ => exact .inl rfl

/-- A step that does not set the flag leaves it `false`. -/
theorem Step.stays_disabled (h : Step s a s' es) (hok : KeepsPaused s a)
    (hflag : s.mIsReadEnabled = false) : s'.mIsReadEnabled = false := by
  rcases h.mIsReadEnabled_cases with heq | hsets | hoff
  · exact heq.trans hflag
  · exact absurd hsets hok
  · exact hoff

/-! ## A call that has assigned and not yet returned -/

/-- Until a `disbaleReadEvent()` has unlocked, the flag is as it has set
it. -/
def DisabledUnderLock (s : ThreadsTcpBroWorker w β) : Prop :=
  ∀ i rest, s.callers i = .inCall .unlock .disbaleReadEvent rest → s.mIsReadEnabled = false

/-- A calling thread at the end of `disbaleReadEvent()` was there before a
step or has just made the assignment. -/
theorem Step.disbale_cases (h : Step s a s' es) {i : ℕ} {rest : List (WorkerCall w β)}
    (hpc : s'.callers i = .inCall .unlock .disbaleReadEvent rest) :
    s.callers i = .inCall .unlock .disbaleReadEvent rest ∨ s'.mIsReadEnabled = false := by
  have hother {s : ThreadsTcpBroWorker w β} {j : ℕ} {pc : CallerPc w β}
      (hne : pc ≠ .inCall .unlock .disbaleReadEvent rest)
      (hpc : Function.update s.callers j pc i = .inCall .unlock .disbaleReadEvent rest) :
      s.callers i = .inCall .unlock .disbaleReadEvent rest := by
    by_cases hj : i = j
    · rw [hj, Function.update_self] at hpc
      exact absurd hpc hne
    · rwa [Function.update_of_ne hj] at hpc
  cases h with
  | invoke => exact .inl (hother (by simp) hpc)
  | callLock => exact .inl (hother (s := s) (by simp) hpc)
  | callReturn => exact .inl (hother (s := s) (by simp) hpc)
  | callNext => exact .inl (hother (s := s) (by simp) hpc)
  | @callBody j call rest' hbody =>
    by_cases hcall : call = .disbaleReadEvent
    · subst hcall
      exact .inr rfl
    · rw [setCaller_callers, assign_callers] at hpc
      exact .inl (hother (s := s) (by simp [hcall]) hpc)
  | _ => exact .inl hpc

theorem DisabledUnderLock.step (h : Step s a s' es) (hl : LockTable.Agrees s.locks s.held)
    (hi : DisabledUnderLock s) : DisabledUnderLock s' := by
  intro i rest hpc
  rcases h.disbale_cases hpc with hbefore | hoff
  · have hheld : s.held (.caller i) = some .mReadMutex := by rw [held, hbefore]; rfl
    rcases h.mIsReadEnabled_cases with heq | hsets | hoff
    · exact heq.trans (hi i rest hbefore)
    · -- whoever sets the flag holds the mutex the caller holds
      rcases hsets with ⟨j, rest', -, hbody⟩ | ⟨-, hexit⟩
      · have hcaller := eq_caller_of_held hl hbody hheld
        cases hcaller
        rw [hbefore] at hbody
        cases hbody
      · cases hl.unique hheld (held_writer hexit)
    · exact hoff
  · exact hoff

theorem disabledUnderLock_of_run (h : (machine w β).Run ok (init context) es s) :
    DisabledUnderLock s :=
  h.invariant (I := fun _ s => DisabledUnderLock s) (by rintro _ _ ⟨⟩)
    (fun hrun hi _ hs => hi.step (Step.of_step hs) (agrees_of_run hrun))

/-! ## The chunks appended while the flag is `false` -/

/-- A step that appends nothing. -/
theorem appended_none (hhand : s.reader.inHand.toList ++ chunks es = s'.reader.inHand.toList)
    (hrequest : s'.mContext.mRequest = s.mContext.mRequest)
    (hmay : s'.reader.mayAppend.toNat ≤ s.reader.mayAppend.toNat) :
    ∃ appended : List (List β),
      s.reader.inHand.toList ++ chunks es = appended ++ s'.reader.inHand.toList
        ∧ s'.mContext.mRequest = s.mContext.mRequest ++ appended.flatten
        ∧ appended.length + s'.reader.mayAppend.toNat ≤ s.reader.mayAppend.toNat :=
  ⟨[], hhand, by rw [hrequest]; simp, by simpa using hmay⟩

/-- **A step appends a chunk only once past the test**, and comes past it only
where the flag is `true`. -/
theorem Step.appended (h : Step s a s' es) (hd : DoWorkAgrees s)
    (hflag : s.mIsReadEnabled = false) :
    ∃ appended : List (List β),
      s.reader.inHand.toList ++ chunks es = appended ++ s'.reader.inHand.toList
        ∧ s'.mContext.mRequest = s.mContext.mRequest ++ appended.flatten
        ∧ appended.length + s'.reader.mayAppend.toNat ≤ s.reader.mayAppend.toNat := by
  cases h with
  | readEnabled _ hon => exact absurd (hflag.symm.trans hon) Bool.false_ne_true
  | @readAppend chunk hpc =>
    refine ⟨[chunk], ?_, by simp, ?_⟩
    · simp [hpc, ReadPc.inHand, chunks]
    · simp [hpc, ReadPc.mayAppend]
  | startRecv hpc =>
    have hreader : s.reader = .unstarted := hd.recvStarted.mp (by rw [hpc]; rfl)
    refine appended_none ?_ rfl ?_
    · simp [hreader, ReadPc.inHand, chunks]
    · simp [ReadPc.mayAppend]
  | @readRecv fd answer hpc =>
    refine appended_none ?_ rfl ?_
    · rw [hpc, inHand_afterRecv]
      cases hchunk : answer.chunk <;> simp [chunks, Event.chunk, hchunk, ReadPc.inHand]
    · rw [hpc]
      exact Bool.toNat_le _
  | @callBody i call rest hpc =>
    refine appended_none ?_ ?_ ?_
    · simp [chunks, Event.chunk]
    · cases call <;> rfl
    · simp
  | writeExitNotify => exact appended_none (by simp [chunks]) rfl (by simp)
  | readLock hpc =>
    refine appended_none ?_ rfl ?_
    · rcases hpc with hpc | hpc <;> simp [hpc, ReadPc.inHand, chunks]
    · simp [ReadPc.mayAppend]
  | _ =>
    refine appended_none ?_ rfl ?_
    · simp [chunks, Event.chunk, ReadPc.inHand, *]
    · simp [ReadPc.mayAppend, *]

/-- What holds of a run from `s₁` on which the flag stays `false`: every chunk
is accounted for, and one appended uses up the only append left. -/
structure PausedSince (s₁ : ThreadsTcpBroWorker w β) (es : List (Event w β))
    (s : ThreadsTcpBroWorker w β) : Prop where
  disabled : s.mIsReadEnabled = false
  appended : ∃ appended : List (List β),
    s₁.reader.inHand.toList ++ chunks es = appended ++ s.reader.inHand.toList
      ∧ s.mContext.mRequest = s₁.mContext.mRequest ++ appended.flatten
      ∧ appended.length + s.reader.mayAppend.toNat ≤ 1

theorem PausedSince.step (h : Step s a s' es') (hok : KeepsPaused s a) (hd : DoWorkAgrees s)
    (hi : PausedSince s₁ es s) : PausedSince s₁ (es ++ es') s' := by
  refine ⟨h.stays_disabled hok hi.disabled, ?_⟩
  obtain ⟨appended, hhand, hrequest, hle⟩ := hi.appended
  obtain ⟨more, hhand', hrequest', hle'⟩ := h.appended hd hi.disabled
  refine ⟨appended ++ more, ?_, ?_, ?_⟩
  · rw [chunks_append, ← List.append_assoc, hhand, List.append_assoc, hhand',
      List.append_assoc]
  · rw [hrequest', hrequest, List.flatten_append, List.append_assoc]
  · rw [List.length_append]
    omega

/-- **From a state with the flag `false`** at most one more chunk is appended
until it is set. -/
theorem appendsAtMostOne_of_run (hrun : (machine w β).Run ok (init context) es s₁)
    (hflag : s₁.mIsReadEnabled = false) (h : (machine w β).Run KeepsPaused s₁ es' s) :
    AppendsAtMostOne s₁ es' s := by
  have hstart : PausedSince s₁ [] s₁ := by
    refine ⟨hflag, [], ?_, ?_, ?_⟩
    · simp [chunks]
    · simp
    · simpa using Bool.toNat_le _
  have hpaused := h.invariant (I := PausedSince s₁) hstart (fun hrun' hi hok hs =>
    hi.step (Step.of_step hs) hok (doWorkAgrees_of_run (hrun.free.trans hrun'.free)))
  obtain ⟨appended, hhand, hrequest, hle⟩ := hpaused.appended
  exact ⟨appended, by omega, hhand, hrequest⟩

end Pausing

/-- **The request accumulates, and pauses.** In every run of a worker,
wherever the read thread has no chunk in its hands, `mRequest` is what the
context came with and after it all that `recv` has given, in order. And once
a call of `disbaleReadEvent()` has returned, at most one more chunk is
appended for as long as `mIsReadEnabled` is not set again. -/
theorem request_accumulates_and_pauses {context : SocketContext w β}
    {es : List (Event w β)} {s : ThreadsTcpBroWorker w β}
    (h : (machine w β).Run Machine.always (init context) es s) :
    (s.reader.inHand = none → s.mContext.mRequest = context.mRequest ++ received es)
      ∧ ∀ i rest s₁ es' s₂, s.callers i = .inCall .unlock .disbaleReadEvent rest →
        s.step (.caller i) = some (s₁, []) → (machine w β).Run KeepsPaused s₁ es' s₂ →
          AppendsAtMostOne s₁ es' s₂ := by
  refine ⟨fun hhand => ?_, fun i rest s₁ es' s₂ hpc hs hpaused => ?_⟩
  · have hrequest := request_of_run h
    rwa [chunk_of_inHand hhand, List.append_nil] at hrequest
  · have hkeeps : KeepsPaused s (.caller i) := by
      rintro (⟨j, rest', hj, hbody⟩ | ⟨hwriter, -⟩)
      · cases hj
        rw [hpc] at hbody
        cases hbody
      · cases hwriter
    have hflag := (Step.of_step hs).stays_disabled hkeeps (disabledUnderLock_of_run h i rest hpc)
    have hs' : (machine w β).step s (.caller i) = some (s₁, []) := hs
    exact appendsAtMostOne_of_run (h.snoc trivial hs') hflag hpaused

/-- The step is one of the read thread. -/
def Reads (_ : ThreadsTcpBroWorker w β) (a : Action w β) : Prop :=
  match a with
  | .reader => True
  | .recv _ => True
  | _ => False

instance : DecidableRel (Reads : ThreadsTcpBroWorker w β → Action w β → Prop)
  | _, .reader | _, .recv _ => isTrue trivial
  | _, .doWork | _, .wakeReader | _, .writer | _, .send _ | _, .wakeWriter
  | _, .invoke _ _ _ | _, .caller _ => isFalse id

/-- The read thread does not end its own pause. -/
theorem Reads.keepsPaused {s : ThreadsTcpBroWorker w β} {a : Action w β} (h : Reads s a) :
    KeepsPaused s a := by
  rintro (⟨i, rest, rfl, -⟩ | ⟨rfl, -⟩)
  · exact h
  · exact h

/-- A byte has been received, and the read thread is in `recv` again as another thread
comes to the end of a call of `disbaleReadEvent()`. -/
def pauseInRecv : List (Action 64 ℕ) :=
  times 4 .doWork ++ times 6 .reader ++ [.recv (.got [7])] ++ times 8 .reader
    ++ [.invoke 0 .disbaleReadEvent []] ++ times 2 (.caller 0)

/-- Two bytes arrive after the pause and are appended; the read thread then
waits. -/
theorem request_accumulates_and_pauses_pauseInRecv :
    ∃ es s s₁ es' s₂, (machine 64 ℕ).Run Machine.always (init aClient) es s
      ∧ received es = [7] ∧ s.mContext.mRequest = [7]
      ∧ (machine 64 ℕ).step s (.caller 0) = some (s₁, [])
      ∧ (machine 64 ℕ).Run KeepsPaused s₁ es' s₂ ∧ AppendsAtMostOne s₁ es' s₂
      ∧ s₂.reader = .waiting ∧ s₂.mContext.mRequest = [7, 1, 2] := by
  have hrun : (machine 64 ℕ).Run Machine.always (init aClient) _ _ :=
    Machine.Run.of_exec pauseInRecv rfl
  obtain ⟨haccumulates, hpauses⟩ := request_accumulates_and_pauses hrun
  have hkeeps {s₁ s₂ : ThreadsTcpBroWorker 64 ℕ} {es' : List (Event 64 ℕ)}
      (h : (machine 64 ℕ).exec Reads s₁ ([.recv (.got [1, 2])] ++ times 7 .reader)
        = some (s₂, es')) : (machine 64 ℕ).Run KeepsPaused s₁ es' s₂ :=
    (Machine.Run.of_exec _ h).mono fun _ _ h => h.keepsPaused
  exact ⟨_, _, _, _, _, hrun, rfl, haccumulates rfl, rfl, hkeeps rfl,
    hpauses 0 [] _ _ _ rfl rfl (hkeeps rfl), rfl, rfl⟩

end ThreadsTcpBroWorker
