import NetUtils.WorkerStep

/-!
# A worker closes its client's descriptor once

Three places of the source close `mClientFd`: the scope-exit handler of
either thread, and the destructor of the context. The handlers close and
store `INVALID_FD` in one critical section of `mMutex`, so of the two only
the first has the client's descriptor as its argument and the second closes
`INVALID_FD`; and `doWork` joins both threads before it returns, so the
destructor finds `INVALID_FD` and closes nothing.

`CloseHistory` says that of the closes made so far, and it needs one fact of
the program points: a thread past the `close` of its handler leaves
`INVALID_FD` behind it (`LeavesInvalid`).
-/

open Transfer

variable {w : ℕ} {β : Type}

/-- The handler has closed the descriptor. -/
def ExitPc.closed : ExitPc → Bool
  | lockContext => false
  | close => false
  | _ => true

/-- The read thread's handler has closed the descriptor. -/
def ReadPc.closed : ReadPc β → Bool
  | exit e => e.closed
  | returned => true
  | _ => false

/-- The write thread's handler has closed the descriptor. -/
def WritePc.closed : WritePc w β → Bool
  | exit e => e.closed
  | returned => true
  | _ => false

namespace ThreadsTcpBroWorker

/-- The argument of a `close`. -/
def Event.closed : Event w β → Option ℤ
  | .close fd => some fd
  | _ => none

/-- The arguments of the `close` calls, in order. -/
def closes (es : List (Event w β)) : List ℤ := es.filterMap Event.closed

theorem closes_append (es es' : List (Event w β)) :
    closes (es ++ es') = closes es ++ closes es' := List.filterMap_append

@[simp] theorem closed_notify_read (pc : ReadPc β) : pc.notify.closed = pc.closed :=
  apply_notify_read ReadPc.closed rfl pc

@[simp] theorem closed_notify_write (pc : WritePc w β) : pc.notify.closed = pc.closed :=
  apply_notify_write WritePc.closed rfl pc

@[simp] theorem closed_afterRecv (answer : Received β) : (afterRecv answer).closed = false :=
  afterRecv_cases (P := fun pc => pc.closed = false) answer rfl rfl fun _ => rfl

@[simp] theorem closed_inSendBytes (fd : ℤ) (response : Buffer w β) (phase : Phase w) :
    (inSendBytes fd response phase).closed = false :=
  inSendBytes_cases (P := fun pc => pc.closed = false) fd response phase
    (fun _ => rfl) rfl rfl

section Invariants

variable {s s' : ThreadsTcpBroWorker w β} {a : Action w β} {es es' : List (Event w β)}
variable {context : SocketContext w β} {fd : ℤ}

/-- **What a step does to the descriptor.** It leaves it, or closes it and
stores `INVALID_FD`; only the destructor of a context whose descriptor is
still there closes it and does not store. -/
theorem Step.close_cases (h : Step s a s' es) :
    (s'.mContext.mClientFd = s.mContext.mClientFd ∧ closes es = [])
      ∨ (s'.mContext.mClientFd = INVALID_FD ∧ closes es = [s.mContext.mClientFd])
      ∨ (s.doWork = .returned ∧ s.mContext.mClientFd ≠ INVALID_FD
        ∧ s'.mContext.mClientFd = s.mContext.mClientFd ∧ closes es = [s.mContext.mClientFd]) := by
  cases h with
  | destroyOpen hpc hfd => exact .inr (.inr ⟨hpc, hfd, rfl, rfl⟩)
  | readExitClose => exact .inr (.inl ⟨rfl, rfl⟩)
  | writeExitClose => exact .inr (.inl ⟨rfl, rfl⟩)
  | callBody => exact .inl ⟨assign_mClientFd s _, rfl⟩
  | _ => exact .inl ⟨rfl, rfl⟩

/-- **A thread past the `close` of its handler leaves `INVALID_FD`**, on a
context of the type the handlers are installed for. -/
structure LeavesInvalid (s : ThreadsTcpBroWorker w β) : Prop where
  type : s.mContext.type = .IPV4SocketContext
  reader : s.reader.closed = true → s.mContext.mClientFd = INVALID_FD
  writer : s.writer.closed = true → s.mContext.mClientFd = INVALID_FD

theorem LeavesInvalid.init (htype : context.type = .IPV4SocketContext) :
    LeavesInvalid (init context) where
  type := htype
  reader := fun hc => absurd hc Bool.false_ne_true
  writer := fun hc => absurd hc Bool.false_ne_true

theorem LeavesInvalid.step (h : Step s a s' es) (hi : LeavesInvalid s) : LeavesInvalid s' := by
  have htype := h.type.trans hi.type
  obtain ⟨ht, hr, hw⟩ := hi
  cases h with
  | readCastIPV6 _ hipv6 => cases ht.symm.trans hipv6
  | writeCastIPV6 _ hipv6 => cases ht.symm.trans hipv6
  | readExitClose => exact ⟨htype, fun _ => rfl, fun _ => rfl⟩
  | writeExitClose => exact ⟨htype, fun _ => rfl, fun _ => rfl⟩
  | readRecv => exact ⟨htype, by simp, hw⟩
  | writeCallSend => exact ⟨htype, hr, by simp⟩
  | writeSend => exact ⟨htype, hr, by simp⟩
  | readExitNotify hpc => exact ⟨htype, fun _ => hr (by rw [hpc]; rfl), by simpa using hw⟩
  | writeExitNotify hpc => exact ⟨htype, by simpa using hr, fun _ => hw (by rw [hpc]; rfl)⟩
  | readWake => exact ⟨htype, by simpa using hr, hw⟩
  | writeWake => exact ⟨htype, hr, by simpa using hw⟩
  | callBody => exact ⟨htype, by simpa using hr, by simpa using hw⟩
  | _ =>
    refine ⟨htype, ?_, ?_⟩ <;>
      first
      | exact hr
      | exact hw
      | exact fun hc => absurd hc Bool.false_ne_true
      | exact fun _ => hr (by rw [‹s.reader = _›]; rfl)
      | exact fun _ => hw (by rw [‹s.writer = _›]; rfl)

theorem leavesInvalid_of_run {ok : ThreadsTcpBroWorker w β → Action w β → Prop}
    (htype : context.type = .IPV4SocketContext)
    (h : (machine w β).Run ok (init context) es s) : LeavesInvalid s :=
  h.stateInvariant (LeavesInvalid.init htype) (fun hi _ hs => hi.step (Step.of_step hs))

/-- **The closes made so far**: none while the descriptor is there, and then
the descriptor, and after it `INVALID_FD` only. -/
def CloseHistory (fd : ℤ) (es : List (Event w β)) (s : ThreadsTcpBroWorker w β) : Prop :=
  (s.mContext.mClientFd = fd ∧ closes es = [])
    ∨ (s.mContext.mClientFd = INVALID_FD
      ∧ ∃ n, closes es = fd :: List.replicate n INVALID_FD)

theorem CloseHistory.step (h : Step s a s' es') (hl : LeavesInvalid s) (hd : DoWorkAgrees s)
    (hi : CloseHistory fd es s) : CloseHistory fd (es ++ es') s' := by
  rw [CloseHistory, closes_append]
  rcases h.close_cases with ⟨hfd, hes⟩ | ⟨hfd, hes⟩ | ⟨hpc, hne, -⟩
  · rw [hfd, hes, List.append_nil]
    exact hi
  · refine .inr ⟨hfd, ?_⟩
    rw [hes]
    rcases hi with ⟨hopen, hnone⟩ | ⟨hclosed, n, hn⟩
    · exact ⟨0, by rw [hnone, hopen]; rfl⟩
    · refine ⟨n + 1, ?_⟩
      rw [hn, hclosed, List.replicate_succ', List.cons_append]
  · -- the destructor runs after both threads have been joined
    have hreturned : s.reader = .returned := hd.recvJoined (by rw [hpc]; rfl)
    exact absurd (hl.reader (by rw [hreturned]; rfl)) hne

theorem closeHistory_of_run {ok : ThreadsTcpBroWorker w β → Action w β → Prop}
    (htype : context.type = .IPV4SocketContext)
    (h : (machine w β).Run ok (init context) es s) :
    CloseHistory context.mClientFd es s :=
  h.invariant (I := CloseHistory context.mClientFd) (.inl ⟨rfl, rfl⟩)
    (fun hrun hi _ hs => hi.step (Step.of_step hs) (leavesInvalid_of_run htype hrun)
      (doWorkAgrees_of_run hrun))

end Invariants

/-- **Each accepted descriptor is closed exactly once.** In every run of a
worker on an `IPV4SocketContext`, at most one `close` has the client's
descriptor as its argument and every other has `INVALID_FD`; and once
`doWork` has returned, one has had it and `mClientFd` is `INVALID_FD`. -/
theorem clientFd_closed_once {context : SocketContext w β}
    (htype : context.type = .IPV4SocketContext) (hfd : context.mClientFd ≠ INVALID_FD)
    {es : List (Event w β)} {s : ThreadsTcpBroWorker w β}
    (h : (machine w β).Run Machine.always (init context) es s) :
    (closes es).count context.mClientFd ≤ 1
      ∧ (∀ fd ∈ closes es, fd = context.mClientFd ∨ fd = INVALID_FD)
      ∧ (s.doWork.sendJoined = true →
        (closes es).count context.mClientFd = 1 ∧ s.mContext.mClientFd = INVALID_FD) := by
  have hcount (n : ℕ) : (context.mClientFd :: List.replicate n INVALID_FD).count
      context.mClientFd = 1 := by
    rw [List.count_cons_self, List.count_replicate, if_neg (by simpa using hfd.symm)]
  rcases closeHistory_of_run htype h with ⟨hopen, hnone⟩ | ⟨hclosed, n, hn⟩
  · rw [hnone]
    refine ⟨by simp, by simp, fun hjoined => ?_⟩
    have hreturned : s.writer = .returned := (doWorkAgrees_of_run h).sendJoined hjoined
    have hinvalid := (leavesInvalid_of_run htype h).writer (by rw [hreturned]; rfl)
    exact absurd (hopen.symm.trans hinvalid) hfd
  · rw [hn]
    refine ⟨(hcount n).le, fun fd hmem => ?_, fun _ => ⟨hcount n, hclosed⟩⟩
    rcases List.mem_cons.mp hmem with rfl | hmem
    · exact .inl rfl
    · exact .inr (List.eq_of_mem_replicate hmem)

/-- A worker whose client closes its end closes 5 once, and then `INVALID_FD`. -/
theorem clientFd_closed_once_peerCloses :
    ∃ es s, (machine 64 ℕ).Run Machine.always (init aClient) es s
      ∧ s.doWork = .returned
      ∧ closes es = [5, INVALID_FD]
      ∧ (closes es).count 5 = 1 ∧ s.mContext.mClientFd = INVALID_FD := by
  obtain ⟨es, s, hrun, hpc, hes⟩ : ∃ es s, (machine 64 ℕ).Run Machine.always (init aClient) es s
      ∧ s.doWork = .returned ∧ closes es = [5, INVALID_FD] := by
    refine Machine.Run.exists_of_exec peerCloses ?_
    rfl
  refine ⟨es, s, hrun, hpc, hes, ?_⟩
  exact (clientFd_closed_once rfl (by decide) hrun).2.2 (by rw [hpc]; rfl)

end ThreadsTcpBroWorker
