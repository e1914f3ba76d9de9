import NetUtils.WorkerStep

/-!
# What a worker reads and writes, and where

A descriptor number reaches a system call in two ways: the read thread loads
`mClientFd` just before its `recv`, and the write thread loads it once for
all the `send` calls of one `send_bytes`. Between the load and the call the
thread *holds* the number, and nothing ties it to `mClientFd` any more.

The bytes given by `recv` all end up in `mRequest`, in order
(`request_of_run`); those not there yet are the chunk in the read thread's
hands.
-/

open Transfer

variable {w : ℕ} {β : Type}

/-- The descriptor the read thread has loaded for its `recv`. -/
def ReadPc.fd : ReadPc β → Option ℤ
  | recv fd => some fd
  | _ => none

/-- The descriptor passed to the `send_bytes` the write thread is in. -/
def WritePc.fd : WritePc w β → Option ℤ
  | send fd _ _ => some fd
  | _ => none

/-- The bytes received and not yet appended to `mRequest`. -/
def ReadPc.chunk : ReadPc β → List β
  | lockRequest chunk => chunk
  | append chunk => chunk
  | _ => []

/-- The bytes an answer of `recv` gives. -/
def Received.bytes : Received β → List β
  | failed _ => []
  | got chunk => chunk

/-- The chunk an answer of `recv` gives, if it gives one. -/
def Received.chunk : Received β → Option (List β)
  | got (b :: bs) => some (b :: bs)
  | _ => none

namespace ThreadsTcpBroWorker

/-- A thread of the worker holds the descriptor number `fd`. -/
def Holds (s : ThreadsTcpBroWorker w β) (fd : ℤ) : Prop :=
  s.reader.fd = some fd ∨ s.writer.fd = some fd

instance (s : ThreadsTcpBroWorker w β) (fd : ℤ) : Decidable (s.Holds fd) :=
  inferInstanceAs (Decidable (_ ∨ _))

/-- The descriptor a `recv` or a `send` is made on. -/
def Event.fd : Event w β → Option ℤ
  | .recv fd _ => some fd
  | .send fd _ => some fd
  | _ => none

/-- The bytes an event takes from the client. -/
def Event.received : Event w β → List β
  | .recv _ answer => answer.bytes
  | _ => []

/-- The bytes `recv` has given, in order. -/
def received (es : List (Event w β)) : List β := es.flatMap Event.received

section Steps

variable {s s' : ThreadsTcpBroWorker w β} {a : Action w β} {es : List (Event w β)}
variable {context : SocketContext w β}

@[simp] theorem fd_notify_read (pc : ReadPc β) : pc.notify.fd = pc.fd :=
  apply_notify_read ReadPc.fd rfl pc

@[simp] theorem fd_notify_write (pc : WritePc w β) : pc.notify.fd = pc.fd :=
  apply_notify_write WritePc.fd rfl pc

@[simp] theorem fd_afterRecv (answer : Received β) : (afterRecv answer).fd = none :=
  afterRecv_cases (P := fun pc => pc.fd = none) answer rfl rfl fun _ => rfl

/-- In `send_bytes` the descriptor held is the one passed to it. -/
theorem fd_inSendBytes {fd fd' : ℤ} {response : Buffer w β} {phase : Phase w}
    (h : (inSendBytes fd response phase).fd = some fd') : fd' = fd := by
  unfold inSendBytes at h
  split at h <;> cases h
  rfl

/-- **A number comes to be held by a load of `mClientFd`.** -/
theorem Step.holds (h : Step s a s' es) {fd : ℤ} (hs : s'.Holds fd) :
    s.Holds fd ∨ fd = s.mContext.mClientFd := by
  cases h with
  | readLoadFd =>
    rcases hs with hr | hw
    · exact .inr (Option.some.inj hr).symm
    · exact .inl (.inr hw)
  | writeCallSend =>
    rcases hs with hr | hw
    · exact .inl (.inl hr)
    · exact .inr (fd_inSendBytes hw)
  | writeSend hpc =>
    rcases hs with hr | hw
    · exact .inl (.inl hr)
    · exact .inl (.inr (by rw [hpc, fd_inSendBytes hw]; rfl))
  | readRecv =>
    rcases hs with hr | hw
    · exact absurd hr (by simp)
    · exact .inl (.inr hw)
  | callBody => exact .inl (by simpa [Holds] using hs)
  | readWake => exact .inl (by simpa [Holds] using hs)
  | writeWake => exact .inl (by simpa [Holds] using hs)
  | readExitNotify => exact .inl (.inr (by simpa [Holds, ReadPc.fd] using hs))
  | writeExitNotify => exact .inl (.inl (by simpa [Holds, WritePc.fd] using hs))
  | _ =>
    first
    | exact .inl hs
    | exact .inl (.inr (hs.resolve_left nofun))
    | exact .inl (.inl (hs.resolve_right nofun))

/-- **A `recv` or a `send` is made on a number that is held.** -/
theorem Step.holds_event (h : Step s a s' es) {e : Event w β} (he : e ∈ es) {fd : ℤ}
    (hfd : e.fd = some fd) : s.Holds fd := by
  cases h with
  | readRecv hpc =>
    obtain rfl := List.mem_singleton.mp he
    exact .inl (by rw [hpc]; exact hfd)
  | writeSend hpc =>
    obtain rfl := List.mem_singleton.mp he
    exact .inr (by rw [hpc]; exact hfd)
  | destroyOpen => obtain rfl := List.mem_singleton.mp he; cases hfd
  | readExitClose => obtain rfl := List.mem_singleton.mp he; cases hfd
  | writeExitClose => obtain rfl := List.mem_singleton.mp he; cases hfd
  | writeCopy => obtain rfl := List.mem_singleton.mp he; cases hfd
  | writeCallSend => obtain rfl := List.mem_singleton.mp he; cases hfd
  | callBody => obtain rfl := List.mem_singleton.mp he; cases hfd
  | _ => cases he

@[simp] theorem chunk_notify (pc : ReadPc β) : pc.notify.chunk = pc.chunk :=
  apply_notify_read ReadPc.chunk rfl pc

theorem chunk_afterRecv (answer : Received β) : (afterRecv answer).chunk = answer.bytes := by
  unfold afterRecv
  split <;> rfl

/-- Nothing received is lost, repeated or reordered by a step. -/
theorem Step.request (h : Step s a s' es) (hd : DoWorkAgrees s) :
    s'.mContext.mRequest ++ s'.reader.chunk
      = s.mContext.mRequest ++ s.reader.chunk ++ received es := by
  cases h with
  | startRecv hpc =>
    have hreader : s.reader = .unstarted := hd.recvStarted.mp (by rw [hpc]; rfl)
    simp [hreader, ReadPc.chunk, received]
  | @readRecv fd answer hpc =>
    have hbefore : s.reader.chunk = [] := by rw [hpc]; rfl
    simp [chunk_afterRecv, hbefore, received, Event.received]
  | writeExitNotify => simp [received]
  | readLock hpc => rcases hpc with hpc | hpc <;> simp [hpc, received, ReadPc.chunk]
  | @callBody i call rest hpc => cases call <;> simp [assign, received, Event.received]
  | _ => simp [received, Event.received, ReadPc.chunk, *]

/-- **`mRequest` is what `recv` has given**, up to the chunk in the read
thread's hands. -/
theorem request_of_run {ok : ThreadsTcpBroWorker w β → Action w β → Prop}
    (h : (machine w β).Run ok (init context) es s) :
    s.mContext.mRequest ++ s.reader.chunk = context.mRequest ++ received es := by
  refine h.invariant (I := fun es s =>
    s.mContext.mRequest ++ s.reader.chunk = context.mRequest ++ received es) (by rfl) ?_
  intro es s a s' es' hrun hi _ hs
  rw [(Step.of_step hs).request (doWorkAgrees_of_run hrun), hi, List.append_assoc, received,
    received, received, List.flatMap_append]

end Steps

end ThreadsTcpBroWorker
