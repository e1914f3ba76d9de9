import NetUtils.HandleEnd

/-!
# How often an echo handler closes its client's descriptor

Three places close it: the read thread at its end, the write thread at its own
(the IPv6 handler's always, the IPv4 handler's when a `send` has answered `0`),
and the destructor of the context. Each reads `mClientFd` and closes what it
has read, and the two threads store `INVALID_FD` afterwards, without a lock
between any of it. The destructor finds `INVALID_FD`, because it comes after
the read thread has returned, and so does the write thread of the IPv6
handler, because `INVALID_FD` is what has made it leave its loop. But the two
threads of the IPv4 handler can each have read the number before the other has
stored `INVALID_FD`, and then each closes it – the second time whoever has
been given the number since.

`closed_at_most_once` says that they have to meet like that, and
`closed_twice_of_meets` that once they have, the second close can always come.
-/

open Transfer

variable {w : ℕ}

/-- The read thread is between reading `mClientFd` for its close and storing
`INVALID_FD`. -/
def HandleReadPc.atClose : HandleReadPc w → Bool
  | close _ => true
  | storeInvalid => true
  | _ => false

/-- So is the write thread. -/
def HandleWritePc.atClose : HandleWritePc w → Bool
  | close _ => true
  | storeInvalid => true
  | _ => false

/-- The read thread has stored `INVALID_FD`. -/
def HandleReadPc.hasStored : HandleReadPc w → Bool
  | notifyEnd => true
  | returned => true
  | _ => false

/-- The write thread has stored `INVALID_FD`, or is where it would be if it
had. -/
def HandleWritePc.hasStored : HandleWritePc w → Bool
  | checkDone => true
  | returned => true
  | _ => false

/-- The write thread has left its loop for good, or is where the IPv4 handler
may leave it. -/
def HandleWritePc.leaves : HandleWritePc w → Bool
  | exitUnlock => true
  | loadClose => true
  | close _ => true
  | storeInvalid => true
  | checkDone => true
  | returned => true
  | _ => false

/-- `doWork` is past joining the read thread. -/
def HandleMainPc.readJoined : HandleMainPc → Bool
  | joinWrite => true
  | returned => true
  | destroyed => true
  | _ => false

namespace ThreadsClientHandle

/-- The number of `close` calls on a descriptor. -/
def closes (fd : ℤ) (es : List (Event w)) : ℕ :=
  es.countP fun e => match e with
    | .close n => decide (n = fd)
    | _ => false

/-- One thread is about to read `mClientFd` for its close while the other is
between its own reading and its store. -/
def ClosersMeet (s : ThreadsClientHandle w) (a : Action) : Prop :=
  (a = .reader ∧ s.reader = .loadClose ∧ s.writer.atClose = true)
    ∨ (a = .writer ∧ s.writer = .loadClose ∧ s.reader.atClose = true)

/-- The condition on a step: the closers do not meet. -/
def ClosesAlone (s : ThreadsClientHandle w) (a : Action) : Prop := ¬ s.ClosersMeet a

instance (s : ThreadsClientHandle w) (a : Action) : Decidable (s.ClosersMeet a) :=
  inferInstanceAs (Decidable (_ ∨ _))

instance : DecidableRel (ClosesAlone : ThreadsClientHandle w → Action → Prop) :=
  fun s a => inferInstanceAs (Decidable (¬ s.ClosersMeet a))

section Invariants

variable {s s' : ThreadsClientHandle w} {a : Action} {es es' : List (Event w)}
variable {type : HandleType} {fd : ℤ} {n : ℕ}

theorem closes_append (fd : ℤ) (es es' : List (Event w)) :
    closes fd (es ++ es') = closes fd es + closes fd es' := List.countP_append

/-! ## What holds of every run -/

@[simp] theorem atClose_notify (pc : HandleWritePc w) : pc.notify.atClose = pc.atClose :=
  apply_notify HandleWritePc.atClose rfl pc

/-- **What `mClientFd` is**, whatever the threads do: the client's number or
`INVALID_FD`, and the latter once the read thread has stored it. -/
structure FieldSound (s : ThreadsClientHandle w) : Prop where
  field : s.mClientFd = s.client ∨ s.mClientFd = INVALID_FD
  stored : s.reader.hasStored = true → s.mClientFd = INVALID_FD
  joined : s.doWork.readJoined = true → s.reader = .returned

/-- A read thread that has not returned has not been joined. -/
theorem FieldSound.not_joined (hi : FieldSound s) {pc : HandleReadPc w} (hpc : s.reader = pc)
    (hne : pc ≠ .returned) : s.doWork.readJoined ≠ true :=
  fun hjoined => hne (hpc.symm.trans (hi.joined hjoined))

/-- A step of the read thread before its store. -/
theorem FieldSound.of_reader (hi : FieldSound s) {pc : HandleReadPc w} (hpc : s.reader = pc)
    (hne : pc ≠ .returned) (hmain : s'.doWork = s.doWork)
    (hfield : s'.mClientFd = s.mClientFd ∧ s'.client = s.client)
    (hno : s'.reader.hasStored = false) : FieldSound s' where
  field := by
    rw [hfield.1, hfield.2]
    exact hi.field
  stored := fun hstored => absurd (hno.symm.trans hstored) Bool.false_ne_true
  joined := fun hjoined => absurd (hmain ▸ hjoined) (hi.not_joined hpc hne)

theorem FieldSound.step (h : Step s a s' es) (hi : FieldSound s) : FieldSound s' := by
  have ⟨hf, hs, hj⟩ := hi
  cases h with
  | startRead => exact ⟨hf, nofun, nofun⟩
  | startWrite => exact ⟨hf, hs, nofun⟩
  | joinRead _ hreader => exact ⟨hf, hs, fun _ => hreader⟩
  | joinWrite hpc => exact ⟨hf, hs, fun _ => hj (by rw [hpc]; rfl)⟩
  | destroyClosed hpc => exact ⟨hf, hs, fun _ => hj (by rw [hpc]; rfl)⟩
  | destroyOpen hpc => exact ⟨hf, hs, fun _ => hj (by rw [hpc]; rfl)⟩
  | readRecv hpc _ hafter =>
    exact hi.of_reader hpc nofun rfl ⟨rfl, rfl⟩ (afterRecv_cases
      (P := fun pc => pc.hasStored = false) hafter rfl rfl (fun _ _ _ _ => rfl))
  | readStore hpc =>
    exact ⟨.inr rfl, fun _ => rfl, fun hjoined => absurd hjoined (hi.not_joined hpc nofun)⟩
  | readNotifyEnd hpc => exact ⟨hf, fun _ => hs (by rw [hpc]; rfl), fun _ => rfl⟩
  | readLoadFd hpc => exact hi.of_reader hpc nofun rfl ⟨rfl, rfl⟩ rfl
  | readLock hpc => exact hi.of_reader hpc nofun rfl ⟨rfl, rfl⟩ rfl
  | readPush hpc => exact hi.of_reader hpc nofun rfl ⟨rfl, rfl⟩ rfl
  | readUnlock hpc => exact hi.of_reader hpc nofun rfl ⟨rfl, rfl⟩ rfl
  | readNotify hpc => exact hi.of_reader hpc nofun rfl ⟨rfl, rfl⟩ rfl
  | readLoadClose hpc => exact hi.of_reader hpc nofun rfl ⟨rfl, rfl⟩ rfl
  | readClose hpc => exact hi.of_reader hpc nofun rfl ⟨rfl, rfl⟩ rfl
  | writeStoreIPV4 => exact ⟨.inr rfl, fun _ => rfl, hj⟩
  | writeStoreIPV6 => exact ⟨.inr rfl, fun _ => rfl, hj⟩
  | _ => exact ⟨hf, hs, hj⟩

theorem fieldSound_of_run {ok : ThreadsClientHandle w → Action → Prop}
    (h : (machine w).Run ok (init type fd) es s) : FieldSound s :=
  h.stateInvariant ⟨.inl rfl, nofun, nofun⟩ (fun hi _ hs => hi.step (Step.of_step hs))

/-! ## Closers that do not meet -/

/-- The client's descriptor has been closed: `INVALID_FD` is stored, or about
to be. -/
def HasClosed (s : ThreadsClientHandle w) : Prop :=
  s.mClientFd = INVALID_FD ∨ s.reader = .storeInvalid ∨ s.writer = .storeInvalid

/-- **What `n` closes of the client's descriptor have left**, as long as the
closers do not meet. -/
structure ClosesOnce (n : ℕ) (s : ThreadsClientHandle w) : Prop where
  /-- A thread about to close closes what is still in the field. -/
  reader : ∀ f, s.reader = .close f → f = s.mClientFd
  writer : ∀ f, s.writer = .close f → f = s.mClientFd
  /-- The threads are not both at it. -/
  alone : s.reader.atClose = true → s.writer.atClose = false
  /-- The descriptor has been closed once, or not at all. -/
  count : n = 1 ∧ s.HasClosed ∨ n = 0 ∧ ¬ s.HasClosed

theorem ClosesOnce.init (hfd : fd ≠ INVALID_FD) :
    ClosesOnce 0 (init type fd : ThreadsClientHandle w) where
  reader := nofun
  writer := nofun
  alone := nofun
  count := by
    refine .inr ⟨rfl, ?_⟩
    rintro (hinvalid | hstore | hstore)
    · exact hfd hinvalid
    · cases hstore
    · cases hstore

/-- A step that closes nothing and stores nothing. -/
theorem ClosesOnce.of_pcs (hi : ClosesOnce n s) (hfield : s'.mClientFd = s.mClientFd)
    (hr : s'.reader = s.reader ∨ s.reader ≠ .storeInvalid ∧ s'.reader.atClose = false)
    (hw : s'.writer = s.writer ∨ s.writer ≠ .storeInvalid ∧ s'.writer.atClose = false) :
    ClosesOnce n s' where
  reader := fun f hpc => by
    rcases hr with hsame | ⟨-, hno⟩
    · exact (hi.reader f (hsame ▸ hpc)).trans hfield.symm
    · rw [hpc] at hno
      cases hno
  writer := fun f hpc => by
    rcases hw with hsame | ⟨-, hno⟩
    · exact (hi.writer f (hsame ▸ hpc)).trans hfield.symm
    · rw [hpc] at hno
      cases hno
  alone := fun hclosing => by
    rcases hr with hsame | ⟨-, hno⟩
    · rcases hw with hsame' | ⟨-, hno⟩
      · rw [hsame']
        exact hi.alone (hsame ▸ hclosing)
      · exact hno
    · cases hno.symm.trans hclosing
  count := by
    have hreader : s'.reader = .storeInvalid ↔ s.reader = .storeInvalid := by
      rcases hr with hsame | ⟨hne, hno⟩
      · rw [hsame]
      · exact iff_of_false (fun hpc => by rw [hpc] at hno; cases hno) hne
    have hwriter : s'.writer = .storeInvalid ↔ s.writer = .storeInvalid := by
      rcases hw with hsame | ⟨hne, hno⟩
      · rw [hsame]
      · exact iff_of_false (fun hpc => by rw [hpc] at hno; cases hno) hne
    have hsame : s'.HasClosed ↔ s.HasClosed := by
      rw [HasClosed, HasClosed, hfield, hreader, hwriter]
    rw [hsame]
    exact hi.count

/-- A notification changes nothing for the closers. -/
theorem notify_cases (pc : HandleWritePc w) :
    pc.notify = pc ∨ pc ≠ .storeInvalid ∧ pc.notify.atClose = false := by
  cases pc with
  | waiting => exact .inr ⟨nofun, rfl⟩
  | _ => exact .inl rfl

/-- A step of the read thread away from its close. -/
theorem ClosesOnce.of_reader (hi : ClosesOnce n s) {pc : HandleReadPc w} (hpc : s.reader = pc)
    (hne : pc ≠ .storeInvalid) (hno : s'.reader.atClose = false)
    (hfield : s'.mClientFd = s.mClientFd)
    (hwriter : s'.writer = s.writer ∨ s'.writer = s.writer.notify) : ClosesOnce n s' := by
  refine hi.of_pcs hfield (.inr ⟨hpc ▸ hne, hno⟩) ?_
  rcases hwriter with hsame | hsame <;> rw [hsame]
  · exact .inl rfl
  · exact notify_cases _

/-- A step of the write thread away from its close. -/
theorem ClosesOnce.of_writer (hi : ClosesOnce n s) {pc : HandleWritePc w} (hpc : s.writer = pc)
    (hne : pc ≠ .storeInvalid) (hno : s'.writer.atClose = false)
    (hfield : s'.mClientFd = s.mClientFd) (hreader : s'.reader = s.reader) : ClosesOnce n s' :=
  hi.of_pcs hfield (.inl hreader) (.inr ⟨hpc ▸ hne, hno⟩)

theorem inSend_atClose (type : HandleType) (send_msg : Buffer w UInt8) (phase : Phase w) :
    (inSend type send_msg phase).atClose = false :=
  inSend_cases (P := fun pc => pc.atClose = false) type send_msg phase (fun _ => rfl) rfl rfl rfl

theorem afterRecv_atClose {answer : Received UInt8} {beyond : List UInt8} {pc : HandleReadPc w}
    (h : afterRecv type answer beyond = some pc) : pc.atClose = false :=
  afterRecv_cases (P := fun pc => pc.atClose = false) h rfl rfl (fun _ _ _ _ => rfl)

theorem closes_close (fd f : ℤ) :
    closes fd [(.close f : Event w)] = if f = fd then 1 else 0 := by
  by_cases h : f = fd <;> simp [closes, h]

/-- A close by a thread that is alone at it. -/
theorem count_of_close {f : ℤ} (hcount : n = 1 ∧ s.HasClosed ∨ n = 0 ∧ ¬ s.HasClosed)
    (hf : f = s.mClientFd) (hfield : s.mClientFd = s.client ∨ s.mClientFd = INVALID_FD)
    (hvalid : s.client ≠ INVALID_FD) (hr : s.reader ≠ .storeInvalid)
    (hw : s.writer ≠ .storeInvalid) (hclosed : s'.HasClosed) :
    n + closes s.client [(.close f : Event w)] = 1 ∧ s'.HasClosed
      ∨ n + closes s.client [(.close f : Event w)] = 0 ∧ ¬ s'.HasClosed := by
  refine .inl ⟨?_, hclosed⟩
  rw [closes_close, hf]
  rcases hfield with hopen | hinvalid
  · rcases hcount with ⟨-, hinvalid | hstore | hstore⟩ | ⟨rfl, -⟩
    · exact absurd (hopen.symm.trans hinvalid) hvalid
    · exact absurd hstore hr
    · exact absurd hstore hw
    · rw [if_pos hopen]
  · rcases hcount with ⟨rfl, -⟩ | ⟨-, hnot⟩
    · rw [if_neg (by rw [hinvalid]; exact hvalid.symm)]
    · exact absurd (.inl hinvalid) hnot

/-- A store counts for the close before it. -/
theorem count_of_store (hcount : n = 1 ∧ s.HasClosed ∨ n = 0 ∧ ¬ s.HasClosed)
    (hclosed : s.HasClosed) (hclosed' : s'.HasClosed) :
    n = 1 ∧ s'.HasClosed ∨ n = 0 ∧ ¬ s'.HasClosed := by
  rcases hcount with ⟨rfl, -⟩ | ⟨-, hnot⟩
  · exact .inl ⟨rfl, hclosed'⟩
  · exact absurd hclosed hnot

theorem ClosesOnce.step (h : Step s a s' es) (hok : ClosesAlone s a) (hsound : FieldSound s)
    (hstart : StartsOnce s) (hvalid : s.client ≠ INVALID_FD) (hi : ClosesOnce n s) :
    ClosesOnce (n + closes s.client es) s' := by
  -- a thread at its close, or its store, is the only one
  have hreads {pc : HandleReadPc w} (hpc : s.reader = pc) (hat : pc.atClose = true) :
      s.writer.atClose = false := hi.alone (hpc ▸ hat)
  have hwrites {pc : HandleWritePc w} (hpc : s.writer = pc) (hat : pc.atClose = true) :
      s.reader.atClose = false :=
    Bool.eq_false_iff.mpr fun hclosing =>
      absurd ((hpc ▸ hi.alone hclosing).symm.trans hat) nofun
  have hreader {pc : HandleReadPc w} (hno : s.reader.atClose = false) (hpc : pc.atClose = true) :
      s.reader ≠ pc := fun heq => absurd ((heq ▸ hno).symm.trans hpc) nofun
  have hwriter {pc : HandleWritePc w} (hno : s.writer.atClose = false) (hpc : pc.atClose = true) :
      s.writer ≠ pc := fun heq => absurd ((heq ▸ hno).symm.trans hpc) nofun
  have hnot {pc : HandleWritePc w} (hno : s.reader.atClose = false)
      (hclosing : s.reader.atClose = true) : pc.atClose = false :=
    absurd (hno.symm.trans hclosing) Bool.false_ne_true
  cases h with
  | destroyOpen hpc hfd =>
    have hreturned := hsound.joined (by rw [hpc]; rfl)
    exact absurd (hsound.stored (by rw [hreturned]; rfl)) hfd
  | readLoadClose hpc =>
    have hno : s.writer.atClose = false :=
      Bool.eq_false_iff.mpr fun hclosing => hok (.inl ⟨rfl, hpc, hclosing⟩)
    refine ⟨by rintro f ⟨⟩; rfl, hi.writer, fun _ => hno, ?_⟩
    have hsame : HasClosed { s with reader := .close s.mClientFd } ↔ s.HasClosed := by
      simp [HasClosed, hpc]
    rw [hsame]
    exact hi.count
  | readClose hpc =>
    refine ⟨nofun, hi.writer, fun _ => hreads hpc rfl, ?_⟩
    exact count_of_close hi.count (hi.reader _ hpc) hsound.field hvalid (by rw [hpc]; exact nofun)
      (hwriter (hreads hpc rfl) rfl) (.inr (.inl rfl))
  | readStore hpc =>
    refine ⟨nofun, fun f hclose => absurd hclose (hwriter (hreads hpc rfl) rfl), nofun, ?_⟩
    exact count_of_store hi.count (.inr (.inl hpc)) (.inl rfl)
  | writeLoadClose hpc =>
    have hno : s.reader.atClose = false :=
      Bool.eq_false_iff.mpr fun hclosing => hok (.inr ⟨rfl, hpc, hclosing⟩)
    refine ⟨hi.reader, by rintro f ⟨⟩; rfl, hnot hno, ?_⟩
    have hsame : HasClosed { s with writer := .close s.mClientFd } ↔ s.HasClosed := by
      simp [HasClosed, hpc]
    rw [hsame]
    exact hi.count
  | writeClose hpc =>
    have hno := hwrites hpc rfl
    refine ⟨hi.reader, nofun, hnot hno, ?_⟩
    exact count_of_close hi.count (hi.writer _ hpc) hsound.field hvalid (hreader hno rfl)
      (by rw [hpc]; exact nofun) (.inr (.inr rfl))
  | writeStoreIPV4 hpc =>
    have hno := hwrites hpc rfl
    refine ⟨fun f hclose => absurd hclose (hreader hno rfl), nofun, fun _ => rfl, ?_⟩
    exact count_of_store hi.count (.inr (.inr hpc)) (.inl rfl)
  | writeStoreIPV6 hpc =>
    have hno := hwrites hpc rfl
    refine ⟨fun f hclose => absurd hclose (hreader hno rfl), nofun, fun _ => rfl, ?_⟩
    exact count_of_store hi.count (.inr (.inr hpc)) (.inl rfl)
  | startRead hpc =>
    exact hi.of_reader (hstart.read.mpr hpc) nofun rfl rfl (.inl rfl)
  | startWrite hpc =>
    exact hi.of_writer (hstart.write.mpr (.inr hpc)) nofun rfl rfl rfl
  | joinRead => exact hi.of_pcs rfl (.inl rfl) (.inl rfl)
  | joinWrite => exact hi.of_pcs rfl (.inl rfl) (.inl rfl)
  | destroyClosed => exact hi.of_pcs rfl (.inl rfl) (.inl rfl)
  | readRecv hpc _ hafter =>
    exact hi.of_reader hpc nofun (afterRecv_atClose hafter) rfl (.inl rfl)
  | readNotify hpc => exact hi.of_reader hpc nofun rfl rfl (.inr rfl)
  | readNotifyEnd hpc => exact hi.of_reader hpc nofun rfl rfl (.inr rfl)
  | writeWake => exact hi.of_pcs rfl (.inl rfl) (notify_cases _)
  | writeUnlock hpc => exact hi.of_writer hpc nofun (inSend_atClose _ _ _) rfl rfl
  | writeSend hpc => exact hi.of_writer hpc nofun (inSend_atClose _ _ _) rfl rfl
  | readLoadFd hpc => exact hi.of_reader hpc nofun rfl rfl (.inl rfl)
  | readLock hpc => exact hi.of_reader hpc nofun rfl rfl (.inl rfl)
  | readPush hpc => exact hi.of_reader hpc nofun rfl rfl (.inl rfl)
  | readUnlock hpc => exact hi.of_reader hpc nofun rfl rfl (.inl rfl)
  | writeLock hpc => exact hi.of_writer hpc nofun rfl rfl rfl
  | writeRelockIPV4 hpc => exact hi.of_writer hpc nofun rfl rfl rfl
  | writeRelockIPV6 hpc => exact hi.of_writer hpc nofun rfl rfl rfl
  | writeEmpty hpc => exact hi.of_writer hpc nofun rfl rfl rfl
  | writeNonempty hpc => exact hi.of_writer hpc nofun rfl rfl rfl
  | writeWait hpc => exact hi.of_writer hpc nofun rfl rfl rfl
  | writeInvalid hpc => exact hi.of_writer hpc nofun rfl rfl rfl
  | writeValid hpc => exact hi.of_writer hpc nofun rfl rfl rfl
  | writeTake hpc => exact hi.of_writer hpc nofun rfl rfl rfl
  | writeLoadFd hpc => exact hi.of_writer hpc nofun rfl rfl rfl
  | writeExitIPV4 hpc => exact hi.of_writer hpc nofun rfl rfl rfl
  | writeExitIPV6 hpc => exact hi.of_writer hpc nofun rfl rfl rfl
  | writeDone hpc => exact hi.of_writer hpc nofun rfl rfl rfl
  | writeNext hpc => exact hi.of_writer hpc nofun rfl rfl rfl

/-! ## Along a run -/

theorem closesOnce_of_run (hfd : fd ≠ INVALID_FD)
    (h : (machine w).Run ClosesAlone (init type fd) es s) : ClosesOnce (closes fd es) s := by
  refine h.invariant (I := fun es s => ClosesOnce (closes fd es) s) (.init hfd) ?_
  intro es s a s' es' hrun hi hok hs
  have hclient : s.client = fd := (type_client_of_run hrun).2
  have hstep := hi.step (Step.of_step hs) hok (fieldSound_of_run hrun) (startsOnce_of_run hrun)
    (by rw [hclient]; exact hfd)
  rwa [hclient, ← closes_append] at hstep

theorem ClosesOnce.le_one (hi : ClosesOnce n s) : n ≤ 1 := by
  rcases hi.count with ⟨hone, -⟩ | ⟨hnone, -⟩
  · exact hone.le
  · rw [hnone]
    exact Nat.zero_le 1

/-! ## Closers that meet -/

/-- Who has stored `INVALID_FD` is behind its store. -/
def StoredBy (s : ThreadsClientHandle w) : Prop :=
  s.mClientFd = INVALID_FD → s.reader.hasStored = true ∨ s.writer.hasStored = true

@[simp] theorem hasStored_notify (pc : HandleWritePc w) : pc.notify.hasStored = pc.hasStored :=
  apply_notify HandleWritePc.hasStored rfl pc

theorem StoredBy.step (h : Step s a s' es) (hstart : StartsOnce s) (hi : StoredBy s) :
    StoredBy s' := by
  cases h with
  | startRead hpc =>
    refine fun hinvalid => (hi hinvalid).imp_left fun hstored => ?_
    rw [hstart.read.mpr hpc] at hstored
    cases hstored
  | startWrite hpc =>
    refine fun hinvalid => (hi hinvalid).imp_right fun hstored => ?_
    rw [hstart.write.mpr (.inr hpc)] at hstored
    cases hstored
  | readStore => exact fun _ => .inl rfl
  | writeStoreIPV4 => exact fun _ => .inr rfl
  | writeStoreIPV6 => exact fun _ => .inr rfl
  | readNotify hpc =>
    refine fun hinvalid => (hi hinvalid).imp (fun hstored => ?_) fun hstored => ?_
    · rw [hpc] at hstored
      cases hstored
    · rw [notifyOne_writer, hasStored_notify]
      exact hstored
  | readNotifyEnd => exact fun _ => .inl rfl
  | writeWake => exact fun hinvalid => (hi hinvalid).imp_right fun hstored => by simpa using hstored
  | writeDone => exact fun _ => .inr rfl
  | writeNext _ hfd => exact fun hinvalid => absurd hinvalid hfd
  | _ =>
    intro hinvalid
    rcases hi hinvalid with hstored | hstored
    · first
      | exact .inl hstored
      | (rw [‹s.reader = _›] at hstored; cases hstored)
    · first
      | exact .inr hstored
      | (rw [‹s.writer = _›] at hstored; cases hstored)

theorem storedBy_of_run {ok : ThreadsClientHandle w → Action → Prop} (hfd : fd ≠ INVALID_FD)
    (h : (machine w).Run ok (init type fd) es s) : StoredBy s := by
  refine h.invariant (I := fun _ s => StoredBy s) (fun hinvalid => absurd hinvalid hfd) ?_
  intro es s a s' es' hrun hi _ hs
  exact hi.step (Step.of_step hs) (startsOnce_of_run hrun)

theorem hasStored_of_atClose_read {pc : HandleReadPc w} (h : pc.atClose = true) :
    pc.hasStored = false := by
  cases pc with
  | close fd => rfl
  | storeInvalid => rfl
  | _ => cases h

theorem hasStored_of_atClose_write {pc : HandleWritePc w} (h : pc.atClose = true) :
    pc.hasStored = false := by
  cases pc with
  | close fd => rfl
  | storeInvalid => rfl
  | _ => cases h

/-! ## The IPv6 handler

Its write thread leaves its loop where it has found `INVALID_FD`, and so behind
the read thread's store. -/

/-- The write thread of the IPv6 handler leaves its loop behind the read
thread's store. -/
def LeavesBehind (s : ThreadsClientHandle w) : Prop :=
  s.type = .IPV6ThreadsClientHandle → s.writer.leaves = true → s.reader.hasStored = true

theorem inSend_leaves (send_msg : Buffer w UInt8) (phase : Phase w) :
    (inSend .IPV6ThreadsClientHandle send_msg phase).leaves = false := by
  cases phase with
  | calling total_send => rfl
  | returned sent => cases sent <;> rfl

@[simp] theorem leaves_notify (pc : HandleWritePc w) : pc.notify.leaves = pc.leaves :=
  apply_notify HandleWritePc.leaves rfl pc

theorem LeavesBehind.step (h : Step s a s' es) (hstart : StartsOnce s) (hstored : StoredBy s)
    (hi : LeavesBehind s) : LeavesBehind s' := by
  intro htype hleaves
  -- a read thread that has not stored has the write thread in its loop
  have hreads {pc : HandleReadPc w} (hpc : s.reader = pc) (hnot : pc.hasStored = false)
      (htype : s.type = .IPV6ThreadsClientHandle) : s.writer.leaves = false :=
    Bool.eq_false_iff.mpr fun hleaves =>
      absurd (hnot.symm.trans (hpc ▸ hi htype hleaves)) Bool.false_ne_true
  cases h with
  | startRead hpc =>
    rw [hstart.write.mpr (.inl hpc)] at hleaves
    cases hleaves
  | writeInvalid hpc hfd =>
    refine (hstored hfd).resolve_right fun hwriter => ?_
    rw [hpc] at hwriter
    cases hwriter
  | writeUnlock => cases (htype ▸ inSend_leaves _ _).symm.trans hleaves
  | writeSend => cases (htype ▸ inSend_leaves _ _).symm.trans hleaves
  | readStore => rfl
  | readNotifyEnd => rfl
  | readNotify hpc =>
    rw [notifyOne_writer, leaves_notify, hreads hpc rfl htype] at hleaves
    cases hleaves
  | writeWake hpc =>
    rw [notifyOne_writer, hpc] at hleaves
    cases hleaves
  | _ =>
    first
    | exact hi htype hleaves
    | exact hi htype (by rw [‹s.writer = _›]; rfl)
    | cases (hreads ‹s.reader = _› rfl htype).symm.trans hleaves
    | cases hleaves

theorem leavesBehind_of_run {ok : ThreadsClientHandle w → Action → Prop} (hfd : fd ≠ INVALID_FD)
    (h : (machine w).Run ok (init type fd) es s) : LeavesBehind s := by
  refine h.invariant (I := fun _ s => LeavesBehind s) (fun _ hleaves => by cases hleaves) ?_
  intro es s a s' es' hrun hi _ hs
  exact hi.step (Step.of_step hs) (startsOnce_of_run hrun) (storedBy_of_run hfd hrun)

theorem leaves_of_atClose {pc : HandleWritePc w} (h : pc.atClose = true) : pc.leaves = true := by
  cases pc with
  | close fd => rfl
  | storeInvalid => rfl
  | _ => cases h

/-- The closers of the IPv6 handler do not meet. -/
theorem LeavesBehind.closesAlone (hi : LeavesBehind s) (htype : s.type = .IPV6ThreadsClientHandle) :
    ClosesAlone s a := by
  rintro (⟨-, hreader, hwriter⟩ | ⟨-, hwriter, hreader⟩)
  · have hstored := hi htype (leaves_of_atClose hwriter)
    rw [hreader] at hstored
    cases hstored
  · have hstored := hi htype (by rw [hwriter]; rfl)
    cases (hasStored_of_atClose_read hreader).symm.trans hstored

theorem closesAlone_of_run_ipv6 (hfd : fd ≠ INVALID_FD)
    (h : (machine w).Run Machine.always (init .IPV6ThreadsClientHandle fd) es s) :
    (machine w).Run ClosesAlone (init .IPV6ThreadsClientHandle fd) es s := by
  induction h with
  | start => exact .start
  | snoc hrun _ hs ih =>
    exact ih.snoc ((leavesBehind_of_run hfd hrun).closesAlone (type_client_of_run hrun).1) hs

/-- **The echo handlers close their client's descriptor at most once**: the
IPv6 handler in every run, the IPv4 handler in every run in which the two
threads do not meet at their closes. -/
theorem closed_at_most_once (hfd : fd ≠ INVALID_FD) :
    (∀ es s, (machine w).Run Machine.always (init .IPV6ThreadsClientHandle fd) es s →
        closes fd es ≤ 1)
      ∧ ∀ es s, (machine w).Run ClosesAlone (init .IPV4ThreadsClientHandle fd) es s →
        closes fd es ≤ 1 :=
  ⟨fun _ _ h => (closesOnce_of_run hfd (closesAlone_of_run_ipv6 hfd h)).le_one,
    fun _ _ h => (closesOnce_of_run hfd h).le_one⟩

/-- Where the closers meet the field still holds the client's number. -/
theorem mClientFd_of_meets (hsound : FieldSound s) (hstored : StoredBy s)
    (hmeets : s.ClosersMeet a) : s.mClientFd = s.client := by
  refine hsound.field.resolve_right fun hinvalid => ?_
  have hnot : s.reader.hasStored = false ∧ s.writer.hasStored = false := by
    rcases hmeets with ⟨-, hreader, hwriter⟩ | ⟨-, hwriter, hreader⟩
    · exact ⟨by rw [hreader]; rfl, hasStored_of_atClose_write hwriter⟩
    · exact ⟨hasStored_of_atClose_read hreader, by rw [hwriter]; rfl⟩
  rcases hstored hinvalid with hstored | hstored
  · cases hnot.1.symm.trans hstored
  · cases hnot.2.symm.trans hstored

/-- The read thread closes what it has read. -/
theorem step_readClose {f : ℤ} (hpc : s.reader = .close f) :
    (machine w).step s .reader
      = some ({ s.closed f with reader := .storeInvalid }, [.close f]) := by
  simp only [machine, step, stepReader, hpc]

/-- So does the write thread. -/
theorem step_writeClose {f : ℤ} (hpc : s.writer = .close f) :
    (machine w).step s .writer
      = some ({ s.closed f with writer := .storeInvalid }, [.close f]) := by
  simp only [machine, step, stepWriter, hpc]

/-- The read thread reads the field and closes. -/
theorem run_readCloses (hpc : s.reader = .loadClose) :
    (machine w).Run Machine.always s [.close s.mClientFd]
      { s.closed s.mClientFd with reader := .storeInvalid } := by
  have hload : (machine w).step s .reader = some ({ s with reader := .close s.mClientFd }, []) := by
    simp only [machine, step, stepReader, hpc]
  exact (Machine.Run.single trivial hload).snoc trivial (step_readClose rfl)

/-- The write thread does. -/
theorem run_writeCloses (hpc : s.writer = .loadClose) :
    (machine w).Run Machine.always s [.close s.mClientFd]
      { s.closed s.mClientFd with writer := .storeInvalid } := by
  have hload : (machine w).step s .writer = some ({ s with writer := .close s.mClientFd }, []) := by
    simp only [machine, step, stepWriter, hpc]
  exact (Machine.Run.single trivial hload).snoc trivial (step_writeClose rfl)

/-- **Once the closers have met, the descriptor can be closed twice.** -/
theorem closed_twice_of_meets (hfd : fd ≠ INVALID_FD)
    (h : (machine w).Run ClosesAlone (init type fd) es s) (hmeets : s.ClosersMeet a) :
    ∃ es' s', (machine w).Run Machine.always s es' s' ∧ closes fd (es ++ es') = 2 := by
  have hi := closesOnce_of_run hfd h
  have hfield : s.mClientFd = fd :=
    (mClientFd_of_meets (fieldSound_of_run h) (storedBy_of_run hfd h) hmeets).trans
      (type_client_of_run h).2
  have hone : closes fd [(.close s.mClientFd : Event w)] = 1 := by
    rw [closes_close, if_pos hfield]
  -- nobody has closed while both are before their closes
  have hnone (hreader : s.reader ≠ .storeInvalid) (hwriter : s.writer ≠ .storeInvalid) :
      closes fd es = 0 := by
    rcases hi.count with ⟨-, hinvalid | hstore | hstore⟩ | ⟨hzero, -⟩
    · exact absurd (hfield.symm.trans hinvalid) hfd
    · exact absurd hstore hreader
    · exact absurd hstore hwriter
    · exact hzero
  have hclosed (hstore : s.HasClosed) : closes fd es = 1 :=
    hi.count.elim And.left fun hnot => absurd hstore hnot.2
  rcases hmeets with ⟨-, hreader, hwriter⟩ | ⟨-, hwriter, hreader⟩
  · cases hpc : s.writer with
    | close f =>
      -- the write thread has read the field already
      obtain rfl := hi.writer f hpc
      refine ⟨_, _, (run_readCloses hreader).snoc trivial (step_writeClose hpc), ?_⟩
      rw [closes_append, closes_append, hone, hnone (by rw [hreader]; exact nofun)
        (by rw [hpc]; exact nofun)]
    | storeInvalid =>
      refine ⟨_, _, run_readCloses hreader, ?_⟩
      rw [closes_append, hone, hclosed (.inr (.inr hpc))]
    | _ =>
      rw [hpc] at hwriter
      cases hwriter
  · cases hpc : s.reader with
    | close f =>
      obtain rfl := hi.reader f hpc
      refine ⟨_, _, (run_writeCloses hwriter).snoc trivial (step_readClose hpc), ?_⟩
      rw [closes_append, closes_append, hone, hnone (by rw [hpc]; exact nofun)
        (by rw [hwriter]; exact nofun)]
    | storeInvalid =>
      refine ⟨_, _, run_writeCloses hwriter, ?_⟩
      rw [closes_append, hone, hclosed (.inr (.inl hpc))]
    | _ =>
      rw [hpc] at hreader
      cases hreader

end Invariants

/-! ## A client that goes while it is answered -/

/-- A byte is received, and the peer closes: the read thread stands before its
close. -/
def untilReadEnds : List Action :=
  [.doWork, .doWork, .reader, .recv (.got [0x41]) []] ++ List.replicate 5 .reader
    ++ [.recv (.got []) []]

/-- The write thread takes the byte, and its `send` answers `0`: it stands
before its close. -/
def untilSendFails : List Action := List.replicate 6 .writer ++ [.send (.count 0)]

/-- The IPv6 handler's two closes are of the client's descriptor and of `-1`,
and so are the IPv4 handler's when the write thread has stored `INVALID_FD`
before the read thread reads the field. -/
theorem closed_at_most_once_twoCloses :
    (∃ es s, (machine 64).Run Machine.always (init .IPV6ThreadsClientHandle 5) es s
      ∧ s.doWork = .destroyed ∧ closes (-1) es = 1 ∧ closes 5 es ≤ 1)
    ∧ ∃ es s, (machine 64).Run ClosesAlone (init .IPV4ThreadsClientHandle 5) es s
      ∧ s.doWork = .destroyed ∧ closes (-1) es = 1 ∧ closes 5 es ≤ 1 := by
  constructor
  · obtain ⟨es, s, hrun, hend, hother⟩ : ∃ es s,
        (machine 64).Run Machine.always (init .IPV6ThreadsClientHandle 5) es s
        ∧ s.doWork = .destroyed ∧ closes (-1) es = 1 :=
      Machine.Run.exists_of_exec (untilWait ++ [.writer] ++ readEnds ++ List.replicate 6 .writer
        ++ List.replicate 3 .doWork) (by decide +kernel)
    exact ⟨es, s, hrun, hend, hother, (closed_at_most_once (by decide)).1 es s hrun⟩
  · obtain ⟨es, s, hrun, hend, hother⟩ : ∃ es s,
        (machine 64).Run ClosesAlone (init .IPV4ThreadsClientHandle 5) es s
        ∧ s.doWork = .destroyed ∧ closes (-1) es = 1 :=
      Machine.Run.exists_of_exec (untilReadEnds ++ untilSendFails ++ List.replicate 4 .writer
        ++ List.replicate 4 .reader ++ List.replicate 3 .doWork) (by decide +kernel)
    exact ⟨es, s, hrun, hend, hother, (closed_at_most_once (by decide)).2 es s hrun⟩

/-- **The IPv4 handler can close its client's descriptor twice.** Each thread
reads the field before the other stores, and the second close comes after the
number is free for another client. -/
theorem client_closed_twice :
    ∃ es s, (machine 64).Run Machine.always (init .IPV4ThreadsClientHandle 5) es s
      ∧ closes 5 es = 2 :=
  Machine.Run.exists_of_exec
    (untilReadEnds ++ untilSendFails ++ [.writer, .reader, .writer, .reader]) (by decide +kernel)

end ThreadsClientHandle
