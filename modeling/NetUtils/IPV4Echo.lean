import NetUtils.HandleStreams

/-!
# The IPv4 echo

What the IPv4 handler has sent to its client ought to be the beginning of
what it has received from it. Its sending loop is that of
`IOHelper::send_bytes`, and so is its slip: the `-1` of a failed `send` is
stored in a `size_t`, passes the test `sb < 0`, and is added to the counter.
At the start of a message the rest of the loop is skipped and the message is
never sent; past it the loop goes back by one byte and sends that again. The
server gives its sockets a timeout of ten seconds (`SO_SNDTIMEO`), so a slow
client is enough.

`echoes_exactly` says that this is all that can go wrong: along every run in
which no `send` on the client's connection fails, the bytes accepted are a
prefix of the bytes received. The invariant behind it (`Echoes`) has more
to say as long as the connection is open and the write thread has not begun
to close it: the bytes accepted, those going out, and the message in the
read thread's hands *are* the bytes received.
-/

open Transfer IOHelper

variable {w : ℕ}

/-- The write thread has left the sending loop to close the descriptor. -/
def HandleWritePc.closing : HandleWritePc w → Bool
  | loadClose => true
  | close _ => true
  | _ => false

namespace ThreadsClientHandle

/-- The bytes an event takes from the client. -/
def Event.received : Event w → List UInt8
  | .recv _ true answer => answer.bytes
  | _ => []

/-- The bytes the kernel accepts for sending to the client in an event. -/
def Event.accepted : Event w → List UInt8
  | .send _ true bytes => bytes
  | _ => []

/-- The bytes received from the client, in order. -/
def received (es : List (Event w)) : List UInt8 := es.flatMap Event.received

/-- The bytes accepted for sending to the client, in order. -/
def accepted (es : List (Event w)) : List UInt8 := es.flatMap Event.accepted

theorem received_append (es es' : List (Event w)) :
    received (es ++ es') = received es ++ received es' := List.flatMap_append

theorem accepted_append (es es' : List (Event w)) :
    accepted (es ++ es') = accepted es ++ accepted es' := List.flatMap_append

@[simp] theorem received_nil : received ([] : List (Event w)) = [] := rfl

@[simp] theorem accepted_nil : accepted ([] : List (Event w)) = [] := rfl

@[simp] theorem received_singleton (e : Event w) : received [e] = e.received :=
  List.append_nil _

@[simp] theorem accepted_singleton (e : Event w) : accepted [e] = e.accepted :=
  List.append_nil _

/-- A `send` on the client's connection fails. -/
def sendFails (s : ThreadsClientHandle w) : Action → Bool
  | .send (.error _) => s.writer.fd.any s.onClient
  | _ => false

/-- The condition on a step: it is not a `send` that fails on the client's
connection. -/
def NoSendFails (s : ThreadsClientHandle w) (a : Action) : Prop := s.sendFails a = false

instance : DecidableRel (NoSendFails (w := w)) := fun s a =>
  inferInstanceAs (Decidable (s.sendFails a = false))

section Echo

variable {s s' : ThreadsClientHandle w} {a : Action} {es : List (Event w)} {fd : ℤ}

/-! ## While the connection is open, and afterwards -/

/-- While the connection is open all that is received comes from the client,
and all that is sent goes to it. -/
theorem Step.on_client (h : Step s a s' es) (hopen : s.isOpen = true) (hi : HoldsClient s) :
    accepted es = sent es ∧ received es = (chunks es).flatten := by
  cases h with
  | @readRecv fd answer beyond pc hpc =>
    have hclient : s.onClient fd = true := by
      rw [onClient, hopen, hi.reader fd (by rw [hpc]; rfl)]
      simp
    rw [hclient]
    cases answer with
    | failed e => exact ⟨rfl, rfl⟩
    | got chunk => cases chunk <;> simp [accepted, received, Event.accepted, Event.received,
        Event.sent, Event.chunk, Received.bytes, Received.chunk]
  | @writeSend fd _ _ _ hpc =>
    have hclient : s.onClient fd = true := by
      rw [onClient, hopen, hi.writer fd (by rw [hpc]; rfl)]
      simp
    rw [hclient]
    simp [accepted, received, Event.accepted, Event.received, Event.sent, Event.chunk]
  | _ => exact ⟨rfl, rfl⟩

/-- Once the connection has been closed, nothing is received from the client
and nothing sent to it. -/
theorem Step.off_client (h : Step s a s' es) (hclosed : s.isOpen = false) :
    accepted es = [] ∧ received es = [] := by
  have hoff (fd : ℤ) : s.onClient fd = false := by rw [onClient, hclosed]; rfl
  cases h with
  | readRecv => rw [hoff]; exact ⟨rfl, rfl⟩
  | writeSend => rw [hoff]; exact ⟨rfl, rfl⟩
  | _ => exact ⟨rfl, rfl⟩

/-- The write thread goes on to close, and sends nothing before. -/
theorem Step.closing (h : Step s a s' es) (hi : HoldsClient s) (hstart : StartsOnce s)
    (hclosing : s.writer.closing = true) :
    sent es = [] ∧ (s'.isOpen = true → s'.writer.closing = true) := by
  have hat {pc : HandleWritePc w} (hpc : s.writer = pc) : pc.closing = true := hpc ▸ hclosing
  cases h with
  | startWrite hpc => exact absurd (hat (hstart.write.mpr (.inr hpc))) Bool.false_ne_true
  | readNotify =>
    exact ⟨rfl, fun _ => (apply_notify HandleWritePc.closing rfl _).trans hclosing⟩
  | readNotifyEnd =>
    exact ⟨rfl, fun _ => (apply_notify HandleWritePc.closing rfl _).trans hclosing⟩
  | writeLoadClose => exact ⟨rfl, fun _ => rfl⟩
  | writeClose hpc =>
    refine ⟨rfl, fun hopen => absurd (hi.writer _ (by rw [hpc]; rfl)) ?_⟩
    exact of_decide_eq_true (Bool.and_eq_true_iff.mp hopen).2
  | _ =>
    first
    | exact ⟨rfl, fun _ => hclosing⟩
    | have hfalse := hat ‹s.writer = _›
      exact absurd hfalse Bool.false_ne_true

/-! ## The invariant -/

/-- **What has been received, and where it is.** -/
structure Echoes (es : List (Event w)) (s : ThreadsClientHandle w) : Prop where
  /-- What the kernel has accepted is the beginning of what was received. -/
  inOrder : accepted es <+: received es
  /-- The rest is with the threads, until the write thread gives up. -/
  complete : s.isOpen = true → s.writer.closing = false →
    accepted es ++ outgoing s ++ s.reader.inHand.toList.flatten = received es

/-- On the way through the IPv4 handler no byte gets lost, as long as every
`send` accepts some. -/
theorem Step.streams (h : Step s a s' es) (htype : s.type = .IPV4ThreadsClientHandle)
    (hstart : StartsOnce s) (hinside : SendsInside s) (hsome : a.SendsSome) :
    sent es ++ outgoing s' ++ s'.reader.inHand.toList.flatten
      = outgoing s ++ s.reader.inHand.toList.flatten ++ (chunks es).flatten := by
  have hpushes := h.pushes hstart fun chunk _ _ beyond => by
    rw [htype, recvMessage_IPV4]
  rw [h.sends hstart hinside hsome, List.append_assoc, ← List.flatten_append, hpushes,
    List.flatten_append, List.append_assoc]

/-- A `send` that answers `0` makes the IPv4 handler close. -/
theorem Step.closing_of_zero (h : Step s (.send (.count 0)) s' es)
    (htype : s.type = .IPV4ThreadsClientHandle) :
    s'.writer.closing = true ∧ sent es = [] := by
  cases h with
  | writeSend =>
    rw [sendBody_zero, htype]
    exact ⟨rfl, by simp [Event.sent, IoResult.transferred]⟩

theorem Echoes.step {es' : List (Event w)} (h : Step s a s' es')
    (htype : s.type = .IPV4ThreadsClientHandle) (hholds : s.isOpen = true → HoldsClient s)
    (hstart : StartsOnce s) (hinside : SendsInside s) (hok : NoSendFails s a)
    (hi : Echoes es s) : Echoes (es ++ es') s' := by
  have happend : accepted (es ++ es') = accepted es ++ accepted es'
      ∧ received (es ++ es') = received es ++ received es' :=
    ⟨List.flatMap_append, List.flatMap_append⟩
  -- a step that accepts nothing, and leaves nothing to be said about the rest
  have hnothing (hacc : accepted es' = [])
      (hlast : s'.isOpen = true → s'.writer.closing = true) : Echoes (es ++ es') s' := by
    refine ⟨?_, fun hopen hcl => absurd ((hlast hopen).symm.trans hcl) Bool.true_eq_false.mp⟩
    rw [happend.1, happend.2, hacc, List.append_nil]
    exact hi.inOrder.trans (List.prefix_append _ _)
  cases hopen : s.isOpen with
  | false =>
    refine hnothing (h.off_client hopen).1 fun hopen' => ?_
    exact absurd (hopen.symm.trans (h.isOpen hopen')) Bool.false_ne_true
  | true =>
    obtain ⟨hacc, hrec⟩ := h.on_client hopen (hholds hopen)
    cases hcl : s.writer.closing with
    | true =>
      obtain ⟨hsent, hlast⟩ := h.closing (hholds hopen) hstart hcl
      exact hnothing (hacc.trans hsent) hlast
    | false =>
      by_cases hsome : a.SendsSome
      · have hcomplete : accepted (es ++ es') ++ outgoing s' ++ s'.reader.inHand.toList.flatten
            = received (es ++ es') := by
          rw [happend.1, happend.2, hacc, hrec, ← hi.complete hopen hcl]
          simpa only [List.append_assoc] using
            congrArg (accepted es ++ ·) (h.streams htype hstart hinside hsome)
        exact ⟨⟨_, by rw [← List.append_assoc]; exact hcomplete⟩, fun _ _ => hcomplete⟩
      · -- a `send` on the client's connection that accepts nothing
        cases a with
        | send answer =>
          cases answer with
          | error e =>
            cases h with
            | @writeSend fd _ _ _ hpc =>
              have hfd : s.writer.fd = some fd := by rw [hpc]; rfl
              have hclient := (hholds hopen).writer fd hfd
              simp [NoSendFails, sendFails, hfd, onClient, hopen, hclient] at hok
          | count n =>
            obtain rfl : n = 0 := Nat.eq_zero_of_not_pos hsome
            obtain ⟨hclosing, hsent⟩ := h.closing_of_zero htype
            exact hnothing (hacc.trans hsent) fun _ => hclosing
        | _ => exact absurd trivial hsome

theorem echoes_of_run
    (h : (machine w).Run NoSendFails (init .IPV4ThreadsClientHandle fd) es s) : Echoes es s := by
  refine h.invariant (I := Echoes) ⟨List.prefix_refl _, fun _ _ => rfl⟩ ?_
  intro es s a s' es' hrun hi hok hs
  exact hi.step (Step.of_step hs) (type_client_of_run hrun).1 (holdsClient_of_run hrun)
    (startsOnce_of_run hrun) (sendsInside_of_run hrun) hok

/-- **The IPv4 handler echoes exactly**, in every run in which no `send` on
the client's connection fails: what the kernel has accepted for sending to
the client is a prefix of what has been received from it. -/
theorem echoes_exactly
    (h : (machine w).Run NoSendFails (init .IPV4ThreadsClientHandle fd) es s) :
    accepted es <+: received es :=
  (echoes_of_run h).inOrder

end Echo

/-! ## A run with and a run without a failing `send` -/

/-- The two threads are started, three bytes are received and pushed, and the
write thread comes to its first `send`. -/
def untilSend : List Action :=
  [.doWork, .doWork, .reader, .recv (.got [97, 98, 99]) []] ++ List.replicate 3 .reader
    ++ List.replicate 6 .writer

/-- Three bytes are echoed in two pieces. -/
theorem echoes_exactly_abc :
    ∃ es s, (machine 64).Run NoSendFails (init .IPV4ThreadsClientHandle 5) es s
      ∧ accepted es = [97, 98, 99] ∧ accepted es <+: received es := by
  obtain ⟨es, s, hrun, hsent⟩ :
      ∃ es s, (machine 64).Run NoSendFails (init .IPV4ThreadsClientHandle 5) es s
        ∧ accepted es = [97, 98, 99] := by
    refine Machine.Run.exists_of_exec
      (untilSend ++ [.send (.count 2), .writer, .send (.count 1)]) ?_
    decide +kernel
  exact ⟨es, s, hrun, hsent, echoes_exactly hrun⟩

/-- **A byte is sent twice**: the first `send` takes two of three bytes, the
second times out, and the third starts one byte before. -/
theorem echoes_twice :
    ∃ es s, (machine 64).Run Machine.always (init .IPV4ThreadsClientHandle 5) es s
      ∧ received es = [97, 98, 99] ∧ accepted es = [97, 98, 98, 99]
      ∧ ¬ accepted es <+: received es := by
  refine Machine.Run.exists_of_exec (untilSend
    ++ [.send (.count 2), .writer, .send (.error .EAGAIN), .writer, .send (.count 2)]) ?_
  decide +kernel

end ThreadsClientHandle
