import NetUtils.HandleStep
import NetUtils.WorkerIo

/-!
# What goes through an echo handler

The read thread makes a message of each chunk and pushes it, the write thread
takes the messages and sends them. On the way nothing gets lost or out of
order: what is pushed and what the read thread still has in hand are the
messages made, and what is sent and what is still to go out are the messages
pushed. The first holds of every step that makes of the chunk the message it
is (`Step.pushes`), the second of every step but a `send` that fails or
answers `0` (`Step.sends`). A failed `send` is `Step.failed_send`.
-/

open Transfer IOHelper

variable {w : ℕ}

/-- The message in the read thread's hands. -/
def HandleReadPc.inHand : HandleReadPc w → Option (List UInt8)
  | lock recv_msg => some recv_msg.bytes
  | push recv_msg => some recv_msg.bytes
  | _ => none

/-- The bytes of the message taken that are still to be sent. -/
def HandleWritePc.rest : HandleWritePc w → List UInt8
  | unlock send_msg => send_msg.bytes
  | loadFd send_msg total_send => send_msg.bytes.drop total_send.toNat
  | send _ send_msg total_send => send_msg.bytes.drop total_send.toNat
  | _ => []

namespace ThreadsClientHandle

/-- The message pushed by an event. -/
def Event.pushed : Event w → Option (List UInt8)
  | .push message => some message.bytes
  | _ => none

/-- The chunk received by an event. -/
def Event.chunk : Event w → Option (List UInt8)
  | .recv _ _ answer => answer.chunk
  | _ => none

/-- The bytes accepted by a `send`. -/
def Event.sent : Event w → List UInt8
  | .send _ _ bytes => bytes
  | _ => []

/-- The messages pushed on `mMessageQueue`, in order. -/
def pushed (es : List (Event w)) : List (List UInt8) := es.filterMap Event.pushed

/-- The chunks received, in order. -/
def chunks (es : List (Event w)) : List (List UInt8) := es.filterMap Event.chunk

/-- The bytes the `send` calls have accepted, in order. -/
def sent (es : List (Event w)) : List UInt8 := es.flatMap Event.sent

/-- The bytes of the messages pushed that are still to be sent. -/
def outgoing (s : ThreadsClientHandle w) : List UInt8 :=
  s.writer.rest ++ s.mMessageQueue.flatMap Buffer.bytes

theorem pushed_append (es es' : List (Event w)) : pushed (es ++ es') = pushed es ++ pushed es' :=
  List.filterMap_append

theorem chunks_append (es es' : List (Event w)) : chunks (es ++ es') = chunks es ++ chunks es' :=
  List.filterMap_append

theorem sent_append (es es' : List (Event w)) : sent (es ++ es') = sent es ++ sent es' :=
  List.flatMap_append

@[simp] theorem pushed_nil : pushed ([] : List (Event w)) = [] := rfl

@[simp] theorem chunks_nil : chunks ([] : List (Event w)) = [] := rfl

@[simp] theorem sent_nil : sent ([] : List (Event w)) = [] := rfl

@[simp] theorem pushed_singleton (e : Event w) : pushed [e] = e.pushed.toList := by
  cases h : e.pushed <;> simp [pushed, h]

@[simp] theorem chunks_singleton (e : Event w) : chunks [e] = e.chunk.toList := by
  cases h : e.chunk <;> simp [chunks, h]

@[simp] theorem sent_singleton (e : Event w) : sent [e] = e.sent := by
  simp [sent]

section Streams

variable {s s' : ThreadsClientHandle w} {a : Action} {es : List (Event w)}
variable {ok : ThreadsClientHandle w → Action → Prop} {type : HandleType} {fd : ℤ}

@[simp] theorem rest_notify (pc : HandleWritePc w) : pc.notify.rest = pc.rest :=
  apply_notify HandleWritePc.rest rfl pc

/-- At the head of the sending loop the bytes from the counter on are left. -/
theorem rest_inSend_test (type : HandleType) (send_msg : Buffer w UInt8) (total : BitVec w) :
    (inSend type send_msg (test send_msg.size total)).rest
      = send_msg.bytes.drop total.toNat := by
  rcases Nat.lt_or_ge total.toNat send_msg.bytes.length with h | h
  · rw [test_of_lt (by rw [Buffer.toNat_size]; exact h)]
    rfl
  · rw [test_of_le (by rw [Buffer.toNat_size]; exact h), List.drop_of_length_le h]
    cases type <;> rfl

/-! ## Where the sending loop is -/

/-- The sending loop is at a call inside its message. -/
def SendsInside (s : ThreadsClientHandle w) : Prop :=
  ∀ send_msg total, (s.writer = .loadFd send_msg total
    ∨ ∃ fd, s.writer = .send fd send_msg total) → total.toNat < send_msg.bytes.length

theorem lt_of_inSend {send_msg msg : Buffer w UInt8} {phase : Phase w} {total : BitVec w}
    (hphase : ∀ next, phase = .calling next → next.toNat < send_msg.size.toNat)
    (h : inSend type send_msg phase = .loadFd msg total
      ∨ ∃ fd, inSend type send_msg phase = .send fd msg total) :
    total.toNat < msg.bytes.length := by
  cases phase with
  | calling next =>
    rcases h with h | ⟨fd, h⟩
    · cases h
      rw [← Buffer.toNat_size]
      exact hphase _ rfl
    · cases h
  | returned ok => cases ok <;> cases type <;> rcases h with h | ⟨fd, h⟩ <;> cases h

theorem SendsInside.step (h : Step s a s' es) (hi : SendsInside s) : SendsInside s' := by
  cases h with
  | writeUnlock => exact fun _ _ => lt_of_inSend fun _ => lt_of_test
  | writeSend => exact fun _ _ => lt_of_inSend fun _ => lt_of_sendBody
  | writeLoadFd hpc =>
    rintro _ _ (⟨⟨⟩⟩ | ⟨fd, ⟨⟩⟩)
    exact hi _ _ (.inl hpc)
  | readNotify => exact fun msg total hat => hi msg total (by simpa using hat)
  | readNotifyEnd => exact fun msg total hat => hi msg total (by simpa using hat)
  | writeWake => exact fun msg total hat => hi msg total (by simpa using hat)
  | _ =>
    first
    | exact hi
    | rintro _ _ (⟨⟨⟩⟩ | ⟨fd, ⟨⟩⟩)

theorem sendsInside_of_run (h : (machine w).Run ok (init type fd) es s) : SendsInside s :=
  h.stateInvariant (show SendsInside (init type fd) by rintro _ _ (⟨⟨⟩⟩ | ⟨fd, ⟨⟩⟩))
    (fun hi _ hs => hi.step (Step.of_step hs))

/-! ## What is received is pushed -/

/-- What the buffer holds behind a chunk are the zeros it was filled with. -/
theorem recvMemory_eq (chunk beyond : List UInt8) :
    recvMemory chunk beyond
      = chunk ++ (List.replicate (MAX_MESSAGEBUFF_LEN - chunk.length) 0 ++ beyond) := by
  rw [recvMemory, overwrite, List.take_zero, List.nil_append, Nat.zero_add,
    List.drop_replicate, List.append_assoc]

/-- The IPv4 handler's message is the chunk. -/
theorem recvMessage_IPV4 (chunk beyond : List UInt8) :
    recvMessage .IPV4ThreadsClientHandle chunk beyond = chunk := by
  rw [recvMessage, recvMemory_eq, List.take_left]

/-- The IPv6 handler's message is the chunk if this has no zero byte and
leaves room for one. -/
theorem recvMessage_IPV6 {chunk : List UInt8} (hzero : ∀ b ∈ chunk, b ≠ 0)
    (hlen : chunk.length < MAX_MESSAGEBUFF_LEN) (beyond : List UInt8) :
    recvMessage .IPV6ThreadsClientHandle chunk beyond = chunk := by
  obtain ⟨k, hk⟩ : ∃ k, MAX_MESSAGEBUFF_LEN - chunk.length = k + 1 :=
    Nat.exists_eq_succ_of_ne_zero (by omega)
  rw [recvMessage, recvMemory_eq, hk, List.replicate_succ, List.cons_append,
    List.takeWhile_append_of_pos (fun b hb => by simpa using hzero b hb),
    List.takeWhile_cons_of_neg (by simp), List.append_nil]

theorem inHand_afterRecv {answer : Received UInt8} {beyond : List UInt8} {pc : HandleReadPc w}
    {f : List UInt8 → List UInt8} (h : afterRecv type answer beyond = some pc)
    (hmade : ∀ chunk, answer.chunk = some chunk → recvMessage type chunk beyond = f chunk) :
    pc.inHand = answer.chunk.map f := by
  unfold afterRecv at h
  split at h
  · cases h; rfl
  · cases h; rfl
  · cases h; rfl
  · cases h; rfl
  · obtain ⟨m, hbytes, rfl⟩ := Option.map_eq_some_iff.mp h
    exact congrArg some ((Buffer.bytes_of_ofBytes hbytes).trans (hmade _ rfl))

/-- **No message gets lost between `recv` and the queue**, whatever the messages
are that are made of the chunks. -/
theorem Step.makes (h : Step s a s' es) (hi : StartsOnce s) {f : List UInt8 → List UInt8}
    (hmade : ∀ chunk ∈ chunks es, chunk.length ≤ MAX_MESSAGEBUFF_LEN →
      ∀ beyond, recvMessage s.type chunk beyond = f chunk) :
    pushed es ++ s'.reader.inHand.toList = s.reader.inHand.toList ++ (chunks es).map f := by
  cases h with
  | startRead hpc => rw [hi.read.mpr hpc]; rfl
  | @readRecv fd answer beyond pc hpc hanswer hafter =>
    have hhand : pc.inHand = answer.chunk.map f := by
      refine inHand_afterRecv hafter fun chunk hchunk => hmade chunk ?_ ?_ beyond
      · simp [chunks, Event.chunk, hchunk]
      · cases answer with
        | failed e => cases hchunk
        | got bytes =>
          cases bytes with
          | nil => cases hchunk
          | cons b bs => cases hchunk; exact hanswer.2
    cases hchunk : answer.chunk <;> simp [hpc, hhand, Event.pushed, Event.chunk, hchunk, show
      (HandleReadPc.recv fd : HandleReadPc w).inHand = none from rfl]
  | _ =>
    first
    | simp [Event.pushed, Event.chunk]; done
    | simp [Event.pushed, Event.chunk, HandleReadPc.inHand, *]

/-- The same where the messages made are the chunks. -/
theorem Step.pushes (h : Step s a s' es) (hi : StartsOnce s)
    (hwhole : ∀ chunk ∈ chunks es, chunk.length ≤ MAX_MESSAGEBUFF_LEN →
      ∀ beyond, recvMessage s.type chunk beyond = chunk) :
    pushed es ++ s'.reader.inHand.toList = s.reader.inHand.toList ++ chunks es := by
  rw [h.makes hi (f := id) hwhole, List.map_id]

theorem pushes_of_run (h : (machine w).Run ok (init type fd) es s)
    (hwhole : ∀ chunk ∈ chunks es, chunk.length ≤ MAX_MESSAGEBUFF_LEN →
      ∀ beyond, recvMessage type chunk beyond = chunk) :
    pushed es ++ s.reader.inHand.toList = chunks es := by
  revert hwhole
  refine h.invariant (I := fun es s => (∀ chunk ∈ chunks es,
    chunk.length ≤ MAX_MESSAGEBUFF_LEN → ∀ beyond, recvMessage type chunk beyond = chunk) →
    pushed es ++ s.reader.inHand.toList = chunks es) (fun _ => rfl) ?_
  intro es s a s' es' hrun hi _ hs hwhole
  rw [chunks_append] at hwhole
  have hstep := (Step.of_step hs).pushes (startsOnce_of_run hrun) fun chunk hchunk =>
    (type_client_of_run hrun).1 ▸ hwhole chunk (List.mem_append_right _ hchunk)
  rw [pushed_append, chunks_append, List.append_assoc, hstep, ← List.append_assoc,
    hi fun chunk hchunk => hwhole chunk (List.mem_append_left _ hchunk)]

/-! ## What is pushed is sent -/

/-- Every `send` accepts at least one byte. -/
def Action.SendsSome : Action → Prop
  | .send answer => 0 < answer.transferred
  | _ => True

instance : DecidablePred Action.SendsSome
  | .send _ => inferInstanceAs (Decidable (_ < _))
  | .doWork | .reader | .recv _ _ | .writer | .wakeWriter => instDecidableTrue

/-- **No byte gets lost between the queue and the client**, nor is one sent
twice, as long as every `send` accepts some. -/
theorem Step.sends (h : Step s a s' es) (hi : StartsOnce s) (hinside : SendsInside s)
    (hsome : a.SendsSome) :
    sent es ++ outgoing s' = outgoing s ++ (pushed es).flatten := by
  cases h with
  | startWrite hpc => simp [outgoing, hi.write.mpr (.inr hpc), HandleWritePc.rest]
  | writeUnlock hpc =>
    rw [outgoing, rest_inSend_test, outgoing, hpc]
    simp [HandleWritePc.rest]
  | @writeSend fd send_msg total_send answer hpc hanswer =>
    have hlt := hinside _ _ (.inr ⟨fd, hpc⟩)
    cases answer with
    | error e => exact absurd hsome (by simp [Action.SendsSome, IoResult.transferred])
    | count n =>
      have hle : total_send.toNat + n ≤ send_msg.size.toNat := by
        have := hanswer.1
        rw [IoResult.Within, IoResult.transferred, toNat_left (by simpa using hlt.le)] at this
        rw [Buffer.toNat_size] at this ⊢
        omega
      have hslice : slice send_msg.bytes total_send.toNat n
          ++ send_msg.bytes.drop (total_send.toNat + n)
          = send_msg.bytes.drop total_send.toNat := by
        rw [slice, ← List.drop_drop, List.take_append_drop]
      have hpos : 0 < n := hsome
      rw [outgoing, sendBody_count hpos hle, rest_inSend_test, toNat_advance hle, outgoing, hpc]
      simp [Event.sent, Event.pushed, HandleWritePc.rest, IoResult.transferred, ← hslice]
  | _ =>
    first
    | simp [outgoing, Event.sent, Event.pushed]; done
    | simp [outgoing, Event.sent, Event.pushed, HandleWritePc.rest, *]

/-- **What a failed `send` does**: at the start of a message the message is
given up, and past it the byte before is to be sent again. -/
theorem Step.failed_send {e : Errno} (h : Step s (.send (.error e)) s' es)
    (hinside : SendsInside s) :
    sent es = [] ∧ ∃ fd send_msg total_send, s.writer = .send fd send_msg total_send
      ∧ ((total_send.toNat = 0 ∧ outgoing s' = s.mMessageQueue.flatMap Buffer.bytes)
        ∨ ∃ b, 0 < total_send.toNat ∧ send_msg.bytes[total_send.toNat - 1]? = some b
          ∧ outgoing s' = b :: outgoing s) := by
  cases h with
  | @writeSend fd send_msg total_send _ hpc hanswer =>
    have hlt := hinside _ _ (.inr ⟨fd, hpc⟩)
    have hsize : total_send.toNat < send_msg.size.toNat := by rwa [Buffer.toNat_size]
    refine ⟨by simp [Event.sent, IoResult.transferred], fd, send_msg, total_send, hpc, ?_⟩
    rcases Nat.eq_zero_or_pos total_send.toNat with hzero | hpos
    · refine .inl ⟨hzero, ?_⟩
      rw [outgoing, sendBody_error_start e hsize hzero]
      cases s.type <;> rfl
    · obtain ⟨back, hback, hbody⟩ := sendBody_error_later e hsize hpos
      have hbefore : back.toNat < send_msg.bytes.length := by omega
      refine .inr ⟨send_msg.bytes[back.toNat], hpos, ?_, ?_⟩
      · rw [← hback, Nat.add_sub_cancel, List.getElem?_eq_getElem hbefore]
      · rw [outgoing, hbody, outgoing, hpc, inSend, HandleWritePc.rest, HandleWritePc.rest,
          List.drop_eq_getElem_cons hbefore, hback, List.cons_append]

theorem sends_of_run
    (h : (machine w).Run (fun _ a => a.SendsSome) (init type fd) es s) :
    sent es ++ outgoing s = (pushed es).flatten := by
  refine h.invariant (I := fun es s => sent es ++ outgoing s = (pushed es).flatten) (by rfl) ?_
  intro es s a s' es' hrun hi hok hs
  have hstep := (Step.of_step hs).sends (startsOnce_of_run hrun) (sendsInside_of_run hrun) hok
  rw [sent_append, pushed_append, List.append_assoc, hstep, ← List.append_assoc, hi,
    List.flatten_append]

end Streams

end ThreadsClientHandle
