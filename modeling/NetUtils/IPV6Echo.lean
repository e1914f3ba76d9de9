import NetUtils.IPV4Echo

/-!
# The IPv6 echo

The IPv6 handler makes its message of a chunk by `std::string(recv_msg_buf)`, as
if the client had sent a C string. What it sends back of a chunk is the part before
the first zero byte; the rest is dropped, and with it what the client may have sent
in one go behind it. `echoes_cut` says that this is all that gets lost, as long as
no chunk fills the buffer, where nothing ends the string, and every `send` on the
client's connection accepts some bytes.

The handler is simpler than the IPv4 one in that its write thread does not leave
the loop when a `send` has failed: it goes on with the next message. So as long as
the connection is open, what is missing is on its way.
-/

open Transfer

variable {w : ℕ}

namespace ThreadsClientHandle

/-- The part of a chunk before its first zero byte. -/
def beforeZero (chunk : List UInt8) : List UInt8 := chunk.takeWhile (· ≠ 0)

/-- What the handler makes of the bytes an event takes from the client. -/
def Event.message (e : Event w) : List UInt8 := beforeZero e.received

/-- What it makes of all the bytes received from the client, in order. -/
def messages (es : List (Event w)) : List UInt8 := es.flatMap Event.message

/-- The condition on a step: a chunk received from the client leaves room for a zero
byte, and a `send` to it accepts some bytes. -/
def Relaying (s : ThreadsClientHandle w) : Action → Prop
  | .recv (.got chunk) _ =>
    s.reader.fd.any s.onClient = true → chunk.length < MAX_MESSAGEBUFF_LEN
  | .send answer => s.writer.fd.any s.onClient = true → 0 < answer.transferred
  | _ => True

instance : DecidableRel (Relaying : ThreadsClientHandle w → Action → Prop)
  | s, .recv (.got chunk) _ => inferInstanceAs (Decidable
      (s.reader.fd.any s.onClient = true → chunk.length < MAX_MESSAGEBUFF_LEN))
  | s, .send answer => inferInstanceAs (Decidable
      (s.writer.fd.any s.onClient = true → 0 < answer.transferred))
  | _, .recv (.failed _) _ | _, .doWork | _, .reader | _, .writer | _, .wakeWriter =>
    isTrue trivial

section Echo

variable {s s' : ThreadsClientHandle w} {a : Action} {es : List (Event w)} {fd : ℤ}

theorem messages_append (es es' : List (Event w)) :
    messages (es ++ es') = messages es ++ messages es' := List.flatMap_append

/-- **The IPv6 handler's message** is what stands before the first zero byte, if the
chunk leaves room for one behind it. -/
theorem recvMessage_IPV6_cut {chunk : List UInt8} (hlen : chunk.length < MAX_MESSAGEBUFF_LEN)
    (beyond : List UInt8) :
    recvMessage .IPV6ThreadsClientHandle chunk beyond = beforeZero chunk := by
  obtain ⟨k, hk⟩ : ∃ k, MAX_MESSAGEBUFF_LEN - chunk.length = k + 1 :=
    Nat.exists_eq_succ_of_ne_zero (Nat.sub_ne_zero_of_lt hlen)
  have hends : (List.replicate (k + 1) (0 : UInt8) ++ beyond).takeWhile (· ≠ 0) = [] := by
    rw [List.replicate_succ, List.cons_append, List.takeWhile_cons_of_neg (by simp)]
  rw [recvMessage, recvMemory_eq, hk, List.takeWhile_append, hends, List.append_nil, beforeZero]
  split
  case isTrue hwhole => exact ((List.takeWhile_sublist _).eq_of_length hwhole).symm
  case isFalse => rfl

/-- While the connection is open every chunk received comes from the client. -/
theorem Step.messages_eq (h : Step s a s' es) (hopen : s.isOpen = true) (hi : HoldsClient s) :
    messages es = ((chunks es).map beforeZero).flatten := by
  cases h with
  | @readRecv fd answer beyond pc hpc =>
    have hclient : s.onClient fd = true := by
      rw [onClient, hopen, hi.reader fd (by rw [hpc]; rfl)]
      simp
    rw [hclient]
    cases answer with
    | failed e => rfl
    | got chunk => cases chunk <;> simp [messages, Event.message, Event.received, Event.chunk,
        Received.bytes, Received.chunk, beforeZero]
  | _ => rfl

/-- While the connection is open the condition is one on every chunk, -/
theorem Relaying.fits (hok : Relaying s a) (h : Step s a s' es) (hopen : s.isOpen = true)
    (hi : HoldsClient s) : ∀ chunk ∈ chunks es, chunk.length < MAX_MESSAGEBUFF_LEN := by
  intro chunk hchunk
  cases h with
  | @readRecv fd answer beyond pc hpc =>
    have hfd : s.reader.fd = some fd := by rw [hpc]; rfl
    have hclient : s.reader.fd.any s.onClient = true := by
      simp [hfd, onClient, hopen, hi.reader fd hfd]
    cases answer with
    | failed e => cases hchunk
    | got bytes =>
      cases bytes with
      | nil => cases hchunk
      | cons b bs =>
        obtain rfl := List.mem_singleton.mp hchunk
        exact hok hclient
  | _ => cases hchunk

/-- and on every `send`. -/
theorem Relaying.sendsSome (hok : Relaying s a) (h : Step s a s' es) (hopen : s.isOpen = true)
    (hi : HoldsClient s) : a.SendsSome := by
  cases h with
  | @writeSend fd _ _ _ hpc =>
    have hfd : s.writer.fd = some fd := by rw [hpc]; rfl
    exact hok (by simp [hfd, onClient, hopen, hi.writer fd hfd])
  | _ => trivial

/-- **What has been received, and where it is.** -/
structure EchoesCut (es : List (Event w)) (s : ThreadsClientHandle w) : Prop where
  /-- What the kernel has accepted is the beginning of the messages. -/
  inOrder : accepted es <+: messages es
  /-- The rest is with the threads, as long as the connection is open. -/
  complete : s.isOpen = true →
    accepted es ++ outgoing s ++ s.reader.inHand.toList.flatten = messages es

theorem EchoesCut.step {es' : List (Event w)} (h : Step s a s' es')
    (htype : s.type = .IPV6ThreadsClientHandle) (hholds : s.isOpen = true → HoldsClient s)
    (hstart : StartsOnce s) (hinside : SendsInside s) (hok : Relaying s a)
    (hi : EchoesCut es s) : EchoesCut (es ++ es') s' := by
  cases hopen : s.isOpen with
  | false =>
    obtain ⟨hacc, hrec⟩ := h.off_client hopen
    have hnone : messages es' = [] := List.flatMap_eq_nil_iff.mpr fun e he => by
      rw [Event.message, List.flatMap_eq_nil_iff.mp hrec e he]
      rfl
    refine ⟨?_, fun hopen' => absurd (hopen.symm.trans (h.isOpen hopen')) Bool.false_ne_true⟩
    rw [accepted_append, messages_append, hacc, hnone, List.append_nil, List.append_nil]
    exact hi.inOrder
  | true =>
    have hclient := hholds hopen
    have hmakes := h.makes hstart (f := beforeZero) fun chunk hchunk _ beyond => by
      rw [htype]
      exact recvMessage_IPV6_cut (hok.fits h hopen hclient chunk hchunk) beyond
    have hcomplete : accepted (es ++ es') ++ outgoing s' ++ s'.reader.inHand.toList.flatten
        = messages (es ++ es') := by
      rw [accepted_append, messages_append, (h.on_client hopen hclient).1,
        h.messages_eq hopen hclient, ← hi.complete hopen]
      calc accepted es ++ sent es' ++ outgoing s' ++ s'.reader.inHand.toList.flatten
          = accepted es ++ (sent es' ++ outgoing s') ++ s'.reader.inHand.toList.flatten := by
            rw [List.append_assoc (accepted es)]
        _ = accepted es ++ outgoing s ++ (pushed es' ++ s'.reader.inHand.toList).flatten := by
            rw [h.sends hstart hinside (hok.sendsSome h hopen hclient), List.flatten_append]
            simp only [List.append_assoc]
        _ = accepted es ++ outgoing s ++ s.reader.inHand.toList.flatten
              ++ ((chunks es').map beforeZero).flatten := by
            rw [hmakes, List.flatten_append]
            simp only [List.append_assoc]
    exact ⟨⟨_, by rw [← List.append_assoc]; exact hcomplete⟩, fun _ => hcomplete⟩

theorem echoesCut_of_run
    (h : (machine w).Run Relaying (init .IPV6ThreadsClientHandle fd) es s) : EchoesCut es s := by
  refine h.invariant (I := EchoesCut) ⟨List.prefix_refl _, fun _ => rfl⟩ ?_
  intro es s a s' es' hrun hi hok hs
  exact hi.step (Step.of_step hs) (type_client_of_run hrun).1 (holdsClient_of_run hrun)
    (startsOnce_of_run hrun) (sendsInside_of_run hrun) hok

/-- **The IPv6 handler echoes what stands before the zero bytes**, in every run in
which no chunk from the client fills the buffer and every `send` to it accepts some
bytes. What the kernel has accepted is the beginning of the chunks, each cut at its
first zero byte; and as long as the connection is open the rest of them is in the
hands of the two threads or in the queue. -/
theorem echoes_cut (h : (machine w).Run Relaying (init .IPV6ThreadsClientHandle fd) es s) :
    accepted es <+: messages es
      ∧ (s.isOpen = true →
        accepted es ++ outgoing s ++ s.reader.inHand.toList.flatten = messages es) :=
  ⟨(echoesCut_of_run h).inOrder, (echoesCut_of_run h).complete⟩

end Echo

/-- The client has sent `ab`, a zero byte and `c` in one go. -/
def zeroInside : List Action :=
  [.doWork, .doWork, .reader, .recv (.got [97, 98, 0, 99]) []] ++ List.replicate 3 .reader
    ++ List.replicate 6 .writer ++ [.send (.count 2)]

theorem echoes_cut_zeroInside :
    ∃ es s, (machine 64).Run Relaying (init .IPV6ThreadsClientHandle 5) es s
      ∧ received es = [97, 98, 0, 99] ∧ accepted es = [97, 98] ∧ accepted es <+: messages es := by
  obtain ⟨es, s, hrun, hrec, hacc⟩ :
      ∃ es s, (machine 64).Run Relaying (init .IPV6ThreadsClientHandle 5) es s
        ∧ received es = [97, 98, 0, 99] ∧ accepted es = [97, 98] :=
    Machine.Run.exists_of_exec zeroInside (by decide +kernel)
  exact ⟨es, s, hrun, hrec, hacc, (echoes_cut hrun).1⟩

end ThreadsClientHandle
