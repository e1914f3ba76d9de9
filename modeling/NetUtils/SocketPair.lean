import NetUtils.IOHelper
import NetUtils.Transition

/-!
# `recv_bytes` undoes `send_bytes`

A sender and a receiver joined by a reliable first-in first-out byte stream.
The sender gives a list of messages to successive `send_bytes` calls, the
receiver gives buffers of the same lengths to successive `recv_bytes` calls,
and the two run at once: each step of the machine is one call of either
loop, with whatever count the kernel on that side chose, or the start or the
return of one of the two functions. The bodies stepped are those of
`NetUtils.IOHelper`.

The kernels are the reliable ones: a `send` accepts between one byte and what
it was offered, a `recv` gives between one byte and what is pending, up to
the transfer limit of a call, or answers that it would block. How often it
does so is not bounded here; the steps that are not such a retry are counted
(`Progress.moved`), and there are never more of them than `work` says.

Two cuttings of one stream have nothing in common but the stream. What links
them is `Linked`: the bytes the receiver has stored, followed by the bytes in
flight, are the bytes the sender's kernel has accepted.
-/

open Transfer IOHelper

variable {w : ℕ} {β : Type}

/-- A `recv_bytes` call in progress: the buffer as it stands, its size and
where the loop is. -/
structure Receiving (w : ℕ) (β : Type) where
  /-- The contents of the buffer. -/
  dest : List β
  /-- The length passed to the call. -/
  len : BitVec w
  /-- Where the loop stands. -/
  phase : Phase w

/-- **Two sockets and the stream between them.** -/
structure SocketPair (w : ℕ) (β : Type) where
  /-- The messages not yet given to `send_bytes`. -/
  toSend : List (Buffer w β)
  /-- The `send_bytes` call in progress. -/
  sending : Option (Buffer w β × Phase w)
  /-- The results of the `send_bytes` calls that returned. -/
  sent : List Bool
  /-- The bytes accepted by one kernel and not yet taken from the other. -/
  stream : List β
  /-- The buffers not yet given to `recv_bytes`. -/
  toRecv : List (Buffer w β)
  /-- The `recv_bytes` call in progress. -/
  receiving : Option (Receiving w β)
  /-- The results of the `recv_bytes` calls that returned, with the contents
  of their buffers. -/
  received : List (Bool × List β)

namespace SocketPair

/-- The steps of the two sides. -/
inductive Action where
  /-- The sender calls `send_bytes` with its next message. -/
  | callSend
  /-- The sender's kernel accepts `n` bytes. -/
  | send (n : ℕ)
  /-- `send_bytes` returns. -/
  | returnSend
  /-- The receiver calls `recv_bytes` with its next buffer. -/
  | callRecv
  /-- `recv` gives `n` bytes. -/
  | recv (n : ℕ)
  /-- `recv` would block. -/
  | recvAgain (e : Errno)
  /-- `recv_bytes` returns. -/
  | returnRecv

/-- Whether a step moved the transfer on or was a retry. -/
inductive Progress where
  /-- A step that is not a retry. -/
  | moved
  /-- A `recv` that would block. -/
  | retried
  deriving DecidableEq

/-- One step of the two sides. -/
def step (s : SocketPair w β) : Action → Option (SocketPair w β × List Progress)
  | .callSend =>
    match s.sending, s.toSend with
    | none, m :: ms =>
      some ({ s with toSend := ms, sending := some (m, test m.size 0#w) }, [.moved])
    | _, _ => none
  | .send n =>
    match s.sending with
    | some (m, .calling total) =>
      if 0 < n ∧ n ≤ (m.size - total).toNat then
        some ({ s with
          sending := some (m, sendBody m.size total (.count n))
          stream := s.stream ++ slice m.bytes total.toNat n }, [.moved])
      else none
    | _ => none
  | .returnSend =>
    match s.sending with
    | some (_, .returned ok) =>
      some ({ s with sending := none, sent := s.sent ++ [ok] }, [.moved])
    | _ => none
  | .callRecv =>
    match s.receiving, s.toRecv with
    | none, d :: ds =>
      some ({ s with
        toRecv := ds
        receiving := some ⟨d.bytes, d.size, test d.size 0#w⟩ }, [.moved])
    | _, _ => none
  | .recv n =>
    match s.receiving with
    | some ⟨dest, len, .calling total⟩ =>
      if 0 < n ∧ n ≤ (len - total).toNat ∧ n ≤ s.stream.length ∧ n ≤ MAX_RW_COUNT then
        some ({ s with
          receiving := some ⟨overwrite dest total.toNat (s.stream.take n), len,
            recvBody len total (.count n)⟩
          stream := s.stream.drop n }, [.moved])
      else none
    | _ => none
  | .recvAgain e =>
    match s.receiving with
    | some ⟨dest, len, .calling total⟩ =>
      if (IoResult.error e).wouldBlock then
        some ({ s with receiving := some ⟨dest, len, recvBody len total (.error e)⟩ },
          [.retried])
      else none
    | _ => none
  | .returnRecv =>
    match s.receiving with
    | some ⟨dest, _, .returned ok⟩ =>
      some ({ s with receiving := none, received := s.received ++ [(ok, dest)] }, [.moved])
    | _ => none

/-- The two sides as a machine. -/
def machine (w : ℕ) (β : Type) : Machine (SocketPair w β) Action Progress where
  step := step

/-- The two sides before their first call. -/
def init (messages buffers : List (Buffer w β)) : SocketPair w β where
  toSend := messages
  sending := none
  sent := []
  stream := []
  toRecv := buffers
  receiving := none
  received := []

/-! ## The two offsets, linked through the stream -/

/-- The bytes of a list of messages, end to end. -/
def content (ms : List (Buffer w β)) : List β := ms.flatMap Buffer.bytes

@[simp] theorem content_nil : content ([] : List (Buffer w β)) = [] := rfl

@[simp] theorem content_append (ms ns : List (Buffer w β)) :
    content (ms ++ ns) = content ms ++ content ns := List.flatMap_append

@[simp] theorem content_cons (m : Buffer w β) (ms : List (Buffer w β)) :
    content (m :: ms) = m.bytes ++ content ms := List.flatMap_cons

/-- **The sender's side**: the messages `done` have been sent, and `out` is
what its kernel has accepted, which includes the beginning of the message in
progress. -/
inductive SendSide (messages : List (Buffer w β)) :
    List (Buffer w β) → Option (Buffer w β × Phase w) → List Bool → List β → Prop where
  /-- Between two calls. -/
  | idle (done rest : List (Buffer w β)) (hsplit : messages = done ++ rest) :
      SendSide messages rest none (done.map (fun _ => true)) (content done)
  /-- At a call of `send`. -/
  | calling (done : List (Buffer w β)) (m : Buffer w β) (rest : List (Buffer w β))
      (total : BitVec w) (hsplit : messages = done ++ m :: rest)
      (hlt : total.toNat < m.bytes.length) :
      SendSide messages rest (some (m, .calling total)) (done.map (fun _ => true))
        (content done ++ m.bytes.take total.toNat)
  /-- About to return, which it does with `true`. -/
  | returned (done : List (Buffer w β)) (m : Buffer w β) (rest : List (Buffer w β))
      (hsplit : messages = done ++ m :: rest) :
      SendSide messages rest (some (m, .returned true)) (done.map (fun _ => true))
        (content done ++ m.bytes)

/-- **The receiver's side**: the messages `got` have been received, and `inb`
is what has been taken from the stream, which includes the beginning of the
message in progress. -/
inductive RecvSide (messages : List (Buffer w β)) :
    List (Buffer w β) → Option (Receiving w β) → List (Bool × List β) → List β → Prop where
  /-- Between two calls. -/
  | idle (got rest bufs : List (Buffer w β)) (hsplit : messages = got ++ rest)
      (hbufs : bufs.map Buffer.size = rest.map Buffer.size) :
      RecvSide messages bufs none (got.map (fun m => (true, m.bytes))) (content got)
  /-- At a call of `recv`. -/
  | calling (got : List (Buffer w β)) (m : Buffer w β) (rest bufs : List (Buffer w β))
      (dest : List β) (total : BitVec w) (hsplit : messages = got ++ m :: rest)
      (hbufs : bufs.map Buffer.size = rest.map Buffer.size)
      (hdest : dest.length = m.bytes.length) (hlt : total.toNat < m.bytes.length)
      (hsame : dest.take total.toNat = m.bytes.take total.toNat) :
      RecvSide messages bufs (some ⟨dest, m.size, .calling total⟩)
        (got.map (fun m => (true, m.bytes))) (content got ++ m.bytes.take total.toNat)
  /-- About to return, which it does with `true` and the message. -/
  | returned (got : List (Buffer w β)) (m : Buffer w β) (rest bufs : List (Buffer w β))
      (hsplit : messages = got ++ m :: rest)
      (hbufs : bufs.map Buffer.size = rest.map Buffer.size) :
      RecvSide messages bufs (some ⟨m.bytes, m.size, .returned true⟩)
        (got.map (fun m => (true, m.bytes))) (content got ++ m.bytes)

/-- **The link between the two sides**: what the receiver took, followed by
what is in flight, is what the sender's kernel accepted. -/
def Linked (messages : List (Buffer w β)) (s : SocketPair w β) : Prop :=
  ∃ out inb, SendSide messages s.toSend s.sending s.sent out
    ∧ RecvSide messages s.toRecv s.receiving s.received inb
    ∧ inb ++ s.stream = out

/-- At the head of its loop, with `t` bytes of `m` accepted, the sender is at
its next call or about to return. -/
theorem SendSide.ofTest {messages done : List (Buffer w β)} {m : Buffer w β}
    {rest : List (Buffer w β)} {total : BitVec w} (hsplit : messages = done ++ m :: rest) :
    SendSide messages rest (some (m, test m.size total)) (done.map (fun _ => true))
      (content done ++ m.bytes.take total.toNat) := by
  rcases Nat.lt_or_ge total.toNat m.bytes.length with h | h
  · rw [test_of_lt (by rw [Buffer.toNat_size]; exact h)]
    exact .calling done m rest total hsplit h
  · rw [test_of_le (by rw [Buffer.toNat_size]; exact h), List.take_of_length_le h]
    exact .returned done m rest hsplit

/-- At the head of its loop, with `t` bytes of `m` stored, the receiver is at
its next call or about to return. -/
theorem RecvSide.ofTest {messages got : List (Buffer w β)} {m : Buffer w β}
    {rest bufs : List (Buffer w β)} {dest : List β} {total : BitVec w}
    (hsplit : messages = got ++ m :: rest)
    (hbufs : bufs.map Buffer.size = rest.map Buffer.size)
    (hdest : dest.length = m.bytes.length) (hle : total.toNat ≤ m.bytes.length)
    (hsame : dest.take total.toNat = m.bytes.take total.toNat) :
    RecvSide messages bufs (some ⟨dest, m.size, test m.size total⟩)
      (got.map (fun m => (true, m.bytes))) (content got ++ m.bytes.take total.toNat) := by
  rcases Nat.lt_or_ge total.toNat m.bytes.length with h | h
  · rw [test_of_lt (by rw [Buffer.toNat_size]; exact h)]
    exact .calling got m rest bufs dest total hsplit hbufs hdest h hsame
  · rw [List.take_of_length_le (by omega), List.take_of_length_le h] at hsame
    rw [test_of_le (by rw [Buffer.toNat_size]; exact h), List.take_of_length_le h, hsame]
    exact .returned got m rest bufs hsplit hbufs

/-- What the sender's kernel has accepted is the messages from their start
on. -/
theorem SendSide.out_isPrefix {messages toSend : List (Buffer w β)}
    {sending : Option (Buffer w β × Phase w)} {sent : List Bool} {out : List β}
    (h : SendSide messages toSend sending sent out) : out <+: content messages := by
  cases h with
  | idle done rest hsplit => exact ⟨content toSend, by rw [hsplit, content_append]⟩
  | calling done m rest total hsplit hlt =>
    refine ⟨m.bytes.drop total.toNat ++ content toSend, ?_⟩
    rw [hsplit, content_append, content_cons, List.append_assoc,
      ← List.append_assoc (m.bytes.take total.toNat), List.take_append_drop]
  | returned done m rest hsplit =>
    exact ⟨content toSend, by rw [hsplit, content_append, content_cons, List.append_assoc]⟩

/-! ## How much is left to do -/

/-- The steps a call still has to make, from the phase it is in: at most one
for each byte, and one to return. -/
def phaseWork (len : ℕ) : Phase w → ℕ
  | .calling total => len - total.toNat + 1
  | .returned _ => 1

@[simp] theorem phaseWork_calling (len : ℕ) (total : BitVec w) :
    phaseWork len (.calling total) = len - total.toNat + 1 := rfl

@[simp] theorem phaseWork_returned (len : ℕ) (ok : Bool) :
    phaseWork len (.returned ok : Phase w) = 1 := rfl

theorem phaseWork_test (m : Buffer w β) (total : BitVec w) :
    phaseWork m.bytes.length (test m.size total) ≤ m.bytes.length - total.toNat + 1 := by
  rw [test]
  split <;> simp

/-- A call that moves some bytes uses up a step for each. -/
theorem phaseWork_advance (m : Buffer w β) {total : BitVec w} {n : ℕ}
    (hle : total.toNat + n ≤ m.bytes.length) :
    phaseWork m.bytes.length (test m.size (total + BitVec.ofNat w n)) + n
      ≤ m.bytes.length - total.toNat + 1 := by
  have htest := phaseWork_test m (total + BitVec.ofNat w n)
  rw [toNat_advance (by rw [Buffer.toNat_size]; exact hle)] at htest
  omega

/-- The steps a list of calls still has to make: for each, one for each byte
and the two of its call and its return. -/
def queueWork (ms : List (Buffer w β)) : ℕ := (ms.map (fun m => m.bytes.length + 2)).sum

@[simp] theorem queueWork_cons (m : Buffer w β) (ms : List (Buffer w β)) :
    queueWork (m :: ms) = m.bytes.length + 2 + queueWork ms := rfl

/-- **A bound on the steps left that are not retries.** -/
def work (s : SocketPair w β) : ℕ :=
  queueWork s.toSend
    + (s.sending.elim 0 (fun p => phaseWork p.1.bytes.length p.2))
    + queueWork s.toRecv
    + (s.receiving.elim 0 (fun r => phaseWork r.dest.length r.phase))

/-- A chunk the receiver's kernel may give is the next piece of the message
being received. -/
theorem take_stream_eq {messages got rest : List (Buffer w β)} {m : Buffer w β}
    {stream : List β} {t n : ℕ} (hsplit : messages = got ++ m :: rest)
    (hpre : content got ++ m.bytes.take t ++ stream <+: content messages)
    (hn : n ≤ stream.length) (hle : t + n ≤ m.bytes.length) :
    stream.take n = slice m.bytes t n := by
  obtain ⟨tail, htail⟩ : stream <+: m.bytes.drop t ++ content rest := by
    rw [hsplit, content_append, content_cons, List.append_assoc,
      List.prefix_append_right_inj] at hpre
    nth_rewrite 2 [← List.take_append_drop t m.bytes] at hpre
    rwa [List.append_assoc, List.prefix_append_right_inj] at hpre
  calc stream.take n = (stream ++ tail).take n := (List.take_append_of_le_length hn).symm
    _ = (m.bytes.drop t ++ content rest).take n := by rw [htail]
    _ = slice m.bytes t n :=
      List.take_append_of_le_length (by rw [List.length_drop]; omega)

/-- A sender that is offered `n` more bytes of what is left has accepted them
and is at the head of its loop. -/
theorem SendSide.send {messages done : List (Buffer w β)} {m : Buffer w β}
    {rest : List (Buffer w β)} {total : BitVec w} {n : ℕ}
    (hsplit : messages = done ++ m :: rest) (hn : 0 < n)
    (hle : total.toNat + n ≤ m.bytes.length) :
    SendSide messages rest (some (m, sendBody m.size total (.count n)))
      (done.map (fun _ => true))
      (content done ++ m.bytes.take total.toNat ++ slice m.bytes total.toNat n) := by
  have hle' : total.toNat + n ≤ m.size.toNat := by rw [Buffer.toNat_size]; exact hle
  have hnext : SendSide messages rest (some (m, test m.size (total + BitVec.ofNat w n)))
      (done.map (fun _ => true))
      (content done ++ m.bytes.take (total + BitVec.ofNat w n).toNat) := .ofTest hsplit
  rw [sendBody_count hn hle', List.append_assoc, slice, ← List.take_add,
    ← toNat_advance hle']
  exact hnext

/-- A receiver that is given the next `n` bytes of its message has stored
them and is at the head of its loop. -/
theorem RecvSide.recv {messages got : List (Buffer w β)} {m : Buffer w β}
    {rest bufs : List (Buffer w β)} {dest : List β} (chunk : List β) (total : BitVec w)
    (hsplit : messages = got ++ m :: rest)
    (hbufs : bufs.map Buffer.size = rest.map Buffer.size)
    (hdest : dest.length = m.bytes.length)
    (hsame : dest.take total.toNat = m.bytes.take total.toNat)
    (hpos : 0 < chunk.length) (hmax : chunk.length ≤ MAX_RW_COUNT)
    (hle : total.toNat + chunk.length ≤ m.bytes.length)
    (hchunk : chunk = slice m.bytes total.toNat chunk.length) :
    RecvSide messages bufs
      (some ⟨overwrite dest total.toNat chunk, m.size,
        recvBody m.size total (.count chunk.length)⟩)
      (got.map (fun m => (true, m.bytes)))
      (content got ++ m.bytes.take total.toNat ++ chunk) := by
  have hle' : total.toNat + chunk.length ≤ m.size.toNat := by rw [Buffer.toNat_size]; exact hle
  have hadv := toNat_advance hle'
  have htake : m.bytes.take total.toNat ++ chunk
      = m.bytes.take (total.toNat + chunk.length) := by
    nth_rewrite 1 [hchunk]
    rw [slice, ← List.take_add]
  have hint : chunk.length < 2 ^ 31 := hmax.trans_lt (by decide)
  rw [recvBody_count hpos hint, List.append_assoc, htake, ← hadv]
  refine RecvSide.ofTest hsplit hbufs ?_ (by omega) ?_
  · rw [length_overwrite (by omega), hdest]
  · rw [hadv, take_overwrite (by omega), hsame, htake]

section Step

variable {messages : List (Buffer w β)} {s s' : SocketPair w β} {es : List Progress}

/-- **Every step keeps the link, and every step that is not a retry uses up
some of the work.** -/
theorem Linked.step {a : Action} (h : Linked messages s)
    (hs : s.step a = some (s', es)) :
    Linked messages s' ∧ es.count .moved + s'.work ≤ s.work := by
  obtain ⟨toSend, sending, sent, stream, toRecv, receiving, received⟩ := s
  obtain ⟨out, inb, hsend, hrecv, hlink⟩ := h
  dsimp only at hsend hrecv hlink
  cases a with
  | callSend =>
    cases hsend with
    | calling => cases hs
    | returned => cases hs
    | idle done rest hsplit =>
      cases toSend with
      | nil => cases hs
      | cons m ms =>
        simp only [SocketPair.step, Option.some.injEq, Prod.mk.injEq] at hs
        obtain ⟨rfl, rfl⟩ := hs
        have hnext : SendSide messages ms (some (m, test m.size 0#w))
            (done.map (fun _ => true)) (content done ++ m.bytes.take (0#w).toNat) :=
          .ofTest hsplit
        rw [show (0#w).toNat = 0 from by simp, List.take_zero, List.append_nil] at hnext
        refine ⟨⟨_, inb, hnext, hrecv, hlink⟩, ?_⟩
        have := phaseWork_test m 0#w
        simp [work] at this ⊢
        omega
  | send n =>
    cases hsend with
    | idle => cases hs
    | returned => cases hs
    | calling done m rest total hsplit hlt =>
      simp only [SocketPair.step, Option.ite_none_right_eq_some, Option.some.injEq,
        Prod.mk.injEq] at hs
      obtain ⟨⟨hn, hle⟩, rfl, rfl⟩ := hs
      rw [toNat_left (by rw [Buffer.toNat_size]; omega), Buffer.toNat_size] at hle
      refine ⟨⟨_, inb, SendSide.send hsplit hn (by omega), hrecv, ?_⟩, ?_⟩
      · rw [← hlink, List.append_assoc]
      · have hle' : total.toNat + n ≤ m.size.toNat := by rw [Buffer.toNat_size]; omega
        have hfits : total.toNat + n ≤ m.bytes.length := by omega
        have hwork := phaseWork_advance m hfits
        simp [work, sendBody_count hn hle']
        omega
  | returnSend =>
    cases hsend with
    | idle => cases hs
    | calling => cases hs
    | returned done m rest hsplit =>
      simp only [SocketPair.step, Option.some.injEq, Prod.mk.injEq] at hs
      obtain ⟨rfl, rfl⟩ := hs
      have hnext : SendSide messages toSend none ((done ++ [m]).map (fun _ => true))
          (content (done ++ [m])) := .idle _ _ (by rw [hsplit]; simp)
      refine ⟨⟨_, inb, by simpa using hnext, hrecv, by simpa using hlink⟩, ?_⟩
      simp [work]
      omega
  | callRecv =>
    cases hrecv with
    | calling => cases hs
    | returned => cases hs
    | idle got rest bufs hsplit hbufs =>
      cases toRecv with
      | nil => cases hs
      | cons d ds =>
        simp only [SocketPair.step, Option.some.injEq, Prod.mk.injEq] at hs
        obtain ⟨rfl, rfl⟩ := hs
        cases rest with
        | nil => simp at hbufs
        | cons m rest =>
          simp only [List.map_cons, List.cons.injEq] at hbufs
          have hdest : d.bytes.length = m.bytes.length := by
            rw [← Buffer.toNat_size, ← Buffer.toNat_size, hbufs.1]
          have hzero : (0#w).toNat = 0 := by simp
          have hnext : RecvSide messages ds (some ⟨d.bytes, m.size, test m.size 0#w⟩)
              (got.map (fun m => (true, m.bytes)))
              (content got ++ m.bytes.take (0#w).toNat) :=
            .ofTest hsplit hbufs.2 hdest (by omega) (by simp)
          rw [hzero, List.take_zero, List.append_nil] at hnext
          rw [hbufs.1]
          refine ⟨⟨out, _, hsend, hnext, hlink⟩, ?_⟩
          have := phaseWork_test m 0#w
          simp [work, hdest] at this ⊢
          omega
  | recv n =>
    cases hrecv with
    | idle => cases hs
    | returned => cases hs
    | calling got m rest bufs dest total hsplit hbufs hdest hlt hsame =>
      simp only [SocketPair.step, Option.ite_none_right_eq_some, Option.some.injEq,
        Prod.mk.injEq] at hs
      obtain ⟨⟨hn, hle, hpend, hmax⟩, rfl, rfl⟩ := hs
      rw [toNat_left (by rw [Buffer.toNat_size]; omega), Buffer.toNat_size] at hle
      have hlen : (stream.take n).length = n := by rw [List.length_take]; omega
      have hchunk : stream.take n = slice m.bytes total.toNat n :=
        take_stream_eq hsplit (hlink ▸ hsend.out_isPrefix) hpend (by omega)
      have hnext := RecvSide.recv (stream.take n) total hsplit hbufs hdest hsame
        (by omega) (by omega) (by omega) (by rw [hlen]; exact hchunk)
      rw [hlen] at hnext
      refine ⟨⟨out, _, hsend, hnext, ?_⟩, ?_⟩
      · rw [← hlink, List.append_assoc _ _ (stream.drop n), List.take_append_drop]
      · have hint : n < 2 ^ 31 := hmax.trans_lt (by decide)
        have hfits : total.toNat + n ≤ m.bytes.length := by omega
        have hwork := phaseWork_advance m hfits
        simp [work, recvBody_count hn hint,
          length_overwrite (show total.toNat + (stream.take n).length ≤ dest.length by omega),
          hdest]
        omega
  | recvAgain e =>
    cases hrecv with
    | idle => cases hs
    | returned => cases hs
    | calling got m rest bufs dest total hsplit hbufs hdest hlt hsame =>
      simp only [SocketPair.step, Option.ite_none_right_eq_some, Option.some.injEq,
        Prod.mk.injEq] at hs
      obtain ⟨he, rfl, rfl⟩ := hs
      rw [recvBody_wouldBlock he (by rw [Buffer.toNat_size]; exact hlt)]
      exact ⟨⟨out, _, hsend, .calling got m rest toRecv dest total hsplit hbufs hdest hlt hsame,
        hlink⟩, by simp [work]⟩
  | returnRecv =>
    cases hrecv with
    | idle => cases hs
    | calling => cases hs
    | returned got m rest bufs hsplit hbufs =>
      simp only [SocketPair.step, Option.some.injEq, Prod.mk.injEq] at hs
      obtain ⟨rfl, rfl⟩ := hs
      have hnext : RecvSide messages toRecv none
          ((got ++ [m]).map (fun m => (true, m.bytes))) (content (got ++ [m])) :=
        .idle _ rest _ (by rw [hsplit]; simp) hbufs
      refine ⟨⟨out, _, hsend, by simpa using hnext, by simpa using hlink⟩, ?_⟩
      simp [work]
      omega

/-- The two sides start linked. -/
theorem linked_init {messages buffers : List (Buffer w β)}
    (hbufs : buffers.map Buffer.size = messages.map Buffer.size) :
    Linked messages (init messages buffers) :=
  ⟨[], [], .idle [] messages rfl, .idle [] messages buffers rfl hbufs, rfl⟩

/-- **Along every run the two sides stay linked**, and the steps that were not
retries are paid for. -/
theorem linked_of_run {messages buffers : List (Buffer w β)}
    (hbufs : buffers.map Buffer.size = messages.map Buffer.size)
    (h : (machine w β).Run Machine.always (init messages buffers) es s) :
    Linked messages s ∧ es.count .moved + s.work ≤ (init messages buffers).work := by
  refine h.invariant (I := fun es s =>
    Linked messages s ∧ es.count .moved + s.work ≤ (init messages buffers).work)
    ⟨linked_init hbufs, by simp⟩ ?_
  intro es s a s' es' _ hi _ hs
  obtain ⟨hlinked, hwork⟩ := hi.1.step hs
  refine ⟨hlinked, ?_⟩
  rw [List.count_append]
  omega

/-- Nothing but a retry can happen. -/
def Stalled (s : SocketPair w β) : Prop := ∀ a s', s.step a ≠ some (s', [.moved])

/-- **Where nothing but a retry can happen, all is done**: a side that is not
done always has a step, the receiver because what it still waits for is in
flight once the sender is done. -/
theorem Linked.of_stalled (h : Linked messages s) (hst : s.Stalled) :
    s.sent = messages.map (fun _ => true)
      ∧ s.received = messages.map (fun m => (true, m.bytes)) ∧ s.stream = [] := by
  obtain ⟨toSend, sending, sent, stream, toRecv, receiving, received⟩ := s
  obtain ⟨out, inb, hsend, hrecv, hlink⟩ := h
  dsimp only at hsend hrecv hlink ⊢
  cases hsend with
  | returned done m rest hsplit => exact absurd rfl (hst .returnSend _)
  | calling done m rest total hsplit hlt =>
    refine absurd (if_pos ?_) (hst (.send 1) _)
    rw [toNat_left (by rw [Buffer.toNat_size]; omega), Buffer.toNat_size]
    omega
  | idle done rest hsplit =>
    cases toSend with
    | cons m ms => exact absurd rfl (hst .callSend _)
    | nil =>
      rw [List.append_nil] at hsplit
      subst hsplit
      cases hrecv with
      | returned got m rest bufs hsplit' hbufs => exact absurd rfl (hst .returnRecv _)
      | calling got m rest bufs dest total hsplit' hbufs hdest hlt hsame =>
        have hlen := congrArg List.length hlink
        simp only [hsplit', content_append, content_cons, List.length_append,
          List.length_take] at hlen
        have hpend : 1 ≤ stream.length := by omega
        refine absurd (if_pos ?_) (hst (.recv 1) _)
        rw [toNat_left (by rw [Buffer.toNat_size]; omega), Buffer.toNat_size]
        exact ⟨by omega, by omega, hpend, by decide⟩
      | idle got rest bufs hsplit' hbufs =>
        cases toRecv with
        | cons d ds => exact absurd rfl (hst .callRecv _)
        | nil =>
          obtain rfl : rest = [] := List.map_eq_nil_iff.mp hbufs.symm
          rw [List.append_nil] at hsplit'
          subst hsplit'
          exact ⟨rfl, rfl, List.append_right_eq_self.mp hlink⟩

theorem SendSide.sent_isPrefix {toSend : List (Buffer w β)}
    {sending : Option (Buffer w β × Phase w)} {sent : List Bool} {out : List β}
    (h : SendSide messages toSend sending sent out) :
    sent <+: messages.map (fun _ => true) := by
  cases h with
  | idle done rest hsplit => rw [hsplit, List.map_append]; exact List.prefix_append _ _
  | calling done m rest total hsplit => rw [hsplit, List.map_append]; exact List.prefix_append _ _
  | returned done m rest hsplit => rw [hsplit, List.map_append]; exact List.prefix_append _ _

theorem RecvSide.received_isPrefix {toRecv : List (Buffer w β)}
    {receiving : Option (Receiving w β)} {received : List (Bool × List β)} {inb : List β}
    (h : RecvSide messages toRecv receiving received inb) :
    received <+: messages.map (fun m => (true, m.bytes)) := by
  cases h with
  | idle got rest bufs hsplit => rw [hsplit, List.map_append]; exact List.prefix_append _ _
  | calling got m rest bufs dest total hsplit =>
    rw [hsplit, List.map_append]; exact List.prefix_append _ _
  | returned got m rest bufs hsplit => rw [hsplit, List.map_append]; exact List.prefix_append _ _

theorem queueWork_congr {ms ns : List (Buffer w β)}
    (h : ms.map Buffer.size = ns.map Buffer.size) : queueWork ms = queueWork ns := by
  have hlen := congrArg (List.map BitVec.toNat) h
  simp only [List.map_map, Function.comp_def, Buffer.toNat_size] at hlen
  have hadd := congrArg (fun l => (l.map (· + 2)).sum) hlen
  simpa [queueWork, List.map_map, Function.comp_def] using hadd

/-- **`recv_bytes` undoes `send_bytes` for any chunking.** At every moment of
every run the calls that have returned have returned `true`, and the i-th
buffer received is the i-th message; the steps that are not retries are
bounded; and where nothing but a retry is left to happen every message has
been sent and received and the stream is empty. -/
theorem recvBytes_undoes_sendBytes {messages buffers : List (Buffer w β)}
    (hbufs : buffers.map Buffer.size = messages.map Buffer.size)
    (h : (machine w β).Run Machine.always (init messages buffers) es s) :
    s.sent <+: messages.map (fun _ => true)
      ∧ s.received <+: messages.map (fun m => (true, m.bytes))
      ∧ es.count .moved ≤ 2 * queueWork messages
      ∧ (s.Stalled → s.sent = messages.map (fun _ => true)
          ∧ s.received = messages.map (fun m => (true, m.bytes)) ∧ s.stream = []) := by
  obtain ⟨hlinked, hwork⟩ := linked_of_run hbufs h
  obtain ⟨out, inb, hsend, hrecv, -⟩ := id hlinked
  refine ⟨hsend.sent_isPrefix, hrecv.received_isPrefix, ?_, hlinked.of_stalled⟩
  have := queueWork_congr hbufs
  simp only [work, init, Option.elim_none] at hwork
  omega

/-- Two messages, one of them empty, sent in one piece and received in two
with a retry between them. -/
theorem recvBytes_undoes_sendBytes_two :
    ∃ s : SocketPair 64 ℕ, s.Stalled ∧ s.sent = [true, true]
      ∧ s.received = [(true, [7, 8]), (true, [])] ∧ s.stream = [] := by
  let messages : List (Buffer 64 ℕ) := [⟨[7, 8], by decide⟩, ⟨[], by decide⟩]
  let buffers : List (Buffer 64 ℕ) := [⟨[0, 0], by decide⟩, ⟨[], by decide⟩]
  let done : SocketPair 64 ℕ :=
    ⟨[], none, [true, true], [], [], none, [(true, [7, 8]), (true, [])]⟩
  let es : List Progress := List.replicate 5 .moved ++ .retried :: List.replicate 6 .moved
  have hrun : (machine 64 ℕ).Run Machine.always (init messages buffers) es done :=
    .of_exec [.callSend, .send 2, .returnSend, .callRecv, .recv 1, .recvAgain .EAGAIN,
      .recv 1, .returnRecv, .callSend, .returnSend, .callRecv, .returnRecv] rfl
  have hbufs : buffers.map Buffer.size = messages.map Buffer.size := rfl
  have hst : done.Stalled := fun a s' h => by cases a <;> cases h
  exact ⟨done, hst, (recvBytes_undoes_sendBytes hbufs hrun).2.2.2 hst⟩

end Step

end SocketPair
