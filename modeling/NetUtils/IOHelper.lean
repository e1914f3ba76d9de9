import NetUtils.Posix
import NetUtils.Transfer

/-!
# `IOHelper::send_bytes` and `IOHelper::recv_bytes`

Both functions are transfer loops in the sense of `NetUtils.Transfer`; what
is modelled here is the body of each, with its types. `recv_bytes` stores
the answer of `recv` in an `int` and asks whether it is negative.
`send_bytes` stores the answer of `send` in a `size_t`, so the `-1` of a
failed call becomes `2 ^ w - 1`, the test `sb < 0` is false of every value,
and the error branch under it is never taken: the failed call *moves the
counter back by one*. At offset `0` the counter wraps to `2 ^ w - 1`, no
length exceeds it, and the function returns `true` with nothing sent; at any
other offset the byte before the failed call is offered a second time.

`sendBytes_deliversOrFails_iff` is the exact extent of the damage: the
function delivers its buffer or reports that it did not, on the calls it
makes, precisely when no `-1` is answered before the buffer is through.
-/

namespace IOHelper

open Transfer

variable {w : ℕ} {β : Type}

/-- **The body of `send_bytes`' loop**, from the answer of `send` on. The
answer is converted to `size_t` as it is stored. -/
def sendBody (len total_send : BitVec w) (r : IoResult) : Phase w :=
  let sb : BitVec w := BitVec.ofInt w r.value
  if sb < 0#w then
    if r.wouldBlock then test len total_send
    else .returned false
  else if sb = 0#w then .returned false
  else test len (total_send + sb)

/-- `IOHelper::send_bytes` over the answers of its `send` calls. -/
def sendBytes (len : BitVec w) (rs : List IoResult) : Outcome IoResult :=
  loop len (sendBody len) (test len 0#w) rs

/-- **The body of `recv_bytes`' loop**, from the answer of `recv` on. The
answer is converted to `int` as it is stored, and back to `size_t` as it is
added. -/
def recvBody (len total_rb : BitVec w) (r : IoResult) : Phase w :=
  let rb : BitVec 32 := BitVec.ofInt 32 r.value
  if rb.slt 0#32 then
    if r.wouldBlock then test len total_rb
    else .returned false
  else if rb = 0#32 then .returned false
  else test len (total_rb + BitVec.ofInt w rb.toInt)

/-- `IOHelper::recv_bytes` over the answers of its `recv` calls. -/
def recvBytes (len : BitVec w) (rs : List IoResult) : Outcome IoResult :=
  loop len (recvBody len) (test len 0#w) rs

/-! ## What the body of `send_bytes` does with each answer -/

theorem sendBody_count {len total : BitVec w} {n : ℕ} (hn : 0 < n)
    (hle : total.toNat + n ≤ len.toNat) :
    sendBody len total (.count n) = test len (total + BitVec.ofNat w n) := by
  have hlt := len.isLt
  have hne : BitVec.ofNat w n ≠ 0#w := by
    intro h
    have := congrArg BitVec.toNat h
    rw [BitVec.toNat_ofNat, Nat.mod_eq_of_lt (by omega)] at this
    simp only [BitVec.toNat_ofNat, Nat.zero_mod] at this
    omega
  simp [sendBody, IoResult.value, hne]

theorem sendBody_zero (len total : BitVec w) :
    sendBody len total (.count 0) = .returned false := by
  simp [sendBody, IoResult.value]

/-- **A failed `send` is not taken for a failure.** Whatever the `errno`, the
converted answer is the largest `size_t`, and it is added to the counter. -/
theorem sendBody_error {len total : BitVec w} (e : Errno)
    (hlt : total.toNat < len.toNat) :
    sendBody len total (.error e) = test len (total + BitVec.allOnes w) := by
  have hlen := len.isLt
  have hone : BitVec.ofInt w (-1) = BitVec.allOnes w := by
    rw [← BitVec.neg_one_eq_allOnes, BitVec.ofInt_neg, BitVec.ofInt_ofNat]
  have hne : BitVec.allOnes w ≠ 0#w := by
    intro h
    have := congrArg BitVec.toNat h
    simp only [BitVec.toNat_allOnes, BitVec.toNat_ofNat, Nat.zero_mod] at this
    omega
  simp [sendBody, IoResult.value, hone, hne]

/-- At the start of the buffer a failed `send` ends the loop with `true`. -/
theorem sendBody_error_start {len total : BitVec w} (e : Errno)
    (hlt : total.toNat < len.toNat) (h0 : total.toNat = 0) :
    sendBody len total (.error e) = .returned true := by
  have hlen := len.isLt
  rw [sendBody_error e hlt]
  refine test_of_le ?_
  rw [BitVec.toNat_add, BitVec.toNat_allOnes, h0, Nat.zero_add,
    Nat.mod_eq_of_lt (by omega)]
  omega

/-- Past the start a failed `send` takes the counter back by one, and the
loop goes on there. -/
theorem sendBody_error_later {len total : BitVec w} (e : Errno)
    (hlt : total.toNat < len.toNat) (h0 : 0 < total.toNat) :
    ∃ back : BitVec w, back.toNat + 1 = total.toNat ∧
      sendBody len total (.error e) = .calling back := by
  have hlen := len.isLt
  have hback : (total + BitVec.allOnes w).toNat = total.toNat - 1 := by
    rw [BitVec.toNat_add, BitVec.toNat_allOnes,
      show total.toNat + (2 ^ w - 1) = (total.toNat - 1) + 2 ^ w from by omega,
      Nat.add_mod_right, Nat.mod_eq_of_lt (by omega)]
  refine ⟨total + BitVec.allOnes w, by omega, ?_⟩
  rw [sendBody_error e hlt]
  exact test_of_lt (by omega)

/-! ## What the body of `recv_bytes` does with each answer -/

/-- A count that fits an `int` is added to the counter as it is. -/
theorem recvBody_count {len total : BitVec w} {n : ℕ} (hn : 0 < n)
    (hint : n < 2 ^ 31) :
    recvBody len total (.count n) = test len (total + BitVec.ofNat w n) := by
  have hrb : (BitVec.ofNat 32 n).toInt = n := by
    rw [← BitVec.ofInt_natCast]
    exact BitVec.toInt_ofInt_eq_self (by decide) (by omega) (by omega)
  have hpos : ¬ (BitVec.ofNat 32 n).slt 0#32 = true := by
    rw [BitVec.slt_eq_decide, hrb]
    simp
  have hne : BitVec.ofNat 32 n ≠ 0#32 := by
    intro h
    rw [h] at hrb
    simp at hrb
    omega
  simp only [recvBody, IoResult.value, BitVec.ofInt_natCast, hrb]
  rw [if_neg hpos, if_neg hne]

/-- A `recv` that would block is made again at the same place. -/
theorem recvBody_wouldBlock {len total : BitVec w} {r : IoResult}
    (hr : r.wouldBlock = true) (hlt : total.toNat < len.toNat) :
    recvBody len total r = .calling total := by
  cases r with
  | count n => cases hr
  | error e =>
    rw [recvBody, IoResult.value, if_pos (by decide), if_pos hr]
    exact test_of_lt hlt

/-! ## The counter at a call -/

/-- After every answer `send_bytes` makes its next call inside the buffer. -/
theorem lt_of_sendBody {len total next : BitVec w} {r : IoResult}
    (h : sendBody len total r = .calling next) : next.toNat < len.toNat := by
  simp only [sendBody] at h
  split at h
  · split at h
    · exact lt_of_test h
    · cases h
  · split at h
    · cases h
    · exact lt_of_test h

/-- So does `recv_bytes`. -/
theorem lt_of_recvBody {len total next : BitVec w} {r : IoResult}
    (h : recvBody len total r = .calling next) : next.toNat < len.toNat := by
  simp only [recvBody] at h
  split at h
  · split at h
    · exact lt_of_test h
    · cases h
  · split at h
    · cases h
    · exact lt_of_test h

/-- **A call lies in the caller's buffer** of `len` bytes. -/
structure InBuffer (len : ℕ) (c : Call IoResult) : Prop where
  /-- It is given an offset inside the buffer, -/
  offset : c.offset < len
  /-- and what is left from there, so the subtraction has not wrapped. -/
  length : c.length = len - c.offset
  /-- The range ends with the buffer. -/
  ends : c.offset + c.length = len
  /-- A count of no more than was asked for is of bytes of the buffer. -/
  moved : c.result.Within c.length → c.offset + c.result.transferred ≤ len

/-- The calls of a loop lie in the buffer, if its body leaves it at a call only
inside. -/
theorem inBuffer_of_mem_calls {len : BitVec w} {body : BitVec w → IoResult → Phase w}
    (hbody : ∀ total r next, body total r = .calling next → next.toNat < len.toNat)
    {rs : List IoResult} {c : Call IoResult} (hc : c ∈ (loop len body (test len 0#w) rs).calls) :
    InBuffer len.toNat c := by
  cases hphase : test len 0#w with
  | returned ok => rw [hphase, loop_returned] at hc; cases hc
  | calling total =>
    rw [hphase] at hc
    obtain ⟨hlt, hleft⟩ := offset_of_mem_calls hbody (lt_of_test hphase) hc
    refine ⟨hlt, hleft, by omega, fun hwithin => ?_⟩
    rw [IoResult.Within] at hwithin
    omega

theorem inBuffer_of_mem_recvBytes {len : BitVec w} {rs : List IoResult} {c : Call IoResult}
    (hc : c ∈ (recvBytes len rs).calls) : InBuffer len.toNat c :=
  inBuffer_of_mem_calls (fun _ _ _ => lt_of_recvBody) hc

/-- **Every range given to the kernel lies in the caller's buffer**, for every
length and whatever the calls answer. -/
theorem calls_inBuffer (len : BitVec w) (rs : List IoResult) :
    (∀ c ∈ (sendBytes len rs).calls, InBuffer len.toNat c)
      ∧ ∀ c ∈ (recvBytes len rs).calls, InBuffer len.toNat c :=
  ⟨fun _ hc => inBuffer_of_mem_calls (fun _ _ _ => lt_of_sendBody) hc,
    fun _ hc => inBuffer_of_mem_recvBytes hc⟩

/-! ## Delivering the buffer, or reporting that it was not delivered -/

/-- The bytes of `buf` the kernel accepted over a list of calls. -/
def accepted (buf : List β) (calls : List (Call IoResult)) : List β :=
  calls.flatMap (fun c => slice buf c.offset c.result.transferred)

@[simp] theorem accepted_nil (buf : List β) : accepted buf [] = [] := rfl

@[simp] theorem accepted_cons (buf : List β) (c : Call IoResult)
    (cs : List (Call IoResult)) :
    accepted buf (c :: cs)
      = slice buf c.offset c.result.transferred ++ accepted buf cs :=
  List.flatMap_cons

/-- After `EAGAIN` or `EWOULDBLOCK` the same suffix is offered again. -/
def Retries (c : Call IoResult) (after : List (Call IoResult)) : Prop :=
  c.result.wouldBlock = true →
    ∃ c' after', after = c' :: after' ∧ c'.offset = c.offset ∧ c'.length = c.length

/-- After any other error, or a `0`, no call is made and the result is
`false`. -/
def Stops (ok : Bool) (c : Call IoResult) (after : List (Call IoResult)) : Prop :=
  c.result.fatal = true → after = [] ∧ ok = false

/-- **The contract of a sending loop** that returned `ok` after `calls`. -/
structure DeliversOrFails (buf : List β) (calls : List (Call IoResult))
    (ok : Bool) : Prop where
  /-- What the kernel accepted is the buffer from its start on, no byte
  skipped or repeated. -/
  inOrder : accepted buf calls <+: buf
  /-- The result is `true` exactly for the whole buffer. -/
  whole : ok = true ↔ accepted buf calls = buf
  /-- Every call that would have blocked is made again. -/
  retry : EachThen Retries calls
  /-- Every error and every `0` ends the loop with `false`. -/
  stop : EachThen (Stops ok) calls

/-- **No `-1` is answered while bytes are left to send**: reading the answers
from the first, a `0` comes, or the counts reach `left`, before any error
does. It speaks of the answers alone. -/
def errorFree : ℕ → List IoResult → Bool
  | 0, _ => true
  | _ + 1, [] => true
  | _ + 1, .error _ :: _ => false
  | left + 1, .count k :: rs => k == 0 || errorFree (left + 1 - k) rs

theorem errorFree_zero (rs : List IoResult) : errorFree 0 rs = true := by
  rw [errorFree]

theorem errorFree_count {left k : ℕ} (rs : List IoResult) (hleft : 0 < left)
    (hk : 0 < k) : errorFree left (.count k :: rs) = errorFree (left - k) rs := by
  obtain ⟨m, rfl⟩ := Nat.exists_eq_add_of_lt hleft
  rw [Nat.zero_add, errorFree, show (k == 0) = false from by simp; omega, Bool.false_or]

theorem errorFree_error {left : ℕ} (e : Errno) (rs : List IoResult)
    (hleft : 0 < left) : errorFree left (.error e :: rs) = false := by
  obtain ⟨m, rfl⟩ := Nat.exists_eq_add_of_lt hleft
  rfl

section Delivery

variable {buf : List β} {len total : BitVec w} {rs : List IoResult} {ok : Bool}

/-- A positive count leaves the loop at the end of the buffer, or at its next
call with the counter advanced. -/
theorem sendBody_count_cases {k : ℕ} (hk : 0 < k)
    (hle : total.toNat + k ≤ len.toNat) :
    (total.toNat + k = len.toNat ∧ sendBody len total (.count k) = .returned true)
      ∨ ∃ next : BitVec w, next.toNat = total.toNat + k
        ∧ next.toNat < len.toNat ∧ sendBody len total (.count k) = .calling next := by
  rw [sendBody_count hk hle]
  exact test_advance_cases hle

/-- **A run of the loop that meets no error.** From a counter inside the
buffer it moves the bytes from there on, and ends with `true` at the end of
the buffer or with `false` at a `0`. -/
theorem sendLoop_of_errorFree (hlen : len.toNat = buf.length)
    (hlt : total.toNat < buf.length)
    (hfree : errorFree (buf.length - total.toNat) rs = true)
    (hwithin : ∀ c ∈ (loop len (sendBody len) (.calling total) rs).calls,
      c.result.Within c.length)
    (hret : (loop len (sendBody len) (.calling total) rs).returned = some ok) :
    (∃ n, total.toNat + n ≤ buf.length
      ∧ accepted buf (loop len (sendBody len) (.calling total) rs).calls
          = slice buf total.toNat n
      ∧ (ok = true ↔ total.toNat + n = buf.length))
      ∧ EachThen (fun c after => c.result.wouldBlock = false ∧ Stops ok c after)
          (loop len (sendBody len) (.calling total) rs).calls := by
  induction rs generalizing total with
  | nil => simp at hret
  | cons r rs ih =>
    cases r with
    | error e => rw [errorFree_error e rs (by omega)] at hfree; cases hfree
    | count k =>
      rw [loop] at hwithin hret ⊢
      have hk : k ≤ buf.length - total.toNat := by
        have := hwithin _ List.mem_cons_self
        rw [toNat_left (by omega), hlen] at this
        exact this
      rcases Nat.eq_zero_or_pos k with rfl | hpos
      · -- a `0`: the loop returns `false` at once
        rw [sendBody_zero, loop_returned] at hret ⊢
        obtain rfl : false = ok := by simpa using hret
        refine ⟨⟨0, by omega, by simp [IoResult.transferred], by simp; omega⟩, ?_⟩
        exact ⟨⟨rfl, fun _ => ⟨rfl, rfl⟩⟩, trivial⟩
      · have hle : total.toNat + k ≤ len.toNat := by omega
        have hhead : IoResult.wouldBlock (.count k) = false
            ∧ ∀ after, Stops ok ⟨total.toNat, (len - total).toNat, .count k⟩ after :=
          ⟨rfl, fun _ hf => absurd hf (by simp [IoResult.fatal]; omega)⟩
        rcases sendBody_count_cases hpos hle with ⟨hend, hbody⟩ | ⟨next, hnext, hlt', hbody⟩
        · -- the last byte is accepted: the loop returns `true`
          rw [hbody, loop_returned] at hret ⊢
          obtain rfl : true = ok := by simpa using hret
          refine ⟨⟨k, by omega, by simp [IoResult.transferred], by simp; omega⟩, ?_⟩
          exact ⟨⟨hhead.1, hhead.2 _⟩, trivial⟩
        · rw [hbody] at hret hwithin ⊢
          rw [errorFree_count rs (by omega) hpos,
            show buf.length - total.toNat - k = buf.length - next.toNat from by omega] at hfree
          obtain ⟨⟨n, hle, hacc, hok⟩, heach⟩ := ih (by omega) hfree
            (fun c hc => hwithin c (List.mem_cons_of_mem _ hc)) hret
          refine ⟨⟨k + n, by omega, ?_, by rw [hok]; omega⟩, ⟨hhead.1, hhead.2 _⟩, heach⟩
          rw [accepted_cons, hacc, hnext]
          exact slice_append_slice buf total.toNat k n

/-- **A run of the loop that meets an error breaks the contract** at the call
that met it: the next call, if there is one, is at the byte before, and if
there is none the result is `true`. -/
theorem sendLoop_of_error (hlen : len.toNat = buf.length)
    (hlt : total.toNat < buf.length)
    (hfree : errorFree (buf.length - total.toNat) rs = false)
    (hwithin : ∀ c ∈ (loop len (sendBody len) (.calling total) rs).calls,
      c.result.Within c.length)
    (hret : (loop len (sendBody len) (.calling total) rs).returned = some ok) :
    ¬ (EachThen Retries (loop len (sendBody len) (.calling total) rs).calls
      ∧ EachThen (Stops ok) (loop len (sendBody len) (.calling total) rs).calls) := by
  induction rs generalizing total with
  | nil => simp at hret
  | cons r rs ih =>
    rw [loop] at hwithin hret ⊢
    rintro ⟨⟨hretry, hretries⟩, ⟨hstop, hstops⟩⟩
    have hlt₀ : total.toNat < len.toNat := by omega
    cases r with
    | error e =>
      rcases Nat.eq_zero_or_pos total.toNat with h0 | hpos
      · -- at the start: the loop returns `true` with no further call
        rw [sendBody_error_start e hlt₀ h0, loop_returned] at hret hretry hstop
        obtain rfl : true = ok := by simpa using hret
        cases e with
        | EAGAIN => obtain ⟨c', after', hnil, -⟩ := hretry rfl; cases hnil
        | EWOULDBLOCK => obtain ⟨c', after', hnil, -⟩ := hretry rfl; cases hnil
        | EBADF => cases (hstop rfl).2
        | other code => cases (hstop rfl).2
      · -- later: the next call is at the byte before
        obtain ⟨back, hback, hbody⟩ := sendBody_error_later e hlt₀ hpos
        rw [hbody] at hret hretry hstop
        cases rs with
        | nil => simp at hret
        | cons r' rs =>
          rw [loop] at hretry hstop
          have hne : back.toNat ≠ total.toNat := by omega
          cases e with
          | EAGAIN =>
            obtain ⟨c', after', hcons, hoff, -⟩ := hretry rfl
            cases hcons; exact hne hoff
          | EWOULDBLOCK =>
            obtain ⟨c', after', hcons, hoff, -⟩ := hretry rfl
            cases hcons; exact hne hoff
          | EBADF => cases (hstop rfl).1
          | other code => cases (hstop rfl).1
    | count k =>
      have hk : k ≤ buf.length - total.toNat := by
        have := hwithin _ List.mem_cons_self
        rw [toNat_left (by omega), hlen] at this
        exact this
      rcases Nat.eq_zero_or_pos k with rfl | hpos
      · obtain ⟨m, hm⟩ := Nat.exists_eq_add_of_lt (show 0 < buf.length - total.toNat by omega)
        rw [hm] at hfree
        simp [errorFree] at hfree
      · have hle : total.toNat + k ≤ len.toNat := by omega
        rw [errorFree_count rs (by omega) hpos] at hfree
        rcases sendBody_count_cases hpos hle with ⟨hend, -⟩ | ⟨next, hnext, hlt', hbody⟩
        · rw [show buf.length - total.toNat - k = 0 from by omega, errorFree_zero] at hfree
          cases hfree
        · rw [hbody] at hret hwithin hretries hstops
          rw [show buf.length - total.toNat - k = buf.length - next.toNat from by omega] at hfree
          exact ih (by omega) hfree (fun c hc => hwithin c (List.mem_cons_of_mem _ hc)) hret
            ⟨hretries, hstops⟩

end Delivery

/-- **`send_bytes` delivers its buffer or reports that it did not, exactly
where no `-1` is answered while bytes are left.** -/
theorem sendBytes_deliversOrFails_iff (b : Buffer w β) {rs : List IoResult} {ok : Bool}
    (hwithin : ∀ c ∈ (sendBytes b.size rs).calls, c.result.Within c.length)
    (hret : (sendBytes b.size rs).returned = some ok) :
    DeliversOrFails b.bytes (sendBytes b.size rs).calls ok
      ↔ errorFree b.bytes.length rs = true := by
  have hlen : b.size.toNat = b.bytes.length := b.toNat_size
  have hzero : (0#w).toNat = 0 := by simp
  rw [sendBytes] at hwithin hret ⊢
  rcases Nat.eq_zero_or_pos b.bytes.length with hnil | hpos
  · -- an empty buffer is sent without a call
    rw [test_of_le (by omega), loop_returned] at hret ⊢
    obtain rfl : true = ok := by simpa using hret
    rw [hnil, List.length_eq_zero_iff.mp hnil]
    exact ⟨fun _ => errorFree_zero rs, fun _ => ⟨by simp, by simp, trivial, trivial⟩⟩
  · rw [test_of_lt (by omega)] at hwithin hret ⊢
    have hleft : b.bytes.length - (0#w).toNat = b.bytes.length := by omega
    constructor
    · intro h
      by_contra hne
      exact sendLoop_of_error hlen (by omega) (by rw [hleft]; simpa using hne) hwithin hret
        ⟨h.retry, h.stop⟩
    · intro hfree
      obtain ⟨⟨n, hle, hacc, hok⟩, heach⟩ := sendLoop_of_errorFree hlen (by omega)
        (by rw [hleft]; exact hfree) hwithin hret
      rw [hzero, slice_from_zero] at hacc
      refine ⟨?_, ?_, heach.mono (fun c after h hb => ?_), heach.mono (fun c after h => h.2)⟩
      · rw [hacc]
        exact List.take_prefix n b.bytes
      · rw [hok, hacc, List.take_eq_self_iff]
        omega
      · rw [h.1] at hb; cases hb

/-- Three bytes sent in two pieces. -/
theorem sendBytes_deliversOrFails_iff_three :
    DeliversOrFails [1, 2, 3] (sendBytes 3#64 [.count 2, .count 1]).calls true
      ↔ errorFree 3 [.count 2, .count 1] = true :=
  sendBytes_deliversOrFails_iff (⟨[1, 2, 3], by decide⟩ : Buffer 64 ℕ)
    (by decide) (by decide)

/-- **A send that would block repeats a byte.** The kernel takes two of three
bytes, then would block, then takes two: it has been given four, the second
one twice, and the caller is told that all went well. -/
theorem sendBytes_repeats_byte :
    (∀ c ∈ (sendBytes 3#64 [.count 2, .error .EAGAIN, .count 2]).calls,
        c.result.Within c.length)
      ∧ (sendBytes 3#64 [.count 2, .error .EAGAIN, .count 2]).returned = some true
      ∧ accepted [1, 2, 3] (sendBytes 3#64 [.count 2, .error .EAGAIN, .count 2]).calls
          = [1, 2, 2, 3]
      ∧ ¬ DeliversOrFails [1, 2, 3]
          (sendBytes 3#64 [.count 2, .error .EAGAIN, .count 2]).calls true := by
  refine ⟨by decide, by decide, by decide, fun h => ?_⟩
  have hacc := h.whole.mp rfl
  exact absurd hacc (by decide)

end IOHelper
