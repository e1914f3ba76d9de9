import NetUtils.RecvBytes
import NetUtils.WorkerIo

/-!
# `IOHelper::hexdump`, and what it is given to dump

With trace logging enabled the two transfer loops and the read thread dump
the bytes of each call that transferred some. The loop of `hexdump` runs over
`len` bytes with a counter of type `int`, and trusts `len`: it ends without
leaving the buffer or overflowing the counter exactly when `len` is within
the buffer and within `INT_MAX` (`hexdump_ok_iff`).

The lengths are the answers of the calls, as the callers have converted them.
`recv_bytes` and the read thread go through an `int` first, and dump only
what is positive there; what is positive as an `int` is no more than was
transferred. `send_bytes` has no such test: a failed `send` is dumped, with
the largest `size_t` as its length.
-/

open Transfer

variable {w : ℕ} {β : Type}

/-! ## The stream the dump is written to -/

/-- The largest `int`. -/
def INT_MAX : ℕ := 2 ^ 31 - 1

/-- **`std::ostringstream`**, as far as `hexdump` uses it. -/
structure OStringStream where
  /-- The characters written. -/
  text : List Char
  /-- The width the next formatted output is padded to. -/
  width : ℕ
  /-- The character it is padded with. -/
  fill : Char
  /-- The base integers are written in. -/
  base : ℕ

namespace OStringStream

/-- A new stream. -/
def empty : OStringStream := ⟨[], 0, ' ', 10⟩

variable (oss : OStringStream)

/-- `std::setw(n)`. -/
def setw (n : ℕ) : OStringStream := { oss with width := n }

/-- `std::setfill(c)`. -/
def setfill (c : Char) : OStringStream := { oss with fill := c }

/-- `std::hex`. -/
def hex : OStringStream := { oss with base := 16 }

/-- Output of characters. They are padded to the width, which is then reset;
the fill character and the base stay. -/
def put (chars : List Char) : OStringStream :=
  { oss with
    text := oss.text ++ List.replicate (oss.width - chars.length) oss.fill ++ chars
    width := 0 }

/-- Output of an integer that is not negative. -/
def putInt (n : ℕ) : OStringStream := oss.put (Nat.toDigits oss.base n)

/-- `std::endl`, which is not padded. -/
def endl : OStringStream := { oss with text := oss.text ++ ['\n'] }

end OStringStream

namespace IOHelper

/-! ## The dump -/

/-- What goes wrong in a dump. -/
inductive DumpFault where
  /-- `data[i]` is read outside the buffer. -/
  | outOfBounds
  /-- `i++` overflows. -/
  | overflow
  deriving DecidableEq, Repr

/-- The output for the byte at `i`. -/
def dumpByte (oss : OStringStream) (i : ℕ) (byte : UInt8) : OStringStream :=
  let oss := ((oss.put ['0', 'x']).setw 2).setfill '0'
  let oss := (oss.hex.putInt (byte.toNat &&& 0xff)).put [' ']
  if (i + 1) % 0x10 = 0 then oss.endl else oss

/-- The loop of `hexdump` from `i` on, where `rest` is what follows in the
buffer from there. The `int` is converted to `size_t` for `i != len`. -/
def dumpFrom (len : BitVec w) (oss : OStringStream) (i : ℕ) :
    List UInt8 → Except DumpFault OStringStream
  | [] => if BitVec.ofNat w i = len then .ok oss else .error .outOfBounds
  | byte :: rest =>
    if BitVec.ofNat w i = len then .ok oss
    else if i = INT_MAX then .error .overflow
    else dumpFrom len (dumpByte oss i byte) (i + 1) rest

/-- **`IOHelper::hexdump(buffer, len)`**, with the bytes of the buffer. -/
def hexdump (buffer : List UInt8) (len : BitVec w) : Except DumpFault (List Char) :=
  (dumpFrom len .empty 0 buffer).map OStringStream.text

/-- From an index not past `len` the loop ends well exactly when `len` is
within the buffer and the counter gets there. -/
theorem dumpFrom_ok_iff (len : BitVec w) {oss : OStringStream} {i : ℕ} {rest : List UInt8}
    (hi : i ≤ len.toNat) (hmax : i ≤ INT_MAX) :
    (∃ out, dumpFrom len oss i rest = .ok out)
      ↔ len.toNat ≤ i + rest.length ∧ len.toNat ≤ INT_MAX := by
  have hlen := len.isLt
  have heq (i : ℕ) (hi : i ≤ len.toNat) : BitVec.ofNat w i = len ↔ i = len.toNat := by
    rw [← BitVec.toNat_inj, BitVec.toNat_ofNat, Nat.mod_eq_of_lt (by omega)]
  induction rest generalizing oss i with
  | nil =>
    rw [dumpFrom]
    split
    case isTrue h => exact ⟨fun _ => by rw [heq i hi] at h; simp; omega, fun _ => ⟨oss, rfl⟩⟩
    case isFalse h =>
      rw [heq i hi] at h
      refine ⟨?_, fun hle => ?_⟩
      · rintro ⟨_, ⟨⟩⟩
      · simp at hle
        omega
  | cons byte rest ih =>
    rw [dumpFrom]
    split
    case isTrue h => exact ⟨fun _ => by rw [heq i hi] at h; simp; omega, fun _ => ⟨oss, rfl⟩⟩
    case isFalse h =>
      rw [heq i hi] at h
      split
      case isTrue hlast =>
        refine ⟨?_, fun hle => ?_⟩
        · rintro ⟨_, ⟨⟩⟩
        · omega
      case isFalse hlast =>
        refine (ih (by omega) (by omega)).trans ?_
        rw [List.length_cons]
        omega

/-- **`hexdump` ends well exactly when its length is within the buffer and
within `INT_MAX`.** -/
theorem hexdump_ok_iff (buffer : List UInt8) (len : BitVec w) :
    (∃ text, hexdump buffer len = .ok text)
      ↔ len.toNat ≤ buffer.length ∧ len.toNat ≤ INT_MAX := by
  have hloop : (∃ out, dumpFrom len .empty 0 buffer = .ok out)
      ↔ len.toNat ≤ 0 + buffer.length ∧ len.toNat ≤ INT_MAX :=
    dumpFrom_ok_iff len (Nat.zero_le _) (Nat.zero_le _)
  rw [Nat.zero_add] at hloop
  rw [← hloop, hexdump]
  cases dumpFrom len .empty 0 buffer with
  | error fault =>
    constructor <;>
      · rintro ⟨_, h⟩
        cases h
  | ok oss => exact ⟨fun _ => ⟨oss, rfl⟩, fun _ => ⟨oss.text, rfl⟩⟩

/-- Two bytes. -/
example : hexdump [0x0a, 0xff] 2#64 = .ok "0x0a 0xff ".toList := by decide

/-! ## What the callers give to it -/

/-- A call of `hexdump`: the bytes from the address it is given to the end of
the caller's buffer, and the length. -/
structure Dump (w : ℕ) where
  /-- The bytes of the buffer. -/
  buffer : List UInt8
  /-- The length. -/
  len : BitVec w

/-- **The call is safe**: its length is within the buffer and within
`INT_MAX`, and so the loop ends well. -/
structure Dump.Safe (d : Dump w) : Prop where
  fits : d.len.toNat ≤ d.buffer.length
  countable : d.len.toNat ≤ INT_MAX
  ends : ∃ text, hexdump d.buffer d.len = .ok text

theorem Dump.safe_iff (d : Dump w) :
    d.Safe ↔ d.len.toNat ≤ d.buffer.length ∧ d.len.toNat ≤ INT_MAX :=
  ⟨fun h => ⟨h.fits, h.countable⟩, fun h => ⟨h.1, h.2, (hexdump_ok_iff _ _).mpr h⟩⟩

/-- The length `send_bytes` dumps after an answer of `send`, or `none` where
it does not get there. -/
def sendTraced (w : ℕ) (r : IoResult) : Option (BitVec w) :=
  let sb : BitVec w := BitVec.ofInt w r.value
  if sb < 0#w then none
  else if sb = 0#w then none
  else some sb

/-- The length `recv_bytes` and the read thread dump after an answer of
`recv`, or `none` where they do not get there. -/
def recvTraced (w : ℕ) (r : IoResult) : Option (BitVec w) :=
  let rb : BitVec 32 := BitVec.ofInt 32 r.value
  if rb.slt 0#32 then none
  else if rb = 0#32 then none
  else some (BitVec.ofInt w rb.toInt)

/-- What `send_bytes` dumps over a list of calls. The address is the start of
the buffer each time. -/
def sendDumps (w : ℕ) (buf : List UInt8) (calls : List (Call IoResult)) : List (Dump w) :=
  calls.filterMap fun c => (sendTraced w c.result).map (Dump.mk buf)

/-- What `recv_bytes` dumps over a list of calls, from the start of the buffer
as it stands after each. -/
def recvDumps (w : ℕ) (buf stream : List UInt8) : List (Call IoResult) → List (Dump w)
  | [] => []
  | c :: cs =>
    let buf' := overwrite buf c.offset (stream.take c.result.transferred)
    ((recvTraced w c.result).map (Dump.mk buf')).toList
      ++ recvDumps w buf' (stream.drop c.result.transferred) cs

/-- `send_bytes` goes on with its loop exactly where it dumps. -/
theorem sendBody_of_traced {len total sb : BitVec w} {r : IoResult}
    (h : sendTraced w r = some sb) : sendBody len total r = test len (total + sb) := by
  simp only [sendTraced] at h
  simp only [sendBody]
  split at h
  · cases h
  · split at h
    · cases h
    · cases h
      rw [if_neg ‹_›, if_neg ‹_›]

/-- `recv_bytes` goes on with its loop exactly where it dumps, or at the same
place. -/
theorem recvBody_of_traced {len total rb : BitVec w} {r : IoResult}
    (h : recvTraced w r = some rb) : recvBody len total r = test len (total + rb) := by
  simp only [recvTraced] at h
  simp only [recvBody]
  split at h
  · cases h
  · split at h
    · cases h
    · cases h
      rw [if_neg ‹_›, if_neg ‹_›]

/-- **What is positive as an `int` is no more than was transferred**, whatever
the conversions do to it. -/
theorem recvTraced_le {r : IoResult} {rb : BitVec w} (h : recvTraced w r = some rb) :
    rb.toNat ≤ r.transferred ∧ rb.toNat ≤ INT_MAX := by
  cases r with
  | error e => simp [recvTraced, IoResult.value] at h
  | count n =>
    have hmod : (BitVec.ofInt 32 n).toNat ≤ n := by
      rw [BitVec.ofInt_natCast, BitVec.toNat_ofNat]
      exact Nat.mod_le _ _
    unfold recvTraced IoResult.value at h
    generalize BitVec.ofInt 32 (n : ℤ) = x at h hmod
    simp only at h
    by_cases hneg : x.slt 0#32 = true
    · rw [if_pos hneg] at h
      cases h
    · rw [if_neg hneg] at h
      by_cases hzero : x = 0#32
      · rw [if_pos hzero] at h
        cases h
      · rw [if_neg hzero] at h
        cases h
        have hmsb : x.msb = false := by
          rw [← BitVec.slt_zero_eq_msb]
          exact Bool.of_not_eq_true hneg
        have hlt := BitVec.toNat_lt_of_msb_false hmsb
        rw [BitVec.toInt_eq_toNat_of_msb hmsb, BitVec.ofInt_natCast, BitVec.toNat_ofNat]
        have hle := Nat.mod_le x.toNat (2 ^ w)
        rw [IoResult.transferred, INT_MAX]
        omega

/-- What `send_bytes` takes for a count it dumps as it is. -/
theorem sendTraced_count {k : ℕ} (hk : 0 < k) (hfits : k < 2 ^ w) :
    ∃ sb : BitVec w, sendTraced w (.count k) = some sb ∧ sb.toNat = k := by
  have hnat : (BitVec.ofNat w k).toNat = k := by
    rw [BitVec.toNat_ofNat, Nat.mod_eq_of_lt hfits]
  have hne : BitVec.ofNat w k ≠ 0#w := by
    intro h
    rw [h] at hnat
    simp at hnat
    omega
  exact ⟨BitVec.ofNat w k, by simp [sendTraced, IoResult.value, hne], hnat⟩

/-- **A failed `send` is dumped**, with the largest `size_t`. -/
theorem sendTraced_error (hw : 0 < w) (e : Errno) :
    ∃ sb : BitVec w, sendTraced w (.error e) = some sb ∧ sb.toNat = 2 ^ w - 1 := by
  have hone : BitVec.ofInt w (-1) = BitVec.allOnes w := by
    rw [← BitVec.neg_one_eq_allOnes, BitVec.ofInt_neg, BitVec.ofInt_ofNat]
  have hnat : (BitVec.allOnes w).toNat = 2 ^ w - 1 := BitVec.toNat_allOnes
  have hpos : 1 < 2 ^ w := Nat.one_lt_two_pow hw.ne'
  have hne : BitVec.allOnes w ≠ 0#w := by
    intro h
    rw [h] at hnat
    simp at hnat
    omega
  exact ⟨BitVec.allOnes w, by simp [sendTraced, IoResult.value, hone, hne], hnat⟩

theorem sendTraced_zero (w : ℕ) : sendTraced w (.count 0) = none := by
  simp [sendTraced, IoResult.value]

/-! ## When all is safe -/

/-- **The answers `send_bytes` dumps safely**: reading them from the first, a
`0` comes, or the counts reach `left`, before any error does and before any
count over `INT_MAX`. It speaks of the answers alone. -/
def traceSafe : ℕ → List IoResult → Bool
  | 0, _ => true
  | _ + 1, [] => true
  | _ + 1, .error _ :: _ => false
  | left + 1, .count k :: rs => k == 0 || (decide (k ≤ INT_MAX) && traceSafe (left + 1 - k) rs)

theorem traceSafe_zero (rs : List IoResult) : traceSafe 0 rs = true := by
  rw [traceSafe]

theorem traceSafe_nil (left : ℕ) : traceSafe left [] = true := by
  cases left <;> rfl

theorem traceSafe_error {left : ℕ} (e : Errno) (rs : List IoResult) (hleft : 0 < left) :
    traceSafe left (.error e :: rs) = false := by
  obtain ⟨m, rfl⟩ := Nat.exists_eq_add_of_lt hleft
  rfl

theorem traceSafe_count_zero (left : ℕ) (rs : List IoResult) :
    traceSafe left (.count 0 :: rs) = true := by
  cases left <;> rfl

theorem traceSafe_count {left k : ℕ} (rs : List IoResult) (hleft : 0 < left) (hk : 0 < k) :
    traceSafe left (.count k :: rs) = true
      ↔ k ≤ INT_MAX ∧ traceSafe (left - k) rs = true := by
  obtain ⟨m, rfl⟩ := Nat.exists_eq_add_of_lt hleft
  rw [Nat.zero_add, traceSafe, show (k == 0) = false from by simp; omega, Bool.false_or,
    Bool.and_eq_true, decide_eq_true_iff]

section Tracing

variable {buf : List UInt8} {len total : BitVec w} {rs : List IoResult}

/-- **The dumps of the sending loop**, from a counter inside the buffer. -/
theorem sendLoop_dumps (hw : 32 ≤ w) (hlen : len.toNat = buf.length)
    (hlt : total.toNat < buf.length)
    (hwithin : ∀ c ∈ (loop len (sendBody len) (.calling total) rs).calls,
      c.result.Within c.length) :
    (∀ d ∈ sendDumps w buf (loop len (sendBody len) (.calling total) rs).calls, d.Safe)
      ↔ traceSafe (buf.length - total.toNat) rs = true := by
  have hword := len.isLt
  induction rs generalizing total with
  | nil => simp [sendDumps, traceSafe_nil]
  | cons r rs ih =>
    rw [loop] at hwithin ⊢
    cases r with
    | error e =>
      -- the largest `size_t` is larger than `INT_MAX`
      obtain ⟨sb, hsb, hnat⟩ := sendTraced_error (by omega : 0 < w) e
      have hbig : 2 ^ 32 ≤ 2 ^ w := Nat.pow_le_pow_right (by decide) hw
      rw [traceSafe_error e rs (by omega)]
      refine iff_of_false (fun hall => ?_) Bool.false_ne_true
      have hsafe := (hall ⟨buf, sb⟩ (by simp [sendDumps, hsb])).countable
      rw [hnat, INT_MAX] at hsafe
      omega
    | count k =>
      have hk : k ≤ buf.length - total.toNat := by
        have := hwithin _ List.mem_cons_self
        rw [toNat_left (by omega), hlen] at this
        exact this
      rcases Nat.eq_zero_or_pos k with rfl | hpos
      · rw [sendBody_zero, loop_returned, traceSafe_count_zero]
        simp [sendDumps, sendTraced_zero]
      · obtain ⟨sb, hsb, hnat⟩ := sendTraced_count hpos (by omega : k < 2 ^ w)
        have hhead : (⟨buf, sb⟩ : Dump w).Safe ↔ k ≤ INT_MAX := by
          rw [Dump.safe_iff, hnat]
          exact ⟨fun h => h.2, fun h => ⟨(by omega : k ≤ buf.length), h⟩⟩
        have hsplit (calls : List (Call IoResult)) :
            (∀ d ∈ sendDumps w buf
              (⟨total.toNat, (len - total).toNat, .count k⟩ :: calls), d.Safe)
              ↔ k ≤ INT_MAX ∧ ∀ d ∈ sendDumps w buf calls, d.Safe := by
          simp only [sendDumps, List.filterMap_cons, hsb, Option.map_some, List.forall_mem_cons,
            hhead]
        have hle : total.toNat + k ≤ len.toNat := by omega
        rw [hsplit, traceSafe_count rs (by omega) hpos]
        refine and_congr_right fun _ => ?_
        rcases sendBody_count_cases hpos hle with ⟨hend, hbody⟩ | ⟨next, hnext, hlt', hbody⟩
        · rw [hbody, loop_returned, show buf.length - total.toNat - k = 0 from by omega,
            traceSafe_zero]
          simp [sendDumps]
        · rw [hbody] at hwithin ⊢
          rw [show buf.length - total.toNat - k = buf.length - next.toNat from by omega]
          exact ih (by omega) (fun c hc => hwithin c (List.mem_cons_of_mem _ hc))

/-- The dumps of a `send_bytes` call are safe exactly for answers that are
traced safely. -/
theorem sendDumps_safe_iff (hw : 32 ≤ w) (b : Buffer w UInt8)
    (hwithin : ∀ c ∈ (sendBytes b.size rs).calls, c.result.Within c.length) :
    (∀ d ∈ sendDumps w b.bytes (sendBytes b.size rs).calls, d.Safe)
      ↔ traceSafe b.bytes.length rs = true := by
  have hlen : b.size.toNat = b.bytes.length := b.toNat_size
  have hzero : (0#w).toNat = 0 := by simp
  rw [sendBytes] at hwithin ⊢
  rcases Nat.eq_zero_or_pos b.bytes.length with hnil | hpos
  · rw [test_of_le (by omega), loop_returned, hnil, traceSafe_zero]
    simp [sendDumps]
  · rw [test_of_lt (by omega)] at hwithin ⊢
    rw [sendLoop_dumps hw hlen (by omega) hwithin, hzero, Nat.sub_zero]

/-- Dumps of what calls inside the buffer have stored are safe. -/
theorem recvDumps_safe (stream : List UInt8) {calls : List (Call IoResult)}
    (hinside : ∀ c ∈ calls, c.offset + c.result.transferred ≤ buf.length) :
    ∀ d ∈ recvDumps w buf stream calls, d.Safe := by
  induction calls generalizing buf stream with
  | nil => intro d hd; cases hd
  | cons c cs ih =>
    have hfits := hinside c List.mem_cons_self
    have hsame : (overwrite buf c.offset (stream.take c.result.transferred)).length
        = buf.length := by
      refine length_overwrite ?_
      rw [List.length_take]
      omega
    intro d hd
    rcases List.mem_append.mp hd with hd | hd
    · obtain ⟨rb, hrb, rfl⟩ := Option.map_eq_some_iff.mp (Option.mem_toList.mp hd)
      obtain ⟨hle, hmax⟩ := recvTraced_le hrb
      refine (Dump.safe_iff _).mpr ⟨?_, hmax⟩
      rw [hsame]
      exact hle.trans (by omega)
    · refine ih _ (fun c' hc' => ?_) d hd
      rw [hsame]
      exact hinside c' (List.mem_cons_of_mem _ hc')

/-- **The dumps of a `recv_bytes` call are safe**, for all answers. -/
theorem recvBytes_dumps_safe (b : Buffer w UInt8) (stream : List UInt8)
    (hwithin : ∀ c ∈ (recvBytes b.size rs).calls, c.result.Within c.length) :
    ∀ d ∈ recvDumps w b.bytes stream (recvBytes b.size rs).calls, d.Safe := by
  refine recvDumps_safe stream fun c hc => ?_
  rw [← b.toNat_size]
  exact (inBuffer_of_mem_recvBytes hc).moved (hwithin c hc)

end Tracing

end IOHelper

/-- The value an answer of the read thread's `recv` has. -/
def Received.result : Received β → IoResult
  | failed e => .error e
  | got chunk => .count chunk.length

namespace ThreadsTcpBroWorker

open IOHelper

/-- The read thread's `recv_buffer` after an answer. It is declared in the
loop, all zero. -/
def recvBuffer (answer : Received UInt8) : List UInt8 :=
  overwrite (List.replicate MAX_MESSAGEBUFF_LEN 0) 0 answer.bytes

/-- What the read thread dumps after an answer. -/
def Event.dump : Event w UInt8 → Option (Dump w)
  | .recv _ answer => (recvTraced w answer.result).map (Dump.mk (recvBuffer answer))
  | _ => none

/-- The dumps of the read thread. -/
def readDumps (es : List (Event w UInt8)) : List (Dump w) := es.filterMap Event.dump

section ReadDumps

variable {s s' : ThreadsTcpBroWorker w UInt8} {a : Action w UInt8}
variable {es : List (Event w UInt8)} {context : SocketContext w UInt8}

theorem transferred_result (answer : Received UInt8) :
    answer.result.transferred = answer.bytes.length := by
  cases answer <;> rfl

/-- An answer the kernel can give is dumped safely. -/
theorem dump_safe {fd fd' : ℤ} {answer : Received UInt8} (hanswer : answer.Allowed fd)
    {d : Dump w} (hd : Event.dump (.recv fd' answer) = some d) : d.Safe := by
  obtain ⟨rb, hrb, rfl⟩ := Option.map_eq_some_iff.mp hd
  obtain ⟨hle, hmax⟩ := recvTraced_le hrb
  have hbytes : answer.bytes.length ≤ MAX_MESSAGEBUFF_LEN := by
    cases answer with
    | failed e => exact Nat.zero_le _
    | got chunk => exact hanswer.2
  have hbuffer : (recvBuffer answer).length = MAX_MESSAGEBUFF_LEN := by
    rw [recvBuffer, length_overwrite (by rw [List.length_replicate]; omega),
      List.length_replicate]
  refine (Dump.safe_iff _).mpr ⟨?_, hmax⟩
  rw [hbuffer]
  rw [transferred_result] at hle
  exact hle.trans hbytes

theorem Step.dumps_safe (h : Step s a s' es) : ∀ d ∈ readDumps es, d.Safe := by
  intro d hd
  obtain ⟨e, he, hdump⟩ := List.mem_filterMap.mp hd
  cases h with
  | readRecv hpc hanswer =>
    obtain rfl := List.mem_singleton.mp he
    exact dump_safe hanswer hdump
  | destroyOpen => obtain rfl := List.mem_singleton.mp he; cases hdump
  | readExitClose => obtain rfl := List.mem_singleton.mp he; cases hdump
  | writeExitClose => obtain rfl := List.mem_singleton.mp he; cases hdump
  | writeCopy => obtain rfl := List.mem_singleton.mp he; cases hdump
  | writeCallSend => obtain rfl := List.mem_singleton.mp he; cases hdump
  | writeSend => obtain rfl := List.mem_singleton.mp he; cases hdump
  | callBody => obtain rfl := List.mem_singleton.mp he; cases hdump
  | _ => cases he

/-- **The dumps of the read thread are safe** in every run. -/
theorem readDumps_safe_of_run {ok : ThreadsTcpBroWorker w UInt8 → Action w UInt8 → Prop}
    (h : (machine w UInt8).Run ok (init context) es s) : ∀ d ∈ readDumps es, d.Safe := by
  refine h.invariant (I := fun es _ => ∀ d ∈ readDumps es, d.Safe)
    (fun d hd => absurd hd List.not_mem_nil) ?_
  intro es s a s' es' _ hi _ hs d hd
  rw [readDumps, List.filterMap_append] at hd
  rcases List.mem_append.mp hd with hd | hd
  · exact hi d hd
  · exact (Step.of_step hs).dumps_safe d hd

end ReadDumps

end ThreadsTcpBroWorker

namespace IOHelper

/-- **The hex traces read only transferred data, exactly where no `-1` and no
count over `INT_MAX` is answered to a `send`** before the buffer is through.
The traces of `recv_bytes` and of the read thread always do. -/
theorem hexdumps_safe_iff (hw : 32 ≤ w) (b : Buffer w UInt8) {rs : List IoResult}
    (hsend : ∀ c ∈ (sendBytes b.size rs).calls, c.result.Within c.length)
    (b' : Buffer w UInt8) (stream : List UInt8) {rs' : List IoResult}
    (hrecv : ∀ c ∈ (recvBytes b'.size rs').calls, c.result.Within c.length)
    {context : SocketContext w UInt8} {es : List (ThreadsTcpBroWorker.Event w UInt8)}
    {s : ThreadsTcpBroWorker w UInt8}
    (hrun : (ThreadsTcpBroWorker.machine w UInt8).Run Machine.always
      (ThreadsTcpBroWorker.init context) es s) :
    ((∀ d ∈ sendDumps w b.bytes (sendBytes b.size rs).calls, d.Safe)
      ∧ (∀ d ∈ recvDumps w b'.bytes stream (recvBytes b'.size rs').calls, d.Safe)
      ∧ ∀ d ∈ ThreadsTcpBroWorker.readDumps es, d.Safe)
      ↔ traceSafe b.bytes.length rs = true := by
  rw [← sendDumps_safe_iff hw b hsend]
  exact ⟨fun h => h.1, fun h => ⟨h, recvBytes_dumps_safe b' stream hrecv,
    ThreadsTcpBroWorker.readDumps_safe_of_run hrun⟩⟩

/-- Three bytes sent in two pieces, three received in two, and a worker that has
received two. -/
theorem hexdumps_safe_iff_three :
    ∃ es s, (ThreadsTcpBroWorker.machine 64 UInt8).Run Machine.always
        (.init ⟨.IPV4SocketContext, 5, [], ⟨[], by decide⟩⟩) es s
      ∧ (ThreadsTcpBroWorker.readDumps es).map Dump.len = [2#64]
      ∧ ((∀ d ∈ sendDumps 64 [1, 2, 3] (sendBytes 3#64 [.count 2, .count 1]).calls, d.Safe)
          ∧ (∀ d ∈ recvDumps 64 [0, 0, 0] [7, 8, 9]
            (recvBytes 3#64 [.count 1, .error .EAGAIN, .count 2]).calls, d.Safe)
          ∧ ∀ d ∈ ThreadsTcpBroWorker.readDumps es, d.Safe) := by
  obtain ⟨es, s, hrun, hdumps⟩ : ∃ es s, (ThreadsTcpBroWorker.machine 64 UInt8).Run
        Machine.always (.init ⟨.IPV4SocketContext, 5, [], ⟨[], by decide⟩⟩) es s
      ∧ (ThreadsTcpBroWorker.readDumps es).map Dump.len = [2#64] := by
    refine Machine.Run.exists_of_exec (ThreadsTcpBroWorker.times 4 .doWork
      ++ ThreadsTcpBroWorker.times 6 .reader ++ [.recv (.got [10, 20])]) ?_
    decide +kernel
  refine ⟨es, s, hrun, hdumps, ?_⟩
  exact (hexdumps_safe_iff (by decide) (⟨[1, 2, 3], by decide⟩ : Buffer 64 UInt8) (by decide)
    (⟨[0, 0, 0], by decide⟩ : Buffer 64 UInt8) [7, 8, 9] (by decide) hrun).mpr (by decide)

/-- **A failed `send` is dumped.** The length is the largest `size_t`, and
with three bytes in the buffer the dump reads a fourth. -/
theorem sendDumps_error_unsafe :
    (∀ c ∈ (sendBytes 3#64 [.error .EAGAIN]).calls, c.result.Within c.length)
      ∧ (sendDumps 64 [1, 2, 3] (sendBytes 3#64 [.error .EAGAIN]).calls).map Dump.len
          = [BitVec.allOnes 64]
      ∧ hexdump [1, 2, 3] (BitVec.allOnes 64) = .error .outOfBounds
      ∧ ¬ ∀ d ∈ sendDumps 64 [1, 2, 3] (sendBytes 3#64 [.error .EAGAIN]).calls, d.Safe := by
  refine ⟨by decide, by decide, by decide, fun hall => ?_⟩
  have hsafe := hall ⟨[1, 2, 3], BitVec.allOnes 64⟩ (by simp [sendDumps, sendBytes, loop, test,
    sendTraced, IoResult.value])
  exact absurd hsafe.countable (by decide)

end IOHelper
