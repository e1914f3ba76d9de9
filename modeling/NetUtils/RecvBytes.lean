import NetUtils.IOHelper

/-!
# `recv_bytes` fills its buffer or reports failure

`recv_bytes` asks each `recv` for what is still missing and stores it behind
what is there, so after any number of calls the buffer is one write of the
bytes taken so far at its start (`recvLoop_fills`): the calls write end to
end, and two writes end to end are one (`Transfer.overwrite_overwrite`).

The counter is advanced by an `int`. A count that fits one arrives unchanged,
and the kernel transfers no more in one call than does.
-/

namespace IOHelper

open Transfer

variable {w : ℕ} {β : Type}

/-- A `0` ends the loop. -/
theorem recvBody_zero (len total : BitVec w) :
    recvBody len total (.count 0) = .returned false := by
  simp [recvBody, IoResult.value]

/-- An error that is not a retry ends the loop. -/
theorem recvBody_error {len total : BitVec w} {e : Errno}
    (he : (IoResult.error e).wouldBlock = false) :
    recvBody len total (.error e) = .returned false := by
  rw [recvBody, IoResult.value, if_pos (by decide), if_neg (by rw [he]; exact Bool.false_ne_true)]

/-- A positive count leaves the loop at the end of the buffer, or at its next
call with the counter advanced. -/
theorem recvBody_count_cases {len total : BitVec w} {k : ℕ} (hk : 0 < k)
    (hmax : k ≤ MAX_RW_COUNT) (hle : total.toNat + k ≤ len.toNat) :
    (total.toNat + k = len.toNat ∧ recvBody len total (.count k) = .returned true)
      ∨ ∃ next : BitVec w, next.toNat = total.toNat + k
        ∧ next.toNat < len.toNat ∧ recvBody len total (.count k) = .calling next := by
  have hint : k < 2 ^ 31 := lt_of_le_of_lt hmax (by decide)
  rw [recvBody_count hk hint]
  exact test_advance_cases hle

/-- The number of bytes taken from the stream over a list of calls. -/
def taken : List (Call IoResult) → ℕ
  | [] => 0
  | c :: cs => c.result.transferred + taken cs

/-- **The buffer after a list of calls**, each of which has stored the next
bytes of the stream at the address it was given. -/
def stored (buf stream : List β) : List (Call IoResult) → List β
  | [] => buf
  | c :: cs =>
    stored (overwrite buf c.offset (stream.take c.result.transferred))
      (stream.drop c.result.transferred) cs

/-- The answers are those of `recv` calls: no more bytes than asked for, and
no more than one call transfers. -/
def RecvAnswers (calls : List (Call IoResult)) : Prop :=
  ∀ c ∈ calls, c.result.Within (min c.length MAX_RW_COUNT)

instance (calls : List (Call IoResult)) : Decidable (RecvAnswers calls) :=
  inferInstanceAs (Decidable (∀ c ∈ calls, _))

/-- **The contract of a receiving loop** that returned `ok` after `calls`. -/
structure FillsOrFails (buf stream : List β) (calls : List (Call IoResult))
    (ok : Bool) : Prop where
  /-- No byte beyond those asked for is taken from the stream. -/
  fits : taken calls ≤ buf.length
  /-- The buffer keeps its length. -/
  length : (stored buf stream calls).length = buf.length
  /-- The buffer begins with the bytes taken, in order. -/
  filled : (stored buf stream calls).take (taken calls) = stream.take (taken calls)
  /-- The bytes behind them are as they were. -/
  unchanged : (stored buf stream calls).drop (taken calls) = buf.drop (taken calls)
  /-- The result is `true` exactly for the whole buffer. -/
  whole : ok = true ↔ taken calls = buf.length
  /-- Every call that would have blocked is made again. -/
  retry : EachThen Retries calls
  /-- Every error and every `0` ends the loop with `false`. -/
  stop : EachThen (Stops ok) calls

section Filling

variable {buf stream : List β} {len total : BitVec w} {rs : List IoResult} {ok : Bool}
variable {calls : List (Call IoResult)}

/-- **What the calls from a counter on have done**, once the loop has returned
`ok`: written the bytes they took there, end to end, and come to the end of the
buffer if `ok` is `true`. -/
structure FillsFrom (buf stream : List β) (counter : ℕ) (calls : List (Call IoResult))
    (ok : Bool) : Prop where
  /-- No byte beyond the buffer is taken. -/
  fits : counter + taken calls ≤ buf.length
  /-- The buffer has been written once, at the counter. -/
  written : stored buf stream calls = overwrite buf counter (stream.take (taken calls))
  /-- The result is `true` exactly at the end of the buffer. -/
  whole : ok = true ↔ counter + taken calls = buf.length
  /-- Retries are made again, and failures end the loop. -/
  each : EachThen (fun c after => Retries c after ∧ Stops ok c after) calls

namespace FillsFrom

variable {counter : ℕ} {c : Call IoResult}

/-- At the end of the buffer no call is made. -/
theorem atEnd (h : counter = buf.length) : FillsFrom buf stream counter [] true where
  fits := h.le
  written := (overwrite_nil buf counter).symm
  whole := iff_of_true rfl h
  each := trivial

/-- An answer that ends the loop with `false`, before the end of the buffer. -/
theorem failed (hlt : counter < buf.length) (hmoved : c.result.transferred = 0)
    (hblock : c.result.wouldBlock = false) : FillsFrom buf stream counter [c] false where
  fits := by simp only [taken, hmoved]; omega
  written := by simp [stored, taken, hmoved, overwrite_nil]
  whole := by simp only [taken, hmoved, Bool.false_eq_true, false_iff]; omega
  each := ⟨⟨fun hagain => absurd (hblock.symm.trans hagain) Bool.false_ne_true,
    fun _ => ⟨rfl, rfl⟩⟩, trivial⟩

/-- An answer that has the call made again. -/
theorem again (hmoved : c.result.transferred = 0) (hfatal : c.result.fatal = false)
    (hretries : Retries c calls) (h : FillsFrom buf stream counter calls ok) :
    FillsFrom buf stream counter (c :: calls) ok where
  fits := by simpa [taken, hmoved] using h.fits
  written := by simpa [stored, taken, hmoved, overwrite_nil] using h.written
  whole := by simpa [taken, hmoved] using h.whole
  each := ⟨⟨hretries, fun hstops => absurd (hfatal.symm.trans hstops) Bool.false_ne_true⟩, h.each⟩

/-- An answer that gives `k` bytes: they are written at the counter, and what
follows is behind them. -/
theorem count {k : ℕ} (hoffset : c.offset = counter) (hresult : c.result = .count k) (hk : 0 < k)
    (hle : counter + k ≤ buf.length) (hstream : k ≤ stream.length)
    (h : FillsFrom (overwrite buf counter (stream.take k)) (stream.drop k) (counter + k) calls ok) :
    FillsFrom buf stream counter (c :: calls) ok := by
  have hwrite : (stream.take k).length = k := by
    rw [List.length_take]
    omega
  have hsame : (overwrite buf counter (stream.take k)).length = buf.length :=
    length_overwrite (by omega)
  have htaken : taken (c :: calls) = k + taken calls := by
    rw [taken, hresult, IoResult.transferred]
  obtain ⟨hfits, hwritten, hwhole, heach⟩ := h
  rw [hsame] at hfits hwhole
  refine ⟨by omega, ?_, by rw [hwhole]; omega, ⟨?_, ?_⟩, heach⟩
  · have hjoin : overwrite (overwrite buf counter (stream.take k))
        (counter + (stream.take k).length) ((stream.drop k).take (taken calls))
          = overwrite buf counter (stream.take k ++ (stream.drop k).take (taken calls)) :=
      overwrite_overwrite (by omega)
    rw [hwrite, ← List.take_add] at hjoin
    rw [stored, hresult, IoResult.transferred, hoffset, hwritten, hjoin, htaken]
  · exact fun hblock => absurd hblock (by rw [hresult]; exact Bool.false_ne_true)
  · exact fun hfatal => absurd hfatal (by rw [hresult]; simp [IoResult.fatal]; omega)

end FillsFrom

/-- An answer that would block is made again, if the loop returns. -/
theorem retries_of_returned {c : Call IoResult} (hoffset : c.offset = total.toNat)
    (hlength : c.length = (len - total).toNat)
    (hret : (loop len (recvBody len) (.calling total) rs).returned = some ok) :
    Retries c (loop len (recvBody len) (.calling total) rs).calls := by
  intro _
  cases rs with
  | nil => simp at hret
  | cons r rs => exact ⟨_, _, rfl, hoffset.symm, hlength.symm⟩

/-- **A run of the loop** from a counter inside the buffer. -/
theorem recvLoop_fills (hlen : len.toNat = buf.length) (hlt : total.toNat < buf.length)
    (hanswers : RecvAnswers (loop len (recvBody len) (.calling total) rs).calls)
    (hstream : taken (loop len (recvBody len) (.calling total) rs).calls ≤ stream.length)
    (hret : (loop len (recvBody len) (.calling total) rs).returned = some ok) :
    FillsFrom buf stream total.toNat (loop len (recvBody len) (.calling total) rs).calls ok := by
  induction rs generalizing total buf stream with
  | nil => simp at hret
  | cons r rs ih =>
    rw [loop] at hanswers hstream hret ⊢
    cases r with
    | error e =>
      cases he : (IoResult.error e).wouldBlock with
      | true =>
        rw [recvBody_wouldBlock he (by omega)] at hanswers hstream hret ⊢
        have hgoes : (IoResult.error e).fatal = false := by
          cases e with
          | EAGAIN => rfl
          | EWOULDBLOCK => rfl
          | EBADF => cases he
          | other code => cases he
        rw [taken, IoResult.transferred, Nat.zero_add] at hstream
        exact .again rfl hgoes (retries_of_returned rfl rfl hret)
          (ih hlen hlt (fun c hc => hanswers c (List.mem_cons_of_mem _ hc)) hstream hret)
      | false =>
        rw [recvBody_error he, loop_returned] at hret ⊢
        obtain rfl : false = ok := by simpa using hret
        exact .failed hlt rfl he
    | count k =>
      have hk : k ≤ buf.length - total.toNat ∧ k ≤ MAX_RW_COUNT := by
        have := hanswers _ List.mem_cons_self
        rw [IoResult.Within, toNat_left (by omega), hlen] at this
        exact ⟨this.trans (min_le_left _ _), this.trans (min_le_right _ _)⟩
      rcases Nat.eq_zero_or_pos k with rfl | hpos
      · rw [recvBody_zero, loop_returned] at hret ⊢
        obtain rfl : false = ok := by simpa using hret
        exact .failed hlt rfl rfl
      · rw [taken, IoResult.transferred] at hstream
        have hsame : (overwrite buf total.toNat (stream.take k)).length = buf.length :=
          length_overwrite (by rw [List.length_take]; omega)
        have hle : total.toNat + k ≤ len.toNat := by omega
        refine .count rfl rfl hpos (by omega) (by omega) ?_
        rcases recvBody_count_cases hpos hk.2 hle with
          ⟨hend, hbody⟩ | ⟨next, hnext, hlt', hbody⟩
        · rw [hbody, loop_returned] at hret ⊢
          obtain rfl : true = ok := by simpa using hret
          exact .atEnd (by omega)
        · rw [hbody] at hanswers hstream hret ⊢
          rw [← hnext]
          exact ih (hlen.trans hsame.symm) (by omega)
            (fun c hc => hanswers c (List.mem_cons_of_mem _ hc))
            (by rw [List.length_drop]; omega) hret

end Filling

/-- **`recv_bytes` fills its buffer exactly or reports failure**, for every
length, every content of the buffer and every sequence of answers after which
it returns. -/
theorem recvBytes_fillsOrFails (b : Buffer w β) (stream : List β) {rs : List IoResult}
    {ok : Bool} (hanswers : RecvAnswers (recvBytes b.size rs).calls)
    (hstream : taken (recvBytes b.size rs).calls ≤ stream.length)
    (hret : (recvBytes b.size rs).returned = some ok) :
    FillsOrFails b.bytes stream (recvBytes b.size rs).calls ok := by
  have hlen : b.size.toNat = b.bytes.length := b.toNat_size
  have hzero : (0#w).toNat = 0 := by simp
  rw [recvBytes] at hanswers hstream hret ⊢
  rcases Nat.eq_zero_or_pos b.bytes.length with hnil | hpos
  · -- an empty buffer is full without a call
    rw [test_of_le (by omega), loop_returned] at hret ⊢
    obtain rfl : true = ok := by simpa using hret
    exact ⟨Nat.zero_le _, rfl, rfl, rfl, by simp [taken, hnil], trivial, trivial⟩
  · rw [test_of_lt (by omega)] at hanswers hstream hret ⊢
    obtain ⟨hfits, hwritten, hwhole, heach⟩ :=
      recvLoop_fills hlen (by omega) hanswers hstream hret
    generalize (loop b.size (recvBody b.size) (.calling 0#w) rs).calls = calls at *
    rw [hzero, Nat.zero_add] at hfits hwhole
    rw [hzero] at hwritten
    have hwrite : (stream.take (taken calls)).length = taken calls := by
      rw [List.length_take]
      omega
    have hinside : 0 + (stream.take (taken calls)).length ≤ b.bytes.length := by omega
    refine ⟨hfits, ?_, ?_, ?_, hwhole, heach.mono fun _ _ h => h.1,
      heach.mono fun _ _ h => h.2⟩
    · rw [hwritten, length_overwrite hinside]
    · have htake := take_overwrite hinside
      rw [hwrite, Nat.zero_add, List.take_zero, List.nil_append] at htake
      rw [hwritten, htake]
    · have hdrop : (overwrite b.bytes 0 (stream.take (taken calls))).drop
          (0 + (stream.take (taken calls)).length)
          = b.bytes.drop (0 + (stream.take (taken calls)).length) :=
        drop_overwrite (Nat.zero_le _)
      rw [hwrite, Nat.zero_add] at hdrop
      rw [hwritten, hdrop]

/-- Three bytes received in two pieces, with a retry between them. -/
theorem recvBytes_fillsOrFails_three :
    FillsOrFails [0, 0, 0] [7, 8, 9, 10]
      (recvBytes 3#64 [.count 2, .error .EAGAIN, .count 1]).calls true :=
  recvBytes_fillsOrFails (⟨[0, 0, 0], by decide⟩ : Buffer 64 ℕ) [7, 8, 9, 10]
    (by decide) (by decide) (by decide)

end IOHelper
