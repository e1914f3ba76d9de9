import NetUtils.HexDump

/-!
# What the hex traces show

`send_bytes` and `recv_bytes` trace each call that has transferred something,
and give `hexdump` the number of bytes it has transferred – but the start of
the buffer for their address, where the call itself was made at
`data + total`. The first call is at the start, and its trace is right. Every
later one shows the bytes the buffer begins with, as many as the call has
transferred.

So the traces of a transfer show what was transferred just when every chunk
of it repeats the start (`hexdumps_show_iff`), as the chunk of a transfer in
one piece does.
-/

open Transfer

variable {w : ℕ}

namespace IOHelper

/-- The bytes a call of `hexdump` is given. -/
def Dump.range (d : Dump w) : List UInt8 := d.buffer.take d.len.toNat

/-- The bytes several calls are given, one after another. -/
def dumped (ds : List (Dump w)) : List UInt8 := ds.flatMap Dump.range

/-- **Every chunk repeats the start**: reading the answers from the first, as
long as `left` bytes are left to transfer from the offset `off` on, each count
is of bytes equal to as many at the start of `bytes`. A `0` and an error that
is not a retry end the reading. -/
def repeatsStart (bytes : List UInt8) : ℕ → ℕ → List IoResult → Bool
  | _, 0, _ => true
  | _, _ + 1, [] => true
  | off, left + 1, .error e :: rs =>
    !(IoResult.error e).wouldBlock || repeatsStart bytes off (left + 1) rs
  | off, left + 1, .count k :: rs =>
    k == 0 || (decide (slice bytes off k = bytes.take k)
      && repeatsStart bytes (off + k) (left + 1 - k) rs)

theorem repeatsStart_zero (bytes : List UInt8) (off : ℕ) (rs : List IoResult) :
    repeatsStart bytes off 0 rs = true := by
  rw [repeatsStart]

theorem repeatsStart_nil (bytes : List UInt8) (off left : ℕ) :
    repeatsStart bytes off left [] = true := by
  cases left <;> rfl

theorem repeatsStart_count_zero (bytes : List UInt8) (off left : ℕ) (rs : List IoResult) :
    repeatsStart bytes off left (.count 0 :: rs) = true := by
  cases left <;> rfl

theorem repeatsStart_error (bytes : List UInt8) (off : ℕ) {left : ℕ} (e : Errno)
    (rs : List IoResult) (hleft : 0 < left) :
    repeatsStart bytes off left (.error e :: rs)
      = (!(IoResult.error e).wouldBlock || repeatsStart bytes off left rs) := by
  obtain ⟨m, rfl⟩ := Nat.exists_eq_add_of_lt hleft
  rw [Nat.zero_add, repeatsStart]

theorem repeatsStart_count (bytes : List UInt8) (off : ℕ) {left k : ℕ} (rs : List IoResult)
    (hleft : 0 < left) (hk : 0 < k) :
    repeatsStart bytes off left (.count k :: rs) = true
      ↔ slice bytes off k = bytes.take k
        ∧ repeatsStart bytes (off + k) (left - k) rs = true := by
  obtain ⟨m, rfl⟩ := Nat.exists_eq_add_of_lt hleft
  rw [Nat.zero_add, repeatsStart, show (k == 0) = false from by simp; omega, Bool.false_or,
    Bool.and_eq_true, decide_eq_true_iff]

/-- **A transfer in one piece repeats the start.** -/
theorem repeatsStart_whole (bytes : List UInt8) (left : ℕ) (rs : List IoResult) :
    repeatsStart bytes 0 left (.count left :: rs) = true := by
  rcases Nat.eq_zero_or_pos left with rfl | hleft
  · exact repeatsStart_zero bytes 0 _
  · rw [repeatsStart_count bytes 0 rs hleft hleft, slice_from_zero, Nat.sub_self]
    exact ⟨rfl, repeatsStart_zero bytes _ rs⟩

/-! ## The traces of the two loops -/

section Showing

variable {buf bytes stream : List UInt8} {len total : BitVec w} {rs : List IoResult}

/-- A chunk and its trace have one length, so that what follows them is
compared by itself. -/
theorem take_append_eq_slice_append_iff {off k : ℕ} {xs ys : List UInt8}
    (hle : off + k ≤ bytes.length) :
    bytes.take k ++ xs = slice bytes off k ++ ys
      ↔ slice bytes off k = bytes.take k ∧ xs = ys := by
  have hlen : (bytes.take k).length = (slice bytes off k).length := by
    rw [slice, List.length_take, List.length_take, List.length_drop]
    omega
  constructor
  · intro h
    obtain ⟨htake, hrest⟩ := List.append_inj h hlen
    exact ⟨htake.symm, hrest⟩
  · rintro ⟨htake, rfl⟩
    rw [htake]

/-- A count that fits an `int` is traced as it is. -/
theorem recvTraced_count {k : ℕ} (hk : 0 < k) (hint : k < 2 ^ 31) (hfits : k < 2 ^ w) :
    ∃ rb : BitVec w, recvTraced w (.count k) = some rb ∧ rb.toNat = k := by
  have hrb : (BitVec.ofNat 32 k).toInt = k := by
    rw [← BitVec.ofInt_natCast]
    exact BitVec.toInt_ofInt_eq_self (by decide) (by omega) (by omega)
  have hpos : ¬ (BitVec.ofNat 32 k).slt 0#32 = true := by
    rw [BitVec.slt_eq_decide, hrb]
    simp
  have hne : BitVec.ofNat 32 k ≠ 0#32 := by
    intro h
    rw [h] at hrb
    simp at hrb
    omega
  refine ⟨BitVec.ofNat w k, ?_, by rw [BitVec.toNat_ofNat, Nat.mod_eq_of_lt hfits]⟩
  simp only [recvTraced, IoResult.value, BitVec.ofInt_natCast, hrb]
  rw [if_neg hpos, if_neg hne]

theorem recvTraced_zero (w : ℕ) : recvTraced w (.count 0) = none := by
  simp [recvTraced, IoResult.value]

/-- A failed `recv` is not traced. -/
theorem recvTraced_error (w : ℕ) (e : Errno) : recvTraced w (.error e) = none := by
  simp [recvTraced, IoResult.value]

theorem dumped_cons (d : Dump w) (ds : List (Dump w)) :
    dumped (d :: ds) = d.buffer.take d.len.toNat ++ dumped ds :=
  List.flatMap_cons

/-- What a positive count adds to the traces of `send_bytes`, and to what the
kernel has accepted. -/
theorem sendShows_count_iff {off n k : ℕ} (hk : 0 < k) (hfits : k < 2 ^ w)
    (hle : off + k ≤ buf.length) (calls : List (Call IoResult)) :
    dumped (sendDumps w buf (⟨off, n, .count k⟩ :: calls))
        = accepted buf (⟨off, n, .count k⟩ :: calls)
      ↔ slice buf off k = buf.take k ∧ dumped (sendDumps w buf calls) = accepted buf calls := by
  obtain ⟨sb, hsb, hnat⟩ := sendTraced_count hk hfits
  have hdumps : dumped (sendDumps w buf (⟨off, n, .count k⟩ :: calls))
      = buf.take k ++ dumped (sendDumps w buf calls) := by
    rw [sendDumps, List.filterMap_cons, hsb, ← hnat]
    exact dumped_cons _ _
  rw [hdumps, accepted_cons]
  exact take_append_eq_slice_append_iff hle

/-- What a positive count adds to the traces of `recv_bytes`, and to what has
been received, where the buffer begins with what has come off the stream by
then. -/
theorem recvShows_count_iff {off n k : ℕ} (hk : 0 < k) (hint : k < 2 ^ 31) (hfits : k < 2 ^ w)
    (hstream : off + k ≤ stream.length)
    (hbegins : (overwrite buf off ((stream.drop off).take k)).take (off + k)
      = stream.take (off + k)) (calls : List (Call IoResult)) :
    dumped (recvDumps w buf (stream.drop off) (⟨off, n, .count k⟩ :: calls))
        = slice stream off (taken (⟨off, n, .count k⟩ :: calls))
      ↔ slice stream off k = stream.take k
        ∧ dumped (recvDumps w (overwrite buf off ((stream.drop off).take k))
            (stream.drop (off + k)) calls) = slice stream (off + k) (taken calls) := by
  obtain ⟨rb, hrb, hnat⟩ := recvTraced_count hk hint hfits
  have hshown : (overwrite buf off ((stream.drop off).take k)).take k = stream.take k := by
    have hfirst := congrArg (List.take k) hbegins
    rwa [List.take_take, List.take_take, Nat.min_eq_left (by omega)] at hfirst
  have hdumps : dumped (recvDumps w buf (stream.drop off) (⟨off, n, .count k⟩ :: calls))
      = stream.take k ++ dumped (recvDumps w (overwrite buf off ((stream.drop off).take k))
          (stream.drop (off + k)) calls) := by
    rw [recvDumps, hrb, ← List.drop_drop, ← hshown, ← hnat]
    exact dumped_cons _ _
  have hreceived : slice stream off (taken (⟨off, n, .count k⟩ :: calls))
      = slice stream off k ++ slice stream (off + k) (taken calls) :=
    (slice_append_slice stream off k (taken calls)).symm
  rw [hdumps, hreceived]
  exact take_append_eq_slice_append_iff hstream

/-- A call that gives nothing adds nothing to the traces of `recv_bytes`. -/
theorem recvDumps_cons_of_none {off n : ℕ} {r : IoResult} (hrb : recvTraced w r = none)
    (hmoved : r.transferred = 0) (calls : List (Call IoResult)) :
    recvDumps w buf stream (⟨off, n, r⟩ :: calls) = recvDumps w buf stream calls := by
  simp only [recvDumps, hrb, hmoved, List.take_zero, overwrite_nil, List.drop_zero,
    Option.map_none, Option.toList_none, List.nil_append]

/-- The buffer begins with what has come off the stream, one chunk later. -/
theorem take_overwrite_of_take {off k : ℕ} (hbuf : buf.take off = stream.take off)
    (hle : off + k ≤ buf.length) (hstream : off + k ≤ stream.length) :
    (overwrite buf off ((stream.drop off).take k)).take (off + k) = stream.take (off + k) := by
  have hwrite : ((stream.drop off).take k).length = k := by
    rw [List.length_take, List.length_drop]
    omega
  have htake := take_overwrite (by omega : off + ((stream.drop off).take k).length ≤ buf.length)
  rw [hwrite, hbuf] at htake
  rw [htake, List.take_add]

/-- **The traces of the sending loop**, from a counter inside the buffer. -/
theorem sendLoop_shows_iff (hlen : len.toNat = buf.length) (hlt : total.toNat < buf.length)
    (hfree : errorFree (buf.length - total.toNat) rs = true)
    (hwithin : ∀ c ∈ (loop len (sendBody len) (.calling total) rs).calls,
      c.result.Within c.length) :
    dumped (sendDumps w buf (loop len (sendBody len) (.calling total) rs).calls)
        = accepted buf (loop len (sendBody len) (.calling total) rs).calls
      ↔ repeatsStart buf total.toNat (buf.length - total.toNat) rs = true := by
  have hword := len.isLt
  induction rs generalizing total with
  | nil => exact iff_of_true rfl (repeatsStart_nil _ _ _)
  | cons r rs ih =>
    cases r with
    | error e => rw [errorFree_error e rs (by omega)] at hfree; cases hfree
    | count k =>
      rw [loop] at hwithin ⊢
      have hk : k ≤ buf.length - total.toNat := by
        have := hwithin _ List.mem_cons_self
        rw [toNat_left (by omega), hlen] at this
        exact this
      rcases Nat.eq_zero_or_pos k with rfl | hpos
      · rw [sendBody_zero, loop_returned]
        refine iff_of_true ?_ (repeatsStart_count_zero _ _ _ _)
        simp [dumped, sendDumps, sendTraced_zero, IoResult.transferred]
      · rw [sendShows_count_iff hpos (by omega) (by omega),
          repeatsStart_count buf _ rs (by omega) hpos]
        refine and_congr_right fun _ => ?_
        rcases sendBody_count_cases hpos (by omega : total.toNat + k ≤ len.toNat) with
          ⟨hend, hbody⟩ | ⟨next, hnext, hlt', hbody⟩
        · rw [hbody, loop_returned, show buf.length - total.toNat - k = 0 from by omega]
          exact iff_of_true rfl (repeatsStart_zero _ _ _)
        · rw [hbody] at hwithin ⊢
          rw [errorFree_count rs (by omega) hpos] at hfree
          rw [show buf.length - total.toNat - k = buf.length - next.toNat from by omega] at hfree ⊢
          rw [← hnext]
          exact ih (by omega) hfree (fun c hc => hwithin c (List.mem_cons_of_mem _ hc))

/-- **The traces of the receiving loop**, from a counter inside the buffer,
where the buffer begins with what has come off the stream so far. -/
theorem recvLoop_shows_iff (stream : List UInt8) (hlen : len.toNat = buf.length)
    (hlt : total.toNat < buf.length)
    (hbuf : buf.take total.toNat = stream.take total.toNat)
    (hanswers : RecvAnswers (loop len (recvBody len) (.calling total) rs).calls)
    (hstream : total.toNat + taken (loop len (recvBody len) (.calling total) rs).calls
      ≤ stream.length) :
    dumped (recvDumps w buf (stream.drop total.toNat)
        (loop len (recvBody len) (.calling total) rs).calls)
        = slice stream total.toNat (taken (loop len (recvBody len) (.calling total) rs).calls)
      ↔ repeatsStart stream total.toNat (buf.length - total.toNat) rs = true := by
  have hword := len.isLt
  induction rs generalizing total buf with
  | nil => exact iff_of_true rfl (repeatsStart_nil _ _ _)
  | cons r rs ih =>
    rw [loop] at hanswers hstream ⊢
    cases r with
    | error e =>
      rw [taken, IoResult.transferred, Nat.zero_add] at hstream
      rw [repeatsStart_error stream _ e rs (by omega),
        recvDumps_cons_of_none (recvTraced_error w e) rfl, taken, IoResult.transferred,
        Nat.zero_add]
      cases he : (IoResult.error e).wouldBlock with
      | true =>
        rw [recvBody_wouldBlock he (by omega)] at hanswers hstream ⊢
        exact ih hlen hlt hbuf (fun c hc => hanswers c (List.mem_cons_of_mem _ hc)) hstream
      | false =>
        rw [recvBody_error he, loop_returned]
        exact iff_of_true rfl rfl
    | count k =>
      have hk : k ≤ buf.length - total.toNat ∧ k ≤ MAX_RW_COUNT := by
        have := hanswers _ List.mem_cons_self
        rw [IoResult.Within, toNat_left (by omega), hlen] at this
        exact ⟨this.trans (min_le_left _ _), this.trans (min_le_right _ _)⟩
      rcases Nat.eq_zero_or_pos k with rfl | hpos
      · rw [recvBody_zero, loop_returned, recvDumps_cons_of_none (recvTraced_zero w) rfl]
        exact iff_of_true rfl (repeatsStart_count_zero _ _ _ _)
      · rw [taken, IoResult.transferred] at hstream
        have hint : k < 2 ^ 31 := lt_of_le_of_lt hk.2 (by decide)
        have hbegins := take_overwrite_of_take hbuf (by omega : total.toNat + k ≤ buf.length)
          (by omega)
        have hsame : (overwrite buf total.toNat ((stream.drop total.toNat).take k)).length
            = buf.length :=
          length_overwrite (by rw [List.length_take]; omega)
        rw [recvShows_count_iff hpos hint (by omega) (by omega) hbegins,
          repeatsStart_count stream _ rs (by omega) hpos]
        refine and_congr_right fun _ => ?_
        rcases recvBody_count_cases hpos hk.2 (by omega : total.toNat + k ≤ len.toNat) with
          ⟨hend, hbody⟩ | ⟨next, hnext, hlt', hbody⟩
        · rw [hbody, loop_returned, show buf.length - total.toNat - k = 0 from by omega]
          exact iff_of_true rfl (repeatsStart_zero _ _ _)
        · rw [hbody] at hanswers hstream ⊢
          rw [show buf.length - total.toNat - k = buf.length - next.toNat from by omega,
            ← hsame, ← hnext]
          rw [← hnext] at hbegins
          exact ih (hlen.trans hsame.symm) (by omega) hbegins
            (fun c hc => hanswers c (List.mem_cons_of_mem _ hc)) (by omega)

end Showing

/-- **The hex traces show what was transferred, exactly where every chunk
repeats the start**: each chunk that `send` takes is equal to as many bytes at
the start of the buffer, and each that `recv` gives to as many at the start of
the stream. -/
theorem hexdumps_show_iff (b : Buffer w UInt8) {rs : List IoResult}
    (hfree : errorFree b.bytes.length rs = true)
    (hsend : ∀ c ∈ (sendBytes b.size rs).calls, c.result.Within c.length)
    (b' : Buffer w UInt8) (stream : List UInt8) {rs' : List IoResult}
    (hrecv : RecvAnswers (recvBytes b'.size rs').calls)
    (hstream : taken (recvBytes b'.size rs').calls ≤ stream.length) :
    (dumped (sendDumps w b.bytes (sendBytes b.size rs).calls)
        = accepted b.bytes (sendBytes b.size rs).calls
      ∧ dumped (recvDumps w b'.bytes stream (recvBytes b'.size rs').calls)
        = stream.take (taken (recvBytes b'.size rs').calls))
      ↔ repeatsStart b.bytes 0 b.bytes.length rs = true
        ∧ repeatsStart stream 0 b'.bytes.length rs' = true := by
  have hlen : b.size.toNat = b.bytes.length := b.toNat_size
  have hlen' : b'.size.toNat = b'.bytes.length := b'.toNat_size
  have hzero : (0#w).toNat = 0 := by simp
  refine and_congr ?_ ?_
  · rw [sendBytes] at hsend ⊢
    rcases Nat.eq_zero_or_pos b.bytes.length with hnil | hpos
    · rw [test_of_le (by omega), loop_returned, hnil]
      exact iff_of_true rfl (repeatsStart_zero _ _ _)
    · rw [test_of_lt (by omega)] at hsend ⊢
      have hloop := sendLoop_shows_iff hlen (by omega) (by rwa [hzero]) hsend
      rwa [hzero] at hloop
  · rw [recvBytes] at hrecv hstream ⊢
    rcases Nat.eq_zero_or_pos b'.bytes.length with hnil | hpos
    · rw [test_of_le (by omega), loop_returned, hnil]
      exact iff_of_true rfl (repeatsStart_zero _ _ _)
    · rw [test_of_lt (by omega)] at hrecv hstream ⊢
      have hloop := recvLoop_shows_iff stream hlen' (by omega) (by rw [hzero]; rfl) hrecv
        (by omega)
      rwa [hzero, List.drop_zero, slice_from_zero, Nat.sub_zero] at hloop

/-- Two equal bytes sent one by one, and three bytes received in one piece
after a retry. -/
theorem hexdumps_show_iff_equalBytes :
    (dumped (sendDumps 64 [5, 5] (sendBytes 2#64 [.count 1, .count 1]).calls)
        = accepted [5, 5] (sendBytes 2#64 [.count 1, .count 1]).calls
      ∧ dumped (recvDumps 64 [0, 0, 0] [7, 8, 9]
          (recvBytes 3#64 [.error .EAGAIN, .count 3]).calls)
        = [7, 8, 9].take (taken (recvBytes 3#64 [.error .EAGAIN, .count 3]).calls))
      ↔ repeatsStart [5, 5] 0 2 [.count 1, .count 1] = true
        ∧ repeatsStart [7, 8, 9] 0 3 [.error .EAGAIN, .count 3] = true :=
  hexdumps_show_iff (⟨[5, 5], by decide⟩ : Buffer 64 UInt8) (by decide) (by decide)
    (⟨[0, 0, 0], by decide⟩ : Buffer 64 UInt8) [7, 8, 9] (by decide) (by decide)

/-- **The second chunk is traced as the first.** Of the bytes 1, 2, 3, sent in
two pieces, the traces show 1, 2, 1; of 7, 8, 9, received in two, they show
7, 7, 8. -/
theorem second_chunk_traced_as_first :
    errorFree 3 [.count 2, .count 1] = true
      ∧ (∀ c ∈ (sendBytes 3#64 [.count 2, .count 1]).calls, c.result.Within c.length)
      ∧ dumped (sendDumps 64 [1, 2, 3] (sendBytes 3#64 [.count 2, .count 1]).calls) = [1, 2, 1]
      ∧ dumped (sendDumps 64 [1, 2, 3] (sendBytes 3#64 [.count 2, .count 1]).calls)
        ≠ accepted [1, 2, 3] (sendBytes 3#64 [.count 2, .count 1]).calls
      ∧ RecvAnswers (recvBytes 3#64 [.count 1, .error .EAGAIN, .count 2]).calls
      ∧ dumped (recvDumps 64 [0, 0, 0] [7, 8, 9]
          (recvBytes 3#64 [.count 1, .error .EAGAIN, .count 2]).calls) = [7, 7, 8]
      ∧ dumped (recvDumps 64 [0, 0, 0] [7, 8, 9]
          (recvBytes 3#64 [.count 1, .error .EAGAIN, .count 2]).calls)
        ≠ [7, 8, 9].take (taken (recvBytes 3#64 [.count 1, .error .EAGAIN, .count 2]).calls) :=
  ⟨by decide, by decide, by decide, by decide, by decide, by decide, by decide⟩

end IOHelper
