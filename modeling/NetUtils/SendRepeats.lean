import NetUtils.IOHelper

/-!
# What a failed `send` repeats

`NetUtils.IOHelper` says when `send_bytes` keeps its contract: as long as no `-1` is
answered. This module says what it does instead. A failed `send` takes the counter back
by one byte, and the loop goes on, so the byte before the failed call is offered once
more. The counter is then the number of bytes accepted less the number of failures, and
what has been accepted is the buffer up to the counter with one byte more for each of
them (`Repeats`).

There is one way out of this: a failure with the counter at `0` ends the loop, with
`true`. So `send_bytes` answers `true` in two cases, which its caller cannot tell apart.
Either the whole buffer has been accepted, in order, but with one byte more for each
failure; or the loop has walked back to the start (`sendBytes_repeats`). It answers
`false` only for a `0`.
-/

namespace IOHelper

open Transfer

variable {w : ℕ} {β : Type}

/-- The call has failed: `send` has answered `-1`. -/
def failed (c : Call IoResult) : Bool :=
  match c.result with
  | .error _ => true
  | .count _ => false

/-- The failures among some calls. -/
def failures (calls : List (Call IoResult)) : ℕ := calls.countP failed

/-- **The buffer has been accepted up to `offset`, with repetitions**: every byte of it,
in order, and one byte more for each failure. -/
structure Repeats (buf : List β) (calls : List (Call IoResult)) (offset : ℕ) : Prop where
  /-- The counter is what has been accepted less the failures. -/
  count : offset + failures calls = (accepted buf calls).length
  /-- No byte before it is missing, and none is out of order. -/
  inOrder : (buf.take offset).Sublist (accepted buf calls)

/-- The loop has walked back to the start of the buffer and been left there. -/
def WalksBack (calls : List (Call IoResult)) : Prop :=
  ∃ c, calls.getLast? = some c ∧ c.offset = 0 ∧ failed c = true

section Walk

variable {buf : List β} {len total : BitVec w} {rs : List IoResult}
variable {before : List (Call IoResult)}

theorem failures_append (calls calls' : List (Call IoResult)) :
    failures (calls ++ calls') = failures calls + failures calls' := List.countP_append

theorem accepted_append (buf : List β) (calls calls' : List (Call IoResult)) :
    accepted buf (calls ++ calls') = accepted buf calls ++ accepted buf calls' :=
  List.flatMap_append

theorem Repeats.start (buf : List β) : Repeats buf [] 0 where
  count := rfl
  inOrder := List.Sublist.slnil

/-- **Some bytes are accepted**, from the counter on. -/
theorem Repeats.count_step {offset n m : ℕ} (hi : Repeats buf before offset)
    (hle : offset + n ≤ buf.length) : Repeats buf (before ++ [⟨offset, m, .count n⟩]) (offset + n)
    where
  count := by
    have hslice : (slice buf offset n).length = n := by
      rw [slice, List.length_take, List.length_drop]
      omega
    rw [failures_append, accepted_append, List.length_append, ← hi.count]
    simp [failures, failed, IoResult.transferred, hslice]
    omega
  inOrder := by
    rw [accepted_append, List.take_add]
    refine hi.inOrder.append ?_
    simp [IoResult.transferred, slice]

/-- **A `send` fails**, and the counter is taken back by one byte. -/
theorem Repeats.failed_step {offset m : ℕ} {e : Errno} (hi : Repeats buf before (offset + 1)) :
    Repeats buf (before ++ [⟨offset + 1, m, .error e⟩]) offset where
  count := by
    rw [failures_append, accepted_append, List.length_append, ← hi.count]
    simp [failures, failed, IoResult.transferred]
    omega
  inOrder := by
    rw [accepted_append]
    have hback : (buf.take offset).Sublist (buf.take (offset + 1)) :=
      (List.take_prefix_take_left (Nat.le_succ offset)).sublist
    exact (hback.trans hi.inOrder).trans (List.sublist_append_left _ _)

/-- What holds of the calls a loop makes after the calls `before`, and of its answer. -/
structure Walked (buf : List β) (before : List (Call IoResult)) (outcome : Outcome IoResult) :
    Prop where
  /-- At every call. -/
  atCall : ∀ calls c after, outcome.calls = calls ++ c :: after →
    Repeats buf (before ++ calls) c.offset
  /-- Where it answers `true`. -/
  ofTrue : outcome.returned = some true →
    Repeats buf (before ++ outcome.calls) buf.length ∨ WalksBack outcome.calls
  /-- Where it answers `false`. -/
  ofFalse : outcome.returned = some false →
    ∃ c, outcome.calls.getLast? = some c ∧ c.result = .count 0

/-- The loop is still at a call. -/
theorem Walked.nil (buf : List β) (before : List (Call IoResult)) :
    Walked buf before ⟨[], none⟩ where
  atCall := fun calls _ _ hcalls => by cases calls <;> cases hcalls
  ofTrue := by rintro ⟨⟩
  ofFalse := by rintro ⟨⟩

/-- **One call, and what the loop does after it.** -/
theorem Walked.cons {c : Call IoResult} {rest : Outcome IoResult}
    (hi : Repeats buf before c.offset) (hrest : Walked buf (before ++ [c]) rest) :
    Walked buf before ⟨c :: rest.calls, rest.returned⟩ where
  atCall := fun calls c' after hcalls => by
    cases calls with
    | nil =>
      obtain ⟨rfl, -⟩ := List.cons.inj hcalls
      rw [List.append_nil]
      exact hi
    | cons d calls =>
      obtain ⟨rfl, hrests⟩ := List.cons.inj hcalls
      rw [List.append_cons]
      exact hrest.atCall calls c' after hrests
  ofTrue := fun htrue => by
    refine (hrest.ofTrue htrue).imp (fun hall => ?_) fun ⟨c', hlast, hback⟩ => ?_
    · rw [List.append_cons]
      exact hall
    · exact ⟨c', by rw [List.getLast?_cons, hlast, Option.getD_some], hback⟩
  ofFalse := fun hfalse => by
    obtain ⟨c', hlast, hzero⟩ := hrest.ofFalse hfalse
    exact ⟨c', by rw [List.getLast?_cons, hlast, Option.getD_some], hzero⟩

/-- A call that is the last one. -/
theorem Walked.last {c : Call IoResult} {ok : Bool} (hi : Repeats buf before c.offset)
    (htrue : ok = true → Repeats buf (before ++ [c]) buf.length ∨ WalksBack [c])
    (hfalse : ok = false → c.result = .count 0) : Walked buf before ⟨[c], some ok⟩ where
  atCall := fun calls c' after hcalls => by
    cases calls with
    | nil =>
      obtain ⟨rfl, -⟩ := List.cons.inj hcalls
      rw [List.append_nil]
      exact hi
    | cons d calls =>
      obtain ⟨-, hnil⟩ := List.cons.inj hcalls
      cases calls <;> cases hnil
  ofTrue := fun heq => htrue (Option.some.inj heq)
  ofFalse := fun heq => ⟨c, rfl, hfalse (Option.some.inj heq)⟩

/-- **The loop from a counter inside the buffer.** The induction is on the answers. -/
theorem sendLoop_walked (hlen : len.toNat = buf.length) (hlt : total.toNat < buf.length)
    (hi : Repeats buf before total.toNat)
    (hwithin : ∀ c ∈ (loop len (sendBody len) (.calling total) rs).calls,
      c.result.Within c.length) :
    Walked buf before (loop len (sendBody len) (.calling total) rs) := by
  induction rs generalizing total before with
  | nil => exact .nil buf before
  | cons r rs ih =>
    rw [loop] at hwithin ⊢
    have hlt₀ : total.toNat < len.toNat := by omega
    cases r with
    | error e =>
      rcases Nat.eq_zero_or_pos total.toNat with hzero | hpos
      · -- at the start: the loop is left
        rw [sendBody_error_start e hlt₀ hzero, loop_returned]
        exact .last hi (fun _ => .inr ⟨_, rfl, hzero, rfl⟩) (by rintro ⟨⟩)
      · obtain ⟨back, hback, hbody⟩ := sendBody_error_later e hlt₀ hpos
        rw [hbody] at hwithin ⊢
        refine .cons hi (ih (by omega) ?_ fun c hc => hwithin c (List.mem_cons_of_mem _ hc))
        rw [← hback] at hi ⊢
        exact hi.failed_step
    | count k =>
      have hk : total.toNat + k ≤ len.toNat := by
        have hle : k ≤ (len - total).toNat := hwithin _ List.mem_cons_self
        rw [toNat_left hlt₀.le] at hle
        omega
      rcases Nat.eq_zero_or_pos k with rfl | hpos
      · rw [sendBody_zero, loop_returned]
        exact .last hi (by rintro ⟨⟩) fun _ => rfl
      · rcases sendBody_count_cases hpos hk with ⟨hend, hbody⟩ | ⟨next, hnext, hlt', hbody⟩
        · rw [hbody, loop_returned]
          refine .last hi (fun _ => .inl ?_) (by rintro ⟨⟩)
          rw [← hlen, ← hend]
          exact hi.count_step (by omega)
        · rw [hbody] at hwithin ⊢
          refine .cons hi (ih (by omega) ?_ fun c hc => hwithin c (List.mem_cons_of_mem _ hc))
          rw [hnext]
          exact hi.count_step (by omega)

end Walk

/-- The loop from the start of the buffer. -/
theorem sendBytes_walked (b : Buffer w β) {rs : List IoResult}
    (hwithin : ∀ c ∈ (sendBytes b.size rs).calls, c.result.Within c.length) :
    Walked b.bytes [] (sendBytes b.size rs) := by
  rw [sendBytes] at hwithin ⊢
  rcases Nat.eq_zero_or_pos b.bytes.length with hnil | hpos
  · rw [test_of_le (by simp [hnil]), loop_returned]
    exact
      { atCall := fun calls _ _ hcalls => by cases calls <;> cases hcalls
        ofTrue := fun _ => .inl (hnil ▸ .start b.bytes)
        ofFalse := by rintro ⟨⟩ }
  · have hzero : (0#w).toNat = 0 := by simp
    rw [test_of_lt (by simpa using hpos)] at hwithin ⊢
    exact sendLoop_walked b.toNat_size (by omega) (hzero ▸ .start b.bytes) hwithin

/-- **What `send_bytes` has done**, for every buffer and all answers, `-1` among them. At
each call the bytes before its offset have been accepted, with one byte more for each
failure so far. Answering `true`, it has delivered the buffer in this way, or has walked
back to its start; and it answers `false` for a `0` alone. -/
theorem sendBytes_repeats (b : Buffer w β) {rs : List IoResult}
    (hwithin : ∀ c ∈ (sendBytes b.size rs).calls, c.result.Within c.length) :
    (∀ calls c after, (sendBytes b.size rs).calls = calls ++ c :: after →
        Repeats b.bytes calls c.offset)
      ∧ ((sendBytes b.size rs).returned = some true →
        Repeats b.bytes (sendBytes b.size rs).calls b.bytes.length
          ∨ WalksBack (sendBytes b.size rs).calls)
      ∧ ((sendBytes b.size rs).returned = some false →
        ∃ c, (sendBytes b.size rs).calls.getLast? = some c ∧ c.result = .count 0) := by
  have hwalked := sendBytes_walked b hwithin
  exact ⟨hwalked.atCall, hwalked.ofTrue, hwalked.ofFalse⟩

/-- Two bytes of three are accepted, a `send` would block, and the loop goes on from the
second. The kernel has been given four bytes. -/
theorem sendBytes_repeats_second :
    let calls := (sendBytes 3#64 [.count 2, .error .EAGAIN, .count 2]).calls
    accepted [1, 2, 3] calls = [1, 2, 2, 3]
      ∧ (Repeats [1, 2, 3] calls 3 ∨ WalksBack calls) :=
  ⟨by decide, (sendBytes_repeats (⟨[1, 2, 3], by decide⟩ : Buffer 64 ℕ) (by decide)).2.1
    (by decide)⟩

end IOHelper
