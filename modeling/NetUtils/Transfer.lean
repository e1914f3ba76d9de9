import Mathlib.Algebra.Order.Ring.Nat
import Mathlib.Data.List.Infix
import Mathlib.Data.List.TakeDrop

/-!
# Loops that transfer a buffer in several calls

A loop that moves `len` bytes with a call that may move fewer keeps one
counter, the number of bytes moved so far, and repeats
`while (total < len) { … call(data + total, len - total) … total += n; }`.
What differs between two such loops is their *body*: what they do with the
answer of the call. This module is the part they share – where the loop
stands (`Transfer.Phase`), the test at its head, the calls it makes over a
sequence of answers (`Transfer.loop`), and the arithmetic of its counter.

The counter is a machine word of `w` bits and wraps. Nothing here assumes it
does not: `toNat_advance` and `toNat_left` say when the word arithmetic is
the arithmetic of the natural numbers, and the two loops that use this module
have to establish it.
-/

namespace Transfer

variable {w : ℕ} {β ρ : Type}

/-- **Where a transfer loop stands**: about to make a call with `total` bytes
already moved, or returned. -/
inductive Phase (w : ℕ) where
  /-- In the body, at the call, `total` bytes moved so far. -/
  | calling (total : BitVec w)
  /-- Returned `ok` to the caller. -/
  | returned (ok : Bool)
  deriving DecidableEq, Repr

/-- One call of the loop: the offset and the length it was given, and its
answer. -/
structure Call (ρ : Type) where
  /-- The offset into the buffer of the address passed. -/
  offset : ℕ
  /-- The number of bytes asked for. -/
  length : ℕ
  /-- What the call answered. -/
  result : ρ
  deriving DecidableEq, Repr

/-- What a loop did over a sequence of answers: the calls it made, and its
return value if it returned. -/
structure Outcome (ρ : Type) where
  /-- The calls, in order. -/
  calls : List (Call ρ)
  /-- The value returned, or `none` where the loop is still at a call. -/
  returned : Option Bool
  deriving DecidableEq, Repr

/-- The test at the head of the loop, `while (total < len)`, and the
`return true` behind it. -/
def test (len total : BitVec w) : Phase w :=
  if total < len then .calling total else .returned true

/-- **The loop over a sequence of answers.** It stops where it returns or
where the answers run out. -/
def loop (len : BitVec w) (body : BitVec w → ρ → Phase w) :
    Phase w → List ρ → Outcome ρ
  | .returned ok, _ => ⟨[], some ok⟩
  | .calling _, [] => ⟨[], none⟩
  | .calling total, r :: rs =>
    let rest := loop len body (body total r) rs
    ⟨⟨total.toNat, (len - total).toNat, r⟩ :: rest.calls, rest.returned⟩

@[simp] theorem loop_returned (len : BitVec w) (body : BitVec w → ρ → Phase w)
    (ok : Bool) (rs : List ρ) :
    loop len body (.returned ok) rs = ⟨[], some ok⟩ := by
  cases rs <;> rfl

@[simp] theorem loop_nil (len total : BitVec w) (body : BitVec w → ρ → Phase w) :
    loop len body (.calling total) [] = ⟨[], none⟩ := rfl

/-- What the loop has returned, standing there. -/
def Phase.answer : Phase w → Option Bool
  | .calling _ => none
  | .returned ok => some ok

/-- Where the loop stands after some answers. -/
def after (body : BitVec w → ρ → Phase w) : Phase w → List ρ → Phase w
  | .returned ok, _ => .returned ok
  | .calling total, [] => .calling total
  | .calling total, r :: rs => after body (body total r) rs

@[simp] theorem after_nil (body : BitVec w → ρ → Phase w) (phase : Phase w) :
    after body phase [] = phase := by
  cases phase <;> rfl

/-- What a loop returns is read off from where it stands. -/
theorem returned_loop (len : BitVec w) (body : BitVec w → ρ → Phase w) (phase : Phase w)
    (rs : List ρ) : (loop len body phase rs).returned = (after body phase rs).answer := by
  induction rs generalizing phase with
  | nil => cases phase <;> rfl
  | cons r rs ih =>
    cases phase with
    | returned ok => rfl
    | calling total => exact ih (body total r)

/-- **One answer more**, for a loop that is at a call. -/
theorem loop_snoc {len total : BitVec w} {body : BitVec w → ρ → Phase w} {phase : Phase w}
    {rs : List ρ} (h : after body phase rs = .calling total) (r : ρ) :
    after body phase (rs ++ [r]) = body total r
      ∧ (loop len body phase (rs ++ [r])).calls
        = (loop len body phase rs).calls ++ [⟨total.toNat, (len - total).toNat, r⟩] := by
  induction rs generalizing phase with
  | nil =>
    rw [after_nil] at h
    subst h
    have hnone : (loop len body (body total r) []).calls = [] := by
      cases body total r <;> rfl
    exact ⟨after_nil body _, congrArg (_ :: ·) hnone⟩
  | cons r' rs ih =>
    cases phase with
    | returned ok => cases h
    | calling total' =>
      have hrest : after body (body total' r') rs = .calling total := h
      obtain ⟨hafter, hcalls⟩ := ih hrest
      exact ⟨hafter, congrArg (_ :: ·) hcalls⟩

/-- **A property of each call and of the calls made after it.** -/
def EachThen (P : Call ρ → List (Call ρ) → Prop) : List (Call ρ) → Prop
  | [] => True
  | c :: cs => P c cs ∧ EachThen P cs

@[simp] theorem eachThen_nil (P : Call ρ → List (Call ρ) → Prop) :
    EachThen P [] := trivial

@[simp] theorem eachThen_cons (P : Call ρ → List (Call ρ) → Prop) (c : Call ρ)
    (cs : List (Call ρ)) : EachThen P (c :: cs) ↔ P c cs ∧ EachThen P cs := Iff.rfl

theorem EachThen.mono {P Q : Call ρ → List (Call ρ) → Prop}
    (h : ∀ c cs, P c cs → Q c cs) {cs : List (Call ρ)} (hP : EachThen P cs) :
    EachThen Q cs := by
  induction cs with
  | nil => exact hP
  | cons c cs ih => exact ⟨h c cs hP.1, ih hP.2⟩

/-! ## The arithmetic of the counter -/

theorem test_of_lt {len total : BitVec w} (h : total.toNat < len.toNat) :
    test len total = .calling total :=
  if_pos (BitVec.lt_def.mpr h)

theorem test_of_le {len total : BitVec w} (h : len.toNat ≤ total.toNat) :
    test len total = .returned true :=
  if_neg (fun hlt => absurd (BitVec.lt_def.mp hlt) (by omega))

/-- What is left to move, while the counter has not passed the length. -/
theorem toNat_left {len total : BitVec w} (h : total.toNat ≤ len.toNat) :
    (len - total).toNat = len.toNat - total.toNat := by
  have hlen := len.isLt
  rw [BitVec.toNat_sub, show 2 ^ w - total.toNat + len.toNat
    = (len.toNat - total.toNat) + 2 ^ w from by omega, Nat.add_mod_right,
    Nat.mod_eq_of_lt (by omega)]

/-- Advancing the counter by no more than what is left does not wrap. -/
theorem toNat_advance {len total : BitVec w} {n : ℕ}
    (h : total.toNat + n ≤ len.toNat) :
    (total + BitVec.ofNat w n).toNat = total.toNat + n := by
  have hlen := len.isLt
  rw [BitVec.toNat_add, BitVec.toNat_ofNat, Nat.add_mod_mod,
    Nat.mod_eq_of_lt (by omega)]

/-- Advancing the counter by no more than what is left leaves the loop at the
end of the buffer, or at its next call with the counter advanced. -/
theorem test_advance_cases {len total : BitVec w} {n : ℕ}
    (h : total.toNat + n ≤ len.toNat) :
    (total.toNat + n = len.toNat ∧ test len (total + BitVec.ofNat w n) = .returned true)
      ∨ ∃ next : BitVec w, next.toNat = total.toNat + n ∧ next.toNat < len.toNat
        ∧ test len (total + BitVec.ofNat w n) = .calling next := by
  have hnext := toNat_advance h
  rcases Nat.lt_or_ge (total.toNat + n) len.toNat with hlt | hge
  · exact .inr ⟨_, hnext, by omega, test_of_lt (by omega)⟩
  · exact .inl ⟨by omega, test_of_le (by omega)⟩

/-- **Every call is for what is left from an offset inside the buffer**, if the
body leaves the loop at a call only with such a counter. -/
theorem offset_of_mem_calls {len total : BitVec w} {body : BitVec w → ρ → Phase w}
    (hbody : ∀ total r next, body total r = .calling next → next.toNat < len.toNat)
    (hlt : total.toNat < len.toNat) {rs : List ρ} {c : Call ρ}
    (hc : c ∈ (loop len body (.calling total) rs).calls) :
    c.offset < len.toNat ∧ c.length = len.toNat - c.offset := by
  induction rs generalizing total with
  | nil => cases hc
  | cons r rs ih =>
    rw [loop] at hc
    rcases List.mem_cons.mp hc with rfl | hc
    · exact ⟨hlt, toNat_left hlt.le⟩
    · cases hnext : body total r with
      | returned ok => rw [hnext, loop_returned] at hc; cases hc
      | calling next => rw [hnext] at hc; exact ih (hbody total r next hnext) hc

/-- The test at the head of the loop leads to a call only inside the buffer. -/
theorem lt_of_test {len total next : BitVec w} (h : test len total = .calling next) :
    next.toNat < len.toNat := by
  unfold test at h
  split at h
  · cases h; exact BitVec.lt_def.mp ‹_›
  · cases h

/-! ## Slices of the buffer -/

/-- The `n` bytes of a buffer from an offset on. -/
def slice (buf : List β) (off n : ℕ) : List β := (buf.drop off).take n

@[simp] theorem slice_zero (buf : List β) (off : ℕ) : slice buf off 0 = [] :=
  List.take_zero

/-- **Neighbouring slices join.** -/
theorem slice_append_slice (buf : List β) (off m n : ℕ) :
    slice buf off m ++ slice buf (off + m) n = slice buf off (m + n) := by
  rw [slice, slice, slice, List.take_add, List.drop_drop]

theorem slice_from_zero (buf : List β) (n : ℕ) : slice buf 0 n = buf.take n := by
  rw [slice, List.drop_zero]

/-- A buffer with `bytes` written at an offset. -/
def overwrite (buf : List β) (off : ℕ) (bytes : List β) : List β :=
  buf.take off ++ bytes ++ buf.drop (off + bytes.length)

theorem length_overwrite {buf : List β} {off : ℕ} {bytes : List β}
    (h : off + bytes.length ≤ buf.length) :
    (overwrite buf off bytes).length = buf.length := by
  simp only [overwrite, List.length_append, List.length_take, List.length_drop]
  omega

/-- What a write leaves up to its end: the bytes before it, and its own. -/
theorem take_overwrite {buf : List β} {off : ℕ} {bytes : List β}
    (h : off + bytes.length ≤ buf.length) :
    (overwrite buf off bytes).take (off + bytes.length) = buf.take off ++ bytes := by
  have hlen : (buf.take off ++ bytes).length = off + bytes.length := by
    rw [List.length_append, List.length_take]
    omega
  rw [overwrite, ← hlen, List.take_left]

/-- Nothing beyond its end is touched by a write. -/
theorem drop_overwrite {buf : List β} {off : ℕ} {bytes : List β} (h : off ≤ buf.length) :
    (overwrite buf off bytes).drop (off + bytes.length) = buf.drop (off + bytes.length) := by
  have hlen : (buf.take off ++ bytes).length = off + bytes.length := by
    rw [List.length_append, List.length_take]
    omega
  rw [overwrite, ← hlen, List.drop_left]

/-- A write of nothing. -/
theorem overwrite_nil (buf : List β) (off : ℕ) : overwrite buf off [] = buf := by
  rw [overwrite, List.append_nil, List.length_nil, Nat.add_zero, List.take_append_drop]

/-- **A write at the end of another** is one write with it. -/
theorem overwrite_overwrite {buf : List β} {off : ℕ} {xs ys : List β}
    (h : off + xs.length ≤ buf.length) :
    overwrite (overwrite buf off xs) (off + xs.length) ys = overwrite buf off (xs ++ ys) := by
  have hdrop : (overwrite buf off xs).drop (off + xs.length + ys.length)
      = buf.drop (off + (xs ++ ys).length) := by
    rw [← List.drop_drop, drop_overwrite (by omega), List.drop_drop, List.length_append,
      Nat.add_assoc]
  rw [overwrite, take_overwrite h, hdrop, overwrite, List.append_assoc (buf.take off)]

/-! ## Buffers of a size the counter can hold -/

/-- **A buffer whose size fits the counter.** -/
structure Buffer (w : ℕ) (β : Type) where
  /-- The bytes. -/
  bytes : List β
  /-- Their number is a word. -/
  fits : bytes.length < 2 ^ w
  deriving DecidableEq

namespace Buffer

/-- The size, as the word passed to the loop. -/
def size (b : Buffer w β) : BitVec w := BitVec.ofNat w b.bytes.length

/-- The bytes as a buffer, where their number is a word. -/
def ofBytes (bytes : List β) : Option (Buffer w β) :=
  if h : bytes.length < 2 ^ w then some ⟨bytes, h⟩ else none

theorem bytes_of_ofBytes {bytes : List β} {b : Buffer w β} (h : ofBytes bytes = some b) :
    b.bytes = bytes := by
  unfold ofBytes at h
  split at h
  · cases h; rfl
  · cases h

@[simp] theorem toNat_size (b : Buffer w β) : b.size.toNat = b.bytes.length := by
  rw [size, BitVec.toNat_ofNat, Nat.mod_eq_of_lt b.fits]

end Buffer

end Transfer
