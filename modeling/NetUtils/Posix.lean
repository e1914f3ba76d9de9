import Mathlib.Data.Int.Notation
import Mathlib.Data.Nat.Notation

/-!
# What the system calls answer

The part of the socket interface every module reads: the value standing for
no descriptor, the error codes the code tells apart, and the answer of a
transfer call.
-/

/-- `INVALID_FD`, the value of a descriptor field that holds none. -/
def INVALID_FD : ℤ := -1

/-- The most bytes one `recv` transfers. -/
def MAX_RW_COUNT : ℕ := 0x7ffff000

/-- The values of `errno` the code tells apart; `other` is every value it
treats alike. -/
inductive Errno where
  /-- The call would block, or its timeout ran out. -/
  | EAGAIN
  /-- The other name of the same condition. -/
  | EWOULDBLOCK
  /-- The descriptor is not open. -/
  | EBADF
  /-- Any other error. -/
  | other (code : ℕ)
  deriving DecidableEq, Repr

/-- **The answer of `send` or `recv`**: `-1` with an `errno`, or a count. A
count of `0` is what `recv` answers once the peer has closed. -/
inductive IoResult where
  /-- `-1`, with `errno` set. -/
  | error (errno : Errno)
  /-- The number of bytes transferred. -/
  | count (n : ℕ)
  deriving DecidableEq, Repr

namespace IoResult

/-- The value the call returns, as an `ssize_t`. -/
def value : IoResult → ℤ
  | error _ => -1
  | count n => n

/-- `errno == EAGAIN || errno == EWOULDBLOCK`, which the code asks only of an
answer it has taken for an error. -/
def wouldBlock : IoResult → Bool
  | error .EAGAIN => true
  | error .EWOULDBLOCK => true
  | error _ => false
  | count _ => false

/-- The bytes the call has moved. -/
def transferred : IoResult → ℕ
  | error _ => 0
  | count n => n

/-- The answer is one the call can give when asked for `len` bytes. -/
def Within (r : IoResult) (len : ℕ) : Prop := r.transferred ≤ len

instance (r : IoResult) (len : ℕ) : Decidable (r.Within len) :=
  inferInstanceAs (Decidable (_ ≤ _))

/-- The answers after which a transfer must end: an error that is not a
retry, and a `0`. -/
def fatal : IoResult → Bool
  | error .EAGAIN => false
  | error .EWOULDBLOCK => false
  | error _ => true
  | count n => n = 0

end IoResult
