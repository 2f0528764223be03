import Mathlib.Algebra.Order.Field.Rat
import Mathlib.Order.MinMax
/-!
# The token bucket

`TokenBucket` as `token_bucket.cc` computes it. The number type is a
parameter, so that the same definitions run at exact rationals and at
any other model of a C++ `double`: nothing here uses more of it than
the operations and the comparisons the source writes. A method takes
the clock reading the source obtains from `clock_->Now()` as its last
argument, and the mutex does not appear, every method being one
critical section.
-/

namespace Throttling

/-- A `steady_clock::time_point`, in the clock's nanoseconds. -/
abbrev TimePoint : Type := ℤ

/-- The clock ticks of one second. -/
abbrev ticksPerSecond : ℤ := 1000000000

section Std

variable {R : Type} [LT R] [DecidableLT R]

/-- `std::max`: the first argument unless the second is larger. -/
def stdMax (a b : R) : R := if a < b then b else a

/-- `std::min`: the first argument unless the second is smaller. -/
def stdMin (a b : R) : R := if b < a then b else a

end Std

/-- **A token bucket**: its configuration, and what it held when it was
last refilled. -/
@[ext] structure TokenBucket (R : Type) where
  /-- Tokens earned per second. -/
  rate : R
  /-- The most tokens the bucket can hold. -/
  burstSize : R
  /-- The tokens held at `lastRefillTime`. -/
  tokens : R
  lastRefillTime : TimePoint
deriving DecidableEq, Repr

variable {R : Type} [Zero R] [Add R] [Sub R] [Mul R] [Div R] [IntCast R]
variable [LT R] [DecidableLT R] [LE R] [DecidableLE R]

/-- `duration<double>(now - last).count()`, in seconds. Readings are `int64`
nanoseconds, and less than `2 ^ 63` of them lie between two that are
subtracted. -/
def elapsedSeconds (R : Type) [Div R] [IntCast R] (last now : TimePoint) : R :=
  ((now - last : ℤ) : R) / ((ticksPerSecond : ℤ) : R)

namespace TokenBucket

/-- The constructor. A negative `burst_size`, the default, stands for
the rate; the bucket starts full. -/
def new (rate burstSize : R) (now : TimePoint) : TokenBucket R :=
  let rate' := stdMax 0 rate
  let burstSize' := if burstSize < 0 then rate' else burstSize
  { rate := rate', burstSize := burstSize', tokens := burstSize', lastRefillTime := now }

/-- `RefillLocked`. A clock that went back earns nothing and moves the
refill time back with it. -/
def refillLocked (b : TokenBucket R) (now : TimePoint) : TokenBucket R :=
  let elapsed := elapsedSeconds R b.lastRefillTime now
  -- the early return, after the source has moved `last_refill_time_`
  if elapsed < 0 then { b with lastRefillTime := now }
  else
    let tokensToAdd := elapsed * b.rate
    { b with tokens := stdMin (b.tokens + tokensToAdd) b.burstSize, lastRefillTime := now }

/-- `TryConsume`. A count of zero or less is granted without a look at
the clock. -/
def tryConsume (b : TokenBucket R) (count : R) (now : TimePoint) : Bool × TokenBucket R :=
  if count ≤ 0 then (true, b)
  else
    let b' := b.refillLocked now
    if count ≤ b'.tokens then (true, { b' with tokens := b'.tokens - count })
    else (false, b')

/-- `SetRate`: refill at the old rate, then change it. -/
def setRate (b : TokenBucket R) (newRate : R) (now : TimePoint) : TokenBucket R :=
  { b.refillLocked now with rate := stdMax 0 newRate }

/-- `SetBurstSize`: refill, change the cap, and cut the tokens to it. -/
def setBurstSize (b : TokenBucket R) (newBurstSize : R) (now : TimePoint) : TokenBucket R :=
  let b' := b.refillLocked now
  let burstSize' := stdMax 0 newBurstSize
  { b' with burstSize := burstSize', tokens := stdMin b'.tokens burstSize' }

/-- `GetRate`. -/
def getRate (b : TokenBucket R) : R := b.rate

/-- `GetAvailableTokens`, which refills. -/
def getAvailableTokens (b : TokenBucket R) (now : TimePoint) : R × TokenBucket R :=
  let b' := b.refillLocked now
  (b'.tokens, b')

end TokenBucket

/-- The calls that touch a bucket's tokens, caps or refill time. -/
inductive BucketCall (R : Type) where
  | tryConsume (count : R)
  | setRate (newRate : R)
  | setBurstSize (newBurstSize : R)
  | getAvailableTokens
deriving DecidableEq, Repr

/-- What a call returns. -/
inductive BucketResult (R : Type) where
  | consumed (ok : Bool)
  | available (tokens : R)
  | done
deriving DecidableEq, Repr

/-- One call at one clock reading. -/
def TokenBucket.call (b : TokenBucket R) (c : BucketCall R) (now : TimePoint) :
    BucketResult R × TokenBucket R :=
  match c with
  | .tryConsume count => (.consumed (b.tryConsume count now).1, (b.tryConsume count now).2)
  | .setRate newRate => (.done, b.setRate newRate now)
  | .setBurstSize newBurstSize => (.done, b.setBurstSize newBurstSize now)
  | .getAvailableTokens =>
      (.available (b.getAvailableTokens now).1, (b.getAvailableTokens now).2)

end Throttling
