import Throttling.TokenBucket.Helpers.Refill
import Mathlib.Algebra.BigOperators.Intervals
import Mathlib.Data.List.GetD
/-!
# A session on one bucket, and what its windows hold

A session is what the constructor was given and a finite list of calls,
each with the clock reading it was made at. The states between the calls
are the model's own. What a window opened at one call and closed at a
later one has room for is read off them: the cap in force when it opened,
what the rates in force earned since, and what was granted in between.
-/

namespace Throttling

/-- A bucket's constructor arguments and the calls made on it. -/
structure Session where
  rate : ℚ
  burst : ℚ
  /-- The reading the constructor takes. -/
  opened : TimePoint
  calls : List (BucketCall ℚ × TimePoint)

namespace Session

variable (S : Session)

/-- Call `k`; past the last one, a call that asks for nothing. -/
def call (k : ℕ) : BucketCall ℚ := (S.calls.getD k (.getAvailableTokens, 0)).1

/-- The clock reading of call `k`. -/
def reading (k : ℕ) : TimePoint := (S.calls.getD k (.getAvailableTokens, 0)).2

/-- The bucket call `k` is made on. -/
def bucketBefore : ℕ → TokenBucket ℚ
  | 0 => TokenBucket.new S.rate S.burst S.opened
  | k + 1 => ((bucketBefore k).call (S.call k) (S.reading k)).2

/-- What call `k` returns. -/
def result (k : ℕ) : BucketResult ℚ := ((S.bucketBefore k).call (S.call k) (S.reading k)).1

/-- The count call `k` grants: its own if it is a `TryConsume` that
returns true. -/
def grant (k : ℕ) : ℚ :=
  match S.call k with
  | .tryConsume count => if S.result k = .consumed true then count else 0
  | _ => 0

/-- The counts granted by the calls `i, …, k - 1`. -/
def granted (i k : ℕ) : ℚ := ∑ j ∈ Finset.Ico i k, S.grant j

/-- The burst in force when call `i` begins. -/
def burstInForce (i : ℕ) : ℚ := (S.bucketBefore i).burstSize

/-- What is earned from the reading of call `j` to the next: the rate
call `j` leaves in force, over the seconds the clock moved forward. -/
def earning (j : ℕ) : ℚ :=
  (S.bucketBefore (j + 1)).rate * forwardSeconds (S.reading j) (S.reading (j + 1))

/-- What is earned from call `i` to call `k`. -/
def earned (i k : ℕ) : ℚ := ∑ j ∈ Finset.Ico i k, S.earning j

end Session

end Throttling
