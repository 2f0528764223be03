import Throttling.Common.Extended
import Throttling.TokenBucket.Helpers.Refill
/-!
# The bucket at doubles

The definitions of `TokenBucket` run at doubles as they do at exact
rationals. On finite values they compute the same (`call_map_finite`), so
that what is known of a bucket at rationals carries over; the bucket that
is infinite in every field is followed by hand.
-/

namespace Throttling

/-- A C++ `double`, its rounding left out. -/
abbrev Double : Type := Extended ℚ

open Extended

/-! ## Seconds -/

theorem elapsedSeconds_double (last now : TimePoint) :
    elapsedSeconds Double last now = finite (elapsedSeconds ℚ last now) :=
  finite_div_finite (by norm_num [ticksPerSecond])

theorem stdMax_finite (p q : ℚ) : stdMax (finite p) (finite q) = finite (stdMax p q) := by
  simp only [stdMax, finite_lt_finite]
  split <;> rfl

theorem stdMin_finite (p q : ℚ) : stdMin (finite p) (finite q) = finite (stdMin p q) := by
  simp only [stdMin, finite_lt_finite]
  split <;> rfl

namespace TokenBucket

/-! ## Finite buckets -/

/-- A bucket with its numbers read as another type's. -/
def map {R S : Type} (f : R → S) (b : TokenBucket R) : TokenBucket S :=
  { rate := f b.rate, burstSize := f b.burstSize, tokens := f b.tokens
    lastRefillTime := b.lastRefillTime }

theorem new_finite (rate burst : ℚ) (now : TimePoint) :
    new (finite rate) (finite burst) now = (new rate burst now).map finite := by
  have hrate : stdMax (0 : Double) (finite rate) = finite (stdMax 0 rate) := stdMax_finite 0 rate
  have hneg : (finite burst : Double) < 0 ↔ burst < 0 := finite_lt_finite
  simp only [new, map, hrate, hneg]
  split <;> rfl

theorem refillLocked_map_finite (b : TokenBucket ℚ) (now : TimePoint) :
    (b.map finite).refillLocked now = (b.refillLocked now).map finite := by
  have hneg : elapsedSeconds Double b.lastRefillTime now < 0 ↔
      elapsedSeconds ℚ b.lastRefillTime now < 0 := by
    rw [elapsedSeconds_double]
    exact finite_lt_finite
  simp only [refillLocked, map, hneg]
  split
  · rfl
  · rw [elapsedSeconds_double, finite_mul_finite, finite_add_finite, stdMin_finite]

theorem tryConsume_map_finite (b : TokenBucket ℚ) (count : ℚ) (now : TimePoint) :
    ((b.map finite).tryConsume (finite count) now).2 = (b.tryConsume count now).2.map finite := by
  have hcount : (finite count : Double) ≤ 0 ↔ count ≤ 0 := finite_le_finite
  have henough : finite count ≤ ((b.refillLocked now).map finite).tokens ↔
      count ≤ (b.refillLocked now).tokens := finite_le_finite
  simp only [tryConsume, hcount, refillLocked_map_finite, henough]
  split
  · rfl
  · split
    · simp only [map, finite_sub_finite]
    · rfl

theorem setRate_map_finite (b : TokenBucket ℚ) (newRate : ℚ) (now : TimePoint) :
    (b.map finite).setRate (finite newRate) now = (b.setRate newRate now).map finite := by
  have hrate : stdMax (0 : Double) (finite newRate) = finite (stdMax 0 newRate) :=
    stdMax_finite 0 newRate
  simp only [setRate, refillLocked_map_finite, hrate]
  rfl

/-! ## The infinite bucket -/

/-- Infinite in every field. -/
def boundless (now : TimePoint) : TokenBucket Double :=
  { rate := posInf, burstSize := posInf, tokens := posInf, lastRefillTime := now }

theorem new_posInf (now : TimePoint) : new posInf (finite (-1)) now = boundless now := by
  have hrate : stdMax (0 : Double) posInf = posInf := if_pos finite_lt_posInf
  have hneg : (finite (-1) : Double) < 0 := finite_lt_finite.mpr (by norm_num)
  simp only [new, hrate, if_pos hneg]
  rfl

/-- **A refill at another moment** than the last leaves it infinite. -/
theorem refillLocked_boundless {last now : TimePoint} (h : now ≠ last) :
    (boundless last).refillLocked now = boundless now := by
  have hneg : elapsedSeconds Double last now < 0 ↔ elapsedSeconds ℚ last now < 0 := by
    rw [elapsedSeconds_double]
    exact finite_lt_finite
  have hlast : (boundless last).lastRefillTime = last := rfl
  simp only [refillLocked, hlast, hneg]
  split
  · rfl
  · rename_i hforward
    have hpos : 0 < elapsedSeconds ℚ last now := by
      refine lt_of_le_of_ne (not_lt.mp hforward) fun hzero => h ?_
      rw [elapsedSeconds_eq, eq_comm, div_eq_zero_iff, sub_eq_zero] at hzero
      exact_mod_cast hzero.resolve_right (by norm_num)
    have htokens : stdMin (posInf + elapsedSeconds Double last now * posInf) (posInf : Double) =
        posInf := by
      rw [elapsedSeconds_double, finite_mul_posInf hpos, posInf_add_posInf]
      exact if_neg (not_posInf_lt _)
    simp only [boundless, htokens]

/-- **One at the moment of the last** leaves no number of tokens: what was
earned is zero seconds' worth of infinitely many. -/
theorem refillLocked_boundless_self (now : TimePoint) :
    ((boundless now).refillLocked now).tokens = nan := by
  have helapsed : elapsedSeconds Double now now = finite 0 := by
    rw [elapsedSeconds_double, elapsedSeconds_self]
  have hneg : ¬ (finite 0 : Double) < 0 := finite_lt_finite.not.mpr (lt_irrefl _)
  have hlast : (boundless now).lastRefillTime = now := rfl
  have hrate : (boundless now).rate = posInf := rfl
  simp only [refillLocked, hlast, helapsed, if_neg hneg, hrate, zero_mul_posInf, add_nan]
  exact if_neg (not_lt_nan _)

end TokenBucket

end Throttling
