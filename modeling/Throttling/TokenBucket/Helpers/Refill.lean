import Throttling.TokenBucket.Model.Bucket
import Mathlib.Algebra.Order.Ring.Rat
import Mathlib.Tactic.Linarith
import Mathlib.Tactic.Positivity
import Mathlib.Tactic.Ring
/-!
# The bucket at exact rationals

What each method does to the fields, with `std::min` and `std::max` read
as the lattice operations. `Wf` is what every bucket the constructor
makes satisfies and every method keeps; under it a refill has one
formula, `refillLocked_tokens`, whichever way the clock moved.
-/

namespace Throttling

theorem stdMax_eq_max {α : Type} [LinearOrder α] (a b : α) : stdMax a b = max a b := by
  unfold stdMax
  split
  · rename_i h; exact (max_eq_right h.le).symm
  · rename_i h; exact (max_eq_left (not_lt.mp h)).symm

theorem stdMin_eq_min {α : Type} [LinearOrder α] (a b : α) : stdMin a b = min a b := by
  unfold stdMin
  split
  · rename_i h; exact (min_eq_right h.le).symm
  · rename_i h; exact (min_eq_left (not_lt.mp h)).symm

/-! ## Seconds -/

/-- The seconds from one reading to a later one, a clock that went back
counting for nothing. -/
def forwardSeconds (last now : TimePoint) : ℚ := max 0 (elapsedSeconds ℚ last now)

theorem elapsedSeconds_eq (last now : TimePoint) :
    elapsedSeconds ℚ last now = (now - last : ℚ) / 1000000000 := by
  simp [elapsedSeconds, ticksPerSecond]

@[simp] theorem elapsedSeconds_self (t : TimePoint) : elapsedSeconds ℚ t t = 0 := by
  simp [elapsedSeconds_eq]

theorem elapsedSeconds_nonneg {last now : TimePoint} :
    0 ≤ elapsedSeconds ℚ last now ↔ last ≤ now := by
  rw [elapsedSeconds_eq, le_div_iff₀ (by norm_num), zero_mul, sub_nonneg, Int.cast_le]

theorem elapsedSeconds_add (t₀ t₁ t₂ : TimePoint) :
    elapsedSeconds ℚ t₀ t₁ + elapsedSeconds ℚ t₁ t₂ = elapsedSeconds ℚ t₀ t₂ := by
  simp only [elapsedSeconds_eq]
  ring

theorem elapsedSeconds_le_elapsedSeconds {t₀ t₁ t₂ t₃ : TimePoint} (h₀ : t₀ ≤ t₁) (h₁ : t₂ ≤ t₃) :
    elapsedSeconds ℚ t₁ t₂ ≤ elapsedSeconds ℚ t₀ t₃ := by
  have h₀' := elapsedSeconds_nonneg.mpr h₀
  have h₁' := elapsedSeconds_nonneg.mpr h₁
  linarith [elapsedSeconds_add t₀ t₁ t₂, elapsedSeconds_add t₀ t₂ t₃]

theorem one_le_elapsedSeconds {last now : TimePoint} (h : last + ticksPerSecond ≤ now) :
    1 ≤ elapsedSeconds ℚ last now := by
  have h' : (last : ℚ) + 1000000000 ≤ now := by exact_mod_cast h
  rw [elapsedSeconds_eq, le_div_iff₀ (by norm_num)]
  linarith

theorem forwardSeconds_nonneg (last now : TimePoint) : 0 ≤ forwardSeconds last now :=
  le_max_left _ _

theorem forwardSeconds_of_le {last now : TimePoint} (h : last ≤ now) :
    forwardSeconds last now = elapsedSeconds ℚ last now :=
  max_eq_right (elapsedSeconds_nonneg.mpr h)

@[simp] theorem forwardSeconds_self (t : TimePoint) : forwardSeconds t t = 0 := by
  simp [forwardSeconds]

namespace TokenBucket

/-- **A well-formed bucket**: no negative rate, and tokens between zero
and the cap. -/
structure Wf (b : TokenBucket ℚ) : Prop where
  rate_nonneg : 0 ≤ b.rate
  tokens_nonneg : 0 ≤ b.tokens
  tokens_le : b.tokens ≤ b.burstSize

variable {b : TokenBucket ℚ}

/-! ## The constructor -/

@[simp] theorem new_rate (rate burst : ℚ) (now : TimePoint) :
    (new rate burst now).rate = max 0 rate := stdMax_eq_max 0 rate

@[simp] theorem new_tokens (rate burst : ℚ) (now : TimePoint) :
    (new rate burst now).tokens = (new rate burst now).burstSize := rfl

@[simp] theorem new_lastRefillTime (rate burst : ℚ) (now : TimePoint) :
    (new rate burst now).lastRefillTime = now := rfl

theorem new_burstSize (rate burst : ℚ) (now : TimePoint) :
    (new rate burst now).burstSize = if burst < 0 then max 0 rate else burst := by
  simp [new, stdMax_eq_max]

theorem wf_new (rate burst : ℚ) (now : TimePoint) : (new rate burst now).Wf where
  rate_nonneg := by simp
  tokens_nonneg := by
    rw [new_tokens, new_burstSize]
    split
    · exact le_max_left _ _
    · rename_i h; exact not_lt.mp h
  tokens_le := le_rfl

/-! ## The refill -/

@[simp] theorem refillLocked_rate (b : TokenBucket ℚ) (now : TimePoint) :
    (b.refillLocked now).rate = b.rate := by
  unfold refillLocked; dsimp only; split <;> rfl

@[simp] theorem refillLocked_burstSize (b : TokenBucket ℚ) (now : TimePoint) :
    (b.refillLocked now).burstSize = b.burstSize := by
  unfold refillLocked; dsimp only; split <;> rfl

@[simp] theorem refillLocked_lastRefillTime (b : TokenBucket ℚ) (now : TimePoint) :
    (b.refillLocked now).lastRefillTime = now := by
  unfold refillLocked; dsimp only; split <;> rfl

/-- **The refill's one formula.** A clock that went back takes the early
return, which leaves the tokens alone; under the cap that is the general
branch with nothing earned. -/
theorem refillLocked_tokens (hb : b.Wf) (now : TimePoint) :
    (b.refillLocked now).tokens =
      min (b.tokens + forwardSeconds b.lastRefillTime now * b.rate) b.burstSize := by
  unfold refillLocked
  dsimp only
  split
  · rename_i h
    rw [forwardSeconds, max_eq_left h.le, zero_mul, add_zero, min_eq_left hb.tokens_le]
  · rename_i h
    rw [forwardSeconds, max_eq_right (not_lt.mp h)]
    exact stdMin_eq_min _ _

/-- A refill that is not early leaves no more than the cap, whatever was
there before. -/
theorem refillLocked_tokens_le_burstSize {now : TimePoint} (h : b.lastRefillTime ≤ now) :
    (b.refillLocked now).tokens ≤ b.burstSize := by
  have helapsed := elapsedSeconds_nonneg.mpr h
  unfold refillLocked
  dsimp only
  rw [if_neg (not_lt.mpr helapsed), stdMin_eq_min]
  exact min_le_right _ _

/-- **A refill at the moment of the last one** leaves a bucket under its
cap as it is. -/
theorem refillLocked_eq_self {now : TimePoint} (hlast : b.lastRefillTime = now)
    (hcap : b.tokens ≤ b.burstSize) : b.refillLocked now = b := by
  have htokens : (b.refillLocked now).tokens = b.tokens := by
    unfold refillLocked
    dsimp only
    rw [hlast, elapsedSeconds_self, if_neg (lt_irrefl _), stdMin_eq_min, zero_mul, add_zero,
      min_eq_left hcap]
  exact TokenBucket.ext (by simp) (by simp) htokens (by simp [hlast])

theorem wf_refillLocked (hb : b.Wf) (now : TimePoint) : (b.refillLocked now).Wf where
  rate_nonneg := by simpa using hb.rate_nonneg
  tokens_nonneg := by
    rw [refillLocked_tokens hb]
    have hearn := mul_nonneg (forwardSeconds_nonneg b.lastRefillTime now) hb.rate_nonneg
    exact le_min (by linarith [hb.tokens_nonneg]) (le_trans hb.tokens_nonneg hb.tokens_le)
  tokens_le := by
    rw [refillLocked_tokens hb, refillLocked_burstSize]
    exact min_le_right _ _

/-- And adds at most what was earned. -/
theorem refillLocked_tokens_le (hb : b.Wf) (now : TimePoint) :
    (b.refillLocked now).tokens ≤ b.tokens + forwardSeconds b.lastRefillTime now * b.rate := by
  rw [refillLocked_tokens hb]
  exact min_le_left _ _

/-- **A bucket that rested a second** holds what it earns in one, up to
its cap. -/
theorem min_rate_burstSize_le_refillLocked (hb : b.Wf) {now : TimePoint}
    (hrest : b.lastRefillTime + ticksPerSecond ≤ now) :
    min b.rate b.burstSize ≤ (b.refillLocked now).tokens := by
  have hsecond : 1 ≤ forwardSeconds b.lastRefillTime now :=
    (one_le_elapsedSeconds hrest).trans (le_max_right _ _)
  have hearned : b.rate ≤ forwardSeconds b.lastRefillTime now * b.rate :=
    le_mul_of_one_le_left hb.rate_nonneg hsecond
  rw [refillLocked_tokens hb]
  exact min_le_min_right _ (by linarith [hb.tokens_nonneg])

/-- **Two refills are one**, the clock going forward: nothing is lost to
the cap in between that the later refill would have kept. -/
theorem refillLocked_refillLocked (hb : b.Wf) {t u : TimePoint} (h₀ : b.lastRefillTime ≤ t)
    (h₁ : t ≤ u) :
    (b.refillLocked t).refillLocked u = b.refillLocked u := by
  have htokens : ((b.refillLocked t).refillLocked u).tokens = (b.refillLocked u).tokens := by
    rw [refillLocked_tokens (wf_refillLocked hb t), refillLocked_tokens hb, refillLocked_tokens hb,
      refillLocked_lastRefillTime, refillLocked_rate, refillLocked_burstSize,
      forwardSeconds_of_le h₀, forwardSeconds_of_le h₁, forwardSeconds_of_le (h₀.trans h₁),
      ← elapsedSeconds_add b.lastRefillTime t u, add_mul, ← add_assoc, ← min_add_add_right,
      min_assoc]
    have hearn := mul_nonneg (elapsedSeconds_nonneg.mpr h₁) hb.rate_nonneg
    -- the first refill's cap, earning since, is no less than the second's
    rw [min_eq_right (a := b.burstSize + _) (by linarith)]
  exact TokenBucket.ext (by simp) (by simp) htokens (by simp)

/-! ## The other methods, over the refill -/

/-- **What `TryConsume` does with a positive count**: it refills, and
takes the count exactly where there is enough. -/
theorem tryConsume_of_pos {count : ℚ} (hc : 0 < count) (now : TimePoint) :
    b.tryConsume count now =
      if count ≤ (b.refillLocked now).tokens then
        (true, { b.refillLocked now with tokens := (b.refillLocked now).tokens - count })
      else (false, b.refillLocked now) := by
  rw [tryConsume, if_neg (not_le.mpr hc)]

theorem tryConsume_of_nonpos {count : ℚ} (hc : count ≤ 0) (now : TimePoint) :
    b.tryConsume count now = (true, b) := by
  rw [tryConsume, if_pos hc]

theorem tryConsume_fst_iff {count : ℚ} (hc : 0 < count) (now : TimePoint) :
    (b.tryConsume count now).1 = true ↔ count ≤ (b.refillLocked now).tokens := by
  rw [tryConsume_of_pos hc]
  split <;> simp_all

@[simp] theorem tryConsume_rate (b : TokenBucket ℚ) (count : ℚ) (now : TimePoint) :
    (b.tryConsume count now).2.rate = b.rate := by
  unfold tryConsume; dsimp only; split <;> [rfl; (split <;> simp)]

@[simp] theorem tryConsume_burstSize (b : TokenBucket ℚ) (count : ℚ) (now : TimePoint) :
    (b.tryConsume count now).2.burstSize = b.burstSize := by
  unfold tryConsume; dsimp only; split <;> [rfl; (split <;> simp)]

theorem wf_tryConsume (hb : b.Wf) (count : ℚ) (now : TimePoint) :
    (b.tryConsume count now).2.Wf := by
  have hr := wf_refillLocked hb now
  rcases le_or_gt count 0 with hc | hc
  · rw [tryConsume_of_nonpos hc]; exact hb
  · rw [tryConsume_of_pos hc]
    split
    · rename_i h
      exact ⟨hr.rate_nonneg, sub_nonneg.mpr h, by
        have := hr.tokens_le
        change _ - count ≤ _
        linarith⟩
    · exact hr

@[simp] theorem setRate_rate (b : TokenBucket ℚ) (newRate : ℚ) (now : TimePoint) :
    (b.setRate newRate now).rate = max 0 newRate := stdMax_eq_max 0 newRate

@[simp] theorem setRate_burstSize (b : TokenBucket ℚ) (newRate : ℚ) (now : TimePoint) :
    (b.setRate newRate now).burstSize = b.burstSize := by simp [setRate]

@[simp] theorem setRate_tokens (b : TokenBucket ℚ) (newRate : ℚ) (now : TimePoint) :
    (b.setRate newRate now).tokens = (b.refillLocked now).tokens := rfl

@[simp] theorem setRate_lastRefillTime (b : TokenBucket ℚ) (newRate : ℚ) (now : TimePoint) :
    (b.setRate newRate now).lastRefillTime = now := by simp [setRate]

theorem wf_setRate (hb : b.Wf) (newRate : ℚ) (now : TimePoint) : (b.setRate newRate now).Wf where
  rate_nonneg := by simp
  tokens_nonneg := (wf_refillLocked hb now).tokens_nonneg
  tokens_le := by simpa using (wf_refillLocked hb now).tokens_le

@[simp] theorem setBurstSize_rate (b : TokenBucket ℚ) (n : ℚ) (now : TimePoint) :
    (b.setBurstSize n now).rate = b.rate := by simp [setBurstSize]

@[simp] theorem setBurstSize_burstSize (b : TokenBucket ℚ) (n : ℚ) (now : TimePoint) :
    (b.setBurstSize n now).burstSize = max 0 n := stdMax_eq_max 0 n

@[simp] theorem setBurstSize_tokens (b : TokenBucket ℚ) (n : ℚ) (now : TimePoint) :
    (b.setBurstSize n now).tokens = min (b.refillLocked now).tokens (max 0 n) := by
  simp [setBurstSize, stdMax_eq_max, stdMin_eq_min]

theorem wf_setBurstSize (hb : b.Wf) (n : ℚ) (now : TimePoint) : (b.setBurstSize n now).Wf where
  rate_nonneg := by simpa using hb.rate_nonneg
  tokens_nonneg := by
    rw [setBurstSize_tokens]
    exact le_min (wf_refillLocked hb now).tokens_nonneg (le_max_left _ _)
  tokens_le := by
    rw [setBurstSize_tokens, setBurstSize_burstSize]
    exact min_le_right _ _

/-- **Every call keeps a bucket well formed.** -/
theorem wf_call (hb : b.Wf) (c : BucketCall ℚ) (now : TimePoint) : (b.call c now).2.Wf := by
  cases c with
  | tryConsume count => exact wf_tryConsume hb count now
  | setRate newRate => exact wf_setRate hb newRate now
  | setBurstSize n => exact wf_setBurstSize hb n now
  | getAvailableTokens => exact wf_refillLocked hb now

end TokenBucket

end Throttling
