import Throttling.TokenBucket.Model.Session
import Throttling.Common.Window
/-!
# The bucket is the window limiter

The one number `tokens_` is a minimum over every window of the past:
`tryConsume_iff_every_window`. The bucket is an instance of the capped
accumulator of `Common/Window.lean`, and what that needs of it is one
equation, the level at the next call (`level_succ`), read off what each
method does between two refills.
-/

namespace Throttling

namespace Session

variable {S : Session}

theorem wf_bucketBefore (k : ℕ) : (S.bucketBefore k).Wf := by
  induction k with
  | zero => exact TokenBucket.wf_new _ _ _
  | succ k ih => exact TokenBucket.wf_call ih _ _

/-- The tokens call `k` finds once it has refilled. -/
def level (S : Session) (k : ℕ) : ℚ := ((S.bucketBefore k).refillLocked (S.reading k)).tokens

/-- Only positive counts are asked for. -/
def Positive (S : Session) : Prop :=
  ∀ count now, (BucketCall.tryConsume count, now) ∈ S.calls → 0 < count

theorem Positive.pos (hS : S.Positive) {k : ℕ} {count : ℚ}
    (hk : S.call k = .tryConsume count) : 0 < count := by
  rcases Nat.lt_or_ge k S.calls.length with hlt | hge
  · refine hS count (S.reading k) ?_
    have hget : S.calls.getD k (.getAvailableTokens, 0) = S.calls[k] :=
      List.getD_eq_getElem _ _ hlt
    have hpair : S.calls.getD k (.getAvailableTokens, 0) = (.tryConsume count, S.reading k) :=
      Prod.ext hk rfl
    rw [← hpair, hget]
    exact List.getElem_mem hlt
  · rw [call, List.getD_eq_default _ _ hge] at hk
    cases hk

theorem result_iff {k : ℕ} {count : ℚ} (hpos : 0 < count) (hk : S.call k = .tryConsume count) :
    S.result k = .consumed true ↔ count ≤ S.level k := by
  rw [result, hk]
  simp only [TokenBucket.call, BucketResult.consumed.injEq]
  exact TokenBucket.tryConsume_fst_iff hpos _

theorem grant_of_tryConsume {k : ℕ} {count : ℚ} (hpos : 0 < count)
    (hk : S.call k = .tryConsume count) :
    S.grant k = if count ≤ S.level k then count else 0 := by
  simp only [grant, hk, result_iff hpos hk]

theorem grant_of_ne {k : ℕ} (hk : ∀ count, S.call k ≠ .tryConsume count) : S.grant k = 0 := by
  unfold grant
  split
  · rename_i count hcall; exact absurd hcall (hk count)
  · rfl

/-- **What a call leaves.** Refilled up to its own reading, less its
grant, and cut to the cap it leaves in force — which only
`SetBurstSize` moves. -/
theorem bucketBefore_succ_tokens (hS : S.Positive) (k : ℕ) :
    (S.bucketBefore (k + 1)).tokens =
      min (S.level k - S.grant k) (S.burstInForce (k + 1)) := by
  have hwf := wf_bucketBefore (S := S) k
  have hcap : S.level k ≤ (S.bucketBefore k).burstSize := by
    simpa [level] using (TokenBucket.wf_refillLocked hwf (S.reading k)).tokens_le
  rw [burstInForce, bucketBefore]
  cases hk : S.call k with
  | tryConsume count =>
    have hpos := hS.pos hk
    rw [grant_of_tryConsume hpos hk]
    simp only [TokenBucket.call, TokenBucket.tryConsume_burstSize]
    rw [TokenBucket.tryConsume_of_pos hpos, ← level]
    by_cases hle : count ≤ S.level k
    · -- what is left after a grant is under the cap the level was under
      rw [if_pos hle, if_pos hle, min_eq_left (by linarith)]
    · rw [if_neg hle, if_neg hle, sub_zero, min_eq_left hcap]
      rfl
  | setRate newRate =>
    rw [grant_of_ne (by simp [hk]), sub_zero]
    simp only [TokenBucket.call, TokenBucket.setRate_tokens, TokenBucket.setRate_burstSize]
    exact (min_eq_left hcap).symm
  | setBurstSize newBurstSize =>
    -- the one call whose cut is not already made by the refill
    rw [grant_of_ne (by simp [hk]), sub_zero]
    simp only [TokenBucket.call, TokenBucket.setBurstSize_tokens,
      TokenBucket.setBurstSize_burstSize]
    rfl
  | getAvailableTokens =>
    rw [grant_of_ne (by simp [hk]), sub_zero]
    simp only [TokenBucket.call, TokenBucket.getAvailableTokens,
      TokenBucket.refillLocked_burstSize]
    exact (min_eq_left hcap).symm

/-- A call with a positive count, or none, moves the refill time to its
reading. -/
theorem bucketBefore_succ_lastRefillTime (hS : S.Positive) (k : ℕ) :
    (S.bucketBefore (k + 1)).lastRefillTime = S.reading k := by
  rw [bucketBefore]
  cases hk : S.call k with
  | tryConsume count =>
    simp only [TokenBucket.call, TokenBucket.tryConsume_of_pos (hS.pos hk)]
    split <;> simp
  | setRate newRate => simp [TokenBucket.call]
  | setBurstSize newBurstSize => simp [TokenBucket.call, TokenBucket.setBurstSize]
  | getAvailableTokens => simp [TokenBucket.call, TokenBucket.getAvailableTokens]

/-- The constructor leaves a full bucket, so the first call finds one. -/
theorem level_zero : S.level 0 = S.burstInForce 0 := by
  have hwf := wf_bucketBefore (S := S) 0
  have hearn := mul_nonneg (forwardSeconds_nonneg (S.bucketBefore 0).lastRefillTime (S.reading 0))
    hwf.rate_nonneg
  rw [level, TokenBucket.refillLocked_tokens hwf, burstInForce]
  refine min_eq_right ?_
  have hfull : (S.bucketBefore 0).tokens = (S.bucketBefore 0).burstSize := rfl
  linarith

/-- **The level from one call to the next.** A cut by `SetBurstSize`
comes before the earning and the refill's own cap after it; earning is
never negative, so one cap, the later, says both. -/
theorem level_succ (hS : S.Positive) (k : ℕ) :
    S.level (k + 1) = min (S.level k - S.grant k + S.earning k) (S.burstInForce (k + 1)) := by
  have hwf := wf_bucketBefore (S := S) (k + 1)
  have hearn : 0 ≤ S.earning k := mul_nonneg hwf.rate_nonneg (forwardSeconds_nonneg _ _)
  rw [level, TokenBucket.refillLocked_tokens hwf, bucketBefore_succ_tokens hS,
    bucketBefore_succ_lastRefillTime hS, mul_comm]
  change min (min _ (S.burstInForce (k + 1)) + S.earning k) (S.burstInForce (k + 1)) = _
  rw [← min_add_add_right, min_assoc, min_eq_right (a := S.burstInForce (k + 1) + _) (by linarith)]

/-- The session, as a run of the capped accumulator. -/
def limiter (S : Session) (hS : S.Positive) : WindowLimiter.Run ℚ where
  cap := S.burstInForce
  inflow := S.earning
  outflow := S.grant
  level := S.level
  level_zero := level_zero
  level_succ := level_succ hS

/-- **The bucket admits exactly what every window has room for.** Call
`k`, a `TryConsume`, returns true if and only if for every call `i ≤ k`
what was granted from `i` on, with its own count, is at most the burst
in force when `i` began and what was earned since. -/
theorem tryConsume_iff_every_window (S : Session) (hS : S.Positive) {k : ℕ} {count : ℚ}
    (hk : S.call k = .tryConsume count) :
    S.result k = .consumed true ↔
      ∀ i ≤ k, S.granted i k + count ≤ S.burstInForce i + S.earned i k := by
  rw [result_iff (hS.pos hk) hk]
  exact (S.limiter hS).le_level_iff k count

/-- A session with a refusal: ten tokens, a rate of ten a second that
doubles, a clock that goes back by a tenth of a second. -/
def doublingSession : Session where
  rate := 10
  burst := -1
  opened := 0
  calls := [(.tryConsume 8, 0), (.setRate 20, 100000000), (.getAvailableTokens, 0),
    (.tryConsume 6, 100000000)]

/-- Its last call is refused: the window opened at the first call has
room for five more tokens, not six. -/
theorem doublingSession_refused : ¬ ∀ i ≤ 3, doublingSession.granted i 3 + 6 ≤
    doublingSession.burstInForce i + doublingSession.earned i 3 := by
  have hpositive : doublingSession.Positive := by
    intro count now hmem
    simp only [doublingSession, List.mem_cons, Prod.mk.injEq, BucketCall.tryConsume.injEq,
      reduceCtorEq, false_and, false_or, List.not_mem_nil, or_false] at hmem
    rcases hmem with ⟨rfl, -⟩ | ⟨rfl, -⟩ <;> norm_num
  intro hroom
  have hgranted := (tryConsume_iff_every_window doublingSession hpositive rfl).mpr hroom
  exact absurd hgranted (by decide +kernel)

end Session

end Throttling
