import Throttling.Client.Helpers.Runs
import Throttling.Client.Helpers.Sections
/-!
# What a step does to one bucket

`UpdateTokenBuckets` removes it, makes it or sets its rate, and `Stop`
removes it; a call of `Acquire` and the worker try to take from it; every
other step leaves it (`touched_of_step`). A bucket from which nobody takes
holds, after some time, what it earned since, up to its burst
(`TokenBucket.Earned`).
-/

namespace Throttling

/-! ## What a bucket earns -/

namespace TokenBucket

variable {b : TokenBucket ℚ} {rate count : ℚ} {start now : TimePoint}

/-- **A bucket holds what it earned** at some rate since some time, up to
its burst. -/
def Earned (b : TokenBucket ℚ) (rate : ℚ) (start : TimePoint) : Prop :=
  min b.burstSize (elapsedSeconds ℚ start b.lastRefillTime * rate) ≤ b.tokens

/-- Nothing yet, at first. -/
theorem earned_of_le (hb : b.Wf) (hrate : 0 ≤ rate) (hle : b.lastRefillTime ≤ start) :
    b.Earned rate start := by
  have hsum := elapsedSeconds_add start b.lastRefillTime start
  have hback := elapsedSeconds_nonneg.mpr hle
  rw [elapsedSeconds_self] at hsum
  have hnone : elapsedSeconds ℚ start b.lastRefillTime * rate ≤ 0 :=
    mul_nonpos_of_nonpos_of_nonneg (by linarith) hrate
  exact (min_le_right _ _).trans (hnone.trans hb.tokens_nonneg)

/-- **It goes on earning** at no less than its rate. -/
theorem Earned.refillLocked (h : b.Earned rate start) (hb : b.Wf) (hrate : 0 ≤ rate)
    (hle : rate ≤ b.rate) (hnow : b.lastRefillTime ≤ now) :
    (b.refillLocked now).Earned rate start := by
  have hsum := elapsedSeconds_add start b.lastRefillTime now
  have hpassed := elapsedSeconds_nonneg.mpr hnow
  have hmore : elapsedSeconds ℚ b.lastRefillTime now * rate ≤
      elapsedSeconds ℚ b.lastRefillTime now * b.rate := mul_le_mul_of_nonneg_left hle hpassed
  have hnonneg := mul_nonneg hpassed hrate
  rw [Earned, refillLocked_tokens hb, refillLocked_burstSize, refillLocked_lastRefillTime,
    forwardSeconds_of_le hnow, ← hsum, add_mul]
  refine le_min ?_ (min_le_left _ _)
  rcases min_le_iff.mp h with hfull | hearned
  · exact (min_le_left _ _).trans (by linarith)
  · exact (min_le_right _ _).trans (by linarith)

/-- Setting its rate takes nothing away. -/
theorem Earned.setRate (h : b.Earned rate start) (hb : b.Wf) (hrate : 0 ≤ rate)
    (hle : rate ≤ b.rate) (hnow : b.lastRefillTime ≤ now) (newRate : ℚ) :
    (b.setRate newRate now).Earned rate start := by
  have hrefilled := h.refillLocked hb hrate hle hnow
  rw [Earned, refillLocked_burstSize, refillLocked_lastRefillTime] at hrefilled
  rw [Earned, setRate_burstSize, setRate_lastRefillTime, setRate_tokens]
  exact hrefilled

/-- **Once it earned its burst**, a bucket grants what that covers. -/
theorem Earned.tryConsume_fst (h : b.Earned rate start) (hb : b.Wf) (hrate : 0 ≤ rate)
    (hle : rate ≤ b.rate) (hnow : b.lastRefillTime ≤ now)
    (hfull : b.burstSize ≤ elapsedSeconds ℚ start now * rate) (hcount : count ≤ b.burstSize) :
    (b.tryConsume count now).1 = true := by
  rcases le_or_gt count 0 with hc | hc
  · rw [tryConsume_of_nonpos hc]
  · have hrefilled := h.refillLocked hb hrate hle hnow
    rw [Earned, refillLocked_burstSize, refillLocked_lastRefillTime, min_eq_left hfull]
      at hrefilled
    exact (tryConsume_fst_iff hc now).mpr (hcount.trans hrefilled)

/-- A refused attempt is a refill. -/
theorem tryConsume_snd_of_refused (h : (b.tryConsume count now).1 = false) :
    (b.tryConsume count now).2 = b.refillLocked now := by
  rcases le_or_gt count 0 with hc | hc
  · rw [tryConsume_of_nonpos hc] at h
    cases h
  · rw [tryConsume_of_pos hc] at h ⊢
    split at h
    · cases h
    · rename_i hless
      rw [if_neg hless]

end TokenBucket

/-! ## What a step does to a bucket -/

/-- The clock readings an action takes lie between two moments. -/
def ClientAction.ReadsWithin (before after : TimePoint) : ClientAction → Prop
  | .updateTokenBuckets now _ => ∀ r, before ≤ now r ∧ now r ≤ after
  | .acquireStep _ now _ => before ≤ now ∧ now ≤ after
  | .workerStep now _ => before ≤ now ∧ now ≤ after
  | _ => True

namespace ClientThreads

variable {s s' : ClientThreads} {a : ClientAction} {r : ResourceId}

/-- **A call of `Acquire` takes tokens** from a resource's bucket. -/
def Takes (s : ClientThreads) (r : ResourceId) : ClientAction → Prop
  | .acquireStep caller now freed => ∃ request outer,
      s.frames caller = ⟨request, .consume (s.registered r)⟩ :: outer ∧ 0 < request.count ∧
        (s.tryConsume request (s.registered r) now freed).1 = true
  | _ => False

/-- **What a step does to a resource's bucket.** -/
inductive Touched (s : ClientThreads) (a : ClientAction) (s' : ClientThreads) (r : ResourceId) :
    Prop
  | kept (heq : s'.tokenBuckets[r]? = s.tokenBuckets[r]?)
  | gone (hnone : s'.tokenBuckets[r]? = none)
  | created {generation : ℕ} {rate : ℚ} {now : TimePoint} (hnone : s.tokenBuckets[r]? = none)
      (hreads : ∀ t u, a.ReadsWithin t u → t ≤ now ∧ now ≤ u)
      (heq : s'.tokenBuckets[r]? = some ⟨generation, .new rate (-1) now⟩)
  | rateSet {owned : OwnedBucket} {rate : ℚ} {now : TimePoint}
      (hold : s.tokenBuckets[r]? = some owned)
      (hreads : ∀ t u, a.ReadsWithin t u → t ≤ now ∧ now ≤ u)
      (heq : s'.tokenBuckets[r]? = some { owned with bucket := owned.bucket.setRate rate now })
  | tried {owned : OwnedBucket} {count : ℚ} {now : TimePoint}
      (hold : s.tokenBuckets[r]? = some owned)
      (hreads : ∀ t u, a.ReadsWithin t u → t ≤ now ∧ now ≤ u)
      (hwho : (owned.bucket.tryConsume count now).1 = true → 0 < count →
        s.Takes r a ∨ ∃ request, s'.worker = .execute request)
      (heq : s'.tokenBuckets[r]? =
        some { owned with bucket := (owned.bucket.tryConsume count now).2 })

/-- **A consumption** leaves a bucket alone, or is an attempt at it. -/
theorem tryConsume_lookup (s : ClientThreads) (request : Acquisition) (bucket : Option BucketRef)
    (now : TimePoint) (freed : Bool) (r : ResourceId) :
    (s.tryConsume request bucket now freed).2.tokenBuckets[r]? = s.tokenBuckets[r]? ∨
    ∃ owned, s.tokenBuckets[r]? = some owned ∧ bucket = s.registered r ∧
      (s.tryConsume request bucket now freed).1 =
        (owned.bucket.tryConsume request.count now).1 ∧
      (s.tryConsume request bucket now freed).2.tokenBuckets[r]? =
        some { owned with bucket := (owned.bucket.tryConsume request.count now).2 } := by
  cases bucket with
  | none => exact .inl rfl
  | some ref =>
    obtain ⟨resourceId, generation⟩ := ref
    simp only [tryConsume, consumeFrom]
    cases hfound : s.tokenBuckets[resourceId]? with
    | none => exact .inl rfl
    | some owned =>
      dsimp only
      split
      · rename_i hgeneration
        by_cases hr : resourceId = r
        · subst hr
          refine .inr ⟨owned, hfound, ?_, rfl, by rw [OrderedMap.lookup_insert, if_pos rfl]⟩
          rw [registered, hfound, ← hgeneration]
          rfl
        · exact .inl (by rw [OrderedMap.lookup_insert, if_neg hr])
      · exact .inl rfl

/-- A call of `Acquire` only begins: it takes a ticket, and a frame. -/
theorem exists_of_acquire {caller : Caller} {request : PendingRequest}
    (h : s.acquire caller request = some s') :
    ∃ tickets frames, s' = { s with tickets := tickets, frames := frames } := by
  unfold acquire at h
  split at h
  · exact ⟨_, _, (Option.some.inj h).symm⟩
  · cases h

theorem touched_of_acquireStep {caller : Caller} {now : TimePoint} {freed : Bool}
    (h : s.acquireStep caller now freed = some s') (r : ResourceId) :
    Touched s (.acquireStep caller now freed) s' r := by
  unfold acquireStep at h
  split at h
  · cases h
  · obtain rfl := Option.some.inj h
    exact .kept rfl
  · rename_i request bucket outer hframes
    obtain rfl := Option.some.inj h
    rcases tryConsume_lookup s request bucket now freed r with
      hsame | ⟨owned, hold, rfl, hok, htried⟩
    · exact .kept hsame
    · exact .tried hold (fun t u hreads => hreads)
        (fun hgranted hpos => .inl ⟨request, outer, hframes, hpos, hok.trans hgranted⟩) htried
  · split at h <;>
    · obtain rfl := Option.some.inj h
      exact .kept rfl
  · obtain rfl := Option.some.inj h
    exact .kept rfl
  · obtain rfl := Option.some.inj h
    exact .kept rfl
  · obtain rfl := Option.some.inj h
    exact .kept rfl

/-- **A section of the worker** leaves a bucket alone, or is an attempt at
it. -/
theorem attempted_of_workerStep {now : TimePoint} {freed : Bool}
    (h : s.workerStep now freed = some s') (r : ResourceId) :
    s'.tokenBuckets[r]? = s.tokenBuckets[r]? ∨
    ∃ (owned : OwnedBucket) (request : Acquisition), s.tokenBuckets[r]? = some owned ∧
      ((owned.bucket.tryConsume request.count now).1 = true → s'.worker = .execute request) ∧
      s'.tokenBuckets[r]? =
        some { owned with bucket := (owned.bucket.tryConsume request.count now).2 } := by
  unfold workerStep at h
  split at h
  · cases h
  · obtain rfl := Option.some.inj h
    exact .inl rfl
  · split at h <;>
    · obtain rfl := Option.some.inj h
      exact .inl rfl
  · obtain rfl := Option.some.inj h
    exact .inl rfl
  · rename_i request bucket hworker
    obtain rfl := Option.some.inj h
    rcases tryConsume_lookup s request bucket now freed r with
      hsame | ⟨owned, hold, -, hok, htried⟩
    · exact .inl hsame
    · exact .inr ⟨owned, request, hold, fun hgranted => if_pos (hok.trans hgranted), htried⟩
  · obtain rfl := Option.some.inj h
    exact .inl rfl
  · split at h
    · obtain rfl := Option.some.inj h
      exact .inl rfl
    · cases h
  · obtain rfl := Option.some.inj h
    exact .inl rfl
  · cases h

theorem touched_of_step (h : s.step a = some s') (r : ResourceId) : Touched s a s' r := by
  cases a with
  | start =>
    cases controlSection_of_start h with
    | clearedBuckets hstop => exact .gone (by simp)
    | _ => exact .kept rfl
  | stop =>
    cases controlSection_of_stop h with
    | clearedBuckets hstop => exact .gone (by simp)
    | _ => exact .kept rfl
  | acquire caller request =>
    obtain ⟨tickets, frames, rfl⟩ := exists_of_acquire h
    exact .kept rfl
  | updateTokenBuckets now allocations =>
    obtain rfl := Option.some.inj h
    have hlookup := lookup_updateBuckets
      (fun resourceId (owned : OwnedBucket) rate =>
        { owned with bucket := owned.bucket.setRate rate (now resourceId) })
      (fun resourceId rate =>
        { generation := s.updates, bucket := TokenBucket.new rate (-1) (now resourceId) })
      allocations s.tokenBuckets r
    cases hrate : allocations[r]? with
    | none =>
      rw [hrate] at hlookup
      exact .gone hlookup
    | some rate =>
      cases hold : s.tokenBuckets[r]? with
      | none =>
        rw [hrate, hold] at hlookup
        exact .created hold (fun t u hreads => hreads r) hlookup
      | some owned =>
        rw [hrate, hold] at hlookup
        exact .rateSet hold (fun t u hreads => hreads r) hlookup
  | acquireStep caller now freed => exact touched_of_acquireStep h r
  | workerStep now freed =>
    rcases attempted_of_workerStep h r with hsame | ⟨owned, request, hold, hexecutes, htried⟩
    · exact .kept hsame
    · exact .tried hold (fun t u hreads => hreads)
        (fun hgranted _ => .inr ⟨request, hexecutes hgranted⟩) htried

end ClientThreads

end Throttling
