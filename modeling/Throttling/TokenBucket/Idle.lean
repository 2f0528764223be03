import Throttling.TokenBucket.Helpers.Refill
import Throttling.Common.System
import Mathlib.Data.List.Pairwise
/-!
# Calls that cost nothing

Reading a bucket, being refused by it and setting it to what it is each
settle the refill early and apply the cap on the way. Under a clock that
does not go back two refills are one, so a bucket that met such a call
and one that did not are the same at every later reading; and it is only
through such readings that a bucket answers.
-/

namespace Throttling

namespace TokenBucket

/-- **A call that asks nothing of the bucket**: it reads it, is refused by
it, takes nothing from it, or sets it to what it is. -/
def IsIdle (b : TokenBucket ℚ) (call : BucketCall ℚ) (now : TimePoint) : Prop :=
  match call with
  | .tryConsume count => count ≤ 0 ∨ (b.tryConsume count now).1 = false
  | .setRate newRate => newRate = b.rate
  | .setBurstSize newBurstSize => newBurstSize = b.burstSize
  | .getAvailableTokens => True

instance (b : TokenBucket ℚ) (call : BucketCall ℚ) (now : TimePoint) :
    Decidable (b.IsIdle call now) :=
  match call with
  | .tryConsume count => inferInstanceAs (Decidable (count ≤ 0 ∨ (b.tryConsume count now).1 = false))
  | .setRate newRate => inferInstanceAs (Decidable (newRate = b.rate))
  | .setBurstSize newBurstSize => inferInstanceAs (Decidable (newBurstSize = b.burstSize))
  | .getAvailableTokens => isTrue trivial

/-- The calls of a trace marked as inserted are idle where they are made. -/
def InsertedIdle : TokenBucket ℚ → List (Bool × BucketCall ℚ × TimePoint) → Prop
  | _, [] => True
  | b, (inserted, call, now) :: rest =>
    (inserted = true → b.IsIdle call now) ∧ InsertedIdle (b.call call now).2 rest

instance instDecidableInsertedIdle (b : TokenBucket ℚ) :
    (trace : List (Bool × BucketCall ℚ × TimePoint)) → Decidable (b.InsertedIdle trace)
  | [] => isTrue trivial
  | (inserted, call, now) :: rest =>
    have := instDecidableInsertedIdle (b.call call now).2 rest
    inferInstanceAs (Decidable ((inserted = true → b.IsIdle call now) ∧
      InsertedIdle (b.call call now).2 rest))

/-- A bucket answering calls, each at its reading. -/
def machine : AnsweringMachine (TokenBucket ℚ) (BucketCall ℚ × TimePoint) (BucketResult ℚ) where
  step b input := b.call input.1 input.2

variable {b b' : TokenBucket ℚ} {now : TimePoint}

/-! ## What a call does, at the moment it is made -/

/-- **An idle call leaves the bucket, or the bucket refilled.** -/
theorem call_snd_of_isIdle (hb : b.Wf) {call : BucketCall ℚ} (h : b.IsIdle call now) :
    (b.call call now).2 = b ∨ (b.call call now).2 = b.refillLocked now := by
  cases call with
  | tryConsume count =>
    rcases le_or_gt count 0 with hc | hc
    · exact Or.inl (by simp [call, tryConsume_of_nonpos hc])
    · right
      have hrefused : (b.tryConsume count now).1 = false := h.resolve_left (not_le.mpr hc)
      rw [tryConsume_of_pos hc] at hrefused
      split at hrefused
      · cases hrefused
      · rename_i hle
        simp [call, tryConsume_of_pos hc, hle]
  | setRate newRate =>
    have hrate : newRate = b.rate := h
    refine Or.inr (TokenBucket.ext ?_ (by simp [call]) rfl rfl)
    simp [call, hrate, max_eq_right hb.rate_nonneg]
  | setBurstSize newBurstSize =>
    have hburst : newBurstSize = b.burstSize := h
    have hcap : 0 ≤ b.burstSize := hb.tokens_nonneg.trans hb.tokens_le
    have hle : (b.refillLocked now).tokens ≤ b.burstSize := by
      simpa using (wf_refillLocked hb now).tokens_le
    refine Or.inr (TokenBucket.ext (by simp [call]) ?_ ?_ rfl)
    · simp [call, hburst, max_eq_right hcap]
    · simp [call, hburst, max_eq_right hcap, hle]
  | getAvailableTokens => exact Or.inr rfl

/-- **A call sees the bucket as the refill leaves it.** Two buckets that
agree on that answer alike, and agree again where they are left. -/
theorem call_congr (h : b.refillLocked now = b'.refillLocked now) (call : BucketCall ℚ) :
    (b.call call now).1 = (b'.call call now).1 ∧
      ((b.call call now).2 = (b'.call call now).2 ∨
        (b.call call now).2 = b ∧ (b'.call call now).2 = b') := by
  cases call with
  | tryConsume count =>
    rcases le_or_gt count 0 with hc | hc
    · simp [TokenBucket.call, tryConsume_of_nonpos hc]
    · have heq : b.tryConsume count now = b'.tryConsume count now := by
        rw [tryConsume_of_pos hc, tryConsume_of_pos hc, h]
      simp [TokenBucket.call, heq]
  | setRate newRate => simp [TokenBucket.call, setRate, h]
  | setBurstSize newBurstSize => simp [TokenBucket.call, setBurstSize, h]
  | getAvailableTokens => simp [TokenBucket.call, getAvailableTokens, h]

/-! ## Two buckets that cannot be told apart -/

theorem call_lastRefillTime_le (h : b.lastRefillTime ≤ now) (call : BucketCall ℚ) :
    (b.call call now).2.lastRefillTime ≤ now := by
  cases call with
  | tryConsume count =>
    rcases le_or_gt count 0 with hc | hc
    · simpa [TokenBucket.call, tryConsume_of_nonpos hc] using h
    · rw [TokenBucket.call, tryConsume_of_pos hc]
      split <;> simp
  | setRate newRate => simp [TokenBucket.call]
  | setBurstSize newBurstSize => simp [TokenBucket.call, setBurstSize]
  | getAvailableTokens => simp [TokenBucket.call, getAvailableTokens]

/-- **The same from a moment on**: whatever each bucket settled before,
they are equal once refilled at any reading from then. -/
structure SameFrom (b b' : TokenBucket ℚ) (lo : TimePoint) : Prop where
  wf : b.Wf
  wf' : b'.Wf
  settled : b.lastRefillTime ≤ lo
  settled' : b'.lastRefillTime ≤ lo
  refill_eq : ∀ now, lo ≤ now → b.refillLocked now = b'.refillLocked now

theorem sameFrom_new (rate burst : ℚ) (opened : TimePoint) :
    SameFrom (new rate burst opened) (new rate burst opened) opened where
  wf := wf_new rate burst opened
  wf' := wf_new rate burst opened
  settled := le_rfl
  settled' := le_rfl
  refill_eq _ _ := rfl

variable {lo : TimePoint}

/-- An idle call on one of them. -/
theorem SameFrom.idle (h : SameFrom b b' lo) (hlo : lo ≤ now) {call : BucketCall ℚ}
    (hidle : b.IsIdle call now) : SameFrom (b.call call now).2 b' now where
  wf := wf_call h.wf call now
  wf' := h.wf'
  settled := call_lastRefillTime_le (h.settled.trans hlo) call
  settled' := h.settled'.trans hlo
  refill_eq u hu := by
    have hsame := h.refill_eq u (hlo.trans hu)
    rcases call_snd_of_isIdle h.wf hidle with heq | heq
    · rw [heq, hsame]
    · rw [heq, refillLocked_refillLocked h.wf (h.settled.trans hlo) hu, hsame]

/-- A call on both: they answer alike and stay the same. -/
theorem SameFrom.call (h : SameFrom b b' lo) (hlo : lo ≤ now) (call : BucketCall ℚ) :
    (b.call call now).1 = (b'.call call now).1 ∧
      SameFrom (b.call call now).2 (b'.call call now).2 now := by
  obtain ⟨hans, hleft⟩ := call_congr (h.refill_eq now hlo) call
  refine ⟨hans, wf_call h.wf call now, wf_call h.wf' call now,
    call_lastRefillTime_le (h.settled.trans hlo) call,
    call_lastRefillTime_le (h.settled'.trans hlo) call, fun u hu => ?_⟩
  rcases hleft with heq | ⟨heq, heq'⟩
  · rw [heq]
  · rw [heq, heq', h.refill_eq u (hlo.trans hu)]

/-- **Looking at a bucket, being refused by it, or re-applying its settings
costs nothing.** In a trace whose readings do not go back from the
constructor's on, the calls that were not inserted are answered as if
those that were had not been made. -/
theorem originalAnswers_eq_of_insertedIdle (rate burst : ℚ) (opened : TimePoint)
    (trace : List (Bool × BucketCall ℚ × TimePoint))
    (hclock : (opened :: trace.map fun input => input.2.2).Pairwise (· ≤ ·))
    (hidle : (new rate burst opened).InsertedIdle trace) :
    machine.originalAnswers (new rate burst opened) trace =
      (machine.run (new rate burst opened) (AnsweringMachine.originals trace)).1 := by
  let Rel (b b' : TokenBucket ℚ) (trace : List (Bool × BucketCall ℚ × TimePoint)) : Prop :=
    ∃ lo, SameFrom b b' lo ∧ (lo :: trace.map fun input => input.2.2).Pairwise (· ≤ ·) ∧
      b.InsertedIdle trace
  refine machine.originalAnswers_eq_of_stuttering Rel ?_ ?_ trace _ _
    ⟨opened, sameFrom_new rate burst opened, hclock, hidle⟩
  · rintro b b' ⟨call, now⟩ rest ⟨lo, hsame, hclock, hidle⟩
    obtain ⟨hlo, hclock⟩ := List.pairwise_cons.mp hclock
    exact ⟨now, hsame.idle (hlo now List.mem_cons_self) (hidle.1 rfl), hclock, hidle.2⟩
  · rintro b b' ⟨call, now⟩ rest ⟨lo, hsame, hclock, hidle⟩
    obtain ⟨hlo, hclock⟩ := List.pairwise_cons.mp hclock
    obtain ⟨hans, hsame⟩ := hsame.call (hlo now List.mem_cons_self) call
    exact ⟨hans, now, hsame, hclock, hidle.2⟩

/-- A bucket of rate `2` and burst `4`, looked at, refused and set to what
it is between a consumption and a reading. -/
def watchedTrace : List (Bool × BucketCall ℚ × TimePoint) :=
  [(true, .getAvailableTokens, 0), (false, .tryConsume 3, 500000000),
   (true, .tryConsume 100, 600000000), (true, .setRate 2, 700000000),
   (true, .tryConsume (-1), 700000000), (true, .setBurstSize 4, 900000000),
   (false, .getAvailableTokens, 1000000000)]

theorem watchedTrace_originalAnswers :
    machine.originalAnswers (new 2 4 0) watchedTrace =
      (machine.run (new 2 4 0) (AnsweringMachine.originals watchedTrace)).1 :=
  originalAnswers_eq_of_insertedIdle 2 4 0 watchedTrace (by decide) (by decide +kernel)

end TokenBucket

end Throttling
