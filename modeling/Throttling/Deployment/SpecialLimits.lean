import Throttling.TokenBucket.Helpers.Doubles
import Throttling.Server.Model.ResourceManager
/-!
# What the buckets make of a limit the server accepted

`SetResourceLimit` refuses what is below zero and nothing else, so of the
values a `double` can have it accepts the finite ones from zero on, the
positive infinity and a NaN. The limit is divided among the clients, and
each makes a bucket of its allocation, or changes the rate of the one it
has. Here every value the server accepts is followed through that: the
finite ones as exact rationals, where the bucket is known to stay well
formed; the infinity until a refill finds no time elapsed; the NaN no
further than the allocation.
-/

namespace Throttling

open Extended

namespace ResourceManager

/-- What `GetAllocation` answers once `SetResourceLimit` was given a
limit. -/
def allocationUnder (m : ResourceManager Double) (reg : ClientRegistry) (clientId : ClientId)
    (resourceId : ResourceId) (limit : Double) (now : TimePoint) : Double :=
  ((m.setResourceLimit resourceId limit).2.getAllocation reg clientId resourceId now).1

variable {m : ResourceManager Double} {reg : ClientRegistry} {clientId : ClientId}
variable {resourceId : ResourceId} {limit : Double} {now : TimePoint}

/-- **A limit that was accepted is shared out**, to a client that is
interested. -/
theorem allocationUnder_eq (haccepted : (m.setResourceLimit resourceId limit).1 = true)
    (hinterested : clientId ∈ (reg.getClientsForResource resourceId fun _ => now).1) :
    m.allocationUnder reg clientId resourceId limit now =
      limit / ((reg.getClientsForResource resourceId fun _ => now).1.card : Double) := by
  have hcard := Finset.card_ne_zero_of_mem hinterested
  have hlimit : ¬ limit < 0 := by
    intro hneg
    rw [setResourceLimit, if_pos hneg] at haccepted
    cases haccepted
  have hstored : (m.setResourceLimit resourceId limit).2.resourceLimits[resourceId]? =
      some limit := by
    rw [setResourceLimit, if_neg hlimit, OrderedMap.lookup_insert, if_pos rfl]
  rw [allocationUnder, getAllocation, hstored]
  dsimp only
  rw [if_pos hinterested, if_neg hcard]

end ResourceManager

/-! ## A client's calls under one allocation -/

/-- The calls a client makes of the bucket of a resource while its
allocation stays the same. -/
inductive AllocatedCall where
  | setRate
  | tryConsume (count : ℚ)
  | getAvailableTokens
deriving DecidableEq

namespace AllocatedCall

/-- The call of the bucket. -/
def toBucketCall (allocation : Double) : AllocatedCall → BucketCall Double
  | setRate => .setRate allocation
  | tryConsume count => .tryConsume (finite count)
  | getAvailableTokens => .getAvailableTokens

/-- Whether it refills: a count of zero or less is granted before. -/
def refills : AllocatedCall → Bool
  | tryConsume count => 0 < count
  | setRate | getAvailableTokens => true

end AllocatedCall

/-- A bucket after calls at their readings. -/
def TokenBucket.afterCalls (b : TokenBucket Double) (allocation : Double)
    (calls : List (AllocatedCall × TimePoint)) : TokenBucket Double :=
  calls.foldl (fun bucket call => (bucket.call (call.1.toBucketCall allocation) call.2).2) b

/-- The bucket made of an allocation, after calls. -/
def allocatedBucket (allocation : Double) (opened : TimePoint)
    (calls : List (AllocatedCall × TimePoint)) : TokenBucket Double :=
  (TokenBucket.new allocation (finite (-1)) opened).afterCalls allocation calls

/-- **A well-formed bucket of doubles**: its numbers are numbers, and its
tokens between zero and the cap. -/
structure TokenBucket.WfDouble (b : TokenBucket Double) : Prop where
  rate_ne_nan : b.rate ≠ nan
  burstSize_ne_nan : b.burstSize ≠ nan
  tokens_ne_nan : b.tokens ≠ nan
  tokens_nonneg : 0 ≤ b.tokens
  tokens_le : b.tokens ≤ b.burstSize

/-- **An allocation whose bucket stays well formed** through a sequence of
calls. -/
structure StaysWellFormed (allocation : Double) (opened : TimePoint)
    (calls : List (AllocatedCall × TimePoint)) : Prop where
  nonneg : 0 ≤ allocation
  wellFormed : ∀ k, (allocatedBucket allocation opened (calls.take k)).WfDouble

/-- No call that refills reads the moment of the last refill. -/
def ClockMoves : TimePoint → List (AllocatedCall × TimePoint) → Prop
  | _, [] => True
  | last, (call, now) :: rest =>
    if call.refills then now ≠ last ∧ ClockMoves now rest else ClockMoves last rest

namespace TokenBucket

variable {calls : List (AllocatedCall × TimePoint)}

/-! ## A finite limit -/

/-- A call of a finite bucket is the call at exact rationals. -/
theorem call_map_finite (b : TokenBucket ℚ) (q : ℚ) (call : AllocatedCall) (now : TimePoint) :
    ∃ c : BucketCall ℚ,
      ((b.map finite).call (call.toBucketCall (finite q)) now).2 = (b.call c now).2.map finite := by
  cases call with
  | setRate => exact ⟨.setRate q, setRate_map_finite b q now⟩
  | tryConsume count => exact ⟨.tryConsume count, tryConsume_map_finite b count now⟩
  | getAvailableTokens => exact ⟨.getAvailableTokens, refillLocked_map_finite b now⟩

/-- So a well-formed one stays finite and well formed. -/
theorem exists_wf_afterCalls (q : ℚ) (b : TokenBucket ℚ) (hb : b.Wf) :
    ∃ b' : TokenBucket ℚ, b'.Wf ∧ (b.map finite).afterCalls (finite q) calls = b'.map finite := by
  induction calls generalizing b with
  | nil => exact ⟨b, hb, rfl⟩
  | cons call calls ih =>
    obtain ⟨c, hcall⟩ := call_map_finite b q call.1 call.2
    obtain ⟨b', hwf, hrest⟩ := ih (b.call c call.2).2 (wf_call hb c call.2)
    refine ⟨b', hwf, ?_⟩
    rw [← hrest, ← hcall]
    rfl

theorem wfDouble_map_finite {b : TokenBucket ℚ} (hb : b.Wf) : (b.map finite).WfDouble where
  rate_ne_nan := nofun
  burstSize_ne_nan := nofun
  tokens_ne_nan := nofun
  tokens_nonneg := finite_le_finite.mpr hb.tokens_nonneg
  tokens_le := finite_le_finite.mpr hb.tokens_le

/-! ## An infinite one -/

theorem wfDouble_boundless (now : TimePoint) : (boundless now).WfDouble where
  rate_ne_nan := nofun
  burstSize_ne_nan := nofun
  tokens_ne_nan := nofun
  tokens_nonneg := finite_le_posInf
  tokens_le := posInf_le_posInf

/-- A call that does not refill leaves a bucket as it is. -/
theorem call_of_not_refills (b : TokenBucket Double) (allocation : Double) {call : AllocatedCall}
    (h : call.refills = false) (now : TimePoint) :
    (b.call (call.toBucketCall allocation) now).2 = b := by
  cases call with
  | tryConsume count =>
    have hcount : (finite count : Double) ≤ 0 :=
      finite_le_finite.mpr (not_lt.mp (of_decide_eq_false h))
    change (b.tryConsume (finite count) now).2 = b
    rw [tryConsume, if_pos hcount]
  | setRate => cases h
  | getAvailableTokens => cases h

/-- **One that refills, at another moment** than the last refill, leaves
the infinite bucket infinite. -/
theorem call_boundless {call : AllocatedCall} (hrefills : call.refills = true)
    {last now : TimePoint} (hmoved : now ≠ last) :
    ((boundless last).call (call.toBucketCall posInf) now).2 = boundless now := by
  have hrefill := refillLocked_boundless hmoved
  cases call with
  | setRate =>
    have hrate : stdMax (0 : Double) posInf = posInf := if_pos finite_lt_posInf
    change (boundless last).setRate posInf now = boundless now
    rw [setRate, hrefill, hrate]
    rfl
  | tryConsume count =>
    have hcount : ¬ (finite count : Double) ≤ 0 :=
      finite_le_finite.not.mpr (not_le.mpr (of_decide_eq_true hrefills))
    change ((boundless last).tryConsume (finite count) now).2 = boundless now
    rw [tryConsume, if_neg hcount, hrefill]
    have henough : finite count ≤ (boundless now).tokens := finite_le_posInf
    dsimp only
    rw [if_pos henough]
    rfl
  | getAvailableTokens => exact hrefill

/-- **At the moment of the last refill** it leaves no number of tokens. -/
theorem call_boundless_self {call : AllocatedCall} (hrefills : call.refills = true)
    (now : TimePoint) :
    ((boundless now).call (call.toBucketCall posInf) now).2.tokens = nan := by
  have hrefill := refillLocked_boundless_self now
  cases call with
  | setRate => exact hrefill
  | tryConsume count =>
    have hcount : ¬ (finite count : Double) ≤ 0 :=
      finite_le_finite.not.mpr (not_le.mpr (of_decide_eq_true hrefills))
    have henough : ¬ finite count ≤ ((boundless now).refillLocked now).tokens := by
      rw [hrefill]
      exact not_le_nan _
    change ((boundless now).tryConsume (finite count) now).2.tokens = nan
    rw [tryConsume, if_neg hcount]
    dsimp only
    rw [if_neg henough]
    exact hrefill
  | getAvailableTokens => exact hrefill

/-- What holds all along a sequence of calls holds before the first and
all along the rest. -/
theorem forall_afterCalls_cons {P : TokenBucket Double → Prop} {b : TokenBucket Double}
    {allocation : Double} {call : AllocatedCall} {now : TimePoint} :
    (∀ k, P (b.afterCalls allocation (((call, now) :: calls).take k))) ↔
      P b ∧ ∀ k, P ((b.call (call.toBucketCall allocation) now).2.afterCalls allocation
        (calls.take k)) := by
  constructor
  · intro h
    exact ⟨h 0, fun k => h (k + 1)⟩
  · rintro ⟨hfirst, hrest⟩ k
    cases k with
    | zero => exact hfirst
    | succ k => exact hrest k

/-- **The infinite bucket stays well formed** as long as every refill finds
that the clock has moved. -/
theorem forall_wfDouble_boundless_iff (last : TimePoint) :
    (∀ k, ((boundless last).afterCalls posInf (calls.take k)).WfDouble) ↔
      ClockMoves last calls := by
  induction calls generalizing last with
  | nil =>
    refine iff_of_true (fun k => ?_) trivial
    rw [List.take_nil]
    exact wfDouble_boundless last
  | cons call calls ih =>
    obtain ⟨call, now⟩ := call
    rw [forall_afterCalls_cons, ClockMoves]
    by_cases hrefills : call.refills = true
    · rw [if_pos hrefills]
      by_cases hmoved : now = last
      · subst hmoved
        -- the refill at `now` has left a NaN, with the first call already
        refine iff_of_false (fun h => ?_) fun h => h.1 rfl
        exact (h.2 0).tokens_ne_nan (call_boundless_self hrefills now)
      · rw [call_boundless hrefills hmoved, ih now]
        exact ⟨fun h => ⟨hmoved, h.2⟩, fun h => ⟨wfDouble_boundless last, h.2⟩⟩
    · rw [if_neg hrefills, call_of_not_refills _ _ (Bool.eq_false_iff.mpr hrefills), ih last]
      exact ⟨fun h => h.2, fun h => ⟨wfDouble_boundless last, h⟩⟩

end TokenBucket

/-! ## Every limit -/

variable {opened : TimePoint} {calls : List (AllocatedCall × TimePoint)}

theorem staysWellFormed_finite {q : ℚ} (hq : 0 ≤ q) : StaysWellFormed (finite q) opened calls where
  nonneg := finite_le_finite.mpr hq
  wellFormed k := by
    obtain ⟨b, hwf, hb⟩ := TokenBucket.exists_wf_afterCalls q (TokenBucket.new q (-1) opened)
      (TokenBucket.wf_new q (-1) opened)
    rw [allocatedBucket, TokenBucket.new_finite, hb]
    exact TokenBucket.wfDouble_map_finite hwf

theorem staysWellFormed_posInf_iff : StaysWellFormed posInf opened calls ↔
    ClockMoves opened calls := by
  rw [← TokenBucket.forall_wfDouble_boundless_iff, ← TokenBucket.new_posInf]
  exact ⟨fun h => h.wellFormed, fun h => ⟨finite_le_posInf, h⟩⟩

theorem not_staysWellFormed_nan : ¬ StaysWellFormed nan opened calls :=
  fun h => not_le_nan _ h.nonneg

/-- **The limits the server accepts, and the buckets made of them.** The
allocation is not negative and its bucket stays well formed exactly under
a finite limit, or under an infinite one while no refill finds the clock
where the last one left it. -/
theorem staysWellFormed_iff (m : ResourceManager Double) (reg : ClientRegistry)
    (clientId : ClientId) (resourceId : ResourceId) (limit : Double) (now : TimePoint)
    (haccepted : (m.setResourceLimit resourceId limit).1 = true)
    (hinterested : clientId ∈ (reg.getClientsForResource resourceId fun _ => now).1)
    (opened : TimePoint) (calls : List (AllocatedCall × TimePoint)) :
    StaysWellFormed (m.allocationUnder reg clientId resourceId limit now) opened calls ↔
      (∃ q : ℚ, limit = finite q) ∨ (limit = posInf ∧ ClockMoves opened calls) := by
  have hpos : 0 < (((reg.getClientsForResource resourceId fun _ => now).1.card : ℕ) : ℚ) :=
    Nat.cast_pos.mpr (Finset.card_pos.mpr ⟨clientId, hinterested⟩)
  have hnonneg : ¬ limit < 0 := by
    intro hneg
    rw [ResourceManager.setResourceLimit, if_pos hneg] at haccepted
    cases haccepted
  rw [ResourceManager.allocationUnder_eq haccepted hinterested, natCast_def]
  obtain ⟨q, hq, rfl⟩ | rfl | rfl := eq_of_not_lt_zero hnonneg
  · rw [finite_div_finite hpos.ne']
    exact iff_of_true (staysWellFormed_finite (div_nonneg hq hpos.le)) (.inl ⟨q, rfl⟩)
  · rw [posInf_div_finite hpos, staysWellFormed_posInf_iff]
    simp
  · rw [nan_div]
    exact iff_of_false not_staysWellFormed_nan (by simp)

/-! ## The values that break it -/

/-- A registry with one client, interested in one resource. -/
def oneInterested : ClientRegistry :=
  let registered := ((ClientRegistry.new 30).registerClient "a" (fun _ => 0) 0).2
  (registered.heartbeat "a" {1} (fun _ => 0) 0).2

theorem mem_oneInterested :
    "a" ∈ (oneInterested.getClientsForResource 1 fun _ => 0).1 := by
  decide +kernel

/-- An infinite limit under a clock that moves. -/
theorem posInf_staysWellFormed :
    StaysWellFormed (ResourceManager.new.allocationUnder oneInterested "a" 1 posInf 0) 0
      [(.tryConsume 1, 5), (.setRate, 7), (.getAvailableTokens, 6)] :=
  (staysWellFormed_iff .new oneInterested "a" 1 posInf 0 rfl mem_oneInterested 0 _).mpr
    (.inr ⟨rfl, by simp [ClockMoves, AllocatedCall.refills]⟩)

/-- **A NaN is accepted, and so is an infinity.** The first is an
allocation that is not zero or more; the bucket of the second, looked at
in the instant it was made, holds no number of tokens. -/
theorem special_limits_accepted :
    ((ResourceManager.new.setResourceLimit 1 (nan : Double)).1 = true ∧
        ¬ 0 ≤ ResourceManager.new.allocationUnder oneInterested "a" 1 nan 0) ∧
      ((ResourceManager.new.setResourceLimit 1 (posInf : Double)).1 = true ∧
        (allocatedBucket (ResourceManager.new.allocationUnder oneInterested "a" 1 posInf 0) 0
          [(.getAvailableTokens, 0)]).tokens = nan) := by
  decide +kernel

end Throttling
