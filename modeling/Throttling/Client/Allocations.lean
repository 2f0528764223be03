import Throttling.Client.Helpers.Runs
/-!
# Applying a map of allocations

`UpdateTokenBuckets` at one reading of the clock: which buckets there are
afterwards, at what rates, and with which tokens. Nothing is asked of the
buckets there were but that they were refilled by then; what the call
leaves is then settled, so that a second call finds nothing to do.
-/

namespace Throttling

namespace TokenBucket

variable {b : TokenBucket ℚ} {now : TimePoint}

/-! ## One bucket -/

/-- **A change of rate keeps what was earned at the old one**, and adds
nothing. -/
theorem available_setRate (h : b.lastRefillTime ≤ now) (rate : ℚ) :
    ((b.setRate rate now).getAvailableTokens now).1 = (b.getAvailableTokens now).1 := by
  have hcap : (b.setRate rate now).tokens ≤ (b.setRate rate now).burstSize := by
    rw [setRate_tokens, setRate_burstSize]
    exact refillLocked_tokens_le_burstSize h
  rw [getAvailableTokens_fst, getAvailableTokens_fst,
    refillLocked_eq_self (setRate_lastRefillTime b rate now) hcap, setRate_tokens]

/-- The rate it has already, at the moment of the last refill, changes
nothing. -/
theorem setRate_eq_self (hlast : b.lastRefillTime = now) (hcap : b.tokens ≤ b.burstSize)
    {rate : ℚ} (hrate : b.rate = max 0 rate) : b.setRate rate now = b := by
  refine TokenBucket.ext ?_ (setRate_burstSize b rate now) ?_ ?_
  · rw [setRate_rate, hrate]
  · rw [setRate_tokens, refillLocked_eq_self hlast hcap]
  · rw [setRate_lastRefillTime, hlast]

/-- A second change to the same rate at the same moment changes nothing. -/
theorem setRate_setRate (h : b.lastRefillTime ≤ now) (rate : ℚ) :
    (b.setRate rate now).setRate rate now = b.setRate rate now := by
  refine setRate_eq_self (setRate_lastRefillTime b rate now) ?_ (setRate_rate b rate now)
  rw [setRate_tokens, setRate_burstSize]
  exact refillLocked_tokens_le_burstSize h

/-- Nor does one to the rate a bucket was just made with. -/
theorem setRate_new (rate : ℚ) (now : TimePoint) :
    (new rate (-1) now).setRate rate now = new rate (-1) now :=
  setRate_eq_self rfl le_rfl (new_rate rate (-1) now)

/-- A bucket made with the default burst starts with a second's worth. -/
theorem tokens_new_default {rate : ℚ} (hrate : 0 ≤ rate) (now : TimePoint) :
    (new rate (-1) now).tokens = rate := by
  rw [new_tokens, new_burstSize, if_pos (by norm_num), max_eq_right hrate]

theorem available_new_default {rate : ℚ} (hrate : 0 ≤ rate) (now : TimePoint) :
    ((new rate (-1) now).getAvailableTokens now).1 = rate := by
  rw [getAvailableTokens_fst, refillLocked_eq_self (new_lastRefillTime rate (-1) now) le_rfl,
    tokens_new_default hrate]

end TokenBucket

namespace Client

variable {c : Client} {allocations : OrderedMap ResourceId ℚ} {now : TimePoint} {r : ResourceId}

/-- `UpdateTokenBuckets`, every bucket reading the clock at one moment. -/
def applyAt (c : Client) (now : TimePoint) (allocations : OrderedMap ResourceId ℚ) : Client :=
  c.updateTokenBuckets (fun _ => now) allocations

/-- The clock has read no later moment than this. -/
def ReadBy (c : Client) (now : TimePoint) : Prop :=
  ∀ (r : ResourceId) (b : TokenBucket ℚ), c.tokenBuckets[r]? = some b → b.lastRefillTime ≤ now

/-! ## The map of buckets -/

/-- What is left of a listed resource with a bucket. -/
theorem lookup_applyAt_of_some {b : TokenBucket ℚ} {rate : ℚ}
    (hbucket : c.tokenBuckets[r]? = some b) (hlisted : allocations[r]? = some rate) :
    (c.applyAt now allocations).tokenBuckets[r]? = some (b.setRate rate now) := by
  rw [applyAt, lookup_updateTokenBuckets, hlisted, hbucket]
  rfl

/-- Of one without. -/
theorem lookup_applyAt_of_none {rate : ℚ} (hbucket : c.tokenBuckets[r]? = none)
    (hlisted : allocations[r]? = some rate) :
    (c.applyAt now allocations).tokenBuckets[r]? = some (TokenBucket.new rate (-1) now) := by
  rw [applyAt, lookup_updateTokenBuckets, hlisted, hbucket]
  rfl

/-- And of one that is not listed. -/
theorem lookup_applyAt_of_not_mem (hunlisted : r ∉ allocations) :
    (c.applyAt now allocations).tokenBuckets[r]? = none := by
  rw [applyAt, lookup_updateTokenBuckets, OrderedMap.not_mem_iff.mp hunlisted]
  rfl

/-- The resources with a bucket are the listed ones. -/
theorem mem_applyAt : r ∈ (c.applyAt now allocations).tokenBuckets ↔ r ∈ allocations := by
  constructor
  · intro hmem
    by_contra hunlisted
    exact OrderedMap.not_mem_iff.mpr (lookup_applyAt_of_not_mem hunlisted) hmem
  · intro hlisted
    obtain ⟨rate, hrate⟩ := OrderedMap.mem_iff_exists.mp hlisted
    cases hbucket : c.tokenBuckets[r]? with
    | some b => exact OrderedMap.mem_iff_exists.mpr ⟨_, lookup_applyAt_of_some hbucket hrate⟩
    | none => exact OrderedMap.mem_iff_exists.mpr ⟨_, lookup_applyAt_of_none hbucket hrate⟩

/-- Their rates are the ones listed. -/
theorem getAllocation_applyAt {rate : ℚ} (hrate : 0 ≤ rate)
    (hlisted : allocations[r]? = some rate) :
    (c.applyAt now allocations).getAllocation r = rate := by
  cases hbucket : c.tokenBuckets[r]? with
  | some b =>
    rw [getAllocation, lookup_applyAt_of_some hbucket hlisted]
    exact (TokenBucket.setRate_rate b rate now).trans (max_eq_right hrate)
  | none =>
    rw [getAllocation, lookup_applyAt_of_none hbucket hlisted]
    exact (TokenBucket.new_rate rate (-1) now).trans (max_eq_right hrate)

theorem getAllocation_applyAt_of_not_mem (hunlisted : r ∉ allocations) :
    (c.applyAt now allocations).getAllocation r = 0 := by
  rw [getAllocation, lookup_applyAt_of_not_mem hunlisted]

/-- A second application finds nothing to do. -/
theorem applyAt_applyAt (hclock : c.ReadBy now) :
    (c.applyAt now allocations).applyAt now allocations = c.applyAt now allocations := by
  have hbuckets : ((c.applyAt now allocations).applyAt now allocations).tokenBuckets =
      (c.applyAt now allocations).tokenBuckets := by
    refine Std.ExtTreeMap.ext_getElem? fun r => ?_
    cases hlisted : allocations[r]? with
    | none =>
      have hunlisted := OrderedMap.not_mem_iff.mpr hlisted
      rw [lookup_applyAt_of_not_mem hunlisted, lookup_applyAt_of_not_mem hunlisted]
    | some rate =>
      cases hbucket : c.tokenBuckets[r]? with
      | some b =>
        have hfirst : (c.applyAt now allocations).tokenBuckets[r]? = some (b.setRate rate now) :=
          lookup_applyAt_of_some hbucket hlisted
        rw [lookup_applyAt_of_some hfirst hlisted, hfirst,
          TokenBucket.setRate_setRate (hclock r b hbucket)]
      | none =>
        have hfirst : (c.applyAt now allocations).tokenBuckets[r]? =
            some (TokenBucket.new rate (-1) now) := lookup_applyAt_of_none hbucket hlisted
        rw [lookup_applyAt_of_some hfirst hlisted, hfirst, TokenBucket.setRate_new]
  -- the queue and the record of grants are not the map's
  have hrest : (c.applyAt now allocations).applyAt now allocations =
      { c.applyAt now allocations with
        tokenBuckets := ((c.applyAt now allocations).applyAt now allocations).tokenBuckets } := rfl
  rw [hrest, hbuckets]

/-! ## The call -/

/-- **Applying an allocation map is exact and conserves tokens.** The
buckets are those of the resources listed, at the rates listed; a bucket
that stays has the tokens it had, a new one a second's worth; and the
same map again changes nothing. -/
theorem applyAt_exact_and_conserving (c : Client) (allocations : OrderedMap ResourceId ℚ)
    (now : TimePoint)
    (hnonneg : ∀ (r : ResourceId) (rate : ℚ), allocations[r]? = some rate → 0 ≤ rate)
    (hclock : c.ReadBy now) :
    (∀ r, r ∈ (c.applyAt now allocations).tokenBuckets ↔ r ∈ allocations) ∧
      (∀ (r : ResourceId) (rate : ℚ), allocations[r]? = some rate →
        (c.applyAt now allocations).getAllocation r = rate) ∧
      (∀ r, r ∉ allocations → (c.applyAt now allocations).getAllocation r = 0) ∧
      (∀ (r : ResourceId) (b b' : TokenBucket ℚ), c.tokenBuckets[r]? = some b →
        (c.applyAt now allocations).tokenBuckets[r]? = some b' →
        (b'.getAvailableTokens now).1 = (b.getAvailableTokens now).1) ∧
      (∀ (r : ResourceId) (rate : ℚ) (b' : TokenBucket ℚ), c.tokenBuckets[r]? = none →
        allocations[r]? = some rate → (c.applyAt now allocations).tokenBuckets[r]? = some b' →
        b'.tokens = rate ∧ (b'.getAvailableTokens now).1 = rate) ∧
      (c.applyAt now allocations).applyAt now allocations = c.applyAt now allocations := by
  refine ⟨fun r => mem_applyAt, fun r rate hlisted => ?_,
    fun r hunlisted => getAllocation_applyAt_of_not_mem hunlisted, fun r b b' hb hb' => ?_,
    fun r rate b' hbucket hlisted hb' => ?_, applyAt_applyAt hclock⟩
  · exact getAllocation_applyAt (hnonneg r rate hlisted) hlisted
  · have hmem : r ∈ allocations := mem_applyAt.mp (OrderedMap.mem_iff_exists.mpr ⟨b', hb'⟩)
    obtain ⟨rate, hlisted⟩ := OrderedMap.mem_iff_exists.mp hmem
    obtain rfl := Option.some.inj ((lookup_applyAt_of_some hb hlisted).symm.trans hb')
    exact TokenBucket.available_setRate (hclock r b hb) rate
  · have hrate := hnonneg r rate hlisted
    obtain rfl := Option.some.inj ((lookup_applyAt_of_none hbucket hlisted).symm.trans hb')
    exact ⟨TokenBucket.tokens_new_default hrate now,
      TokenBucket.available_new_default hrate now⟩

/-- The call is the clock's last reading then. -/
theorem readBy_applyAt : (c.applyAt now allocations).ReadBy now := by
  intro r b' hb'
  have hmem : r ∈ allocations := mem_applyAt.mp (OrderedMap.mem_iff_exists.mpr ⟨b', hb'⟩)
  obtain ⟨rate, hlisted⟩ := OrderedMap.mem_iff_exists.mp hmem
  cases hbucket : c.tokenBuckets[r]? with
  | some b =>
    obtain rfl := Option.some.inj ((lookup_applyAt_of_some hbucket hlisted).symm.trans hb')
    exact le_of_eq (TokenBucket.setRate_lastRefillTime b rate now)
  | none =>
    obtain rfl := Option.some.inj ((lookup_applyAt_of_none hbucket hlisted).symm.trans hb')
    exact le_rfl

/-- Two resources at ten a second. -/
def twoListed : Client :=
  new.applyAt 0 (((∅ : OrderedMap ResourceId ℚ).insert 1 10).insert 2 10)

/-- The second dropped, and a third. -/
def nextMap : OrderedMap ResourceId ℚ :=
  ((∅ : OrderedMap ResourceId ℚ).insert 1 20).insert 3 5

theorem nextMap_exact_and_conserving :
    (2 : ResourceId) ∉ (twoListed.applyAt 100000000 nextMap).tokenBuckets ∧
      (twoListed.applyAt 100000000 nextMap).getAllocation 1 = 20 ∧
      (twoListed.applyAt 100000000 nextMap).getAllocation 2 = 0 ∧
      (twoListed.applyAt 100000000 nextMap).applyAt 100000000 nextMap =
        twoListed.applyAt 100000000 nextMap := by
  have hnonneg : ∀ (r : ResourceId) (rate : ℚ), nextMap[r]? = some rate → 0 ≤ rate := by
    intro r rate hrate
    rw [nextMap, OrderedMap.lookup_insert, OrderedMap.lookup_insert] at hrate
    split at hrate
    · simp [← Option.some.inj hrate]
    · split at hrate
      · simp [← Option.some.inj hrate]
      · simp at hrate
  have hclock : twoListed.ReadBy 100000000 := fun r b hb =>
    (readBy_applyAt r b hb).trans (by decide)
  obtain ⟨hkeys, hlisted, hunlisted, -, -, hagain⟩ :=
    applyAt_exact_and_conserving twoListed nextMap 100000000 hnonneg hclock
  have hmem : (2 : ResourceId) ∉ nextMap := by
    simp [nextMap]
  exact ⟨fun h => hmem ((hkeys 2).mp h),
    hlisted 1 20 (by rw [nextMap, OrderedMap.lookup_insert, OrderedMap.lookup_insert]; rfl),
    hunlisted 2 hmem, hagain⟩

end Client

end Throttling
