import Throttling.Client.Model.Interleaving
/-!
# The map of buckets

What the loops of `UpdateTokenBuckets` leave, as a lookup: the listed
resources and no other, each with its bucket changed or a new one. And
what a consumption leaves: the same buckets under the same identities.
-/

namespace Throttling

/-! ## Applying allocations -/

/-- **The loops of `UpdateTokenBuckets`.** An entry is left for exactly the
resources listed. -/
theorem lookup_updateBuckets {β : Type} (setRate : ResourceId → β → ℚ → β)
    (create : ResourceId → ℚ → β) (allocations : OrderedMap ResourceId ℚ)
    (tokenBuckets : OrderedMap ResourceId β) (r : ResourceId) :
    (updateBuckets setRate create allocations tokenBuckets)[r]? =
      (allocations[r]?).map fun rate =>
        match tokenBuckets[r]? with
        | some bucket => setRate r bucket rate
        | none => create r rate := by
  rw [updateBuckets, OrderedMap.lookup_foldl_erase (· ∈ allocations), OrderedMap.lookup_foldl_map]
  cases hr : allocations[r]? with
  | some rate =>
    have hmem : r ∈ allocations := OrderedMap.mem_iff_exists.mpr ⟨rate, hr⟩
    rw [if_neg fun h => h.2 hmem]
    dsimp only [Option.map_some]
    cases tokenBuckets[r]? <;> rfl
  | none =>
    have hmem : r ∉ allocations := OrderedMap.not_mem_iff.mpr hr
    rw [Option.map_none]
    split
    · rfl
    · -- a key the erasing loop did not visit was not in the map to begin with
      rename_i hnot
      rw [Std.ExtTreeMap.mem_keys] at hnot
      have habsent := OrderedMap.not_mem_iff.mp fun h => hnot ⟨h, hmem⟩
      rw [OrderedMap.lookup_foldl_map, hr] at habsent
      exact habsent

namespace ClientThreads

variable {s s' : ClientThreads}

/-- A bucket is registered for the resource it was made for. -/
theorem resourceId_of_registered {r : ResourceId} {ref : BucketRef}
    (h : s.registered r = some ref) : ref.resourceId = r := by
  obtain ⟨owned, -, rfl⟩ := Option.map_eq_some_iff.mp h
  rfl

/-- A listed resource keeps the bucket it has. -/
theorem registered_updateTokenBuckets {r : ResourceId} {ref : BucketRef}
    {now : ResourceId → TimePoint} {allocations : OrderedMap ResourceId ℚ}
    (hlisted : r ∈ allocations) (hreg : s.registered r = some ref) :
    (s.updateTokenBuckets now allocations).registered r = some ref := by
  obtain ⟨rate, hrate⟩ := OrderedMap.mem_iff_exists.mp hlisted
  obtain ⟨owned, howned, hgen⟩ := Option.map_eq_some_iff.mp hreg
  rw [registered, updateTokenBuckets, lookup_updateBuckets, hrate, howned]
  exact congrArg some hgen

/-- An unlisted one has none. -/
theorem registered_updateTokenBuckets_of_not_mem {r : ResourceId} {now : ResourceId → TimePoint}
    {allocations : OrderedMap ResourceId ℚ} (hunlisted : r ∉ allocations) :
    (s.updateTokenBuckets now allocations).registered r = none := by
  rw [registered, updateTokenBuckets, lookup_updateBuckets, OrderedMap.not_mem_iff.mp hunlisted]
  rfl

/-! ## Consuming -/

/-- Consuming from a bucket leaves every bucket its identity. -/
theorem generation_consumeFrom (tokenBuckets : OrderedMap ResourceId OwnedBucket) (ref : BucketRef)
    (count : ℚ) (now : TimePoint) (freed : Bool) (r : ResourceId) :
    ((consumeFrom tokenBuckets ref count now freed).2[r]?).map OwnedBucket.generation =
      (tokenBuckets[r]?).map OwnedBucket.generation := by
  unfold consumeFrom
  cases howned : tokenBuckets[ref.resourceId]? with
  | none => rfl
  | some owned =>
    dsimp only
    split
    · rw [OrderedMap.lookup_insert]
      by_cases hr : ref.resourceId = r
      · subst hr
        rw [if_pos rfl, howned]
        rfl
      · rw [if_neg hr]
    · rfl

/-- The buckets registered are read off the identities. -/
theorem registered_eq (s : ClientThreads) (r : ResourceId) :
    s.registered r =
      ((s.tokenBuckets[r]?).map OwnedBucket.generation).map fun generation => ⟨r, generation⟩ := by
  rw [registered, Option.map_map]
  rfl

end ClientThreads

end Throttling
