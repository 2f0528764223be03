import Throttling.Server.Model.Service
import Throttling.Registry.Helpers.Index
import Mathlib.Algebra.BigOperators.Finprod
import Mathlib.Tactic.FieldSimp
/-!
# The queries, over one expiry pass

At one clock reading every allocation query is an expiry pass and then a
pure reading of what it leaves, `share`: a second pass at the same
reading finds nobody. So the loop of `GetAllAllocations`, which runs a
pass for each interest, computes all its shares on one registry.
-/

namespace Throttling

/-- A count below `2 ^ 31` is reported as it is. -/
theorem toInt32_of_lt {n : ℕ} (h : n < 2 ^ 31) : toInt32 n = n := by
  unfold toInt32
  exact Int.bmod_eq_of_le (by omega) (by omega)

namespace ResourceManager

open ClientRegistry

variable {m : ResourceManager ℚ} {reg : ClientRegistry} {c : ClientId} {r : ResourceId}
variable {now : TimePoint}

/-- A client's share of a resource, read off a registry as it is. -/
def share (m : ResourceManager ℚ) (reg : ClientRegistry) (c : ClientId) (r : ResourceId) : ℚ :=
  match m.resourceLimits[r]? with
  | none => 0
  | some limit =>
    if c ∈ reg.clientsForResourceLocked r then limit / (reg.clientsForResourceLocked r).card
    else 0

/-- `GetAllocation` of a configured resource, its registry query read as
a pass and a lookup. The source's test for no clients never fires: the
client it just found is one. -/
theorem getAllocation_of_configured {limit : ℚ} (h : m.resourceLimits[r]? = some limit) :
    m.getAllocation reg c r now = (m.share (expiredAt reg now) c r, expiredAt reg now) := by
  rw [getAllocation, share, h]
  change (if c ∈ (expiredAt reg now).clientsForResourceLocked r then
      if ((expiredAt reg now).clientsForResourceLocked r).card = 0 then (0, expiredAt reg now)
      else (limit / (((expiredAt reg now).clientsForResourceLocked r).card : ℚ), expiredAt reg now)
    else (0, expiredAt reg now)) = _
  split_ifs with hc hcard
  · exact absurd hcard (Finset.card_ne_zero_of_mem hc)
  · rfl
  · rfl

/-- And of one that is not: no registry query is made. -/
theorem getAllocation_of_unconfigured (h : m.resourceLimits[r]? = none) :
    m.getAllocation reg c r now = (0, reg) := by
  rw [getAllocation, h]

/-- **`GetAllocation` is a share of what the pass leaves.** -/
theorem getAllocation_fst (m : ResourceManager ℚ) (reg : ClientRegistry) (c : ClientId)
    (r : ResourceId) (now : TimePoint) :
    (m.getAllocation reg c r now).1 = m.share (expiredAt reg now) c r := by
  cases h : m.resourceLimits[r]? with
  | none => rw [getAllocation_of_unconfigured h, share, h]
  | some limit => rw [getAllocation_of_configured h]

/-- On a registry the pass has run over, a query leaves it as it is. -/
theorem getAllocation_snd_expiredAt (m : ResourceManager ℚ) (reg : ClientRegistry) (c : ClientId)
    (r : ResourceId) (now : TimePoint) :
    (m.getAllocation (expiredAt reg now) c r now).2 = expiredAt reg now := by
  cases h : m.resourceLimits[r]? with
  | none => rw [getAllocation_of_unconfigured h]
  | some limit => rw [getAllocation_of_configured h, expiredAt_expiredAt]

/-- The shares of a set of resources, read off a registry as it is. -/
def shares (m : ResourceManager ℚ) (reg : ClientRegistry) (c : ClientId)
    (rs : Finset ResourceId) : OrderedMap ResourceId ℚ :=
  rs.ascending.foldl (fun allocations r => allocations.insert r (m.share reg c r)) ∅

theorem lookup_shares (m : ResourceManager ℚ) (reg : ClientRegistry) (c : ClientId)
    (rs : Finset ResourceId) (r : ResourceId) :
    (m.shares reg c rs)[r]? = if r ∈ rs then some (m.share reg c r) else none := by
  rw [shares, OrderedMap.lookup_foldl_insert (fun r => m.share reg c r) r]
  simp

/-- **`GetAllAllocations` computes every share on one registry**, and
leaves that one. -/
theorem getAllAllocations_eq (m : ResourceManager ℚ) (reg : ClientRegistry) (c : ClientId)
    (now : TimePoint) :
    m.getAllAllocations reg c now =
      (m.shares (expiredAt reg now) c ((expiredAt reg now).interestedResourcesLocked c),
        expiredAt reg now) := by
  have key : ∀ (rs : List ResourceId) (acc : OrderedMap ResourceId ℚ),
      rs.foldl (fun state r => (state.1.insert r (m.getAllocation state.2 c r now).1,
          (m.getAllocation state.2 c r now).2)) (acc, expiredAt reg now) =
        (rs.foldl (fun acc r => acc.insert r (m.share (expiredAt reg now) c r)) acc,
          expiredAt reg now) := by
    intro rs
    induction rs with
    | nil => intro acc; rfl
    | cons r rs ih =>
      intro acc
      simp only [List.foldl_cons]
      -- the pass of each query meets a registry the first pass left
      rw [getAllocation_fst, getAllocation_snd_expiredAt, expiredAt_expiredAt]
      exact ih _
  exact key _ _

/-! ## What the shares of a resource add up to -/

theorem share_of_unconfigured (h : m.resourceLimits[r]? = none) : m.share reg c r = 0 := by
  simp [share, h]

theorem share_of_mem {limit : ℚ} (h : m.resourceLimits[r]? = some limit)
    (hc : c ∈ reg.clientsForResourceLocked r) :
    m.share reg c r = limit / (reg.clientsForResourceLocked r).card := by
  simp [share, h, hc]

theorem share_of_not_mem (hc : c ∉ reg.clientsForResourceLocked r) : m.share reg c r = 0 := by
  unfold share
  split
  · rfl
  · rw [if_neg hc]

/-- **The shares of a resource somebody is interested in add up to its
limit.** -/
theorem sum_share {limit : ℚ} (h : m.resourceLimits[r]? = some limit)
    (hne : (reg.clientsForResourceLocked r).Nonempty) :
    ∑ c ∈ reg.clientsForResourceLocked r, m.share reg c r = limit := by
  have hcard : ((reg.clientsForResourceLocked r).card : ℚ) ≠ 0 :=
    Nat.cast_ne_zero.mpr (Finset.card_ne_zero.mpr hne)
  rw [Finset.sum_congr rfl fun c hc => share_of_mem h hc, Finset.sum_const, nsmul_eq_mul]
  field_simp

/-- The same, over every id there is. -/
theorem finsum_share {limit : ℚ} (h : m.resourceLimits[r]? = some limit)
    (hne : (reg.clientsForResourceLocked r).Nonempty) :
    ∑ᶠ c : ClientId, m.share reg c r = limit := by
  rw [finsum_eq_sum_of_support_subset (s := reg.clientsForResourceLocked r), sum_share h hne]
  intro c hc
  by_contra hnot
  exact hc (share_of_not_mem hnot)

end ResourceManager

end Throttling
