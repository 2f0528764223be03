import Throttling.Server.Model.Handlers
import Throttling.Server.Helpers.Shares
/-!
# What a handler's section does

One inversion of a handler's section (`Section`), and what it leaves of
each part of the service: the registry, the limits, the other handlers,
and who holds the manager's mutex. Then what every reachable state has:
the mirrored index, limits that are not negative, and a mutex whose
holder is the one handler in the middle of a share.
-/

namespace Throttling

open ClientRegistry

/-! ## Registrations -/

namespace ClientRegistry

variable {reg reg' : ClientRegistry}

theorem lookup_interests (reg : ClientRegistry) (c : ClientId) :
    reg.interests[c]? = (reg.clients[c]?).map ClientInfo.interestedResources :=
  Std.ExtTreeMap.getElem?_map

/-- What is on record for a client is what a query for it finds. -/
theorem interestedResourcesLocked_eq (reg : ClientRegistry) (c : ClientId) :
    reg.interestedResourcesLocked c = (reg.interests[c]?).getD ∅ := by
  rw [lookup_interests, interestedResourcesLocked]
  cases reg.clients[c]? <;> rfl

/-- The interests are on record after the section that records them. -/
theorem lookup_interests_heartbeatLocked {c : ClientId} {ids : Finset ResourceId}
    {info : ClientInfo} (hfound : reg.clients[c]? = some info) (now : TimePoint) :
    (reg.heartbeatLocked c ids now).2.interests[c]? = some ids := by
  rw [lookup_interests, lookup_heartbeatLocked hfound, if_pos rfl]
  rfl

/-- Who is counted for a resource is a matter of the interests. -/
theorem IndexMirrors.mem_clientsForResourceLocked_iff (h : reg.IndexMirrors) {c : ClientId}
    {r : ResourceId} :
    c ∈ reg.clientsForResourceLocked r ↔ ∃ ids, reg.interests[c]? = some ids ∧ r ∈ ids := by
  rw [h.mem_clientsForResourceLocked, interestedResourcesLocked_eq]
  cases reg.interests[c]? <;> simp

theorem IndexMirrors.clientsForResourceLocked_congr (h : reg.IndexMirrors)
    (h' : reg'.IndexMirrors) (hsame : reg.interests = reg'.interests) (r : ResourceId) :
    reg.clientsForResourceLocked r = reg'.clientsForResourceLocked r := by
  ext c
  rw [h.mem_clientsForResourceLocked_iff, h'.mem_clientsForResourceLocked_iff, hsame]

/-- Registries with the same lookups have the same interests. -/
theorem interests_congr (h : ∀ c : ClientId, reg.interests[c]? = reg'.interests[c]?) :
    reg.interests = reg'.interests :=
  Std.ExtTreeMap.ext_getElem? fun {c} => h c

end ClientRegistry

/-! ## The sections -/

namespace ServiceState

variable {s s' : ServiceState} {handler : ℕ} {readings : ClientId → TimePoint} {now : TimePoint}

/-- Some time later. -/
def later (s : ServiceState) (now : TimePoint) : ServiceState := { s with clock := now }

/-- **What a section can be**: where its handler is, and all it changes. -/
inductive Section (s s' : ServiceState) (handler : ℕ) (readings : ClientId → TimePoint)
    (now : TimePoint) : Prop
  | registerSwept {c : ClientId} (hpc : s.handlers handler = .registerExpiring c)
      (heq : s' = ((s.later now).sweep readings).goto handler (.registering c))
  | registered {c : ClientId} (hpc : s.handlers handler = .registering c)
      (heq : s' = { s.later now with registry := (s.registry.registerClientLocked c now).2 }.goto
        handler (.returned .ok))
  | unregisterSwept {c : ClientId} (hpc : s.handlers handler = .unregisterExpiring c)
      (heq : s' = ((s.later now).sweep readings).goto handler (.unregistering c))
  | unregistered {c : ClientId} (hpc : s.handlers handler = .unregistering c)
      (heq : s' = { s.later now with registry := (s.registry.unregisterClientLocked c).2 }.goto
        handler (.returned .ok))
  | limitSet {r : ResourceId} {limit : ℚ} (hfree : s.holder = none)
      (hpc : s.handlers handler = .settingLimit r limit)
      (heq : s' = { s.later now with manager := (s.manager.setResourceLimit r limit).2 }.goto
        handler (.returned .ok))
  | heartbeatSwept {c : ClientId} {ids : Finset ResourceId}
      (hpc : s.handlers handler = .heartbeat c ids .expiring)
      (heq : s' = ((s.later now).sweep readings).goto handler (.heartbeat c ids .recording))
  | notFound {c : ClientId} {ids : Finset ResourceId} (hnone : s.registry.clients[c]? = none)
      (hpc : s.handlers handler = .heartbeat c ids .recording)
      (heq : s' = (s.later now).goto handler (.heartbeat c ids
        (.answered ⟨.notFound, "client not registered"⟩
          { success := false, errorMessage := "client not registered" })))
  | recorded {c : ClientId} {ids : Finset ResourceId} {info : ClientInfo}
      (hfound : s.registry.clients[c]? = some info)
      (hpc : s.handlers handler = .heartbeat c ids .recording)
      (heq : s' = { s.later now with registry := (s.registry.heartbeatLocked c ids now).2 }.goto
        handler (.heartbeat c ids .interestsExpiring))
  | interestsSwept {c : ClientId} {ids : Finset ResourceId}
      (hpc : s.handlers handler = .heartbeat c ids .interestsExpiring)
      (heq : s' = ((s.later now).sweep readings).goto handler (.heartbeat c ids .interestsReading))
  | interestsRead {c : ClientId} {ids : Finset ResourceId}
      (hpc : s.handlers handler = .heartbeat c ids .interestsReading)
      (heq : s' = (s.later now).goto handler (.heartbeat c ids
        (.next (s.registry.interestedResourcesLocked c).ascending ∅)))
  | unconfigured {c : ClientId} {ids : Finset ResourceId} {r : ResourceId}
      {remaining : List ResourceId} {allocations : OrderedMap ResourceId ℚ}
      (hlimit : s.manager.resourceLimits[r]? = none)
      (hpc : s.handlers handler = .heartbeat c ids (.locking r remaining allocations))
      (heq : s' = (s.later now).goto handler (.heartbeat c ids
        (.next remaining (allocations.insert r 0))))
  | locked {c : ClientId} {ids : Finset ResourceId} {r : ResourceId} {limit : ℚ}
      {remaining : List ResourceId} {allocations : OrderedMap ResourceId ℚ}
      (hfree : s.holder = none) (hlimit : s.manager.resourceLimits[r]? = some limit)
      (hpc : s.handlers handler = .heartbeat c ids (.locking r remaining allocations))
      (heq : s' = { s.later now with holder := some handler }.goto handler (.heartbeat c ids
        (.shareExpiring limit r remaining allocations)))
  | shareSwept {c : ClientId} {ids : Finset ResourceId} {r : ResourceId} {limit : ℚ}
      {remaining : List ResourceId} {allocations : OrderedMap ResourceId ℚ}
      (hpc : s.handlers handler = .heartbeat c ids (.shareExpiring limit r remaining allocations))
      (heq : s' = ((s.later now).sweep readings).goto handler (.heartbeat c ids
        (.shareReading limit r remaining allocations)))
  | shareRead {c : ClientId} {ids : Finset ResourceId} {r : ResourceId} {limit : ℚ}
      {remaining : List ResourceId} {allocations : OrderedMap ResourceId ℚ}
      (hpc : s.handlers handler = .heartbeat c ids (.shareReading limit r remaining allocations))
      (heq : s' = { s.later now with holder := none }.goto handler (.heartbeat c ids
        (.next remaining (allocations.insert r
          (ResourceManager.fairShare limit (s.registry.clientsForResourceLocked r) c)))))

/-- The readings of a section lie between two moments. -/
theorem readings_of_admits (h : s.admits readings now = true) :
    s.clock ≤ now ∧ ∀ c info, s.registry.clients[c]? = some info →
      s.clock ≤ readings c ∧ readings c ≤ now := by
  rw [admits, Bool.and_eq_true, decide_eq_true_eq, List.all_eq_true] at h
  refine ⟨h.1, fun c info hinfo => ?_⟩
  have hmem : c ∈ s.registry.clients.keys :=
    Std.ExtTreeMap.mem_keys.mpr (OrderedMap.mem_iff_exists.mpr ⟨info, hinfo⟩)
  exact of_decide_eq_true (h.2 c hmem)

theorem section_of_heartbeatSection {c : ClientId} {ids : Finset ResourceId}
    {stage : HeartbeatStage} (hpc : s.handlers handler = .heartbeat c ids stage)
    (h : (s.later now).heartbeatSection handler c ids readings now stage = some s') :
    Section s s' handler readings now := by
  cases stage with
  | expiring => exact .heartbeatSwept hpc (Option.some.inj h).symm
  | recording =>
    simp only [heartbeatSection] at h
    have hfst := heartbeatLocked_fst (s.later now).registry c ids now
    split at h
    · rename_i hfail
      refine .notFound ?_ hpc (Option.some.inj h).symm
      rw [hfst, Bool.not_eq_true', Option.isSome_eq_false_iff, Option.isNone_iff_eq_none] at hfail
      exact hfail
    · rename_i hsuccess
      rw [hfst, Bool.not_eq_true, Bool.not_eq_false'] at hsuccess
      obtain ⟨info, hinfo⟩ := Option.isSome_iff_exists.mp hsuccess
      exact .recorded hinfo hpc (Option.some.inj h).symm
  | interestsExpiring => exact .interestsSwept hpc (Option.some.inj h).symm
  | interestsReading => exact .interestsRead hpc (Option.some.inj h).symm
  | locking r remaining allocations =>
    simp only [heartbeatSection] at h
    split at h
    · cases h
    · rename_i hfree
      split at h
      · rename_i hlimit
        exact .unconfigured hlimit hpc (Option.some.inj h).symm
      · rename_i limit hlimit
        exact .locked (Option.not_isSome_iff_eq_none.mp hfree) hlimit hpc
          (Option.some.inj h).symm
  | shareExpiring limit r remaining allocations => exact .shareSwept hpc (Option.some.inj h).symm
  | shareReading limit r remaining allocations => exact .shareRead hpc (Option.some.inj h).symm
  | answered status response => cases h

theorem section_of_handlerSection (h : s.handlerSection handler readings now = some s') :
    s.admits readings now = true ∧ Section s s' handler readings now := by
  unfold handlerSection at h
  split at h
  · rename_i hadmits
    refine ⟨hadmits, ?_⟩
    dsimp only at h
    split at h
    · cases h
    · rename_i hpc
      exact .registerSwept hpc (Option.some.inj h).symm
    · rename_i hpc
      exact .registered hpc (Option.some.inj h).symm
    · rename_i hpc
      exact .unregisterSwept hpc (Option.some.inj h).symm
    · rename_i hpc
      exact .unregistered hpc (Option.some.inj h).symm
    · rename_i hpc
      split at h
      · cases h
      · rename_i hfree
        exact .limitSet (Option.not_isSome_iff_eq_none.mp hfree) hpc (Option.some.inj h).symm
    · rename_i hpc
      exact section_of_heartbeatSection hpc h
    · cases h
  · cases h

/-! ## What a section changes -/

@[simp] theorem goto_self (s : ServiceState) (h : ℕ) (pc : HandlerPc) :
    (s.goto h pc).handlers h = pc := Function.update_self _ _ _

theorem goto_of_ne (s : ServiceState) {h k : ℕ} (pc : HandlerPc) (hne : k ≠ h) :
    (s.goto h pc).handlers k = s.handlers k := Function.update_of_ne hne _ _

theorem Section.created (h : Section s s' handler readings now) : s'.created = s.created := by
  cases h <;> · rename_i heq; rw [heq]; rfl

theorem Section.clock (h : Section s s' handler readings now) : s'.clock = now := by
  cases h <;> · rename_i heq; rw [heq]; rfl

/-- **A section moves its own handler alone.** -/
theorem Section.handlers_of_ne (h : Section s s' handler readings now) {k : ℕ}
    (hne : k ≠ handler) : s'.handlers k = s.handlers k := by
  cases h <;> · rename_i heq; rw [heq]; exact goto_of_ne _ _ hne

/-- And the handler stays that of the same request. -/
theorem Section.request (h : Section s s' handler readings now) (k : ℕ) :
    (s'.handlers k).request = (s.handlers k).request := by
  by_cases hne : k = handler
  · subst hne
    cases h <;> · rename_i hpc heq; rw [heq, goto_self, hpc]; rfl
  · rw [h.handlers_of_ne hne]

/-- **What a section does to the registry**: nothing, an expiry pass, or
the own section of one of the three operations. -/
theorem Section.registry (h : Section s s' handler readings now) :
    s'.registry = s.registry ∨ s'.registry = s.registry.expireStaleClients readings ∨
    (∃ c, s'.registry = (s.registry.registerClientLocked c now).2) ∨
    (∃ c, s'.registry = (s.registry.unregisterClientLocked c).2) ∨
    (∃ c ids info, s.handlers handler = .heartbeat c ids .recording ∧
      s.registry.clients[c]? = some info ∧
      s'.handlers handler = .heartbeat c ids .interestsExpiring ∧
      s'.registry = (s.registry.heartbeatLocked c ids now).2) := by
  cases h with
  | registerSwept hpc heq => exact .inr (.inl (by rw [heq]; rfl))
  | registered hpc heq => exact .inr (.inr (.inl ⟨_, by rw [heq]; rfl⟩))
  | unregisterSwept hpc heq => exact .inr (.inl (by rw [heq]; rfl))
  | unregistered hpc heq => exact .inr (.inr (.inr (.inl ⟨_, by rw [heq]; rfl⟩)))
  | limitSet hfree hpc heq => exact .inl (by rw [heq]; rfl)
  | heartbeatSwept hpc heq => exact .inr (.inl (by rw [heq]; rfl))
  | notFound hnone hpc heq => exact .inl (by rw [heq]; rfl)
  | recorded hfound hpc heq =>
    exact .inr (.inr (.inr (.inr ⟨_, _, _, hpc, hfound, by rw [heq, goto_self], by rw [heq]; rfl⟩)))
  | interestsSwept hpc heq => exact .inr (.inl (by rw [heq]; rfl))
  | interestsRead hpc heq => exact .inl (by rw [heq]; rfl)
  | unconfigured hlimit hpc heq => exact .inl (by rw [heq]; rfl)
  | locked hfree hlimit hpc heq => exact .inl (by rw [heq]; rfl)
  | shareSwept hpc heq => exact .inr (.inl (by rw [heq]; rfl))
  | shareRead hpc heq => exact .inl (by rw [heq]; rfl)

/-- **The limits change in one section alone**, and not while the
manager's mutex is held. -/
theorem Section.manager (h : Section s s' handler readings now) :
    s'.manager = s.manager ∨
    (s.holder = none ∧ s'.holder = none ∧
      ∃ r limit, s'.manager = (s.manager.setResourceLimit r limit).2) := by
  cases h with
  | limitSet hfree hpc heq => exact .inr ⟨hfree, by rw [heq]; exact hfree, _, _, by rw [heq]; rfl⟩
  | _ => left; rename_i heq; rw [heq]; rfl

end ServiceState

/-! ## The loop of shares -/

namespace HeartbeatStage

/-- The shares computed so far. -/
def allocations : HeartbeatStage → OrderedMap ResourceId ℚ
  | .locking _ _ allocations => allocations
  | .shareExpiring _ _ _ allocations => allocations
  | .shareReading _ _ _ allocations => allocations
  | .answered _ response => response.allocations
  | _ => ∅

/-- The resources whose share is still to come. -/
def toShare : HeartbeatStage → List ResourceId
  | .locking r remaining _ => r :: remaining
  | .shareExpiring _ r remaining _ => r :: remaining
  | .shareReading _ r remaining _ => r :: remaining
  | _ => []

/-- The limit read under the manager's mutex, while that is held. -/
def limitRead : HeartbeatStage → Option (ResourceId × ℚ)
  | .shareExpiring limit r _ _ => some (r, limit)
  | .shareReading limit r _ _ => some (r, limit)
  | _ => none

/-- The interests were read back, and the answer is or will be `OK`. -/
def readBack : HeartbeatStage → Bool
  | .locking _ _ _ => true
  | .shareExpiring _ _ _ _ => true
  | .shareReading _ _ _ _ => true
  | .answered status _ => decide (status.code = .ok)
  | _ => false

/-- Between the expiry section of a share's query and its own. -/
def swept : HeartbeatStage → Bool
  | .shareReading _ _ _ _ => true
  | _ => false

variable {remaining : List ResourceId} {acc : OrderedMap ResourceId ℚ}

@[simp] theorem allocations_next : (next remaining acc).allocations = acc := by
  cases remaining <;> rfl

@[simp] theorem toShare_next : (next remaining acc).toShare = remaining := by
  cases remaining <;> rfl

@[simp] theorem limitRead_next : (next remaining acc).limitRead = none := by
  cases remaining <;> rfl

@[simp] theorem readBack_next : (next remaining acc).readBack = true := by
  cases remaining <;> rfl

@[simp] theorem swept_next : (next remaining acc).swept = false := by
  cases remaining <;> rfl

@[simp] theorem hasRecorded_next : (next remaining acc).hasRecorded = true := by
  cases remaining <;> rfl

theorem hasRecorded_of_readBack {stage : HeartbeatStage} (h : stage.readBack = true) :
    stage.hasRecorded = true := by
  cases stage <;> first | exact h | rfl

end HeartbeatStage

namespace ServiceState

variable {s s' : ServiceState} {handler : ℕ} {readings : ClientId → TimePoint} {now : TimePoint}

/-! ## What every reachable state has -/

/-- **What the sections keep**: the index mirrors the interests, no limit
and no share is negative, the manager's mutex is held by the handler that
has read a limit, which is still the limit, and nobody has used the
numbers to come. -/
structure Sane (s : ServiceState) : Prop where
  mirrors : s.registry.IndexMirrors
  limits : ∀ (r : ResourceId) (limit : ℚ), s.manager.resourceLimits[r]? = some limit → 0 ≤ limit
  shares : ∀ k c ids stage, s.handlers k = .heartbeat c ids stage →
    ∀ (r : ResourceId) (v : ℚ), stage.allocations[r]? = some v → 0 ≤ v
  mutex : ∀ k c ids stage, s.handlers k = .heartbeat c ids stage →
    ∀ (r : ResourceId) (limit : ℚ), stage.limitRead = some (r, limit) →
      s.holder = some k ∧ s.manager.resourceLimits[r]? = some limit
  fresh : ∀ k, s.created ≤ k → s.handlers k = .idle

theorem sane_init (heartbeatTimeout : ℤ) : Sane (serviceSystem heartbeatTimeout).init where
  mirrors := (indexMirrors_new heartbeatTimeout).congr rfl rfl
  limits r limit h := by simp [serviceSystem, ResourceManager.new] at h
  shares k c ids stage h := by cases h
  mutex k c ids stage h := by cases h
  fresh k _ := rfl

theorem lookup_setResourceLimit_nonneg {m : ResourceManager ℚ} {r : ResourceId} {limit : ℚ}
    (h : ∀ (r : ResourceId) (limit : ℚ), m.resourceLimits[r]? = some limit → 0 ≤ limit)
    {r' : ResourceId} {limit' : ℚ}
    (h' : (m.setResourceLimit r limit).2.resourceLimits[r']? = some limit') : 0 ≤ limit' := by
  rw [ResourceManager.setResourceLimit] at h'
  split at h'
  · exact h _ _ h'
  · rename_i hnonneg
    rw [OrderedMap.lookup_insert] at h'
    split at h'
    · obtain rfl := Option.some.inj h'
      exact not_lt.mp hnonneg
    · exact h _ _ h'

/-! ## Shares -/

theorem fairShare_of_limit {r : ResourceId} {limit : ℚ}
    (h : s.manager.resourceLimits[r]? = some limit) (c : ClientId) :
    s.fairShare c r =
      ResourceManager.fairShare limit (s.registry.clientsForResourceLocked r) c := by
  rw [fairShare, h]
  rfl

theorem fairShare_of_unconfigured {r : ResourceId} (h : s.manager.resourceLimits[r]? = none)
    (c : ClientId) : s.fairShare c r = 0 := by
  rw [fairShare, h, ResourceManager.fairShare]
  split_ifs <;> simp

/-- A share is the one the uninterrupted `GetAllocation` gives. -/
theorem fairShare_eq_share (s : ServiceState) (c : ClientId) (r : ResourceId) :
    s.fairShare c r = s.manager.share s.registry c r := by
  cases hlimit : s.manager.resourceLimits[r]? with
  | none => rw [fairShare_of_unconfigured hlimit, ResourceManager.share_of_unconfigured hlimit]
  | some limit =>
    rw [fairShare_of_limit hlimit, ResourceManager.fairShare]
    by_cases hc : c ∈ s.registry.clientsForResourceLocked r
    · rw [if_pos hc, ResourceManager.share_of_mem hlimit hc]
      exact if_neg (Finset.card_ne_zero_of_mem hc)
    · rw [if_neg hc, ResourceManager.share_of_not_mem hc]

theorem Sane.fairShare_nonneg (h : Sane s) (c : ClientId) (r : ResourceId) :
    0 ≤ s.fairShare c r := by
  have hlimit : 0 ≤ (s.manager.resourceLimits[r]?).getD 0 := by
    cases hr : s.manager.resourceLimits[r]? with
    | none => exact le_rfl
    | some limit => exact h.limits r limit hr
  rw [fairShare, ResourceManager.fairShare]
  split
  · dsimp only
    split
    · exact le_rfl
    · exact div_nonneg hlimit (Nat.cast_nonneg _)
  · exact le_rfl

/-- **No clients together have shares for more than the limit.** -/
theorem Sane.sum_fairShare_le (h : Sane s) {r : ResourceId} {limit : ℚ}
    (hlimit : s.manager.resourceLimits[r]? = some limit) (S : Finset ClientId) :
    ∑ c ∈ S, s.fairShare c r ≤ limit := by
  set counted := s.registry.clientsForResourceLocked r
  have hcounted : ∀ c ∈ S, s.fairShare c r ≠ 0 → c ∈ counted := by
    intro c _ hne
    by_contra hc
    exact hne ((s.fairShare_eq_share c r).trans (ResourceManager.share_of_not_mem hc))
  calc ∑ c ∈ S, s.fairShare c r
      = ∑ c ∈ S.filter (· ∈ counted), s.fairShare c r :=
        (Finset.sum_filter_of_ne hcounted).symm
    _ ≤ ∑ c ∈ counted, s.fairShare c r :=
        Finset.sum_le_sum_of_subset_of_nonneg (fun c hc => (Finset.mem_filter.mp hc).2)
          fun c _ _ => h.fairShare_nonneg c r
    _ ≤ limit := by
        simp only [fairShare_eq_share]
        rcases counted.eq_empty_or_nonempty with hempty | hne
        · rw [hempty, Finset.sum_empty]
          exact h.limits r limit hlimit
        · exact (ResourceManager.sum_share hlimit hne).le

/-- **Shares are a matter of the registrations, interests and limits.** -/
theorem fairShare_congr (hs : Sane s) (hs' : Sane s') (h : s.SameRecords s') (c : ClientId)
    (r : ResourceId) : s.fairShare c r = s'.fairShare c r := by
  rw [fairShare, fairShare, h.2, hs.mirrors.clientsForResourceLocked_congr hs'.mirrors h.1]

/-! ## The progress of a heartbeat -/

/-- **How far a section brings a heartbeat**: not to the reading of the
interests, to it, no nearer to its answer, or by one share, which is the
client's in that very state. -/
inductive Progress (s s' : ServiceState) (c : ClientId) (readings : ClientId → TimePoint)
    (stage stage' : HeartbeatStage) : Prop
  | early (hback : stage'.readBack = false) (hallocations : stage'.allocations = ∅)
  | read (hstage : stage = .interestsReading) (hregistry : s'.registry = s.registry)
      (hstage' : stage' = .next (s.registry.interestedResourcesLocked c).ascending ∅)
  | kept (hback : stage.readBack = true) (hallocations : stage'.allocations = stage.allocations)
      (hshare : stage'.toShare = stage.toShare)
      (hswept : stage'.swept = true → s'.registry = s.registry.expireStaleClients readings)
  | shared {r : ResourceId} (hback : stage.readBack = true)
      (hshare : stage.toShare = r :: stage'.toShare)
      (hallocations : stage'.allocations = stage.allocations.insert r (s.fairShare c r))
      (hswept : stage'.swept = false)
      (hread : s.manager.resourceLimits[r]? = none ∨ stage.swept = true)

theorem Section.progress (h : Section s s' handler readings now) (hs : Sane s) {c : ClientId}
    {ids : Finset ResourceId} {stage' : HeartbeatStage}
    (hpc' : s'.handlers handler = .heartbeat c ids stage') :
    ∃ stage, s.handlers handler = .heartbeat c ids stage ∧
      Progress s s' c readings stage stage' := by
  cases h with
  | registerSwept hpc heq => rw [heq, goto_self] at hpc'; cases hpc'
  | registered hpc heq => rw [heq, goto_self] at hpc'; cases hpc'
  | unregisterSwept hpc heq => rw [heq, goto_self] at hpc'; cases hpc'
  | unregistered hpc heq => rw [heq, goto_self] at hpc'; cases hpc'
  | limitSet hfree hpc heq => rw [heq, goto_self] at hpc'; cases hpc'
  | heartbeatSwept hpc heq =>
    rw [heq, goto_self] at hpc'
    cases hpc'
    exact ⟨_, hpc, .early rfl rfl⟩
  | notFound hnone hpc heq =>
    rw [heq, goto_self] at hpc'
    cases hpc'
    exact ⟨_, hpc, .early rfl rfl⟩
  | recorded hfound hpc heq =>
    rw [heq, goto_self] at hpc'
    cases hpc'
    exact ⟨_, hpc, .early rfl rfl⟩
  | interestsSwept hpc heq =>
    rw [heq, goto_self] at hpc'
    cases hpc'
    exact ⟨_, hpc, .early rfl rfl⟩
  | interestsRead hpc heq =>
    rw [heq, goto_self] at hpc'
    cases hpc'
    exact ⟨_, hpc, .read rfl (by rw [heq]; rfl) rfl⟩
  | unconfigured hlimit hpc heq =>
    rw [heq, goto_self] at hpc'
    cases hpc'
    refine ⟨_, hpc, .shared rfl (by rw [HeartbeatStage.toShare_next]; rfl) ?_
      HeartbeatStage.swept_next (.inl hlimit)⟩
    rw [HeartbeatStage.allocations_next, fairShare_of_unconfigured hlimit]
    rfl
  | locked hfree hlimit hpc heq =>
    rw [heq, goto_self] at hpc'
    cases hpc'
    exact ⟨_, hpc, .kept rfl rfl rfl fun hswept => by cases hswept⟩
  | shareSwept hpc heq =>
    rw [heq, goto_self] at hpc'
    cases hpc'
    exact ⟨_, hpc, .kept rfl rfl rfl fun _ => by rw [heq]; rfl⟩
  | shareRead hpc heq =>
    rw [heq, goto_self] at hpc'
    cases hpc'
    refine ⟨_, hpc, .shared rfl (by rw [HeartbeatStage.toShare_next]; rfl) ?_
      HeartbeatStage.swept_next (.inr rfl)⟩
    -- the limit it read is the limit still: the mutex was held since
    have hlimit := (hs.mutex _ _ _ _ hpc _ _ rfl).2
    rw [HeartbeatStage.allocations_next, fairShare_of_limit hlimit]
    rfl

/-- **A section after which the interests are recorded** records them, or
comes after the one that did. -/
theorem Section.hasRecorded (h : Section s s' handler readings now) {c : ClientId}
    {ids : Finset ResourceId} {stage' : HeartbeatStage}
    (hpc' : s'.handlers handler = .heartbeat c ids stage') (hrecorded : stage'.hasRecorded = true) :
    (∃ stage, s.handlers handler = .heartbeat c ids stage ∧ stage.hasRecorded = true) ∨
    (stage' = .interestsExpiring ∧ s.handlers handler = .heartbeat c ids .recording ∧
      ∃ info, s.registry.clients[c]? = some info ∧
        s'.registry = (s.registry.heartbeatLocked c ids now).2) := by
  cases h with
  | recorded hfound hpc heq =>
    rw [heq, goto_self] at hpc'
    cases hpc'
    exact .inr ⟨rfl, hpc, _, hfound, by rw [heq]; rfl⟩
  | _ =>
    rename_i hpc heq
    rw [heq, goto_self] at hpc'
    cases hpc' <;> first | exact .inl ⟨_, hpc, rfl⟩ | cases hrecorded

/-! ## Preservation -/

theorem Sane.mirrors_section (hs : Sane s) (h : Section s s' handler readings now) :
    s'.registry.IndexMirrors := by
  rcases h.registry with heq | heq | ⟨c, heq⟩ | ⟨c, heq⟩ | ⟨c, ids, info, -, -, -, heq⟩
  · rw [heq]; exact hs.mirrors
  · rw [heq]; exact hs.mirrors.expireStaleClients readings
  · rw [heq]; exact hs.mirrors.registerClientLocked c now
  · rw [heq]; exact hs.mirrors.unregisterClientLocked c
  · rw [heq]; exact hs.mirrors.heartbeatLocked c ids now

theorem Sane.limits_section (hs : Sane s) (h : Section s s' handler readings now)
    {r : ResourceId} {limit : ℚ} (hlimit : s'.manager.resourceLimits[r]? = some limit) :
    0 ≤ limit := by
  rcases h.manager with heq | ⟨-, -, r', limit', heq⟩
  · exact hs.limits r limit (by rwa [heq] at hlimit)
  · rw [heq] at hlimit
    exact lookup_setResourceLimit_nonneg hs.limits hlimit

theorem Sane.shares_section (hs : Sane s) (h : Section s s' handler readings now) {k : ℕ}
    {c : ClientId} {ids : Finset ResourceId} {stage : HeartbeatStage}
    (hpc : s'.handlers k = .heartbeat c ids stage) {r : ResourceId} {v : ℚ}
    (hv : stage.allocations[r]? = some v) : 0 ≤ v := by
  by_cases hne : k = handler
  · subst hne
    obtain ⟨old, hold, hprogress⟩ := h.progress hs hpc
    cases hprogress with
    | early hback hallocations => simp [hallocations] at hv
    | read hstage hregistry hstage' => simp [hstage'] at hv
    | kept hback hallocations hshare hswept =>
      rw [hallocations] at hv
      exact hs.shares k c ids old hold r v hv
    | shared hback hshare hallocations hswept hread =>
      rw [hallocations, OrderedMap.lookup_insert] at hv
      split at hv
      · obtain rfl := Option.some.inj hv
        exact hs.fairShare_nonneg c _
      · exact hs.shares k c ids old hold r v hv
  · exact hs.shares k c ids stage ((h.handlers_of_ne hne).symm.trans hpc) r v hv

/-- **Who holds the manager's mutex** after a section: as before, its
handler, or nobody. -/
theorem Section.holder (h : Section s s' handler readings now) :
    (s'.holder = s.holder ∧ s'.manager = s.manager) ∨ s.holder = none ∨
    (∃ c ids stage, s.handlers handler = .heartbeat c ids stage ∧ stage.limitRead ≠ none) := by
  cases h with
  | limitSet hfree hpc heq => exact .inr (.inl hfree)
  | locked hfree hlimit hpc heq => exact .inr (.inl hfree)
  | shareRead hpc heq => exact .inr (.inr ⟨_, _, _, hpc, by simp [HeartbeatStage.limitRead]⟩)
  | _ => left; rename_i heq; rw [heq]; exact ⟨rfl, rfl⟩

/-- A handler that has read a limit has just taken the mutex or holds it
still. -/
theorem Section.limitRead (h : Section s s' handler readings now) {c : ClientId}
    {ids : Finset ResourceId} {stage : HeartbeatStage}
    (hpc' : s'.handlers handler = .heartbeat c ids stage) {r : ResourceId} {limit : ℚ}
    (hread : stage.limitRead = some (r, limit)) :
    s'.manager = s.manager ∧
    ((s'.holder = some handler ∧ s.manager.resourceLimits[r]? = some limit) ∨
      (s'.holder = s.holder ∧ ∃ old, s.handlers handler = .heartbeat c ids old ∧
        old.limitRead = some (r, limit))) := by
  cases h with
  | locked hfree hlimit hpc heq =>
    rw [heq, goto_self] at hpc'
    cases hpc'
    cases hread
    exact ⟨by rw [heq]; rfl, .inl ⟨by rw [heq]; rfl, hlimit⟩⟩
  | shareSwept hpc heq =>
    rw [heq, goto_self] at hpc'
    cases hpc'
    exact ⟨by rw [heq]; rfl, .inr ⟨by rw [heq]; rfl, _, hpc, hread⟩⟩
  | interestsRead hpc heq =>
    rw [heq, goto_self] at hpc'
    cases hpc'
    rw [HeartbeatStage.limitRead_next] at hread
    cases hread
  | unconfigured hlimit hpc heq =>
    rw [heq, goto_self] at hpc'
    cases hpc'
    rw [HeartbeatStage.limitRead_next] at hread
    cases hread
  | shareRead hpc heq =>
    rw [heq, goto_self] at hpc'
    cases hpc'
    rw [HeartbeatStage.limitRead_next] at hread
    cases hread
  | _ =>
    rename_i heq
    rw [heq, goto_self] at hpc'
    cases hpc'
    try cases hread

theorem Sane.mutex_section (hs : Sane s) (h : Section s s' handler readings now) {k : ℕ}
    {c : ClientId} {ids : Finset ResourceId} {stage : HeartbeatStage}
    (hpc : s'.handlers k = .heartbeat c ids stage) {r : ResourceId} {limit : ℚ}
    (hread : stage.limitRead = some (r, limit)) :
    s'.holder = some k ∧ s'.manager.resourceLimits[r]? = some limit := by
  by_cases hne : k = handler
  · subst hne
    obtain ⟨hmanager, ⟨hholder, hlimit⟩ | ⟨hholder, old, hold, hread⟩⟩ := h.limitRead hpc hread
    · exact ⟨hholder, by rw [hmanager]; exact hlimit⟩
    · rw [hholder, hmanager]
      exact hs.mutex k c ids old hold r limit hread
  · -- while somebody else holds the mutex a section can neither take nor release it
    have hpc : s.handlers k = .heartbeat c ids stage := (h.handlers_of_ne hne).symm.trans hpc
    have hheld := hs.mutex k c ids stage hpc r limit hread
    rcases h.holder with ⟨hholder, hmanager⟩ | hfree | ⟨c', ids', stage', hpc', hread'⟩
    · rw [hholder, hmanager]
      exact hheld
    · rw [hfree] at hheld
      cases hheld.1
    · obtain ⟨p, hp⟩ := Option.ne_none_iff_exists'.mp hread'
      have hheld' := hs.mutex handler c' ids' stage' hpc' p.1 p.2 hp
      exact absurd (Option.some.inj (hheld.1.symm.trans hheld'.1)) hne

theorem Sane.ofSection (hs : Sane s) (h : Section s s' handler readings now) : Sane s' where
  mirrors := hs.mirrors_section h
  limits _ _ hlimit := hs.limits_section h hlimit
  shares _ _ _ _ hpc _ _ hv := hs.shares_section h hpc hv
  mutex _ _ _ _ hpc _ _ hread := hs.mutex_section h hpc hread
  fresh k hk := by
    rw [h.created] at hk
    have hidle := hs.fresh k hk
    by_cases hne : k = handler
    · -- a handler that is idle has no section
      subst hne
      cases h <;> · rename_i hpc heq; rw [hpc] at hidle; cases hidle
    · rw [h.handlers_of_ne hne, hidle]

/-- A request is a heartbeat whose answer, if it has one already, is empty. -/
theorem entry_of_heartbeat {call : ServiceCall} {c : ClientId} {ids : Finset ResourceId}
    {stage : HeartbeatStage} (h : call.entry = .heartbeat c ids stage) :
    stage.allocations = ∅ ∧ stage.limitRead = none ∧ stage.readBack = false := by
  cases call with
  | registerClient c' => simp only [ServiceCall.entry] at h; split at h <;> cases h
  | unregisterClient c' => cases h
  | heartbeat c' ids' =>
    simp only [ServiceCall.entry] at h
    split at h <;> · cases h; exact ⟨rfl, rfl, rfl⟩
  | setResourceLimit r limit => simp only [ServiceCall.entry] at h; split at h <;> cases h

/-- **Whose handler it is after a request came in**: the new one's, or one
that was there. -/
theorem handlers_receive (s : ServiceState) (call : ServiceCall) (k : ℕ) :
    (s.receive call).handlers k = if k = s.created then call.entry else s.handlers k := by
  rw [receive]
  dsimp only
  rw [Function.update_apply]

theorem Sane.receive (hs : Sane s) (call : ServiceCall) : Sane (s.receive call) where
  mirrors := hs.mirrors
  limits := hs.limits
  shares k c ids stage hpc r v hv := by
    rw [handlers_receive] at hpc
    split at hpc
    · rw [(entry_of_heartbeat hpc).1] at hv
      simp at hv
    · exact hs.shares k c ids stage hpc r v hv
  mutex k c ids stage hpc r limit hread := by
    rw [handlers_receive] at hpc
    split at hpc
    · rw [(entry_of_heartbeat hpc).2.1] at hread
      cases hread
    · exact hs.mutex k c ids stage hpc r limit hread
  fresh k hk := by
    have hk' : s.created + 1 ≤ k := hk
    rw [handlers_receive, if_neg (by omega)]
    exact hs.fresh k (by omega)

theorem Sane.later (hs : Sane s) (now : TimePoint) : Sane (s.later now) :=
  ⟨hs.mirrors, hs.limits, hs.shares, hs.mutex, hs.fresh⟩

/-- **What a step of the service is**: a request, a section, or time. -/
theorem step_cases {a : ServiceAction} (h : s.step a = some s') :
    (∃ call, s' = s.receive call) ∨
    (∃ handler readings now, s.admits readings now = true ∧ Section s s' handler readings now) ∨
    (∃ now, s.clock ≤ now ∧ s' = s.later now) := by
  cases a with
  | receive call => exact .inl ⟨call, (Option.some.inj h).symm⟩
  | handlerSection handler readings now =>
    exact .inr (.inl ⟨handler, readings, now, section_of_handlerSection h⟩)
  | tick now =>
    simp only [step] at h
    split at h
    · rename_i hle
      exact .inr (.inr ⟨now, hle, (Option.some.inj h).symm⟩)
    · cases h

theorem Sane.step {a : ServiceAction} (hs : Sane s) (h : s.step a = some s') : Sane s' := by
  rcases step_cases h with ⟨call, rfl⟩ | ⟨handler, readings, now, -, hsection⟩ | ⟨now, -, rfl⟩
  · exact hs.receive call
  · exact hs.ofSection hsection
  · exact hs.later now

theorem sane_of_reachable {heartbeatTimeout : ℤ}
    (h : (serviceSystem heartbeatTimeout).Reachable s) : Sane s :=
  h.invariant (sane_init heartbeatTimeout) fun _ _ _ hs hstep => hs.step hstep

/-! ## What a step leaves of the handlers -/

/-- **A step moves one handler at most.** -/
theorem exists_moved_step {a : ServiceAction} (h : s.step a = some s') :
    ∃ moved, ∀ k, k ≠ moved → s'.handlers k = s.handlers k := by
  rcases step_cases h with ⟨call, rfl⟩ | ⟨handler, readings, now, -, hsection⟩ | ⟨now, -, rfl⟩
  · exact ⟨s.created, fun k hk => by rw [handlers_receive, if_neg hk]⟩
  · exact ⟨handler, fun k hk => hsection.handlers_of_ne hk⟩
  · exact ⟨0, fun k _ => rfl⟩

/-- An answer stays. -/
theorem handlers_of_answered {a : ServiceAction} (hs : Sane s) (h : s.step a = some s') {k : ℕ}
    {c : ClientId} {ids : Finset ResourceId} {status : Status} {response : HeartbeatResponse}
    (hpc : s.handlers k = .heartbeat c ids (.answered status response)) :
    s'.handlers k = .heartbeat c ids (.answered status response) := by
  rcases step_cases h with ⟨call, rfl⟩ | ⟨handler, readings, now, -, hsection⟩ | ⟨now, -, rfl⟩
  · have hne : k ≠ s.created := by
      rintro rfl
      rw [hs.fresh _ le_rfl] at hpc
      cases hpc
    rw [handlers_receive, if_neg hne, hpc]
  · by_cases hk : k = handler
    · -- there is no section after the answer
      subst hk
      cases hsection <;> · rename_i hpc' heq; rw [hpc] at hpc'; cases hpc'
    · rw [hsection.handlers_of_ne hk, hpc]
  · exact hpc

/-- A heartbeat stays the same client's with the same interests. -/
theorem request_step {a : ServiceAction} (hs : Sane s) (h : s.step a = some s') {k : ℕ}
    {x : ClientId × Finset ResourceId} (hk : (s.handlers k).request = some x) :
    (s'.handlers k).request = some x := by
  rcases step_cases h with ⟨call, rfl⟩ | ⟨handler, readings, now, -, hsection⟩ | ⟨now, -, rfl⟩
  · have hne : k ≠ s.created := by
      rintro rfl
      rw [hs.fresh _ le_rfl] at hk
      cases hk
    rw [handlers_receive, if_neg hne, hk]
  · rw [hsection.request, hk]
  · exact hk

end ServiceState

end Throttling
