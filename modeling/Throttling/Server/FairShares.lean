import Throttling.Server.Model.Sections
import Throttling.Server.Helpers.Shares
import Throttling.Registry.Index
/-!
# Fair shares, and the read paths that report them

In every reachable state all shares that are read agree, and where fewer
than `2 ^ 31` clients are counted for a resource, they use its whole
limit and the count that is reported agrees with them. The bound is the
`int32` of the report: with `2 ^ 32` clients it wraps to zero while each
still has its share (`crowd_not_sharesAgree`).
-/

namespace Throttling

open ClientRegistry ResourceManager

/-! ## Reachable states -/

/-- The registry of a reachable server is a reachable registry. -/
theorem registry_reachable {heartbeatTimeout : ℤ} {s : ServerThreads}
    (h : (serverSystem heartbeatTimeout).Reachable s) :
    (registrySystem heartbeatTimeout).Reachable s.threads := by
  refine GuardedSystem.Reachable.invariant
    (P := fun s => (registrySystem heartbeatTimeout).Reachable s.threads)
    .init (fun s a s' hs hstep => ?_) h
  cases a with
  | registry action =>
    obtain ⟨threads, hthreads, rfl⟩ := Option.map_eq_some_iff.mp hstep
    exact hs.step hthreads
  | setResourceLimit r limit =>
    have hthreads : s'.threads = s.threads := by rw [← Option.some.inj hstep]
    rw [hthreads]; exact hs
  | removeResource r =>
    have hthreads : s'.threads = s.threads := by rw [← Option.some.inj hstep]
    rw [hthreads]; exact hs

/-! ## The counts reported -/

variable {m : ResourceManager ℚ} {reg : ClientRegistry} {now : TimePoint}

theorem reportedCount_of_configured {r : ResourceId} {limit : ℚ}
    (h : m.resourceLimits[r]? = some limit) :
    reportedCount m reg r now =
      toInt32 ((reg.expiredAt now).clientsForResourceLocked r).card := by
  rw [reportedCount, Server.getResourceLimit]
  simp only [getResourceInfo, h]
  rfl

/-! ## The maps returned -/

theorem isClientRegistered_fst {c : ClientId} :
    (reg.isClientRegistered c fun _ => now).1 = true ↔
      ∃ info, (reg.expiredAt now).clients[c]? = some info := by
  rw [← OrderedMap.mem_iff_exists]
  exact Std.ExtTreeMap.contains_iff_mem

/-- Being registered is having survived the pass, which changes nobody's
interests. -/
theorem interestedResourcesLocked_expiredAt {c : ClientId}
    (h : (reg.isClientRegistered c fun _ => now).1 = true) :
    (reg.expiredAt now).interestedResourcesLocked c = reg.interestedResourcesLocked c := by
  obtain ⟨info, hinfo⟩ := isClientRegistered_fst.mp h
  have hold := (fresh_of_lookup_expireStaleClients hinfo).1
  rw [interestedResourcesLocked, interestedResourcesLocked, hinfo, hold]

theorem lookup_getAllAllocations {c : ClientId}
    (h : (reg.isClientRegistered c fun _ => now).1 = true) (r : ResourceId) :
    (m.getAllAllocations reg c now).1[r]? =
      if r ∈ reg.interestedResourcesLocked c then some (m.getAllocation reg c r now).1
      else none := by
  rw [getAllAllocations_eq, lookup_shares, interestedResourcesLocked_expiredAt h,
    getAllocation_fst]

/-- The map in an accepted heartbeat's answer is `GetAllAllocations` of
what the registry's own heartbeat leaves. -/
theorem heartbeat_allocations {c : ClientId} {ids : List ResourceId}
    (h : (Server.heartbeat ⟨reg, m⟩ c ids now).1.1.code = .ok) :
    (Server.heartbeat ⟨reg, m⟩ c ids now).1.2.allocations =
      (m.getAllAllocations (reg.heartbeat c ids.toFinset (fun _ => now) now).2 c now).1 := by
  unfold Server.heartbeat at h ⊢
  split
  · rename_i hempty
    rw [if_pos hempty] at h
    cases h
  · rename_i hempty
    rw [if_neg hempty] at h
    dsimp only at h ⊢
    split
    · rename_i hfail
      rw [if_pos hfail] at h
      cases h
    · rfl

/-- **A client is counted when it is registered and names the
resource.** The count is taken off the reverse index; the mirror and the
pass before it make that the same. -/
theorem mem_counted (hreg : reg.IndexMirrors) {c : ClientId} {r : ResourceId} :
    c ∈ (reg.expiredAt now).clientsForResourceLocked r ↔
      (reg.isClientRegistered c fun _ => now).1 = true ∧ r ∈ reg.interestedResourcesLocked c := by
  rw [expiredAt, (hreg.expireStaleClients _).mem_clientsForResourceLocked, ← expiredAt]
  constructor
  · intro h
    obtain ⟨info, hinfo, -⟩ := mem_interestedResourcesLocked.mp h
    have hc : (reg.isClientRegistered c fun _ => now).1 = true :=
      isClientRegistered_fst.mpr ⟨info, hinfo⟩
    exact ⟨hc, interestedResourcesLocked_expiredAt hc ▸ h⟩
  · rintro ⟨hc, hr⟩
    exact (interestedResourcesLocked_expiredAt hc).symm ▸ hr

/-! ## Agreement -/

/-- **The shares agree**, however many clients there are. -/
theorem mapsAgree (m : ResourceManager ℚ) (reg : ClientRegistry) (now : TimePoint)
    (r : ResourceId) : MapsAgree m reg now r where
  unconfigured hlimit c := by
    rw [getAllocation_fst]
    exact share_of_unconfigured hlimit
  allocations c hc := lookup_getAllAllocations hc r
  heartbeat c ids hok reg' hreg' hc := by
    subst hreg'
    rw [heartbeat_allocations hok]
    exact lookup_getAllAllocations hc r

/-- The count agrees with them where the mirror holds, if it fits the
type it is reported in. -/
theorem sharesAgree_of_indexMirrors {r : ResourceId} (hreg : reg.IndexMirrors)
    (hfew : ((reg.expiredAt now).clientsForResourceLocked r).card < 2 ^ 31) :
    SharesAgree m reg now r where
  toMapsAgree := mapsAgree m reg now r
  counted limit n hlimit hcount hn := by
    have hcard : (((reg.expiredAt now).clientsForResourceLocked r).card : ℤ) = n := by
      rw [← hcount, reportedCount_of_configured hlimit, toInt32_of_lt hfew]
    have hne : ((reg.expiredAt now).clientsForResourceLocked r).Nonempty := by
      rw [← Finset.card_pos]
      omega
    refine ⟨(reg.expiredAt now).clientsForResourceLocked r, rfl, hcard, fun c => ?_,
      ⟨limit / ((reg.expiredAt now).clientsForResourceLocked r).card, fun c hc => ?_⟩,
      fun c hc => ?_, ?_⟩
    · exact mem_counted hreg
    · rw [getAllocation_fst]; exact share_of_mem hlimit hc
    · rw [getAllocation_fst]; exact share_of_not_mem hc
    · simp only [getAllocation_fst]; exact finsum_share hlimit hne
  uncounted hzero c := by
    rw [getAllocation_fst]
    cases hlimit : m.resourceLimits[r]? with
    | none => exact share_of_unconfigured hlimit
    | some limit =>
      rw [reportedCount_of_configured hlimit, toInt32_of_lt hfew] at hzero
      have hempty := Finset.card_eq_zero.mp (Int.natCast_eq_zero.mp hzero)
      refine share_of_not_mem ?_
      rw [hempty]
      exact Finset.notMem_empty c

/-- **Fair shares use the whole limit and all read paths agree**, in every
reachable state and at every reading: the shares for every resource, and
the count for one that fewer than `2 ^ 31` clients are counted for. -/
theorem sharesAgree_of_reachable {heartbeatTimeout : ℤ} {s : ServerThreads}
    (h : (serverSystem heartbeatTimeout).Reachable s) (now : TimePoint) (r : ResourceId) :
    MapsAgree s.manager s.threads.registry now r ∧
      ((s.threads.registry.getClientsForResource r fun _ => now).1.card < 2 ^ 31 →
        SharesAgree s.manager s.threads.registry now r) :=
  ⟨mapsAgree _ _ now r, sharesAgree_of_indexMirrors (indexMirrors_of_reachable
    (registry_reachable h))⟩

/-- Two clients on resource `1` and one of them on resource `2`, with a
limit of `100` on the first. -/
def twoClientsRun : List ServerAction :=
  [.setResourceLimit 1 100,
   .registry (.invoke 0 (.registerClient "a")), .registry (.expireSection 0 fun _ => 0),
   .registry (.ownSection 0 0),
   .registry (.invoke 0 (.registerClient "b")), .registry (.expireSection 0 fun _ => 0),
   .registry (.ownSection 0 0),
   .registry (.invoke 0 (.heartbeat "a" {1, 2})), .registry (.expireSection 0 fun _ => 5),
   .registry (.ownSection 0 5),
   .registry (.invoke 1 (.heartbeat "b" {1})), .registry (.expireSection 1 fun _ => 5),
   .registry (.ownSection 1 5)]

theorem twoClientsRun_sharesAgree :
    ∃ s, (serverSystem 30).runFrom (serverSystem 30).init twoClientsRun = some s ∧
      reportedCount s.manager s.threads.registry 1 7 = 2 ∧
      SharesAgree s.manager s.threads.registry 7 1 := by
  obtain ⟨s, hs, hcard, hcount⟩ : ∃ s,
      (serverSystem 30).runFrom (serverSystem 30).init twoClientsRun = some s ∧
      (s.threads.registry.getClientsForResource 1 fun _ => 7).1.card = 2 ∧
      reportedCount s.manager s.threads.registry 1 7 = 2 := ⟨_, rfl, by decide, by decide⟩
  have hreach := GuardedSystem.Reachable.runFrom .init hs
  exact ⟨s, hs, hcount, (sharesAgree_of_reachable hreach 7 1).2 (by omega)⟩

/-! ## The crowd

`n` clients register and name resource `1`, all at reading `0`. -/

/-- The id of member `i`: its decimal digits. -/
def memberId (i : ℕ) : ClientId := i.repr

theorem memberId_injective : Function.Injective memberId := by
  intro i j h
  have hdigits : Nat.toDigits 10 i = Nat.toDigits 10 j := by
    rw [← Nat.toList_repr, ← Nat.toList_repr]
    exact congrArg String.toList h
  rw [← @Nat.ofDigitChars_ten_toDigits i, hdigits, Nat.ofDigitChars_ten_toDigits]

theorem memberId_not_empty (i : ℕ) : (memberId i).isEmpty = false := by
  rw [Bool.eq_false_iff, ne_eq, String.isEmpty_iff]
  intro h
  have hdigits : Nat.toDigits 10 i = [] := by
    rw [← Nat.toList_repr]
    exact congrArg String.toList h
  exact Nat.toDigits_ne_nil hdigits

/-- A registry whose clients are the first `n` members, each of which
named resource `1` at reading `0`. -/
structure IsCrowd (n : ℕ) (reg : ClientRegistry) : Prop where
  timeout : reg.heartbeatTimeout = 30
  clients : ∀ c : ClientId,
    reg.clients[c]? = if ∃ i < n, memberId i = c then some ⟨0, {1}⟩ else none

/-- Nobody is stale at the reading everybody was last heard at. -/
theorem expireStaleClients_of_all_at {reg : ClientRegistry} (hticks : 0 ≤ reg.timeoutTicks)
    (h : ∀ (c : ClientId) (info : ClientInfo), reg.clients[c]? = some info →
      info.lastHeartbeatTime = now) :
    reg.expireStaleClients (fun _ => now) = reg := by
  refine expireStaleClients_eq_self fun c info hinfo => ?_
  rw [isClientStaleLocked, h c info hinfo, decide_eq_false_iff_not, sub_self]
  exact not_lt.mpr hticks

theorem IsCrowd.timeoutTicks_nonneg {n : ℕ} (h : IsCrowd n reg) : 0 ≤ reg.timeoutTicks :=
  ClientRegistry.timeoutTicks_nonneg (by rw [h.timeout]; decide) (by rw [h.timeout]; decide)

theorem IsCrowd.expiry {n : ℕ} (h : IsCrowd n reg) :
    reg.expireStaleClients (fun _ => 0) = reg := by
  refine expireStaleClients_of_all_at h.timeoutTicks_nonneg fun c info hinfo => ?_
  rw [h.clients] at hinfo
  split at hinfo
  · obtain rfl := Option.some.inj hinfo; rfl
  · cases hinfo

/-- The next member's two calls. -/
def withMember (reg : ClientRegistry) (n : ℕ) : ClientRegistry :=
  let registered := (reg.expireStaleClients fun _ => 0).ownSection 0 (.registerClient (memberId n))
  (registered.expireStaleClients fun _ => 0).ownSection 0 (.heartbeat (memberId n) {1})

theorem IsCrowd.addMember {n : ℕ} (h : IsCrowd n reg) : IsCrowd (n + 1) (withMember reg n) := by
  have hreg : (reg.expireStaleClients fun _ => 0).ownSection 0 (.registerClient (memberId n)) =
      (reg.registerClientLocked (memberId n) 0).2 := by
    rw [h.expiry]
    rfl
  have hnow : (reg.registerClientLocked (memberId n) 0).2.expireStaleClients (fun _ => 0) =
      (reg.registerClientLocked (memberId n) 0).2 := by
    have hsame := registerClientLocked_heartbeatTimeout reg (memberId n) 0
    have hticks : 0 ≤ (reg.registerClientLocked (memberId n) 0).2.timeoutTicks := by
      rw [timeoutTicks_congr hsame]
      exact h.timeoutTicks_nonneg
    refine expireStaleClients_of_all_at hticks fun c info hinfo => ?_
    rw [lookup_registerClientLocked, h.clients] at hinfo
    split at hinfo
    · obtain rfl := Option.some.inj hinfo; rfl
    · split at hinfo
      · obtain rfl := Option.some.inj hinfo; rfl
      · cases hinfo
  have hself : (reg.registerClientLocked (memberId n) 0).2.clients[memberId n]? =
      some ⟨0, reg.interestedResourcesLocked (memberId n)⟩ := by
    rw [lookup_registerClientLocked, if_pos rfl]
  have hadd : withMember reg n =
      ((reg.registerClientLocked (memberId n) 0).2.heartbeatLocked (memberId n) {1} 0).2 := by
    rw [withMember, hreg, hnow]
    rfl
  refine ⟨by simp [hadd, h.timeout], fun c => ?_⟩
  rw [hadd, lookup_heartbeatLocked hself, lookup_registerClientLocked, h.clients]
  by_cases hc : memberId n = c
  · rw [if_pos hc, if_pos ⟨n, n.lt_succ_self, hc⟩]
  · -- an index below `n + 1` of somebody else is one below `n`
    have hiff : (∃ i < n + 1, memberId i = c) ↔ ∃ i < n, memberId i = c := by
      constructor
      · rintro ⟨i, hi, rfl⟩
        exact ⟨i, by have : i ≠ n := fun h => hc (by rw [h]); omega, rfl⟩
      · rintro ⟨i, hi, rfl⟩
        exact ⟨i, by omega, rfl⟩
    rw [if_neg hc, if_neg hc]
    simp only [hiff]

/-- **A crowd of any size is reachable.** -/
theorem exists_crowd (n : ℕ) : ∃ s : RegistryThreads, (registrySystem 30).Reachable s ∧
    s.pc 0 = .idle ∧ IsCrowd n s.registry := by
  induction n with
  | zero => exact ⟨_, .init, rfl, rfl, fun c => by simp [registrySystem, ClientRegistry.new]⟩
  | succ n ih =>
    obtain ⟨s, hs, hidle, hcrowd⟩ := ih
    have hregister := RegistryThreads.reachable_call hs hidle
      (.registerClient (memberId n)) (memberId_not_empty n) (fun _ => 0) 0
    have hheartbeat := RegistryThreads.reachable_call hregister hidle
      (.heartbeat (memberId n) {1}) rfl (fun _ => 0) 0
    exact ⟨_, hheartbeat, hidle, hcrowd.addMember⟩

/-- Registry steps are server steps, with any manager beside them. -/
theorem reachable_of_registry {heartbeatTimeout : ℤ} {rs : RegistryThreads}
    (h : (registrySystem heartbeatTimeout).Reachable rs) {m : ResourceManager ℚ}
    (hm : (serverSystem heartbeatTimeout).Reachable
      ⟨(registrySystem heartbeatTimeout).init, m⟩) :
    (serverSystem heartbeatTimeout).Reachable ⟨rs, m⟩ := by
  induction h with
  | init => exact hm
  | step _ _ hstep ih =>
    exact ih.step (a := .registry _) (Option.map_eq_some_iff.mpr ⟨_, hstep, rfl⟩)

theorem IsCrowd.card {n : ℕ} (h : IsCrowd n reg) (hreg : reg.IndexMirrors) :
    ((reg.expiredAt 0).clientsForResourceLocked 1).card = n := by
  have himage : (reg.expiredAt 0).clientsForResourceLocked 1 =
      (Finset.range n).image memberId := by
    ext c
    rw [expiredAt, h.expiry, hreg.mem_clientsForResourceLocked, mem_interestedResourcesLocked,
      h.clients, Finset.mem_image]
    split
    · rename_i hex
      simpa using hex
    · rename_i hex
      simpa using hex
  rw [himage, Finset.card_image_of_injective _ memberId_injective, Finset.card_range]

/-- **The reported count wraps.** With `2 ^ 32` clients on a resource
limited to `1`, `active_client_count` is zero, and every client has a
share. -/
theorem crowd_not_sharesAgree :
    ¬ ∀ (heartbeatTimeout : ℤ) (s : ServerThreads) (now : TimePoint) (r : ResourceId),
      (serverSystem heartbeatTimeout).Reachable s →
        SharesAgree s.manager s.threads.registry now r := by
  intro hall
  obtain ⟨rs, hrs, -, hcrowd⟩ := exists_crowd (2 ^ 32)
  have hmirror := indexMirrors_of_reachable hrs
  have hcard := hcrowd.card hmirror
  let m : ResourceManager ℚ := (ResourceManager.new.setResourceLimit 1 1).2
  have hlimit : m.resourceLimits[(1 : ResourceId)]? = some 1 := rfl
  have hreach : (serverSystem 30).Reachable ⟨rs, m⟩ := reachable_of_registry hrs
    (GuardedSystem.Reachable.step .init (a := .setResourceLimit 1 1) rfl)
  have hagree : SharesAgree m rs.registry 0 1 := hall 30 _ 0 1 hreach
  -- `2 ^ 32` is zero as an `int32`
  have hcount : reportedCount m rs.registry 1 0 = 0 := by
    rw [reportedCount_of_configured hlimit, hcard]
    decide
  have hmem : memberId 0 ∈ (rs.registry.expiredAt 0).clientsForResourceLocked 1 := by
    rw [expiredAt, hcrowd.expiry, hmirror.mem_clientsForResourceLocked,
      mem_interestedResourcesLocked, hcrowd.clients, if_pos ⟨0, by norm_num, rfl⟩]
    exact ⟨_, rfl, Finset.mem_singleton_self _⟩
  have hzero := hagree.uncounted hcount (memberId 0)
  rw [getAllocation_fst, share_of_mem hlimit hmem, hcard] at hzero
  norm_num at hzero

end Throttling
