import Throttling.Server.Model.Reference
import Throttling.Server.Helpers.Shares
import Throttling.Common.System
/-!
# Lazy expiry cannot be told from eager expiry

The server removes a stale client when some later operation happens to
run a pass; the reference, at once. They answer every trace alike
(`lazyExpiry_eq_eager`). The relation between them does not say that
they hold the same clients but that they would after a pass at any
reading still to come (`Linked`): an error path that runs no pass keeps
that, since a later pass removes all an earlier one would have, and an
operation that runs one makes the clients equal outright (`Synced`).
-/

namespace Throttling

open ClientRegistry

/-! ## The two machines -/

/-- The server, fed one request at a time with the reading it is executed
at. -/
def serverMachine : AnsweringMachine Server (Request × TimePoint) (Status × Response) where
  step s i := s.rpc i.1 i.2

/-- The reference, fed the same. -/
def referenceMachine : AnsweringMachine Reference (Request × TimePoint) (Status × Response) where
  step t i := t.rpc i.1 i.2

/-- Fewer than `2 ^ 31` clients are present at every request of a
trace. -/
def FewClients : Reference → List (Request × TimePoint) → Prop
  | _, [] => True
  | t, (request, now) :: trace =>
    (t.present now).clients.size < 2 ^ 31 ∧ FewClients (t.rpc request now).2 trace

/-! ## The clients of the reference -/

namespace Reference

variable {t : Reference} {now now' : TimePoint} {c : ClientId}

theorem lookup_present (t : Reference) (now : TimePoint) (c : ClientId) :
    (t.present now).clients[c]? =
      (t.clients[c]?).filter fun entry => decide (now - entry.1 ≤ t.timeout * ticksPerSecond) := by
  simp [present]

/-- Who vanishes by an earlier moment is gone at a later one. -/
theorem present_present (h : now ≤ now') : (t.present now).present now' = t.present now' := by
  have hclients : ((t.present now).present now').clients = (t.present now').clients := by
    refine Std.ExtTreeMap.ext_getElem? fun c => ?_
    rw [lookup_present, lookup_present, lookup_present, Option.filter_filter]
    congr 1
    funext entry
    have hmono : now' - entry.1 ≤ t.timeout * ticksPerSecond →
        now - entry.1 ≤ t.timeout * ticksPerSecond := fun h' => le_trans (sub_le_sub_right h _) h'
    by_cases h' : now' - entry.1 ≤ t.timeout * ticksPerSecond
    · simp [present, h', hmono h']
    · simp [present, h']
  exact congrArg (fun clients => { t with clients := clients }) hclients

theorem mem_interested {r : ResourceId} :
    c ∈ t.interested r ↔ ∃ entry, t.clients[c]? = some entry ∧ r ∈ entry.2 := by
  rw [interested, List.mem_toFinset, Std.ExtTreeMap.mem_keys, OrderedMap.mem_iff_exists]
  simp [Option.filter_eq_some_iff]

/-- No request changes the timeout. -/
theorem rpc_timeout (t : Reference) (request : Request) (now : TimePoint) :
    (t.rpc request now).2.timeout = t.timeout := by
  rw [rpc]
  cases request with
  | registerClient clientId => rw [answer]; split <;> rfl
  | unregisterClient clientId => rfl
  | heartbeat clientId resourceIds =>
    rw [answer]
    split
    · rfl
    · split <;> rfl
  | getAllocation clientId r => rw [answer]; split <;> rfl
  | setResourceLimit r rateLimit => rw [answer]; split <;> rfl
  | getResourceLimit r => rw [answer]; split <;> rfl

end Reference

/-! ## The relation -/

/-- What the registry knows of a client, as the reference keeps it. -/
def ClientInfo.entry (info : ClientInfo) : TimePoint × Finset ResourceId :=
  (info.lastHeartbeatTime, info.interestedResources)

/-- The registry has the clients of the reference. -/
def SameClients (reg : ClientRegistry) (t : Reference) : Prop :=
  ∀ c : ClientId, (reg.clients[c]?).map ClientInfo.entry = t.clients[c]?

/-- The server and the reference hold the same clients and limits. -/
structure SameContents (s : Server) (t : Reference) : Prop where
  mirrors : s.registry.IndexMirrors
  limits : t.limits = s.manager.resourceLimits
  clients : SameClients s.registry t

/-- And they measure staleness alike. -/
structure Synced (s : Server) (t : Reference) : Prop extends SameContents s t where
  timeout : s.registry.timeoutTicks = t.timeout * ticksPerSecond

/-- **They will hold the same**, after a pass at any of the given
readings. -/
structure Linked (s : Server) (t : Reference) (readings : List TimePoint) : Prop where
  mirrors : s.registry.IndexMirrors
  timeout : s.registry.timeoutTicks = t.timeout * ticksPerSecond
  limits : t.limits = s.manager.resourceLimits
  clients : ∀ now ∈ readings, SameClients (s.registry.expiredAt now) (t.present now)

variable {s : Server} {t : Reference} {now : TimePoint} {readings : List TimePoint}

/-- A pass and the reference's own clock remove the same clients. -/
theorem SameClients.expiredAt {reg : ClientRegistry} (h : SameClients reg t)
    (htimeout : reg.timeoutTicks = t.timeout * ticksPerSecond) (now : TimePoint) :
    SameClients (reg.expiredAt now) (t.present now) := by
  intro c
  rw [ClientRegistry.expiredAt, lookup_expireStaleClients, Reference.lookup_present, ← h c]
  cases reg.clients[c]? with
  | none => rfl
  | some info =>
    have hstale : (!reg.isClientStaleLocked info now) =
        decide (now - info.lastHeartbeatTime ≤ t.timeout * ticksPerSecond) := by
      rw [isClientStaleLocked, ← decide_not, decide_eq_decide, not_lt, htimeout]
    simp only [Option.filter, hstale, Option.map_some, ClientInfo.entry]
    split <;> rfl

/-- Holding the same now is holding the same later. -/
theorem Synced.linked (h : Synced s t) (readings : List TimePoint) : Linked s t readings where
  mirrors := h.mirrors
  timeout := h.timeout
  limits := h.limits
  clients now _ := h.clients.expiredAt h.timeout now

/-- **After a pass they hold the same.** -/
theorem Linked.synced (h : Linked s t readings) (hnow : now ∈ readings) :
    Synced { s with registry := s.registry.expiredAt now } (t.present now) where
  mirrors := h.mirrors.expireStaleClients _
  timeout := (timeoutTicks_congr (expireStaleClients_heartbeatTimeout _ _)).trans h.timeout
  limits := h.limits
  clients := h.clients now hnow

/-- **No pass is needed meanwhile**: what the reference drops now, a pass
at a later reading drops as well. -/
theorem Linked.present (h : Linked s t readings) (hnow : ∀ later ∈ readings, now ≤ later) :
    Linked s (t.present now) readings where
  mirrors := h.mirrors
  timeout := h.timeout
  limits := h.limits
  clients later hlater := by
    rw [Reference.present_present (hnow later hlater)]
    exact h.clients later hlater

theorem Linked.mono {readings' : List TimePoint} (h : Linked s t readings)
    (hsub : ∀ now ∈ readings', now ∈ readings) : Linked s t readings' where
  mirrors := h.mirrors
  timeout := h.timeout
  limits := h.limits
  clients now hnow := h.clients now (hsub now hnow)

/-! ## What the same contents answer -/

/-- The count off the index is the reference's. -/
theorem SameContents.interested (h : SameContents s t) (r : ResourceId) :
    t.interested r = s.registry.clientsForResourceLocked r := by
  ext c
  rw [Reference.mem_interested, h.mirrors.mem_clientsForResourceLocked,
    mem_interestedResourcesLocked, ← h.clients c]
  cases s.registry.clients[c]? <;> simp [ClientInfo.entry]

theorem SameContents.share (h : SameContents s t) (c : ClientId) (r : ResourceId) :
    s.manager.share s.registry c r = t.allocation c r := by
  rw [ResourceManager.share, ← h.limits, ← h.interested]
  rfl

theorem SameContents.shares (h : SameContents s t) (c : ClientId) (rs : Finset ResourceId) :
    s.manager.shares s.registry c rs = t.allocations c rs := by
  simp only [ResourceManager.shares, Reference.allocations, h.share]

/-- Fewer than `2 ^ 31` present, fewer than that interested. -/
theorem SameContents.card_lt (h : SameContents s t) (hfew : t.clients.size < 2 ^ 31) (r : ResourceId) :
    (s.registry.clientsForResourceLocked r).card < 2 ^ 31 := by
  refine lt_of_le_of_lt ?_ hfew
  rw [← h.interested]
  have hsub : t.interested r ⊆ t.clients.keys.toFinset := by
    intro c hc
    obtain ⟨entry, hentry, -⟩ := Reference.mem_interested.mp hc
    rw [List.mem_toFinset, Std.ExtTreeMap.mem_keys]
    exact OrderedMap.mem_iff_exists.mpr ⟨entry, hentry⟩
  calc (t.interested r).card
      ≤ t.clients.keys.toFinset.card := Finset.card_le_card hsub
    _ ≤ t.clients.keys.length := List.toFinset_card_le _
    _ = t.clients.size := Std.ExtTreeMap.length_keys

/-! ## The heartbeat's passes -/

/-- Who has just been heard of is not stale, for a timeout that is not
negative; nor is anybody a pass at the same reading left. -/
theorem expiredAt_heartbeatLocked {reg : ClientRegistry} (hticks : 0 ≤ reg.timeoutTicks)
    {clientId : ClientId} {info : ClientInfo}
    (hinfo : (reg.expiredAt now).clients[clientId]? = some info) (ids : Finset ResourceId) :
    ((reg.expiredAt now).heartbeatLocked clientId ids now).2.expiredAt now =
      ((reg.expiredAt now).heartbeatLocked clientId ids now).2 := by
  refine expireStaleClients_eq_self fun c heard hheard => ?_
  have hsame : ((reg.expiredAt now).heartbeatLocked clientId ids now).2.heartbeatTimeout =
      reg.heartbeatTimeout := by
    rw [heartbeatLocked_heartbeatTimeout, expiredAt, expireStaleClients_heartbeatTimeout]
  rw [isClientStaleLocked_congr hsame]
  rw [lookup_heartbeatLocked hinfo] at hheard
  split at hheard
  · obtain rfl := Option.some.inj hheard
    rw [isClientStaleLocked, decide_eq_false_iff_not, sub_self]
    exact not_lt.mpr hticks
  · exact (fresh_of_lookup_expireStaleClients hheard).2

theorem Server.heartbeat_of_absent {clientId : ClientId} (hne : clientId.isEmpty = false)
    (habsent : (s.registry.expiredAt now).clients[clientId]? = none) (ids : List ResourceId) :
    s.heartbeat clientId ids now =
      ((⟨.notFound, "client not registered"⟩, { errorMessage := "client not registered" }),
        { s with registry := s.registry.expiredAt now }) := by
  have hbeat : s.registry.heartbeat clientId ids.toFinset (fun _ => now) now =
      (false, s.registry.expiredAt now) := heartbeatLocked_of_none habsent
  simp [Server.heartbeat, hne, hbeat]

/-- **An accepted heartbeat**: one pass, the diff, and the shares of the
ids it names on the registry that leaves. -/
theorem Server.heartbeat_of_present {clientId : ClientId} (hne : clientId.isEmpty = false)
    (hticks : 0 ≤ s.registry.timeoutTicks) {info : ClientInfo}
    (hinfo : (s.registry.expiredAt now).clients[clientId]? = some info) (ids : List ResourceId)
    {reg : ClientRegistry}
    (hreg : reg = ((s.registry.expiredAt now).heartbeatLocked clientId ids.toFinset now).2) :
    s.heartbeat clientId ids now =
      ((.ok, { success := true,
               allocations := s.manager.shares reg clientId ids.toFinset }),
        { s with registry := reg }) := by
  have hbeat : s.registry.heartbeat clientId ids.toFinset (fun _ => now) now = (true, reg) := by
    refine Prod.ext ((heartbeatLocked_fst (s.registry.expiredAt now) _ _ _).trans ?_) hreg.symm
    rw [hinfo]
    rfl
  have hpass : reg.expiredAt now = reg := by
    rw [hreg]; exact expiredAt_heartbeatLocked hticks hinfo _
  have hinterests : reg.interestedResourcesLocked clientId = ids.toFinset := by
    rw [hreg, interestedResourcesLocked, lookup_heartbeatLocked hinfo, if_pos rfl]
  simp [Server.heartbeat, hne, hbeat, ResourceManager.getAllAllocations_eq, hpass, hinterests]

/-! ## One request -/

/-- The server and the reference answer a request alike, and stay linked
at the readings that follow. -/
def Alike (s : Server) (t : Reference) (request : Request) (now : TimePoint)
    (later : List TimePoint) : Prop :=
  (s.rpc request now).1 = (t.rpc request now).1 ∧
    Linked (s.rpc request now).2 (t.rpc request now).2 later

variable {later : List TimePoint} {clientId : ClientId}

/-- A registration, in the states a pass leaves. -/
theorem Synced.registerClient (h : Synced s t) (clientId : ClientId) (now : TimePoint) :
    Synced { s with registry := (s.registry.registerClientLocked clientId now).2 }
      { t with clients :=
          t.clients.insert clientId (now, (t.clients[clientId]?).elim ∅ Prod.snd) } where
  mirrors := h.mirrors.registerClientLocked _ _
  timeout := (timeoutTicks_congr (by simp)).trans h.timeout
  limits := h.limits
  clients c := by
    rw [lookup_registerClientLocked, OrderedMap.lookup_insert, interestedResourcesLocked,
      ← h.clients clientId, ← h.clients c]
    by_cases hc : clientId = c
    · rw [if_pos hc, if_pos hc]
      cases s.registry.clients[clientId]? <;> rfl
    · rw [if_neg hc, if_neg hc]

/-- A heartbeat of a client that is there. -/
theorem Synced.heartbeat (h : Synced s t) {info : ClientInfo}
    (hinfo : s.registry.clients[clientId]? = some info) (ids : Finset ResourceId)
    (now : TimePoint) :
    Synced { s with registry := (s.registry.heartbeatLocked clientId ids now).2 }
      { t with clients := t.clients.insert clientId (now, ids) } where
  mirrors := h.mirrors.heartbeatLocked _ _ _
  timeout := (timeoutTicks_congr (by simp)).trans h.timeout
  limits := h.limits
  clients c := by
    rw [lookup_heartbeatLocked hinfo, OrderedMap.lookup_insert, ← h.clients c]
    split <;> rfl

theorem Synced.unregisterClient (h : Synced s t) (clientId : ClientId) :
    Synced { s with registry := (s.registry.unregisterClientLocked clientId).2 }
      { t with clients := t.clients.erase clientId } where
  mirrors := h.mirrors.unregisterClientLocked _
  timeout := (timeoutTicks_congr (by simp)).trans h.timeout
  limits := h.limits
  clients c := by
    rw [lookup_unregisterClientLocked, OrderedMap.lookup_erase, ← h.clients c]
    split <;> rfl

theorem alike_registerClient (h : Linked s t (now :: later)) (hlater : ∀ u ∈ later, now ≤ u) :
    Alike s t (.registerClient clientId) now later := by
  by_cases hempty : clientId = ""
  · -- refused with no pass, while the reference's stale clients vanish
    subst hempty
    exact ⟨rfl, (h.mono fun _ => List.mem_cons_of_mem _).present hlater⟩
  · have hne : clientId.isEmpty = false := by simpa using hempty
    have hs := (h.synced List.mem_cons_self).registerClient clientId now
    have hanswer : (t.rpc (.registerClient clientId) now) = _ := if_neg hempty
    rw [Alike, hanswer]
    simp only [Server.rpc, Server.registerClient, ClientRegistry.registerClient, hne]
    exact ⟨by simp, hs.linked later⟩

theorem alike_unregisterClient (h : Linked s t (now :: later)) :
    Alike s t (.unregisterClient clientId) now later :=
  ⟨rfl, ((h.synced List.mem_cons_self).unregisterClient clientId).linked later⟩

/-- **A heartbeat.** The registry's own pass is the only one that can
find anybody: the passes of `GetAllAllocations` run at the same
reading. -/
theorem alike_heartbeat (h : Linked s t (now :: later)) (hlater : ∀ u ∈ later, now ≤ u)
    (hticks : 0 ≤ s.registry.timeoutTicks) (resourceIds : List ResourceId) :
    Alike s t (.heartbeat clientId resourceIds) now later := by
  by_cases hempty : clientId = ""
  · subst hempty
    exact ⟨rfl, (h.mono fun _ => List.mem_cons_of_mem _).present hlater⟩
  have hne : clientId.isEmpty = false := by simpa using hempty
  have hsync := h.synced List.mem_cons_self
  have hsame := hsync.clients clientId
  cases hinfo : (s.registry.expiredAt now).clients[clientId]? with
  | none =>
    have habsent : clientId ∉ (t.present now).clients := by
      rw [OrderedMap.not_mem_iff, ← hsame, hinfo]
      rfl
    have hanswer : t.rpc (.heartbeat clientId resourceIds) now = _ :=
      (if_neg hempty).trans (if_neg habsent)
    rw [Alike, hanswer, Server.rpc, Server.heartbeat_of_absent hne hinfo]
    exact ⟨rfl, hsync.linked later⟩
  | some info =>
    have hpresent : clientId ∈ (t.present now).clients := by
      rw [OrderedMap.mem_iff_exists, ← hsame, hinfo]
      exact ⟨_, rfl⟩
    have hanswer : t.rpc (.heartbeat clientId resourceIds) now = _ :=
      (if_neg hempty).trans (if_pos hpresent)
    have hbeat := hsync.heartbeat hinfo resourceIds.toFinset now
    rw [Alike, hanswer, Server.rpc, Server.heartbeat_of_present hne hticks hinfo _ rfl]
    exact ⟨congrArg (fun allocations => (Status.ok, Response.heartbeat
      { success := true, allocations := allocations })) (hbeat.shares clientId _),
      hbeat.linked later⟩

theorem alike_getAllocation (h : Linked s t (now :: later)) (hlater : ∀ u ∈ later, now ≤ u)
    (r : ResourceId) : Alike s t (.getAllocation clientId r) now later := by
  by_cases hempty : clientId = ""
  · subst hempty
    exact ⟨rfl, (h.mono fun _ => List.mem_cons_of_mem _).present hlater⟩
  have hne : clientId.isEmpty = false := by simpa using hempty
  have hsync := h.synced List.mem_cons_self
  have hanswer : t.rpc (.getAllocation clientId r) now = _ := if_neg hempty
  have hvalue : (s.manager.getAllocation s.registry clientId r now).1 =
      (t.present now).allocation clientId r := by
    rw [ResourceManager.getAllocation_fst]
    exact hsync.share clientId r
  rw [Alike, hanswer]
  simp only [Server.rpc, Server.getAllocation, hne]
  refine ⟨by simp [hvalue], ?_⟩
  cases hlimit : s.manager.resourceLimits[r]? with
  | none =>
    -- an unconfigured resource is answered without a pass
    rw [ResourceManager.getAllocation_of_unconfigured hlimit]
    exact (h.mono fun _ => List.mem_cons_of_mem _).present hlater
  | some limit =>
    rw [ResourceManager.getAllocation_of_configured hlimit]
    exact hsync.linked later

theorem alike_setResourceLimit (h : Linked s t (now :: later)) (hlater : ∀ u ∈ later, now ≤ u)
    (r : ResourceId) (rateLimit : ℚ) : Alike s t (.setResourceLimit r rateLimit) now later := by
  have hkept := (h.mono fun _ => List.mem_cons_of_mem _).present hlater
  rw [Alike, Reference.rpc, Reference.answer, Server.rpc, Server.setResourceLimit,
    ResourceManager.setResourceLimit]
  by_cases hneg : rateLimit < 0
  · simp only [if_pos hneg]
    exact ⟨rfl, hkept⟩
  · simp only [if_neg hneg]
    have hlimits := congrArg (fun limits => limits.insert r rateLimit) h.limits
    exact ⟨rfl, hkept.mirrors, hkept.timeout, hlimits, hkept.clients⟩

theorem alike_getResourceLimit (h : Linked s t (now :: later)) (hlater : ∀ u ∈ later, now ≤ u)
    (hfew : (t.present now).clients.size < 2 ^ 31) (r : ResourceId) :
    Alike s t (.getResourceLimit r) now later := by
  have hsync := h.synced List.mem_cons_self
  have hlimits : (t.present now).limits[r]? = s.manager.resourceLimits[r]? := by
    rw [hsync.limits]
  rw [Alike, Reference.rpc, Reference.answer, hlimits, Server.rpc, Server.getResourceLimit,
    ResourceManager.getResourceInfo]
  cases hlimit : s.manager.resourceLimits[r]? with
  | none => exact ⟨rfl, (h.mono fun _ => List.mem_cons_of_mem _).present hlater⟩
  | some limit =>
    have hcount : toInt32 ((s.registry.expiredAt now).clientsForResourceLocked r).card =
        ((t.present now).interested r).card := by
      rw [toInt32_of_lt (hsync.card_lt hfew r), hsync.interested]
    refine ⟨?_, hsync.linked later⟩
    change (_, Response.getResourceLimit _) = _
    rw [← hcount]
    rfl

/-- **Every request is answered alike.** -/
theorem alike (h : Linked s t (now :: later)) (hlater : ∀ u ∈ later, now ≤ u)
    (hticks : 0 ≤ s.registry.timeoutTicks)
    (hfew : (t.present now).clients.size < 2 ^ 31) (request : Request) :
    Alike s t request now later := by
  cases request with
  | registerClient clientId => exact alike_registerClient h hlater
  | unregisterClient clientId => exact alike_unregisterClient h
  | heartbeat clientId resourceIds => exact alike_heartbeat h hlater hticks resourceIds
  | getAllocation clientId r => exact alike_getAllocation h hlater r
  | setResourceLimit r rateLimit => exact alike_setResourceLimit h hlater r rateLimit
  | getResourceLimit r => exact alike_getResourceLimit h hlater hfew r

/-! ## The whole trace -/

/-- **Lazy expiry answers every trace as eager expiry does**: every status
and every response, for a timeout the nanoseconds of which an `int64`
holds, at any readings that do not go back, with fewer than `2 ^ 31`
clients present at a time. -/
theorem lazyExpiry_eq_eager {timeout : ℤ} (htimeout : 0 ≤ timeout) (hfits : timeout ≤ 9223372036)
    (trace : List (Request × TimePoint)) (hreadings : (trace.map Prod.snd).Pairwise (· ≤ ·))
    (hfew : FewClients (.new timeout) trace) :
    (serverMachine.run (.new timeout) trace).1 = (referenceMachine.run (.new timeout) trace).1 := by
  have hsync : Synced (.new timeout) (.new timeout) :=
    { mirrors := (indexMirrors_new timeout).congr rfl rfl
      limits := rfl
      clients := fun c => by simp [Server.new, ClientRegistry.new, setListener, Reference.new]
      timeout := timeoutTicks_of_le htimeout hfits }
  refine AnsweringMachine.answers_eq_of_simulation serverMachine referenceMachine
    (fun s t trace => 0 ≤ t.timeout ∧ Linked s t (trace.map Prod.snd) ∧
      (trace.map Prod.snd).Pairwise (· ≤ ·) ∧ FewClients t trace)
    ?_ trace _ _ ⟨htimeout, hsync.linked _, hreadings, hfew⟩
  rintro s t i is ⟨htimeout, hlinked, hreadings, hfew⟩
  obtain ⟨hlater, hreadings⟩ := List.pairwise_cons.mp hreadings
  have hticks : 0 ≤ s.registry.timeoutTicks := by
    rw [hlinked.timeout, ticksPerSecond]
    omega
  obtain ⟨hanswer, hlinked'⟩ := alike hlinked hlater hticks hfew.1 i.1
  refine ⟨hanswer, ?_, hlinked', hreadings, hfew.2⟩
  change 0 ≤ (t.rpc i.1 i.2).2.timeout
  rw [Reference.rpc_timeout]
  exact htimeout

/-- A client that goes silent, is expired by nobody, and registers again:
its interests are gone. -/
def silentTrace : List (Request × TimePoint) :=
  [(.setResourceLimit 1 100, 0), (.registerClient "a", 0), (.registerClient "b", 0),
   (.heartbeat "a" [1, 2], 1000000000), (.heartbeat "b" [1], 1000000000),
   (.getAllocation "" 1, 40000000000), (.registerClient "a", 40000000000),
   (.getAllocation "a" 1, 40000000000), (.heartbeat "b" [1], 40000000000),
   (.getResourceLimit 1, 40000000000), (.unregisterClient "a", 50000000000)]

theorem silentTrace_answers :
    (serverMachine.run (.new 30) silentTrace).1 =
      (referenceMachine.run (.new 30) silentTrace).1 :=
  lazyExpiry_eq_eager (by decide) (by decide) silentTrace (by decide)
    ⟨by decide +kernel, by decide +kernel, by decide +kernel, by decide +kernel,
      by decide +kernel, by decide +kernel, by decide +kernel, by decide +kernel,
      by decide +kernel, by decide +kernel, by decide +kernel, trivial⟩

/-- `std::chrono::seconds::max()` is `-1` s in nanoseconds: who has just
registered is stale. -/
def endlessTrace : List (Request × TimePoint) :=
  [(.registerClient "a", 0), (.heartbeat "a" [1], 0)]

theorem not_lazyExpiry_eq_eager :
    ¬ ∀ (timeout : ℤ) (trace : List (Request × TimePoint)), 0 ≤ timeout →
      (trace.map Prod.snd).Pairwise (· ≤ ·) → FewClients (.new timeout) trace →
      (serverMachine.run (.new timeout) trace).1 =
        (referenceMachine.run (.new timeout) trace).1 := by
  intro h
  have hanswers := h 9223372036854775807 endlessTrace (by decide) (by decide)
    ⟨by decide +kernel, by decide +kernel, trivial⟩
  have hcodes := congrArg (List.map fun answer => answer.1.code) hanswers
  exact absurd hcodes (by decide +kernel)

end Throttling
