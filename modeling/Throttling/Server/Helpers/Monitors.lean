import Throttling.Common.Monitors
import Throttling.Registry.Index
import Throttling.Server.Model.Locking
import Throttling.Server.Model.Sections
import Throttling.Server.LazyExpiry
/-!
# What the server's functions come to among others

The manager's mutex guards the limits, and the registry's the
registrations: while a mutex is free, what it guards is as whole sections
bring it about (`serverSystem`). One lemma for each function of the source
says what it leaves of what its caller knows: what the caller holds stays,
and what the function met of the data it answers from. The rest is the
rules of `Common/Monitors.lean`.
-/

namespace Throttling

/-! ## What whole sections bring about -/

variable {timeout : ℤ}

/-- A registry that whole sections reach, with no call under way. -/
def ClientRegistry.Reached (timeout : ℤ) (reg : ClientRegistry) : Prop :=
  (registrySystem timeout).Reachable ⟨reg, fun _ => .idle⟩

/-- Limits that whole sections reach. -/
def ResourceManager.Reached (timeout : ℤ) (m : ResourceManager ℚ) : Prop :=
  (serverSystem timeout).Reachable ⟨(registrySystem timeout).init, m⟩

/-- **Reached each by itself**, they are reached together. -/
theorem reachable_serverSystem {rs : RegistryThreads} {m : ResourceManager ℚ}
    (hrs : (registrySystem timeout).Reachable rs) (hm : m.Reached timeout) :
    (serverSystem timeout).Reachable ⟨rs, m⟩ := by
  refine GuardedSystem.Reachable.invariant
    (P := fun rs => (serverSystem timeout).Reachable ⟨rs, m⟩) hm (fun rs a rs' hrs' hstep => ?_) hrs
  have hboth : (serverSystem timeout).step ⟨rs, m⟩ (.registry a) = some ⟨rs', m⟩ :=
    Option.map_eq_some_iff.mpr ⟨rs', hstep, rfl⟩
  exact hrs'.step hboth

theorem ResourceManager.Reached.setResourceLimit {m : ResourceManager ℚ} (h : m.Reached timeout)
    (resourceId : ResourceId) (rateLimit : ℚ) :
    (m.setResourceLimit resourceId rateLimit).2.Reached timeout :=
  GuardedSystem.Reachable.step (a := .setResourceLimit resourceId rateLimit) h rfl

namespace ClientRegistry

variable {reg : ClientRegistry}

theorem Reached.indexMirrors (h : reg.Reached timeout) : reg.IndexMirrors :=
  indexMirrors_of_reachable h

/-- A query that expires leaves what its pass does. -/
theorem Reached.expireStaleClients (h : reg.Reached timeout) (expiry : ClientId → TimePoint) :
    (reg.expireStaleClients expiry).Reached timeout :=
  RegistryThreads.reachable_call h (t := 0) rfl .getClientCount rfl expiry 0

/-- **An operation's own section** can follow any other: a pass right before
it may find nobody stale. -/
theorem Reached.ownSection (h : reg.Reached timeout) (call : RegistryCall)
    (hcall : call.refused = false) (now : TimePoint) :
    (reg.ownSection now call).Reached timeout := by
  have hnobody : reg.expireStaleClients (fun c =>
      ((reg.clients[c]?).map ClientInfo.lastHeartbeatTime).getD 0 +
        reg.timeoutTicks) = reg := by
    refine expireStaleClients_eq_self fun c info hinfo => ?_
    rw [hinfo]
    simp [isClientStaleLocked]
  have hcalled := RegistryThreads.reachable_call h (t := 0) rfl call hcall (fun c =>
    ((reg.clients[c]?).map ClientInfo.lastHeartbeatTime).getD 0 +
      reg.timeoutTicks) now
  dsimp only at hcalled
  rwa [hnobody] at hcalled

end ClientRegistry

/-- **What the server's mutexes guard.** -/
def serverGuard (timeout : ℤ) : Guard Mutex Server where
  Part
    | .resourceManager => ResourceManager ℚ
    | .clientRegistry => ClientRegistry
  view
    | .resourceManager, s => s.manager
    | .clientRegistry, s => s.registry
  inv
    | .resourceManager, manager => manager.Reached timeout
    | .clientRegistry, registry => registry.Reached timeout

/-- The guarded parts are all there is. -/
theorem serverGuard_ext (s s' : Server)
    (h : ∀ m, (serverGuard timeout).view m s = (serverGuard timeout).view m s') : s = s' := by
  have hmanager : s.manager = s'.manager := h .resourceManager
  have hregistry : s.registry = s'.registry := h .clientRegistry
  cases s
  cases s'
  congr

/-- **What the server has on record**, as the eager reference keeps it. -/
def Server.recorded (s : Server) : Reference where
  timeout := s.registry.heartbeatTimeout
  clients := s.registry.clients.map fun _ info => info.entry
  limits := s.manager.resourceLimits

theorem sameContents_recorded {s : Server} (h : s.registry.IndexMirrors) :
    SameContents s s.recorded where
  mirrors := h
  limits := rfl
  clients c := by simp [Server.recorded]

namespace ServerProg

open Prog Guard

variable {α : Type} {held : Set Mutex} {seen seen' seen'' : List Server} {s s' s'' : Server}
variable {Q : α → Set Mutex → List Server → Server → Prop}

theorem registry_eq (hheld : .clientRegistry ∈ held) (h : (serverGuard timeout).Agree held s s') :
    s'.registry = s.registry := h .clientRegistry hheld

theorem manager_eq (hheld : .resourceManager ∈ held) (h : (serverGuard timeout).Agree held s s') :
    s'.manager = s.manager := h .resourceManager hheld

/-- What others hold is not touched by a change of the registry. -/
theorem view_registry_update {reg : ClientRegistry} {m : Mutex} (hm : m ≠ .clientRegistry) :
    (serverGuard timeout).view m { s with registry := reg } = (serverGuard timeout).view m s := by
  cases m with
  | resourceManager => rfl
  | clientRegistry => exact absurd rfl hm

theorem agree_registry_update (timeout : ℤ) (held : Set Mutex) (s : Server)
    (reg : ClientRegistry) :
    (serverGuard timeout).Agree (held \ {.clientRegistry}) s { s with registry := reg } :=
  fun _ hm => view_registry_update hm.2

/-! ## Single actions -/

/-- A look at the registry. -/
theorem sound_readRegistry (f : Readings → ClientRegistry → α) (hheld : .clientRegistry ∈ held)
    (hQ : ∀ i s', (serverGuard timeout).Agree held s s' →
      Q (f i s'.registry) held (s' :: seen) s') :
    (read fun i s => f i s.registry : ServerProg α).Sound (serverGuard timeout) Q held seen s :=
  sound_read (fun i s s' hagree => by rw [registry_eq hheld hagree]) hQ

/-- A look at the manager. -/
theorem sound_readManager (f : Readings → ResourceManager ℚ → α)
    (hheld : .resourceManager ∈ held)
    (hQ : ∀ i s', (serverGuard timeout).Agree held s s' →
      Q (f i s'.manager) held (s' :: seen) s') :
    (read fun i s => f i s.manager : ServerProg α).Sound (serverGuard timeout) Q held seen s :=
  sound_read (fun i s s' hagree => by rw [manager_eq hheld hagree]) hQ

/-- A change of the registry. -/
theorem sound_onRegistry (f : Readings → ClientRegistry → α × ClientRegistry)
    (hheld : .clientRegistry ∈ held)
    (hQ : ∀ i s', (serverGuard timeout).Agree held s s' →
      Q (f i s'.registry).1 held (s' :: seen) { s' with registry := (f i s'.registry).2 }) :
    (perform fun i s => ((f i s.registry).1, { s with registry := (f i s.registry).2 }) :
      ServerProg α).Sound (serverGuard timeout) Q held seen s := by
  refine sound_perform (fun i s m hm => ?_) (fun i s s' hagree => ?_) hQ
  · exact view_registry_update fun heq => hm (heq ▸ hheld)
  · have hregistry := registry_eq hheld hagree
    refine ⟨by rw [hregistry], fun m hm => ?_⟩
    cases m with
    | resourceManager => exact hagree _ hm
    | clientRegistry =>
      change (f i s'.registry).2 = (f i s.registry).2
      rw [hregistry]

/-! ## The listener -/

theorem sound_notifyListener {Q : Unit → Set Mutex → List Server → Server → Prop}
    (event : ListenerEvent) (hheld : .clientRegistry ∈ held)
    (hQ : ∀ seen' s', (serverGuard timeout).Since held seen s seen' s' → Q () held seen' s') :
    (notifyListener event).Sound (serverGuard timeout) Q held seen s := by
  refine Sound.bind (sound_readRegistry (fun _ reg => reg.listener) hheld fun i s' hagree => ?_)
  have hdone := hQ _ _ (hagree.since s')
  split
  · cases event <;> exact sound_pure hdone
  · exact sound_pure hdone

/-! ## `ClientRegistry` -/

/-- **`RemoveClientLocked`** takes one client out. -/
theorem sound_removeClientLocked {Q : Unit → Set Mutex → List Server → Server → Prop}
    (clientId : ClientId) (hheld : .clientRegistry ∈ held)
    (hQ : ∀ seen' s', (serverGuard timeout).Since (held \ {.clientRegistry}) seen s seen' s' →
      s'.registry = s.registry.removeClientLocked clientId → Q () held seen' s') :
    (removeClientLocked clientId).Sound (serverGuard timeout) Q held seen s := by
  refine Sound.bind (sound_onRegistry
    (fun _ reg => (reg.clients[clientId]?, reg.removeClientLocked clientId)) hheld
    fun i s₁ hagree => ?_)
  set s₂ : Server := { s₁ with registry := s₁.registry.removeClientLocked clientId } with hs₂
  have hsince : (serverGuard timeout).Since (held \ {.clientRegistry}) seen s (s₁ :: seen) s₂ :=
    ((hagree.mono Set.sdiff_subset).trans (agree_registry_update timeout held s₁ _)).since s₁
  have hregistry : s₂.registry = s.registry.removeClientLocked clientId := by
    rw [hs₂, registry_eq hheld hagree]
  dsimp only
  split
  · exact sound_pure (hQ _ _ hsince hregistry)
  · refine sound_notifyListener _ hheld fun seen' s' hlater => hQ seen' s' ?_ ?_
    · exact hsince.trans (hlater.mono Set.sdiff_subset)
    · rw [registry_eq hheld hlater.agree, hregistry]

/-- What a caller holds besides is kept in a section of the registry. -/
theorem insert_sdiff (hfree : .clientRegistry ∉ held) :
    insert Mutex.clientRegistry held \ {.clientRegistry} = held :=
  Set.insert_sdiff_self_of_notMem hfree

/-- What a section of the registry has to come to, where its caller holds
something and relies on something. -/
abbrev AfterSection (timeout : ℤ) (held : Set Mutex)
    (Q : α → Set Mutex → List Server → Server → Prop) :
    α → Set Mutex → List Server → Server → Prop :=
  fun a held' seen s =>
    held' = insert .clientRegistry held ∧ s.registry.Reached timeout ∧ Q a held seen s

/-- **A section of the registry** starts where whole sections lead, and has
to end there. -/
theorem sound_registrySection {body : ServerProg α} (hfree : .clientRegistry ∉ held)
    (hbody : ∀ s', (serverGuard timeout).Agree held s s' → s'.registry.Reached timeout →
      body.Sound (serverGuard timeout) (AfterSection timeout held Q)
        (insert .clientRegistry held) seen s') :
    (locked .clientRegistry body).Sound (serverGuard timeout) Q held seen s :=
  sound_locked hfree hbody

/-- **`ExpireStaleClients`** leaves its caller what it holds. -/
theorem sound_expireStaleClients {Q : Unit → Set Mutex → List Server → Server → Prop}
    (hfree : .clientRegistry ∉ held)
    (hQ : ∀ seen' s', (serverGuard timeout).Since held seen s seen' s' → Q () held seen' s') :
    expireStaleClients.Sound (serverGuard timeout) Q held seen s := by
  have hmem : Mutex.clientRegistry ∈ insert Mutex.clientRegistry held := Set.mem_insert _ _
  refine sound_registrySection hfree fun s₁ hagree hreached => Sound.bind ?_
  refine sound_readRegistry (fun readings reg => reg.staleClients readings.expiry) hmem
    fun i s₂ hagree₂ => ?_
  have hreached₂ : s₂.registry.Reached timeout := by
    rw [registry_eq hmem hagree₂]
    exact hreached
  -- one by one, they are removed from the registry they were found in
  refine Sound.mono (sound_foldlM (J := fun past _ seen' s' =>
    s'.registry = past.foldl ClientRegistry.removeClientLocked s₂.registry ∧
      (serverGuard timeout).Since held seen s seen' s') ?_ _ [] () _ _ ⟨rfl, ?_⟩) ?_
  · rintro past clientId - seen₃ s₃ ⟨hregistry₃, hsince₃⟩
    refine sound_removeClientLocked clientId hmem fun seen' s' hsince hregistry => ?_
    rw [insert_sdiff hfree] at hsince
    refine ⟨rfl, ?_, hsince₃.trans hsince⟩
    rw [hregistry, hregistry₃, List.foldl_append]
    rfl
  · exact (hagree.trans (hagree₂.mono (Set.subset_insert _ _))).since s₂
  · rintro _ held' seen' s' ⟨rfl, hregistry, hsince⟩
    refine ⟨rfl, ?_, hQ seen' s' hsince⟩
    rw [hregistry]
    exact hreached₂.expireStaleClients i.expiry

/-- **An operation of the registry** is its expiry pass and then a section
of its own. -/
theorem sound_registryOperation {body : ServerProg α} (hfree : .clientRegistry ∉ held)
    (hbody : ∀ seen' s', (serverGuard timeout).Since held seen s seen' s' →
      s'.registry.Reached timeout → body.Sound (serverGuard timeout) (AfterSection timeout held Q)
        (insert .clientRegistry held) seen' s') :
    (expireStaleClients >>= fun _ => locked .clientRegistry body).Sound (serverGuard timeout) Q
      held seen s := by
  refine Sound.bind (sound_expireStaleClients hfree fun seen' s' hsince => ?_)
  exact sound_registrySection hfree fun s'' hagree hmirrors =>
    hbody seen' s'' ⟨hsince.seen, hsince.agree.trans hagree⟩ hmirrors

/-- What a section of the registry leaves its caller. -/
theorem since_section (hsince : (serverGuard timeout).Since held seen s seen' s')
    (hlater : (serverGuard timeout).Since (insert .clientRegistry held) seen' s' seen'' s'') :
    (serverGuard timeout).Since held seen s seen'' s'' :=
  hsince.trans (hlater.mono (Set.subset_insert _ _))

/-- **`GetClientsForResource`** answers from one state with a mirror. -/
theorem sound_getClientsForResource {Q : Finset ClientId → Set Mutex → List Server → Server → Prop}
    (resourceId : ResourceId) (hfree : .clientRegistry ∉ held)
    (hQ : ∀ seen' x, (serverGuard timeout).Since held seen s seen' x → x ∈ seen' →
      x.registry.IndexMirrors → Q (x.registry.clientsForResourceLocked resourceId) held seen' x) :
    (getClientsForResource resourceId).Sound (serverGuard timeout) Q held seen s := by
  have hmem : Mutex.clientRegistry ∈ insert Mutex.clientRegistry held := Set.mem_insert _ _
  refine sound_registryOperation hfree fun seen' s' hsince hreached => ?_
  refine sound_readRegistry (fun _ reg => reg.clientsForResourceLocked resourceId) hmem
    fun i x hagree => ?_
  have hreached' : x.registry.Reached timeout := by
    rw [registry_eq hmem hagree]
    exact hreached
  exact ⟨rfl, hreached', hQ _ x (since_section hsince (hagree.since x)) List.mem_cons_self
    hreached'.indexMirrors⟩

theorem sound_getInterestedResources
    {Q : Finset ResourceId → Set Mutex → List Server → Server → Prop} (clientId : ClientId)
    (hfree : .clientRegistry ∉ held)
    (hQ : ∀ seen' x, (serverGuard timeout).Since held seen s seen' x → x ∈ seen' →
      Q (x.registry.interestedResourcesLocked clientId) held seen' x) :
    (getInterestedResources clientId).Sound (serverGuard timeout) Q held seen s := by
  have hmem : Mutex.clientRegistry ∈ insert Mutex.clientRegistry held := Set.mem_insert _ _
  refine sound_registryOperation hfree fun seen' s' hsince hreached => ?_
  refine sound_readRegistry (fun _ reg => reg.interestedResourcesLocked clientId) hmem
    fun i x hagree => ?_
  have hreached' : x.registry.Reached timeout := by
    rw [registry_eq hmem hagree]
    exact hreached
  exact ⟨rfl, hreached', hQ _ x (since_section hsince (hagree.since x)) List.mem_cons_self⟩

/-- **An operation that looks a client up, changes the registry** by a
section of its own, and goes on from there. -/
theorem sound_registryChange {Q : Bool → Set Mutex → List Server → Server → Prop}
    (clientId : ClientId) (f : Readings → ClientRegistry → Bool × ClientRegistry)
    (k : Option ClientInfo → Bool → ServerProg Bool) (hfree : .clientRegistry ∉ held)
    (hkeeps : ∀ i reg, reg.Reached timeout → (f i reg).2.Reached timeout)
    (hk : ∀ i x seen' s', (serverGuard timeout).Since held seen s seen' s' → x ∈ seen' →
      s'.registry.Reached timeout → (k x.registry.clients[clientId]? (f i x.registry).1).Sound
        (serverGuard timeout) (AfterSection timeout held Q) (insert .clientRegistry held) seen'
        s') :
    (expireStaleClients >>= fun _ => locked .clientRegistry do
      let it ← read fun _ s => s.registry.clients[clientId]?
      let success ← perform fun i s =>
        ((f i s.registry).1, { s with registry := (f i s.registry).2 })
      k it success).Sound (serverGuard timeout) Q held seen s := by
  have hmem : Mutex.clientRegistry ∈ insert Mutex.clientRegistry held := Set.mem_insert _ _
  refine sound_registryOperation hfree fun seen' s₁ hsince hreached => Sound.bind ?_
  refine sound_readRegistry (fun _ reg => reg.clients[clientId]?) hmem fun i s₂ hagree₂ =>
    Sound.bind (sound_onRegistry f hmem fun j s₃ hagree₃ => ?_)
  -- the registry the change starts from is the one the client was looked up in
  have hsame : s₃.registry = s₂.registry := registry_eq hmem hagree₃
  have hreached₃ : s₃.registry.Reached timeout := by
    rw [hsame, registry_eq hmem hagree₂]
    exact hreached
  have hsince₃ : (serverGuard timeout).Since held seen s (s₃ :: s₂ :: seen') s₃ :=
    since_section hsince ((hagree₂.since s₂).trans (hagree₃.since s₃))
  have hupdate := agree_registry_update timeout (insert .clientRegistry held) s₃ (f j s₃.registry).2
  rw [insert_sdiff hfree] at hupdate
  rw [← hsame]
  exact hk j s₃ _ _ ⟨hsince₃.seen, hsince₃.agree.trans hupdate⟩ List.mem_cons_self
    (hkeeps j _ hreached₃)

/-- **`RegisterClient`** of the registry accepts whoever has an id. -/
theorem sound_registryRegisterClient {Q : Bool → Set Mutex → List Server → Server → Prop}
    {clientId : ClientId} (hid : clientId.isEmpty = false) (hfree : .clientRegistry ∉ held)
    (hQ : ∀ seen' s', (serverGuard timeout).Since held seen s seen' s' → Q true held seen' s') :
    (registryRegisterClient clientId).Sound (serverGuard timeout) Q held seen s := by
  have hmem : Mutex.clientRegistry ∈ insert Mutex.clientRegistry held := Set.mem_insert _ _
  unfold registryRegisterClient
  rw [if_neg (by simp [hid])]
  refine sound_registryChange clientId
    (fun readings reg => reg.registerClientLocked clientId readings.now) _ hfree
    (fun i reg hreached => hreached.ownSection (.registerClient clientId) hid i.now)
    fun i x seen' s' hsince hx hreached => ?_
  have hsuccess : (x.registry.registerClientLocked clientId i.now).1 = true := by
    unfold ClientRegistry.registerClientLocked
    split <;> rfl
  rw [hsuccess]
  split
  · exact sound_pure ⟨rfl, hreached, hQ _ _ hsince⟩
  · refine Sound.bind (sound_notifyListener _ hmem fun seen₅ s₅ hlater => sound_pure ⟨rfl, ?_, ?_⟩)
    · rw [registry_eq hmem hlater.agree]
      exact hreached
    · exact hQ _ _ (since_section hsince hlater)

/-- **`Heartbeat`** of the registry accepts whom it finds registered, in the
state it looks at. -/
theorem sound_registryHeartbeat {Q : Bool → Set Mutex → List Server → Server → Prop}
    (clientId : ClientId) (resourceIds : Finset ResourceId) (hfree : .clientRegistry ∉ held)
    (hQ : ∀ success seen' s' x, (serverGuard timeout).Since held seen s seen' s' → x ∈ seen' →
      (success = true ↔ clientId ∈ x.registry.clients) → Q success held seen' s') :
    (registryHeartbeat clientId resourceIds).Sound (serverGuard timeout) Q held seen s := by
  have hmem : Mutex.clientRegistry ∈ insert Mutex.clientRegistry held := Set.mem_insert _ _
  refine sound_registryChange clientId
    (fun readings reg => reg.heartbeatLocked clientId resourceIds readings.now) _ hfree
    (fun i reg hreached => hreached.ownSection (.heartbeat clientId resourceIds) rfl i.now)
    fun i x seen' s' hsince hx hreached => ?_
  have hsuccess : (x.registry.heartbeatLocked clientId resourceIds i.now).1 = true ↔
      clientId ∈ x.registry.clients := by
    unfold ClientRegistry.heartbeatLocked
    split
    · rename_i hnone
      simpa using OrderedMap.not_mem_iff.mpr hnone
    · rename_i it hit
      simpa using OrderedMap.mem_iff_exists.mpr ⟨it, hit⟩
  have hdone : ∀ seen₅ s₅,
      (serverGuard timeout).Since (insert .clientRegistry held) seen' s' seen₅ s₅ →
      insert Mutex.clientRegistry held = insert .clientRegistry held ∧
        s₅.registry.Reached timeout ∧
        Q (x.registry.heartbeatLocked clientId resourceIds i.now).1 held seen₅ s₅ := by
    intro seen₅ s₅ hlater
    refine ⟨rfl, ?_, hQ _ _ _ x (since_section hsince hlater) (hlater.seen hx) hsuccess⟩
    rw [registry_eq hmem hlater.agree]
    exact hreached
  split
  · exact sound_pure (hdone _ _ (.refl _ _ _ _))
  · dsimp only
    split
    · exact Sound.bind (sound_notifyListener _ hmem fun seen₅ s₅ hlater =>
        sound_pure (hdone seen₅ s₅ hlater))
    · exact sound_pure (hdone _ _ (.refl _ _ _ _))

theorem sound_registryUnregisterClient {Q : Bool → Set Mutex → List Server → Server → Prop}
    (clientId : ClientId) (hfree : .clientRegistry ∉ held)
    (hQ : ∀ seen' s', (serverGuard timeout).Since held seen s seen' s' → Q true held seen' s') :
    (registryUnregisterClient clientId).Sound (serverGuard timeout) Q held seen s := by
  have hmem : Mutex.clientRegistry ∈ insert Mutex.clientRegistry held := Set.mem_insert _ _
  refine sound_registryOperation hfree fun seen' s₁ hsince hreached => Sound.bind ?_
  refine sound_readRegistry (fun _ reg => reg.clients[clientId]?) hmem fun i s₂ hagree₂ => ?_
  have hreached₂ : s₂.registry.Reached timeout := by
    rw [registry_eq hmem hagree₂]
    exact hreached
  have hsince₂ := since_section hsince (hagree₂.since s₂)
  split
  · exact sound_pure ⟨rfl, hreached₂, hQ _ _ hsince₂⟩
  · rename_i it hit
    refine Sound.bind (sound_removeClientLocked clientId hmem fun seen₃ s₃ hlater hregistry =>
      sound_pure ⟨rfl, ?_, ?_⟩)
    · have hremoved := hreached₂.ownSection (.unregisterClient clientId) rfl 0
      simp only [ClientRegistry.ownSection, ClientRegistry.unregisterClientLocked, hit] at hremoved
      rwa [hregistry]
    · rw [insert_sdiff hfree] at hlater
      exact hQ _ _ (hsince₂.trans hlater)

/-! ## `ResourceManager` -/

/-- The manager's mutex alone does not keep others from the registry. -/
theorem registry_free : Mutex.clientRegistry ∉ insert Mutex.resourceManager (∅ : Set Mutex) := by
  rintro (h | h)
  · cases h
  · exact h

theorem sound_managerSetResourceLimit {Q : Bool → Set Mutex → List Server → Server → Prop}
    (resourceId : ResourceId) (rateLimit : ℚ)
    (hQ : ∀ seen' s', (serverGuard timeout).Since ∅ seen s seen' s' →
      Q (!decide (rateLimit < 0)) ∅ seen' s') :
    (managerSetResourceLimit resourceId rateLimit).Sound (serverGuard timeout) Q ∅ seen s := by
  unfold managerSetResourceLimit
  by_cases hneg : rateLimit < 0
  · rw [if_pos hneg]
    have hdone := hQ seen s (.refl _ _ _ _)
    rw [decide_eq_true hneg] at hdone
    exact sound_pure hdone
  · rw [if_neg hneg]
    rw [decide_eq_false hneg] at hQ
    refine sound_locked (Set.notMem_empty _) fun s₁ hagree hlimits => ?_
    refine sound_perform (fun i s₂ m hm => ?_) (fun i s₂ s₃ hagree' => ?_) fun i s₂ hagree₂ => ?_
    · cases m with
      | resourceManager => exact absurd (Set.mem_insert _ _) hm
      | clientRegistry => rfl
    · refine ⟨rfl, fun m hm => ?_⟩
      cases m with
      | resourceManager =>
        have hmanager := manager_eq hm hagree'
        change (⟨s₃.manager.resourceLimits.insert resourceId rateLimit⟩ : ResourceManager ℚ) =
          ⟨s₂.manager.resourceLimits.insert resourceId rateLimit⟩
        rw [hmanager]
      | clientRegistry => exact absurd hm registry_free
    · refine ⟨rfl, ?_, hQ _ _ ⟨List.subset_cons_self _ _, nofun⟩⟩
      have hset : (s₂.manager.setResourceLimit resourceId rateLimit).2 =
          ⟨s₂.manager.resourceLimits.insert resourceId rateLimit⟩ := by
        rw [ResourceManager.setResourceLimit, if_neg hneg]
      change ResourceManager.Reached timeout
        ⟨s₂.manager.resourceLimits.insert resourceId rateLimit⟩
      rw [← hset, manager_eq (Set.mem_insert _ _) hagree₂]
      exact hlimits.setResourceLimit resourceId rateLimit

/-- **`GetResourceInfo`** answers from one state. -/
theorem sound_getResourceInfo
    {Q : Option (ResourceInfo ℚ) → Set Mutex → List Server → Server → Prop}
    (resourceId : ResourceId)
    (hQ : ∀ info seen' s' x, (serverGuard timeout).Since ∅ seen s seen' s' → x ∈ seen' →
      info = (x.recorded.limits[resourceId]?).map (fun limit =>
        ⟨limit, (x.recorded.interested resourceId).card⟩) → Q info ∅ seen' s') :
    (getResourceInfo resourceId).Sound (serverGuard timeout) Q ∅ seen s := by
  have hmem : Mutex.resourceManager ∈ insert Mutex.resourceManager (∅ : Set Mutex) :=
    Set.mem_insert _ _
  refine sound_locked (Set.notMem_empty _) fun s₁ hagree hlimits => Sound.bind ?_
  refine sound_readManager (fun _ manager => manager.resourceLimits[resourceId]?) hmem
    fun i s₂ hagree₂ => ?_
  have hlimits₂ : (serverGuard timeout).inv .resourceManager s₂.manager := by
    rw [manager_eq hmem hagree₂]
    exact hlimits
  split
  · rename_i hnone
    refine sound_pure ⟨rfl, hlimits₂, hQ _ _ _ s₂ ⟨List.subset_cons_self _ _, nofun⟩
      List.mem_cons_self ?_⟩
    change none = (s₂.manager.resourceLimits[resourceId]?).map _
    rw [hnone]
    rfl
  · rename_i it hit
    refine Sound.bind (sound_getClientsForResource resourceId registry_free
      fun seen₃ x hsince hx hmirrors => sound_pure ⟨rfl, ?_, ?_⟩)
    · change (serverGuard timeout).inv .resourceManager x.manager
      rw [manager_eq hmem hsince.agree]
      exact hlimits₂
    · -- the limit is still what it was, the manager's mutex being held
      refine hQ _ _ _ x ⟨fun y hy => hsince.seen (List.mem_cons_of_mem _ hy), nofun⟩ hx ?_
      change _ = (x.manager.resourceLimits[resourceId]?).map _
      rw [manager_eq hmem hsince.agree, hit, (sameContents_recorded hmirrors).interested]
      rfl

/-- **`GetAllocation`** answers from one state: the limit it reads first is
still in force where it counts the clients. -/
theorem sound_managerGetAllocation {Q : ℚ → Set Mutex → List Server → Server → Prop}
    (clientId : ClientId) (resourceId : ResourceId)
    (hQ : ∀ seen' s' x, (serverGuard timeout).Since ∅ seen s seen' s' → x ∈ seen' →
      Q (x.recorded.allocation clientId resourceId) ∅ seen' s') :
    (managerGetAllocation clientId resourceId).Sound (serverGuard timeout) Q ∅ seen s := by
  have hmem : Mutex.resourceManager ∈ insert Mutex.resourceManager (∅ : Set Mutex) :=
    Set.mem_insert _ _
  refine sound_locked (Set.notMem_empty _) fun s₁ hagree hlimits => Sound.bind ?_
  refine sound_readManager (fun _ manager => manager.resourceLimits[resourceId]?) hmem
    fun i s₂ hagree₂ => ?_
  have hlimits₂ : (serverGuard timeout).inv .resourceManager s₂.manager := by
    rw [manager_eq hmem hagree₂]
    exact hlimits
  split
  · rename_i hnone
    have hdone := hQ (s₂ :: seen) s₂ s₂ ⟨List.subset_cons_self _ _, nofun⟩ List.mem_cons_self
    have hzero : s₂.recorded.allocation clientId resourceId = 0 := by
      have hlimit : s₂.recorded.limits[resourceId]? = none := hnone
      rw [Reference.allocation, hlimit]
    rw [hzero] at hdone
    exact sound_pure ⟨rfl, hlimits₂, hdone⟩
  · rename_i rateLimit hlimit
    refine Sound.bind (sound_getClientsForResource resourceId registry_free
      fun seen₃ x hsince hx hmirrors => ?_)
    have hlimits₃ : (serverGuard timeout).inv .resourceManager x.manager := by
      rw [manager_eq hmem hsince.agree]
      exact hlimits₂
    have hdone := hQ seen₃ x x ⟨fun y hy => hsince.seen (List.mem_cons_of_mem _ hy), nofun⟩ hx
    have hshare : x.recorded.allocation clientId resourceId =
        if clientId ∈ x.registry.clientsForResourceLocked resourceId then
          rateLimit / (x.registry.clientsForResourceLocked resourceId).card else 0 := by
      rw [← (sameContents_recorded hmirrors).share, ResourceManager.share, manager_eq hmem hsince.agree,
        hlimit]
    rw [hshare] at hdone
    dsimp only
    split
    · rename_i hin
      rw [if_pos hin] at hdone
      rw [if_neg (Finset.card_ne_zero_of_mem hin)]
      exact sound_pure ⟨rfl, hlimits₃, hdone⟩
    · rename_i hout
      rw [if_neg hout] at hdone
      exact sound_pure ⟨rfl, hlimits₃, hdone⟩

/-- **`GetAllAllocations`** names the interests of one state, and each share
is that of some state. -/
theorem sound_getAllAllocations
    {Q : OrderedMap ResourceId ℚ → Set Mutex → List Server → Server → Prop} (clientId : ClientId)
    (hQ : ∀ allocations seen' s' x, (serverGuard timeout).Since ∅ seen s seen' s' → x ∈ seen' →
      (∀ r, r ∈ allocations ↔ r ∈ x.registry.interestedResourcesLocked clientId) →
      (∀ (r : ResourceId) (v : ℚ), allocations[r]? = some v →
        ∃ y ∈ seen', v = y.recorded.allocation clientId r) → Q allocations ∅ seen' s') :
    (getAllAllocations clientId).Sound (serverGuard timeout) Q ∅ seen s := by
  refine Sound.bind (sound_getInterestedResources clientId (Set.notMem_empty _)
    fun seen₁ x hsince hx => ?_)
  -- the loop has shares for the resources it is through with, each met on the way
  refine Sound.mono (sound_foldlM (J := fun past allocations seen' s' =>
    (serverGuard timeout).Since ∅ seen₁ x seen' s' ∧ (∀ r, r ∈ allocations ↔ r ∈ past) ∧
      ∀ (r : ResourceId) (v : ℚ), allocations[r]? = some v →
        ∃ y ∈ seen', v = y.recorded.allocation clientId r) ?_ _ [] ∅ _ _
    ⟨.refl _ _ _ _, fun r => by simp, fun r v hv => by simp at hv⟩) ?_
  · rintro past r₀ allocations seen₂ s₂ ⟨hlater, hkeys, hvalues⟩
    refine Sound.bind (sound_managerGetAllocation clientId r₀ fun seen₃ s₃ y hsince₃ hy =>
      sound_pure ⟨rfl, hlater.trans hsince₃, fun r => ?_, fun r v hv => ?_⟩)
    · rw [Std.ExtTreeMap.mem_insert, hkeys r, List.mem_append, List.mem_singleton,
        Std.LawfulEqCmp.compare_eq_iff_eq, or_comm, eq_comm]
    · rw [OrderedMap.lookup_insert] at hv
      split at hv
      · rename_i heq
        subst heq
        exact ⟨y, hy, (Option.some.inj hv).symm⟩
      · obtain ⟨y', hy', hv'⟩ := hvalues r v hv
        exact ⟨y', hsince₃.seen hy', hv'⟩
  · rintro allocations held' seen' s' ⟨rfl, hlater, hkeys, hvalues⟩
    refine hQ allocations seen' s' x (hsince.trans hlater) (hlater.seen hx) (fun r => ?_) hvalues
    rw [hkeys r, List.nil_append, Finset.mem_ascending]

end ServerProg

end Throttling
