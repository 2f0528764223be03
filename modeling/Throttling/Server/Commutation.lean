import Throttling.Server.FairShares
/-!
# The order in which different clients are served

At one reading a request edits the entry of its own client, or of its
own resource, and whatever else it does is the expiry of clients that
are stale already. So on the registry as a pass leaves it, what becomes
of a client depends on the requests of that client alone, and the
reverse index, being the mirror of the clients, on no more than that.
-/

namespace Throttling

open ClientRegistry ResourceManager

/-- What a request may change: a client's entry, or a resource's limit. -/
inductive Subject where
  | client (clientId : ClientId)
  | resource (resourceId : ResourceId)
deriving DecidableEq

/-- The two queries change nothing but what is stale. -/
def Request.subject : Request → Option Subject
  | .registerClient clientId => some (.client clientId)
  | .unregisterClient clientId => some (.client clientId)
  | .heartbeat clientId _ => some (.client clientId)
  | .getAllocation _ _ => none
  | .setResourceLimit resourceId _ => some (.resource resourceId)
  | .getResourceLimit _ => none

namespace Server

/-- Requests served one after another at one reading. -/
def serve (s : Server) (now : TimePoint) (requests : List Request) : Server :=
  requests.foldl (fun s request => (s.rpc request now).2) s

/-- **The same up to expiry**: the maps are equal once the clients stale at
the reading are removed. -/
structure SettledEq (s s' : Server) (now : TimePoint) : Prop where
  clients : (s.registry.expiredAt now).clients = (s'.registry.expiredAt now).clients
  resourceToClients : (s.registry.expiredAt now).resourceToClients =
    (s'.registry.expiredAt now).resourceToClients
  resourceLimits : s.manager.resourceLimits = s'.manager.resourceLimits

/-- **Serving in either order comes to the same**, at a reading. -/
structure OrderIrrelevant (s : Server) (now : TimePoint) : Prop where
  /-- Two requests of different subjects commute. -/
  commute : ∀ p q : Request, (∀ k, p.subject = some k → q.subject ≠ some k) →
    SettledEq (((s.rpc p now).2.rpc q now).2) (((s.rpc q now).2.rpc p now).2) now
  /-- Two interleavings with the same requests of each subject give the
  same allocations, then and later. -/
  interleave : ∀ l l' : List Request,
    (∀ k, (l.filter fun q => q.subject = some k) = l'.filter fun q => q.subject = some k) →
    ∀ later, now ≤ later → ∀ (c : ClientId) (r : ResourceId),
      ((s.serve now l).manager.getAllocation (s.serve now l).registry c r later).1 =
        ((s.serve now l').manager.getAllocation (s.serve now l').registry c r later).1

end Server

/-! ## A request, on the registry as the pass leaves it -/

/-- The section a request runs on the registry, if any. -/
def Request.write (request : Request) (now : TimePoint) (reg : ClientRegistry) : ClientRegistry :=
  match request with
  | .registerClient clientId =>
    if clientId.isEmpty then reg else (reg.registerClientLocked clientId now).2
  | .unregisterClient clientId => (reg.unregisterClientLocked clientId).2
  | .heartbeat clientId resourceIds =>
    if clientId.isEmpty then reg else (reg.heartbeatLocked clientId resourceIds.toFinset now).2
  | _ => reg

variable {s s' : Server} {reg reg' : ClientRegistry} {now later : TimePoint} {request : Request}
variable {c : ClientId}

theorem getAllocation_snd (m : ResourceManager ℚ) (reg : ClientRegistry) (c : ClientId)
    (r : ResourceId) (now : TimePoint) :
    (m.getAllocation reg c r now).2 = reg ∨ (m.getAllocation reg c r now).2 = reg.expiredAt now := by
  cases h : m.resourceLimits[r]? with
  | none => exact Or.inl (by rw [getAllocation_of_unconfigured h])
  | some limit => exact Or.inr (by rw [getAllocation_of_configured h])

theorem getResourceInfo_snd (m : ResourceManager ℚ) (reg : ClientRegistry) (r : ResourceId)
    (now : TimePoint) :
    (m.getResourceInfo reg r now).2 = reg ∨ (m.getResourceInfo reg r now).2 = reg.expiredAt now := by
  unfold getResourceInfo
  split
  · exact Or.inl rfl
  · exact Or.inr rfl

/-- **What a request leaves of the registry**: the registry, or a pass of
it with the request's section run on it, or another pass of that. -/
theorem Server.rpc_registry (s : Server) (request : Request) (now : TimePoint) :
    (s.rpc request now).2.registry = s.registry ∧
        request.write now (s.registry.expiredAt now) = s.registry.expiredAt now ∨
      (s.rpc request now).2.registry = request.write now (s.registry.expiredAt now) ∨
      (s.rpc request now).2.registry =
        (request.write now (s.registry.expiredAt now)).expiredAt now := by
  cases request with
  | registerClient clientId =>
    simp only [rpc, registerClient, Request.write, ClientRegistry.registerClient]
    by_cases hempty : clientId.isEmpty = true
    · exact Or.inl (by simp [hempty])
    · exact Or.inr (Or.inl (by simp [hempty, expiredAt]))
  | unregisterClient clientId => exact Or.inr (Or.inl rfl)
  | heartbeat clientId resourceIds =>
    simp only [rpc, heartbeat, Request.write]
    by_cases hempty : clientId.isEmpty = true
    · exact Or.inl (by simp [hempty])
    · right
      rw [if_neg hempty, if_neg hempty]
      split
      · exact Or.inl rfl
      · -- the shares of an accepted heartbeat take one more pass
        exact Or.inr (by rw [getAllAllocations_eq]; rfl)
  | getAllocation clientId resourceId =>
    simp only [rpc, getAllocation]
    split
    · exact Or.inl ⟨rfl, rfl⟩
    · rcases getAllocation_snd s.manager s.registry clientId resourceId now with h | h
      · exact Or.inl ⟨h, rfl⟩
      · exact Or.inr (Or.inl h)
  | setResourceLimit resourceId rateLimit =>
    simp only [rpc, setResourceLimit]
    split <;> exact Or.inl ⟨rfl, rfl⟩
  | getResourceLimit resourceId =>
    have hleft : (s.rpc (.getResourceLimit resourceId) now).2.registry =
        (s.manager.getResourceInfo s.registry resourceId now).2 := by
      simp only [rpc, getResourceLimit]
      split <;> rfl
    rw [hleft]
    rcases getResourceInfo_snd s.manager s.registry resourceId now with h | h
    · exact Or.inl ⟨h, rfl⟩
    · exact Or.inr (Or.inl h)

/-- **Up to expiry a request is its section.** -/
theorem Server.expiredAt_rpc (s : Server) (request : Request) (now : TimePoint) :
    (s.rpc request now).2.registry.expiredAt now =
      (request.write now (s.registry.expiredAt now)).expiredAt now := by
  rcases s.rpc_registry request now with ⟨h, hnone⟩ | h | h
  · rw [h, hnone, expiredAt_expiredAt]
  · rw [h]
  · rw [h, expiredAt_expiredAt]

theorem ClientRegistry.IndexMirrors.write (h : reg.IndexMirrors) (request : Request) (now : TimePoint) :
    (request.write now reg).IndexMirrors := by
  cases request with
  | registerClient clientId =>
    rw [Request.write]
    split
    · exact h
    · exact h.registerClientLocked clientId now
  | unregisterClient clientId => exact h.unregisterClientLocked clientId
  | heartbeat clientId resourceIds =>
    rw [Request.write]
    split
    · exact h
    · exact h.heartbeatLocked clientId _ now
  | _ => exact h

theorem Server.indexMirrors_rpc (h : s.registry.IndexMirrors) (request : Request)
    (now : TimePoint) : (s.rpc request now).2.registry.IndexMirrors := by
  have hwrite := (h.expireStaleClients fun _ => now).write request now
  rcases s.rpc_registry request now with ⟨heq, -⟩ | heq | heq
  · rw [heq]; exact h
  · rw [heq]; exact hwrite
  · rw [heq]; exact hwrite.expireStaleClients _

theorem Request.write_heartbeatTimeout (request : Request) (now : TimePoint)
    (reg : ClientRegistry) : (request.write now reg).heartbeatTimeout = reg.heartbeatTimeout := by
  cases request with
  | registerClient clientId => rw [write]; split <;> simp
  | unregisterClient clientId => simp [write]
  | heartbeat clientId resourceIds => rw [write]; split <;> simp
  | _ => rfl

/-- A request of somebody else leaves a client's entry. -/
theorem Request.lookup_write_of_ne (h : request.subject ≠ some (.client c)) (now : TimePoint)
    (reg : ClientRegistry) : (request.write now reg).clients[c]? = reg.clients[c]? := by
  cases request with
  | registerClient clientId =>
    have hc : clientId ≠ c := fun heq => h (by rw [subject, heq])
    rw [write]
    split
    · rfl
    · rw [lookup_registerClientLocked, if_neg hc]
  | unregisterClient clientId =>
    have hc : clientId ≠ c := fun heq => h (by rw [subject, heq])
    rw [write, lookup_unregisterClientLocked, if_neg hc]
  | heartbeat clientId resourceIds =>
    have hc : clientId ≠ c := fun heq => h (by rw [subject, heq])
    rw [write]
    split
    · rfl
    · cases hinfo : reg.clients[clientId]? with
      | none => rw [heartbeatLocked_of_none hinfo]
      | some info => rw [lookup_heartbeatLocked hinfo, if_neg hc]
  | _ => rfl

/-- And one of its own sees that entry alone. -/
theorem Request.lookup_write_congr (hc : request.subject = some (.client c))
    (h : reg.clients[c]? = reg'.clients[c]?) (now : TimePoint) :
    (request.write now reg).clients[c]? = (request.write now reg').clients[c]? := by
  cases request with
  | registerClient clientId =>
    obtain rfl : clientId = c := by simpa [subject] using hc
    rw [write, write]
    split
    · exact h
    · rw [lookup_registerClientLocked, lookup_registerClientLocked, interestedResourcesLocked,
        interestedResourcesLocked, h]
  | unregisterClient clientId =>
    obtain rfl : clientId = c := by simpa [subject] using hc
    rw [write, write, lookup_unregisterClientLocked, lookup_unregisterClientLocked, h]
  | heartbeat clientId resourceIds =>
    obtain rfl : clientId = c := by simpa [subject] using hc
    rw [write, write]
    split
    · exact h
    · cases hinfo : reg.clients[clientId]? with
      | none =>
        rw [heartbeatLocked_of_none hinfo, heartbeatLocked_of_none (h ▸ hinfo)]
        exact h
      | some info =>
        rw [lookup_heartbeatLocked hinfo, lookup_heartbeatLocked (h ▸ hinfo), if_pos rfl, if_pos rfl]
  | getAllocation => cases hc
  | setResourceLimit => simp [subject] at hc
  | getResourceLimit => cases hc

/-! ## What becomes of a client, and of a limit -/

/-- What is known of a client once the stale are removed, and the timeout
that decides who is. -/
def Server.settledClient (now : TimePoint) (c : ClientId) (s : Server) : ℤ × Option ClientInfo :=
  (s.registry.heartbeatTimeout, (s.registry.expiredAt now).clients[c]?)

/-- The limit of a resource. -/
def Server.limit (r : ResourceId) (s : Server) : Option ℚ := s.manager.resourceLimits[r]?

theorem Server.rpc_heartbeatTimeout (s : Server) (request : Request) (now : TimePoint) :
    (s.rpc request now).2.registry.heartbeatTimeout = s.registry.heartbeatTimeout := by
  have hwrite : (request.write now (s.registry.expiredAt now)).heartbeatTimeout =
      s.registry.heartbeatTimeout := by
    rw [request.write_heartbeatTimeout, expiredAt, expireStaleClients_heartbeatTimeout]
  rcases s.rpc_registry request now with ⟨heq, -⟩ | heq | heq
  · rw [heq]
  · rw [heq, hwrite]
  · rw [heq, expiredAt, expireStaleClients_heartbeatTimeout, hwrite]

/-- **Requests of others leave a client as it was**, but for expiry. -/
theorem Server.settledClient_rpc_of_ne (h : request.subject ≠ some (.client c)) :
    (s.rpc request now).2.settledClient now c = s.settledClient now c := by
  have htimeout : (request.write now (s.registry.expiredAt now)).heartbeatTimeout =
      (s.registry.expiredAt now).heartbeatTimeout := request.write_heartbeatTimeout now _
  rw [settledClient, settledClient, rpc_heartbeatTimeout, expiredAt_rpc,
    lookup_expiredAt_congr htimeout (request.lookup_write_of_ne h now _), expiredAt_expiredAt]

/-- **And its own make of it what they make of its entry.** -/
theorem Server.settledClient_rpc_congr (hc : request.subject = some (.client c))
    (h : s.settledClient now c = s'.settledClient now c) :
    (s.rpc request now).2.settledClient now c = (s'.rpc request now).2.settledClient now c := by
  obtain ⟨htimeout, hentry⟩ := Prod.mk.inj h
  have htimeout' : (request.write now (s.registry.expiredAt now)).heartbeatTimeout =
      (request.write now (s'.registry.expiredAt now)).heartbeatTimeout := by
    simp only [request.write_heartbeatTimeout, expiredAt, expireStaleClients_heartbeatTimeout,
      htimeout]
  rw [settledClient, settledClient, rpc_heartbeatTimeout, rpc_heartbeatTimeout, htimeout,
    expiredAt_rpc, expiredAt_rpc,
    lookup_expiredAt_congr htimeout' (request.lookup_write_congr hc hentry now)]

theorem Server.limit_rpc_of_ne {r : ResourceId} (h : request.subject ≠ some (.resource r)) :
    (s.rpc request now).2.limit r = s.limit r := by
  have hsame : (∀ r' v, request ≠ .setResourceLimit r' v) →
      (s.rpc request now).2.manager = s.manager := by
    intro hne
    cases request with
    | registerClient clientId => simp only [rpc, registerClient]; split <;> rfl
    | unregisterClient clientId => rfl
    | heartbeat clientId resourceIds =>
      simp only [rpc, heartbeat]
      split
      · rfl
      · split <;> rfl
    | getAllocation clientId resourceId => simp only [rpc, getAllocation]; split <;> rfl
    | setResourceLimit resourceId rateLimit => exact absurd rfl (hne _ _)
    | getResourceLimit resourceId => simp only [rpc, getResourceLimit]; split <;> rfl
  by_cases hset : ∃ r' v, request = .setResourceLimit r' v
  · obtain ⟨r', v, rfl⟩ := hset
    have hr : r' ≠ r := fun heq => h (by rw [Request.subject, heq])
    simp only [limit, rpc, setResourceLimit, ResourceManager.setResourceLimit]
    by_cases hneg : v < 0
    · simp [hneg]
    · simp [hneg, OrderedMap.lookup_insert, hr]
  · rw [limit, limit, hsame fun r' v heq => hset ⟨r', v, heq⟩]

theorem Server.limit_rpc_congr {r : ResourceId} (hr : request.subject = some (.resource r))
    (h : s.limit r = s'.limit r) :
    (s.rpc request now).2.limit r = (s'.rpc request now).2.limit r := by
  cases request with
  | setResourceLimit resourceId rateLimit =>
    simp only [limit] at h
    simp only [limit, rpc, setResourceLimit, ResourceManager.setResourceLimit]
    by_cases hneg : rateLimit < 0
    · simp [hneg, h]
    · simp [hneg, OrderedMap.lookup_insert, h]
  | getAllocation => cases hr
  | getResourceLimit => cases hr
  | _ => simp [Request.subject] at hr

/-! ## Whole servers -/

/-- Two servers with the same view of every client and every limit. -/
theorem settledEq_of_views (hs : s.registry.IndexMirrors) (hs' : s'.registry.IndexMirrors)
    (hclients : ∀ c, s.settledClient now c = s'.settledClient now c)
    (hlimits : ∀ r, s.limit r = s'.limit r) : s.SettledEq s' now := by
  have heq : (s.registry.expiredAt now).clients = (s'.registry.expiredAt now).clients :=
    Std.ExtTreeMap.ext_getElem? fun c => (Prod.mk.inj (hclients c)).2
  exact ⟨heq, (hs.expireStaleClients _).resourceToClients_eq (hs'.expireStaleClients _) heq,
    Std.ExtTreeMap.ext_getElem? hlimits⟩

/-- A view at a reading is one at every later reading. -/
theorem settledClient_later (hle : now ≤ later) (h : s.settledClient now c = s'.settledClient now c) :
    s.settledClient later c = s'.settledClient later c := by
  obtain ⟨htimeout, hentry⟩ := Prod.mk.inj h
  have htimeout' : (s.registry.expiredAt now).heartbeatTimeout =
      (s'.registry.expiredAt now).heartbeatTimeout := by simp [expiredAt, htimeout]
  have hlater := lookup_expiredAt_congr htimeout' hentry later
  rw [lookup_expiredAt_expiredAt hle, lookup_expiredAt_expiredAt hle] at hlater
  exact Prod.ext htimeout hlater

/-- Which resources have whom, and their limits, are all a share is read
off. -/
theorem Server.SettledEq.share_eq (h : s.SettledEq s' now) (c : ClientId) (r : ResourceId) :
    s.manager.share (s.registry.expiredAt now) c r =
      s'.manager.share (s'.registry.expiredAt now) c r := by
  have hcounted : (s.registry.expiredAt now).clientsForResourceLocked r =
      (s'.registry.expiredAt now).clientsForResourceLocked r := by
    rw [clientsForResourceLocked, clientsForResourceLocked, h.resourceToClients]
  rw [share, share, hcounted, h.resourceLimits]

theorem Server.indexMirrors_serve (h : s.registry.IndexMirrors) (now : TimePoint)
    (requests : List Request) : (s.serve now requests).registry.IndexMirrors := by
  rw [serve]
  induction requests generalizing s with
  | nil => exact h
  | cons request rest ih => exact ih (s.indexMirrors_rpc h request now)

/-- **Runs with the same requests of each subject** end with the same view
of every client and every limit. -/
theorem views_serve (s : Server) (now : TimePoint) {l l' : List Request}
    (h : ∀ k, (l.filter fun q => q.subject = some k) = l'.filter fun q => q.subject = some k) :
    (∀ c, (s.serve now l).settledClient now c = (s.serve now l').settledClient now c) ∧
      ∀ r, (s.serve now l).limit r = (s.serve now l').limit r := by
  refine ⟨fun c => ?_, fun r => ?_⟩
  · exact view_foldl_eq (fun s (q : Request) => (Server.rpc s q now).2) (Server.settledClient now c)
      (fun q => q.subject = some (.client c))
      (fun s q hq => s.settledClient_rpc_of_ne (of_decide_eq_false hq))
      (fun s t q hq heq => s.settledClient_rpc_congr (of_decide_eq_true hq) heq) (h _) s
  · exact view_foldl_eq (fun s (q : Request) => (Server.rpc s q now).2) (Server.limit r)
      (fun q => q.subject = some (.resource r))
      (fun s q hq => s.limit_rpc_of_ne (of_decide_eq_false hq))
      (fun s t q hq heq => s.limit_rpc_congr (of_decide_eq_true hq) heq) (h _) s

/-- **The outcome does not depend on the order in which different clients
are served**, from any reachable state, at any reading. -/
theorem orderIrrelevant_of_reachable {heartbeatTimeout : ℤ} {s : ServerThreads}
    (h : (serverSystem heartbeatTimeout).Reachable s) (now : TimePoint) :
    Server.OrderIrrelevant ⟨s.threads.registry, s.manager⟩ now := by
  have hmirrors := indexMirrors_of_reachable (registry_reachable h)
  have hserve := fun requests =>
    Server.indexMirrors_serve (s := ⟨s.threads.registry, s.manager⟩) hmirrors now requests
  refine ⟨fun p q hpq => ?_, fun l l' hsame later hle c r => ?_⟩
  · -- at most one of the two is of a given subject
    have hsame : ∀ k, ([p, q].filter fun x => x.subject = some k) =
        [q, p].filter fun x => x.subject = some k := by
      intro k
      by_cases hp : p.subject = some k
      · simp [hp, hpq k hp]
      · simp [List.filter_cons, hp]
    obtain ⟨hclients, hlimits⟩ := views_serve ⟨s.threads.registry, s.manager⟩ now hsame
    exact settledEq_of_views (hserve [p, q]) (hserve [q, p]) hclients hlimits
  · obtain ⟨hclients, hlimits⟩ := views_serve ⟨s.threads.registry, s.manager⟩ now hsame
    have heq := settledEq_of_views (hserve l) (hserve l')
      (fun c => settledClient_later hle (hclients c)) hlimits
    rw [getAllocation_fst, getAllocation_fst]
    exact heq.share_eq c r

theorem twoClientsRun_orderIrrelevant :
    ∃ s, (serverSystem 30).runFrom (serverSystem 30).init twoClientsRun = some s ∧
      Server.OrderIrrelevant ⟨s.threads.registry, s.manager⟩ 9 := by
  obtain ⟨s, hs⟩ : ∃ s, (serverSystem 30).runFrom (serverSystem 30).init twoClientsRun = some s :=
    ⟨_, rfl⟩
  exact ⟨s, hs, orderIrrelevant_of_reachable (GuardedSystem.Reachable.runFrom .init hs) 9⟩

end Throttling
