import Throttling.Server.Model.Locking
/-!
# No deadlock between the server's two mutexes

The manager queries the registry with its own mutex held, and the registry
calls the manager back with its own held. The callbacks take no mutex, so
there is one order after all: the manager's before the registry's. Each
function of the source keeps to it, from whatever it may be called with
held, and the rest is the discipline's (`Common/Locking.lean`).
-/

namespace Throttling

/-- The manager's mutex is taken first. -/
def Mutex.rank : Mutex → ℕ
  | .resourceManager => 1
  | .clientRegistry => 0

namespace ServerProg

open Prog

variable {held : Set Mutex}

/-! ## The order -/

/-- Held on entry to a function that takes the registry's mutex: not that
one. -/
def RegistryFree (held : Set Mutex) : Prop := ∀ m ∈ held, Mutex.rank .clientRegistry < m.rank

theorem registryFree_empty : RegistryFree ∅ := fun _ h => h.elim

/-- The manager's mutex may be held then. -/
theorem registryFree_resourceManager : RegistryFree (insert .resourceManager ∅) := by
  rintro m (rfl | h)
  · exact Nat.zero_lt_one
  · exact h.elim

/-- **The listener's callbacks take nothing**, whatever is held. -/
theorem ordered_notifyListener (event : ListenerEvent) :
    (notifyListener event).Ordered Mutex.rank held held := by
  refine (ordered_read _).bind fun listener => ?_
  cases listener with
  | false => exact ordered_pure ()
  | true => cases event <;> exact ordered_pure ()

theorem ordered_removeClientLocked (clientId : ClientId) :
    (removeClientLocked clientId).Ordered Mutex.rank held held := by
  refine (ordered_perform _).bind fun it => ?_
  cases it with
  | none => exact ordered_pure ()
  | some info => exact ordered_notifyListener _

theorem ordered_expireStaleClients (hfree : RegistryFree held) :
    expireStaleClients.Ordered Mutex.rank held held :=
  ordered_locked hfree ((ordered_read _).bind fun staleClients =>
    ordered_foldlM (fun _ clientId => ordered_removeClientLocked clientId) staleClients ())

/-- **An operation of the registry** is its expiry pass and then a section
of its own. -/
theorem ordered_registryOperation {α : Type} {body : ServerProg α} (hfree : RegistryFree held)
    (hbody : body.Ordered Mutex.rank (insert .clientRegistry held) (insert .clientRegistry held)) :
    (expireStaleClients >>= fun _ => locked .clientRegistry body).Ordered Mutex.rank held held :=
  (ordered_expireStaleClients hfree).bind fun _ => ordered_locked hfree hbody

theorem ordered_registryRegisterClient (clientId : ClientId) (hfree : RegistryFree held) :
    (registryRegisterClient clientId).Ordered Mutex.rank held held := by
  unfold registryRegisterClient
  split
  · exact ordered_pure false
  · refine ordered_registryOperation hfree ((ordered_read _).bind fun it =>
      (ordered_perform _).bind fun success => ?_)
    cases it with
    | some _ => exact ordered_pure success
    | none => exact (ordered_notifyListener _).bind fun _ => ordered_pure success

theorem ordered_registryHeartbeat (clientId : ClientId) (resourceIds : Finset ResourceId)
    (hfree : RegistryFree held) :
    (registryHeartbeat clientId resourceIds).Ordered Mutex.rank held held := by
  refine ordered_registryOperation hfree ((ordered_read _).bind fun it =>
    (ordered_perform _).bind fun success => ?_)
  cases it with
  | none => exact ordered_pure success
  | some it =>
    dsimp only
    split
    · exact (ordered_notifyListener _).bind fun _ => ordered_pure success
    · exact ordered_pure success

theorem ordered_registryUnregisterClient (clientId : ClientId) (hfree : RegistryFree held) :
    (registryUnregisterClient clientId).Ordered Mutex.rank held held := by
  refine ordered_registryOperation hfree ((ordered_read _).bind fun it => ?_)
  cases it with
  | none => exact ordered_pure true
  | some _ => exact (ordered_removeClientLocked clientId).bind fun _ => ordered_pure true

theorem ordered_getClientsForResource (resourceId : ResourceId) (hfree : RegistryFree held) :
    (getClientsForResource resourceId).Ordered Mutex.rank held held :=
  ordered_registryOperation hfree (ordered_read _)

theorem ordered_getInterestedResources (clientId : ClientId) (hfree : RegistryFree held) :
    (getInterestedResources clientId).Ordered Mutex.rank held held :=
  ordered_registryOperation hfree (ordered_read _)

/-- The manager's operations start with nothing held. -/
theorem ordered_managerSetResourceLimit (resourceId : ResourceId) (rateLimit : ℚ) :
    (managerSetResourceLimit resourceId rateLimit).Ordered Mutex.rank ∅ ∅ := by
  unfold managerSetResourceLimit
  split
  · exact ordered_pure false
  · exact ordered_locked (fun _ h => h.elim) (ordered_perform _)

theorem ordered_getResourceInfo (resourceId : ResourceId) :
    (getResourceInfo resourceId).Ordered Mutex.rank ∅ ∅ := by
  refine ordered_locked (fun _ h => h.elim) ((ordered_read _).bind fun it => ?_)
  cases it with
  | none => exact ordered_pure none
  | some it =>
    exact (ordered_getClientsForResource resourceId registryFree_resourceManager).bind
      fun clients => ordered_pure _

/-- **`GetAllocation` queries the registry with the manager's mutex held.** -/
theorem ordered_managerGetAllocation (clientId : ClientId) (resourceId : ResourceId) :
    (managerGetAllocation clientId resourceId).Ordered Mutex.rank ∅ ∅ := by
  refine ordered_locked (fun _ h => h.elim) ((ordered_read _).bind fun it => ?_)
  cases it with
  | none => exact ordered_pure 0
  | some rateLimit =>
    refine (ordered_getClientsForResource resourceId registryFree_resourceManager).bind
      fun interestedClients => ?_
    dsimp only
    split
    · split
      · exact ordered_pure 0
      · exact ordered_pure _
    · exact ordered_pure 0

theorem ordered_getAllAllocations (clientId : ClientId) :
    (getAllAllocations clientId).Ordered Mutex.rank ∅ ∅ :=
  (ordered_getInterestedResources clientId registryFree_empty).bind fun _ =>
    ordered_foldlM (fun _ resourceId =>
      (ordered_managerGetAllocation clientId resourceId).bind fun _ => ordered_pure _) _ _

/-! ## The handlers -/

theorem ordered_registerClient (clientId : ClientId) :
    (registerClient clientId).Ordered Mutex.rank ∅ ∅ := by
  unfold registerClient
  split
  · exact ordered_pure _
  · exact (ordered_registryRegisterClient clientId registryFree_empty).bind
      fun _ => ordered_pure _

theorem ordered_unregisterClient (clientId : ClientId) :
    (unregisterClient clientId).Ordered Mutex.rank ∅ ∅ :=
  (ordered_registryUnregisterClient clientId registryFree_empty).bind fun _ => ordered_pure _

theorem ordered_heartbeat (clientId : ClientId) (resourceIds : List ResourceId) :
    (heartbeat clientId resourceIds).Ordered Mutex.rank ∅ ∅ := by
  unfold heartbeat
  split
  · exact ordered_pure _
  · refine (ordered_registryHeartbeat clientId _ registryFree_empty).bind fun success => ?_
    split
    · exact ordered_pure _
    · exact (ordered_getAllAllocations clientId).bind fun _ => ordered_pure _

theorem ordered_getAllocation (clientId : ClientId) (resourceId : ResourceId) :
    (getAllocation clientId resourceId).Ordered Mutex.rank ∅ ∅ := by
  unfold getAllocation
  split
  · exact ordered_pure _
  · exact (ordered_managerGetAllocation clientId resourceId).bind fun _ => ordered_pure _

theorem ordered_setResourceLimit (resourceId : ResourceId) (rateLimit : ℚ) :
    (setResourceLimit resourceId rateLimit).Ordered Mutex.rank ∅ ∅ := by
  refine (ordered_managerSetResourceLimit resourceId rateLimit).bind fun success => ?_
  split
  · exact ordered_pure _
  · exact ordered_pure _

theorem ordered_getResourceLimit (resourceId : ResourceId) :
    (getResourceLimit resourceId).Ordered Mutex.rank ∅ ∅ := by
  refine (ordered_getResourceInfo resourceId).bind fun info => ?_
  cases info with
  | none => exact ordered_pure _
  | some info => exact ordered_pure _

/-- **Every handler keeps to the order.** -/
theorem ordered_handler (request : Request) : (handler request).Ordered Mutex.rank ∅ ∅ := by
  cases request with
  | registerClient clientId =>
    exact (ordered_registerClient clientId).bind fun _ => ordered_pure _
  | unregisterClient clientId =>
    exact (ordered_unregisterClient clientId).bind fun _ => ordered_pure _
  | heartbeat clientId resourceIds =>
    exact (ordered_heartbeat clientId resourceIds).bind fun _ => ordered_pure _
  | getAllocation clientId resourceId =>
    exact (ordered_getAllocation clientId resourceId).bind fun _ => ordered_pure _
  | setResourceLimit resourceId rateLimit =>
    exact (ordered_setResourceLimit resourceId rateLimit).bind fun _ => ordered_pure _
  | getResourceLimit resourceId =>
    exact (ordered_getResourceLimit resourceId).bind fun _ => ordered_pure _

end ServerProg

/-! ## The result -/

variable {heartbeatTimeout : ℤ} {s : LockState Mutex Readings Server (Status × Response) ℕ}

theorem disciplined_of_serverLockSystem (h : (serverLockSystem heartbeatTimeout).Reachable s) :
    s.Disciplined Mutex.rank :=
  LockState.disciplined_of_reachable ServerProg.ordered_handler h

/-- **The server's locks cannot deadlock**, whatever handlers any number of
threads run and however their steps interleave: no thread takes a mutex
it holds, and no set of threads has each of them waiting for a mutex that
another of them holds. -/
theorem no_deadlock_of_reachable (h : (serverLockSystem heartbeatTimeout).Reachable s) :
    (∀ t m, s.wants t = some m → s.holder m ≠ some t) ∧
      ∀ S : Set ℕ, S.Nonempty → ¬ ∀ t ∈ S, ∃ t' ∈ S, t' ≠ t ∧ s.WaitsFor t t' := by
  have hdisciplined := disciplined_of_serverLockSystem h
  refine ⟨fun t m => hdisciplined.not_wants_own, fun S hne hwaits => ?_⟩
  refine hdisciplined.no_circular_wait S hne fun t ht => ?_
  obtain ⟨t', ht', -, hwait⟩ := hwaits t ht
  exact ⟨t', ht', hwait⟩

/-- A limit is set; then one thread asks for an allocation and gets as far
as the registry, which another has locked for a heartbeat. -/
def contendedRun : List (LockAction Readings ℕ Request) :=
  let readings : Readings := ⟨fun _ => 0, 0⟩
  [.begin 0 (.setResourceLimit 1 10), .step 0 readings, .step 0 readings, .step 0 readings,
   .step 0 readings, .begin 0 (.getAllocation "a" 1), .step 0 readings, .step 0 readings,
   .begin 1 (.heartbeat "a" [1]), .step 1 readings]

theorem contendedRun_no_deadlock :
    ∃ s, (serverLockSystem 30).runFrom (serverLockSystem 30).init contendedRun = some s ∧
      s.WaitsFor 0 1 ∧ s.holder .resourceManager = some 0 ∧
      (∀ t m, s.wants t = some m → s.holder m ≠ some t) ∧
      ∀ S : Set ℕ, S.Nonempty → ¬ ∀ t ∈ S, ∃ t' ∈ S, t' ≠ t ∧ s.WaitsFor t t' := by
  have hrun : ((serverLockSystem 30).runFrom (serverLockSystem 30).init contendedRun).map
      (fun s => (s.wants 0, s.holder .clientRegistry, s.holder .resourceManager)) =
        some (some .clientRegistry, some 1, some 0) := by decide +kernel
  obtain ⟨s, hs, hreached⟩ := Option.map_eq_some_iff.mp hrun
  simp only [Prod.mk.injEq] at hreached
  obtain ⟨hwants, hregistry, hmanager⟩ := hreached
  exact ⟨s, hs, ⟨_, hwants, hregistry⟩, hmanager,
    no_deadlock_of_reachable (GuardedSystem.Reachable.runFrom .init hs)⟩

/-- **And the server never stops on them**: while a handler runs, some
handler can take its next step. -/
theorem exists_step_of_reachable (h : (serverLockSystem heartbeatTimeout).Reachable s)
    (hbusy : ∃ t, (s.threads t).isSome) (readings : Readings) :
    ∃ t, ((serverLockSystem heartbeatTimeout).step s (.step t readings)).isSome = true := by
  obtain ⟨t, ht⟩ := hbusy
  exact (disciplined_of_serverLockSystem h).exists_step ht readings

end Throttling
