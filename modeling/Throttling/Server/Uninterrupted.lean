import Throttling.Server.Model.Locking
/-!
# A handler nobody interrupts

The handlers as programs over the mutexes (`Server/Model/Locking.lean`)
and the handlers as functions (`Server/Model/Service.lean`) are the same
source read twice. Run alone, at one reading of the clock, the program of
an RPC comes to what the function says, function by function.
-/

namespace Throttling

/-- Every reading the same. -/
def Readings.constant (now : TimePoint) : Readings := ⟨fun _ => now, now⟩

namespace ServerProg

open Prog

variable {s : Server} {readings : Readings} {now : TimePoint}

@[simp] theorem run_notifyListener (event : ListenerEvent) :
    (notifyListener event).run readings s = ((), s) := by
  rw [notifyListener, run_bind, run_read]
  cases s.registry.listener with
  | false => rfl
  | true => cases event <;> rfl

@[simp] theorem run_removeClientLocked (clientId : ClientId) :
    (removeClientLocked clientId).run readings s =
      ((), { s with registry := s.registry.removeClientLocked clientId }) := by
  rw [removeClientLocked, run_bind, run_perform]
  dsimp only
  split
  · rfl
  · exact run_notifyListener _

@[simp] theorem run_expireStaleClients :
    expireStaleClients.run readings s =
      ((), { s with registry := s.registry.expireStaleClients readings.expiry }) := by
  have hloop : ∀ (l : List ClientId) (s : Server),
      (l.foldlM (fun _ clientId => removeClientLocked clientId) ()).run readings s =
        ((), { s with registry := l.foldl ClientRegistry.removeClientLocked s.registry }) := by
    intro l
    induction l with
    | nil => intro s; rfl
    | cons clientId l ih =>
      intro s
      rw [List.foldlM_cons, run_bind, run_removeClientLocked, ih]
      rfl
  rw [expireStaleClients, run_locked, run_bind, run_read, hloop]
  rfl

theorem run_registryOperation {α : Type} (body : ServerProg α) :
    (expireStaleClients >>= fun _ => locked .clientRegistry body).run readings s =
      body.run readings { s with registry := s.registry.expireStaleClients readings.expiry } := by
  rw [run_bind, run_expireStaleClients, run_locked]

theorem run_registryRegisterClient (clientId : ClientId) :
    (registryRegisterClient clientId).run (.constant now) s =
      ((s.registry.registerClient clientId (fun _ => now) now).1,
        { s with registry := (s.registry.registerClient clientId (fun _ => now) now).2 }) := by
  unfold registryRegisterClient ClientRegistry.registerClient
  split
  · rfl
  · rw [run_registryOperation, run_bind, run_read, run_bind, run_perform]
    dsimp only
    split
    · rfl
    · rw [run_bind, run_notifyListener]
      rfl

theorem run_registryHeartbeat (clientId : ClientId) (resourceIds : Finset ResourceId) :
    (registryHeartbeat clientId resourceIds).run (.constant now) s =
      ((s.registry.heartbeat clientId resourceIds (fun _ => now) now).1,
        { s with
          registry := (s.registry.heartbeat clientId resourceIds (fun _ => now) now).2 }) := by
  rw [registryHeartbeat, run_registryOperation, run_bind, run_read, run_bind, run_perform]
  dsimp only
  split
  · rfl
  · split
    · rw [run_bind, run_notifyListener]
      rfl
    · rfl

theorem run_registryUnregisterClient (clientId : ClientId) :
    (registryUnregisterClient clientId).run (.constant now) s =
      ((s.registry.unregisterClient clientId fun _ => now).1,
        { s with registry := (s.registry.unregisterClient clientId fun _ => now).2 }) := by
  rw [registryUnregisterClient, run_registryOperation, run_bind, run_read,
    ClientRegistry.unregisterClient, ClientRegistry.unregisterClientLocked]
  dsimp only [Readings.constant]
  cases (s.registry.expireStaleClients fun _ => now).clients[clientId]? with
  | none => rfl
  | some info =>
    dsimp only
    rw [run_bind, run_removeClientLocked]
    rfl

theorem run_getClientsForResource (resourceId : ResourceId) :
    (getClientsForResource resourceId).run (.constant now) s =
      ((s.registry.getClientsForResource resourceId fun _ => now).1,
        { s with registry := (s.registry.getClientsForResource resourceId fun _ => now).2 }) := by
  rw [getClientsForResource, run_registryOperation]
  rfl

theorem run_getInterestedResources (clientId : ClientId) :
    (getInterestedResources clientId).run (.constant now) s =
      ((s.registry.getInterestedResources clientId fun _ => now).1,
        { s with registry := (s.registry.getInterestedResources clientId fun _ => now).2 }) := by
  rw [getInterestedResources, run_registryOperation]
  rfl

theorem run_managerSetResourceLimit (resourceId : ResourceId) (rateLimit : ℚ) :
    (managerSetResourceLimit resourceId rateLimit).run readings s =
      ((s.manager.setResourceLimit resourceId rateLimit).1,
        { s with manager := (s.manager.setResourceLimit resourceId rateLimit).2 }) := by
  unfold managerSetResourceLimit ResourceManager.setResourceLimit
  split
  · rfl
  · rw [run_locked, run_perform]

theorem run_getResourceInfo (resourceId : ResourceId) :
    (getResourceInfo resourceId).run (.constant now) s =
      ((s.manager.getResourceInfo s.registry resourceId now).1,
        { s with registry := (s.manager.getResourceInfo s.registry resourceId now).2 }) := by
  rw [getResourceInfo, run_locked, run_bind, run_read, ResourceManager.getResourceInfo]
  cases s.manager.resourceLimits[resourceId]? with
  | none => rfl
  | some it =>
    dsimp only
    rw [run_bind, run_getClientsForResource]
    rfl

theorem run_managerGetAllocation (clientId : ClientId) (resourceId : ResourceId) :
    (managerGetAllocation clientId resourceId).run (.constant now) s =
      ((s.manager.getAllocation s.registry clientId resourceId now).1,
        { s with
          registry := (s.manager.getAllocation s.registry clientId resourceId now).2 }) := by
  rw [managerGetAllocation, run_locked, run_bind, run_read, ResourceManager.getAllocation]
  cases s.manager.resourceLimits[resourceId]? with
  | none => rfl
  | some rateLimit =>
    dsimp only
    rw [run_bind, run_getClientsForResource]
    dsimp only
    split
    · split <;> rfl
    · rfl

theorem run_getAllAllocations (clientId : ClientId) :
    (getAllAllocations clientId).run (.constant now) s =
      ((s.manager.getAllAllocations s.registry clientId now).1,
        { s with registry := (s.manager.getAllAllocations s.registry clientId now).2 }) := by
  -- the loop's turns leave the manager alone, so they compose to the source's
  have hloop : ∀ (l : List ResourceId) (allocations : OrderedMap ResourceId ℚ) (s : Server),
      (l.foldlM (fun allocations resourceId => do
          let allocation ← managerGetAllocation clientId resourceId
          pure (allocations.insert resourceId allocation)) allocations : ServerProg _).run
        (.constant now) s =
      ((l.foldl (fun (state : OrderedMap ResourceId ℚ × ClientRegistry) resourceId =>
          (state.1.insert resourceId (s.manager.getAllocation state.2 clientId resourceId now).1,
            (s.manager.getAllocation state.2 clientId resourceId now).2))
          (allocations, s.registry)).1,
        { s with registry :=
          (l.foldl (fun (state : OrderedMap ResourceId ℚ × ClientRegistry) resourceId =>
            (state.1.insert resourceId
                (s.manager.getAllocation state.2 clientId resourceId now).1,
              (s.manager.getAllocation state.2 clientId resourceId now).2))
            (allocations, s.registry)).2 }) := by
    intro l
    induction l with
    | nil => intro allocations s; rfl
    | cons resourceId l ih =>
      intro allocations s
      rw [List.foldlM_cons, run_bind, run_bind, run_managerGetAllocation, run_pure, ih]
      rfl
  rw [getAllAllocations, run_bind, run_getInterestedResources, hloop]
  rfl

/-- **A handler that nobody interrupts**, at one reading of the clock, is
the service's RPC. -/
theorem run_handler (request : Request) :
    (handler request).run (.constant now) s = s.rpc request now := by
  cases request with
  | registerClient clientId =>
    simp only [handler, run_bind, registerClient, Server.rpc, Server.registerClient]
    split
    · rfl
    · rw [run_bind, run_registryRegisterClient]
      rfl
  | unregisterClient clientId =>
    simp only [handler, run_bind, unregisterClient, run_registryUnregisterClient]
    rfl
  | heartbeat clientId resourceIds =>
    simp only [handler, run_bind, heartbeat, Server.rpc, Server.heartbeat]
    split
    · rfl
    · rw [run_bind, run_registryHeartbeat]
      dsimp only
      split
      · rfl
      · rw [run_bind, run_getAllAllocations]
        rfl
  | getAllocation clientId resourceId =>
    simp only [handler, run_bind, getAllocation, Server.rpc, Server.getAllocation]
    split
    · rfl
    · rw [run_bind, run_managerGetAllocation]
      rfl
  | setResourceLimit resourceId rateLimit =>
    simp only [handler, run_bind, setResourceLimit, run_managerSetResourceLimit, Server.rpc,
      Server.setResourceLimit, ResourceManager.setResourceLimit]
    by_cases hneg : rateLimit < 0
    · simp only [if_pos hneg]
      rfl
    · simp only [if_neg hneg]
      rfl
  | getResourceLimit resourceId =>
    simp only [handler, run_bind, getResourceLimit, run_getResourceInfo, Server.rpc,
      Server.getResourceLimit]
    cases (s.manager.getResourceInfo s.registry resourceId now).1 with
    | none => rfl
    | some info => rfl

end ServerProg

end Throttling
