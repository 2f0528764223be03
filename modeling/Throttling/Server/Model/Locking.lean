import Throttling.Common.Locking
import Throttling.Server.Model.Service
/-!
# The service, lock by lock

The handlers once more, as programs over the two mutexes of the server:
each function of the source with the scopes of its `lock_guard`s, the
calls it makes inside them, and the registry's calls through its
listener, which is the manager. What they do to the data between a lock
and its unlock is what `Registry/Model` and `Server/Model` say.
-/

namespace Throttling

/-- The mutexes of the server, neither of them recursive. -/
inductive Mutex where
  /-- `ResourceManager::mutex_`. -/
  | resourceManager
  /-- `ClientRegistry::mutex_`. -/
  | clientRegistry
deriving DecidableEq

/-- What an action reads of the clock. -/
structure Readings where
  /-- In an expiry pass, for each client it looks at. -/
  expiry : ClientId → TimePoint
  now : TimePoint

/-- A program over the server's mutexes. -/
abbrev ServerProg (α : Type) : Type := Prog Mutex Readings Server α

namespace ServerProg

open Prog

/-! ## The listener -/

/-- `ResourceManager`'s callbacks, no-ops all three. -/
def resourceManagerCallback : ListenerEvent → ServerProg Unit
  | .onClientJoined _ => pure ()
  | .onClientLeft _ _ => pure ()
  | .onResourceInterestChanged _ _ _ => pure ()

/-- `if (listener_) listener_->…`, the listener being the manager. -/
def notifyListener (event : ListenerEvent) : ServerProg Unit := do
  let listener ← read fun _ s => s.registry.listener
  if listener then resourceManagerCallback event else pure ()

/-! ## `ClientRegistry` -/

/-- `RemoveClientLocked`. -/
def removeClientLocked (clientId : ClientId) : ServerProg Unit := do
  let it ← perform fun _ s =>
    (s.registry.clients[clientId]?, { s with registry := s.registry.removeClientLocked clientId })
  match it with
  | none => pure ()
  | some info => notifyListener (.onClientLeft clientId info.interestedResources)

/-- `ExpireStaleClients`. -/
def expireStaleClients : ServerProg Unit :=
  locked .clientRegistry do
    let staleClients ← read fun readings s => s.registry.staleClients readings.expiry
    staleClients.foldlM (fun _ clientId => removeClientLocked clientId) ()

/-- `RegisterClient`. -/
def registryRegisterClient (clientId : ClientId) : ServerProg Bool :=
  if clientId.isEmpty then pure false
  else do
    expireStaleClients
    locked .clientRegistry do
      let it ← read fun _ s => s.registry.clients[clientId]?
      let success ← perform fun readings s =>
        let (success, registry) := s.registry.registerClientLocked clientId readings.now
        (success, { s with registry := registry })
      match it with
      | some _ => pure success
      | none =>
        notifyListener (.onClientJoined clientId)
        pure success

/-- `Heartbeat`. -/
def registryHeartbeat (clientId : ClientId) (resourceIds : Finset ResourceId) :
    ServerProg Bool := do
  expireStaleClients
  locked .clientRegistry do
    let it ← read fun _ s => s.registry.clients[clientId]?
    let success ← perform fun readings s =>
      let (success, registry) := s.registry.heartbeatLocked clientId resourceIds readings.now
      (success, { s with registry := registry })
    match it with
    | none => pure success
    | some it =>
      let addedResources := resourceIds \ it.interestedResources
      let removedResources := it.interestedResources \ resourceIds
      if addedResources ≠ ∅ ∨ removedResources ≠ ∅ then do
        notifyListener (.onResourceInterestChanged clientId addedResources removedResources)
        pure success
      else pure success

/-- `UnregisterClient`. -/
def registryUnregisterClient (clientId : ClientId) : ServerProg Bool := do
  expireStaleClients
  locked .clientRegistry do
    let it ← read fun _ s => s.registry.clients[clientId]?
    match it with
    | none => pure true
    | some _ =>
      removeClientLocked clientId
      pure true

/-- `GetClientsForResource`. -/
def getClientsForResource (resourceId : ResourceId) : ServerProg (Finset ClientId) := do
  expireStaleClients
  locked .clientRegistry (read fun _ s => s.registry.clientsForResourceLocked resourceId)

/-- `GetInterestedResources`. -/
def getInterestedResources (clientId : ClientId) : ServerProg (Finset ResourceId) := do
  expireStaleClients
  locked .clientRegistry (read fun _ s => s.registry.interestedResourcesLocked clientId)

/-! ## `ResourceManager` -/

/-- `SetResourceLimit`, which validates before it locks. -/
def managerSetResourceLimit (resourceId : ResourceId) (rateLimit : ℚ) : ServerProg Bool :=
  if rateLimit < 0 then pure false
  else locked .resourceManager (perform fun _ s =>
    (true, { s with manager := ⟨s.manager.resourceLimits.insert resourceId rateLimit⟩ }))

/-- `GetResourceInfo`. -/
def getResourceInfo (resourceId : ResourceId) : ServerProg (Option (ResourceInfo ℚ)) :=
  locked .resourceManager do
    let it ← read fun _ s => s.manager.resourceLimits[resourceId]?
    match it with
    | none => pure none
    | some it => do
      let clients ← getClientsForResource resourceId
      pure (some { rateLimit := it, activeClientCount := clients.card })

/-- `GetAllocation`. -/
def managerGetAllocation (clientId : ClientId) (resourceId : ResourceId) : ServerProg ℚ :=
  locked .resourceManager do
    let it ← read fun _ s => s.manager.resourceLimits[resourceId]?
    match it with
    | none => pure 0
    | some rateLimit => do
      let interestedClients ← getClientsForResource resourceId
      if clientId ∈ interestedClients then
        let numClients := interestedClients.card
        if numClients = 0 then pure 0 else pure (rateLimit / numClients)
      else pure 0

/-- `GetAllAllocations`, which locks nothing of its own. -/
def getAllAllocations (clientId : ClientId) : ServerProg (OrderedMap ResourceId ℚ) := do
  let interestedResources ← getInterestedResources clientId
  interestedResources.ascending.foldlM
    (fun allocations resourceId => do
      let allocation ← managerGetAllocation clientId resourceId
      pure (allocations.insert resourceId allocation))
    ∅

/-! ## `ThrottlingServiceImpl` -/

def registerClient (clientId : ClientId) : ServerProg (Status × RegisterClientResponse) :=
  if clientId.isEmpty then
    pure (⟨.invalidArgument, Server.emptyClientId⟩,
      { success := false, errorMessage := Server.emptyClientId })
  else do
    let success ← registryRegisterClient clientId
    pure (.ok, { success := success })

def unregisterClient (clientId : ClientId) : ServerProg (Status × UnregisterClientResponse) := do
  let _ ← registryUnregisterClient clientId
  pure (.ok, { success := true })

def heartbeat (clientId : ClientId) (resourceIds : List ResourceId) :
    ServerProg (Status × HeartbeatResponse) :=
  if clientId.isEmpty then
    pure (⟨.invalidArgument, Server.emptyClientId⟩,
      { success := false, errorMessage := Server.emptyClientId })
  else do
    let success ← registryHeartbeat clientId resourceIds.toFinset
    if !success then
      pure (⟨.notFound, "client not registered"⟩,
        { success := false, errorMessage := "client not registered" })
    else do
      let allocations ← getAllAllocations clientId
      pure (.ok, { success := true, allocations := allocations })

def getAllocation (clientId : ClientId) (resourceId : ResourceId) :
    ServerProg (Status × GetAllocationResponse) :=
  if clientId.isEmpty then
    pure (⟨.invalidArgument, Server.emptyClientId⟩,
      { success := false, errorMessage := Server.emptyClientId })
  else do
    let allocation ← managerGetAllocation clientId resourceId
    pure (.ok, { success := true, allocatedRate := allocation })

def setResourceLimit (resourceId : ResourceId) (rateLimit : ℚ) :
    ServerProg (Status × SetResourceLimitResponse) := do
  let success ← managerSetResourceLimit resourceId rateLimit
  if !success then
    pure (⟨.invalidArgument, "rate_limit must be >= 0"⟩,
      { success := false, errorMessage := "rate_limit must be >= 0" })
  else pure (.ok, { success := true })

def getResourceLimit (resourceId : ResourceId) :
    ServerProg (Status × GetResourceLimitResponse) := do
  let info ← getResourceInfo resourceId
  match info with
  | none =>
    pure (⟨.notFound, "resource not found"⟩,
      { success := false, errorMessage := "resource not found" })
  | some info =>
    pure (.ok, { success := true, rateLimit := info.rateLimit,
                 activeClientCount := toInt32 info.activeClientCount })

/-- The handler of an RPC. -/
def handler : Request → ServerProg (Status × Response)
  | .registerClient clientId => do
    let answer ← registerClient clientId
    pure (answer.1, .registerClient answer.2)
  | .unregisterClient clientId => do
    let answer ← unregisterClient clientId
    pure (answer.1, .unregisterClient answer.2)
  | .heartbeat clientId resourceIds => do
    let answer ← heartbeat clientId resourceIds
    pure (answer.1, .heartbeat answer.2)
  | .getAllocation clientId resourceId => do
    let answer ← getAllocation clientId resourceId
    pure (answer.1, .getAllocation answer.2)
  | .setResourceLimit resourceId rateLimit => do
    let answer ← setResourceLimit resourceId rateLimit
    pure (answer.1, .setResourceLimit answer.2)
  | .getResourceLimit resourceId => do
    let answer ← getResourceLimit resourceId
    pure (answer.1, .getResourceLimit answer.2)

end ServerProg

/-- **The interleavings of any number of threads** that run handlers of the
server `RunServer` starts, lock by lock. -/
def serverLockSystem (heartbeatTimeout : ℤ) :
    GuardedSystem (LockState Mutex Readings Server (Status × Response) ℕ)
      (LockAction Readings ℕ Request) :=
  lockSystem ServerProg.handler (Server.new heartbeatTimeout)

end Throttling
