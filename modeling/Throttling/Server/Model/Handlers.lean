import Throttling.Server.Model.Service
import Throttling.Common.System
import Mathlib.Logic.Function.Basic
/-!
# The service under concurrent handlers

Any number of RPCs are handled at once. A handler runs as the sections
of the registry's and the manager's mutexes it goes through, each of them
atomic, with those of any other handler in between; `GetAllocation` holds
the manager's mutex across its two registry sections. An RPC is known by
how many were made before it, and a handler that has not run yet is a
request that is still on its way.

Readings of the clock never go back, and time may pass at any moment. An
expiry section reads the clock for each client it looks at.
-/

namespace Throttling

/-- `GetAllocation` past its registry query. -/
def ResourceManager.fairShare (rateLimit : ℚ) (interestedClients : Finset ClientId)
    (clientId : ClientId) : ℚ :=
  if clientId ∈ interestedClients then
    let numClients := interestedClients.card
    if numClients = 0 then 0 else rateLimit / numClients
  else 0

deriving instance DecidableEq for HeartbeatResponse

/-- Where the handler of a `Heartbeat` is. -/
inductive HeartbeatStage where
  /-- About to run the expiry section of the registry's `Heartbeat`. -/
  | expiring
  | recording
  /-- About to run the expiry section of `GetInterestedResources`. -/
  | interestsExpiring
  | interestsReading
  /-- About to lock the manager's mutex for a resource's share. -/
  | locking (resourceId : ResourceId) (remaining : List ResourceId)
      (allocations : OrderedMap ResourceId ℚ)
  /-- Holding it, the limit read; about to run the expiry section of
  `GetClientsForResource`. -/
  | shareExpiring (rateLimit : ℚ) (resourceId : ResourceId) (remaining : List ResourceId)
      (allocations : OrderedMap ResourceId ℚ)
  | shareReading (rateLimit : ℚ) (resourceId : ResourceId) (remaining : List ResourceId)
      (allocations : OrderedMap ResourceId ℚ)
  | answered (status : Status) (response : HeartbeatResponse)
deriving DecidableEq

/-- The loop of `GetAllAllocations`: the next resource's share, or the
answer. -/
def HeartbeatStage.next (remaining : List ResourceId) (allocations : OrderedMap ResourceId ℚ) :
    HeartbeatStage :=
  match remaining with
  | [] => .answered .ok { success := true, allocations := allocations }
  | resourceId :: remaining => .locking resourceId remaining allocations

/-- Where a handler is. -/
inductive HandlerPc where
  /-- No such RPC was made. -/
  | idle
  | registerExpiring (clientId : ClientId)
  | registering (clientId : ClientId)
  | unregisterExpiring (clientId : ClientId)
  | unregistering (clientId : ClientId)
  | settingLimit (resourceId : ResourceId) (rateLimit : ℚ)
  | heartbeat (clientId : ClientId) (resourceIds : Finset ResourceId) (stage : HeartbeatStage)
  /-- A handler other than a heartbeat's has returned. -/
  | returned (status : Status)
deriving DecidableEq

/-- The heartbeat an RPC is, if it is one. -/
def HandlerPc.request : HandlerPc → Option (ClientId × Finset ResourceId)
  | .heartbeat clientId resourceIds _ => some (clientId, resourceIds)
  | _ => none

/-- The requests that are handled. -/
inductive ServiceCall where
  | registerClient (clientId : ClientId)
  | unregisterClient (clientId : ClientId)
  | heartbeat (clientId : ClientId) (resourceIds : List ResourceId)
  | setResourceLimit (resourceId : ResourceId) (rateLimit : ℚ)

/-- Where a handler starts: past the checks made before any section. -/
def ServiceCall.entry : ServiceCall → HandlerPc
  | .registerClient clientId =>
    if clientId.isEmpty then .returned ⟨.invalidArgument, Server.emptyClientId⟩
    else .registerExpiring clientId
  | .unregisterClient clientId => .unregisterExpiring clientId
  | .heartbeat clientId resourceIds =>
    .heartbeat clientId resourceIds.toFinset
      (if clientId.isEmpty then
        .answered ⟨.invalidArgument, Server.emptyClientId⟩
          { success := false, errorMessage := Server.emptyClientId }
      else .expiring)
  | .setResourceLimit resourceId rateLimit =>
    if rateLimit < 0 then .returned ⟨.invalidArgument, "rate_limit must be >= 0"⟩
    else .settingLimit resourceId rateLimit

/-- **The service and its handlers.** -/
structure ServiceState where
  registry : ClientRegistry
  manager : ResourceManager ℚ
  /-- The time now: no reading was taken after it. -/
  clock : TimePoint
  /-- The handler that holds the manager's mutex. -/
  holder : Option ℕ
  handlers : ℕ → HandlerPc
  /-- How many RPCs were made. -/
  created : ℕ

namespace ServiceState

/-- An RPC is made. -/
def receive (s : ServiceState) (call : ServiceCall) : ServiceState :=
  { s with
    handlers := Function.update s.handlers s.created call.entry
    created := s.created + 1 }

/-- A handler goes to its next place. -/
def goto (s : ServiceState) (handler : ℕ) (pc : HandlerPc) : ServiceState :=
  { s with handlers := Function.update s.handlers handler pc }

/-- `ExpireStaleClients`. -/
def sweep (s : ServiceState) (readings : ClientId → TimePoint) : ServiceState :=
  { s with registry := s.registry.expireStaleClients readings }

/-- The readings a section may take that is over by `now`. -/
def admits (s : ServiceState) (readings : ClientId → TimePoint) (now : TimePoint) : Bool :=
  decide (s.clock ≤ now) &&
    s.registry.clients.keys.all fun c => decide (s.clock ≤ readings c ∧ readings c ≤ now)

/-- The next section of the handler of a `Heartbeat`. -/
def heartbeatSection (s : ServiceState) (handler : ℕ) (clientId : ClientId)
    (resourceIds : Finset ResourceId) (readings : ClientId → TimePoint) (now : TimePoint) :
    HeartbeatStage → Option ServiceState :=
  let goto (s : ServiceState) (stage : HeartbeatStage) : ServiceState :=
    s.goto handler (.heartbeat clientId resourceIds stage)
  fun
  | .expiring => some (goto (s.sweep readings) .recording)
  | .recording =>
    let (success, registry) := s.registry.heartbeatLocked clientId resourceIds now
    if !success then
      some (goto s (.answered ⟨.notFound, "client not registered"⟩
        { success := false, errorMessage := "client not registered" }))
    else some (goto { s with registry := registry } .interestsExpiring)
  | .interestsExpiring => some (goto (s.sweep readings) .interestsReading)
  | .interestsReading =>
    -- read back from the registry, not taken from the request
    let interestedResources := s.registry.interestedResourcesLocked clientId
    some (goto s (.next interestedResources.ascending ∅))
  | .locking resourceId remaining allocations =>
    if s.holder.isSome then none
    else
      match s.manager.resourceLimits[resourceId]? with
      | none => some (goto s (.next remaining (allocations.insert resourceId 0)))
      | some rateLimit =>
        some (goto { s with holder := some handler }
          (.shareExpiring rateLimit resourceId remaining allocations))
  | .shareExpiring rateLimit resourceId remaining allocations =>
    some (goto (s.sweep readings) (.shareReading rateLimit resourceId remaining allocations))
  | .shareReading rateLimit resourceId remaining allocations =>
    let interestedClients := s.registry.clientsForResourceLocked resourceId
    let allocation := ResourceManager.fairShare rateLimit interestedClients clientId
    some (goto { s with holder := none }
      (.next remaining (allocations.insert resourceId allocation)))
  | .answered _ _ => none

/-- The next section of a handler, over by `now`. -/
def handlerSection (s : ServiceState) (handler : ℕ) (readings : ClientId → TimePoint)
    (now : TimePoint) : Option ServiceState :=
  if s.admits readings now then
    let s := { s with clock := now }
    match s.handlers handler with
    | .idle => none
    | .registerExpiring clientId => some ((s.sweep readings).goto handler (.registering clientId))
    | .registering clientId =>
      some ({ s with registry := (s.registry.registerClientLocked clientId now).2 }.goto handler
        (.returned .ok))
    | .unregisterExpiring clientId =>
      some ((s.sweep readings).goto handler (.unregistering clientId))
    | .unregistering clientId =>
      some ({ s with registry := (s.registry.unregisterClientLocked clientId).2 }.goto handler
        (.returned .ok))
    | .settingLimit resourceId rateLimit =>
      if s.holder.isSome then none
      else
        some ({ s with manager := (s.manager.setResourceLimit resourceId rateLimit).2 }.goto handler
          (.returned .ok))
    | .heartbeat clientId resourceIds stage =>
      s.heartbeatSection handler clientId resourceIds readings now stage
    | .returned _ => none
  else none

end ServiceState

/-- What may happen next at the service. -/
inductive ServiceAction where
  | receive (call : ServiceCall)
  | handlerSection (handler : ℕ) (readings : ClientId → TimePoint) (now : TimePoint)
  /-- Time passes. -/
  | tick (now : TimePoint)

def ServiceState.step (s : ServiceState) : ServiceAction → Option ServiceState
  | .receive call => some (s.receive call)
  | .handlerSection handler readings now => s.handlerSection handler readings now
  | .tick now => if s.clock ≤ now then some { s with clock := now } else none

/-- The interleavings of a service that was just started. -/
def serviceSystem (heartbeatTimeout : ℤ) : GuardedSystem ServiceState ServiceAction where
  init :=
    { registry := (ClientRegistry.new heartbeatTimeout).setListener true, manager := .new,
      clock := 0, holder := none, handlers := fun _ => .idle, created := 0 }
  step := ServiceState.step

/-! ## What an answer describes -/

/-- The registrations, each with the interests on record for it. -/
def ClientRegistry.interests (reg : ClientRegistry) : OrderedMap ClientId (Finset ResourceId) :=
  reg.clients.map fun _ info => info.interestedResources

/-- A client's fair share of a resource in a state; nothing is to be had of
one that is not configured. -/
def ServiceState.fairShare (s : ServiceState) (clientId : ClientId) (resourceId : ResourceId) : ℚ :=
  ResourceManager.fairShare ((s.manager.resourceLimits[resourceId]?).getD 0)
    (s.registry.clientsForResourceLocked resourceId) clientId

/-- Two states with the same registrations, interests and limits. -/
def ServiceState.SameRecords (s t : ServiceState) : Prop :=
  s.registry.interests = t.registry.interests ∧
    s.manager.resourceLimits = t.manager.resourceLimits

instance (s t : ServiceState) : Decidable (s.SameRecords t) :=
  inferInstanceAs (Decidable (_ ∧ _))

/-- Two states with the same record of a client, and the same limits and
interested clients of its resources. -/
structure ServiceState.SameFor (clientId : ClientId) (resourceIds : Finset ResourceId)
    (s t : ServiceState) : Prop where
  record : s.registry.interests[clientId]? = t.registry.interests[clientId]?
  limits : ∀ r ∈ resourceIds, s.manager.resourceLimits[r]? = t.manager.resourceLimits[r]?
  interested : ∀ r ∈ resourceIds,
    s.registry.clientsForResourceLocked r = t.registry.clientsForResourceLocked r

/-- The interests were recorded: the registry's `Heartbeat` is over, and
found the client. -/
def HeartbeatStage.hasRecorded : HeartbeatStage → Bool
  | .expiring => false
  | .recording => false
  | .answered status _ => decide (status.code = .ok)
  | _ => true

def HandlerPc.hasRecorded : HandlerPc → Bool
  | .heartbeat _ _ stage => stage.hasRecorded
  | _ => false

/-- **An answer describes a state**: the client is registered in it with
these interests, and the answer is its shares of them. -/
structure ServiceState.Describes (s : ServiceState) (clientId : ClientId)
    (resourceIds : Finset ResourceId) (allocations : OrderedMap ResourceId ℚ) : Prop where
  registered : s.registry.interests[clientId]? = some resourceIds
  shares : ∀ r, allocations[r]? =
    if r ∈ resourceIds then some (s.fairShare clientId r) else none

/-- **An accepted heartbeat**: what a run passes from the start of its
handler to the section that makes its `OK` answer, with these
allocations. -/
def AcceptedRun (heartbeatTimeout : ℤ) (handler : ℕ) (clientId : ClientId)
    (resourceIds : Finset ResourceId) (V : List ServiceState)
    (allocations : OrderedMap ResourceId ℚ) : Prop :=
  ∃ s m s' readings now status response,
    (serviceSystem heartbeatTimeout).Reachable s ∧
    s.handlers handler = .heartbeat clientId resourceIds .expiring ∧
    (serviceSystem heartbeatTimeout).Run s V m ∧
    m.handlerSection handler readings now = some s' ∧
    s'.handlers handler = .heartbeat clientId resourceIds (.answered status response) ∧
    status.code = .ok ∧ response.allocations = allocations

/-- **What an `OK` answer tells** of the states passed while it was made,
from the recording of the interests on. -/
structure AnswerTraced (V : List ServiceState) (handler : ℕ) (clientId : ClientId)
    (resourceIds : Finset ResourceId) (allocations : OrderedMap ResourceId ℚ) : Prop where
  /-- Its keys are the interests on record for the client in one of them. -/
  keys : ∃ m ∈ V, (m.handlers handler).hasRecorded = true ∧
    ∀ r, r ∈ allocations ↔ r ∈ m.registry.interestedResourcesLocked clientId
  /-- Each of its values is the client's share in one of them. -/
  values : ∀ r v, allocations[r]? = some v →
    ∃ m ∈ V, (m.handlers handler).hasRecorded = true ∧ v = m.fairShare clientId r
  /-- It describes one of them, if neither the client's record nor the
  limits and interested clients of its resources change between them. -/
  undisturbed : (∀ m ∈ V, ∀ m' ∈ V, (m.handlers handler).hasRecorded = true →
      (m'.handlers handler).hasRecorded = true → m.SameFor clientId resourceIds m') →
    ∃ m ∈ V, m.Describes clientId resourceIds allocations

end Throttling
