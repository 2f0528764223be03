import Throttling.Common.OrderedMap
import Throttling.TokenBucket.Model.Bucket
/-!
# The client registry

`ClientRegistry` as `client_registry.cc` computes it. Every operation of
the source is two critical sections, the expiry pass and its own, so
each is given here in its two parts and put together once
(`ClientRegistry.registerClient` and its siblings); an interleaving
model runs the parts. The expiry pass reads the clock once for each
client it looks at, so its readings are a function of the client.

The listener is a pointer the registry calls through. What it is told is
kept as a list, each entry with the `clients_` it could see from inside
the callback.
-/

namespace Throttling

/-- A resource's id, an `int64`. -/
abbrev ResourceId : Type := ℤ

/-- A client's id. -/
abbrev ClientId : Type := String

/-- What the registry knows of a client. -/
structure ClientInfo where
  lastHeartbeatTime : TimePoint
  interestedResources : Finset ResourceId
deriving DecidableEq

/-- The callbacks of `ClientRegistryListener`. -/
inductive ListenerEvent where
  | onClientJoined (clientId : ClientId)
  | onClientLeft (clientId : ClientId) (interestedResources : Finset ResourceId)
  | onResourceInterestChanged (clientId : ClientId) (addedResources removedResources :
      Finset ResourceId)
deriving DecidableEq

/-- A callback that was made, and `clients_` at that moment. -/
structure Notification where
  event : ListenerEvent
  clients : OrderedMap ClientId ClientInfo

/-- **The registry**: the clients, the reverse index from resources to
the clients interested in them, and the listener. -/
structure ClientRegistry where
  /-- In seconds. -/
  heartbeatTimeout : ℤ
  clients : OrderedMap ClientId ClientInfo
  resourceToClients : OrderedMap ResourceId (Finset ClientId)
  /-- Whether a listener is attached. -/
  listener : Bool
  /-- What the listener was told, oldest first. -/
  notifications : List Notification

namespace ClientRegistry

/-- The constructor: nothing registered, no listener. -/
def new (heartbeatTimeout : ℤ) : ClientRegistry :=
  { heartbeatTimeout := heartbeatTimeout, clients := ∅, resourceToClients := ∅,
    listener := false, notifications := [] }

/-- `SetListener`, the pointer given or null. -/
def setListener (reg : ClientRegistry) (listener : Bool) : ClientRegistry :=
  { reg with listener := listener }

/-- `if (listener_) listener_->…`. -/
def notify (reg : ClientRegistry) (event : ListenerEvent) : ClientRegistry :=
  if reg.listener then
    { reg with notifications := reg.notifications ++ [⟨event, reg.clients⟩] }
  else reg

/-! ## The reverse index -/

/-- `resource_to_clients_[resource_id].insert(client_id)`. -/
def indexInsert (clientId : ClientId) (entry : Option (Finset ClientId)) :
    Option (Finset ClientId) :=
  some (insert clientId (entry.getD ∅))

/-- `resource_to_clients_[resource_id].erase(client_id)`, and the entry
erased where that empties it. -/
def indexErase (clientId : ClientId) (entry : Option (Finset ClientId)) :
    Option (Finset ClientId) :=
  let clientsSet := (entry.getD ∅).erase clientId
  if clientsSet = ∅ then none else some clientsSet

/-- A loop over a set of resources that edits the entry of each. -/
def editIndex (edit : Option (Finset ClientId) → Option (Finset ClientId))
    (resourceIds : Finset ResourceId) (index : OrderedMap ResourceId (Finset ClientId)) :
    OrderedMap ResourceId (Finset ClientId) :=
  resourceIds.ascending.foldl (fun index resourceId => index.alter resourceId edit) index

/-! ## Expiry -/

/-- `heartbeat_timeout_` as a comparison with an elapsed time converts it:
to nanoseconds, in an `int64` that wraps around past 9223372036 s. -/
def timeoutTicks (reg : ClientRegistry) : ℤ :=
  (reg.heartbeatTimeout * ticksPerSecond).bmod (2 ^ 64)

/-- `IsClientStaleLocked`, at the reading it takes. -/
def isClientStaleLocked (reg : ClientRegistry) (info : ClientInfo) (now : TimePoint) : Bool :=
  decide (reg.timeoutTicks < now - info.lastHeartbeatTime)

/-- `RemoveClientLocked`. -/
def removeClientLocked (reg : ClientRegistry) (clientId : ClientId) : ClientRegistry :=
  match reg.clients[clientId]? with
  | none => reg
  | some info =>
    { reg with
        resourceToClients :=
          editIndex (indexErase clientId) info.interestedResources reg.resourceToClients
        clients := reg.clients.erase clientId }.notify
      (.onClientLeft clientId info.interestedResources)

/-- The clients an expiry pass finds stale, in the map's order. -/
def staleClients (reg : ClientRegistry) (now : ClientId → TimePoint) : List ClientId :=
  (reg.clients.toList.filter fun p => reg.isClientStaleLocked p.2 (now p.1)).map Prod.fst

/-- `ExpireStaleClients`: collect, then remove one by one. -/
def expireStaleClients (reg : ClientRegistry) (now : ClientId → TimePoint) : ClientRegistry :=
  (reg.staleClients now).foldl removeClientLocked reg

/-! ## The operations' own sections -/

/-- `RegisterClient` past its expiry pass. -/
def registerClientLocked (reg : ClientRegistry) (clientId : ClientId) (now : TimePoint) :
    Bool × ClientRegistry :=
  match reg.clients[clientId]? with
  | some it =>
    (true, { reg with clients := reg.clients.insert clientId { it with lastHeartbeatTime := now } })
  | none =>
    (true, { reg with clients := reg.clients.insert clientId ⟨now, ∅⟩ }.notify
      (.onClientJoined clientId))

/-- `Heartbeat` past its expiry pass. -/
def heartbeatLocked (reg : ClientRegistry) (clientId : ClientId) (resourceIds : Finset ResourceId)
    (now : TimePoint) : Bool × ClientRegistry :=
  match reg.clients[clientId]? with
  | none => (false, reg)
  | some it =>
    -- both differences are with the interests on record, before they are replaced
    let addedResources := resourceIds \ it.interestedResources
    let removedResources := it.interestedResources \ resourceIds
    let index := editIndex (indexInsert clientId) addedResources reg.resourceToClients
    let index := editIndex (indexErase clientId) removedResources index
    let reg' := { reg with
      resourceToClients := index
      clients := reg.clients.insert clientId ⟨now, resourceIds⟩ }
    (true, if addedResources ≠ ∅ ∨ removedResources ≠ ∅ then
        reg'.notify (.onResourceInterestChanged clientId addedResources removedResources)
      else reg')

/-- `UnregisterClient` past its expiry pass. -/
def unregisterClientLocked (reg : ClientRegistry) (clientId : ClientId) : Bool × ClientRegistry :=
  match reg.clients[clientId]? with
  | none => (true, reg)
  | some _ => (true, reg.removeClientLocked clientId)

/-- `GetClientsForResource` past its expiry pass. -/
def clientsForResourceLocked (reg : ClientRegistry) (resourceId : ResourceId) : Finset ClientId :=
  match reg.resourceToClients[resourceId]? with
  | none => ∅
  | some it => it

/-- `GetInterestedResources` past its expiry pass. -/
def interestedResourcesLocked (reg : ClientRegistry) (clientId : ClientId) : Finset ResourceId :=
  match reg.clients[clientId]? with
  | none => ∅
  | some it => it.interestedResources

/-! ## The operations -/

/-- `RegisterClient`; an empty id is refused before any section. -/
def registerClient (reg : ClientRegistry) (clientId : ClientId) (expiry : ClientId → TimePoint)
    (now : TimePoint) : Bool × ClientRegistry :=
  if clientId.isEmpty then (false, reg)
  else (reg.expireStaleClients expiry).registerClientLocked clientId now

/-- `Heartbeat`. -/
def heartbeat (reg : ClientRegistry) (clientId : ClientId) (resourceIds : Finset ResourceId)
    (expiry : ClientId → TimePoint) (now : TimePoint) : Bool × ClientRegistry :=
  (reg.expireStaleClients expiry).heartbeatLocked clientId resourceIds now

/-- `UnregisterClient`. -/
def unregisterClient (reg : ClientRegistry) (clientId : ClientId)
    (expiry : ClientId → TimePoint) : Bool × ClientRegistry :=
  (reg.expireStaleClients expiry).unregisterClientLocked clientId

/-- `GetClientsForResource`, a query that expires. -/
def getClientsForResource (reg : ClientRegistry) (resourceId : ResourceId)
    (expiry : ClientId → TimePoint) : Finset ClientId × ClientRegistry :=
  let reg' := reg.expireStaleClients expiry
  (reg'.clientsForResourceLocked resourceId, reg')

/-- `GetInterestedResources`, a query that expires. -/
def getInterestedResources (reg : ClientRegistry) (clientId : ClientId)
    (expiry : ClientId → TimePoint) : Finset ResourceId × ClientRegistry :=
  let reg' := reg.expireStaleClients expiry
  (reg'.interestedResourcesLocked clientId, reg')

/-- `GetClientCount`. -/
def getClientCount (reg : ClientRegistry) (expiry : ClientId → TimePoint) : ℕ × ClientRegistry :=
  let reg' := reg.expireStaleClients expiry
  (reg'.clients.size, reg')

/-- `IsClientRegistered`. -/
def isClientRegistered (reg : ClientRegistry) (clientId : ClientId)
    (expiry : ClientId → TimePoint) : Bool × ClientRegistry :=
  let reg' := reg.expireStaleClients expiry
  (reg'.clients.contains clientId, reg')

/-! ## The invariant -/

/-- **The reverse index mirrors the interests**, and no entry of it is
empty. -/
structure IndexMirrors (reg : ClientRegistry) : Prop where
  mem_iff : ∀ (c : ClientId) (r : ResourceId), c ∈ (reg.resourceToClients[r]?).getD ∅ ↔
    ∃ info : ClientInfo, reg.clients[c]? = some info ∧ r ∈ info.interestedResources
  nonempty : ∀ (r : ResourceId) (S : Finset ClientId),
    reg.resourceToClients[r]? = some S → S.Nonempty

end ClientRegistry

end Throttling
