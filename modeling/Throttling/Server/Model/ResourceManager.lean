import Throttling.Registry.Model.Registry
import Mathlib.Data.Finset.Card
/-!
# The resource manager

`ResourceManager` as `resource_manager.cc` computes it, over the number
type of the limits. It holds a pointer to the registry and each of its
allocation queries is a registry query, which may expire clients; so a
query takes the registry and returns what it leaves of it. One call is
taken at one clock reading here. The listener callbacks are no-ops in
the source and have nothing to model.
-/

namespace Throttling

/-- The manager: the configured resources and their limits. -/
structure ResourceManager (R : Type) where
  resourceLimits : OrderedMap ResourceId R

/-- What `GetResourceInfo` reports of a configured resource. -/
structure ResourceInfo (R : Type) where
  rateLimit : R
  /-- A `size_t`. -/
  activeClientCount : ℕ

namespace ResourceManager

variable {R : Type} [Zero R] [Div R] [NatCast R] [LT R] [DecidableLT R]

/-- The constructor: nothing configured. -/
def new : ResourceManager R := { resourceLimits := ∅ }

/-- `SetResourceLimit`. -/
def setResourceLimit (m : ResourceManager R) (resourceId : ResourceId) (rateLimit : R) :
    Bool × ResourceManager R :=
  if rateLimit < 0 then (false, m)
  else (true, { resourceLimits := m.resourceLimits.insert resourceId rateLimit })

/-- `RemoveResource`. -/
def removeResource (m : ResourceManager R) (resourceId : ResourceId) :
    Bool × ResourceManager R :=
  (m.resourceLimits.contains resourceId,
    { resourceLimits := m.resourceLimits.erase resourceId })

/-- `GetResourceInfo`. An unconfigured resource is reported without a
look at the registry. -/
def getResourceInfo (m : ResourceManager R) (reg : ClientRegistry) (resourceId : ResourceId)
    (now : TimePoint) : Option (ResourceInfo R) × ClientRegistry :=
  match m.resourceLimits[resourceId]? with
  | none => (none, reg)
  | some it =>
    let (clients, reg') := reg.getClientsForResource resourceId fun _ => now
    (some { rateLimit := it, activeClientCount := clients.card }, reg')

/-- `GetAllocation`: the limit over the number of interested clients. -/
def getAllocation (m : ResourceManager R) (reg : ClientRegistry) (clientId : ClientId)
    (resourceId : ResourceId) (now : TimePoint) : R × ClientRegistry :=
  match m.resourceLimits[resourceId]? with
  | none => (0, reg)
  | some rateLimit =>
    let (interestedClients, reg') := reg.getClientsForResource resourceId fun _ => now
    if clientId ∈ interestedClients then
      -- the test of the source, which the one above leaves nothing to find
      let numClients := interestedClients.card
      if numClients = 0 then (0, reg')
      else (rateLimit / (numClients : R), reg')
    else (0, reg')

/-- `GetAllAllocations`: one `GetAllocation` for each recorded interest,
in order. -/
def getAllAllocations (m : ResourceManager R) (reg : ClientRegistry) (clientId : ClientId)
    (now : TimePoint) : OrderedMap ResourceId R × ClientRegistry :=
  let (interestedResources, reg') := reg.getInterestedResources clientId fun _ => now
  interestedResources.ascending.foldl
    (fun (allocations, reg) resourceId =>
      let (allocation, reg') := m.getAllocation reg clientId resourceId now
      (allocations.insert resourceId allocation, reg'))
    (∅, reg')

end ResourceManager

end Throttling
