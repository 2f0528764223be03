import Throttling.Server.Model.Service
import Throttling.Registry.Model.Sections
import Mathlib.Algebra.BigOperators.Finprod
/-!
# The server's reachable states, and what its read paths must agree on

The registry's threads, with the manager's own sections beside them:
every state of the pair that concurrent callers can bring about. A
handler holds the manager's mutex across its registry query, which only
takes interleavings away.
-/

namespace Throttling

/-- The registry under threads, and the manager. -/
structure ServerThreads where
  threads : RegistryThreads
  manager : ResourceManager ℚ

/-- A step of a registry thread, or a section of the manager's own. -/
inductive ServerAction where
  | registry (action : RegistryAction)
  | setResourceLimit (resourceId : ResourceId) (rateLimit : ℚ)
  | removeResource (resourceId : ResourceId)

def ServerThreads.step (s : ServerThreads) : ServerAction → Option ServerThreads
  | .registry action => (s.threads.step action).map fun threads => { s with threads := threads }
  | .setResourceLimit resourceId rateLimit =>
    some { s with manager := (s.manager.setResourceLimit resourceId rateLimit).2 }
  | .removeResource resourceId =>
    some { s with manager := (s.manager.removeResource resourceId).2 }

/-- The interleavings that start from an empty registry and no limits. -/
def serverSystem (heartbeatTimeout : ℤ) : GuardedSystem ServerThreads ServerAction where
  init := { threads := (registrySystem heartbeatTimeout).init, manager := .new }
  step := ServerThreads.step

/-- The `active_client_count` that `GetResourceLimit` reports. -/
def reportedCount (m : ResourceManager ℚ) (reg : ClientRegistry) (r : ResourceId)
    (now : TimePoint) : ℤ :=
  (Server.getResourceLimit ⟨reg, m⟩ r now).1.2.activeClientCount

/-- **The shares the read paths give agree on a resource at a reading**:
those of `GetAllocation`, and those in the maps `GetAllAllocations` and
`Heartbeat` return. -/
structure MapsAgree (m : ResourceManager ℚ) (reg : ClientRegistry) (now : TimePoint)
    (r : ResourceId) : Prop where
  /-- With no limit every share is zero. -/
  unconfigured : m.resourceLimits[r]? = none → ∀ c, (m.getAllocation reg c r now).1 = 0
  /-- A registered client's map has the resource for a key exactly when
  it is a recorded interest, and its share for the value. -/
  allocations : ∀ c, (reg.isClientRegistered c fun _ => now).1 = true →
    (m.getAllAllocations reg c now).1[r]? =
      if r ∈ reg.interestedResourcesLocked c then some (m.getAllocation reg c r now).1 else none
  /-- And so has the map in the answer to a heartbeat, read in the state
  the heartbeat leaves, if the client is registered in it. -/
  heartbeat : ∀ (c : ClientId) (ids : List ResourceId),
    (Server.heartbeat ⟨reg, m⟩ c ids now).1.1.code = .ok →
    ∀ reg', reg' = (reg.heartbeat c ids.toFinset (fun _ => now) now).2 →
    (reg'.isClientRegistered c fun _ => now).1 = true →
    (Server.heartbeat ⟨reg, m⟩ c ids now).1.2.allocations[r]? =
      if r ∈ reg'.interestedResourcesLocked c then some (m.getAllocation reg' c r now).1 else none

/-- **And the count that `GetResourceLimit` reports agrees with them.** -/
structure SharesAgree (m : ResourceManager ℚ) (reg : ClientRegistry) (now : TimePoint)
    (r : ResourceId) : Prop extends MapsAgree m reg now r where
  /-- A positive count is the number of clients counted, which are those
  registered that name the resource; they have one share, nobody else
  has any, and all shares add up to the limit. -/
  counted : ∀ (limit : ℚ) (n : ℤ), m.resourceLimits[r]? = some limit →
    reportedCount m reg r now = n → 0 < n →
    ∃ S : Finset ClientId, S = (reg.getClientsForResource r fun _ => now).1 ∧
      (S.card : ℤ) = n ∧
      (∀ c, c ∈ S ↔ (reg.isClientRegistered c fun _ => now).1 = true ∧
        r ∈ reg.interestedResourcesLocked c) ∧
      (∃ v, ∀ c ∈ S, (m.getAllocation reg c r now).1 = v) ∧
      (∀ c, c ∉ S → (m.getAllocation reg c r now).1 = 0) ∧
      ∑ᶠ c : ClientId, (m.getAllocation reg c r now).1 = limit
  /-- With a count of zero every share is zero. -/
  uncounted : reportedCount m reg r now = 0 → ∀ c, (m.getAllocation reg c r now).1 = 0

end Throttling
