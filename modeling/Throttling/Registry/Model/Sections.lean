import Throttling.Registry.Model.Registry
import Throttling.Common.System
import Mathlib.Logic.Function.Basic
/-!
# The registry under threads

Any number of threads call the registry. A call is the expiry section
and then the operation's own, each atomic under `mutex_`; between the two
any other thread's sections may run. Clock readings are the actions'
own and are not asked to be ordered.
-/

namespace Throttling

/-- A call of one of the registry's public operations. -/
inductive RegistryCall where
  | registerClient (clientId : ClientId)
  | heartbeat (clientId : ClientId) (resourceIds : Finset ResourceId)
  | unregisterClient (clientId : ClientId)
  | getClientsForResource (resourceId : ResourceId)
  | getInterestedResources (clientId : ClientId)
  | getClientCount
  | isClientRegistered (clientId : ClientId)

/-- What a call's own section leaves of the registry; a query's leaves it
as it was. -/
def ClientRegistry.ownSection (reg : ClientRegistry) (now : TimePoint) :
    RegistryCall → ClientRegistry
  | .registerClient clientId => (reg.registerClientLocked clientId now).2
  | .heartbeat clientId resourceIds => (reg.heartbeatLocked clientId resourceIds now).2
  | .unregisterClient clientId => (reg.unregisterClientLocked clientId).2
  | .getClientsForResource _ => reg
  | .getInterestedResources _ => reg
  | .getClientCount => reg
  | .isClientRegistered _ => reg

/-- The calls that return before any section: `RegisterClient` with an
empty id. -/
def RegistryCall.refused : RegistryCall → Bool
  | .registerClient clientId => clientId.isEmpty
  | _ => false

/-- Where a thread is in a call. -/
inductive RegistryPc where
  /-- Not in a call. -/
  | idle
  /-- About to run the expiry section. -/
  | expiring (call : RegistryCall)
  /-- Between the expiry section and the call's own. -/
  | expired (call : RegistryCall)

/-- The registry and the threads that call it. -/
structure RegistryThreads where
  registry : ClientRegistry
  pc : ℕ → RegistryPc

/-- What a thread may do next. -/
inductive RegistryAction where
  | invoke (thread : ℕ) (call : RegistryCall)
  | expireSection (thread : ℕ) (now : ClientId → TimePoint)
  | ownSection (thread : ℕ) (now : TimePoint)
  | setListener (listener : Bool)

/-- One step of one thread. -/
def RegistryThreads.step (s : RegistryThreads) : RegistryAction → Option RegistryThreads
  | .invoke t call =>
    match s.pc t with
    | .idle =>
      if call.refused then some s
      else some { s with pc := Function.update s.pc t (.expiring call) }
    | _ => none
  | .expireSection t now =>
    match s.pc t with
    | .expiring call =>
      some { registry := s.registry.expireStaleClients now,
             pc := Function.update s.pc t (.expired call) }
    | _ => none
  | .ownSection t now =>
    match s.pc t with
    | .expired call =>
      some { registry := s.registry.ownSection now call,
             pc := Function.update s.pc t .idle }
    | _ => none
  | .setListener listener => some { s with registry := s.registry.setListener listener }

/-- The interleavings that start from an empty registry. -/
def registrySystem (heartbeatTimeout : ℤ) : GuardedSystem RegistryThreads RegistryAction where
  init := { registry := .new heartbeatTimeout, pc := fun _ => .idle }
  step := RegistryThreads.step

end Throttling
