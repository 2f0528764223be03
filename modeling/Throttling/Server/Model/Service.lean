import Throttling.Server.Model.ResourceManager
import Mathlib.Algebra.Order.Field.Rat
/-!
# The service handlers

`ThrottlingServiceImpl` as `throttling_server.cc` computes it, with the
messages of `throttling_service.proto` and rates as exact rationals. A
field the handler does not set has its proto3 default.
-/

namespace Throttling

/-! ## Messages -/

/-- The gRPC status codes the handlers return. -/
inductive StatusCode where
  | ok
  | invalidArgument
  | notFound
deriving DecidableEq

/-- A `grpc::Status`. -/
structure Status where
  code : StatusCode
  message : String := ""
deriving DecidableEq

/-- `grpc::Status::OK`. -/
def Status.ok : Status := { code := .ok }

structure RegisterClientResponse where
  success : Bool := false
  errorMessage : String := ""
deriving DecidableEq

structure UnregisterClientResponse where
  success : Bool := false
deriving DecidableEq

structure HeartbeatResponse where
  success : Bool := false
  allocations : OrderedMap ResourceId ℚ := ∅
  errorMessage : String := ""

structure GetAllocationResponse where
  success : Bool := false
  allocatedRate : ℚ := 0
  errorMessage : String := ""
deriving DecidableEq

structure SetResourceLimitResponse where
  success : Bool := false
  errorMessage : String := ""
deriving DecidableEq

structure GetResourceLimitResponse where
  success : Bool := false
  rateLimit : ℚ := 0
  /-- An `int32`. -/
  activeClientCount : ℤ := 0
  errorMessage : String := ""
deriving DecidableEq

/-- The six RPCs with their requests. -/
inductive Request where
  | registerClient (clientId : ClientId)
  | unregisterClient (clientId : ClientId)
  | heartbeat (clientId : ClientId) (resourceIds : List ResourceId)
  | getAllocation (clientId : ClientId) (resourceId : ResourceId)
  | setResourceLimit (resourceId : ResourceId) (rateLimit : ℚ)
  | getResourceLimit (resourceId : ResourceId)

/-- The response of an RPC. -/
inductive Response where
  | registerClient (response : RegisterClientResponse)
  | unregisterClient (response : UnregisterClientResponse)
  | heartbeat (response : HeartbeatResponse)
  | getAllocation (response : GetAllocationResponse)
  | setResourceLimit (response : SetResourceLimitResponse)
  | getResourceLimit (response : GetResourceLimitResponse)

/-- `static_cast<int32_t>` of a `size_t`. -/
def toInt32 (n : ℕ) : ℤ := (n : ℤ).bmod (2 ^ 32)

/-! ## Handlers -/

/-- What the handlers share: the registry and the manager they point to. -/
structure Server where
  registry : ClientRegistry
  manager : ResourceManager ℚ

namespace Server

/-- The server `RunServer` starts, the manager listening to the
registry. -/
def new (heartbeatTimeout : ℤ) : Server :=
  { registry := (ClientRegistry.new heartbeatTimeout).setListener true
    manager := .new }

/-- The text of the validation every handler with a client id makes. -/
def emptyClientId : String := "client_id cannot be empty"

def registerClient (s : Server) (clientId : ClientId) (now : TimePoint) :
    (Status × RegisterClientResponse) × Server :=
  if clientId.isEmpty then
    ((⟨.invalidArgument, emptyClientId⟩, { success := false, errorMessage := emptyClientId }), s)
  else
    let (success, registry) := s.registry.registerClient clientId (fun _ => now) now
    ((.ok, { success := success }), { s with registry := registry })

def unregisterClient (s : Server) (clientId : ClientId) (now : TimePoint) :
    (Status × UnregisterClientResponse) × Server :=
  ((.ok, { success := true }),
    { s with registry := (s.registry.unregisterClient clientId fun _ => now).2 })

def heartbeat (s : Server) (clientId : ClientId) (resourceIds : List ResourceId)
    (now : TimePoint) : (Status × HeartbeatResponse) × Server :=
  if clientId.isEmpty then
    ((⟨.invalidArgument, emptyClientId⟩, { success := false, errorMessage := emptyClientId }), s)
  else
    let (success, registry) :=
      s.registry.heartbeat clientId resourceIds.toFinset (fun _ => now) now
    if !success then
      ((⟨.notFound, "client not registered"⟩,
          { success := false, errorMessage := "client not registered" }),
        { s with registry := registry })
    else
      let (allocations, registry) := s.manager.getAllAllocations registry clientId now
      ((.ok, { success := true, allocations := allocations }), { s with registry := registry })

def getAllocation (s : Server) (clientId : ClientId) (resourceId : ResourceId)
    (now : TimePoint) : (Status × GetAllocationResponse) × Server :=
  if clientId.isEmpty then
    ((⟨.invalidArgument, emptyClientId⟩, { success := false, errorMessage := emptyClientId }), s)
  else
    let (allocation, registry) := s.manager.getAllocation s.registry clientId resourceId now
    ((.ok, { success := true, allocatedRate := allocation }), { s with registry := registry })

def setResourceLimit (s : Server) (resourceId : ResourceId) (rateLimit : ℚ) :
    (Status × SetResourceLimitResponse) × Server :=
  let (success, manager) := s.manager.setResourceLimit resourceId rateLimit
  if !success then
    ((⟨.invalidArgument, "rate_limit must be >= 0"⟩,
        { success := false, errorMessage := "rate_limit must be >= 0" }), s)
  else ((.ok, { success := true }), { s with manager := manager })

def getResourceLimit (s : Server) (resourceId : ResourceId) (now : TimePoint) :
    (Status × GetResourceLimitResponse) × Server :=
  let (info, registry) := s.manager.getResourceInfo s.registry resourceId now
  match info with
  | none =>
    ((⟨.notFound, "resource not found"⟩,
        { success := false, errorMessage := "resource not found" }),
      { s with registry := registry })
  | some info =>
    ((.ok, { success := true, rateLimit := info.rateLimit,
             activeClientCount := toInt32 info.activeClientCount }),
      { s with registry := registry })

/-- One RPC at one clock reading: its status, its response, and the
server it leaves. -/
def rpc (s : Server) (request : Request) (now : TimePoint) : (Status × Response) × Server :=
  match request with
  | .registerClient clientId =>
    let (answer, s') := s.registerClient clientId now
    ((answer.1, .registerClient answer.2), s')
  | .unregisterClient clientId =>
    let (answer, s') := s.unregisterClient clientId now
    ((answer.1, .unregisterClient answer.2), s')
  | .heartbeat clientId resourceIds =>
    let (answer, s') := s.heartbeat clientId resourceIds now
    ((answer.1, .heartbeat answer.2), s')
  | .getAllocation clientId resourceId =>
    let (answer, s') := s.getAllocation clientId resourceId now
    ((answer.1, .getAllocation answer.2), s')
  | .setResourceLimit resourceId rateLimit =>
    let (answer, s') := s.setResourceLimit resourceId rateLimit
    ((answer.1, .setResourceLimit answer.2), s')
  | .getResourceLimit resourceId =>
    let (answer, s') := s.getResourceLimit resourceId now
    ((answer.1, .getResourceLimit answer.2), s')

end Server

end Throttling
