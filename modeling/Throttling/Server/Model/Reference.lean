import Throttling.Server.Model.Service
/-!
# The eager reference

What the server is for, with nothing lazy in it: a client and its
interests vanish at the moment the time since its last accepted
registration or heartbeat exceeds the timeout. The state a request meets
is therefore the one with the stale clients gone (`present`), whatever
the request is. There is no reverse index; a share is the limit over the
number of present clients that name the resource.
-/

namespace Throttling

/-- The reference's state: the clients with the time of their last
accepted registration or heartbeat and their interests, and the limits. -/
structure Reference where
  /-- In seconds. -/
  timeout : ℤ
  clients : OrderedMap ClientId (TimePoint × Finset ResourceId)
  limits : OrderedMap ResourceId ℚ

namespace Reference

def new (timeout : ℤ) : Reference := { timeout := timeout, clients := ∅, limits := ∅ }

/-- The state at a moment: the clients whose timeout has passed are gone. -/
def present (s : Reference) (now : TimePoint) : Reference :=
  { s with clients := s.clients.filter fun _ entry =>
      decide (now - entry.1 ≤ s.timeout * ticksPerSecond) }

/-- The clients that name a resource. -/
def interested (s : Reference) (resourceId : ResourceId) : Finset ClientId :=
  (s.clients.filter fun _ entry => decide (resourceId ∈ entry.2)).keys.toFinset

/-- A client's share of a resource. -/
def allocation (s : Reference) (clientId : ClientId) (resourceId : ResourceId) : ℚ :=
  match s.limits[resourceId]? with
  | none => 0
  | some limit =>
    if clientId ∈ s.interested resourceId then limit / (s.interested resourceId).card else 0

/-- The shares of a set of resources. -/
def allocations (s : Reference) (clientId : ClientId) (resourceIds : Finset ResourceId) :
    OrderedMap ResourceId ℚ :=
  resourceIds.ascending.foldl
    (fun shares resourceId => shares.insert resourceId (s.allocation clientId resourceId)) ∅

/-- What a request answers and leaves, in a state with nobody stale. -/
def answer (s : Reference) (now : TimePoint) : Request → (Status × Response) × Reference
  | .registerClient clientId =>
    if clientId = "" then
      ((⟨.invalidArgument, "client_id cannot be empty"⟩,
        .registerClient { errorMessage := "client_id cannot be empty" }), s)
    else
      let interests := (s.clients[clientId]?).elim ∅ Prod.snd
      ((.ok, .registerClient { success := true }),
        { s with clients := s.clients.insert clientId (now, interests) })
  | .unregisterClient clientId =>
    ((.ok, .unregisterClient { success := true }),
      { s with clients := s.clients.erase clientId })
  | .heartbeat clientId resourceIds =>
    if clientId = "" then
      ((⟨.invalidArgument, "client_id cannot be empty"⟩,
        .heartbeat { errorMessage := "client_id cannot be empty" }), s)
    else if clientId ∈ s.clients then
      let s' := { s with clients := s.clients.insert clientId (now, resourceIds.toFinset) }
      ((.ok, .heartbeat
        { success := true, allocations := s'.allocations clientId resourceIds.toFinset }), s')
    else
      ((⟨.notFound, "client not registered"⟩,
        .heartbeat { errorMessage := "client not registered" }), s)
  | .getAllocation clientId resourceId =>
    if clientId = "" then
      ((⟨.invalidArgument, "client_id cannot be empty"⟩,
        .getAllocation { errorMessage := "client_id cannot be empty" }), s)
    else
      ((.ok, .getAllocation
        { success := true, allocatedRate := s.allocation clientId resourceId }), s)
  | .setResourceLimit resourceId rateLimit =>
    if rateLimit < 0 then
      ((⟨.invalidArgument, "rate_limit must be >= 0"⟩,
        .setResourceLimit { errorMessage := "rate_limit must be >= 0" }), s)
    else
      ((.ok, .setResourceLimit { success := true }),
        { s with limits := s.limits.insert resourceId rateLimit })
  | .getResourceLimit resourceId =>
    match s.limits[resourceId]? with
    | none =>
      ((⟨.notFound, "resource not found"⟩,
        .getResourceLimit { errorMessage := "resource not found" }), s)
    | some limit =>
      ((.ok, .getResourceLimit
        { success := true, rateLimit := limit,
          activeClientCount := (s.interested resourceId).card }), s)

/-- One request at one moment. -/
def rpc (s : Reference) (request : Request) (now : TimePoint) : (Status × Response) × Reference :=
  (s.present now).answer now request

end Reference

end Throttling
