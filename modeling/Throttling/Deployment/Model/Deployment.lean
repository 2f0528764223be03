import Throttling.Server.Model.Handlers
import Throttling.Client.Model.Client
import Mathlib.Algebra.BigOperators.Finprod
/-!
# The service and its clients

The service of `Server/Model/Handlers.lean` with one `ThrottlingClient`
for each id. A client's RPC is a handler of the service: as long as that
has not run, the request is under way, and once it has its answer, that
is under way until the client takes it. Nothing says when either happens,
so requests and answers are delayed at will; a client may also get an
error instead of the answer, whatever became of its request.

`SendHeartbeat` is called once by `Start`, and by the heartbeat thread
any number of times; the thread runs before the call in `Start` is made.
The calls of one of them come one after another, those of the two do
not. `Start` itself is called by one thread for each client.

What the results speak of is kept beside the state: when the service's
registrations, interests and limits changed, and when each answer was
made and from what.
-/

namespace Throttling

/-! ## The clients -/

/-- Who calls `SendHeartbeat`. -/
inductive Sender where
  | start
  | heartbeatLoop
deriving DecidableEq

/-- Where a sender is. -/
inductive SenderPc where
  | resting
  /-- About to copy the interests. -/
  | sending
  /-- Waiting for the answer to its call, or about to apply it. -/
  | waiting (call : ℕ)
deriving DecidableEq

/-- Where a client is between `Start` and `Stop`. -/
inductive ClientPhase where
  | stopped
  /-- In `Start`, with its registration under way. -/
  | registering (call : ℕ)
  /-- `running_` is set. -/
  | running
  /-- In `Stop`, waiting for the threads. -/
  | stopping
  /-- In `Stop`, with its unregistration under way. -/
  | unregistering (call : ℕ)
deriving DecidableEq

/-- A `ThrottlingClient`. -/
structure ClientNode where
  /-- Its buckets and its queue. -/
  client : Client
  resourceInterests : Finset ResourceId
  phase : ClientPhase
  senders : Sender → SenderPc
  /-- The call whose allocations were applied last, to the buckets it has
  had since they were last cleared. -/
  applied : Option ℕ
  /-- How many calls had been made when they were last cleared. -/
  clearedAt : ℕ

/-- A constructed client. -/
def ClientNode.new : ClientNode :=
  { client := .new, resourceInterests := ∅, phase := .stopped, senders := fun _ => .resting,
    applied := none, clearedAt := 0 }

/-! ## What is kept beside the state -/

/-- The registry as it is once the clients that are stale now are gone. -/
def ServiceState.present (s : ServiceState) : ClientRegistry :=
  s.registry.expireStaleClients fun _ => s.clock

/-- **The live registrations with their interests, and the limits.** -/
def ServiceState.records (s : ServiceState) :
    OrderedMap ClientId (Finset ResourceId) × OrderedMap ResourceId ℚ :=
  (s.present.interests, s.manager.resourceLimits)

/-- Two states in which a client has the same shares: of what is limited in
neither it has none. -/
def ServiceState.SameShares (clientId : ClientId) (s t : ServiceState) : Prop :=
  ∀ r ∈ s.manager.resourceLimits.keys ++ t.manager.resourceLimits.keys,
    s.fairShare clientId r = t.fairShare clientId r

instance (clientId : ClientId) (s t : ServiceState) : Decidable (s.SameShares clientId t) :=
  inferInstanceAs (Decidable (∀ _ ∈ _, _))

/-- About to read the interests back. -/
def HandlerPc.isReading : HandlerPc → Bool
  | .heartbeat _ _ .interestsReading => true
  | _ => false

/-- A heartbeat that has its answer. -/
def HandlerPc.isAnswered : HandlerPc → Bool
  | .heartbeat _ _ (.answered _ _) => true
  | _ => false

/-- **What happened when.** States are numbered by the steps before them. -/
structure History where
  /-- How many steps were taken. -/
  steps : ℕ
  /-- The state that began with the last change of the records. -/
  lastChange : ℕ
  /-- The one that began with the last change of the registrations, the
  interests or the limits as they are kept, with who is stale among them. -/
  lastWrite : ℕ
  /-- The one that began with the last change of a client's shares. -/
  lastShareChange : ClientId → ℕ
  /-- The state a heartbeat's interests were read back in, after which its
  shares are computed. -/
  computedFrom : ℕ → ℕ
  /-- The state its answer was made in. -/
  answeredAt : ℕ → ℕ
  /-- How many calls had been made when a client's registration was last
  dropped. -/
  droppedAt : ClientId → ℕ

/-- What a step of the service adds to the history. -/
def History.observe (h : History) (s s' : ServiceState) : History where
  steps := h.steps + 1
  lastChange := if s'.records = s.records then h.lastChange else h.steps + 1
  lastWrite := if s'.SameRecords s then h.lastWrite else h.steps + 1
  lastShareChange c := if s'.SameShares c s then h.lastShareChange c else h.steps + 1
  computedFrom k :=
    if (s.handlers k).isReading ∧ ¬ (s'.handlers k).isReading then h.steps else h.computedFrom k
  answeredAt k :=
    if ¬ (s.handlers k).isAnswered ∧ (s'.handlers k).isAnswered then h.steps else h.answeredAt k
  droppedAt c :=
    if c ∈ s.registry.clients ∧ c ∉ s'.registry.clients then s'.created else h.droppedAt c

/-- The client and the interests of a heartbeat that records them next. -/
def HandlerPc.recording : HandlerPc → Option (ClientId × Finset ResourceId)
  | .heartbeat clientId resourceIds .recording => some (clientId, resourceIds)
  | _ => none

/-- And of one that has recorded them. -/
def HandlerPc.recorded (pc : HandlerPc) : Option (ClientId × Finset ResourceId) :=
  if pc.hasRecorded then pc.request else none

/-- The allocations of an `OK` answer. -/
def HandlerPc.okAnswer : HandlerPc → Option (OrderedMap ResourceId ℚ)
  | .heartbeat _ _ (.answered status response) =>
    if status.code = .ok then some response.allocations else none
  | _ => none

/-- Two answers bring the same, if both bring anything. -/
def HandlerPc.SameAnswer (pc later : HandlerPc) : Prop :=
  ∀ allocations ∈ pc.okAnswer, ∀ allocations' ∈ later.okAnswer, allocations' = allocations

instance (pc later : HandlerPc) : Decidable (pc.SameAnswer later) := by
  unfold HandlerPc.SameAnswer
  infer_instance

/-! ## The whole -/

/-- **The service, its clients, and what happened so far.** -/
structure Deployment where
  service : ServiceState
  nodes : ClientId → ClientNode
  /-- The heartbeats whose answer the client is through with. -/
  processed : ℕ → Bool
  history : History

/-- What may happen next. -/
inductive DeploymentAction where
  | handlerSection (handler : ℕ) (readings : ClientId → TimePoint) (now : TimePoint)
  | tick (now : TimePoint)
  /-- Somebody's `SetResourceLimit`. -/
  | setResourceLimit (resourceId : ResourceId) (rateLimit : ℚ)
  | setResourceInterests (clientId : ClientId) (resourceIds : Finset ResourceId)
  | start (clientId : ClientId)
  /-- The registration is answered. -/
  | registered (clientId : ClientId)
  /-- It ends in an error of the connection. -/
  | registrationLost (clientId : ClientId)
  | stop (clientId : ClientId)
  /-- `Stop` has joined the threads. -/
  | unregister (clientId : ClientId)
  /-- The unregistration is over, however it ended. -/
  | clear (clientId : ClientId)
  /-- The heartbeat thread is through its wait and finds `running_` set. -/
  | wake (clientId : ClientId)
  /-- `SendHeartbeat` copies the interests and sends them. -/
  | sendHeartbeat (clientId : ClientId) (sender : Sender)
  /-- `SendHeartbeat` has the answer, and applies its allocations. -/
  | answer (clientId : ClientId) (sender : Sender) (now : ResourceId → TimePoint)
  /-- The call ends in an error of the connection. -/
  | heartbeatLost (clientId : ClientId) (sender : Sender)
  | acquire (clientId : ClientId) (request : PendingRequest) (now : TimePoint)
  | workerIteration (clientId : ClientId) (now : TimePoint)

/-- The client an action is one of. -/
def DeploymentAction.client : DeploymentAction → Option ClientId
  | .handlerSection _ _ _ => none
  | .tick _ => none
  | .setResourceLimit _ _ => none
  | .setResourceInterests clientId _ => some clientId
  | .start clientId => some clientId
  | .registered clientId => some clientId
  | .registrationLost clientId => some clientId
  | .stop clientId => some clientId
  | .unregister clientId => some clientId
  | .clear clientId => some clientId
  | .wake clientId => some clientId
  | .sendHeartbeat clientId _ => some clientId
  | .answer clientId _ _ => some clientId
  | .heartbeatLost clientId _ => some clientId
  | .acquire clientId _ _ => some clientId
  | .workerIteration clientId _ => some clientId

namespace ClientNode

/-- A sender goes to its next place. -/
def goto (node : ClientNode) (sender : Sender) (pc : SenderPc) : ClientNode :=
  { node with senders := Function.update node.senders sender pc }

/-- `SendHeartbeat` past its RPC: an error leaves the buckets alone. -/
def receiveAnswer (node : ClientNode) (call : ℕ) (status : Status) (response : HeartbeatResponse)
    (now : ResourceId → TimePoint) : ClientNode :=
  if status.code = .ok then
    { node with
      client := node.client.updateTokenBuckets now response.allocations
      applied := some call }
  else node

/-- The end of `Stop`. -/
def clear (node : ClientNode) (calls : ℕ) : ClientNode :=
  { node with
    client := { node.client with tokenBuckets := ∅, pendingQueue := [] }
    phase := .stopped
    applied := none
    clearedAt := calls }

end ClientNode

namespace Deployment

/-- A client changes. -/
def setNode (d : Deployment) (clientId : ClientId) (node : ClientNode) : Deployment :=
  { d with nodes := Function.update d.nodes clientId node }

/-- What an action does, but for the history. -/
def act (d : Deployment) : DeploymentAction → Option Deployment
  | .handlerSection handler readings now =>
    (d.service.handlerSection handler readings now).map fun service =>
      { d with service := service }
  | .tick now => (d.service.step (.tick now)).map fun service => { d with service := service }
  | .setResourceLimit resourceId rateLimit =>
    some { d with service := d.service.receive (.setResourceLimit resourceId rateLimit) }
  | .setResourceInterests clientId resourceIds =>
    some (d.setNode clientId { d.nodes clientId with resourceInterests := resourceIds })
  | .start clientId =>
    let node := d.nodes clientId
    if node.phase = .stopped ∧ node.senders .start = .resting then
      some ({ d with service := d.service.receive (.registerClient clientId) }.setNode clientId
        { node with phase := .registering d.service.created })
    else none
  | .registered clientId =>
    let node := d.nodes clientId
    match node.phase with
    | .registering call =>
      match d.service.handlers call with
      | .returned status =>
        if status.code = .ok then
          some (d.setNode clientId ({ node with phase := .running }.goto .start .sending))
        else some (d.setNode clientId { node with phase := .stopped })
      | _ => none
    | _ => none
  | .registrationLost clientId =>
    let node := d.nodes clientId
    match node.phase with
    | .registering _ => some (d.setNode clientId { node with phase := .stopped })
    | _ => none
  | .stop clientId =>
    let node := d.nodes clientId
    if node.phase = .running then some (d.setNode clientId { node with phase := .stopping })
    else none
  | .unregister clientId =>
    let node := d.nodes clientId
    if node.phase = .stopping ∧ node.senders .heartbeatLoop = .resting then
      some ({ d with service := d.service.receive (.unregisterClient clientId) }.setNode clientId
        { node with phase := .unregistering d.service.created })
    else none
  | .clear clientId =>
    let node := d.nodes clientId
    match node.phase with
    | .unregistering _ => some (d.setNode clientId (node.clear d.service.created))
    | _ => none
  | .wake clientId =>
    let node := d.nodes clientId
    if node.phase = .running ∧ node.senders .heartbeatLoop = .resting then
      some (d.setNode clientId (node.goto .heartbeatLoop .sending))
    else none
  | .sendHeartbeat clientId sender =>
    let node := d.nodes clientId
    match node.senders sender with
    | .sending =>
      let resourceIds := node.resourceInterests.ascending
      some ({ d with service := d.service.receive (.heartbeat clientId resourceIds) }.setNode
        clientId (node.goto sender (.waiting d.service.created)))
    | _ => none
  | .answer clientId sender now =>
    let node := d.nodes clientId
    match node.senders sender with
    | .waiting call =>
      match d.service.handlers call with
      | .heartbeat _ _ (.answered status response) =>
        some ({ d with processed := Function.update d.processed call true }.setNode clientId
          ((node.receiveAnswer call status response now).goto sender .resting))
      | _ => none
    | _ => none
  | .heartbeatLost clientId sender =>
    let node := d.nodes clientId
    match node.senders sender with
    | .waiting _ => some (d.setNode clientId (node.goto sender .resting))
    | _ => none
  | .acquire clientId request now =>
    let node := d.nodes clientId
    some (d.setNode clientId { node with client := node.client.acquire request now })
  | .workerIteration clientId now =>
    let node := d.nodes clientId
    if node.phase = .running ∨ node.phase = .stopping then
      some (d.setNode clientId { node with client := node.client.workerIteration now })
    else none

/-- One step, and what it adds to the history. -/
def step (d : Deployment) (a : DeploymentAction) : Option Deployment :=
  (d.act a).map fun d' => { d' with history := d.history.observe d.service d'.service }

/-! ## What the results speak of -/

/-- A client's heartbeats. -/
def IsCall (d : Deployment) (clientId : ClientId) (call : ℕ) : Prop :=
  ∃ resourceIds, (d.service.handlers call).request = some (clientId, resourceIds)

def IsRunning (d : Deployment) (clientId : ClientId) : Prop :=
  (d.nodes clientId).phase = .running

/-- The rate of a client's bucket for a resource, if it holds one. -/
def rate (d : Deployment) (clientId : ClientId) (resourceId : ResourceId) : Option ℚ :=
  ((d.nodes clientId).client.tokenBuckets[resourceId]?).map TokenBucket.rate

end Deployment

/-- The runs of a service that was just started and of constructed clients.
`ParseArgs` takes no negative timeout. -/
def deploymentSystem (heartbeatTimeout : ℕ) : GuardedSystem Deployment DeploymentAction where
  init :=
    { service := (serviceSystem heartbeatTimeout).init, nodes := fun _ => .new,
      processed := fun _ => false,
      history := { steps := 0, lastChange := 0, lastWrite := 0, lastShareChange := fun _ => 0,
                   computedFrom := fun _ => 0, answeredAt := fun _ => 0, droppedAt := fun _ => 0 } }
  step := Deployment.step

/-! ## Fair rates -/

/-- The registered clients that name a resource. -/
def ServiceState.interestedClients (s : ServiceState) (resourceId : ResourceId) :
    Finset ClientId :=
  (s.present.interests.filter fun _ ids => decide (resourceId ∈ ids)).keys.toFinset

/-- A resource's limit; none is as good as zero. -/
def ServiceState.limit (s : ServiceState) (resourceId : ResourceId) : ℚ :=
  (s.manager.resourceLimits[resourceId]?).getD 0

namespace Deployment

/-- **Everybody has heard since a state**: the registered clients are the
running ones, and the allocations each applied last were computed in that
state or a later one. -/
structure HeardSince (d : Deployment) (point : ℕ) : Prop where
  registered : ∀ c, c ∈ d.service.present.clients ↔ d.IsRunning c
  applied : ∀ c, d.IsRunning c → ∃ call, (d.nodes c).applied = some call ∧
    point ≤ d.history.computedFrom call

/-- **The rates of a resource are fair**: if anybody registered names it,
those who do hold equal parts of its limit, and no other client any. -/
structure FairAt (d : Deployment) (resourceId : ResourceId) : Prop where
  equal : ∀ c ∈ d.service.interestedClients resourceId, d.rate c resourceId =
    some (d.service.limit resourceId / (d.service.interestedClients resourceId).card)
  others : ∀ c, d.IsRunning c → c ∉ d.service.interestedClients resourceId →
    d.rate c resourceId = none
  total : (d.service.interestedClients resourceId).Nonempty →
    ∑ᶠ c ∈ {c | d.IsRunning c}, (d.rate c resourceId).getD 0 = d.service.limit resourceId

/-! ## The quota -/

/-- A client is through with an answer, `OK` or not, that the service made
after it last wrote. -/
def HasHeard (d : Deployment) (clientId : ClientId) : Prop :=
  ∃ call, d.IsCall clientId call ∧ d.processed call = true ∧
    d.history.lastWrite ≤ d.history.answeredAt call

/-- **The quota is kept**: when every running client has heard, no running
clients together hold more of a resource than its limit. -/
def QuotaKept (d : Deployment) : Prop :=
  (∀ c, d.IsRunning c → d.HasHeard c) →
    ∀ (r : ResourceId) (limit : ℚ), d.service.manager.resourceLimits[r]? = some limit →
      ∀ S : Finset ClientId, (∀ c ∈ S, d.IsRunning c) →
        ∑ c ∈ S, (d.rate c r).getD 0 ≤ limit

/-- **Nobody is told old news**: a client that has heard, or does so with
the answer it takes, applies only allocations computed since its shares
changed last; and an error finds it without a bucket that fills. -/
def TellsNews (d : Deployment) : DeploymentAction → Prop
  | .answer clientId sender _ =>
    ∀ call resourceIds status response, (d.nodes clientId).senders sender = .waiting call →
      d.service.handlers call = .heartbeat clientId resourceIds (.answered status response) →
      if status.code = .ok then
        d.history.lastWrite ≤ d.history.answeredAt call ∨ d.HasHeard clientId →
          d.history.lastShareChange clientId ≤ d.history.computedFrom call
      else
        d.history.lastWrite ≤ d.history.answeredAt call →
          ∀ r rate, d.rate clientId r = some rate → rate = 0
  | _ => True

/-! ## The heartbeats of one client -/

instance (d : Deployment) (clientId : ClientId) (call : ℕ) : Decidable (d.IsCall clientId call) :=
  decidable_of_iff ((d.service.handlers call).request.map Prod.fst = some clientId) (by
    rw [IsCall, Option.map_eq_some_iff]
    exact ⟨fun ⟨x, hx, hfst⟩ => ⟨x.2, by rw [hx, ← hfst]⟩, fun ⟨ids, hids⟩ => ⟨_, hids, rfl⟩⟩)

/-- **No heartbeat of a client is under way**: all were answered `OK`, and
it is through with them. The `newest` is the one it made last, the
`latest` the one that was answered last; its registration was not dropped
since it made the one, nor its buckets cleared since it made the other. -/
structure Quiet (d : Deployment) (clientId : ClientId) (newest latest : ℕ) : Prop where
  newest_isCall : d.IsCall clientId newest
  newest_max : ∀ k, d.IsCall clientId k → k ≤ newest
  latest_isCall : d.IsCall clientId latest
  latest_max : ∀ k, d.IsCall clientId k → d.history.answeredAt k ≤ d.history.answeredAt latest
  accepted : ∀ k, d.IsCall clientId k →
    d.processed k = true ∧ (d.service.handlers k).okAnswer.isSome = true
  registered : d.history.droppedAt clientId ≤ newest
  kept : (d.nodes clientId).clearedAt ≤ latest

/-- **The newest wins**: what is on record for such a client are the
interests it sent last, and its buckets are those of the answer that was
made last. -/
def NewestWins (d : Deployment) : Prop :=
  ∀ clientId newest latest, d.Quiet clientId newest latest →
    (∀ resourceIds, (d.service.handlers newest).request = some (clientId, resourceIds) →
      d.service.registry.interests[clientId]? = some resourceIds) ∧
    ∀ allocations, (d.service.handlers latest).okAnswer = some allocations →
      ∀ r, d.rate clientId r = allocations[r]?

/-- Of a client's heartbeats that are on record, the one that was made
last, if the client was not dropped since. -/
def IsNewestRecorded (d : Deployment) (clientId : ClientId) (k : ℕ) : Prop :=
  (d.service.handlers k).recorded.map Prod.fst = some clientId ∧
    d.history.droppedAt clientId ≤ k ∧
    ∀ k' < d.service.created, k < k' →
      (d.service.handlers k').recorded.map Prod.fst ≠ some clientId

instance (d : Deployment) (clientId : ClientId) (k : ℕ) :
    Decidable (d.IsNewestRecorded clientId k) := inferInstanceAs (Decidable (_ ∧ _))

/-- A client is through with an `OK` answer. -/
def HasTaken (d : Deployment) (clientId : ClientId) (k : ℕ) : Prop :=
  d.IsCall clientId k ∧ d.processed k = true ∧ (d.service.handlers k).okAnswer.isSome = true

instance (d : Deployment) (clientId : ClientId) (k : ℕ) : Decidable (d.HasTaken clientId k) :=
  inferInstanceAs (Decidable (_ ∧ _))

/-- Of these the one that was made last, if the buckets were not cleared
since it was asked for. -/
def IsLatestTaken (d : Deployment) (clientId : ClientId) (k : ℕ) : Prop :=
  d.HasTaken clientId k ∧ (d.nodes clientId).clearedAt ≤ k ∧
    ∀ k' < d.service.created, d.HasTaken clientId k' →
      d.history.answeredAt k' ≤ d.history.answeredAt k

instance (d : Deployment) (clientId : ClientId) (k : ℕ) :
    Decidable (d.IsLatestTaken clientId k) := inferInstanceAs (Decidable (_ ∧ _))

/-- **What is overtaken comes to the same**: no interests are recorded over
the newest on record, which the client sent later, and no allocations
applied over the latest taken, which were made later, but the same. -/
def InOrder (d : Deployment) : DeploymentAction → Prop
  | .handlerSection handler _ _ =>
    ∀ request ∈ (d.service.handlers handler).recording,
      request.1 ∈ d.service.registry.clients →
        ∀ k < d.service.created, handler < k → d.IsNewestRecorded request.1 k →
          (d.service.handlers k).recorded = some request
  | .answer clientId sender _ =>
    ∀ call < d.service.created, (d.nodes clientId).senders sender = .waiting call →
      ∀ k < d.service.created, d.history.answeredAt call < d.history.answeredAt k →
        d.IsLatestTaken clientId k →
          (d.service.handlers call).SameAnswer (d.service.handlers k)
  | _ => True

instance (d : Deployment) (a : DeploymentAction) : Decidable (d.InOrder a) := by
  cases a <;> (unfold InOrder; infer_instance)

end Deployment

end Throttling
