import Throttling.Deployment.Helpers.Records
import Throttling.Client.Helpers.Runs
/-!
# What an action does to the deployment

`Effect` says it once: an action is a step of the service, or changes one
client alone, and of a client's buckets it changes the rates only where
the buckets are cleared or an answer is applied; `EffectOn` is the same
seen from one client. What the results rest on follows for every
reachable deployment (`Consistent`).
-/

namespace Throttling

/-! ## Rates -/

namespace Client

theorem rates_tryConsume (c : Client) (resourceId : ResourceId) (count : ℚ) (now : TimePoint)
    (r : ResourceId) :
    ((c.tryConsume resourceId count now).2.tokenBuckets[r]?).map TokenBucket.rate =
      (c.tokenBuckets[r]?).map TokenBucket.rate := by
  rw [lookup_tryConsume]
  split
  · rw [Option.map_map]
    cases c.tokenBuckets[r]? with
    | none => rfl
    | some b => exact congrArg some (TokenBucket.tryConsume_rate b count now)
  · rfl

/-- **Consuming changes no rate.** -/
theorem rates_acquire (c : Client) (req : PendingRequest) (now : TimePoint) (r : ResourceId) :
    ((c.acquire req now).tokenBuckets[r]?).map TokenBucket.rate =
      (c.tokenBuckets[r]?).map TokenBucket.rate := by
  rw [← rates_tryConsume c req.resourceId req.count now r, acquire]
  dsimp only
  split <;> rfl

theorem rates_workerIteration (c : Client) (now : TimePoint) (r : ResourceId) :
    ((c.workerIteration now).tokenBuckets[r]?).map TokenBucket.rate =
      (c.tokenBuckets[r]?).map TokenBucket.rate := by
  unfold workerIteration
  split
  · rfl
  · rename_i req rest _
    rw [← rates_tryConsume { c with pendingQueue := rest } req.resourceId req.count now r]
    dsimp only
    split <;> rfl

/-- **Applying allocations that are not negative** leaves them for rates. -/
theorem rates_updateTokenBuckets (c : Client) (now : ResourceId → TimePoint)
    {allocations : OrderedMap ResourceId ℚ}
    (hnonneg : ∀ (r : ResourceId) (v : ℚ), allocations[r]? = some v → 0 ≤ v) (r : ResourceId) :
    ((c.updateTokenBuckets now allocations).tokenBuckets[r]?).map TokenBucket.rate =
      allocations[r]? := by
  rw [lookup_updateTokenBuckets, Option.map_map]
  cases hv : allocations[r]? with
  | none => rfl
  | some v =>
    have hmax : max 0 v = v := max_eq_right (hnonneg r v hv)
    cases hb : c.tokenBuckets[r]? with
    | none => simp [hmax]
    | some b => simp [hmax]

end Client

/-! ## Effects -/

namespace Deployment

variable {d d' : Deployment} {a : DeploymentAction}

/-- **Nothing happens to a client's buckets** but what is consumed, it
waits for no call but those it did and one of its own, and another
client's action is nothing to it. -/
structure Alike (d : Deployment) (a : DeploymentAction) (d' : Deployment) (c : ClientId) :
    Prop where
  rates : ∀ r, d'.rate c r = d.rate c r
  applied : (d'.nodes c).applied = (d.nodes c).applied
  clearedAt : (d'.nodes c).clearedAt = (d.nodes c).clearedAt
  waiting : ∀ sender k, (d'.nodes c).senders sender = .waiting k →
    (d.nodes c).senders sender = .waiting k ∨ d'.IsCall c k
  own : a.client = some c ∨ d'.nodes c = d.nodes c

/-- **What an action does** to the service, the buckets and the answers. -/
inductive Effect (d : Deployment) (a : DeploymentAction) (d' : Deployment) : Prop
  /-- The service takes a step. -/
  | served {b : ServiceAction} (hstep : d.service.step b = some d'.service)
      (hsection : ∀ handler readings now, b = .handlerSection handler readings now →
        a = .handlerSection handler readings now)
      (hnodes : ∀ c, Alike d a d' c) (hprocessed : d'.processed = d.processed)
  /-- Some client does something of no interest here. -/
  | quiet (hservice : d'.service = d.service) (hnodes : ∀ c, Alike d a d' c)
      (hprocessed : d'.processed = d.processed)
  | cleared {c : ClientId} (haction : a = .clear c) (hservice : d'.service = d.service)
      (hnode : d'.nodes c = (d.nodes c).clear d.service.created)
      (hothers : ∀ c', c' ≠ c → d'.nodes c' = d.nodes c') (hprocessed : d'.processed = d.processed)
  | answered {c c' : ClientId} {sender : Sender} {now : ResourceId → TimePoint} {call : ℕ}
      {ids : Finset ResourceId} {status : Status} {response : HeartbeatResponse}
      (haction : a = .answer c sender now)
      (hwaits : (d.nodes c).senders sender = .waiting call)
      (hpc : d.service.handlers call = .heartbeat c' ids (.answered status response))
      (hservice : d'.service = d.service)
      (hnode : d'.nodes c = ((d.nodes c).receiveAnswer call status response now).goto sender
        .resting)
      (hothers : ∀ c', c' ≠ c → d'.nodes c' = d.nodes c')
      (hprocessed : d'.processed = Function.update d.processed call true)

theorem alike_of_node {c : ClientId} (h : d'.nodes c = d.nodes c) : Alike d a d' c where
  rates r := by rw [rate, rate, h]
  applied := by rw [h]
  clearedAt := by rw [h]
  waiting sender k hw := by rw [h] at hw; exact .inl hw
  own := .inr h

@[simp] theorem setNode_self (d : Deployment) (c : ClientId) (node : ClientNode) :
    (d.setNode c node).nodes c = node := Function.update_self _ _ _

theorem setNode_of_ne (d : Deployment) {c c' : ClientId} (node : ClientNode) (hne : c' ≠ c) :
    (d.setNode c node).nodes c' = d.nodes c' := Function.update_of_ne hne _ _

/-- A client that changes, and its buckets do not. -/
theorem alike_setNode {e : Deployment} {c c' : ClientId} {node : ClientNode}
    (ha : a.client = some c) (he : e.nodes = d.nodes)
    (hrates : ∀ r : ResourceId, (node.client.tokenBuckets[r]?).map TokenBucket.rate = d.rate c r)
    (happlied : node.applied = (d.nodes c).applied)
    (hclearedAt : node.clearedAt = (d.nodes c).clearedAt)
    (hwaiting : ∀ sender k, node.senders sender = .waiting k →
      (d.nodes c).senders sender = .waiting k ∨ e.IsCall c k) :
    Alike d a (e.setNode c node) c' := by
  by_cases hc : c' = c
  · subst hc
    refine ⟨fun r => ?_, by rw [setNode_self]; exact happlied,
      by rw [setNode_self]; exact hclearedAt, fun sender k hw => ?_, .inl ha⟩
    · rw [rate, setNode_self]
      exact hrates r
    · rw [setNode_self] at hw
      exact hwaiting sender k hw
  · exact alike_of_node (by rw [setNode_of_ne e node hc, he])

/-- A sender that is not waiting next waits for nothing new. -/
theorem waiting_goto {node : ClientNode} {sender sender' : Sender} {pc : SenderPc} {k : ℕ}
    (hw : (node.goto sender pc).senders sender' = .waiting k) (hpc : ∀ k, pc ≠ .waiting k) :
    node.senders sender' = .waiting k := by
  rw [ClientNode.goto] at hw
  dsimp only at hw
  rw [Function.update_apply] at hw
  split at hw
  · exact absurd hw (hpc k)
  · exact hw

/-- A client that changes alone, and its buckets do not. -/
theorem effect_setNode {c : ClientId} {node : ClientNode} (ha : a.client = some c)
    (hrates : ∀ r : ResourceId, (node.client.tokenBuckets[r]?).map TokenBucket.rate = d.rate c r)
    (happlied : node.applied = (d.nodes c).applied)
    (hclearedAt : node.clearedAt = (d.nodes c).clearedAt)
    (hwaiting : ∀ sender k, node.senders sender = .waiting k →
      (d.nodes c).senders sender = .waiting k) : Effect d a (d.setNode c node) :=
  .quiet rfl (fun _ => alike_setNode ha rfl hrates happlied hclearedAt
    fun sender k hw => .inl (hwaiting sender k hw)) rfl

theorem effect_of_act (h : d.act a = some d') : Effect d a d' := by
  cases a with
  | handlerSection handler readings now =>
    obtain ⟨service, hservice, rfl⟩ := Option.map_eq_some_iff.mp h
    refine .served (b := .handlerSection handler readings now) hservice ?_
      (fun c => alike_of_node rfl) rfl
    intro handler' readings' now' heq
    cases heq
    rfl
  | tick now =>
    obtain ⟨service, hservice, rfl⟩ := Option.map_eq_some_iff.mp h
    exact .served hservice (fun _ _ _ heq => by cases heq) (fun c => alike_of_node rfl) rfl
  | setResourceLimit r limit =>
    obtain rfl := Option.some.inj h
    exact .served (b := .receive _) rfl (fun _ _ _ heq => by cases heq)
      (fun c => alike_of_node rfl) rfl
  | setResourceInterests c ids =>
    obtain rfl := Option.some.inj h
    exact effect_setNode rfl (fun _ => rfl) rfl rfl fun _ _ => id
  | start c =>
    simp only [act] at h
    split at h
    · obtain rfl := Option.some.inj h
      refine .served (b := .receive _) rfl (fun _ _ _ heq => by cases heq) (fun _ => ?_) rfl
      exact alike_setNode rfl rfl (fun _ => rfl) rfl rfl fun _ _ => .inl
    · cases h
  | registered c =>
    simp only [act] at h
    split at h
    · split at h
      · split at h
        · obtain rfl := Option.some.inj h
          exact effect_setNode rfl (fun _ => rfl) rfl rfl fun _ _ hw =>
            waiting_goto hw fun _ => SenderPc.noConfusion
        · obtain rfl := Option.some.inj h
          exact effect_setNode rfl (fun _ => rfl) rfl rfl fun _ _ => id
      · cases h
    · cases h
  | registrationLost c =>
    simp only [act] at h
    split at h
    · obtain rfl := Option.some.inj h
      exact effect_setNode rfl (fun _ => rfl) rfl rfl fun _ _ => id
    · cases h
  | stop c =>
    simp only [act] at h
    split at h
    · obtain rfl := Option.some.inj h
      exact effect_setNode rfl (fun _ => rfl) rfl rfl fun _ _ => id
    · cases h
  | unregister c =>
    simp only [act] at h
    split at h
    · obtain rfl := Option.some.inj h
      refine .served (b := .receive _) rfl (fun _ _ _ heq => by cases heq) (fun _ => ?_) rfl
      exact alike_setNode rfl rfl (fun _ => rfl) rfl rfl fun _ _ => .inl
    · cases h
  | clear c =>
    simp only [act] at h
    split at h
    · obtain rfl := Option.some.inj h
      exact .cleared rfl rfl (d.setNode_self c _) (fun c' hc => d.setNode_of_ne _ hc) rfl
    · cases h
  | wake c =>
    simp only [act] at h
    split at h
    · obtain rfl := Option.some.inj h
      exact effect_setNode rfl (fun _ => rfl) rfl rfl fun _ _ hw =>
        waiting_goto hw fun _ => SenderPc.noConfusion
    · cases h
  | sendHeartbeat c sender =>
    simp only [act] at h
    split at h
    · obtain rfl := Option.some.inj h
      refine .served (b := .receive _) rfl (fun _ _ _ heq => by cases heq) (fun _ => ?_) rfl
      refine alike_setNode rfl rfl (fun _ => rfl) rfl rfl fun sender' k hw => ?_
      -- the one call it newly waits for is the one it makes
      rw [ClientNode.goto] at hw
      dsimp only at hw
      rw [Function.update_apply] at hw
      split at hw
      · cases hw
        refine .inr ⟨(d.nodes c).resourceInterests.ascending.toFinset, ?_⟩
        rw [ServiceState.handlers_receive, if_pos rfl]
        rfl
      · exact .inl hw
    · cases h
  | answer c sender now =>
    simp only [act] at h
    split at h
    · rename_i call hwaits
      split at h
      · rename_i hpc
        obtain rfl := Option.some.inj h
        exact .answered rfl hwaits hpc rfl (d.setNode_self c _)
          (fun c' hc => d.setNode_of_ne _ hc) rfl
      · cases h
    · cases h
  | heartbeatLost c sender =>
    simp only [act] at h
    split at h
    · obtain rfl := Option.some.inj h
      exact effect_setNode rfl (fun _ => rfl) rfl rfl fun _ _ hw =>
        waiting_goto hw fun _ => SenderPc.noConfusion
    · cases h
  | acquire c req now =>
    obtain rfl := Option.some.inj h
    exact effect_setNode rfl (Client.rates_acquire _ req now) rfl rfl fun _ _ => id
  | workerIteration c now =>
    simp only [act] at h
    split at h
    · obtain rfl := Option.some.inj h
      exact effect_setNode rfl (Client.rates_workerIteration _ now) rfl rfl fun _ _ => id
    · cases h

/-- **What a step is**: an action's effect, and its entry in the history. -/
theorem effect_of_step (h : d.step a = some d') :
    Effect d a d' ∧ d'.history = d.history.observe d.service d'.service := by
  obtain ⟨d₁, hact, rfl⟩ := Option.map_eq_some_iff.mp h
  refine ⟨?_, rfl⟩
  cases effect_of_act hact with
  | served hstep hsection hnodes hprocessed =>
    exact .served hstep hsection (fun c => ⟨(hnodes c).rates, (hnodes c).applied,
      (hnodes c).clearedAt, (hnodes c).waiting, (hnodes c).own⟩) hprocessed
  | quiet hservice hnodes hprocessed =>
    exact .quiet hservice (fun c => ⟨(hnodes c).rates, (hnodes c).applied,
      (hnodes c).clearedAt, (hnodes c).waiting, (hnodes c).own⟩) hprocessed
  | cleared haction hservice hnode hothers hprocessed =>
    exact .cleared haction hservice hnode hothers hprocessed
  | answered haction hwaits hpc hservice hnode hothers hprocessed =>
    exact .answered haction hwaits hpc hservice hnode hothers hprocessed

theorem Effect.service (h : Effect d a d') :
    d'.service = d.service ∨ ∃ b, d.service.step b = some d'.service := by
  cases h with
  | served hstep => exact .inr ⟨_, hstep⟩
  | quiet hservice => exact .inl hservice
  | cleared haction hservice => exact .inl hservice
  | answered haction hwaits hpc hservice => exact .inl hservice

/-! ## Runs -/

/-- Another client's action is nothing to a client. -/
theorem nodes_of_step_ne {c : ClientId} (h : d.step a = some d') (hc : a.client ≠ some c) :
    d'.nodes c = d.nodes c := by
  cases (effect_of_step h).1 with
  | served hstep hsection hnodes => exact (hnodes c).own.resolve_left hc
  | quiet hservice hnodes => exact (hnodes c).own.resolve_left hc
  | cleared haction hservice hnode hothers =>
    subst haction
    exact hothers c fun heq => hc (by rw [heq]; rfl)
  | answered haction hwaits hpc hservice hnode hothers =>
    subst haction
    exact hothers c fun heq => hc (by rw [heq]; rfl)

theorem nodes_of_runFrom {heartbeatTimeout : ℕ} {c : ClientId} {run : List DeploymentAction}
    (hrun : (deploymentSystem heartbeatTimeout).runFrom d run = some d')
    (hc : ∀ a ∈ run, a.client ≠ some c) : d'.nodes c = d.nodes c := by
  induction run generalizing d with
  | nil =>
    obtain rfl : d = d' := by simpa [GuardedSystem.runFrom] using hrun
    rfl
  | cons a run ih =>
    rw [GuardedSystem.runFrom] at hrun
    obtain ⟨mid, hstep, hrest⟩ := Option.bind_eq_some_iff.mp hrun
    rw [ih hrest fun b hb => hc b (List.mem_cons_of_mem _ hb)]
    exact nodes_of_step_ne hstep (hc a List.mem_cons_self)

/-- Only a client whose action is in a run is running after it and not
before. -/
theorem isRunning_of_runFrom {heartbeatTimeout : ℕ} {c : ClientId} {run : List DeploymentAction}
    (names : List ClientId) (hrun : (deploymentSystem heartbeatTimeout).runFrom d run = some d')
    (hnamed : ∀ a ∈ run, ∀ c ∈ a.client, c ∈ names) (hc : d'.IsRunning c) :
    c ∈ names ∨ d.IsRunning c := by
  by_contra hnot
  rw [not_or] at hnot
  have hnode := nodes_of_runFrom hrun fun a ha heq => hnot.1 (hnamed a ha c heq)
  rw [IsRunning, hnode] at hc
  exact hnot.2 hc

/-- Some sections of a handler, all at one time. -/
def sections (handler n : ℕ) (now : TimePoint) : List DeploymentAction :=
  List.replicate n (.handlerSection handler (fun _ => now) now)

/-- A client is started with an interest and sends its first heartbeat;
so many calls were made before. -/
def starting (clientId : ClientId) (resourceId : ResourceId) (calls : ℕ) (now : TimePoint) :
    List DeploymentAction :=
  [.setResourceInterests clientId {resourceId}, .start clientId] ++ sections calls 2 now ++
    [.registered clientId, .sendHeartbeat clientId .start]

/-- Of a limit of 100, client `"a"` gets all, being alone. -/
def untilAlone : List DeploymentAction :=
  [.setResourceLimit 1 100] ++ sections 0 1 0 ++ starting "a" 1 1 0 ++ sections 2 7 0

/-! ## What every reachable deployment has -/

theorem exists_of_isAnswered {pc : HandlerPc} (h : pc.isAnswered = true) :
    ∃ c ids status response, pc = .heartbeat c ids (.answered status response) := by
  unfold HandlerPc.isAnswered at h
  split at h
  · exact ⟨_, _, _, _, rfl⟩
  · cases h

/-- **What holds of every deployment reached**: the service is as its
sections keep it, the history is of the past, what was computed after the
last change is on track and after the last write has the shares of now,
who waits waits for an own call, and the rates held are those of the
answer applied last. -/
structure Consistent (d : Deployment) : Prop where
  sane : d.service.Sane
  past : d.service.Past
  dated : d.history.Dated d.service
  /-- With a timeout that wrapped around to less than zero nobody is ever
  live. -/
  tracking : 0 ≤ d.service.registry.timeoutTicks → d.service.Tracking d.history
  current : d.service.Current d.history
  waits : ∀ c sender k, (d.nodes c).senders sender = .waiting k → d.IsCall c k
  applied : ∀ c k, (d.nodes c).applied = some k → ∃ ids status response,
    d.service.handlers k = .heartbeat c ids (.answered status response) ∧ status.code = .ok ∧
      ∀ r, d.rate c r = response.allocations[r]?
  processed : ∀ k, d.processed k = true → (d.service.handlers k).isAnswered = true

theorem consistent_init (heartbeatTimeout : ℕ) :
    Consistent (deploymentSystem heartbeatTimeout).init where
  sane := ServiceState.sane_init heartbeatTimeout
  past c info hinfo := by simp [deploymentSystem, serviceSystem, ClientRegistry.new,
    ClientRegistry.setListener] at hinfo
  dated :=
    { lastChange := le_rfl
      computedFrom := fun _ => le_rfl
      answeredAt := fun _ hk => by cases hk
      distinct := fun _ _ hk => by cases hk }
  tracking _ k c ids stage hpc := by cases hpc
  current k c ids stage hpc := by cases hpc
  waits c sender k hw := by cases hw
  applied c k hk := by cases hk
  processed k hk := by cases hk

theorem Consistent.sane_step (hd : Consistent d) (h : Effect d a d') : d'.service.Sane := by
  rcases h.service with heq | ⟨b, hstep⟩
  · rw [heq]
    exact hd.sane
  · exact hd.sane.step hstep

theorem Consistent.past_step (hd : Consistent d) (h : Effect d a d') : d'.service.Past := by
  rcases h.service with heq | ⟨b, hstep⟩
  · rw [heq]
    exact hd.past
  · exact hd.past.step hstep

/-- The timeout is that of the start. -/
theorem Effect.timeoutTicks (h : Effect d a d') :
    d'.service.registry.timeoutTicks = d.service.registry.timeoutTicks := by
  rcases h.service with heq | ⟨b, hstep⟩
  · rw [heq]
  · exact ServiceState.timeoutTicks_step hstep

/-- An answer stays. -/
theorem Consistent.handlers_of_answered (hd : Consistent d) (h : Effect d a d') {k : ℕ}
    {c : ClientId} {ids : Finset ResourceId} {status : Status} {response : HeartbeatResponse}
    (hpc : d.service.handlers k = .heartbeat c ids (.answered status response)) :
    d'.service.handlers k = .heartbeat c ids (.answered status response) := by
  rcases h.service with heq | ⟨b, hstep⟩
  · rw [heq, hpc]
  · exact ServiceState.handlers_of_answered hd.sane hstep hpc

theorem Consistent.handlers_of_isAnswered (hd : Consistent d) (h : Effect d a d') {k : ℕ}
    (hk : (d.service.handlers k).isAnswered = true) :
    d'.service.handlers k = d.service.handlers k := by
  obtain ⟨c, ids, status, response, hpc⟩ := exists_of_isAnswered hk
  rw [hd.handlers_of_answered h hpc, hpc]

/-- A client's heartbeat stays so. -/
theorem Consistent.isCall_step (hd : Consistent d) (h : Effect d a d') {c : ClientId} {k : ℕ}
    (hk : d.IsCall c k) : d'.IsCall c k := by
  obtain ⟨ids, hids⟩ := hk
  rcases h.service with heq | ⟨b, hstep⟩
  · exact ⟨ids, by rw [heq]; exact hids⟩
  · exact ⟨ids, ServiceState.request_step hd.sane hstep hids⟩

/-- The answer a client waits for is one to itself. -/
theorem Consistent.client_of_waiting (hd : Consistent d) {c c' : ClientId} {sender : Sender}
    {k : ℕ} {ids : Finset ResourceId} {stage : HeartbeatStage}
    (hwaits : (d.nodes c).senders sender = .waiting k)
    (hpc : d.service.handlers k = .heartbeat c' ids stage) : c' = c := by
  obtain ⟨ids', hrequest⟩ := hd.waits c sender k hwaits
  rw [hpc] at hrequest
  exact (Prod.mk.inj (Option.some.inj hrequest)).1

/-- **What an action does to one client**: it changes no rate and nothing
the client is through with, clears its buckets, or is its taking of an
answer. -/
inductive EffectOn (d : Deployment) (a : DeploymentAction) (d' : Deployment) (c : ClientId) : Prop
  | alike (hnode : Alike d a d' c)
      (hprocessed : ∀ k, d.IsCall c k → d'.processed k = d.processed k)
  | cleared (hnode : d'.nodes c = (d.nodes c).clear d.service.created)
      (hprocessed : d'.processed = d.processed)
  | answered {sender : Sender} {now : ResourceId → TimePoint} {call : ℕ} {ids : Finset ResourceId}
      {status : Status} {response : HeartbeatResponse} (haction : a = .answer c sender now)
      (hwaits : (d.nodes c).senders sender = .waiting call)
      (hpc : d.service.handlers call = .heartbeat c ids (.answered status response))
      (hnode : d'.nodes c = ((d.nodes c).receiveAnswer call status response now).goto sender
        .resting)
      (hprocessed : d'.processed = Function.update d.processed call true)

theorem Consistent.effectOn (hd : Consistent d) (h : Effect d a d') (c : ClientId) :
    EffectOn d a d' c := by
  cases h with
  | served hstep hsection hnodes hprocessed =>
    exact .alike (hnodes c) fun k _ => by rw [hprocessed]
  | quiet hservice hnodes hprocessed => exact .alike (hnodes c) fun k _ => by rw [hprocessed]
  | @cleared c₁ haction hservice hnode hothers hprocessed =>
    by_cases hc : c = c₁
    · subst hc
      exact .cleared hnode hprocessed
    · exact .alike (alike_of_node (hothers c hc)) fun k _ => by rw [hprocessed]
  | @answered c₁ c' sender now call ids status response haction hwaits hpc hservice hnode hothers
      hprocessed =>
    obtain rfl := hd.client_of_waiting hwaits hpc
    by_cases hc : c = c'
    · subst hc
      exact .answered haction hwaits hpc hnode hprocessed
    · refine .alike (alike_of_node (hothers c hc)) fun k hk => ?_
      have hne : k ≠ call := by
        rintro rfl
        obtain ⟨ids', hrequest⟩ := hk
        rw [hpc] at hrequest
        exact hc (congrArg Prod.fst (Option.some.inj hrequest)).symm
      rw [hprocessed, Function.update_of_ne hne]

theorem Consistent.dated_step (hd : Consistent d) (h : Effect d a d')
    (hhistory : d'.history = d.history.observe d.service d'.service) :
    d'.history.Dated d'.service := by
  rw [hhistory]
  rcases h.service with heq | ⟨b, hstep⟩
  · exact hd.dated.observe 0 fun k _ => by rw [heq]
  · obtain ⟨moved, hmoved⟩ := ServiceState.exists_moved_step hstep
    exact hd.dated.observe moved hmoved

theorem Consistent.tracking_step (hd : Consistent d) (h : Effect d a d')
    (hhistory : d'.history = d.history.observe d.service d'.service)
    (hticks : 0 ≤ d'.service.registry.timeoutTicks) : d'.service.Tracking d'.history := by
  rw [hhistory]
  rcases h.service with heq | ⟨b, hstep⟩
  · rw [heq, History.observe_self]
    rw [heq] at hticks
    exact hd.tracking hticks
  · rw [ServiceState.timeoutTicks_step hstep] at hticks
    exact (hd.tracking hticks).step hd.sane hd.dated hticks hstep

theorem Consistent.current_step (hd : Consistent d) (h : Effect d a d')
    (hhistory : d'.history = d.history.observe d.service d'.service) :
    d'.service.Current d'.history := by
  rw [hhistory]
  rcases h.service with heq | ⟨b, hstep⟩
  · rw [heq, History.observe_self]
    exact hd.current
  · exact hd.current.step hd.sane hd.dated hstep

theorem Consistent.waits_step (hd : Consistent d) (h : Effect d a d') {c : ClientId}
    {sender : Sender} {k : ℕ} (hw : (d'.nodes c).senders sender = .waiting k) : d'.IsCall c k := by
  have hold : (d.nodes c).senders sender = .waiting k ∨ d'.IsCall c k := by
    cases hd.effectOn h c with
    | alike hnode hprocessed => exact hnode.waiting sender k hw
    | cleared hnode hprocessed =>
      rw [hnode] at hw
      exact .inl hw
    | answered haction hwaits hpc hnode hprocessed =>
      rw [hnode] at hw
      have hw := waiting_goto hw fun _ => SenderPc.noConfusion
      rw [ClientNode.receiveAnswer] at hw
      split at hw <;> exact .inl hw
  exact hold.elim (fun hw => hd.isCall_step h (hd.waits c sender k hw)) id

/-- **What an answer does to the rates**: an `OK` one brings its
allocations, any other nothing. -/
theorem Consistent.rate_answered (hd : Consistent d) {c c' : ClientId} {sender : Sender}
    {now : ResourceId → TimePoint} {call : ℕ} {ids : Finset ResourceId} {status : Status}
    {response : HeartbeatResponse}
    (hpc : d.service.handlers call = .heartbeat c' ids (.answered status response))
    (hnode : d'.nodes c = ((d.nodes c).receiveAnswer call status response now).goto sender
      .resting) (r : ResourceId) :
    d'.rate c r = if status.code = .ok then response.allocations[r]? else d.rate c r := by
  rw [rate, hnode, ClientNode.goto, ClientNode.receiveAnswer]
  split
  · exact Client.rates_updateTokenBuckets _ now (hd.sane.shares _ _ _ _ hpc) r
  · rfl

theorem applied_answered {c : ClientId} {sender : Sender} {now : ResourceId → TimePoint} {call : ℕ}
    {status : Status} {response : HeartbeatResponse}
    (hnode : d'.nodes c = ((d.nodes c).receiveAnswer call status response now).goto sender
      .resting) :
    (d'.nodes c).applied = if status.code = .ok then some call else (d.nodes c).applied := by
  rw [hnode, ClientNode.goto, ClientNode.receiveAnswer]
  split <;> rfl

theorem Consistent.applied_step (hd : Consistent d) (h : Effect d a d') {c : ClientId} {k : ℕ}
    (hk : (d'.nodes c).applied = some k) : ∃ ids status response,
      d'.service.handlers k = .heartbeat c ids (.answered status response) ∧ status.code = .ok ∧
        ∀ r, d'.rate c r = response.allocations[r]? := by
  have hkept : (d'.nodes c).applied = (d.nodes c).applied → (∀ r, d'.rate c r = d.rate c r) →
      ∃ ids status response,
        d'.service.handlers k = .heartbeat c ids (.answered status response) ∧ status.code = .ok ∧
          ∀ r, d'.rate c r = response.allocations[r]? := by
    intro happlied hrates
    obtain ⟨ids, status, response, hpc, hok, hrate⟩ := hd.applied c k (happlied.symm.trans hk)
    exact ⟨ids, status, response, hd.handlers_of_answered h hpc, hok,
      fun r => (hrates r).trans (hrate r)⟩
  cases hd.effectOn h c with
  | alike hnode hprocessed => exact hkept hnode.applied hnode.rates
  | cleared hnode hprocessed =>
    rw [hnode] at hk
    cases hk
  | @answered sender now call ids status response haction hwaits hpc hnode hprocessed =>
    have hrate := hd.rate_answered hpc hnode
    have happlied := applied_answered hnode
    by_cases hok : status.code = .ok
    · rw [if_pos hok, hk] at happlied
      obtain rfl := Option.some.inj happlied
      exact ⟨ids, status, response, hd.handlers_of_answered h hpc, hok,
        fun r => by rw [hrate r, if_pos hok]⟩
    · rw [if_neg hok] at happlied
      exact hkept happlied fun r => by rw [hrate r, if_neg hok]

/-- **What the clients are through with**: what they were, or one answer
more. -/
theorem Effect.processed (h : Effect d a d') :
    d'.processed = d.processed ∨ ∃ call, (d.service.handlers call).isAnswered = true ∧
      d'.processed = Function.update d.processed call true := by
  cases h with
  | served hstep hsection hnodes hprocessed => exact .inl hprocessed
  | quiet hservice hnodes hprocessed => exact .inl hprocessed
  | cleared haction hservice hnode hothers hprocessed => exact .inl hprocessed
  | answered haction hwaits hpc hservice hnode hothers hprocessed =>
    exact .inr ⟨_, by rw [hpc]; rfl, hprocessed⟩

/-- They stay through with it. -/
theorem Effect.processed_mono (h : Effect d a d') {k : ℕ} (hk : d.processed k = true) :
    d'.processed k = true := by
  rcases h.processed with hsame | ⟨call, -, hmore⟩
  · rw [hsame, hk]
  · rw [hmore, Function.update_apply]
    split
    · rfl
    · exact hk

/-- And it was answered before the step. -/
theorem Consistent.isAnswered_of_processed (hd : Consistent d) (h : Effect d a d') {k : ℕ}
    (hk : d'.processed k = true) : (d.service.handlers k).isAnswered = true := by
  rcases h.processed with hsame | ⟨call, hcall, hmore⟩
  · exact hd.processed k (hsame ▸ hk)
  · by_cases heq : k = call
    · rw [heq]
      exact hcall
    · rw [hmore, Function.update_of_ne heq] at hk
      exact hd.processed k hk

theorem Consistent.processed_step (hd : Consistent d) (h : Effect d a d') {k : ℕ}
    (hk : d'.processed k = true) : (d'.service.handlers k).isAnswered = true := by
  have hanswered := hd.isAnswered_of_processed h hk
  rwa [hd.handlers_of_isAnswered h hanswered]

/-- A heartbeat that is answered is its client's already. -/
theorem Consistent.isCall_of_answered {c : ClientId} {k : ℕ} (hd : Consistent d) (h : Effect d a d')
    (hk : (d.service.handlers k).isAnswered = true) (hcall : d'.IsCall c k) : d.IsCall c k := by
  rw [IsCall, hd.handlers_of_isAnswered h hk] at hcall
  exact hcall

theorem Consistent.step (hd : Consistent d) (h : d.step a = some d') : Consistent d' := by
  obtain ⟨heffect, hhistory⟩ := effect_of_step h
  exact ⟨hd.sane_step heffect, hd.past_step heffect, hd.dated_step heffect hhistory,
    hd.tracking_step heffect hhistory, hd.current_step heffect hhistory,
    fun _ _ _ => hd.waits_step heffect, fun _ _ => hd.applied_step heffect,
    fun _ => hd.processed_step heffect⟩

theorem consistent_of_reachable {heartbeatTimeout : ℕ}
    (h : (deploymentSystem heartbeatTimeout).Reachable d) : Consistent d :=
  h.invariant (consistent_init heartbeatTimeout) fun _ _ _ hd hstep => hd.step hstep

end Deployment

end Throttling
