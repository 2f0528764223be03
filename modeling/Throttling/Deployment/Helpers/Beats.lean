import Throttling.Deployment.Leases
import Throttling.Server.Helpers.Calls
/-!
# While nobody calls

The actions of a deployment left to itself (`isCalm`): handlers run,
heartbeats are sent and answered, requests are served, time passes. They
leave alone what was asked of a client, and of the service they ask
heartbeats only (`Calmly`); a sender goes on from where it is, or stays
(`Beat`).
-/

namespace Throttling

open ClientRegistry

namespace ServiceState

variable {s s' : ServiceState} {c : ClientId} {ids : Finset ResourceId} {stage : HeartbeatStage}

theorem mem_clients_of_mem_present (h : c ∈ s.present.clients) : c ∈ s.registry.clients := by
  obtain ⟨info, hinfo⟩ := OrderedMap.mem_iff_exists.mp h
  exact OrderedMap.mem_iff_exists.mpr ⟨info, (fresh_of_lookup_expireStaleClients hinfo).1⟩

/-- A heartbeat of who has a name starts with its first section. -/
theorem stage_of_entry {call : ServiceCall} (h : call.entry = .heartbeat c ids stage)
    (hnamed : c.isEmpty = false) : stage = .expiring := by
  cases call with
  | registerClient c' => simp only [ServiceCall.entry] at h; split at h <;> cases h
  | unregisterClient c' => cases h
  | heartbeat c' ids' =>
    obtain ⟨rfl, -, rfl⟩ := HandlerPc.heartbeat.inj h
    rw [hnamed]
    rfl
  | setResourceLimit r limit => simp only [ServiceCall.entry] at h; split at h <;> cases h

/-- The request of a client has its interests. -/
theorem exists_entry (c : ClientId) (ids : Finset ResourceId) :
    ∃ stage, (ServiceCall.heartbeat c ids.ascending).entry = .heartbeat c ids stage := by
  have hids : ids.ascending.toFinset = ids := by
    ext r
    simp
  exact ⟨_, by rw [ServiceCall.entry, hids]⟩

/-- **What is on record for who is live** is what the registry has. -/
theorem interests_present_of_mem (h : c ∈ s.present.clients) :
    s.present.interests[c]? = s.registry.interests[c]? := by
  obtain ⟨info, hinfo⟩ := OrderedMap.mem_iff_exists.mp h
  have hids : s.present.interests[c]? = some info.interestedResources := by
    rw [lookup_interests, hinfo]
    rfl
  rw [hids, interests_of_present hids]

end ServiceState

/-! ## The actions of a deployment left to itself -/

/-- Nobody sets a limit or interests, starts or stops, and no answer is
lost. -/
def DeploymentAction.isCalm : DeploymentAction → Bool
  | .handlerSection _ _ _ => true
  | .tick _ => true
  | .wake _ => true
  | .sendHeartbeat _ _ => true
  | .answer _ _ _ => true
  | .acquire _ _ _ => true
  | .workerIteration _ _ => true
  | _ => false

/-- The actions that bring a sender of a client on. -/
def DeploymentAction.IsBeatOf (clientId : ClientId) (sender : Sender) : DeploymentAction → Prop
  | .wake clientId' => clientId' = clientId ∧ sender = .heartbeatLoop
  | .sendHeartbeat clientId' sender' => clientId' = clientId ∧ sender' = sender
  | .answer clientId' sender' _ => clientId' = clientId ∧ sender' = sender
  | _ => False

namespace ClientNode

@[simp] theorem goto_phase (node : ClientNode) (sender : Sender) (pc : SenderPc) :
    (node.goto sender pc).phase = node.phase := rfl

@[simp] theorem goto_resourceInterests (node : ClientNode) (sender : Sender) (pc : SenderPc) :
    (node.goto sender pc).resourceInterests = node.resourceInterests := rfl

@[simp] theorem goto_senders_self (node : ClientNode) (sender : Sender) (pc : SenderPc) :
    (node.goto sender pc).senders sender = pc := Function.update_self _ _ _

theorem goto_senders_of_ne (node : ClientNode) {sender sender' : Sender} (pc : SenderPc)
    (hne : sender' ≠ sender) : (node.goto sender pc).senders sender' = node.senders sender' :=
  Function.update_of_ne hne _ _

variable (node : ClientNode) (call : ℕ) (status : Status) (response : HeartbeatResponse)
variable (now : ResourceId → TimePoint)

@[simp] theorem receiveAnswer_phase :
    (node.receiveAnswer call status response now).phase = node.phase := by
  rw [receiveAnswer]
  split <;> rfl

@[simp] theorem receiveAnswer_resourceInterests :
    (node.receiveAnswer call status response now).resourceInterests = node.resourceInterests := by
  rw [receiveAnswer]
  split <;> rfl

@[simp] theorem receiveAnswer_senders :
    (node.receiveAnswer call status response now).senders = node.senders := by
  rw [receiveAnswer]
  split <;> rfl

end ClientNode

namespace Deployment

variable {heartbeatTimeout : ℕ} {d d' : Deployment} {a : DeploymentAction} {c : ClientId}
variable {sender : Sender} {k : ℕ}

theorem kept_of_reachable (h : (deploymentSystem heartbeatTimeout).Reachable d) :
    d.service.Kept := by
  have hboth : Consistent d ∧ d.service.Kept := by
    refine GuardedSystem.Reachable.invariant (P := fun d => Consistent d ∧ d.service.Kept)
      ⟨consistent_init heartbeatTimeout, ServiceState.kept_init heartbeatTimeout⟩ ?_ h
    rintro d a d' ⟨hd, hkept⟩ hstep
    refine ⟨hd.step hstep, ?_⟩
    rcases (effect_of_step hstep).1.service with heq | ⟨b, hservice⟩
    · rw [heq]
      exact hkept
    · exact hkept.step hd.sane hservice
  exact hboth.2

/-- **What a calm action asks of the service**: nothing, or a heartbeat with
the interests of its client. -/
inductive Calmly (d : Deployment) (a : DeploymentAction) (d' : Deployment) : Prop
  | still (hservice : d'.service = d.service)
  | sent {c : ClientId} (hservice : d'.service =
      d.service.receive (.heartbeat c (d.nodes c).resourceInterests.ascending))
  | handled {handler : ℕ} {readings : ClientId → TimePoint} {now : TimePoint}
      (haction : a = .handlerSection handler readings now)
      (hsection : d.service.Section d'.service handler readings now)
  | later {now : TimePoint} (haction : a = .tick now)
      (hservice : d'.service = d.service.later now)

theorem calmly_of_step (ha : a.isCalm = true) (h : d.step a = some d') : Calmly d a d' := by
  obtain ⟨d₁, hact, rfl⟩ := Option.map_eq_some_iff.mp h
  cases a with
  | handlerSection handler readings now =>
    obtain ⟨service, hsome, rfl⟩ := Option.map_eq_some_iff.mp hact
    exact .handled rfl (ServiceState.section_of_handlerSection hsome).2
  | tick now =>
    obtain ⟨service, hsome, rfl⟩ := Option.map_eq_some_iff.mp hact
    simp only [ServiceState.step] at hsome
    split at hsome
    · exact .later rfl (Option.some.inj hsome).symm
    · cases hsome
  | sendHeartbeat c sender =>
    simp only [act] at hact
    split at hact
    · obtain rfl := Option.some.inj hact
      exact .sent rfl
    · cases hact
  | wake c =>
    simp only [act] at hact
    split at hact
    · obtain rfl := Option.some.inj hact
      exact .still rfl
    · cases hact
  | answer c sender now =>
    simp only [act] at hact
    split at hact
    · split at hact
      · obtain rfl := Option.some.inj hact
        exact .still rfl
      · cases hact
    · cases hact
  | acquire c req now =>
    obtain rfl := Option.some.inj hact
    exact .still rfl
  | workerIteration c now =>
    simp only [act] at hact
    split at hact
    · obtain rfl := Option.some.inj hact
      exact .still rfl
    · cases hact
  | _ => cases ha

/-! ## Clients -/

/-- **What a calm action does to a sender.** -/
inductive Beat (d : Deployment) (a : DeploymentAction) (d' : Deployment) (c : ClientId)
    (sender : Sender) : Prop
  | stayed (hother : ¬ a.IsBeatOf c sender)
      (hsender : (d'.nodes c).senders sender = (d.nodes c).senders sender)
  | woke (hloop : sender = .heartbeatLoop) (hrests : (d.nodes c).senders sender = .resting)
      (hsender : (d'.nodes c).senders sender = .sending)
  | sent (hsends : (d.nodes c).senders sender = .sending)
      (hsender : (d'.nodes c).senders sender = .waiting d.service.created)
  | answered {now : ResourceId → TimePoint} {call : ℕ} {c' : ClientId} {ids : Finset ResourceId}
      {status : Status} {response : HeartbeatResponse}
      (hwaits : (d.nodes c).senders sender = .waiting call)
      (hpc : d.service.handlers call = .heartbeat c' ids (.answered status response))
      (hnode : d'.nodes c = ((d.nodes c).receiveAnswer call status response now).goto sender
        .resting)

theorem client_of_isBeatOf (h : a.IsBeatOf c sender) : a.client = some c := by
  cases a with
  | wake c' => exact congrArg some h.1
  | sendHeartbeat c' sender' => exact congrArg some h.1
  | answer c' sender' now => exact congrArg some h.1
  | _ => exact h.elim

theorem beat_of_step (ha : a.isCalm = true) (h : d.step a = some d') (c : ClientId)
    (sender : Sender) : Beat d a d' c sender := by
  by_cases hc : a.client = some c
  · obtain ⟨d₁, hact, rfl⟩ := Option.map_eq_some_iff.mp h
    cases a with
    | wake c' =>
      obtain rfl := Option.some.inj hc
      simp only [act] at hact
      split at hact
      · rename_i hguard
        obtain rfl := Option.some.inj hact
        cases sender with
        | start =>
          refine .stayed (fun hbeat => by cases hbeat.2) ?_
          simp [ClientNode.goto_senders_of_ne]
        | heartbeatLoop => exact .woke rfl hguard.2 (by simp)
      · cases hact
    | sendHeartbeat c' sender' =>
      obtain rfl := Option.some.inj hc
      simp only [act] at hact
      split at hact
      · rename_i hsends
        obtain rfl := Option.some.inj hact
        by_cases hself : sender = sender'
        · subst hself
          exact .sent hsends (by simp)
        · refine .stayed (fun hbeat => hself hbeat.2.symm) ?_
          simp [ClientNode.goto_senders_of_ne _ _ hself]
      · cases hact
    | answer c' sender' now =>
      obtain rfl := Option.some.inj hc
      simp only [act] at hact
      split at hact
      · rename_i call hwaits
        split at hact
        · rename_i hpc
          obtain rfl := Option.some.inj hact
          by_cases hself : sender = sender'
          · subst hself
            exact .answered hwaits hpc (setNode_self _ _ _)
          · refine .stayed (fun hbeat => hself hbeat.2.symm) ?_
            simp [ClientNode.goto_senders_of_ne _ _ hself]
        · cases hact
      · cases hact
    | acquire c' req now =>
      obtain rfl := Option.some.inj hc
      obtain rfl := Option.some.inj hact
      exact .stayed id (by simp)
    | workerIteration c' now =>
      obtain rfl := Option.some.inj hc
      simp only [act] at hact
      split at hact
      · obtain rfl := Option.some.inj hact
        exact .stayed id (by simp)
      · cases hact
    | handlerSection => cases hc
    | tick => cases hc
    | _ => cases ha
  · refine .stayed (fun hbeat => hc (client_of_isBeatOf hbeat)) ?_
    rw [nodes_of_step_ne h hc]

/-- **What was asked of a client stays.** -/
theorem asked_of_step (ha : a.isCalm = true) (h : d.step a = some d') (c : ClientId) :
    (d'.nodes c).phase = (d.nodes c).phase ∧
      (d'.nodes c).resourceInterests = (d.nodes c).resourceInterests := by
  by_cases hc : a.client = some c
  · obtain ⟨d₁, hact, rfl⟩ := Option.map_eq_some_iff.mp h
    cases a with
    | handlerSection => cases hc
    | tick => cases hc
    | acquire c' req now =>
      obtain rfl := Option.some.inj hc
      obtain rfl := Option.some.inj hact
      simp
    | answer c' sender now =>
      obtain rfl := Option.some.inj hc
      simp only [act] at hact
      split at hact
      · split at hact
        · obtain rfl := Option.some.inj hact
          simp
        · cases hact
      · cases hact
    | wake c' | sendHeartbeat c' sender | workerIteration c' now =>
      obtain rfl := Option.some.inj hc
      simp only [act] at hact
      split at hact
      · obtain rfl := Option.some.inj hact
        simp
      · cases hact
    | _ => cases ha
  · rw [nodes_of_step_ne h hc]
    exact ⟨rfl, rfl⟩

end Deployment

end Throttling
