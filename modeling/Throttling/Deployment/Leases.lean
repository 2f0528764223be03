import Throttling.Deployment.Helpers.Steps
/-!
# Leases

A registration is a lease that every accepted heartbeat renews. A client
never registers again by itself, so one that is forgotten stays so until
it is stopped. As long as no lease runs out, and no unregistration of an
earlier session comes late, nobody that runs is forgotten: it is
registered, live, and every answer it gets to a heartbeat is `OK`.
-/

namespace Throttling

open ClientRegistry

/-! ## One registration -/

namespace ServiceState

variable {s s' : ServiceState} {handler : ℕ} {readings : ClientId → TimePoint} {now : TimePoint}
variable {c : ClientId}

/-- The client is registered, and not stale at a reading. -/
def LeaseRuns (s : ServiceState) (c : ClientId) (now : TimePoint) : Prop :=
  ∃ info, s.registry.clients[c]? = some info ∧ s.registry.isClientStaleLocked info now = false

theorem leaseRuns_iff_mem_present : s.LeaseRuns c s.clock ↔ c ∈ s.present.clients := by
  rw [OrderedMap.mem_iff_exists]
  constructor
  · rintro ⟨info, hinfo, hfresh⟩
    refine ⟨info, ?_⟩
    rw [lookup_present_clients, hinfo]
    simp [Option.filter, hfresh]
  · rintro ⟨info, hinfo⟩
    exact ⟨info, fresh_of_lookup_expireStaleClients hinfo⟩

/-- Who is not stale at a reading was not at an earlier one. -/
theorem not_stale_of_le {reg : ClientRegistry} {info : ClientInfo} {t : TimePoint}
    (hle : t ≤ now) (h : reg.isClientStaleLocked info now = false) :
    reg.isClientStaleLocked info t = false := by
  rw [isClientStaleLocked, decide_eq_false_iff_not, not_lt] at h ⊢
  exact (Int.sub_le_sub_right hle _).trans h

/-- Who was heard now is not stale. -/
theorem not_stale_of_now {reg : ClientRegistry} {info : ClientInfo}
    (hticks : 0 ≤ reg.timeoutTicks) (h : info.lastHeartbeatTime = now) :
    reg.isClientStaleLocked info now = false := by
  rw [isClientStaleLocked, decide_eq_false_iff_not, h, sub_self]
  exact not_lt.mpr hticks

/-- **Who can be dropped by a section**: whom an expiry pass finds stale, and
whom it unregisters. -/
theorem Section.dropped (h : Section s s' handler readings now) {info : ClientInfo}
    (hinfo : s.registry.clients[c]? = some info) (hgone : s'.registry.clients[c]? = none) :
    s.registry.isClientStaleLocked info (readings c) = true ∨
      s.handlers handler = .unregistering c := by
  have hswept : s'.registry = s.registry.expireStaleClients readings →
      s.registry.isClientStaleLocked info (readings c) = true := by
    intro hregistry
    rw [hregistry, lookup_expireStaleClients, hinfo] at hgone
    simpa [Option.filter] using hgone
  have hkept : s'.registry = s.registry → s.registry.isClientStaleLocked info (readings c) = true ∨
      s.handlers handler = .unregistering c := by
    intro hregistry
    rw [hregistry, hinfo] at hgone
    cases hgone
  cases h with
  | registerSwept hpc heq => exact .inl (hswept (by rw [heq]; rfl))
  | unregisterSwept hpc heq => exact .inl (hswept (by rw [heq]; rfl))
  | heartbeatSwept hpc heq => exact .inl (hswept (by rw [heq]; rfl))
  | interestsSwept hpc heq => exact .inl (hswept (by rw [heq]; rfl))
  | shareSwept hpc heq => exact .inl (hswept (by rw [heq]; rfl))
  | @registered c' hpc heq =>
    have hregistry : s'.registry = (s.registry.registerClientLocked c' now).2 := by rw [heq]; rfl
    rw [hregistry, lookup_registerClientLocked] at hgone
    split at hgone
    · cases hgone
    · rw [hinfo] at hgone
      cases hgone
  | @unregistered c' hpc heq =>
    have hregistry : s'.registry = (s.registry.unregisterClientLocked c').2 := by rw [heq]; rfl
    rw [hregistry, lookup_unregisterClientLocked] at hgone
    split at hgone
    · rename_i hcc
      exact .inr (hcc ▸ hpc)
    · rw [hinfo] at hgone
      cases hgone
  | @recorded c' ids info' hfound hpc heq =>
    have hregistry : s'.registry = (s.registry.heartbeatLocked c' ids now).2 := by rw [heq]; rfl
    rw [hregistry, lookup_heartbeatLocked hfound] at hgone
    split at hgone
    · cases hgone
    · rw [hinfo] at hgone
      cases hgone
  | _ => rename_i heq; exact hkept (by rw [heq]; rfl)

/-- **Who gets an answer that is not `OK`** is not registered. -/
theorem Section.answered (h : Section s s' handler readings now) {ids : Finset ResourceId}
    {status : Status} {response : HeartbeatResponse}
    (hpc' : s'.handlers handler = .heartbeat c ids (.answered status response)) :
    status.code = .ok ∨ s.registry.clients[c]? = none := by
  have hnext : ∀ (remaining : List ResourceId) (allocations : OrderedMap ResourceId ℚ),
      HeartbeatStage.next remaining allocations = .answered status response →
      status.code = .ok := by
    intro remaining allocations hanswer
    cases remaining with
    | nil =>
      obtain ⟨rfl, -⟩ := HeartbeatStage.answered.inj hanswer
      rfl
    | cons r remaining => cases hanswer
  cases h with
  | notFound hnone hpc heq =>
    rw [heq, goto_self] at hpc'
    obtain ⟨rfl, -, -⟩ := HandlerPc.heartbeat.inj hpc'
    exact .inr hnone
  | interestsRead hpc heq =>
    rw [heq, goto_self] at hpc'
    exact .inl (hnext _ _ (HandlerPc.heartbeat.inj hpc').2.2)
  | unconfigured hlimit hpc heq =>
    rw [heq, goto_self] at hpc'
    exact .inl (hnext _ _ (HandlerPc.heartbeat.inj hpc').2.2)
  | shareRead hpc heq =>
    rw [heq, goto_self] at hpc'
    exact .inl (hnext _ _ (HandlerPc.heartbeat.inj hpc').2.2)
  | _ =>
    rename_i heq
    rw [heq, goto_self] at hpc'
    cases hpc'

/-- **A lease that runs beyond a section** runs at its end. -/
theorem LeaseRuns.section (h : Section s s' handler readings now)
    (hticks : 0 ≤ s.registry.timeoutTicks) (hadmits : s.admits readings now = true)
    (hnot : s.handlers handler ≠ .unregistering c) (hruns : s.LeaseRuns c now) :
    s'.LeaseRuns c now := by
  obtain ⟨info, hinfo, hfresh⟩ := hruns
  have hsame := timeoutTicks_section h
  rcases clients_section h c with hkept | hgone | ⟨ids, hnow⟩
  · refine ⟨info, hkept.trans hinfo, ?_⟩
    rwa [isClientStaleLocked, hsame]
  · -- it would have to be stale already at the reading taken for it
    rcases h.dropped hinfo hgone with hstale | hpc
    · rw [not_stale_of_le ((readings_of_admits hadmits).2 c info hinfo).2 hfresh] at hstale
      cases hstale
    · exact absurd hpc hnot
  · refine ⟨_, hnow, not_stale_of_now ?_ rfl⟩
    rw [hsame]
    exact hticks

end ServiceState

/-! ## Clients and their leases -/

/-- Where the clock stands after an action of the service. -/
def DeploymentAction.now : DeploymentAction → Option TimePoint
  | .handlerSection _ _ now => some now
  | .tick now => some now
  | _ => none

/-- The status of a handler that is through. -/
def HandlerPc.accepted : HandlerPc → Bool
  | .returned status => decide (status.code = .ok)
  | _ => false

/-- The client an unregistration takes out next. -/
def HandlerPc.unregisters : HandlerPc → Option ClientId
  | .unregistering clientId => some clientId
  | _ => none

namespace Deployment

/-- **A client the service should know**: its registration was accepted, and
`Stop` has not sent its unregistration. -/
def Enlisted (d : Deployment) (clientId : ClientId) : Prop :=
  match (d.nodes clientId).phase with
  | .registering call => (d.service.handlers call).accepted = true
  | .running => True
  | .stopping => True
  | .unregistering _ => False
  | .stopped => False

instance (d : Deployment) (clientId : ClientId) : Decidable (d.Enlisted clientId) := by
  unfold Enlisted
  split <;> infer_instance

/-- The client an action unregisters. -/
def unregisters (d : Deployment) : DeploymentAction → Option ClientId
  | .handlerSection handler _ _ => (d.service.handlers handler).unregisters
  | _ => none

/-- **An action that lets no lease run out**: the clock moves on within the
timeout of the last accepted call of every client the service should
know, and none of them is unregistered. -/
def KeepsLeases (d : Deployment) (a : DeploymentAction) : Prop :=
  (∀ now ∈ a.now, ∀ c ∈ d.service.registry.clients.keys, d.Enlisted c →
    ∀ info ∈ d.service.registry.clients[c]?,
      d.service.registry.isClientStaleLocked info now = false) ∧
  ∀ c ∈ d.unregisters a, ¬ d.Enlisted c

instance (d : Deployment) (a : DeploymentAction) : Decidable (d.KeepsLeases a) :=
  inferInstanceAs (Decidable (_ ∧ _))

variable {heartbeatTimeout : ℕ} {d d' : Deployment} {a : DeploymentAction} {c : ClientId} {k : ℕ}

/-- **What a step does to where a client is.** -/
inductive Course (d d' : Deployment) (c : ClientId) : Prop
  /-- It stays, or one of its senders has come to rest. -/
  | stayed (hphase : (d'.nodes c).phase = (d.nodes c).phase)
      (hsenders : ∀ sender, (d'.nodes c).senders sender = (d.nodes c).senders sender ∨
        (d'.nodes c).senders sender = .resting)
  | started (hphase : (d.nodes c).phase = .stopped)
      (hrests : (d.nodes c).senders .start = .resting)
      (hphase' : (d'.nodes c).phase = .registering d.service.created)
      (hsenders : (d'.nodes c).senders = (d.nodes c).senders)
      (hservice : d'.service = d.service.receive (.registerClient c))
  | registered {call : ℕ} (hphase : (d.nodes c).phase = .registering call)
      (haccepted : (d.service.handlers call).accepted = true)
      (hphase' : (d'.nodes c).phase = .running)
      (hsenders : ∀ sender, (d'.nodes c).senders sender = (d.nodes c).senders sender ∨
        (d'.nodes c).senders sender = .sending)
  | stopping (hphase : (d.nodes c).phase = .running) (hphase' : (d'.nodes c).phase = .stopping)
      (hsenders : (d'.nodes c).senders = (d.nodes c).senders)
  /-- `Start` has failed, or `Stop` is past the threads. -/
  | left (hphase' : (d'.nodes c).phase = .stopped ∨
        ∃ call, (d'.nodes c).phase = .unregistering call)
      (hrests : (d.nodes c).senders .heartbeatLoop = .resting ∨
        ((d.nodes c).phase ≠ .running ∧ (d.nodes c).phase ≠ .stopping))
      (hsenders : (d'.nodes c).senders = (d.nodes c).senders)
  | woke (hphase : (d.nodes c).phase = .running) (hphase' : (d'.nodes c).phase = .running)
      (hsenders : ∀ sender, (d'.nodes c).senders sender = (d.nodes c).senders sender ∨
        (d'.nodes c).senders sender = .sending)
  | sent {sender : Sender} {ids : List ResourceId}
      (hphase : (d'.nodes c).phase = (d.nodes c).phase)
      (hsends : (d.nodes c).senders sender = .sending)
      (hsenders : ∀ sender', (d'.nodes c).senders sender' = (d.nodes c).senders sender' ∨
        sender' = sender ∧ (d'.nodes c).senders sender' = .waiting d.service.created)
      (hservice : d'.service = d.service.receive (.heartbeat c ids))

theorem course_of_nodes (h : d'.nodes c = d.nodes c) : Course d d' c :=
  .stayed (by rw [h]) fun sender => .inl (by rw [h])

theorem senders_goto (node : ClientNode) (sender sender' : Sender) (pc : SenderPc) :
    (node.goto sender pc).senders sender' = node.senders sender' ∨
      sender' = sender ∧ (node.goto sender pc).senders sender' = pc := by
  rw [ClientNode.goto]
  dsimp only
  rw [Function.update_apply]
  split
  · rename_i heq
    exact .inr ⟨heq, rfl⟩
  · exact .inl rfl

theorem course_of_step (h : d.step a = some d') (c : ClientId) : Course d d' c := by
  by_cases hc : a.client = some c
  · obtain ⟨d₁, hact, rfl⟩ := Option.map_eq_some_iff.mp h
    cases a with
    | handlerSection handler readings now => cases hc
    | tick now => cases hc
    | setResourceLimit r limit => cases hc
    | setResourceInterests c' ids =>
      obtain rfl := Option.some.inj hc
      obtain rfl := Option.some.inj hact
      exact .stayed (by simp) fun sender => .inl (by simp)
    | start c' =>
      obtain rfl := Option.some.inj hc
      simp only [act] at hact
      split at hact
      · rename_i hguard
        obtain rfl := Option.some.inj hact
        exact .started hguard.1 hguard.2 (by simp) (by simp) rfl
      · cases hact
    | registered c' =>
      obtain rfl := Option.some.inj hc
      simp only [act] at hact
      split at hact
      · rename_i call hphase
        split at hact
        · rename_i status hpc
          split at hact
          · rename_i hok
            obtain rfl := Option.some.inj hact
            refine .registered hphase ?_ (by simp [ClientNode.goto]) fun sender => ?_
            · rw [hpc]
              exact decide_eq_true hok
            · have hsenders := senders_goto { d.nodes c' with phase := .running } .start sender
                .sending
              simp only [setNode_self]
              exact hsenders.imp_right And.right
          · obtain rfl := Option.some.inj hact
            exact .left (.inl (by simp)) (.inr (by simp [hphase])) (by simp)
        · cases hact
      · cases hact
    | registrationLost c' =>
      obtain rfl := Option.some.inj hc
      simp only [act] at hact
      split at hact
      · rename_i call hphase
        obtain rfl := Option.some.inj hact
        exact .left (.inl (by simp)) (.inr (by simp [hphase])) (by simp)
      · cases hact
    | stop c' =>
      obtain rfl := Option.some.inj hc
      simp only [act] at hact
      split at hact
      · rename_i hphase
        obtain rfl := Option.some.inj hact
        exact .stopping hphase (by simp) (by simp)
      · cases hact
    | unregister c' =>
      obtain rfl := Option.some.inj hc
      simp only [act] at hact
      split at hact
      · rename_i hguard
        obtain rfl := Option.some.inj hact
        exact .left (.inr ⟨d.service.created, by simp⟩) (.inl hguard.2) (by simp)
      · cases hact
    | clear c' =>
      obtain rfl := Option.some.inj hc
      simp only [act] at hact
      split at hact
      · rename_i call hphase
        obtain rfl := Option.some.inj hact
        exact .left (.inl (by simp [ClientNode.clear])) (.inr (by simp [hphase]))
          (by simp [ClientNode.clear])
      · cases hact
    | wake c' =>
      obtain rfl := Option.some.inj hc
      simp only [act] at hact
      split at hact
      · rename_i hguard
        obtain rfl := Option.some.inj hact
        refine .woke hguard.1 (by simp [ClientNode.goto, hguard.1]) fun sender => ?_
        simp only [setNode_self]
        exact (senders_goto _ _ sender _).imp_right And.right
      · cases hact
    | sendHeartbeat c' sender =>
      obtain rfl := Option.some.inj hc
      simp only [act] at hact
      split at hact
      · rename_i hsends
        obtain rfl := Option.some.inj hact
        refine .sent (by simp [ClientNode.goto]) hsends (fun sender' => ?_) rfl
        simp only [setNode_self]
        exact senders_goto _ _ sender' _
      · cases hact
    | answer c' sender now =>
      obtain rfl := Option.some.inj hc
      simp only [act] at hact
      split at hact
      · rename_i call hwaits
        split at hact
        · rename_i status response hpc
          obtain rfl := Option.some.inj hact
          have hnode : ((d.nodes c').receiveAnswer call status response now).phase =
              (d.nodes c').phase ∧
              ((d.nodes c').receiveAnswer call status response now).senders =
                (d.nodes c').senders := by
            rw [ClientNode.receiveAnswer]
            split <;> exact ⟨rfl, rfl⟩
          refine .stayed (by simp [ClientNode.goto, hnode.1]) fun sender' => ?_
          simp only [setNode_self]
          have hsenders := senders_goto ((d.nodes c').receiveAnswer call status response now)
            sender sender' .resting
          rw [hnode.2] at hsenders
          exact hsenders.imp_right And.right
        · cases hact
      · cases hact
    | heartbeatLost c' sender =>
      obtain rfl := Option.some.inj hc
      simp only [act] at hact
      split at hact
      · obtain rfl := Option.some.inj hact
        refine .stayed (by simp [ClientNode.goto]) fun sender' => ?_
        simp only [setNode_self]
        exact (senders_goto _ _ sender' _).imp_right And.right
      · cases hact
    | acquire c' req now =>
      obtain rfl := Option.some.inj hc
      obtain rfl := Option.some.inj hact
      exact .stayed (by simp) fun sender => .inl (by simp)
    | workerIteration c' now =>
      obtain rfl := Option.some.inj hc
      simp only [act] at hact
      split at hact
      · obtain rfl := Option.some.inj hact
        exact .stayed (by simp) fun sender => .inl (by simp)
      · cases hact
  · exact course_of_nodes (nodes_of_step_ne h hc)

/-! ## What becomes of a call -/

/-- **What a step does to the service**: nothing, a request, a section, or
time passes. -/
inductive Served (d d' : Deployment) (a : DeploymentAction) : Prop
  | still (hservice : d'.service = d.service)
  | received (call : ServiceCall) (hservice : d'.service = d.service.receive call)
  | handled {handler : ℕ} {readings : ClientId → TimePoint} {now : TimePoint}
      (haction : a = .handlerSection handler readings now)
      (hadmits : d.service.admits readings now = true)
      (hsection : d.service.Section d'.service handler readings now)
  | later {now : TimePoint} (haction : a = .tick now) (hservice : d'.service = d.service.later now)

theorem served_of_step (h : d.step a = some d') : Served d d' a := by
  obtain ⟨d₁, hact, rfl⟩ := Option.map_eq_some_iff.mp h
  cases a with
  | handlerSection handler readings now =>
    obtain ⟨service, hservice, rfl⟩ := Option.map_eq_some_iff.mp hact
    obtain ⟨hadmits, hsection⟩ := ServiceState.section_of_handlerSection hservice
    exact .handled rfl hadmits hsection
  | tick now =>
    obtain ⟨service, hservice, rfl⟩ := Option.map_eq_some_iff.mp hact
    simp only [ServiceState.step] at hservice
    split at hservice
    · exact .later rfl (Option.some.inj hservice).symm
    · cases hservice
  | setResourceLimit r limit =>
    obtain rfl := Option.some.inj hact
    exact .received _ rfl
  | _ =>
    simp only [act] at hact
    repeat' split at hact
    all_goals first
      | (obtain rfl := Option.some.inj hact; first | exact .still rfl | exact .received _ rfl)
      | cases hact

/-- **A handler under way** stays where it is, or runs its next section. -/
theorem section_of_step (hs : d.service.Sane) (h : d.step a = some d')
    (hk : d.service.handlers k ≠ .idle) :
    d'.service.handlers k = d.service.handlers k ∨
      ∃ readings now, a = .handlerSection k readings now ∧
        d.service.Section d'.service k readings now := by
  cases served_of_step h with
  | still hservice => exact .inl (by rw [hservice])
  | received call hservice =>
    have hold : k ≠ d.service.created := fun hnew => hk (hs.fresh k hnew.ge)
    rw [hservice, ServiceState.handlers_receive, if_neg hold]
    exact .inl rfl
  | @handled handler readings now haction hadmits hsection =>
    by_cases hne : k = handler
    · subst hne
      exact .inr ⟨readings, now, haction, hsection⟩
    · exact .inl (hsection.handlers_of_ne hne)
  | later haction hservice => exact .inl (by rw [hservice]; rfl)

/-- **The lease of a client the service should know** runs on. -/
theorem leaseRuns_step (hticks : 0 ≤ d.service.registry.timeoutTicks) (hkeeps : d.KeepsLeases a)
    (h : d.step a = some d') (hc : d.Enlisted c) (hruns : d.service.LeaseRuns c d.service.clock) :
    d'.service.LeaseRuns c d'.service.clock := by
  obtain ⟨info, hinfo, hfresh⟩ := hruns
  have hmem : c ∈ d.service.registry.clients.keys :=
    Std.ExtTreeMap.mem_keys.mpr (OrderedMap.mem_iff_exists.mpr ⟨info, hinfo⟩)
  have hlater : ∀ now ∈ a.now, d.service.registry.isClientStaleLocked info now = false :=
    fun now hnow => hkeeps.1 now hnow c hmem hc info hinfo
  cases served_of_step h with
  | still hservice =>
    rw [hservice]
    exact ⟨info, hinfo, hfresh⟩
  | received call hservice =>
    rw [hservice]
    exact ⟨info, hinfo, hfresh⟩
  | @handled handler readings now haction hadmits hsection =>
    subst haction
    rw [hsection.clock]
    refine ServiceState.LeaseRuns.section hsection hticks hadmits (fun hpc => ?_)
      ⟨info, hinfo, hlater now rfl⟩
    have hgoes : d.unregisters (.handlerSection handler readings now) = some c := by
      rw [unregisters, hpc]
      rfl
    exact hkeeps.2 c hgoes hc
  | @later now haction hservice =>
    subst haction
    rw [hservice]
    exact ⟨info, hinfo, hlater now rfl⟩

/-! ## Nobody who runs is forgotten -/

/-- Where a registration under way may be. -/
inductive Registering (d : Deployment) (c : ClientId) (call : ℕ) : Prop
  | underWay (hid : c.isEmpty = false) (hpc : d.service.handlers call = .registerExpiring c ∨
      d.service.handlers call = .registering c)
  | returned {status : Status} (hpc : d.service.handlers call = .returned status)

/-- **A client and its lease**: the heartbeat thread sends nothing outside of
`Start` and `Stop`, and nobody does while the registration is under way;
a client the service should know has a lease that runs, and was told
nothing else. -/
structure Leased (d : Deployment) (c : ClientId) : Prop where
  beating : (d.nodes c).phase = .running ∨ (d.nodes c).phase = .stopping ∨
    (d.nodes c).senders .heartbeatLoop = .resting
  beginning : ∀ call, (d.nodes c).phase = .registering call →
    (d.nodes c).senders .start = .resting ∧ d.Registering c call
  named : d.Enlisted c → c.isEmpty = false
  runs : d.Enlisted c → d.service.LeaseRuns c d.service.clock
  told : d.Enlisted c → ∀ sender call ids status response,
    (d.nodes c).senders sender = .waiting call →
    d.service.handlers call = .heartbeat c ids (.answered status response) → status.code = .ok

theorem leased_init (c : ClientId) : Leased (deploymentSystem heartbeatTimeout).init c where
  beating := .inr (.inr rfl)
  beginning call h := by cases h
  named h := h.elim
  runs h := h.elim
  told h := h.elim

/-- A sender rests while a registration is under way. -/
theorem Leased.resting (h : Leased d c) {call : ℕ} (hphase : (d.nodes c).phase = .registering call)
    (sender : Sender) : (d.nodes c).senders sender = .resting := by
  cases sender with
  | start => exact (h.beginning call hphase).1
  | heartbeatLoop =>
    rcases h.beating with hrunning | hstopping | hrests
    · rw [hphase] at hrunning
      cases hrunning
    · rw [hphase] at hstopping
      cases hstopping
    · exact hrests

/-- **A registration goes on**, or has just been accepted: its client has a
lease then that starts now. -/
theorem Registering.step {call : ℕ} (hd : Consistent d)
    (hticks : 0 ≤ d.service.registry.timeoutTicks) (h : d.step a = some d')
    (hat : d.Registering c call) :
    d'.Registering c call ∧ ((d'.service.handlers call).accepted = true →
      (d.service.handlers call).accepted = true ∨
        c.isEmpty = false ∧ d'.service.LeaseRuns c d'.service.clock) := by
  have hbusy : d.service.handlers call ≠ .idle := by
    rcases hat with ⟨-, hpc | hpc⟩ | ⟨hpc⟩ <;> rw [hpc] <;> nofun
  rcases section_of_step hd.sane h hbusy with hkept | ⟨readings, now, -, hsection⟩
  · refine ⟨?_, fun haccepted => .inl (by rwa [← hkept])⟩
    rcases hat with ⟨hid, hpc⟩ | ⟨hpc⟩
    · exact .underWay hid (by rwa [hkept])
    · exact .returned (hkept.trans hpc)
  · rcases hat with ⟨hid, hpc⟩ | ⟨hpc⟩
    · cases hsection with
      | @registerSwept c' hpc' heq =>
        rw [hpc'] at hpc
        obtain rfl : c' = c := by simpa using hpc
        have hnow : d'.service.handlers call = .registering c' := by
          rw [heq]
          exact ServiceState.goto_self _ _ _
        refine ⟨.underWay hid (.inr hnow), fun haccepted => ?_⟩
        rw [hnow] at haccepted
        cases haccepted
      | @registered c' hpc' heq =>
        rw [hpc'] at hpc
        obtain rfl : c' = c := by simpa using hpc
        have hnow : d'.service.handlers call = .returned .ok := by
          rw [heq]
          exact ServiceState.goto_self _ _ _
        refine ⟨.returned hnow, fun _ => .inr ⟨hid, ?_⟩⟩
        have hregistry :
            d'.service.registry = (d.service.registry.registerClientLocked c' now).2 := by
          rw [heq]
          rfl
        have hclock : d'.service.clock = now := by rw [heq]; rfl
        refine ⟨⟨now, d.service.registry.interestedResourcesLocked c'⟩, ?_, ?_⟩
        · rw [hregistry, lookup_registerClientLocked, if_pos rfl]
        · rw [hclock]
          refine ServiceState.not_stale_of_now ?_ rfl
          rw [hregistry, timeoutTicks_congr (registerClientLocked_heartbeatTimeout _ _ _)]
          exact hticks
      | _ =>
        rename_i hpc' _
        rw [hpc'] at hpc
        simp at hpc
    · cases hsection <;>
        · rename_i hpc' _
          rw [hpc] at hpc'
          cases hpc'

/-- **An answer that is made now** to a client with a lease is `OK`. -/
theorem told_step {ids : Finset ResourceId} {status : Status} {response : HeartbeatResponse}
    (hd : Consistent d) (h : d.step a = some d') (hruns : d.service.LeaseRuns c d.service.clock)
    (hcall : d.IsCall c k)
    (htold : ∀ ids status response,
      d.service.handlers k = .heartbeat c ids (.answered status response) → status.code = .ok)
    (hpc : d'.service.handlers k = .heartbeat c ids (.answered status response)) :
    status.code = .ok := by
  obtain ⟨ids', hrequest⟩ := hcall
  have hbusy : d.service.handlers k ≠ .idle := fun hidle => by rw [hidle] at hrequest; cases hrequest
  rcases section_of_step hd.sane h hbusy with hkept | ⟨readings, now, -, hsection⟩
  · exact htold ids status response (hkept.symm.trans hpc)
  · obtain ⟨info, hinfo, -⟩ := hruns
    rcases hsection.answered hpc with hok | hnone
    · exact hok
    · rw [hinfo] at hnone
      cases hnone

/-- **What a step has to leave of a client** for its lease to be kept: it is
known as before, or known since now and waiting for nothing; and it waits
for no call but those it did and a new one. -/
theorem Leased.later (hd : Consistent d) (hticks : 0 ≤ d.service.registry.timeoutTicks)
    (hkeeps : d.KeepsLeases a) (h : d.step a = some d') (hc : Leased d c)
    (hbeating : (d'.nodes c).phase = .running ∨ (d'.nodes c).phase = .stopping ∨
      (d'.nodes c).senders .heartbeatLoop = .resting)
    (hbeginning : ∀ call, (d'.nodes c).phase = .registering call →
      (d'.nodes c).senders .start = .resting ∧ d'.Registering c call)
    (henlisted : d'.Enlisted c → d.Enlisted c ∨
      (c.isEmpty = false ∧ d'.service.LeaseRuns c d'.service.clock) ∧
        ∀ sender, (d'.nodes c).senders sender = .resting)
    (hwaiting : ∀ sender call, (d'.nodes c).senders sender = .waiting call →
      (d.nodes c).senders sender = .waiting call ∨
        ∃ ids, d'.service.handlers call = (ServiceCall.heartbeat c ids).entry) :
    Leased d' c where
  beating := hbeating
  beginning := hbeginning
  named hnow := by
    rcases henlisted hnow with hold | ⟨⟨hid, -⟩, -⟩
    · exact hc.named hold
    · exact hid
  runs hnow := by
    rcases henlisted hnow with hold | ⟨⟨-, hruns⟩, -⟩
    · exact leaseRuns_step hticks hkeeps h hold (hc.runs hold)
    · exact hruns
  told hnow sender call ids status response hwaits hpc := by
    rcases henlisted hnow with hold | ⟨-, hrests⟩
    · rcases hwaiting sender call hwaits with hbefore | ⟨ids', hentry⟩
      · exact told_step hd h (hc.runs hold) (hd.waits c sender call hbefore)
          (fun ids status response => hc.told hold sender call ids status response hbefore) hpc
      · -- a call just made is refused at once only to a client without a name
        rw [hentry, ServiceCall.entry, if_neg (by simp [hc.named hold])] at hpc
        cases hpc
    · rw [hrests sender] at hwaits
      cases hwaits

/-- A client whose phase stays is known as before, or its registration was
accepted just now. -/
theorem Leased.enlisted_of_phase (hd : Consistent d)
    (hticks : 0 ≤ d.service.registry.timeoutTicks) (h : d.step a = some d') (hc : Leased d c)
    (hphase : (d'.nodes c).phase = (d.nodes c).phase) (hnow : d'.Enlisted c) :
    d.Enlisted c ∨ (c.isEmpty = false ∧ d'.service.LeaseRuns c d'.service.clock) ∧
      ∃ call, (d.nodes c).phase = .registering call := by
  unfold Enlisted at hnow ⊢
  rw [hphase] at hnow
  cases hold : (d.nodes c).phase with
  | registering call =>
    rw [hold] at hnow
    rcases (Registering.step hd hticks h (hc.beginning call hold).2).2 hnow with haccepted | hlease
    · exact .inl haccepted
    · exact .inr ⟨hlease, call, rfl⟩
  | running => exact .inl trivial
  | stopping => exact .inl trivial
  | unregistering call =>
    rw [hold] at hnow
    exact hnow.elim
  | stopped =>
    rw [hold] at hnow
    exact hnow.elim

/-- **A step keeps the leases**, in whichever order the calls of a client and
the sections of their handlers run. -/
theorem Leased.step (hd : Consistent d) (hticks : 0 ≤ d.service.registry.timeoutTicks)
    (hkeeps : d.KeepsLeases a) (h : d.step a = some d') (hc : Leased d c) : Leased d' c := by
  cases course_of_step h c with
  | stayed hphase hsenders =>
    refine hc.later hd hticks hkeeps h ?_ (fun call hcall => ?_) (fun hnow => ?_) fun sender call hwaits => ?_
    · rw [hphase]
      refine hc.beating.imp_right (Or.imp_right fun hrests => ?_)
      exact (hsenders .heartbeatLoop).elim (·.trans hrests) id
    · rw [hphase] at hcall
      exact ⟨(hsenders .start).elim (·.trans (hc.resting hcall .start)) id,
        (Registering.step hd hticks h (hc.beginning call hcall).2).1⟩
    · refine (hc.enlisted_of_phase hd hticks h hphase hnow).imp_right fun ⟨hlease, call, hcall⟩ =>
        ⟨hlease, fun sender => ?_⟩
      exact (hsenders sender).elim (·.trans (hc.resting hcall sender)) id
    · rcases hsenders sender with hsame | hrests
      · exact .inl (hsame.symm.trans hwaits)
      · rw [hrests] at hwaits
        cases hwaits
  | started hphase hrests hphase' hsenders hservice =>
    have hentry : d'.service.handlers d.service.created =
        (ServiceCall.registerClient c).entry := by
      rw [hservice, ServiceState.handlers_receive, if_pos rfl]
    have hloop : (d.nodes c).senders .heartbeatLoop = .resting := by
      rcases hc.beating with hrunning | hstopping | hrests
      · rw [hphase] at hrunning
        cases hrunning
      · rw [hphase] at hstopping
        cases hstopping
      · exact hrests
    refine hc.later hd hticks hkeeps h (.inr (.inr (by rw [hsenders, hloop]))) (fun call hcall => ?_)
      (fun hnow => ?_) fun sender call hwaits => .inl (by rwa [hsenders] at hwaits)
    · rw [hphase'] at hcall
      obtain rfl := ClientPhase.registering.inj hcall
      refine ⟨by rw [hsenders, hrests], ?_⟩
      by_cases hid : c.isEmpty = true
      · rw [ServiceCall.entry, if_pos hid] at hentry
        exact .returned hentry
      · rw [ServiceCall.entry, if_neg hid] at hentry
        exact .underWay (Bool.eq_false_iff.mpr hid) (.inl hentry)
    · -- a registration that was just sent is not accepted yet
      rw [Enlisted, hphase'] at hnow
      dsimp only at hnow
      rw [hentry, ServiceCall.entry] at hnow
      split at hnow <;> cases hnow
  | registered hphase haccepted hphase' hsenders =>
    have hold : d.Enlisted c := by
      rw [Enlisted, hphase]
      exact haccepted
    refine hc.later hd hticks hkeeps h (.inl hphase') (fun call hcall => ?_) (fun _ => .inl hold)
      fun sender call hwaits => ?_
    · rw [hphase'] at hcall
      cases hcall
    · rcases hsenders sender with hsame | hsending
      · exact .inl (hsame.symm.trans hwaits)
      · rw [hsending] at hwaits
        cases hwaits
  | stopping hphase hphase' hsenders =>
    have hold : d.Enlisted c := by
      rw [Enlisted, hphase]
      trivial
    refine hc.later hd hticks hkeeps h (.inr (.inl hphase')) (fun call hcall => ?_) (fun _ => .inl hold)
      fun sender call hwaits => .inl (by rwa [hsenders] at hwaits)
    rw [hphase'] at hcall
    cases hcall
  | left hphase' hrests hsenders =>
    have hloop : (d.nodes c).senders .heartbeatLoop = .resting := by
      rcases hrests with hrests | ⟨hrunning, hstopping⟩
      · exact hrests
      · exact (hc.beating.resolve_left hrunning).resolve_left hstopping
    refine hc.later hd hticks hkeeps h (.inr (.inr (by rw [hsenders, hloop]))) (fun call hcall => ?_)
      (fun hnow => ?_) fun sender call hwaits => .inl (by rwa [hsenders] at hwaits)
    · rcases hphase' with hphase' | ⟨call', hphase'⟩ <;>
        · rw [hphase'] at hcall
          cases hcall
    · rw [Enlisted] at hnow
      rcases hphase' with hphase' | ⟨call', hphase'⟩ <;>
        · rw [hphase'] at hnow
          exact hnow.elim
  | woke hphase hphase' hsenders =>
    have hold : d.Enlisted c := by
      rw [Enlisted, hphase]
      trivial
    refine hc.later hd hticks hkeeps h (.inl hphase') (fun call hcall => ?_) (fun _ => .inl hold)
      fun sender call hwaits => ?_
    · rw [hphase'] at hcall
      cases hcall
    · rcases hsenders sender with hsame | hsending
      · exact .inl (hsame.symm.trans hwaits)
      · rw [hsending] at hwaits
        cases hwaits
  | @sent sender ids hphase hsends hsenders hservice =>
    -- a client that sends is not registering
    have hnot : ∀ call, (d.nodes c).phase ≠ .registering call := by
      intro call hcall
      rw [hc.resting hcall sender] at hsends
      cases hsends
    refine hc.later hd hticks hkeeps h ?_ (fun call hcall => ?_) (fun hnow => ?_) fun sender' call hwaits => ?_
    · rw [hphase]
      refine hc.beating.imp_right (Or.imp_right fun hrests => ?_)
      rcases hsenders .heartbeatLoop with hsame | ⟨heq, -⟩
      · exact hsame.trans hrests
      · rw [← heq, hrests] at hsends
        cases hsends
    · rw [hphase] at hcall
      exact absurd hcall (hnot call)
    · refine (hc.enlisted_of_phase hd hticks h hphase hnow).imp_right fun ⟨hlease, call, hcall⟩ => ?_
      exact absurd hcall (hnot call)
    · rcases hsenders sender' with hsame | ⟨-, hnew⟩
      · exact .inl (hsame.symm.trans hwaits)
      · rw [hnew] at hwaits
        obtain rfl := SenderPc.waiting.inj hwaits
        refine .inr ⟨ids, ?_⟩
        rw [hservice, ServiceState.handlers_receive, if_pos rfl]

theorem leased_of_keepsLeases (hfits : heartbeatTimeout ≤ 9223372036)
    (h : (deploymentSystem heartbeatTimeout).ReachableVia KeepsLeases d) (c : ClientId) :
    Leased d c := by
  have hticks : 0 ≤ (deploymentSystem heartbeatTimeout).init.service.registry.timeoutTicks :=
    timeoutTicks_nonneg (Int.natCast_nonneg heartbeatTimeout) (Int.ofNat_le.mpr hfits)
  have hall : Consistent d ∧ 0 ≤ d.service.registry.timeoutTicks ∧ Leased d c := by
    refine GuardedSystem.ReachableVia.invariant
      (P := fun d => Consistent d ∧ 0 ≤ d.service.registry.timeoutTicks ∧ Leased d c)
      ⟨consistent_init heartbeatTimeout, hticks, leased_init c⟩ ?_ h
    rintro d a d' ⟨hd, hticks, hleased⟩ hkeeps hstep
    refine ⟨hd.step hstep, ?_, hleased.step hd hticks hkeeps hstep⟩
    rw [(effect_of_step hstep).1.timeoutTicks]
    exact hticks
  exact hall.2.2

/-- **Nobody who runs is forgotten**, with a timeout the nanoseconds of
which an `int64` holds, in any run in which no lease runs out and no
unregistration comes late: a running client is among the live
registrations, and whatever answer to a heartbeat it is about to take is
`OK`. -/
theorem known_of_keepsLeases (hfits : heartbeatTimeout ≤ 9223372036)
    (h : (deploymentSystem heartbeatTimeout).ReachableVia KeepsLeases d) (hc : d.IsRunning c) :
    c ∈ d.service.present.clients ∧
      ∀ sender call ids status response, (d.nodes c).senders sender = .waiting call →
        d.service.handlers call = .heartbeat c ids (.answered status response) →
        status.code = .ok := by
  have hleased := leased_of_keepsLeases hfits h c
  have hlisted : d.Enlisted c := by
    rw [Enlisted, show (d.nodes c).phase = .running from hc]
    trivial
  exact ⟨ServiceState.leaseRuns_iff_mem_present.mp (hleased.runs hlisted), hleased.told hlisted⟩

/-- `"a"` is heard from at 20 s and at 45 s, with a timeout of 30 s. -/
def untilHeardAgain : List DeploymentAction :=
  let soon := 20 * ticksPerSecond
  let late := 45 * ticksPerSecond
  untilAlone ++ [.answer "a" .start fun _ => 0, .tick soon, .wake "a",
    .sendHeartbeat "a" .heartbeatLoop] ++ sections 3 7 soon ++
    [.answer "a" .heartbeatLoop fun _ => soon, .tick late, .wake "a",
      .sendHeartbeat "a" .heartbeatLoop] ++ sections 4 7 late

theorem untilHeardAgain_known :
    ∃ d, (deploymentSystem 30).ReachableVia KeepsLeases d ∧
      d.service.clock = 45 * ticksPerSecond ∧ "a" ∈ d.service.present.clients ∧
      ∃ ids status response,
        d.service.handlers 4 = .heartbeat "a" ids (.answered status response) ∧
          status.code = .ok := by
  have hrun : ((deploymentSystem 30).runVia KeepsLeases (deploymentSystem 30).init
      untilHeardAgain).map (fun d => decide (d.service.clock = 45 * ticksPerSecond ∧
        (d.nodes "a").phase = .running ∧
        (d.nodes "a").senders .heartbeatLoop = .waiting 4 ∧
        (d.service.handlers 4).isAnswered = true)) = some true := by
    decide +kernel
  obtain ⟨d, hd, hchecked⟩ := Option.map_eq_some_iff.mp hrun
  obtain ⟨hclock, hrunning, hwaits, hanswered⟩ := of_decide_eq_true hchecked
  have hreach := GuardedSystem.ReachableVia.runVia .init hd
  obtain ⟨hlive, htold⟩ := known_of_keepsLeases (by decide) hreach hrunning
  obtain ⟨c, ids, status, response, hpc⟩ := exists_of_isAnswered hanswered
  obtain rfl := (consistent_of_reachable hreach.reachable).client_of_waiting hwaits hpc
  exact ⟨d, hreach, hclock, hlive, ids, status, response, hpc,
    htold .heartbeatLoop 4 ids status response hwaits hpc⟩

end Deployment

end Throttling
