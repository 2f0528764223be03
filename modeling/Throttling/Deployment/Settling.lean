import Throttling.Deployment.Convergence
import Throttling.Deployment.Progress
/-!
# Rates become fair, and stay so

Once nobody calls any more, what was called before comes to its end, and
then nothing is recorded but what was asked of the clients: the records
settle (`Calm.exists_settled`). Everybody hears of what is on record
then, and all rates are fair for good (`fairAt_of_calm`).
-/

namespace Throttling

open GuardedSystem.Execution

namespace Deployment

variable {heartbeatTimeout : ℕ} {d d' : Deployment} {a : DeploymentAction} {c : ClientId}
variable {sender : Sender} {k n m : ℕ} {E : (deploymentSystem heartbeatTimeout).Execution}

/-! ## The records settle -/

/-- Its interests are on record, if a heartbeat of it from some call on has
recorded any. -/
def Noted (d : Deployment) (c : ClientId) (calls : ℕ) (ids : Finset ResourceId) : Prop :=
  ∀ k ids' stage, calls ≤ k → d.service.handlers k = .heartbeat c ids' stage →
    stage.hasRecorded = true → d.service.registry.interests[c]? = some ids

/-- **What is recorded for a client** is what was asked of it, once all that
was called before is over. -/
theorem Calm.interests_step (h : Calm E n) (hruns : (E.state n).IsRunning c) (hle : n ≤ m)
    (hover : ∀ k < (E.state n).service.created,
      ((E.state m).service.handlers k).isThrough = true) (haction : E.action m = some a) :
    (E.state (m + 1)).service.registry.interests[c]? =
        (E.state m).service.registry.interests[c]? ∨
      (E.state (m + 1)).service.registry.interests[c]? =
        some ((E.state n).nodes c).resourceInterests := by
  have hlive := ServiceState.mem_clients_of_mem_present (h.live hruns hle)
  have hlive' := ServiceState.mem_clients_of_mem_present (h.live hruns (m := m + 1) (by omega))
  cases calmly_of_step (h.quiet m a hle haction) (E.moved m a haction) with
  | still hservice => exact .inl (by rw [hservice])
  | sent hservice => exact .inl (by rw [hservice]; rfl)
  | later _ hservice => exact .inl (by rw [hservice]; rfl)
  | @handled handler readings now _ hsection =>
    rcases ServiceState.interests_section hsection c with hsame | hnone | ⟨-, hout⟩ |
      ⟨ids, hpc, -, -, hrecorded⟩
    · exact .inl hsame
    · obtain ⟨info, hinfo⟩ := OrderedMap.mem_iff_exists.mp hlive
      rw [ClientRegistry.lookup_interests, hinfo] at hnone
      cases hnone
    · exact absurd hlive' hout
    · -- the handler is not of a call made before
      have hnew : (E.state n).service.created ≤ handler := by
        by_contra hlt
        have hthrough := hover handler (not_le.mp hlt)
        rw [hsection.isThrough] at hthrough
        cases hthrough
      rcases h.heartbeat hle hnew with hidle | ⟨c', stage, hpc'⟩
      · rw [hpc] at hidle
        cases hidle
      · obtain ⟨rfl, rfl, -⟩ := HandlerPc.heartbeat.inj (hpc.symm.trans hpc')
        exact .inr hrecorded

theorem Calm.noted (h : Calm E n) (hruns : (E.state n).IsRunning c) (hle : n ≤ m)
    (hover : ∀ j, m ≤ j → ∀ k < (E.state n).service.created,
      ((E.state j).service.handlers k).isThrough = true) (hmk : m ≤ k) :
    Noted (E.state k) c (E.state m).service.created ((E.state n).nodes c).resourceInterests := by
  refine stays (P := fun d : Deployment =>
    Noted d c (E.state m).service.created ((E.state n).nodes c).resourceInterests) hmk ?_
    fun j a hj _ haction hnoted u ids stage hu hpc hrecorded => ?_
  · intro u ids stage hu hpc
    rw [(consistent_state m).sane.fresh u hu] at hpc
    cases hpc
  · have hnj : n ≤ j := hle.trans hj
    -- what is on record stays so
    have hkept : ∀ old, (E.state j).service.handlers u = .heartbeat c ids old →
        old.hasRecorded = true → (E.state (j + 1)).service.registry.interests[c]? =
          some ((E.state n).nodes c).resourceInterests := by
      intro old hold hrecorded'
      rcases h.interests_step hruns hnj (hover j hj) haction with hsame | hnew
      · exact hsame.trans (hnoted u ids old hu hold hrecorded')
      · exact hnew
    have hstep := E.moved j a haction
    rcases heartbeat_of_step hstep hpc with hold | ⟨call, hentry⟩ | ⟨readings, now, hsection⟩
    · exact hkept stage hold hrecorded
    · have hregistered := ServiceState.mem_clients_of_mem_present (h.live hruns hnj)
      rw [ServiceState.stage_of_entry hentry ((kept_state j).named c hregistered)] at hrecorded
      cases hrecorded
    · rcases hsection.hasRecorded hpc hrecorded with ⟨old, hold, hrecorded'⟩ |
        ⟨-, hold, info, hfound, hregistry⟩
      · exact hkept old hold hrecorded'
      · rcases h.heartbeat hnj ((created_mono hle).trans hu) with hidle | ⟨c', stage', hpc'⟩
        · rw [hold] at hidle
          cases hidle
        · obtain ⟨rfl, rfl, -⟩ := HandlerPc.heartbeat.inj (hold.symm.trans hpc')
          rw [hregistry]
          exact ClientRegistry.lookup_interests_heartbeatLocked hfound now

/-- **The interests on record of a client that runs** are what was asked of
it, from some time on. -/
theorem Calm.eventually_interests (hfair : Fair E) (h : Calm E n)
    (hruns : (E.state n).IsRunning c) :
    ∀ᶠ k in Filter.atTop, (E.state k).service.present.interests[c]? =
      some ((E.state n).nodes c).resourceInterests := by
  obtain ⟨m, hm, hover⟩ := exists_over hfair n
  have hheard := (h.mono hm).eventually_heard hfair ((h.isRunning_iff hm c).mpr hruns)
  filter_upwards [hheard, Filter.eventually_ge_atTop m] with k hk hmk
  obtain ⟨call, happlied, hcall⟩ := hk
  obtain ⟨ids, status, response, hpc, hok, -⟩ := (consistent_state k).applied c call happlied
  rw [ServiceState.interests_present_of_mem (h.live hruns (hm.trans hmk))]
  exact h.noted hruns hm hover hmk call ids _ hcall hpc (decide_eq_true hok)

/-- **No limit is set any more**, once all that was called before is over. -/
theorem Calm.manager_eq (h : Calm E n) (hle : n ≤ m)
    (hover : ∀ j, m ≤ j → ∀ k < (E.state n).service.created,
      ((E.state j).service.handlers k).isThrough = true) (hmk : m ≤ k) :
    (E.state k).service.manager = (E.state m).service.manager := by
  refine stays (P := fun d : Deployment => d.service.manager = (E.state m).service.manager) hmk rfl
    fun j a hj _ haction hsofar => ?_
  have hnj : n ≤ j := hle.trans hj
  cases calmly_of_step (h.quiet j a hnj haction) (E.moved j a haction) with
  | still hservice => rwa [hservice]
  | sent hservice => rw [hservice]; exact hsofar
  | later _ hservice => rw [hservice]; exact hsofar
  | @handled handler readings now _ hsection =>
    cases hsection with
    | limitSet _ hpc =>
      by_cases hold : handler < (E.state n).service.created
      · have hthrough := hover j hj handler hold
        rw [hpc] at hthrough
        cases hthrough
      · rcases h.heartbeat hnj (not_lt.mp hold) with hidle | ⟨c, stage, hpc'⟩
        · rw [hpc] at hidle
          cases hidle
        · rw [hpc] at hpc'
          cases hpc'
    | _ => rename_i heq; rw [heq]; exact hsofar

/-- What holds of each client that runs from some time on holds of all. -/
theorem Calm.eventually_all (h : Calm E n) {P : ℕ → ClientId → Prop}
    (hP : ∀ c, (E.state n).IsRunning c → ∀ᶠ k in Filter.atTop, P k c) :
    ∀ᶠ k in Filter.atTop, ∀ c, (E.state n).IsRunning c → P k c := by
  have hmem : ∀ c, c ∈ (E.state n).service.present.clients.keys.toFinset ↔
      (E.state n).IsRunning c := by
    intro c
    rw [List.mem_toFinset, Std.ExtTreeMap.mem_keys, h.registered n le_rfl]
  simp only [← hmem] at hP ⊢
  exact (Filter.eventually_all_finset _).mpr hP

/-- Who runs has its own interests on record, once it has what it had. -/
theorem Calm.interests_own (h : Calm E n) (hle : n ≤ k)
    (hrecorded : ∀ c, (E.state n).IsRunning c → (E.state k).service.present.interests[c]? =
      some ((E.state n).nodes c).resourceInterests) (c : ClientId) (hruns : (E.state k).IsRunning c) :
    (E.state k).service.present.interests[c]? = some ((E.state k).nodes c).resourceInterests := by
  rw [hrecorded c ((h.isRunning_iff hle c).mp hruns), (h.asked hle c).2]

/-- **Who names a resource** are then the clients that run and have it among
their interests. -/
theorem Calm.mem_interestedClients_iff (h : Calm E n) (hle : n ≤ k)
    (hown : ∀ c, (E.state k).IsRunning c → (E.state k).service.present.interests[c]? =
      some ((E.state k).nodes c).resourceInterests) (r : ResourceId) (c : ClientId) :
    c ∈ (E.state k).service.interestedClients r ↔
      (E.state k).IsRunning c ∧ r ∈ ((E.state k).nodes c).resourceInterests := by
  rw [ServiceState.mem_interestedClients]
  constructor
  · rintro ⟨ids, hids, hr⟩
    have hruns : (E.state k).IsRunning c := by
      rw [← h.registered k hle c, OrderedMap.mem_iff_exists]
      rw [ClientRegistry.lookup_interests, Option.map_eq_some_iff] at hids
      obtain ⟨info, hinfo, -⟩ := hids
      exact ⟨info, hinfo⟩
    rw [hown c hruns] at hids
    exact ⟨hruns, Option.some.inj hids ▸ hr⟩
  · rintro ⟨hruns, hr⟩
    exact ⟨_, hown c hruns, hr⟩

/-- **The records settle.** -/
theorem Calm.exists_settled (hfair : Fair E) (h : Calm E n) : ∃ m, n ≤ m ∧
    ∀ k, m ≤ k → (E.state k).service.records = (E.state m).service.records := by
  obtain ⟨m₁, hm₁, hover⟩ := exists_over hfair n
  obtain ⟨m₂, hm₂⟩ := Filter.eventually_atTop.mp
    (h.eventually_all fun c hruns => h.eventually_interests hfair hruns)
  refine ⟨max m₁ m₂, by omega, fun k hk => Prod.ext (ClientRegistry.interests_congr fun c => ?_) ?_⟩
  · by_cases hruns : (E.state n).IsRunning c
    · rw [hm₂ k (by omega) c hruns, hm₂ _ (le_max_right m₁ m₂) c hruns]
    · have hnone : ∀ j, n ≤ j → (E.state j).service.present.interests[c]? = none := by
        intro j hj
        rw [← h.isRunning_iff hj c, ← h.registered j hj c, OrderedMap.not_mem_iff] at hruns
        rw [ClientRegistry.lookup_interests, hruns]
        rfl
      rw [hnone k (by omega), hnone _ (by omega)]
  · change (E.state k).service.manager.resourceLimits = _
    rw [h.manager_eq hm₁ hover (k := k) (by omega)]
    rw [← h.manager_eq hm₁ hover (k := max m₁ m₂) (by omega)]
    rfl

/-! ## Fair rates for good -/

/-- **Rates become fair, and stay so**: under handlers and heartbeat threads
that get on, once nobody calls any more. Then the clients that name a
resource are those that run with it among their interests. -/
theorem fairAt_of_calm (hfair : Fair E) (h : Calm E n) :
    ∃ m, n ≤ m ∧ ∀ k, m ≤ k →
      (∀ c, (E.state k).IsRunning c → (E.state k).service.present.interests[c]? =
        some ((E.state k).nodes c).resourceInterests) ∧
      ∀ r, (∀ c, c ∈ (E.state k).service.interestedClients r ↔
          (E.state k).IsRunning c ∧ r ∈ ((E.state k).nodes c).resourceInterests) ∧
        (E.state k).FairAt r := by
  obtain ⟨m, hm, hsettled⟩ := h.exists_settled hfair
  have hcalm := h.mono hm
  obtain ⟨j, hj⟩ := Filter.eventually_atTop.mp
    (hcalm.eventually_all fun c hruns => hcalm.eventually_heard hfair hruns)
  obtain ⟨j', hj'⟩ := Filter.eventually_atTop.mp
    (h.eventually_all fun c hruns => h.eventually_interests hfair hruns)
  refine ⟨max m (max j j'), by omega, fun k hk => ?_⟩
  have hmk : m ≤ k := by omega
  have hown := h.interests_own (hm.trans hmk) (hj' k (by omega))
  refine ⟨hown, fun r => ⟨h.mem_interestedClients_iff (hm.trans hmk) hown r, ?_⟩⟩
  have hlast : (E.state k).history.lastChange ≤ (E.state m).history.steps := by
    obtain ⟨V, hrun, hbetween⟩ := exists_run (E := E) hmk
    refine lastChange_le_of_run (reachable m) hrun fun d hd => ?_
    obtain ⟨i, hi, -, rfl⟩ := hbetween d hd
    exact hsettled i hi
  refine (consistent_state k).fairAt ⟨h.registered k (by omega), fun c hruns => ?_⟩ r
  have hrunsm := (hcalm.isRunning_iff hmk c).mp hruns
  obtain ⟨call, happlied, hcall⟩ := hj k (by omega) c hrunsm
  obtain ⟨ids, status, response, hpc, hok, -⟩ := (consistent_state k).applied c call happlied
  exact ⟨call, happlied, hlast.trans ((hcalm.recent hrunsm hmk).computed call ids _ hcall hpc
    (decide_eq_true hok))⟩

/-! ## Two clients left alone -/

/-- Client `"b"` has applied the answer to its first heartbeat, and `"a"`
still holds all there was. -/
def untilApplied : List DeploymentAction :=
  untilRecorded ++ sections 4 5 0 ++ [.answer "b" .start fun _ => 0]

/-- The clients that run. -/
def two : Finset ClientId := {"a", "b"}

/-- From then on their heartbeat threads act and the handlers, in no time. -/
def beatsOn : ℕ → DeploymentAction → Prop
  | 0 => DeploymentAction.IsBeatOf "a" .heartbeatLoop
  | 1 => DeploymentAction.IsBeatOf "b" .heartbeatLoop
  | k + 2 => fun a => a = .handlerSection k (fun _ => 0) 0

/-- **The two run, alone**, and all handlers that are not through have
heartbeats. -/
structure Alone (d : Deployment) : Prop where
  ticks : 0 ≤ d.service.registry.timeoutTicks
  clock : d.service.clock = 0
  registered : ∀ c, c ∈ d.service.registry.clients ↔ c ∈ two
  renewed : ∀ (c : ClientId) (info : ClientInfo), d.service.registry.clients[c]? = some info →
    info.lastHeartbeatTime = 0
  runs : ∀ c ∈ two, d.IsRunning c
  rests : ∀ c ∈ two, (d.nodes c).senders .start = .resting
  others : ∀ c, c ∉ two → d.nodes c = .new
  busy : ∀ k, (d.service.handlers k).isThrough = false →
    (d.service.handlers k).request.isSome = true

theorem beat_or_section_of_beatsOn (h : beatsOn k a) :
    (∃ c ∈ two, a.IsBeatOf c .heartbeatLoop) ∨ ∃ u, a = .handlerSection u (fun _ => 0) 0 :=
  match k, h with
  | 0, h => .inl ⟨"a", by decide, h⟩
  | 1, h => .inl ⟨"b", by decide, h⟩
  | u + 2, h => .inr ⟨u, h⟩

theorem isCalm_of_isBeatOf (h : a.IsBeatOf c sender) : a.isCalm = true := by
  cases a <;> first | rfl | exact h.elim

/-- A heartbeat thread goes on, and sends one heartbeat after the other. -/
theorem Alone.beat (h : Alone d) (hc : c ∈ two) (ha : a.IsBeatOf c .heartbeatLoop)
    (hstep : d.step a = some d') : Alone d' := by
  have hcalm := isCalm_of_isBeatOf ha
  have hticks : 0 ≤ d'.service.registry.timeoutTicks := by
    rw [(effect_of_step hstep).1.timeoutTicks]
    exact h.ticks
  have hruns : ∀ c' ∈ two, d'.IsRunning c' := fun c' hc' =>
    (asked_of_step hcalm hstep c').1.trans (h.runs c' hc')
  have hothers : ∀ c', c' ∉ two → d'.nodes c' = .new := by
    intro c' hc'
    refine (nodes_of_step_ne hstep fun heq => hc' ?_).trans (h.others c' hc')
    exact Option.some.inj ((client_of_isBeatOf ha).symm.trans heq) ▸ hc
  -- the calls in `Start` are over, and stay so
  have hrests : ∀ c' ∈ two, (d'.nodes c').senders .start = .resting := by
    intro c' hc'
    have hresting := h.rests c' hc'
    cases beat_of_step hcalm hstep c' .start with
    | stayed _ hsender => exact hsender.trans hresting
    | woke hloop => cases hloop
    | sent hsends =>
      rw [hresting] at hsends
      cases hsends
    | answered hwaits =>
      rw [hresting] at hwaits
      cases hwaits
  cases calmly_of_step hcalm hstep with
  | still hservice =>
    exact ⟨hticks, hservice ▸ h.clock, hservice ▸ h.registered, hservice ▸ h.renewed, hruns,
      hrests, hothers, hservice ▸ h.busy⟩
  | @sent c' hservice =>
    refine ⟨hticks, hservice ▸ h.clock, hservice ▸ h.registered, hservice ▸ h.renewed, hruns,
      hrests, hothers, fun k hk => ?_⟩
    rw [hservice, ServiceState.handlers_receive] at hk ⊢
    split at hk
    · rename_i hnew
      rw [if_pos hnew]
      rfl
    · rename_i hold
      rw [if_neg hold]
      exact h.busy k hk
  | handled haction =>
    subst haction
    exact ha.elim
  | later haction =>
    subst haction
    exact ha.elim

/-- A section is one of a heartbeat that is under way, and renews a
registration at most. -/
theorem Alone.handlerSection (h : Alone d)
    (hstep : d.step (.handlerSection k (fun _ => 0) 0) = some d') : Alone d' := by
  have hsection := section_of_action hstep
  have hnodes : d'.nodes = d.nodes :=
    funext fun c => nodes_of_step_ne hstep (Option.some_ne_none c).symm
  obtain ⟨x, hx⟩ := Option.isSome_iff_exists.mp (h.busy k hsection.isThrough)
  obtain ⟨stage, hpc⟩ := HandlerPc.exists_stage hx
  refine ⟨?_, hsection.clock, fun c => ⟨fun hc => ?_, fun hc => ?_⟩, fun c info hinfo => ?_, ?_, ?_, ?_,
    fun u hu => ?_⟩
  · rw [ServiceState.timeoutTicks_section hsection]
    exact h.ticks
  · rcases hsection.enters hc with hold | hpc'
    · exact (h.registered c).mp hold
    · rw [hpc] at hpc'
      cases hpc'
  · obtain ⟨info, hinfo⟩ := OrderedMap.mem_iff_exists.mp ((h.registered c).mpr hc)
    by_contra hgone
    rcases hsection.dropped hinfo (OrderedMap.not_mem_iff.mp hgone) with hstale | hpc'
    · rw [ServiceState.not_stale_of_now h.ticks (h.renewed c info hinfo)] at hstale
      cases hstale
    · rw [hpc] at hpc'
      cases hpc'
  · rcases ServiceState.clients_section hsection c with hsame | hgone | ⟨ids, hnow⟩
    · exact h.renewed c info (hsame.symm.trans hinfo)
    · rw [hgone] at hinfo
      cases hinfo
    · rw [hnow] at hinfo
      exact Option.some.inj hinfo ▸ rfl
  · intro c hc
    rw [IsRunning, hnodes]
    exact h.runs c hc
  · rw [hnodes]
    exact h.rests
  · rw [hnodes]
    exact h.others
  · by_cases hself : u = k
    · subst hself
      rw [hsection.request, hx]
      rfl
    · rw [hsection.handlers_of_ne hself] at hu ⊢
      exact h.busy u hu

/-- The live registrations are those of the two. -/
theorem Alone.mem_present (h : Alone d) (c : ClientId) :
    c ∈ d.service.present.clients ↔ d.IsRunning c := by
  by_cases hc : c ∈ two
  · refine iff_of_true ?_ (h.runs c hc)
    obtain ⟨info, hinfo⟩ := OrderedMap.mem_iff_exists.mp ((h.registered c).mpr hc)
    rw [← ServiceState.leaseRuns_iff_mem_present, h.clock]
    exact ⟨info, hinfo, ServiceState.not_stale_of_now h.ticks (h.renewed c info hinfo)⟩
  · refine iff_of_false (fun hin => ?_) ?_
    · exact hc ((h.registered c).mp (ServiceState.mem_clients_of_mem_present hin))
    · rw [IsRunning, h.others c hc]
      exact ClientPhase.noConfusion

/-- A handler's section that is open to it is so in no time. -/
theorem Alone.isSome_section (h : Alone d) {readings : ClientId → TimePoint} {now : TimePoint}
    (hsome : (d.step (.handlerSection k readings now)).isSome = true) :
    (d.step (.handlerSection k (fun _ => 0) 0)).isSome = true := by
  obtain ⟨d', hstep⟩ := Option.isSome_iff_exists.mp hsome
  have hbusy := (section_of_action hstep).isThrough
  have hopen : (d.service.handlerSection k readings now).isSome = true := by
    change ((Option.map _ (d.service.handlerSection k readings now)).map _).isSome = true at hsome
    rwa [Option.isSome_map, Option.isSome_map] at hsome
  rw [← h.clock]
  exact Deployment.isSome_section hbusy (ServiceState.holder_of_handlerSection hopen)

/-- Who rests, and has no thread running, does not beat. -/
theorem not_enabled_beat (hrests : (d.nodes c).senders sender = .resting)
    (hstopped : sender = .heartbeatLoop → (d.nodes c).phase ≠ .running) :
    ¬ (deploymentSystem heartbeatTimeout).Enabled (DeploymentAction.IsBeatOf c sender) d := by
  rintro ⟨a, ha, hsome⟩
  cases a with
  | wake c' =>
    obtain ⟨rfl, rfl⟩ := ha
    simp [deploymentSystem, step, act, hstopped rfl] at hsome
  | sendHeartbeat c' sender' =>
    obtain ⟨rfl, rfl⟩ := ha
    simp [deploymentSystem, step, act, hrests] at hsome
  | answer c' sender' now =>
    obtain ⟨rfl, rfl⟩ := ha
    simp [deploymentSystem, step, act, hrests] at hsome
  | _ => exact ha

theorem exists_untilApplied :
    ∃ d, (deploymentSystem 30).runFrom (deploymentSystem 30).init untilApplied = some d ∧
      Alone d ∧ (∀ c ∈ ["a", "b"], c ∈ d.service.interestedClients 1) ∧
        d.rate "a" 1 = some 100 ∧ d.rate "b" 1 = some 50 := by
  have hrun : ((deploymentSystem 30).runFrom (deploymentSystem 30).init untilApplied).map
      (fun d => decide ((0 ≤ d.service.registry.timeoutTicks ∧ d.service.clock = 0 ∧
        d.service.registry.clients.keys = ["a", "b"] ∧
        (∀ c ∈ ["a", "b"], ∀ info ∈ d.service.registry.clients[c]?, info.lastHeartbeatTime = 0) ∧
        (∀ c ∈ ["a", "b"], (d.nodes c).phase = .running ∧ (d.nodes c).senders .start = .resting) ∧
        ∀ k < d.service.created, (d.service.handlers k).isThrough = true) ∧
        (∀ c ∈ ["a", "b"], c ∈ d.service.interestedClients 1) ∧
        d.rate "a" 1 = some 100 ∧ d.rate "b" 1 = some 50)) = some true := by
    decide +kernel
  obtain ⟨d, hd, hchecked⟩ := Option.map_eq_some_iff.mp hrun
  obtain ⟨⟨hticks, hclock, hkeys, hrenewed, hrun, hthrough⟩, hrates⟩ := of_decide_eq_true hchecked
  have hregistered : ∀ c, c ∈ d.service.registry.clients ↔ c ∈ two := by
    intro c
    rw [← Std.ExtTreeMap.mem_keys, hkeys]
    simp [two]
  have htwo : ∀ c ∈ two, c ∈ ["a", "b"] := by simp [two]
  refine ⟨d, hd, ⟨hticks, hclock, hregistered, fun c info hinfo => ?_,
    fun c hc => (hrun c (htwo c hc)).1, fun c hc => (hrun c (htwo c hc)).2, fun c hc => ?_,
    fun k hk => ?_⟩, hrates⟩
  · have hin := (hregistered c).mp (OrderedMap.mem_iff_exists.mpr ⟨info, hinfo⟩)
    exact hrenewed c (htwo c hin) info hinfo
  · have hnamed : ∀ a ∈ untilApplied, a.client = none ∨ a.client = some "a" ∨
        a.client = some "b" := by decide
    refine nodes_of_runFrom hd fun a ha heq => hc ?_
    rcases hnamed a ha with hnone | hsome | hsome
    · rw [hnone] at heq
      cases heq
    · exact Option.some.inj (heq.symm.trans hsome) ▸ by decide
    · exact Option.some.inj (heq.symm.trans hsome) ▸ by decide
  · -- the calls made are through, and no other handler has begun
    by_cases hlt : k < d.service.created
    · rw [hthrough k hlt] at hk
      cases hk
    · have hreach := GuardedSystem.Reachable.runFrom .init hd
      rw [(consistent_of_reachable hreach).sane.fresh k (not_lt.mp hlt)] at hk
      cases hk

section TwoClients

variable {both : Deployment}
variable (hrun : (deploymentSystem heartbeatTimeout).runFrom
  (deploymentSystem heartbeatTimeout).init untilApplied = some both)

theorem beatsOn_of_action {hrun : (deploymentSystem heartbeatTimeout).runFrom
    (deploymentSystem heartbeatTimeout).init untilApplied = some both}
    (haction : (ofRunFairly hrun beatsOn).action n = some a) (hn : untilApplied.length ≤ n) :
    (∃ c ∈ two, a.IsBeatOf c .heartbeatLoop) ∨ ∃ u, a = .handlerSection u (fun _ => 0) 0 := by
  rcases ofRunFairly_action hrun haction with hearly | ⟨-, k, hclass⟩
  · rw [List.getElem?_eq_none hn] at hearly
    cases hearly
  · exact beat_or_section_of_beatsOn hclass

/-- **They stay alone.** -/
theorem alone_state (halone : Alone both) (hn : untilApplied.length ≤ n) :
    Alone ((ofRunFairly hrun beatsOn).state n) := by
  refine stays hn ?_ fun j a hj _ haction hj' => ?_
  · rw [ofRunFairly_state_length]
    exact halone
  · have hstep := (ofRunFairly hrun beatsOn).moved j a haction
    rcases beatsOn_of_action haction hj with ⟨c, hc, hbeat⟩ | ⟨u, rfl⟩
    · exact hj'.beat hc hbeat hstep
    · exact hj'.handlerSection hstep

theorem fair_alone (halone : Alone both) : Fair (ofRunFairly hrun beatsOn) where
  handlers k n hagain := by
    obtain ⟨m, hm, a, haction, ha⟩ := stronglyFair_ofRunFairly hrun beatsOn (k + 2) n fun m hm => by
      obtain ⟨j, hj, a, ⟨readings, now, rfl⟩, hsome⟩ :=
        hagain (max m untilApplied.length) (hm.trans (le_max_left _ _))
      exact ⟨j, by omega, _, rfl, (alone_state hrun halone (by omega)).isSome_section hsome⟩
    exact ⟨m, hm, a, haction, _, _, ha⟩
  senders c sender := by
    by_cases hloop : c ∈ two ∧ sender = .heartbeatLoop
    · obtain ⟨hc, rfl⟩ := hloop
      have hnames : c = "a" ∨ c = "b" := by simpa [two] using hc
      rcases hnames with rfl | rfl
      · exact (stronglyFair_ofRunFairly hrun beatsOn 0).weaklyFair
      · exact (stronglyFair_ofRunFairly hrun beatsOn 1).weaklyFair
    · intro n hall
      have hlate := alone_state hrun halone (le_max_right n untilApplied.length)
      refine absurd (hall (max n untilApplied.length) (le_max_left _ _))
        (not_enabled_beat ?_ fun hthread => ?_)
      · by_cases hc : c ∈ two
        · cases sender with
          | start => exact hlate.rests c hc
          | heartbeatLoop => exact absurd ⟨hc, rfl⟩ hloop
        · rw [hlate.others c hc]
          rfl
      · rw [hlate.others c fun hc => hloop ⟨hc, hthread⟩]
        exact ClientPhase.noConfusion

theorem calm_alone (halone : Alone both) :
    Calm (ofRunFairly hrun beatsOn) untilApplied.length where
  quiet m a hm haction := by
    rcases beatsOn_of_action haction hm with ⟨c, -, hbeat⟩ | ⟨u, rfl⟩
    · exact isCalm_of_isBeatOf hbeat
    · rfl
  registered m hm c := (alone_state hrun halone hm).mem_present c

end TwoClients

/-- Client `"a"` gives up half of what it had, for good. -/
theorem untilApplied_fairAt : ∃ (E : (deploymentSystem 30).Execution) (n : ℕ), Fair E ∧
    Calm E n ∧ (E.state n).IsRunning "a" ∧ (E.state n).IsRunning "b" ∧
    ¬ (E.state n).FairAt 1 ∧
    ∃ m, n ≤ m ∧ ∀ k, m ≤ k →
      (∀ c, (E.state k).IsRunning c → (E.state k).service.present.interests[c]? =
        some ((E.state k).nodes c).resourceInterests) ∧
      ∀ r, (∀ c, c ∈ (E.state k).service.interestedClients r ↔
          (E.state k).IsRunning c ∧ r ∈ ((E.state k).nodes c).resourceInterests) ∧
        (E.state k).FairAt r := by
  obtain ⟨d, hd, halone, hnamed, hrateA, hrateB⟩ := exists_untilApplied
  refine ⟨_, _, fair_alone hd halone, calm_alone hd halone, ?_, ?_, ?_,
    fairAt_of_calm (fair_alone hd halone) (calm_alone hd halone)⟩
  · exact (alone_state hd halone le_rfl).runs "a" (by decide)
  · exact (alone_state hd halone le_rfl).runs "b" (by decide)
  · rw [ofRunFairly_state_length]
    intro hfair
    have hsame := (hfair.equal "a" (hnamed "a" (by decide))).trans
      (hfair.equal "b" (hnamed "b" (by decide))).symm
    rw [hrateA, hrateB] at hsame
    exact absurd (Option.some.inj hsame) (by norm_num)

end Deployment

end Throttling
