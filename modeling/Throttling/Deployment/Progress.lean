import Throttling.Common.Liveness
import Throttling.Deployment.Helpers.Beats
import Mathlib.Order.Filter.AtTopBot.Basic
import Mathlib.Order.Filter.Finite
/-!
# Everybody hears

Where handlers and senders get on, every call is answered
(`exists_through`): the manager's mutex is taken only for shares, which
come to an end. So once nobody starts or stops any more, the heartbeat
thread of each client that runs sends again and again; every answer it
gets to a call made since is `OK`, and from some time on none older is
applied (`Calm.eventually_heard`).
-/

namespace Throttling

open GuardedSystem.Execution

namespace Deployment

variable {heartbeatTimeout : ℕ} {d d' : Deployment} {a : DeploymentAction} {c : ClientId}
variable {sender : Sender} {k n m : ℕ} {ids : Finset ResourceId} {stage : HeartbeatStage}
variable {E : (deploymentSystem heartbeatTimeout).Execution}

/-- **Every handler and every sender gets on**: a handler if it can again
and again, since it may find the manager's mutex taken. -/
structure Fair (E : (deploymentSystem heartbeatTimeout).Execution) : Prop where
  handlers : ∀ k, E.StronglyFair fun a => ∃ readings now, a = .handlerSection k readings now
  senders : ∀ c sender, E.WeaklyFair (DeploymentAction.IsBeatOf c sender)

/-- **From a time on nobody calls**, no lease runs out, and nobody is
registered but the clients that run. -/
structure Calm (E : (deploymentSystem heartbeatTimeout).Execution) (n : ℕ) : Prop where
  quiet : ∀ m a, n ≤ m → E.action m = some a → a.isCalm = true
  registered : ∀ m, n ≤ m → ∀ c,
    c ∈ (E.state m).service.present.clients ↔ (E.state m).IsRunning c

theorem consistent_state (n : ℕ) : Consistent (E.state n) := consistent_of_reachable (reachable n)

theorem kept_state (n : ℕ) : (E.state n).service.Kept := kept_of_reachable (reachable n)

/-! ## Every handler comes to its end -/

theorem section_of_action {readings : ClientId → TimePoint} {now : TimePoint}
    (h : d.step (.handlerSection k readings now) = some d') :
    d.service.Section d'.service k readings now := by
  obtain ⟨d₁, hact, rfl⟩ := Option.map_eq_some_iff.mp h
  obtain ⟨service, hservice, rfl⟩ := Option.map_eq_some_iff.mp hact
  exact (ServiceState.section_of_handlerSection hservice).2

theorem isSome_section (hbusy : (d.service.handlers k).isThrough = false)
    (hfree : (d.service.handlers k).isLocking = true → d.service.holder = none) :
    (d.step (.handlerSection k (fun _ => d.service.clock) d.service.clock)).isSome = true := by
  change ((Option.map _ (d.service.handlerSection k _ _)).map _).isSome = true
  rw [Option.isSome_map, Option.isSome_map]
  exact ServiceState.handlerSection_isSome hbusy hfree

/-- **A handler runs its next section**, if that is open to it again and
again. -/
theorem exists_section (hfair : Fair E) (hbusy : ((E.state n).service.handlers k).isThrough = false)
    (hfree : ((E.state n).service.handlers k).isLocking = true →
      ∀ m, n ≤ m → ∃ j, m ≤ j ∧ (E.state j).service.holder = none) :
    ∃ m, n ≤ m ∧
      ((E.state m).service.handlers k).ahead < ((E.state n).service.handlers k).ahead := by
  by_contra hnever
  have hforever : ∀ m, n ≤ m →
      (E.state m).service.handlers k = (E.state n).service.handlers k := by
    intro m hm
    refine stays (P := fun d : Deployment => d.service.handlers k = _) hm rfl
      fun j a hj _ haction hsame => ?_
    rcases section_of_step (consistent_state j).sane (E.moved j a haction)
      (hsame ▸ HandlerPc.ne_idle_of_busy hbusy) with hstill | ⟨readings, now, -, hsection⟩
    · exact hstill.trans hsame
    · exact absurd ⟨j + 1, by omega, hsame ▸ hsection.ahead_lt⟩ hnever
  obtain ⟨m, hm, a, haction, readings, now, rfl⟩ := hfair.handlers k n fun m hm => by
    have hopen : ∀ j, m ≤ j → (((E.state n).service.handlers k).isLocking = true →
        (E.state j).service.holder = none) → (deploymentSystem heartbeatTimeout).Enabled
          (fun a => ∃ readings now, a = .handlerSection k readings now) (E.state j) := by
      intro j hj hholder
      have hsame := hforever j (hm.trans hj)
      exact ⟨_, ⟨_, _, rfl⟩, isSome_section (hsame ▸ hbusy) (hsame ▸ hholder)⟩
    by_cases hlocking : ((E.state n).service.handlers k).isLocking = true
    · obtain ⟨j, hj, hholder⟩ := hfree hlocking m hm
      exact ⟨j, hj, hopen j hj fun _ => hholder⟩
    · exact ⟨m, le_rfl, hopen m le_rfl fun h => absurd h hlocking⟩
  have hlt := (section_of_action (E.moved m _ haction)).ahead_lt
  exact hnever ⟨m + 1, by omega, hforever m hm ▸ hlt⟩

theorem holder_of_step {u : ℕ} (h : d.step a = some d') (hu : d.service.holder = some u) :
    d'.service.holder = some u ∨ d'.service.holder = none := by
  cases served_of_step h with
  | still hservice => exact .inl (by rw [hservice, hu])
  | received call hservice => exact .inl (by rw [hservice]; exact hu)
  | later haction hservice => exact .inl (by rw [hservice]; exact hu)
  | handled haction hadmits hsection =>
    cases hsection with
    | locked hfree => exact absurd (hfree.symm.trans hu) (Option.some_ne_none u).symm
    | shareRead hpc heq => exact .inr (by rw [heq]; rfl)
    | _ => rename_i heq; exact .inl (by rw [heq]; exact hu)

/-- **The manager's mutex becomes free** again and again: who holds it is in
the middle of a share, and gets on. -/
theorem exists_free (hfair : Fair E) (n : ℕ) : ∃ m, n ≤ m ∧ (E.state m).service.holder = none := by
  by_contra hnever
  obtain ⟨u, hu⟩ : ∃ u, (E.state n).service.holder = some u :=
    Option.ne_none_iff_exists'.mp fun hnone => hnever ⟨n, le_rfl, hnone⟩
  have hheld : ∀ m, n ≤ m → (E.state m).service.holder = some u := by
    intro m hm
    refine stays (P := fun d : Deployment => d.service.holder = some u) hm hu
      fun j a hj _ haction hsame => ?_
    exact (holder_of_step (E.moved j a haction) hsame).resolve_right fun hnone =>
      hnever ⟨j + 1, by omega, hnone⟩
  -- so it is in the middle forever, with less ahead each time
  have hdescends : ∀ x : ℕ ×ₗ ℕ, ∀ m, n ≤ m →
      ((E.state m).service.handlers u).ahead = x → False := by
    intro x
    induction x using WellFoundedLT.induction with
    | _ x ih =>
      intro m hm hahead
      have hsharing := (kept_state m).held u (hheld m hm)
      obtain ⟨j, hj, hlt⟩ := exists_section hfair (HandlerPc.isThrough_of_isSharing hsharing)
        fun hlocking => by
          rw [HandlerPc.isLocking_of_isSharing hsharing] at hlocking
          cases hlocking
      exact ih _ (hahead ▸ hlt) j (hm.trans hj) rfl
  exact hdescends _ n le_rfl rfl

/-- **Every handler comes to its end.** -/
theorem exists_through (hfair : Fair E) (n k : ℕ) :
    ∃ m, n ≤ m ∧ ((E.state m).service.handlers k).isThrough = true := by
  have hdescends : ∀ x : ℕ ×ₗ ℕ, ∀ n, ((E.state n).service.handlers k).ahead = x →
      ∃ m, n ≤ m ∧ ((E.state m).service.handlers k).isThrough = true := by
    intro x
    induction x using WellFoundedLT.induction with
    | _ x ih =>
      intro n hahead
      by_cases hthrough : ((E.state n).service.handlers k).isThrough = true
      · exact ⟨n, le_rfl, hthrough⟩
      · obtain ⟨m, hm, hlt⟩ := exists_section hfair (Bool.eq_false_iff.mpr hthrough)
          fun _ m _ => exists_free hfair m
        obtain ⟨j, hj, hends⟩ := ih _ (hahead ▸ hlt) m rfl
        exact ⟨j, hm.trans hj, hends⟩
  exact hdescends _ n rfl

/-! ## What was called before -/

theorem created_mono (hle : n ≤ m) : (E.state n).service.created ≤ (E.state m).service.created := by
  refine stays (P := fun d : Deployment => (E.state n).service.created ≤ d.service.created) hle
    le_rfl fun j a _ _ haction hsofar => ?_
  cases served_of_step (E.moved j a haction) with
  | still hservice => rwa [hservice]
  | received call hservice =>
    rw [hservice]
    exact hsofar.trans (Nat.le_succ _)
  | handled _ _ hsection => rwa [hsection.created]
  | later _ hservice => rwa [hservice]

theorem steps_mono (hle : n ≤ m) : (E.state n).history.steps ≤ (E.state m).history.steps := by
  refine stays (P := fun d : Deployment => (E.state n).history.steps ≤ d.history.steps) hle
    le_rfl fun j a _ _ haction hsofar => ?_
  rw [(effect_of_step (E.moved j a haction)).2]
  exact hsofar.trans (Nat.le_succ _)

/-- **A handler that is through** stays where it is. -/
theorem handlers_of_isThrough (hk : k < (E.state n).service.created) (hle : n ≤ m)
    (h : ((E.state n).service.handlers k).isThrough = true) :
    (E.state m).service.handlers k = (E.state n).service.handlers k := by
  refine stays (P := fun d : Deployment => d.service.handlers k = _) hle rfl
    fun j a hj _ haction hsame => ?_
  have hold := hk.trans_le (created_mono hj)
  cases served_of_step (E.moved j a haction) with
  | still hservice => rwa [hservice]
  | received call hservice => rwa [hservice, ServiceState.handlers_receive, if_neg hold.ne]
  | later _ hservice => rwa [hservice]
  | @handled handler readings now _ _ hsection =>
    rw [hsection.handlers_of_ne, hsame]
    rintro rfl
    rw [← hsame, hsection.isThrough] at h
    cases h

/-- **All that was called before a time** is over from some time on. -/
theorem exists_over (hfair : Fair E) (n : ℕ) : ∃ m, n ≤ m ∧ ∀ j, m ≤ j →
    ∀ k < (E.state n).service.created, ((E.state j).service.handlers k).isThrough = true := by
  have hall : ∀ᶠ m in Filter.atTop, ∀ k ∈ Finset.range (E.state n).service.created,
      ((E.state m).service.handlers k).isThrough = true := by
    refine (Filter.eventually_all_finset _).mpr fun k hk => ?_
    obtain ⟨m, hm, hthrough⟩ := exists_through hfair n k
    have hcreated := (Finset.mem_range.mp hk).trans_le (created_mono hm)
    refine Filter.eventually_atTop.mpr ⟨m, fun j hj => ?_⟩
    rw [handlers_of_isThrough hcreated hj hthrough]
    exact hthrough
  obtain ⟨m, hm⟩ := Filter.eventually_atTop.mp hall
  exact ⟨max n m, le_max_left n m, fun j hj k hk =>
    hm j ((le_max_right n m).trans hj) k (Finset.mem_range.mpr hk)⟩

/-! ## While nobody calls -/

theorem Calm.mono (h : Calm E n) (hle : n ≤ m) : Calm E m where
  quiet j a hj := h.quiet j a (hle.trans hj)
  registered j hj := h.registered j (hle.trans hj)

/-- **What was asked of the clients stays.** -/
theorem Calm.asked (h : Calm E n) (hle : n ≤ m) (c : ClientId) :
    ((E.state m).nodes c).phase = ((E.state n).nodes c).phase ∧
      ((E.state m).nodes c).resourceInterests = ((E.state n).nodes c).resourceInterests := by
  refine stays (P := fun d : Deployment => (d.nodes c).phase = ((E.state n).nodes c).phase ∧
    (d.nodes c).resourceInterests = ((E.state n).nodes c).resourceInterests) hle ⟨rfl, rfl⟩
    fun j a hj _ haction hsofar => ?_
  obtain ⟨hphase, hinterests⟩ := asked_of_step (h.quiet j a hj haction) (E.moved j a haction) c
  exact ⟨hphase.trans hsofar.1, hinterests.trans hsofar.2⟩

/-- The same clients run. -/
theorem Calm.isRunning_iff (h : Calm E n) (hle : n ≤ m) (c : ClientId) :
    (E.state m).IsRunning c ↔ (E.state n).IsRunning c := by
  rw [IsRunning, IsRunning, (h.asked hle c).1]

theorem Calm.live (h : Calm E n) (hruns : (E.state n).IsRunning c) (hle : n ≤ m) :
    c ∈ (E.state m).service.present.clients :=
  (h.registered m hle c).mpr ((h.isRunning_iff hle c).mpr hruns)

/-- **All calls made since are heartbeats** with what was asked of their
clients. -/
theorem Calm.heartbeat (h : Calm E n) (hle : n ≤ m) (hk : (E.state n).service.created ≤ k) :
    (E.state m).service.handlers k = .idle ∨ ∃ c stage,
      (E.state m).service.handlers k =
        .heartbeat c ((E.state n).nodes c).resourceInterests stage := by
  refine stays (P := fun d : Deployment => d.service.handlers k = .idle ∨ ∃ c stage,
    d.service.handlers k = .heartbeat c ((E.state n).nodes c).resourceInterests stage) hle
    (.inl ((consistent_state n).sane.fresh k hk)) fun j a hj _ haction hsofar => ?_
  cases calmly_of_step (h.quiet j a hj haction) (E.moved j a haction) with
  | still hservice => rwa [hservice]
  | @sent c hservice =>
    rw [hservice, ServiceState.handlers_receive]
    split
    · have hasked := (h.asked hj c).2
      rw [hasked]
      obtain ⟨stage, hentry⟩ :=
        ServiceState.exists_entry c ((E.state n).nodes c).resourceInterests
      exact .inr ⟨c, stage, hentry⟩
    · exact hsofar
  | later _ hservice => rwa [hservice]
  | @handled handler readings now _ hsection =>
    by_cases hself : k = handler
    · subst hself
      rcases hsofar with hidle | ⟨c, stage, hpc⟩
      · exact absurd hidle (HandlerPc.ne_idle_of_busy hsection.isThrough)
      · have hrequest := hsection.request k
        rw [hpc] at hrequest
        obtain ⟨stage', hpc'⟩ := HandlerPc.exists_stage hrequest
        exact .inr ⟨c, stage', hpc'⟩
    · rwa [hsection.handlers_of_ne hself]

/-! ## Every sender goes on -/

/-- A sender of a client that runs can go on, if what it waits for is
answered. -/
theorem enabled_beat (hruns : d.IsRunning c)
    (hrests : (d.nodes c).senders sender = .resting → sender = .heartbeatLoop)
    (hwaits : ∀ call, (d.nodes c).senders sender = .waiting call →
      (d.service.handlers call).isAnswered = true) :
    (deploymentSystem heartbeatTimeout).Enabled (DeploymentAction.IsBeatOf c sender) d := by
  have hphase : (d.nodes c).phase = .running := hruns
  cases hpc : (d.nodes c).senders sender with
  | resting =>
    obtain rfl := hrests hpc
    refine ⟨.wake c, ⟨rfl, rfl⟩, ?_⟩
    simp [deploymentSystem, step, act, hphase, hpc]
  | sending =>
    refine ⟨.sendHeartbeat c sender, ⟨rfl, rfl⟩, ?_⟩
    simp [deploymentSystem, step, act, hpc]
  | waiting call =>
    obtain ⟨c', ids, status, response, hanswer⟩ := exists_of_isAnswered (hwaits call hpc)
    refine ⟨.answer c sender fun _ => 0, ⟨rfl, rfl⟩, ?_⟩
    simp [deploymentSystem, step, act, hpc, hanswer]

/-- **What a client waits for is answered** at last. -/
theorem exists_answered (hfair : Fair E) {call : ℕ}
    (hwaits : ((E.state n).nodes c).senders sender = .waiting call) :
    ∃ m, n ≤ m ∧ ∀ j, m ≤ j → ((E.state j).service.handlers call).isAnswered = true := by
  obtain ⟨m, hm, hthrough⟩ := exists_through hfair n call
  have hcall : ∀ j, n ≤ j → (E.state j).IsCall c call := by
    intro j hj
    refine stays (P := fun d : Deployment => d.IsCall c call) hj
      ((consistent_state n).waits c sender call hwaits) fun i a _ _ haction hi => ?_
    exact (consistent_state i).isCall_step (effect_of_step (E.moved i a haction)).1 hi
  have hcreated : ∀ j, n ≤ j → call < (E.state j).service.created := by
    intro j hj
    by_contra hnew
    obtain ⟨ids, hids⟩ := hcall j hj
    rw [(consistent_state j).sane.fresh call (not_lt.mp hnew)] at hids
    cases hids
  refine ⟨m, hm, fun j hj => ?_⟩
  rw [handlers_of_isThrough (hcreated m hm) hj hthrough]
  obtain ⟨ids, hids⟩ := hcall m hm
  obtain ⟨stage, hpc⟩ := HandlerPc.exists_stage hids
  rw [hpc] at hthrough ⊢
  cases stage <;> first | rfl | cases hthrough

/-- **Where a sender goes on** from where it is. -/
inductive Onward (d d' : Deployment) (c : ClientId) (sender : Sender) : SenderPc → Prop
  | woke (hsender : (d'.nodes c).senders sender = .sending) : Onward d d' c sender .resting
  | sent (hsender : (d'.nodes c).senders sender = .waiting d.service.created) :
      Onward d d' c sender .sending
  | answered {call : ℕ} {ids : Finset ResourceId} {status : Status} {response : HeartbeatResponse}
      {now : ResourceId → TimePoint}
      (hpc : d.service.handlers call = .heartbeat c ids (.answered status response))
      (hnode : d'.nodes c = ((d.nodes c).receiveAnswer call status response now).goto sender
        .resting) : Onward d d' c sender (.waiting call)

/-- A sender that moves goes on. -/
theorem Calm.onward (h : Calm E n) (hle : n ≤ m) (haction : E.action m = some a) (c : ClientId)
    (sender : Sender) :
    (¬ a.IsBeatOf c sender ∧
      ((E.state (m + 1)).nodes c).senders sender = ((E.state m).nodes c).senders sender) ∨
    Onward (E.state m) (E.state (m + 1)) c sender (((E.state m).nodes c).senders sender) := by
  cases beat_of_step (h.quiet m a hle haction) (E.moved m a haction) c sender with
  | stayed hother hsender => exact .inl ⟨hother, hsender⟩
  | woke _ hresting hsender =>
    rw [hresting]
    exact .inr (.woke hsender)
  | sent hsends hsender =>
    rw [hsends]
    exact .inr (.sent hsender)
  | answered hwaits hpc hnode =>
    obtain rfl := (consistent_state m).client_of_waiting hwaits hpc
    rw [hwaits]
    exact .inr (.answered hpc hnode)

/-- **Every sender goes on**; that in `Start` may also rest for good. -/
theorem Calm.exists_onward (hfair : Fair E) (h : Calm E n) (hruns : (E.state n).IsRunning c)
    {pc : SenderPc} (hpc : ((E.state n).nodes c).senders sender = pc)
    (hrests : pc = .resting → sender = .heartbeatLoop) :
    ∃ m, n ≤ m ∧ Onward (E.state m) (E.state (m + 1)) c sender pc := by
  by_contra hnever
  have hforever : ∀ m, n ≤ m → ((E.state m).nodes c).senders sender = pc := by
    intro m hm
    refine stays (P := fun d : Deployment => (d.nodes c).senders sender = pc) hm hpc
      fun j a hj _ haction hsame => ?_
    rcases h.onward hj haction c sender with ⟨-, hkept⟩ | honward
    · exact hkept.trans hsame
    · rw [hsame] at honward
      exact absurd ⟨j, hj, honward⟩ hnever
  -- what it waits for, if it does, is answered from some time on
  obtain ⟨m₀, hm₀, hanswered⟩ : ∃ m₀, n ≤ m₀ ∧ ∀ j, m₀ ≤ j → ∀ call, pc = .waiting call →
      ((E.state j).service.handlers call).isAnswered = true := by
    cases hwhere : pc with
    | waiting call =>
      obtain ⟨m₀, hm₀, hanswered⟩ := exists_answered hfair (hpc.trans hwhere)
      exact ⟨m₀, hm₀, fun j hj call' heq => SenderPc.waiting.inj heq ▸ hanswered j hj⟩
    | _ => exact ⟨n, le_rfl, fun j _ call heq => by cases heq⟩
  obtain ⟨m, hm, a, haction, hbeat⟩ := hfair.senders c sender m₀ fun m hm => by
    have hpcm := hforever m (hm₀.trans hm)
    exact enabled_beat ((h.isRunning_iff (hm₀.trans hm) c).mpr hruns)
      (fun hresting => hrests (hpcm.symm.trans hresting))
      fun call hwaiting => hanswered m hm call (hpcm.symm.trans hwaiting)
  rcases h.onward (hm₀.trans hm) haction c sender with ⟨hother, -⟩ | honward
  · exact hother hbeat
  · rw [hforever m (hm₀.trans hm)] at honward
    exact hnever ⟨m, hm₀.trans hm, honward⟩

/-! ## Calls made since -/

/-- A sender waits for no call but those from some number on. -/
def WaitsFrom (d : Deployment) (calls : ℕ) (c : ClientId) (sender : Sender) : Prop :=
  ∀ call, (d.nodes c).senders sender = .waiting call → calls ≤ call

/-- It waits for none it makes from then on either. -/
theorem Onward.waitsFrom {calls : ℕ} {pc : SenderPc} (h : Onward d d' c sender pc)
    (hcalls : calls ≤ d.service.created) : WaitsFrom d' calls c sender := by
  intro call hcall
  cases h with
  | woke hsender =>
    rw [hsender] at hcall
    cases hcall
  | sent hsender => exact SenderPc.waiting.inj (hsender.symm.trans hcall) ▸ hcalls
  | answered hpc hnode =>
    rw [hnode, ClientNode.goto_senders_self] at hcall
    cases hcall

/-- **A sender comes through** with what it waits for. -/
theorem Calm.exists_waitsFrom (hfair : Fair E) (h : Calm E n) (hruns : (E.state n).IsRunning c)
    (sender : Sender) : ∃ m, n ≤ m ∧ ∀ j, m ≤ j →
      WaitsFrom (E.state j) (E.state n).service.created c sender := by
  obtain ⟨m, hm, hw⟩ : ∃ m, n ≤ m ∧
      WaitsFrom (E.state m) (E.state n).service.created c sender := by
    cases hpc : ((E.state n).nodes c).senders sender with
    | waiting call =>
      obtain ⟨m, hm, honward⟩ := h.exists_onward hfair hruns hpc fun heq => by cases heq
      exact ⟨m + 1, by omega, honward.waitsFrom (created_mono hm)⟩
    | _ => exact ⟨n, le_rfl, fun call hcall => by rw [hpc] at hcall; cases hcall⟩
  refine ⟨m, hm, fun j hj => stays
    (P := fun d : Deployment => WaitsFrom d (E.state n).service.created c sender) hj hw
    fun i a hi _ haction hsofar => ?_⟩
  rcases h.onward (hm.trans hi) haction c sender with ⟨-, hkept⟩ | honward
  · exact fun call hcall => hsofar call (hkept.symm.trans hcall)
  · exact honward.waitsFrom (created_mono (hm.trans hi))

/-- **The heartbeats of a client from some call on** are computed from a
state or later ones, and answered `OK`. -/
structure Recent (d : Deployment) (c : ClientId) (calls point : ℕ) : Prop where
  computed : ∀ k ids stage, calls ≤ k → d.service.handlers k = .heartbeat c ids stage →
    stage.readBack = true → point ≤ d.history.computedFrom k
  accepted : ∀ k ids status response, calls ≤ k →
    d.service.handlers k = .heartbeat c ids (.answered status response) → status.code = .ok

/-- Where a heartbeat comes from: it was there, was made by the step, or ran
its section. -/
theorem heartbeat_of_step (h : d.step a = some d')
    (hpc : d'.service.handlers k = .heartbeat c ids stage) :
    d.service.handlers k = .heartbeat c ids stage ∨
      (∃ call : ServiceCall, call.entry = .heartbeat c ids stage) ∨
      ∃ readings now, d.service.Section d'.service k readings now := by
  cases served_of_step h with
  | still hservice => exact .inl (hservice ▸ hpc)
  | received call hservice =>
    rw [hservice, ServiceState.handlers_receive] at hpc
    split at hpc
    · exact .inr (.inl ⟨call, hpc⟩)
    · exact .inl hpc
  | later _ hservice => exact .inl (by rwa [hservice] at hpc)
  | @handled handler readings now _ _ hsection =>
    by_cases hself : k = handler
    · subst hself
      exact .inr (.inr ⟨readings, now, hsection⟩)
    · exact .inl (by rwa [hsection.handlers_of_ne hself] at hpc)

/-- **They stay so with every step** as long as the client is live. -/
theorem Recent.step {calls point : ℕ} (h : Recent d c calls point) (hs : d.service.Sane)
    (hkept : d.service.Kept) (hlive : c ∈ d.service.present.clients)
    (hpoint : point ≤ d.history.steps) (hstep : d.step a = some d') :
    Recent d' c calls point := by
  have hregistered := ServiceState.mem_clients_of_mem_present hlive
  have hfrom : ∀ k, point ≤ d.history.computedFrom k → point ≤ d'.history.computedFrom k := by
    intro k hk
    rw [(effect_of_step hstep).2]
    rcases History.computedFrom_observe d.history d.service d'.service k with hsame | ⟨hnow, -⟩
    · rwa [hsame]
    · rwa [hnow]
  refine ⟨fun k ids stage hk hpc hback => ?_, fun k ids status response hk hpc => ?_⟩
  · rcases heartbeat_of_step hstep hpc with hold | ⟨call, hentry⟩ | ⟨readings, now, hsection⟩
    · exact hfrom k (h.computed k ids stage hk hold hback)
    · rw [(ServiceState.entry_of_heartbeat hentry).2.2] at hback
      cases hback
    · obtain ⟨old, hold, hprogress⟩ := hsection.progress hs hpc
      cases hprogress with
      | early hnot =>
        rw [hnot] at hback
        cases hback
      | read hstage =>
        -- the interests are read back in this very state
        subst hstage
        have hreads : (d.service.handlers k).isReading = true := by rw [hold]; rfl
        have hread : ¬ (d'.service.handlers k).isReading = true := by
          rw [hpc, ServiceState.isReading_of_readBack hback]
          exact Bool.false_ne_true
        rw [(effect_of_step hstep).2, History.observe]
        dsimp only
        rwa [if_pos ⟨hreads, hread⟩]
      | kept hback' => exact hfrom k (h.computed k ids old hk hold hback')
      | shared hback' => exact hfrom k (h.computed k ids old hk hold hback')
  · rcases heartbeat_of_step hstep hpc with hold | ⟨call, hentry⟩ | ⟨readings, now, hsection⟩
    · exact h.accepted k ids status response hk hold
    · cases ServiceState.stage_of_entry hentry (hkept.named c hregistered)
    · refine (hsection.answered hpc).resolve_right fun hnone => ?_
      exact OrderedMap.not_mem_iff.mpr hnone hregistered

/-- **So are all that a client makes that runs.** -/
theorem Calm.recent (h : Calm E n) (hruns : (E.state n).IsRunning c) (hle : n ≤ m) :
    Recent (E.state m) c (E.state n).service.created (E.state n).history.steps := by
  refine stays (P := fun d : Deployment =>
    Recent d c (E.state n).service.created (E.state n).history.steps) hle ?_
    fun j a hj _ haction hrecent => ?_
  · -- none was made yet
    have hnone := (consistent_state (E := E) n).sane.fresh
    refine ⟨fun k ids stage hk hpc => ?_, fun k ids status response hk hpc => ?_⟩ <;>
    · rw [hnone k hk] at hpc
      cases hpc
  · exact hrecent.step (consistent_state j).sane (kept_state j) (h.live hruns hj) (steps_mono hj)
      (E.moved j a haction)

/-! ## Everybody hears -/

/-- A client holds the allocations of a call from some number on. -/
def Heard (d : Deployment) (calls : ℕ) (c : ClientId) : Prop :=
  ∃ call, (d.nodes c).applied = some call ∧ calls ≤ call

/-- **The heartbeat thread brings an answer of that kind**, from wherever it
is. -/
theorem Calm.exists_heard (hfair : Fair E) (h : Calm E n) (hruns : (E.state n).IsRunning c)
    (hle : n ≤ m) (hw : WaitsFrom (E.state m) (E.state n).service.created c .heartbeatLoop) :
    ∃ k, m ≤ k ∧ Heard (E.state k) (E.state n).service.created c := by
  have honward : ∀ {m pc}, n ≤ m → ((E.state m).nodes c).senders .heartbeatLoop = pc →
      ∃ k, m ≤ k ∧ Onward (E.state k) (E.state (k + 1)) c .heartbeatLoop pc :=
    fun hm hpc => (h.mono hm).exists_onward hfair ((h.isRunning_iff hm c).mpr hruns) hpc
      fun _ => rfl
  have hwaiting : ∀ m call, n ≤ m → (E.state n).service.created ≤ call →
      ((E.state m).nodes c).senders .heartbeatLoop = .waiting call →
      ∃ k, m ≤ k ∧ Heard (E.state k) (E.state n).service.created c := by
    intro m call hm hcall hpc
    obtain ⟨k, hk, hnext⟩ := honward hm hpc
    cases hnext with
    | answered hanswer hnode =>
      have hok := (h.recent hruns (hm.trans hk)).accepted call _ _ _ hcall hanswer
      exact ⟨k + 1, by omega, call, by rw [applied_answered hnode, if_pos hok], hcall⟩
  have hsending : ∀ m, n ≤ m → ((E.state m).nodes c).senders .heartbeatLoop = .sending →
      ∃ k, m ≤ k ∧ Heard (E.state k) (E.state n).service.created c := by
    intro m hm hpc
    obtain ⟨j, hj, hnext⟩ := honward hm hpc
    cases hnext with
    | sent hsender =>
      obtain ⟨k, hk, hheard⟩ := hwaiting (j + 1) _ (by omega) (created_mono (hm.trans hj)) hsender
      exact ⟨k, by omega, hheard⟩
  cases hpc : ((E.state m).nodes c).senders .heartbeatLoop with
  | waiting call => exact hwaiting m call hle (hw call hpc) hpc
  | sending => exact hsending m hle hpc
  | resting =>
    obtain ⟨j, hj, hnext⟩ := honward hle hpc
    cases hnext with
    | woke hsender =>
      obtain ⟨k, hk, hheard⟩ := hsending (j + 1) (by omega) hsender
      exact ⟨k, by omega, hheard⟩

/-- **It is not overwritten by an older one**, once no sender waits for one. -/
theorem Calm.heard_stays (h : Calm E n) (hruns : (E.state n).IsRunning c) {calls : ℕ}
    (hw : ∀ k, m ≤ k → ∀ sender, WaitsFrom (E.state k) calls c sender) (hle : n ≤ m)
    (hmk : m ≤ k) (hheard : Heard (E.state m) calls c) : Heard (E.state k) calls c := by
  refine stays (P := fun d : Deployment => Heard d calls c) hmk hheard
    fun j a hj _ haction hsofar => ?_
  obtain ⟨call, happlied, hcall⟩ := hsofar
  cases (consistent_state j).effectOn (effect_of_step (E.moved j a haction)).1 c with
  | alike hnode => exact ⟨call, hnode.applied.trans happlied, hcall⟩
  | cleared hnode =>
    -- it would not run any more
    have hrunsj : (E.state (j + 1)).IsRunning c := (h.isRunning_iff (by omega) c).mpr hruns
    rw [IsRunning, hnode] at hrunsj
    cases hrunsj
  | @answered sender now call' ids status response _ hwaits hpc hnode =>
    rw [Heard, applied_answered hnode]
    split
    · exact ⟨call', rfl, hw j hj sender call' hwaits⟩
    · exact ⟨call, happlied, hcall⟩

/-- **Everybody hears for good**: from some time on what a client that runs
has applied last are the allocations of a call made since. -/
theorem Calm.eventually_heard (hfair : Fair E) (h : Calm E n) (hruns : (E.state n).IsRunning c) :
    ∀ᶠ k in Filter.atTop, Heard (E.state k) (E.state n).service.created c := by
  obtain ⟨m₁, hm₁, hstart⟩ := h.exists_waitsFrom hfair hruns .start
  obtain ⟨m₂, hm₂, hloop⟩ := h.exists_waitsFrom hfair hruns .heartbeatLoop
  have hboth : ∀ k, max m₁ m₂ ≤ k → ∀ sender,
      WaitsFrom (E.state k) (E.state n).service.created c sender := by
    intro k hk sender
    cases sender with
    | start => exact hstart k (by omega)
    | heartbeatLoop => exact hloop k (by omega)
  obtain ⟨m, hm, hheard⟩ := h.exists_heard hfair hruns (m := max m₁ m₂) (by omega)
    (hboth _ le_rfl .heartbeatLoop)
  exact Filter.eventually_atTop.mpr ⟨m, fun k hk => h.heard_stays hruns
    (fun j hj => hboth j (hm.trans hj)) (by omega) hk hheard⟩

end Deployment

end Throttling
