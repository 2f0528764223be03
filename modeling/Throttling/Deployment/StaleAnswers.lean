import Throttling.Deployment.Helpers.Steps
/-!
# Stale heartbeats

`Start` sends a heartbeat while the heartbeat thread may send others, and
neither requests nor answers are numbered. Where one overtakes another of
the same client, old interests are recorded over new ones, or an old
answer is applied over a newer one (`overtakenHeartbeat_not_newestWins`).
Where whatever is overtaken comes to the same, the newest wins.
-/

namespace Throttling

open ClientRegistry

/-! ## What is recorded -/

namespace ServiceState

variable {s s' : ServiceState} {b : ServiceAction} {c : ClientId} {k : ℕ}
variable {ids : Finset ResourceId}

/-- A request has recorded nothing. -/
theorem recorded_entry (call : ServiceCall) : call.entry.recorded = none := by
  cases call with
  | unregisterClient c => rfl
  | _ => simp only [ServiceCall.entry]; split <;> rfl

theorem recorded_eq_some {pc : HandlerPc} :
    pc.recorded = some (c, ids) ↔
      ∃ stage, pc = .heartbeat c ids stage ∧ stage.hasRecorded = true := by
  cases pc with
  | heartbeat c' ids' stage =>
    simp only [HandlerPc.recorded, HandlerPc.hasRecorded, HandlerPc.request]
    by_cases hrecorded : stage.hasRecorded = true
    · simp [hrecorded]
    · simp [hrecorded]
  | _ => simp [HandlerPc.recorded, HandlerPc.hasRecorded]

/-- What is answered `OK` is recorded. -/
theorem recorded_of_okAnswer {pc : HandlerPc} (h : pc.okAnswer.isSome = true) :
    pc.recorded = pc.request := by
  cases pc with
  | heartbeat c ids stage =>
    cases stage with
    | answered status response =>
      rw [HandlerPc.okAnswer] at h
      split at h
      · rename_i hok
        exact if_pos (decide_eq_true hok)
      · cases h
    | _ => cases h
  | _ => cases h

theorem recording_eq_some {pc : HandlerPc} :
    pc.recording = some (c, ids) ↔ pc = .heartbeat c ids .recording := by
  cases pc with
  | heartbeat c' ids' stage => cases stage <;> simp [HandlerPc.recording]
  | _ => simp [HandlerPc.recording]

/-- What is recorded stays so. -/
theorem recorded_step (hs : Sane s) (h : s.step b = some s')
    (hk : (s.handlers k).recorded = some (c, ids)) :
    (s'.handlers k).recorded = some (c, ids) := by
  rcases step_cases h with ⟨call, rfl⟩ | ⟨handler, readings, now, -, hsection⟩ | ⟨now, -, rfl⟩
  · have hne : k ≠ s.created := by
      rintro rfl
      rw [hs.fresh _ le_rfl] at hk
      cases hk
    rw [handlers_receive, if_neg hne, hk]
  · by_cases hne : k = handler
    · subst hne
      obtain ⟨stage, hstage, hrecorded⟩ := recorded_eq_some.mp hk
      rw [recorded_eq_some]
      cases hsection <;>
      · rename_i hpc heq
        rw [hpc] at hstage
        cases hstage <;> first
          | exact ⟨_, by rw [heq, goto_self], rfl⟩
          | exact ⟨_, by rw [heq, goto_self], HeartbeatStage.hasRecorded_next⟩
          | cases hrecorded
    · rw [hsection.handlers_of_ne hne, hk]
  · exact hk

/-- **A recorded heartbeat** was so before, or its interests are those on
record now. -/
theorem recorded_of_step (h : s.step b = some s')
    (hk : (s'.handlers k).recorded = some (c, ids)) :
    (s.handlers k).recorded = some (c, ids) ∨ s'.registry.interests[c]? = some ids := by
  rcases step_cases h with ⟨call, rfl⟩ | ⟨handler, readings, now, -, hsection⟩ | ⟨now, -, rfl⟩
  · rw [handlers_receive] at hk
    split at hk
    · rw [recorded_entry] at hk
      cases hk
    · exact .inl hk
  · by_cases hne : k = handler
    · subst hne
      obtain ⟨stage, hstage, hrecorded⟩ := recorded_eq_some.mp hk
      rcases hsection.hasRecorded hstage hrecorded with
        ⟨old, hold, hrecorded'⟩ | ⟨-, -, info, hfound, heq⟩
      · exact .inl (recorded_eq_some.mpr ⟨old, hold, hrecorded'⟩)
      · right
        rw [heq]
        exact lookup_interests_heartbeatLocked hfound now
    · rw [hsection.handlers_of_ne hne] at hk
      exact .inl hk
  · exact .inl hk

/-- **What a step does to the interests on record**: nothing, but for a
client that is new or dropped, or whose heartbeat is recorded. -/
theorem interests_step (h : s.step b = some s') (c : ClientId) :
    s'.registry.interests[c]? = s.registry.interests[c]? ∨ s.registry.interests[c]? = none ∨
    (c ∈ s.registry.clients ∧ c ∉ s'.registry.clients) ∨
    ∃ handler readings now ids, b = .handlerSection handler readings now ∧
      (s.handlers handler).recording = some (c, ids) ∧ c ∈ s.registry.clients ∧
      (s'.handlers handler).recorded = some (c, ids) ∧
      s'.registry.interests[c]? = some ids := by
  cases b with
  | receive call =>
    rw [← Option.some.inj h]
    exact .inl rfl
  | handlerSection handler readings now =>
    have hsection := (section_of_handlerSection h).2
    refine (interests_section hsection c).imp_right (Or.imp_right (Or.imp_right ?_))
    rintro ⟨ids, hpc, hmem, hpc', hinterests⟩
    exact ⟨handler, readings, now, ids, rfl, recording_eq_some.mpr hpc, hmem,
      recorded_eq_some.mpr ⟨_, hpc', rfl⟩, hinterests⟩
  | tick now =>
    simp only [step] at h
    split at h
    · rw [← Option.some.inj h]
      exact .inl rfl
    · cases h

end ServiceState

namespace Deployment

variable {heartbeatTimeout : ℕ} {d d' : Deployment} {a : DeploymentAction} {c : ClientId} {k : ℕ}

/-! ## What a heartbeat sends -/

/-- **A heartbeat's request is the snapshot of the interests** it was made
with. -/
theorem request_sendHeartbeat {sender : Sender} (h : d.step (.sendHeartbeat c sender) = some d') :
    (d'.service.handlers d.service.created).request =
      some (c, (d.nodes c).resourceInterests) := by
  obtain ⟨d₁, hact, rfl⟩ := Option.map_eq_some_iff.mp h
  simp only [act] at hact
  split at hact
  · obtain rfl := Option.some.inj hact
    have hpc := ServiceState.handlers_receive d.service
      (.heartbeat c (d.nodes c).resourceInterests.ascending) d.service.created
    rw [if_pos rfl] at hpc
    refine (congrArg HandlerPc.request hpc).trans ?_
    rw [ServiceCall.entry, HandlerPc.request]
    congr 2
    ext r
    simp
  · cases hact

theorem Consistent.lt_created_of_isCall (hd : Consistent d) (hk : d.IsCall c k) :
    k < d.service.created := by
  by_contra hle
  obtain ⟨ids, hids⟩ := hk
  rw [hd.sane.fresh k (not_lt.mp hle)] at hids
  cases hids

theorem isCall_of_recorded {ids : Finset ResourceId}
    (hk : (d.service.handlers k).recorded = some (c, ids)) : d.IsCall c k := by
  obtain ⟨stage, hstage, -⟩ := ServiceState.recorded_eq_some.mp hk
  exact ⟨ids, by rw [hstage]; rfl⟩

/-! ## The interests on record -/

/-- **On record for a client are the interests it sent last**, of those that
were recorded, unless it was dropped since it sent them. -/
def RecordsNewest (d : Deployment) : Prop :=
  ∀ c k ids, (d.service.handlers k).recorded = some (c, ids) →
    (∀ k' ids', k < k' → (d.service.handlers k').recorded ≠ some (c, ids')) →
    d.history.droppedAt c ≤ k → d.service.registry.interests[c]? = some ids

/-- The one with nothing later on record is the newest. -/
theorem isNewestRecorded_of_recorded {ids : Finset ResourceId}
    (hk : (d.service.handlers k).recorded = some (c, ids)) (hdropped : d.history.droppedAt c ≤ k)
    (hlater : ∀ k' ids', k < k' → (d.service.handlers k').recorded ≠ some (c, ids')) :
    d.IsNewestRecorded c k := by
  refine ⟨by rw [hk]; rfl, hdropped, fun k' _ hlt hk' => ?_⟩
  obtain ⟨⟨c', ids'⟩, hrecorded, rfl⟩ := Option.map_eq_some_iff.mp hk'
  exact hlater k' ids' hlt hrecorded

theorem Consistent.recordsNewest_step (hd : Consistent d) (hnewest : RecordsNewest d)
    (horder : d.InOrder a) (h : d.step a = some d') : RecordsNewest d' := by
  intro c k ids hk hlater hdropped
  obtain ⟨heffect, hhistory⟩ := effect_of_step h
  rw [hhistory] at hdropped
  have hquiet : d'.service = d.service → d'.service.registry.interests[c]? = some ids := by
    intro heq
    rw [heq, History.observe_self] at hdropped
    rw [heq] at hk hlater ⊢
    exact hnewest c k ids hk hlater hdropped
  cases heffect with
  | served hstep hsection hnodes hprocessed =>
    have hsane := hd.sane
    rcases ServiceState.recorded_of_step hstep hk with hold | hnow
    · -- it was recorded before; what is later is so, too
      have hlater' : ∀ k' ids', k < k' → (d.service.handlers k').recorded ≠ some (c, ids') :=
        fun k' ids' hlt hk' => hlater k' ids' hlt (ServiceState.recorded_step hsane hstep hk')
      have hbefore : k < d'.service.created :=
        (hd.step h).lt_created_of_isCall (isCall_of_recorded hk)
      rcases History.droppedAt_observe d.history d.service d'.service c with ⟨hkept, heq⟩ | heq
      · rw [heq] at hdropped
        have hinterests := hnewest c k ids hold hlater' hdropped
        rcases ServiceState.interests_step hstep c with hsame | hnone | hgone |
          ⟨handler, readings, now, ids', hb, hrecording, hmem, hrecorded, hinterests'⟩
        · rw [hsame, hinterests]
        · rw [hnone] at hinterests
          cases hinterests
        · exact absurd hgone hkept
        · -- a heartbeat of the client is recorded now: it is not a later one
          rcases lt_trichotomy handler k with hlt | heq | hgt
          · have ha := hsection handler readings now hb
            subst ha
            have hcreated := hd.lt_created_of_isCall (isCall_of_recorded hold)
            have hsame := horder (c, ids') hrecording hmem k hcreated hlt
              (isNewestRecorded_of_recorded hold hdropped hlater')
            rw [hold, Option.some.injEq, Prod.mk.injEq] at hsame
            rw [hinterests', hsame.2]
          · subst heq
            rw [ServiceState.recording_eq_some] at hrecording
            rw [hrecording] at hold
            cases hold
          · exact absurd hrecorded (hlater handler ids' hgt)
      · omega
    · exact hnow
  | quiet hservice => exact hquiet hservice
  | cleared haction hservice => exact hquiet hservice
  | answered haction hwaits hpc hservice => exact hquiet hservice

/-! ## The rates held -/

/-- **A client holds the rates of the answer that was made last**, of those
it is through with, unless it was cleared since it made that call. -/
def RatesLatest (d : Deployment) : Prop :=
  ∀ c k allocations, d.IsCall c k → d.processed k = true →
    (d.service.handlers k).okAnswer = some allocations → (d.nodes c).clearedAt ≤ k →
    (∀ k', d.IsCall c k' → d.processed k' = true → (d.service.handlers k').okAnswer.isSome = true →
      d.history.answeredAt k' ≤ d.history.answeredAt k) →
    ∀ r, d.rate c r = allocations[r]?

/-- **An answer that is overtaken** brings what the later one did. -/
theorem Consistent.allocations_of_inOrder (hd : Consistent d) {sender : Sender}
    {now : ResourceId → TimePoint} {call : ℕ} (horder : d.InOrder (.answer c sender now))
    (hwaits : (d.nodes c).senders sender = .waiting call)
    (hanswered : (d.service.handlers call).isAnswered = true)
    (hk : d.IsLatestTaken c k) (hne : k ≠ call)
    (hle : d.history.answeredAt call ≤ d.history.answeredAt k) :
    (d.service.handlers call).SameAnswer (d.service.handlers k) := by
  have hcall := hd.waits c sender call hwaits
  have hdates : d.history.answeredAt call ≠ d.history.answeredAt k := by
    intro heq
    exact hne (hd.dated.distinct call k hanswered (hd.processed k hk.1.2.1) heq).symm
  have hlt : d.history.answeredAt call < d.history.answeredAt k := by omega
  exact horder call (hd.lt_created_of_isCall hcall) hwaits k (hd.lt_created_of_isCall hk.1.1) hlt hk

theorem Consistent.ratesLatest_step (hd : Consistent d) (hlatest : RatesLatest d)
    (horder : d.InOrder a) (h : d.step a = some d') : RatesLatest d' := by
  intro c k allocations hcall hprocessed hok hcleared hmax r
  obtain ⟨heffect, hhistory⟩ := effect_of_step h
  have hanswered := hd.isAnswered_of_processed heffect hprocessed
  have hcall := hd.isCall_of_answered heffect hanswered hcall
  rw [hd.handlers_of_isAnswered heffect hanswered] at hok
  -- of the answers there were, it is no older than any it is through with now
  have hmax' : ∀ k', d.IsCall c k' → d'.processed k' = true →
      (d.service.handlers k').okAnswer.isSome = true →
      d.history.answeredAt k' ≤ d.history.answeredAt k := by
    intro k' hcall' hprocessed' hok'
    have hanswered' := hd.isAnswered_of_processed heffect hprocessed'
    rw [← hd.handlers_of_isAnswered heffect hanswered'] at hok'
    have hle := hmax k' (hd.isCall_step heffect hcall') hprocessed' hok'
    rwa [hhistory, History.answeredAt_of_answered _ _ hanswered',
      History.answeredAt_of_answered _ _ hanswered] at hle
  have hkept : d.processed k = true → (d'.nodes c).clearedAt = (d.nodes c).clearedAt →
      d'.rate c r = d.rate c r → d'.rate c r = allocations[r]? := by
    intro hold hclear hrate
    rw [hclear] at hcleared
    exact hrate.trans (hlatest c k allocations hcall hold hok hcleared
      (fun k' hcall' hold' => hmax' k' hcall' (heffect.processed_mono hold')) r)
  cases hd.effectOn heffect c with
  | alike hnode hprocessed' =>
    exact hkept ((hprocessed' k hcall).symm.trans hprocessed) hnode.clearedAt (hnode.rates r)
  | cleared hnode hprocessed' =>
    -- every call there is was made before the clearing
    have hmade := hd.lt_created_of_isCall hcall
    have hclear : (d'.nodes c).clearedAt = d.service.created := by rw [hnode]; rfl
    omega
  | @answered sender now call ids status response haction hwaits hpc hnode hprocessed' =>
    have hold : k ≠ call → d.processed k = true := by
      intro hne
      rwa [hprocessed', Function.update_of_ne hne] at hprocessed
    have hrate := hd.rate_answered hpc hnode r
    have hclear : (d'.nodes c).clearedAt = (d.nodes c).clearedAt := by
      rw [hnode, ClientNode.goto, ClientNode.receiveAnswer]
      split <;> rfl
    by_cases hstatus : status.code = .ok
    · rw [if_pos hstatus] at hrate
      have hbrought : (d.service.handlers call).okAnswer = some response.allocations := by
        rw [hpc, HandlerPc.okAnswer, if_pos hstatus]
      by_cases hne : k = call
      · rw [hne, hbrought] at hok
        rw [hrate, Option.some.inj hok]
      · -- it brings older allocations, so the same
        have hle := hmax' call (hd.waits c sender call hwaits)
          (by rw [hprocessed', Function.update_self]) (by rw [hbrought]; rfl)
        have hlatestK : d.IsLatestTaken c k := by
          refine ⟨⟨hcall, hold hne, by rw [hok]; rfl⟩, hclear ▸ hcleared, fun k' _ htaken => ?_⟩
          exact hmax' k' htaken.1 (heffect.processed_mono htaken.2.1) htaken.2.2
        rw [haction] at horder
        have hsame := hd.allocations_of_inOrder horder hwaits (by rw [hpc]; rfl) hlatestK hne hle
        rw [hrate, hsame _ hbrought _ hok]
    · rw [if_neg hstatus] at hrate
      refine hkept (hold fun hk => ?_) hclear hrate
      rw [hk, hpc, HandlerPc.okAnswer, if_neg hstatus] at hok
      cases hok

/-! ## The newest wins -/

/-- **The newest heartbeat wins** in every run in which what is overtaken
comes to the same. -/
theorem newestWins_of_inOrder (h : (deploymentSystem heartbeatTimeout).ReachableVia InOrder d) :
    d.NewestWins := by
  have hall : Consistent d ∧ RecordsNewest d ∧ RatesLatest d := by
    refine GuardedSystem.ReachableVia.invariant
      (P := fun d => Consistent d ∧ RecordsNewest d ∧ RatesLatest d)
      ⟨consistent_init heartbeatTimeout, ?_, ?_⟩ ?_ h
    · intro c k ids hk
      cases hk
    · intro c k allocations hcall hprocessed
      cases hprocessed
    · rintro d a d' ⟨hd, hnewest, hlatest⟩ horder hstep
      exact ⟨hd.step hstep, hd.recordsNewest_step hnewest horder hstep,
        hd.ratesLatest_step hlatest horder hstep⟩
  obtain ⟨-, hnewest, hlatest⟩ := hall
  intro c newest latest hquiet
  refine ⟨fun ids hids => ?_, fun allocations hok => ?_⟩
  · have hok := (hquiet.accepted newest hquiet.newest_isCall).2
    rw [← ServiceState.recorded_of_okAnswer hok] at hids
    refine hnewest c newest ids hids (fun k ids' hlt hk => ?_) hquiet.registered
    have hle := hquiet.newest_max k (isCall_of_recorded hk)
    omega
  · have hprocessed := (hquiet.accepted latest hquiet.latest_isCall).1
    exact hlatest c latest allocations hquiet.latest_isCall hprocessed hok hquiet.kept
      fun k hk _ _ => hquiet.latest_max k hk

/-- Whether a client is quiet is a matter of the calls made so far. -/
theorem Consistent.quiet_of_calls (hd : Consistent d) {newest latest : ℕ}
    (hnewest : d.IsCall c newest) (hlatest : d.IsCall c latest)
    (hcalls : ∀ k < d.service.created, d.IsCall c k → k ≤ newest ∧
      d.history.answeredAt k ≤ d.history.answeredAt latest ∧
      d.processed k = true ∧ (d.service.handlers k).okAnswer.isSome = true)
    (hregistered : d.history.droppedAt c ≤ newest) (hkept : (d.nodes c).clearedAt ≤ latest) :
    d.Quiet c newest latest := by
  have hcalls : ∀ k, d.IsCall c k → k ≤ newest ∧
      d.history.answeredAt k ≤ d.history.answeredAt latest ∧
      d.processed k = true ∧ (d.service.handlers k).okAnswer.isSome = true :=
    fun k hk => hcalls k (hd.lt_created_of_isCall hk) hk
  exact ⟨hnewest, fun k hk => (hcalls k hk).1, hlatest, fun k hk => (hcalls k hk).2.1,
    fun k hk => (hcalls k hk).2.2, hregistered, hkept⟩

/-- After its first heartbeat `"a"` names another resource and sends one
more. -/
def untilRenewed : List DeploymentAction :=
  untilAlone ++ [.answer "a" .start fun _ => 0, .setResourceInterests "a" {2}, .wake "a",
    .sendHeartbeat "a" .heartbeatLoop] ++ sections 3 5 0 ++ [.answer "a" .heartbeatLoop fun _ => 0]

theorem untilRenewed_newestWins :
    ∃ d, (deploymentSystem 30).ReachableVia InOrder d ∧ d.Quiet "a" 3 3 ∧ d.NewestWins := by
  have hrun : ((deploymentSystem 30).runVia InOrder (deploymentSystem 30).init untilRenewed).map
      (fun d => decide (
        (d.IsCall "a" 3 ∧ d.history.droppedAt "a" ≤ 3 ∧ (d.nodes "a").clearedAt ≤ 3) ∧
        ∀ k < d.service.created, d.IsCall "a" k → k ≤ 3 ∧
          d.history.answeredAt k ≤ d.history.answeredAt 3 ∧
          d.processed k = true ∧ (d.service.handlers k).okAnswer.isSome = true)) = some true := by
    decide +kernel
  obtain ⟨d, hd, hchecked⟩ := Option.map_eq_some_iff.mp hrun
  obtain ⟨⟨hcall, hregistered, hkept⟩, hcalls⟩ := of_decide_eq_true hchecked
  have hreach := GuardedSystem.ReachableVia.runVia .init hd
  have hconsistent := consistent_of_reachable hreach.reachable
  exact ⟨d, hreach, hconsistent.quiet_of_calls hcall hcall hcalls hregistered hkept,
    newestWins_of_inOrder hreach⟩

/-! ## An overtaken heartbeat -/

/-- The heartbeat `Start` sends names resource `1`. The thread sends one
with resource `2` later, and that is handled first; but the answer to it
is taken last. -/
def untilOvertaken : List DeploymentAction :=
  starting "a" 1 0 0 ++ [.setResourceInterests "a" {2}, .wake "a",
    .sendHeartbeat "a" .heartbeatLoop] ++ sections 2 5 0 ++ sections 1 5 0 ++
    [.answer "a" .start fun _ => 0, .answer "a" .heartbeatLoop fun _ => 0]

/-- **Neither half holds of every run**: old interests stay on record, and
old rates with the client. -/
theorem overtakenHeartbeat_not_newestWins :
    (¬ ∀ (heartbeatTimeout : ℕ) (d : Deployment), (deploymentSystem heartbeatTimeout).Reachable d →
      ∀ c newest latest ids, d.Quiet c newest latest →
        (d.service.handlers newest).request = some (c, ids) →
        d.service.registry.interests[c]? = some ids) ∧
    ¬ ∀ (heartbeatTimeout : ℕ) (d : Deployment), (deploymentSystem heartbeatTimeout).Reachable d →
      ∀ c newest latest allocations, d.Quiet c newest latest →
        (d.service.handlers latest).okAnswer = some allocations →
        ∀ r, d.rate c r = allocations[r]? := by
  have hrun : ((deploymentSystem 30).runFrom (deploymentSystem 30).init untilOvertaken).map
      (fun d => decide (
        ((d.service.handlers 2).request = some ("a", {2}) ∧ d.IsCall "a" 1 ∧
          d.history.droppedAt "a" ≤ 2 ∧ (d.nodes "a").clearedAt ≤ 1) ∧
        (∀ k < d.service.created, d.IsCall "a" k → k ≤ 2 ∧
          d.history.answeredAt k ≤ d.history.answeredAt 1 ∧
          d.processed k = true ∧ (d.service.handlers k).okAnswer.isSome = true) ∧
        d.service.registry.interests["a"]? = some {1} ∧
        ((d.service.handlers 1).okAnswer = some ((∅ : OrderedMap ResourceId ℚ).insert 1 0) ∧
          d.rate "a" 1 = none))) = some true := by
    decide +kernel
  obtain ⟨d, hd, hchecked⟩ := Option.map_eq_some_iff.mp hrun
  obtain ⟨⟨hrequest, hcall, hregistered, hkept⟩, hcalls, hinterests, hanswer, hrate⟩ :=
    of_decide_eq_true hchecked
  have hreach := GuardedSystem.Reachable.runFrom .init hd
  have hquiet := (consistent_of_reachable hreach).quiet_of_calls ⟨_, hrequest⟩ hcall hcalls
    hregistered hkept
  refine ⟨fun hall => ?_, fun hall => ?_⟩
  · have hwins := hall 30 d hreach "a" 2 1 {2} hquiet hrequest
    rw [hinterests] at hwins
    exact absurd hwins (by decide)
  · have hwins := hall 30 d hreach "a" 2 1 _ hquiet hanswer 1
    rw [hrate, OrderedMap.lookup_insert, if_pos rfl] at hwins
    cases hwins

end Deployment

end Throttling
