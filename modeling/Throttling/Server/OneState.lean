import Throttling.Server.Helpers.Handlers
/-!
# What the answer to a heartbeat describes

The handler records the interests in one section, reads them back in
another and computes every share in two more, and nothing is held from
the first of these to the last. So an answer need not describe one state
of the server (`interleavedAnswer_not_described`). What is true is that
each part of it was read off some state passed from the recording on; and
where nothing the answer reads changed meanwhile, off one.
-/

namespace Throttling

open ClientRegistry ServiceState

variable {heartbeatTimeout : ℤ} {handler : ℕ} {c : ClientId} {ids : Finset ResourceId}
variable {V : List ServiceState} {allocations : OrderedMap ResourceId ℚ}

/-! ## Tracing a handler -/

/-- **Where the parts of an answer come from**, while a handler makes it:
everything it has was read off a state in which the interests were
already recorded. -/
structure StageTraced (V : List ServiceState) (handler : ℕ) (c : ClientId)
    (ids : Finset ResourceId) (stage : HeartbeatStage) : Prop where
  recorded : stage.hasRecorded = true →
    ∃ m ∈ V, (m.handlers handler).hasRecorded = true ∧ m.registry.interests[c]? = some ids
  keys : stage.readBack = true →
    ∃ m ∈ V, (m.handlers handler).hasRecorded = true ∧
      ∀ r, r ∈ stage.toShare ∨ r ∈ stage.allocations ↔ r ∈ m.registry.interestedResourcesLocked c
  values : ∀ r v, stage.allocations[r]? = some v →
    ∃ m ∈ V, (m.handlers handler).hasRecorded = true ∧ v = m.fairShare c r

theorem StageTraced.cons {stage : HeartbeatStage} (h : StageTraced V handler c ids stage)
    (m : ServiceState) : StageTraced (m :: V) handler c ids stage where
  recorded hrecorded := by
    obtain ⟨m', hm', h'⟩ := h.recorded hrecorded
    exact ⟨m', List.mem_cons_of_mem _ hm', h'⟩
  keys hback := by
    obtain ⟨m', hm', h'⟩ := h.keys hback
    exact ⟨m', List.mem_cons_of_mem _ hm', h'⟩
  values r v hv := by
    obtain ⟨m', hm', h'⟩ := h.values r v hv
    exact ⟨m', List.mem_cons_of_mem _ hm', h'⟩

/-- **A section adds what it reads off the state it runs in.** Only what
it records is to be found in the state it leaves. -/
theorem StageTraced.section {m m' : ServiceState} {readings : ClientId → TimePoint}
    {now : TimePoint} {stage stage' : HeartbeatStage} (h : StageTraced V handler c ids stage)
    (hs : Sane m) (hm : m ∈ V) (hsection : Section m m' handler readings now)
    (hpc : m.handlers handler = .heartbeat c ids stage)
    (hpc' : m'.handlers handler = .heartbeat c ids stage') (hstage' : stage' ≠ .interestsExpiring) :
    StageTraced V handler c ids stage' := by
  have hnow : stage.hasRecorded = true → (m.handlers handler).hasRecorded = true := by
    rw [hpc]
    exact id
  have hrecorded : stage'.hasRecorded = true → stage.hasRecorded = true := by
    intro hrec
    rcases hsection.hasRecorded hpc' hrec with ⟨old, hold, hrec'⟩ | ⟨heq, -⟩
    · obtain ⟨-, -, rfl⟩ := HandlerPc.heartbeat.inj (hpc.symm.trans hold)
      exact hrec'
    · exact absurd heq hstage'
  obtain ⟨old, hold, hprogress⟩ := hsection.progress hs hpc'
  obtain ⟨-, -, rfl⟩ := HandlerPc.heartbeat.inj (hpc.symm.trans hold)
  refine ⟨fun hrec => h.recorded (hrecorded hrec), fun hback => ?_, fun r v hv => ?_⟩
  · cases hprogress with
    | early hback' hallocations => rw [hback'] at hback; cases hback
    | read hstage hregistry hstage' =>
      refine ⟨m, hm, hnow (by rw [hstage]; rfl), fun r => ?_⟩
      rw [hstage', HeartbeatStage.toShare_next, HeartbeatStage.allocations_next]
      simp
    | kept hold' hallocations hshare hswept =>
      rw [hallocations, hshare]
      exact h.keys hold'
    | shared hold' hshare hallocations hswept hread =>
      obtain ⟨m₁, hm₁, hrec₁, hkeys⟩ := h.keys hold'
      refine ⟨m₁, hm₁, hrec₁, fun r => ?_⟩
      rw [← hkeys, hshare, hallocations]
      exact OrderedMap.mem_or_mem_insert
  · cases hprogress with
    | early hback' hallocations => simp [hallocations] at hv
    | read hstage hregistry hstage' => simp [hstage'] at hv
    | kept hold' hallocations hshare hswept =>
      rw [hallocations] at hv
      exact h.values r v hv
    | shared hold' hshare hallocations hswept hread =>
      rw [hallocations, OrderedMap.lookup_insert] at hv
      split at hv
      · rename_i hr
        subst hr
        exact ⟨m, hm, hnow (HeartbeatStage.hasRecorded_of_readBack hold'),
          (Option.some.inj hv).symm⟩
      · exact h.values r v hv

/-- The section that records leaves a state with the interests on
record. -/
theorem StageTraced.ofRecording {m m' : ServiceState} {readings : ClientId → TimePoint}
    {now : TimePoint} {stage : HeartbeatStage} (h : StageTraced V handler c ids stage)
    (hsection : Section m m' handler readings now)
    (hpc : m.handlers handler = .heartbeat c ids stage)
    (hpc' : m'.handlers handler = .heartbeat c ids .interestsExpiring) :
    StageTraced (m' :: V) handler c ids .interestsExpiring where
  recorded hrec := by
    rcases hsection.hasRecorded hpc' hrec with ⟨old, hold, hrec'⟩ | ⟨-, -, info, hfound, hregistry⟩
    · obtain ⟨-, -, rfl⟩ := HandlerPc.heartbeat.inj (hpc.symm.trans hold)
      exact (h.cons m').recorded hrec'
    · refine ⟨m', List.mem_cons_self, by rw [hpc']; rfl, ?_⟩
      rw [hregistry]
      exact lookup_interests_heartbeatLocked hfound now
  keys hback := by cases hback
  values r v hv := by simp [HeartbeatStage.allocations] at hv

/-- **A run traces every handler that starts in it.** -/
theorem stageTraced_of_run {s m : ServiceState}
    (hs : (serviceSystem heartbeatTimeout).Reachable s)
    (hstart : s.handlers handler = .heartbeat c ids .expiring)
    (hrun : (serviceSystem heartbeatTimeout).Run s V m) :
    ∃ stage, m.handlers handler = .heartbeat c ids stage ∧
      StageTraced V handler c ids stage := by
  induction hrun with
  | start =>
    refine ⟨_, hstart, ?_, ?_, fun r v hv => ?_⟩
    · intro hrec; cases hrec
    · intro hback; cases hback
    · simp [HeartbeatStage.allocations] at hv
  | @step V m m' a hrun hstep ih =>
    obtain ⟨stage, hpc, htraced⟩ := ih
    have hsane := sane_of_reachable (hrun.reachable hs m hrun.last_mem)
    rcases step_cases hstep with ⟨call, rfl⟩ | ⟨k, readings, now, -, hsection⟩ | ⟨now, -, rfl⟩
    · -- the number of a new request is not the handler's, which is in use
      have hne : handler ≠ m.created := by
        rintro rfl
        rw [hsane.fresh _ le_rfl] at hpc
        cases hpc
      exact ⟨stage, by rw [handlers_receive, if_neg hne]; exact hpc, htraced.cons _⟩
    · by_cases hk : handler = k
      · subst hk
        have hrequest := hsection.request handler
        obtain ⟨stage', hpc'⟩ : ∃ stage', m'.handlers handler = .heartbeat c ids stage' := by
          rw [hpc] at hrequest
          cases hpc' : m'.handlers handler with
          | heartbeat c' ids' stage' =>
            rw [hpc'] at hrequest
            cases hrequest
            exact ⟨stage', rfl⟩
          | _ => rw [hpc'] at hrequest; cases hrequest
        by_cases hstage' : stage' = .interestsExpiring
        · subst hstage'
          exact ⟨_, hpc', htraced.ofRecording hsection hpc hpc'⟩
        · exact ⟨stage', hpc',
            (htraced.section hsane hrun.last_mem hsection hpc hpc' hstage').cons m'⟩
      · exact ⟨stage, by rw [hsection.handlers_of_ne hk]; exact hpc, htraced.cons m'⟩
    · exact ⟨stage, hpc, htraced.cons _⟩

/-! ## What an answer tells -/

/-- The same records and limits give the same shares. -/
theorem fairShare_of_sameFor {m m' : ServiceState} (h : m.SameFor c ids m') {r : ResourceId}
    (hr : r ∈ ids) : m.fairShare c r = m'.fairShare c r := by
  rw [fairShare, fairShare, h.limits r hr, h.interested r hr]

/-- **Every part of an `OK` answer is true of some state passed while it
was made**, with the interests on record; and if nothing it reads changed
meanwhile it describes one. -/
theorem answerTraced_of_acceptedRun
    (h : AcceptedRun heartbeatTimeout handler c ids V allocations) :
    AnswerTraced V handler c ids allocations := by
  obtain ⟨s, m, m', readings, now, status, response, hs, hstart, hrun, hlast, hpc', hok, rfl⟩ := h
  have hreach := hrun.reachable hs
  obtain ⟨-, hsection⟩ := section_of_handlerSection hlast
  obtain ⟨stage, hpc, htraced⟩ := stageTraced_of_run hs hstart hrun
  have hanswer := htraced.section (sane_of_reachable (hreach m hrun.last_mem)) hrun.last_mem
    hsection hpc hpc' (by simp)
  have hcode : decide (status.code = .ok) = true := decide_eq_true hok
  obtain ⟨m₁, hm₁, hrec₁, hkeys⟩ := hanswer.keys hcode
  have hkeys : ∀ r, r ∈ response.allocations ↔
      r ∈ m₁.registry.interestedResourcesLocked c := by
    intro r
    rw [← hkeys]
    simp [HeartbeatStage.toShare, HeartbeatStage.allocations]
  refine ⟨⟨m₁, hm₁, hrec₁, hkeys⟩, hanswer.values, fun hsame => ?_⟩
  · obtain ⟨m₀, hm₀, hrec₀, hrecorded⟩ := hanswer.recorded hcode
    refine ⟨m₀, hm₀, hrecorded, fun r => ?_⟩
    -- the interests read back are those recorded
    have hids : r ∈ response.allocations ↔ r ∈ ids := by
      rw [hkeys, interestedResourcesLocked_eq, ← (hsame m₀ hm₀ m₁ hm₁ hrec₀ hrec₁).record,
        hrecorded]
      rfl
    cases hv : response.allocations[r]? with
    | none =>
      rw [← OrderedMap.not_mem_iff, hids] at hv
      rw [if_neg hv]
    | some v =>
      have hmem := hids.mp (OrderedMap.mem_iff_exists.mpr ⟨v, hv⟩)
      obtain ⟨m₂, hm₂, hrec₂, rfl⟩ := hanswer.values r v hv
      rw [if_pos hmem, fairShare_of_sameFor (hsame m₂ hm₂ m₀ hm₀ hrec₂ hrec₀) hmem]

/-! ## An interleaving -/

/-- Client `"a"` is registered, resources `1` and `2` are limited to `10`
and `20`, and a heartbeat that names resource `3` comes in. -/
def beforeInterleaving : List ServiceAction :=
  let next (k : ℕ) := ServiceAction.handlerSection k (fun _ => 0) 0
  [.receive (.registerClient "a"), next 0, next 0,
   .receive (.setResourceLimit 1 10), next 1, .receive (.setResourceLimit 2 20), next 2,
   .receive (.heartbeat "a" [3])]

/-- Another heartbeat of the client, for `1` and `2`, is recorded after
it; and between its shares of these both limits are raised. -/
def interleaving : List ServiceAction :=
  let next (k : ℕ) := ServiceAction.handlerSection k (fun _ => 0) 0
  [next 3, next 3, .receive (.heartbeat "a" [1, 2]), next 4, next 4,
   next 3, next 3, next 3, next 3, next 3,
   .receive (.setResourceLimit 1 30), next 5, .receive (.setResourceLimit 2 40), next 6,
   next 3, next 3]

/-- The old share of `1` and the new one of `2`. -/
def interleavedAnswer : OrderedMap ResourceId ℚ :=
  ((∅ : OrderedMap ResourceId ℚ).insert 1 10).insert 2 40

/-- The two shares are those of no state passed. -/
theorem exists_interleavedRun : ∃ V, AcceptedRun 30 3 "a" {3} V interleavedAnswer ∧
    ∀ m ∈ V, ¬ (m.fairShare "a" 1 = 10 ∧ m.fairShare "a" 2 = 40) := by
  have hrun : ((serviceSystem 30).runFrom (serviceSystem 30).init beforeInterleaving).bind
      (fun s => ((serviceSystem 30).runFrom s interleaving).bind fun m =>
        (m.handlerSection 3 (fun _ => 0) 0).map fun s' =>
          (s.handlers 3, s'.handlers 3, ((serviceSystem 30).passed [s] s interleaving).all fun m =>
            decide (¬ (m.fairShare "a" 1 = 10 ∧ m.fairShare "a" 2 = 40)))) =
      some (.heartbeat "a" {3} .expiring, .heartbeat "a" {3} (.answered .ok
        { success := true, allocations := interleavedAnswer }), true) := by
    decide +kernel
  obtain ⟨s, hs, hrest⟩ := Option.bind_eq_some_iff.mp hrun
  obtain ⟨m, hm, hlast⟩ := Option.bind_eq_some_iff.mp hrest
  obtain ⟨s', hs', hparts⟩ := Option.map_eq_some_iff.mp hlast
  obtain ⟨hstart, hanswer, hnone⟩ := (by simpa only [Prod.mk.injEq] using hparts :
    s.handlers 3 = .heartbeat "a" {3} .expiring ∧ s'.handlers 3 = .heartbeat "a" {3} (.answered .ok
      { success := true, allocations := interleavedAnswer }) ∧ _ = true)
  refine ⟨_, ⟨s, m, s', _, _, _, _, GuardedSystem.Reachable.runFrom .init hs, hstart,
    GuardedSystem.Run.start.runFrom hm, hs', hanswer, rfl, rfl⟩, fun m hm => ?_⟩
  exact of_decide_eq_true (List.all_eq_true.mp hnone m hm)

theorem interleavedRun_traced :
    ∃ V, AcceptedRun 30 3 "a" {3} V interleavedAnswer ∧
      AnswerTraced V 3 "a" {3} interleavedAnswer := by
  obtain ⟨V, hrun, -⟩ := exists_interleavedRun
  exact ⟨V, hrun, answerTraced_of_acceptedRun hrun⟩

/-- **An answer need not have the keys that were asked for, nor the shares
of one state.** -/
theorem interleavedAnswer_not_described :
    (¬ ∀ (heartbeatTimeout : ℤ) (handler : ℕ) (c : ClientId) (ids : Finset ResourceId)
      (V : List ServiceState) (allocations : OrderedMap ResourceId ℚ), 0 ≤ heartbeatTimeout →
      AcceptedRun heartbeatTimeout handler c ids V allocations →
        ∀ r, r ∈ allocations ↔ r ∈ ids) ∧
    (¬ ∀ (heartbeatTimeout : ℤ) (handler : ℕ) (c : ClientId) (ids : Finset ResourceId)
      (V : List ServiceState) (allocations : OrderedMap ResourceId ℚ), 0 ≤ heartbeatTimeout →
      AcceptedRun heartbeatTimeout handler c ids V allocations →
        ∃ m ∈ V, ∀ r v, allocations[r]? = some v → v = m.fairShare c r) := by
  obtain ⟨V, hrun, hnone⟩ := exists_interleavedRun
  refine ⟨fun hall => ?_, fun hall => ?_⟩
  · have hkey := (hall 30 3 "a" {3} V interleavedAnswer (by decide) hrun 1).mp (by decide)
    exact absurd hkey (by decide)
  · obtain ⟨m, hm, hvalues⟩ := hall 30 3 "a" {3} V interleavedAnswer (by decide) hrun
    have hfirst : (10 : ℚ) = m.fairShare "a" 1 := hvalues 1 10 (by decide)
    have hsecond : (40 : ℚ) = m.fairShare "a" 2 := hvalues 2 40 (by decide)
    exact hnone m hm ⟨hfirst.symm, hsecond.symm⟩

end Throttling
