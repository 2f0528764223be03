import Throttling.Deployment.Convergence
/-!
# Clients the service has forgotten

A client whose registration expired gets an error for its heartbeat, and
keeps the buckets it has: others share its part of the limit by then, and
the rates held add up to more (`forgottenClient_not_quotaKept`). That is
one of two ways to hold more than one's share after hearing from the
service; the other is to apply allocations that were computed before one's
shares changed last. Where neither happens every client that has heard
holds at most its share.
-/

namespace Throttling

namespace Deployment

variable {heartbeatTimeout : ℕ} {d d' : Deployment} {a : DeploymentAction} {c : ClientId} {k : ℕ}

/-! ## Who has heard -/

/-- **Time of the last write** after a step: as before, with every share
the same, or now. -/
theorem Consistent.lastWrite_step (hd : Consistent d) (h : d.step a = some d') :
    (d'.history.lastWrite = d.history.lastWrite ∧
      ∀ c r, d'.service.fairShare c r = d.service.fairShare c r) ∨
    d'.history.lastWrite = d'.history.steps := by
  have hd' := hd.step h
  rw [(effect_of_step h).2]
  rcases History.lastWrite_observe d.history d.service d'.service with ⟨hsame, hlast⟩ | hnow
  · exact .inl ⟨hlast, ServiceState.fairShare_congr hd'.sane hd.sane hsame⟩
  · exact .inr hnow

/-- Nobody has heard since a write that was just made. -/
theorem Consistent.not_hasHeard (hd : Consistent d)
    (hnow : d.history.lastWrite = d.history.steps) : ¬ d.HasHeard c := by
  rintro ⟨k, -, hprocessed, hlater⟩
  have hearlier := hd.dated.answeredAt k (hd.processed k hprocessed)
  omega

/-- **Who has heard after a step that wrote nothing** had heard before, or
is through now with an answer that was made since the last write. -/
theorem Consistent.hasHeard_step (hd : Consistent d) (h : d.step a = some d')
    (hlast : d'.history.lastWrite = d.history.lastWrite) (hheard : d'.HasHeard c) :
    d.HasHeard c ∨ ∃ k, d.processed k ≠ d'.processed k ∧ d.IsCall c k ∧
      d.history.lastWrite ≤ d.history.answeredAt k := by
  obtain ⟨k, hcall, hprocessed, hlater⟩ := hheard
  obtain ⟨heffect, hhistory⟩ := effect_of_step h
  have hanswered := hd.isAnswered_of_processed heffect hprocessed
  have hcall := hd.isCall_of_answered heffect hanswered hcall
  have hdate : d.history.lastWrite ≤ d.history.answeredAt k := by
    rw [hlast, hhistory, History.answeredAt_of_answered d.history _ hanswered] at hlater
    exact hlater
  by_cases hold : d.processed k = d'.processed k
  · exact .inl ⟨k, hcall, hold.trans hprocessed, hdate⟩
  · exact .inr ⟨k, hold, hcall, hdate⟩

/-! ## Who has heard holds at most its share -/

/-- **No client that has heard holds more than its share.** -/
def Covered (d : Deployment) : Prop :=
  ∀ c, d.HasHeard c → ∀ r v, d.rate c r = some v → v ≤ d.service.fairShare c r

/-- **What a client holds that has heard just now** is at most its share:
allocations computed since these changed are the shares, and an error
leaves a client to its empty buckets. -/
theorem Consistent.covered_answered (hd : Consistent d) (hcovered : Covered d)
    {sender : Sender} {now : ResourceId → TimePoint} {ids : Finset ResourceId} {status : Status}
    {response : HeartbeatResponse} (hnews : d.TellsNews (.answer c sender now))
    (hwaits : (d.nodes c).senders sender = .waiting k)
    (hpc : d.service.handlers k = .heartbeat c ids (.answered status response))
    (hheard : d.HasHeard c ∨ d.history.lastWrite ≤ d.history.answeredAt k)
    {r : ResourceId} {v : ℚ}
    (hv : (if status.code = .ok then response.allocations[r]? else d.rate c r) = some v) :
    v ≤ d.service.fairShare c r := by
  have hnews := hnews k ids status response hwaits hpc
  by_cases hok : status.code = .ok
  · rw [if_pos hok] at hnews hv
    have hfrom := hnews hheard.symm
    exact (hd.current k c ids _ hpc hfrom r v hv).le
  · rw [if_neg hok] at hnews hv
    rcases hheard with hold | hnow
    · exact hcovered c hold r v hv
    · rw [hnews hnow r v hv]
      exact hd.sane.fairShare_nonneg c r

theorem Consistent.covered_step (hd : Consistent d) (hcovered : Covered d)
    (hnews : d.TellsNews a) (h : d.step a = some d') : Covered d' := by
  intro c hheard r v hv
  rcases hd.lastWrite_step h with ⟨hlast, hshares⟩ | hnow
  · rw [hshares]
    have hkept : d.HasHeard c → d'.rate c r = d.rate c r → v ≤ d.service.fairShare c r :=
      fun hold heq => hcovered c hold r v (heq.symm.trans hv)
    have hheard := hd.hasHeard_step h hlast hheard
    cases hd.effectOn (effect_of_step h).1 c with
    | alike hnode hprocessed =>
      refine hkept (hheard.resolve_right ?_) (hnode.rates r)
      rintro ⟨k, hk, hcall, -⟩
      exact hk (hprocessed k hcall).symm
    | cleared hnode hprocessed =>
      rw [rate, hnode, ClientNode.clear] at hv
      simp at hv
    | @answered sender now call ids status response haction hwaits hpc hnode hprocessed =>
      subst haction
      rw [hd.rate_answered hpc hnode] at hv
      refine hd.covered_answered hcovered hnews hwaits hpc (hheard.imp_right ?_) hv
      -- the one answer it is newly through with is this one
      rintro ⟨k, hk, -, hlater⟩
      have hcall : k = call := by
        by_contra hne
        rw [hprocessed, Function.update_of_ne hne] at hk
        exact hk rfl
      rwa [← hcall]
  · exact absurd hheard ((hd.step h).not_hasHeard hnow)

theorem covered_of_tellsNews (h : (deploymentSystem heartbeatTimeout).ReachableVia TellsNews d) :
    Covered d := by
  have hall : Consistent d ∧ Covered d := by
    refine GuardedSystem.ReachableVia.invariant (P := fun d => Consistent d ∧ Covered d)
      ⟨consistent_init heartbeatTimeout, ?_⟩ ?_ h
    · rintro c ⟨k, -, hk, -⟩
      cases hk
    · rintro d a d' ⟨hd, hcovered⟩ hnews hstep
      exact ⟨hd.step hstep, hd.covered_step hcovered hnews hstep⟩
  exact hall.2

/-- **Whoever the service forgets stops spending**, in every run in which
nobody is told old news. -/
theorem quotaKept_of_tellsNews (h : (deploymentSystem heartbeatTimeout).ReachableVia TellsNews d) :
    d.QuotaKept := by
  intro hheard r limit hlimit S hS
  have hd := consistent_of_reachable h.reachable
  have hcovered := covered_of_tellsNews h
  have hheld : ∀ c ∈ S, (d.rate c r).getD 0 ≤ d.service.fairShare c r := by
    intro c hc
    cases hv : d.rate c r with
    | none => exact hd.sane.fairShare_nonneg c r
    | some v => exact hcovered c (hheard c (hS c hc)) r v hv
  calc ∑ c ∈ S, (d.rate c r).getD 0
      ≤ ∑ c ∈ S, d.service.fairShare c r := Finset.sum_le_sum hheld
    _ ≤ limit := hd.sane.sum_fairShare_le hlimit S

/-- Whether an answer that is taken is `OK`, of shares that did not change
since. -/
def takesCurrent (d : Deployment) : DeploymentAction → Bool
  | .answer clientId sender _ =>
    match (d.nodes clientId).senders sender with
    | .waiting call => (d.service.handlers call).okAnswer.isSome ∧
        d.history.lastShareChange clientId ≤ d.history.computedFrom call
    | _ => false
  | _ => true

/-- It is no old news. -/
theorem tellsNews_of_takesCurrent (h : d.takesCurrent a = true) : d.TellsNews a := by
  cases a with
  | answer c sender now =>
    intro call ids status response hwaits hpc
    simp only [takesCurrent, hwaits, hpc, HandlerPc.okAnswer, decide_eq_true_eq] at h
    by_cases hok : status.code = .ok
    · rw [if_pos hok]
      exact fun _ => h.2
    · simp [hok] at h
  | _ => trivial

/-- Two clients that hold half of the limit each. -/
theorem untilHeard_quotaKept :
    ∃ d, (deploymentSystem 30).ReachableVia TellsNews d ∧
      (d.HasHeard "a" ∧ d.HasHeard "b") ∧ (d.rate "a" 1 = some 50 ∧ d.rate "b" 1 = some 50) ∧
      d.service.manager.resourceLimits[(1 : ResourceId)]? = some 100 ∧ d.QuotaKept := by
  have hrun : ((deploymentSystem 30).runVia (fun d a => d.takesCurrent a = true)
      (deploymentSystem 30).init (untilRecorded ++ untilHeard)).map (fun d => decide (
        ((d.service.handlers 5).request = some ("a", {1}) ∧
          (d.service.handlers 4).request = some ("b", {1})) ∧
        (d.processed 5 = true ∧ d.processed 4 = true) ∧
        (d.history.lastWrite ≤ d.history.answeredAt 5 ∧
          d.history.lastWrite ≤ d.history.answeredAt 4) ∧
        (d.rate "a" 1 = some 50 ∧ d.rate "b" 1 = some 50) ∧
        d.service.manager.resourceLimits[(1 : ResourceId)]? = some 100)) = some true := by
    decide +kernel
  obtain ⟨d, hd, hchecked⟩ := Option.map_eq_some_iff.mp hrun
  obtain ⟨⟨hcallA, hcallB⟩, ⟨hdoneA, hdoneB⟩, ⟨hlateA, hlateB⟩, hrates, hlimit⟩ :=
    of_decide_eq_true hchecked
  have hreach := (GuardedSystem.ReachableVia.runVia .init hd).mono
    fun _ _ => tellsNews_of_takesCurrent
  exact ⟨d, hreach, ⟨⟨5, ⟨_, hcallA⟩, hdoneA, hlateA⟩, ⟨4, ⟨_, hcallB⟩, hdoneB, hlateB⟩⟩, hrates,
    hlimit, quotaKept_of_tellsNews hreach⟩

/-! ## A client whose registration expired -/

/-- `"a"` is not heard from for 31 s, so `"b"` gets all; then `"a"` sends a
heartbeat, and is told that it is not registered. -/
def untilForgotten : List DeploymentAction :=
  let late := 31 * ticksPerSecond
  untilAlone ++ [.answer "a" .start fun _ => 0] ++ starting "b" 1 3 late ++ sections 4 7 late ++
    [.answer "b" .start fun _ => late, .wake "a", .sendHeartbeat "a" .heartbeatLoop] ++
    sections 5 2 late ++ [.answer "a" .heartbeatLoop fun _ => late]

theorem forgottenClient_not_quotaKept :
    ¬ ∀ (heartbeatTimeout : ℕ) (d : Deployment),
      (deploymentSystem heartbeatTimeout).Reachable d → d.QuotaKept := by
  intro hall
  have hrun : ((deploymentSystem 30).runFrom (deploymentSystem 30).init untilForgotten).map
      (fun d => decide (
        ((d.nodes "a").phase = .running ∧ (d.nodes "b").phase = .running) ∧
        ((d.service.handlers 5).request = some ("a", {1}) ∧
          (d.service.handlers 4).request = some ("b", {1})) ∧
        (d.processed 5 = true ∧ d.processed 4 = true) ∧
        (d.history.lastWrite ≤ d.history.answeredAt 5 ∧
          d.history.lastWrite ≤ d.history.answeredAt 4) ∧
        d.service.manager.resourceLimits[(1 : ResourceId)]? = some 100 ∧
        (d.rate "a" 1 = some 100 ∧ d.rate "b" 1 = some 100))) = some true := by
    decide +kernel
  obtain ⟨d, hd, hchecked⟩ := Option.map_eq_some_iff.mp hrun
  obtain ⟨⟨hrunA, hrunB⟩, ⟨hcallA, hcallB⟩, ⟨hdoneA, hdoneB⟩, ⟨hlateA, hlateB⟩, hlimit,
    hrateA, hrateB⟩ := of_decide_eq_true hchecked
  have hrunning : ∀ c, d.IsRunning c → c = "a" ∨ c = "b" := by
    intro c hc
    have hnamed : c ∈ ["a", "b"] := by
      rcases isRunning_of_runFrom ["a", "b"] hd (by decide) hc with hnamed | hc
      · exact hnamed
      · cases hc
    simpa using hnamed
  have hheard : ∀ c, d.IsRunning c → d.HasHeard c := by
    intro c hc
    rcases hrunning c hc with rfl | rfl
    · exact ⟨5, ⟨_, hcallA⟩, hdoneA, hlateA⟩
    · exact ⟨4, ⟨_, hcallB⟩, hdoneB, hlateB⟩
  have hkept := hall 30 d (GuardedSystem.Reachable.runFrom .init hd) hheard 1 100 hlimit
    {"a", "b"} (by simp [IsRunning, hrunA, hrunB])
  rw [Finset.sum_pair (by decide), hrateA, hrateB] at hkept
  norm_num at hkept

end Deployment

end Throttling
