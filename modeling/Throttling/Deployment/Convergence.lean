import Throttling.Deployment.Helpers.Steps
/-!
# The local rates converge to the fair shares

Once the live registrations, the interests and the limits stay as they
are, every share that is computed is one of theirs; so when every client
has applied an answer computed since, the local rates are the fair
shares, however the heartbeats came to lie and whatever older answers
were applied in between.
-/

namespace Throttling

open ServiceState

/-! ## The registered clients that name a resource -/

namespace ServiceState

variable {s : ServiceState} {c : ClientId} {r : ResourceId}

theorem mem_interestedClients :
    c ∈ s.interestedClients r ↔ ∃ ids, s.present.interests[c]? = some ids ∧ r ∈ ids := by
  rw [interestedClients, List.mem_toFinset, Std.ExtTreeMap.mem_keys, OrderedMap.mem_iff_exists]
  simp only [Std.ExtTreeMap.getElem?_filter']
  cases s.present.interests[c]? <;> simp [Option.filter]

/-- They are those the index of the live registry counts. -/
theorem Sane.interestedClients_eq (h : Sane s) (r : ResourceId) :
    s.interestedClients r = s.present.clientsForResourceLocked r := by
  ext c
  rw [mem_interestedClients]
  exact (h.mirrors.expireStaleClients _).mem_clientsForResourceLocked_iff.symm

/-- **The fair share of a client that names a resource.** -/
theorem Sane.fairShare_settled (h : Sane s) (hc : c ∈ s.interestedClients r) :
    s.settled.fairShare c r = s.limit r / (s.interestedClients r).card := by
  have hcard : (s.interestedClients r).card ≠ 0 := Finset.card_ne_zero_of_mem hc
  rw [h.interestedClients_eq r] at hc hcard ⊢
  rw [fairShare, ResourceManager.fairShare]
  exact (if_pos hc).trans (if_neg hcard)

end ServiceState

namespace Deployment

variable {heartbeatTimeout : ℕ} {s d d' : Deployment} {V : List Deployment} {c : ClientId}
variable {r : ResourceId}

/-! ## Where the records stay -/

/-- **The last change is no later than a state the records have stayed the
same since.** -/
theorem lastChange_le_of_run (hs : (deploymentSystem heartbeatTimeout).Reachable s)
    (hrun : (deploymentSystem heartbeatTimeout).Run s V d)
    (hquiet : ∀ m ∈ V, m.service.records = s.service.records) :
    d.history.lastChange ≤ s.history.steps := by
  induction hrun with
  | start => exact (consistent_of_reachable hs).dated.lastChange
  | @step V m d a hrun hstep ih =>
    have hm := ih fun m' hm' => hquiet m' (List.mem_cons_of_mem _ hm')
    have hrecords : d.service.records = m.service.records :=
      (hquiet d List.mem_cons_self).trans
        (hquiet m (List.mem_cons_of_mem _ hrun.last_mem)).symm
    have hlast : d.history.lastChange = m.history.lastChange := by
      rw [(effect_of_step hstep).2]
      exact if_pos hrecords
    rw [hlast]
    exact hm

/-! ## The rates a client holds -/

/-- **A live client that applied an answer computed since the last change**
holds its fair shares and no other bucket. -/
theorem Consistent.rate_of_applied (hd : Consistent d) {call : ℕ}
    (happlied : (d.nodes c).applied = some call)
    (hafter : d.history.lastChange ≤ d.history.computedFrom call)
    (hlive : c ∈ d.service.present.clients) (r : ResourceId) :
    d.rate c r = if c ∈ d.service.interestedClients r then
      some (d.service.settled.fairShare c r) else none := by
  obtain ⟨ids, status, response, hpc, hok, hrate⟩ := hd.applied c call happlied
  have htracked :=
    hd.tracking (hd.past.timeoutTicks_nonneg hlive) call c ids _ hpc (decide_eq_true hok) hafter
  obtain ⟨info, hinfo⟩ := OrderedMap.mem_iff_exists.mp hlive
  have hids : d.service.present.interests[c]? = some info.interestedResources := by
    rw [ClientRegistry.lookup_interests, hinfo]
    rfl
  have hkeys : r ∈ response.allocations ↔ c ∈ d.service.interestedClients r := by
    have hmem := htracked.keys info.interestedResources hids r
    rw [mem_interestedClients, hids]
    simpa [HeartbeatStage.toShare, HeartbeatStage.allocations] using hmem
  rw [hrate r]
  cases hv : response.allocations[r]? with
  | none =>
    rw [if_neg]
    rwa [← hkeys, OrderedMap.not_mem_iff]
  | some v =>
    rw [if_pos (hkeys.mp (OrderedMap.mem_iff_exists.mpr ⟨v, hv⟩))]
    exact congrArg some (htracked.values r v hv)

/-- **Fair shares, once everybody has heard since the last change.** -/
theorem Consistent.fairAt (hd : Consistent d) (hheard : d.HeardSince d.history.lastChange)
    (r : ResourceId) : d.FairAt r := by
  have hrate : ∀ c, d.IsRunning c → d.rate c r = if c ∈ d.service.interestedClients r then
      some (d.service.settled.fairShare c r) else none := by
    intro c hc
    obtain ⟨call, happlied, hafter⟩ := hheard.applied c hc
    exact hd.rate_of_applied happlied hafter ((hheard.registered c).mpr hc) r
  have hrunning : ∀ c ∈ d.service.interestedClients r, d.IsRunning c := by
    intro c hc
    obtain ⟨ids, hids, -⟩ := mem_interestedClients.mp hc
    rw [ClientRegistry.lookup_interests, Option.map_eq_some_iff] at hids
    obtain ⟨info, hinfo, -⟩ := hids
    exact (hheard.registered c).mp (OrderedMap.mem_iff_exists.mpr ⟨info, hinfo⟩)
  have hequal : ∀ c ∈ d.service.interestedClients r, d.rate c r =
      some (d.service.limit r / (d.service.interestedClients r).card) := by
    intro c hc
    rw [hrate c (hrunning c hc), if_pos hc, hd.sane.fairShare_settled hc]
  have hothers : ∀ c, d.IsRunning c → c ∉ d.service.interestedClients r → d.rate c r = none := by
    intro c hc hnot
    rw [hrate c hc, if_neg hnot]
  refine ⟨hequal, hothers, fun hne => ?_⟩
  have hcard : ((d.service.interestedClients r).card : ℚ) ≠ 0 :=
    Nat.cast_ne_zero.mpr (Finset.card_ne_zero.mpr hne)
  have hsupport : {c | d.IsRunning c} ∩ Function.support (fun c => (d.rate c r).getD 0) ⊆
      ↑(d.service.interestedClients r) := by
    rintro c ⟨hc, hpos⟩
    by_contra hnot
    have hnone := hothers c hc hnot
    exact hpos (by simp [hnone])
  calc ∑ᶠ c ∈ {c | d.IsRunning c}, (d.rate c r).getD 0
      = ∑ c ∈ d.service.interestedClients r, (d.rate c r).getD 0 :=
        finsum_mem_eq_sum_of_subset _ hsupport hrunning
    _ = ∑ c ∈ d.service.interestedClients r,
          d.service.limit r / (d.service.interestedClients r).card :=
        Finset.sum_congr rfl fun c hc => by rw [hequal c hc]; rfl
    _ = d.service.limit r := by
        rw [Finset.sum_const, nsmul_eq_mul, mul_div_cancel₀ _ hcard]

/-- **Local rates converge to the fair shares**: from any state on that
the live registrations, their interests and the limits have not changed
since, in every later one in which the registered clients are the running
ones and each applied last what was computed since. -/
theorem fairAt_of_run (hs : (deploymentSystem heartbeatTimeout).Reachable s)
    (hrun : (deploymentSystem heartbeatTimeout).Run s V d)
    (hquiet : ∀ m ∈ V, m.service.records = s.service.records)
    (hheard : d.HeardSince s.history.steps) (r : ResourceId) : d.FairAt r := by
  have hd := consistent_of_reachable (hrun.reachable hs d hrun.last_mem)
  have hlast := lastChange_le_of_run hs hrun hquiet
  refine hd.fairAt ⟨hheard.registered, fun c hc => ?_⟩ r
  obtain ⟨call, happlied, hafter⟩ := hheard.applied c hc
  exact ⟨call, happlied, hlast.trans hafter⟩

/-! ## Two clients -/

/-- Client `"a"` has all of resource `1`; then client `"b"` starts, and its
interest is recorded. -/
def untilRecorded : List DeploymentAction :=
  untilAlone ++ [.answer "a" .start fun _ => 0] ++ starting "b" 1 3 0 ++ sections 4 2 0

/-- Its shares are computed, `"a"` sends another heartbeat, and the two
answers are applied. -/
def untilHeard : List DeploymentAction :=
  sections 4 5 0 ++ [.wake "a", .sendHeartbeat "a" .heartbeatLoop] ++ sections 5 7 0 ++
    [.answer "a" .heartbeatLoop fun _ => 0, .answer "b" .start fun _ => 0]

theorem untilHeard_fairAt :
    ∃ s V d, (deploymentSystem 30).Reachable s ∧ (deploymentSystem 30).Run s V d ∧
      d.rate "a" 1 = some 50 ∧ d.FairAt 1 := by
  have hrun : ((deploymentSystem 30).runFrom (deploymentSystem 30).init untilRecorded).bind
      (fun s => ((deploymentSystem 30).runFrom s untilHeard).map fun d => decide (
        (∀ m ∈ (deploymentSystem 30).passed [s] s untilHeard,
          m.service.records = s.service.records) ∧
        d.service.present.clients.keys = ["a", "b"] ∧
        ((d.nodes "a").phase = .running ∧ (d.nodes "b").phase = .running) ∧
        ((d.nodes "a").applied = some 5 ∧ (d.nodes "b").applied = some 4) ∧
        (s.history.steps ≤ d.history.computedFrom 5 ∧ s.history.steps ≤ d.history.computedFrom 4) ∧
        d.rate "a" 1 = some 50)) = some true := by
    decide +kernel
  obtain ⟨s, hs, hrest⟩ := Option.bind_eq_some_iff.mp hrun
  obtain ⟨d, hd, hchecked⟩ := Option.map_eq_some_iff.mp hrest
  obtain ⟨hquiet, hkeys, ⟨hrunA, hrunB⟩, ⟨happA, happB⟩, ⟨hfromA, hfromB⟩, hrate⟩ :=
    of_decide_eq_true hchecked
  have hreach := GuardedSystem.Reachable.runFrom .init hs
  have hpassed := GuardedSystem.Run.start.runFrom hd
  -- nobody but the two was ever started
  have hrunning : ∀ c, d.IsRunning c → c = "a" ∨ c = "b" := by
    intro c hc
    have hnamed : c ∈ ["a", "b"] := by
      rcases isRunning_of_runFrom ["a", "b"] hd (by decide) hc with hnamed | hc
      · exact hnamed
      · rcases isRunning_of_runFrom ["a", "b"] hs (by decide) hc with hnamed | hc
        · exact hnamed
        · cases hc
    simpa using hnamed
  have hclients : ∀ c, c ∈ d.service.present.clients ↔ c = "a" ∨ c = "b" := by
    intro c
    rw [← Std.ExtTreeMap.mem_keys, hkeys]
    simp
  refine ⟨s, _, d, hreach, hpassed, hrate, fairAt_of_run hreach hpassed hquiet ⟨fun c => ?_,
    fun c hc => ?_⟩ 1⟩
  · rw [hclients]
    constructor
    · rintro (rfl | rfl)
      · exact hrunA
      · exact hrunB
    · exact hrunning c
  · rcases hrunning c hc with rfl | rfl
    · exact ⟨5, happA, hfromA⟩
    · exact ⟨4, happB, hfromB⟩

end Deployment

end Throttling
