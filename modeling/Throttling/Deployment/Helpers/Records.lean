import Throttling.Deployment.Model.Deployment
import Throttling.Server.Helpers.Handlers
/-!
# While the records stay as they are

A step of the service that changes no live registration, no interest and
no limit changes nobody's share. So the shares a heartbeat computes after
the last change are those of the state its answer is looked at in
(`Tracking`), in whatever order and however late its sections run: what
it reads in between is not the registry but, after the expiry pass that
comes before each reading, the live part of it.
-/

namespace Throttling

open ClientRegistry

namespace ServiceState

variable {s s' : ServiceState} {c : ClientId} {ids : Finset ResourceId}

/-! ## The live part of the registry -/

/-- The service with the clients gone that are stale now. -/
def settled (s : ServiceState) : ServiceState := { s with registry := s.present }

theorem lookup_present_clients (s : ServiceState) (c : ClientId) :
    s.present.clients[c]? =
      (s.registry.clients[c]?).filter fun info => !s.registry.isClientStaleLocked info s.clock :=
  lookup_expireStaleClients _ _ _

/-- Who is live is registered, with the same interests. -/
theorem interests_of_present (h : s.present.interests[c]? = some ids) :
    s.registry.interests[c]? = some ids := by
  rw [lookup_interests, Option.map_eq_some_iff] at h ⊢
  obtain ⟨info, hinfo, hids⟩ := h
  exact ⟨info, (fresh_of_lookup_expireStaleClients hinfo).1, hids⟩

/-- Who was heard just now is live. -/
theorem present_of_fresh {reg : ClientRegistry} {now : TimePoint} {ids : Finset ResourceId}
    (hticks : 0 ≤ reg.timeoutTicks) (h : reg.clients[c]? = some ⟨now, ids⟩) :
    (reg.expireStaleClients fun _ => now).clients[c]? = some ⟨now, ids⟩ := by
  have hfresh : reg.isClientStaleLocked ⟨now, ids⟩ now = false := by
    rw [isClientStaleLocked, decide_eq_false_iff_not, sub_self]
    exact not_lt.mpr hticks
  rw [lookup_expireStaleClients, h]
  simp [Option.filter, hfresh]

theorem Sane.settled (h : Sane s) : Sane s.settled :=
  ⟨h.mirrors.expireStaleClients _, h.limits, h.shares, h.mutex, h.fresh⟩

/-- The same records are the same live registrations and limits. -/
theorem sameRecords_of_records (h : s'.records = s.records) : s'.settled.SameRecords s.settled := by
  rw [records, records, Prod.mk.injEq] at h
  exact h

theorem present_of_records (h : s'.records = s.records) :
    s'.present.interests = s.present.interests :=
  (sameRecords_of_records h).1

/-! ## What a section does to one registration -/

variable {handler : ℕ} {readings : ClientId → TimePoint} {now : TimePoint}

theorem timeoutTicks_section (h : Section s s' handler readings now) :
    s'.registry.timeoutTicks = s.registry.timeoutTicks := by
  refine timeoutTicks_congr ?_
  rcases h.registry with heq | heq | ⟨c, heq⟩ | ⟨c, heq⟩ | ⟨c, ids, info, -, -, -, heq⟩ <;>
    rw [heq] <;> simp

theorem timeoutTicks_step {a : ServiceAction} (h : s.step a = some s') :
    s'.registry.timeoutTicks = s.registry.timeoutTicks := by
  rcases step_cases h with ⟨call, rfl⟩ | ⟨handler, readings, now, -, hsection⟩ | ⟨now, -, rfl⟩
  · rfl
  · exact timeoutTicks_section hsection
  · rfl

/-- **A registration stays, goes, or is renewed now.** -/
theorem clients_section (h : Section s s' handler readings now) (c : ClientId) :
    s'.registry.clients[c]? = s.registry.clients[c]? ∨ s'.registry.clients[c]? = none ∨
    ∃ ids, s'.registry.clients[c]? = some ⟨now, ids⟩ := by
  rcases h.registry with heq | heq | ⟨c', heq⟩ | ⟨c', heq⟩ | ⟨c', ids, info, -, hfound, -, heq⟩
  · exact .inl (by rw [heq])
  · rw [heq, lookup_expireStaleClients]
    cases hinfo : s.registry.clients[c]? with
    | none => exact .inl rfl
    | some info =>
      by_cases hstale : s.registry.isClientStaleLocked info (readings c) = true
      · exact .inr (.inl (by simp [Option.filter, hstale]))
      · exact .inl (by simp [Option.filter, hstale])
  · rw [heq, lookup_registerClientLocked]
    split
    · exact .inr (.inr ⟨_, rfl⟩)
    · exact .inl rfl
  · rw [heq, lookup_unregisterClientLocked]
    split
    · exact .inr (.inl rfl)
    · exact .inl rfl
  · rw [heq, lookup_heartbeatLocked hfound]
    split
    · exact .inr (.inr ⟨_, rfl⟩)
    · exact .inl rfl

/-- **Nobody was last heard later than now.** -/
def Past (s : ServiceState) : Prop :=
  ∀ (c : ClientId) (info : ClientInfo), s.registry.clients[c]? = some info →
    info.lastHeartbeatTime ≤ s.clock

theorem Past.step {a : ServiceAction} (h : Past s) (hstep : s.step a = some s') : Past s' := by
  intro c info hinfo
  rcases step_cases hstep with ⟨call, rfl⟩ | ⟨handler, readings, now, hadmits, hsection⟩ |
    ⟨now, hle, rfl⟩
  · exact h c info hinfo
  · rw [hsection.clock]
    rcases clients_section hsection c with hsame | hgone | ⟨ids, hnow⟩
    · rw [hsame] at hinfo
      exact (h c info hinfo).trans (readings_of_admits hadmits).1
    · rw [hgone] at hinfo
      cases hinfo
    · rw [hnow] at hinfo
      obtain rfl := Option.some.inj hinfo
      exact le_rfl
  · exact (h c info hinfo).trans hle

/-- A client that is live was heard within the timeout, which then is not
negative. -/
theorem Past.timeoutTicks_nonneg (h : Past s) (hlive : c ∈ s.present.clients) :
    0 ≤ s.registry.timeoutTicks := by
  obtain ⟨info, hinfo⟩ := OrderedMap.mem_iff_exists.mp hlive
  obtain ⟨hfound, hfresh⟩ := fresh_of_lookup_expireStaleClients hinfo
  rw [isClientStaleLocked, decide_eq_false_iff_not, not_lt] at hfresh
  exact (sub_nonneg.mpr (h c info hfound)).trans hfresh

/-- **The interests on record for a client** stay, unless it is new, dropped,
or its heartbeat records others. -/
theorem interests_section (h : Section s s' handler readings now) (c : ClientId) :
    s'.registry.interests[c]? = s.registry.interests[c]? ∨ s.registry.interests[c]? = none ∨
    (c ∈ s.registry.clients ∧ c ∉ s'.registry.clients) ∨
    ∃ ids, s.handlers handler = .heartbeat c ids .recording ∧ c ∈ s.registry.clients ∧
      s'.handlers handler = .heartbeat c ids .interestsExpiring ∧
      s'.registry.interests[c]? = some ids := by
  have hgone : c ∈ s.registry.clients → s'.registry.clients[c]? = none →
      c ∈ s.registry.clients ∧ c ∉ s'.registry.clients :=
    fun hc hnone => ⟨hc, OrderedMap.not_mem_iff.mpr hnone⟩
  simp only [lookup_interests, Option.map_eq_none_iff]
  cases hinfo : s.registry.clients[c]? with
  | none => exact .inr (.inl rfl)
  | some info =>
    have hc : c ∈ s.registry.clients := OrderedMap.mem_iff_exists.mpr ⟨info, hinfo⟩
    rcases h.registry with heq | heq | ⟨c', heq⟩ | ⟨c', heq⟩ |
      ⟨c', ids, info', hpc, hfound, hpc', heq⟩
    · exact .inl (by rw [heq, hinfo])
    · by_cases hstale : s.registry.isClientStaleLocked info (readings c) = true
      · refine .inr (.inr (.inl (hgone hc ?_)))
        rw [heq, lookup_expireStaleClients, hinfo]
        simp [Option.filter, hstale]
      · left
        rw [heq, lookup_expireStaleClients, hinfo]
        simp [Option.filter, hstale]
    · left
      rw [heq, lookup_registerClientLocked]
      split
      · rename_i hcc
        rw [hcc, interestedResourcesLocked_eq, lookup_interests, hinfo]
        rfl
      · rw [hinfo]
    · by_cases hcc : c' = c
      · refine .inr (.inr (.inl (hgone hc ?_)))
        rw [heq, lookup_unregisterClientLocked, if_pos hcc]
      · left
        rw [heq, lookup_unregisterClientLocked, if_neg hcc, hinfo]
    · by_cases hcc : c' = c
      · subst hcc
        refine .inr (.inr (.inr ⟨ids, hpc, hc, hpc', ?_⟩))
        rw [heq, lookup_heartbeatLocked hfound, if_pos rfl]
        rfl
      · left
        rw [heq, lookup_heartbeatLocked hfound, if_neg hcc, hinfo]

/-! ## Nobody stale -/

/-- Everybody registered is live. -/
def NobodyStale (s : ServiceState) : Prop := s.present.interests = s.registry.interests

/-- It stays so while the records do. -/
theorem NobodyStale.section (h : NobodyStale s) (hticks : 0 ≤ s.registry.timeoutTicks)
    (hsection : Section s s' handler readings now)
    (hrecords : s'.records = s.records) : NobodyStale s' := by
  refine interests_congr fun c => ?_
  have hlive : s'.present.interests[c]? = s.registry.interests[c]? := by
    rw [(present_of_records hrecords).trans h]
  rcases clients_section hsection c with hsame | hgone | ⟨ids, hnow⟩
  · rw [hlive, lookup_interests, lookup_interests, hsame]
  · rw [lookup_interests, lookup_interests, lookup_present_clients, hgone]
    rfl
  · have hpresent : s'.present.clients[c]? = some ⟨now, ids⟩ := by
      rw [present, hsection.clock]
      exact present_of_fresh (by rw [timeoutTicks_section hsection]; exact hticks) hnow
    rw [lookup_interests, lookup_interests, hpresent, hnow]

/-- **After a pass nobody is stale**, if the time it took changed nothing. -/
theorem nobodyStale_of_sweep (hadmits : s.admits readings now = true)
    (hregistry : s'.registry = s.registry.expireStaleClients readings)
    (hrecords : s'.records = s.records) : NobodyStale s' := by
  refine interests_congr fun c => ?_
  have hlive : s'.present.interests[c]? = s.present.interests[c]? := by
    rw [present_of_records hrecords]
  cases hids : s'.present.interests[c]? with
  | some ids => rw [interests_of_present hids]
  | none =>
    -- whom the pass finds stale later is stale now
    rw [hlive, lookup_interests, lookup_present_clients, Option.map_eq_none_iff] at hids
    rw [lookup_interests, hregistry, lookup_expireStaleClients]
    cases hinfo : s.registry.clients[c]? with
    | none => rfl
    | some info =>
      have hstale : s.registry.isClientStaleLocked info s.clock = true := by
        rw [hinfo] at hids
        simpa [Option.filter] using hids
      have hlater : s.registry.isClientStaleLocked info (readings c) = true := by
        rw [isClientStaleLocked, decide_eq_true_eq] at hstale ⊢
        exact lt_of_lt_of_le hstale
          (sub_le_sub_right ((readings_of_admits hadmits).2 c info hinfo).1 _)
      simp [Option.filter, hlater]

/-- Nothing but time passing, and nobody goes stale. -/
theorem NobodyStale.congr (h : NobodyStale s) (hregistry : s'.registry = s.registry)
    (hrecords : s'.records = s.records) : NobodyStale s' := by
  rw [NobodyStale, present_of_records hrecords, hregistry]
  exact h

/-! ## Tracked shares -/

/-- **What a heartbeat has computed is what the live registrations say**:
its shares are theirs, and the resources it has or will have one for are
its client's interests. -/
structure Tracked (s : ServiceState) (c : ClientId) (stage : HeartbeatStage) : Prop where
  values : ∀ r v, stage.allocations[r]? = some v → v = s.settled.fairShare c r
  keys : ∀ ids, s.present.interests[c]? = some ids →
    ∀ r, r ∈ stage.toShare ∨ r ∈ stage.allocations ↔ r ∈ ids
  swept : stage.swept = true → NobodyStale s

theorem Tracked.congr {stage : HeartbeatStage} (h : Tracked s c stage) (hs : Sane s)
    (hs' : Sane s') (hrecords : s'.records = s.records) (hstale : NobodyStale s → NobodyStale s') :
    Tracked s' c stage where
  values r v hv := by
    rw [fairShare_congr hs'.settled hs.settled (sameRecords_of_records hrecords)]
    exact h.values r v hv
  keys ids hids := by
    rw [present_of_records hrecords] at hids
    exact h.keys ids hids
  swept hswept := hstale (h.swept hswept)

/-- **A section keeps its own heartbeat on track** while the records stay:
a share is computed right after a pass, when the registry is its live
part, or of a resource that nobody has a share of. -/
theorem Tracked.section {stage stage' : HeartbeatStage} (h : stage.readBack = true →
    Tracked s c stage) (hs : Sane s) (hs' : Sane s') (hadmits : s.admits readings now = true)
    (hrecords : s'.records = s.records) (hprogress : Progress s s' c readings stage stage')
    (hback : stage'.readBack = true) : Tracked s' c stage' := by
  have hsame := sameRecords_of_records hrecords
  cases hprogress with
  | early hback' hallocations => rw [hback'] at hback; cases hback
  | read hstage hregistry hstage' =>
    subst hstage'
    refine ⟨fun r v hv => ?_, fun ids hids r => ?_, fun hswept => ?_⟩
    · simp at hv
    · have hrecorded := interests_of_present hids
      rw [hregistry] at hrecorded
      rw [HeartbeatStage.toShare_next, HeartbeatStage.allocations_next,
        interestedResourcesLocked_eq, hrecorded]
      simp
    · simp at hswept
  | kept hold hallocations hshare hswept =>
    have hkept := h hold
    refine ⟨fun r v hv => ?_, fun ids hids r => ?_, fun hswept' => ?_⟩
    · rw [fairShare_congr hs'.settled hs.settled hsame]
      exact hkept.values r v (by rwa [hallocations] at hv)
    · rw [present_of_records hrecords] at hids
      rw [hallocations, hshare]
      exact hkept.keys ids hids r
    · exact nobodyStale_of_sweep hadmits (hswept hswept') hrecords
  | @shared r' hold hshare hallocations hswept hread =>
    have hkept := h hold
    refine ⟨fun r v hv => ?_, fun ids hids r => ?_, fun hswept' => ?_⟩
    · rw [fairShare_congr hs'.settled hs.settled hsame]
      rw [hallocations, OrderedMap.lookup_insert] at hv
      split at hv
      · rename_i hr
        subst hr
        obtain rfl := Option.some.inj hv
        rcases hread with hnone | hswept
        · have hnone' : s.settled.manager.resourceLimits[r']? = none := hnone
          rw [fairShare_of_unconfigured hnone, fairShare_of_unconfigured hnone']
        · exact fairShare_congr hs hs.settled ⟨(hkept.swept hswept).symm, rfl⟩ c r'
      · exact hkept.values r v hv
    · rw [present_of_records hrecords] at hids
      have hkeys := hkept.keys ids hids r
      rw [hshare] at hkeys
      rw [hallocations, ← hkeys]
      exact OrderedMap.mem_or_mem_insert
    · rw [hswept] at hswept'
      cases hswept'

theorem isReading_of_readBack {stage : HeartbeatStage} (h : stage.readBack = true) :
    (HandlerPc.heartbeat c ids stage).isReading = false := by
  cases stage with
  | interestsReading => cases h
  | _ => rfl

/-- Who has shares is past reading. -/
theorem isReading_of_lookup {stage : HeartbeatStage} {r : ResourceId} {v : ℚ}
    (h : stage.allocations[r]? = some v) :
    (HandlerPc.heartbeat c ids stage).isReading = false := by
  cases stage with
  | interestsReading => simp [HeartbeatStage.allocations] at h
  | _ => rfl

/-- **The answers made after the last change are on track.** -/
def Tracking (s : ServiceState) (h : History) : Prop :=
  ∀ k c ids stage, s.handlers k = .heartbeat c ids stage → stage.readBack = true →
    h.lastChange ≤ h.computedFrom k → Tracked s c stage

end ServiceState

/-! ## The history -/

namespace History

variable {h : History} {s s' : ServiceState}

/-- A date of a change is as it was where nothing changes, or now. -/
theorem kept_or_now (same : Prop) [Decidable same] (old now : ℕ) :
    (same ∧ (if same then old else now) = old) ∨ (if same then old else now) = now := by
  by_cases hsame : same
  · exact .inl ⟨hsame, if_pos hsame⟩
  · exact .inr (if_neg hsame)

/-- The last change is now, or the records are as they were. -/
theorem lastChange_observe (h : History) (s s' : ServiceState) :
    (s'.records = s.records ∧ (h.observe s s').lastChange = h.lastChange) ∨
      (h.observe s s').lastChange = h.steps + 1 := kept_or_now _ _ _

/-- And so with what is kept. -/
theorem lastWrite_observe (h : History) (s s' : ServiceState) :
    (s'.SameRecords s ∧ (h.observe s s').lastWrite = h.lastWrite) ∨
      (h.observe s s').lastWrite = h.steps + 1 := kept_or_now _ _ _

/-- And with a client's shares. -/
theorem lastShareChange_observe (h : History) (s s' : ServiceState) (c : ClientId) :
    (s'.SameShares c s ∧ (h.observe s s').lastShareChange c = h.lastShareChange c) ∨
      (h.observe s s').lastShareChange c = h.steps + 1 := kept_or_now _ _ _

/-- An answer is computed from an earlier state, or from this one on. -/
theorem computedFrom_observe (h : History) (s s' : ServiceState) (k : ℕ) :
    (h.observe s s').computedFrom k = h.computedFrom k ∨
      ((h.observe s s').computedFrom k = h.steps ∧ (s.handlers k).isReading = true) := by
  rw [observe]
  dsimp only
  split
  · rename_i hread
    exact .inr ⟨rfl, hread.1⟩
  · exact .inl rfl

theorem answeredAt_observe (h : History) (s s' : ServiceState) (k : ℕ) :
    (h.observe s s').answeredAt k = h.answeredAt k ∨
      ((h.observe s s').answeredAt k = h.steps ∧ (s.handlers k).isAnswered = false ∧
        (s'.handlers k).isAnswered = true) := by
  rw [observe]
  dsimp only
  split
  · rename_i hread
    exact .inr ⟨rfl, by simpa using hread.1, hread.2⟩
  · exact .inl rfl

/-- A client is dropped now, or was dropped when it was. -/
theorem droppedAt_observe (h : History) (s s' : ServiceState) (c : ClientId) :
    (¬ (c ∈ s.registry.clients ∧ c ∉ s'.registry.clients) ∧
      (h.observe s s').droppedAt c = h.droppedAt c) ∨
    (h.observe s s').droppedAt c = s'.created := by
  by_cases hgone : c ∈ s.registry.clients ∧ c ∉ s'.registry.clients
  · exact .inr (if_pos hgone)
  · exact .inl ⟨hgone, if_neg hgone⟩

/-- A step that leaves the service alone adds nothing but itself. -/
theorem observe_self (h : History) (s : ServiceState) :
    h.observe s s = { h with steps := h.steps + 1 } := by
  rw [observe]
  simp [ServiceState.SameRecords, ServiceState.SameShares]

/-! ## Dates -/

/-- **The dates are in the past**, and no two answers have the same. -/
structure Dated (h : History) (s : ServiceState) : Prop where
  lastChange : h.lastChange ≤ h.steps
  computedFrom : ∀ k, h.computedFrom k ≤ h.steps
  answeredAt : ∀ k, (s.handlers k).isAnswered = true → h.answeredAt k < h.steps
  distinct : ∀ k k', (s.handlers k).isAnswered = true → (s.handlers k').isAnswered = true →
    h.answeredAt k = h.answeredAt k' → k = k'

/-- An answer keeps its date. -/
theorem answeredAt_of_answered (h : History) {k : ℕ} (s' : ServiceState)
    (hk : (s.handlers k).isAnswered = true) :
    (h.observe s s').answeredAt k = h.answeredAt k := by
  rcases answeredAt_observe h s s' k with hsame | ⟨-, hnot, -⟩
  · exact hsame
  · rw [hk] at hnot
    cases hnot

/-- What an answer will be computed from is no later than this state. -/
theorem Dated.computedFrom_observe_le (hd : Dated h s) (s' : ServiceState) (k : ℕ) :
    (h.observe s s').computedFrom k ≤ h.steps := by
  rcases History.computedFrom_observe h s s' k with hsame | ⟨hnow, -⟩
  · rw [hsame]
    exact hd.computedFrom k
  · rw [hnow]

theorem Dated.observe (hd : Dated h s) (moved : ℕ)
    (hmoved : ∀ k, k ≠ moved → s'.handlers k = s.handlers k) : Dated (h.observe s s') s' where
  lastChange := by
    rcases lastChange_observe h s s' with ⟨-, hlast⟩ | hnow
    · rw [hlast]
      exact hd.lastChange.trans (Nat.le_succ _)
    · rw [hnow]
      exact le_rfl
  computedFrom k := (hd.computedFrom_observe_le s' k).trans (Nat.le_succ _)
  answeredAt k hk := by
    by_cases hold : (s.handlers k).isAnswered = true
    · rw [answeredAt_of_answered h s' hold]
      exact (hd.answeredAt k hold).trans (Nat.lt_succ_self _)
    · rw [History.observe]
      dsimp only
      rw [if_pos ⟨hold, hk⟩]
      exact Nat.lt_succ_self _
  distinct k k' hk hk' heq := by
    -- an answer of this step has this date, and the step moves one handler
    have hdate : ∀ k, (s'.handlers k).isAnswered = true →
        (k = moved ∧ (h.observe s s').answeredAt k = h.steps) ∨
        ((s.handlers k).isAnswered = true ∧ (h.observe s s').answeredAt k = h.answeredAt k ∧
          h.answeredAt k < h.steps) := by
      intro k hk
      by_cases hold : (s.handlers k).isAnswered = true
      · exact .inr ⟨hold, answeredAt_of_answered h s' hold, hd.answeredAt k hold⟩
      · refine .inl ⟨?_, by rw [History.observe]; dsimp only; rw [if_pos ⟨hold, hk⟩]⟩
        by_contra hne
        rw [hmoved k hne] at hk
        exact hold hk
    rcases hdate k hk with ⟨hm, hd₁⟩ | ⟨hold, hd₁, hlt⟩
    · rcases hdate k' hk' with ⟨hm', -⟩ | ⟨-, hd₂, hlt'⟩
      · rw [hm, hm']
      · omega
    · rcases hdate k' hk' with ⟨-, hd₂⟩ | ⟨hold', hd₂, -⟩
      · omega
      · exact hd.distinct k k' hold hold' (by omega)

end History

namespace ServiceState

open History

variable {s s' : ServiceState} {h : History}

/-- **Every step keeps what was computed after the last change on
track**: a step that changes the records leaves nothing of the kind. -/
theorem Tracking.step {a : ServiceAction} (ht : Tracking s h) (hs : Sane s) (hd : Dated h s)
    (hticks : 0 ≤ s.registry.timeoutTicks) (hstep : s.step a = some s') :
    Tracking s' (h.observe s s') := by
  intro k c ids stage hpc hback hafter
  have hs' := hs.step hstep
  rcases lastChange_observe h s s' with ⟨hrecords, hlast⟩ | hnow
  · rw [hlast] at hafter
    -- what was read back before was so at the same date
    have hold : ∀ old, s.handlers k = .heartbeat c ids old → old.readBack = true →
        Tracked s c old := by
      intro old holdpc hback'
      refine ht k c ids old holdpc hback' ?_
      rcases computedFrom_observe h s s' k with hsame | ⟨-, hreading⟩
      · rwa [hsame] at hafter
      · rw [holdpc, isReading_of_readBack hback'] at hreading
        cases hreading
    rcases step_cases hstep with ⟨call, rfl⟩ | ⟨k', readings, now, hadmits, hsection⟩ |
      ⟨now, -, rfl⟩
    · rw [handlers_receive] at hpc
      split at hpc
      · rw [(entry_of_heartbeat hpc).2.2] at hback
        cases hback
      · exact (hold stage hpc hback).congr hs hs' hrecords fun hn => hn.congr rfl hrecords
    · by_cases hk : k = k'
      · subst hk
        obtain ⟨old, holdpc, hprogress⟩ := hsection.progress hs hpc
        exact Tracked.section (hold old holdpc) hs hs' hadmits hrecords hprogress hback
      · rw [hsection.handlers_of_ne hk] at hpc
        exact (hold stage hpc hback).congr hs hs' hrecords fun hn =>
          hn.section hticks hsection hrecords
    · exact (hold stage hpc hback).congr hs hs' hrecords fun hn => hn.congr rfl hrecords
  · -- the records change now, and everything computed so far is from before
    rw [hnow] at hafter
    have hfrom := hd.computedFrom_observe_le s' k
    omega

/-! ## Shares of what is kept -/

/-- The same shares of what is limited are the same of all. -/
theorem fairShare_of_sameShares {c : ClientId} (h : s'.SameShares c s) (r : ResourceId) :
    s'.fairShare c r = s.fairShare c r := by
  by_cases hlimited : r ∈ s'.manager.resourceLimits.keys ++ s.manager.resourceLimits.keys
  · exact h r hlimited
  · simp only [List.mem_append, Std.ExtTreeMap.mem_keys, not_or] at hlimited
    rw [fairShare_of_unconfigured (OrderedMap.not_mem_iff.mp hlimited.1),
      fairShare_of_unconfigured (OrderedMap.not_mem_iff.mp hlimited.2)]

/-- **The shares computed after a client's last change are those of now.** -/
def Current (s : ServiceState) (h : History) : Prop :=
  ∀ k c ids stage, s.handlers k = .heartbeat c ids stage →
    h.lastShareChange c ≤ h.computedFrom k →
      ∀ r v, stage.allocations[r]? = some v → v = s.fairShare c r

/-- They stay so: no share of the client changes before the next such
change, and after it none has been computed. -/
theorem Current.step {a : ServiceAction} (hcurrent : Current s h) (hs : Sane s) (hd : Dated h s)
    (hstep : s.step a = some s') : Current s' (h.observe s s') := by
  intro k c ids stage hpc hafter r v hv
  have hs' := hs.step hstep
  rcases lastShareChange_observe h s s' c with ⟨hsame, hlast⟩ | hnow
  · rw [hlast] at hafter
    rw [fairShare_of_sameShares hsame]
    -- a share there was before was computed from the same state
    have hold : ∀ old, s.handlers k = .heartbeat c ids old → old.allocations[r]? = some v →
        v = s.fairShare c r := by
      intro old holdpc hv
      refine hcurrent k c ids old holdpc ?_ r v hv
      rcases computedFrom_observe h s s' k with hsame | ⟨-, hreading⟩
      · rwa [hsame] at hafter
      · rw [holdpc, isReading_of_lookup hv] at hreading
        cases hreading
    rcases step_cases hstep with ⟨call, rfl⟩ | ⟨k', readings, now, hadmits, hsection⟩ |
      ⟨now, -, rfl⟩
    · rw [handlers_receive] at hpc
      split at hpc
      · rw [(entry_of_heartbeat hpc).1] at hv
        simp at hv
      · exact hold stage hpc hv
    · by_cases hk : k = k'
      · subst hk
        obtain ⟨old, holdpc, hprogress⟩ := hsection.progress hs hpc
        cases hprogress with
        | early hback hallocations => simp [hallocations] at hv
        | read hstage hregistry hstage' => simp [hstage'] at hv
        | kept hback hallocations hshare hswept =>
          rw [hallocations] at hv
          exact hold old holdpc hv
        | shared hback hshare hallocations hswept hread =>
          rw [hallocations, OrderedMap.lookup_insert] at hv
          split at hv
          · rename_i hr
            subst hr
            exact (Option.some.inj hv).symm
          · exact hold old holdpc hv
      · rw [hsection.handlers_of_ne hk] at hpc
        exact hold stage hpc hv
    · exact hold stage hpc hv
  · rw [hnow] at hafter
    have hfrom := hd.computedFrom_observe_le s' k
    omega

end ServiceState

end Throttling
