import Throttling.Server.Helpers.Handlers
import Mathlib.Data.Prod.Lex
/-!
# Calls under way

What brings a call to its end: each section of its handler leaves less
of it ahead (`Section.ahead_lt`), and one is open to it unless it waits
for the manager's mutex (`handlerSection_isSome`), which is held by a
handler that can go on (`Kept`).
-/

namespace Throttling

open ClientRegistry

/-! ## What a handler has ahead -/

namespace HeartbeatStage

/-- The sections before the shares. -/
def early : HeartbeatStage → ℕ
  | .expiring => 4
  | .recording => 3
  | .interestsExpiring => 2
  | .interestsReading => 1
  | _ => 0

/-- And those of the shares. -/
def toDo : HeartbeatStage → ℕ
  | .locking _ remaining _ => 3 * remaining.length + 3
  | .shareExpiring _ _ remaining _ => 3 * remaining.length + 2
  | .shareReading _ _ remaining _ => 3 * remaining.length + 1
  | _ => 0

variable {remaining : List ResourceId} {acc : OrderedMap ResourceId ℚ}

@[simp] theorem early_next : (next remaining acc).early = 0 := by
  cases remaining <;> rfl

@[simp] theorem toDo_next : (next remaining acc).toDo = 3 * remaining.length := by
  cases remaining <;> rfl

end HeartbeatStage

namespace HandlerPc

/-- **What a handler has ahead.** -/
def ahead : HandlerPc → ℕ ×ₗ ℕ
  | .registerExpiring _ => toLex (2, 0)
  | .registering _ => toLex (1, 0)
  | .unregisterExpiring _ => toLex (2, 0)
  | .unregistering _ => toLex (1, 0)
  | .settingLimit _ _ => toLex (1, 0)
  | .heartbeat _ _ stage => toLex (stage.early, stage.toDo)
  | _ => toLex (0, 0)

/-- Nothing is left to do for a handler. -/
def isThrough : HandlerPc → Bool
  | .idle => true
  | .returned _ => true
  | .heartbeat _ _ (.answered _ _) => true
  | _ => false

theorem exists_stage {pc : HandlerPc} {c : ClientId} {ids : Finset ResourceId}
    (h : pc.request = some (c, ids)) : ∃ stage, pc = .heartbeat c ids stage := by
  cases pc with
  | heartbeat c' ids' stage =>
    obtain ⟨rfl, rfl⟩ := Prod.mk.inj (Option.some.inj h)
    exact ⟨stage, rfl⟩
  | _ => cases h

theorem ne_idle_of_busy {pc : HandlerPc} (h : pc.isThrough = false) : pc ≠ .idle := by
  rintro rfl
  cases h

/-- It waits for the manager's mutex. -/
def isLocking : HandlerPc → Bool
  | .settingLimit _ _ => true
  | .heartbeat _ _ (.locking _ _ _) => true
  | _ => false

/-- It is in the middle of a share, the limit read. -/
def isSharing : HandlerPc → Bool
  | .heartbeat _ _ (.shareExpiring _ _ _ _) => true
  | .heartbeat _ _ (.shareReading _ _ _ _) => true
  | _ => false

theorem isThrough_of_isSharing {pc : HandlerPc} (h : pc.isSharing = true) :
    pc.isThrough = false := by
  unfold isSharing at h
  split at h <;> first | rfl | cases h

theorem isLocking_of_isSharing {pc : HandlerPc} (h : pc.isSharing = true) :
    pc.isLocking = false := by
  unfold isSharing at h
  split at h <;> first | rfl | cases h

end HandlerPc

namespace ServiceState

variable {s s' : ServiceState} {handler k : ℕ} {readings : ClientId → TimePoint} {now : TimePoint}
variable {c : ClientId} {ids : Finset ResourceId} {stage : HeartbeatStage}

/-- **A section leaves less ahead.** -/
theorem Section.ahead_lt (h : Section s s' handler readings now) :
    (s'.handlers handler).ahead < (s.handlers handler).ahead := by
  have hless : ∀ {m n m' n' : ℕ}, m < m' ∨ m = m' ∧ n < n' → toLex (m, n) < toLex (m', n') :=
    fun hlt => Prod.Lex.toLex_lt_toLex.mpr hlt
  cases h with
  | interestsRead hpc heq =>
    rw [heq, goto_self, hpc]
    refine hless (.inl ?_)
    rw [HeartbeatStage.early_next]
    exact Nat.one_pos
  | unconfigured hlimit hpc heq =>
    rw [heq, goto_self, hpc]
    refine hless (.inr ⟨HeartbeatStage.early_next, ?_⟩)
    rw [HeartbeatStage.toDo_next, HeartbeatStage.toDo]
    omega
  | locked hfree hlimit hpc heq =>
    rw [heq, goto_self, hpc]
    refine hless (.inr ⟨rfl, ?_⟩)
    rw [HeartbeatStage.toDo, HeartbeatStage.toDo]
    omega
  | shareSwept hpc heq =>
    rw [heq, goto_self, hpc]
    refine hless (.inr ⟨rfl, ?_⟩)
    rw [HeartbeatStage.toDo, HeartbeatStage.toDo]
    omega
  | shareRead hpc heq =>
    rw [heq, goto_self, hpc]
    refine hless (.inr ⟨HeartbeatStage.early_next, ?_⟩)
    rw [HeartbeatStage.toDo_next, HeartbeatStage.toDo]
    omega
  | _ =>
    rename_i hpc heq
    rw [heq, goto_self, hpc]
    exact hless (.inl (by decide))

/-- Only a handler that is not through has a section. -/
theorem Section.isThrough (h : Section s s' handler readings now) :
    (s.handlers handler).isThrough = false := by
  cases h <;>
  · rename_i hpc _
    rw [hpc]
    rfl

/-- **A section is open** to a handler that is not through, unless it waits
for the mutex in vain. -/
theorem handlerSection_isSome (hbusy : (s.handlers k).isThrough = false)
    (hfree : (s.handlers k).isLocking = true → s.holder = none) :
    (s.handlerSection k (fun _ => s.clock) s.clock).isSome = true := by
  have hadmits : s.admits (fun _ => s.clock) s.clock = true := by simp [admits]
  rw [handlerSection, if_pos hadmits]
  cases hpc : s.handlers k with
  | idle | returned =>
    rw [hpc] at hbusy
    cases hbusy
  | settingLimit r limit =>
    have hfree := hfree (by rw [hpc]; rfl)
    simp [hpc, hfree]
  | heartbeat c ids stage =>
    simp only [hpc]
    cases stage with
    | answered status response =>
      rw [hpc] at hbusy
      cases hbusy
    | recording =>
      simp only [heartbeatSection]
      split <;> rfl
    | locking r remaining acc =>
      have hfree := hfree (by rw [hpc]; rfl)
      simp only [heartbeatSection, hfree]
      cases s.manager.resourceLimits[r]? <;> rfl
    | _ => rfl
  | _ => simp [hpc]

/-- And a section that waits for the mutex finds it free. -/
theorem holder_of_handlerSection (h : (s.handlerSection k readings now).isSome = true)
    (hlocking : (s.handlers k).isLocking = true) : s.holder = none := by
  by_contra hheld
  obtain ⟨u, hu⟩ := Option.ne_none_iff_exists'.mp hheld
  rw [handlerSection] at h
  split at h
  · cases hpc : s.handlers k with
    | settingLimit r limit => simp [hpc, hu] at h
    | heartbeat c ids stage =>
      cases stage with
      | locking r remaining acc => simp [hpc, hu, heartbeatSection] at h
      | _ =>
        rw [hpc] at hlocking
        cases hlocking
    | _ =>
      rw [hpc] at hlocking
      cases hlocking
  · cases h

/-! ## Who holds the mutex, and who is registered -/

/-- **What sections keep as well**: the manager's mutex is held by a handler
in the middle of a share, and who is registered, or is about to be, has a
name. -/
structure Kept (s : ServiceState) : Prop where
  held : ∀ k, s.holder = some k → (s.handlers k).isSharing = true
  beginning : ∀ k c, s.handlers k = .registerExpiring c ∨ s.handlers k = .registering c →
    c.isEmpty = false
  named : ∀ c ∈ s.registry.clients, c.isEmpty = false

theorem kept_init (heartbeatTimeout : ℤ) : Kept (serviceSystem heartbeatTimeout).init where
  held k h := by cases h
  beginning k c h := by rcases h with h | h <;> cases h
  named c h := by
    have hempty : c ∈ (∅ : OrderedMap ClientId ClientInfo) := h
    simp at hempty

theorem Kept.receive (h : Kept s) (hs : Sane s) (call : ServiceCall) : Kept (s.receive call) where
  held u hu := by
    have hsharing := h.held u hu
    have hne : u ≠ s.created := by
      rintro rfl
      rw [hs.fresh _ le_rfl] at hsharing
      cases hsharing
    rw [handlers_receive, if_neg hne]
    exact hsharing
  beginning u c hu := by
    rw [handlers_receive] at hu
    split at hu
    · cases call with
      | registerClient c' =>
        simp only [ServiceCall.entry] at hu
        split at hu
        · rcases hu with hu | hu <;> cases hu
        · rename_i hid
          rcases hu with hu | hu
          · obtain rfl := HandlerPc.registerExpiring.inj hu
            exact Bool.eq_false_iff.mpr hid
          · cases hu
      | unregisterClient c' => rcases hu with hu | hu <;> cases hu
      | heartbeat c' resourceIds => rcases hu with hu | hu <;> cases hu
      | setResourceLimit r limit =>
        simp only [ServiceCall.entry] at hu
        split at hu <;> rcases hu with hu | hu <;> cases hu
    · exact h.beginning u c hu
  named := h.named

/-- A section moves its handler, and the mutex to it or from it. -/
theorem Kept.held_section (h : Kept s) (hsection : Section s s' handler readings now) {u : ℕ}
    (hu : s'.holder = some u) : (s'.handlers u).isSharing = true := by
  by_cases hself : u = handler
  · subst hself
    cases hsection with
    | locked hfree hlimit hpc heq | shareSwept hpc heq =>
      rw [heq, goto_self]
      rfl
    | shareRead hpc heq =>
      rw [heq] at hu
      cases hu
    | _ =>
      -- its handler did not hold it, and does not take it
      rename_i hpc heq
      rw [heq] at hu
      have hsharing := h.held u hu
      rw [hpc] at hsharing
      cases hsharing
  · have hold : s.holder = some u := by
      cases hsection with
      | locked hfree hlimit hpc heq =>
        rw [heq] at hu
        exact absurd (Option.some.inj hu).symm hself
      | shareRead hpc heq =>
        rw [heq] at hu
        cases hu
      | _ =>
        rename_i heq
        rw [heq] at hu
        exact hu
    rw [hsection.handlers_of_ne hself]
    exact h.held u hold

theorem Kept.beginning_section (h : Kept s) (hsection : Section s s' handler readings now) {u : ℕ}
    (hu : s'.handlers u = .registerExpiring c ∨ s'.handlers u = .registering c) :
    c.isEmpty = false := by
  by_cases hself : u = handler
  · subst hself
    cases hsection with
    | registerSwept hpc heq =>
      rw [heq, goto_self] at hu
      rcases hu with hu | hu
      · cases hu
      · obtain rfl := HandlerPc.registering.inj hu
        exact h.beginning u _ (.inl hpc)
    | _ =>
      rename_i heq
      rw [heq, goto_self] at hu
      rcases hu with hu | hu <;> cases hu
  · rw [hsection.handlers_of_ne hself] at hu
    exact h.beginning u c hu

/-- **Who is registered by a section** was so before, or asked for it. -/
theorem Section.enters (h : Section s s' handler readings now) (hc : c ∈ s'.registry.clients) :
    c ∈ s.registry.clients ∨ s.handlers handler = .registering c := by
  obtain ⟨info, hinfo⟩ := OrderedMap.mem_iff_exists.mp hc
  have hkept : s'.registry = s.registry → c ∈ s.registry.clients := fun hsame => hsame ▸ hc
  have hswept : s'.registry = s.registry.expireStaleClients readings →
      c ∈ s.registry.clients := by
    intro hsame
    rw [hsame] at hinfo
    exact OrderedMap.mem_iff_exists.mpr ⟨info, (fresh_of_lookup_expireStaleClients hinfo).1⟩
  cases h with
  | registerSwept hpc heq => exact .inl (hswept (by rw [heq]; rfl))
  | unregisterSwept hpc heq => exact .inl (hswept (by rw [heq]; rfl))
  | heartbeatSwept hpc heq => exact .inl (hswept (by rw [heq]; rfl))
  | interestsSwept hpc heq => exact .inl (hswept (by rw [heq]; rfl))
  | shareSwept hpc heq => exact .inl (hswept (by rw [heq]; rfl))
  | @registered c' hpc heq =>
    have hregistry : s'.registry = (s.registry.registerClientLocked c' now).2 := by rw [heq]; rfl
    rw [hregistry, lookup_registerClientLocked] at hinfo
    split at hinfo
    · rename_i hself
      exact .inr (hself ▸ hpc)
    · exact .inl (OrderedMap.mem_iff_exists.mpr ⟨info, hinfo⟩)
  | @unregistered c' hpc heq =>
    have hregistry : s'.registry = (s.registry.unregisterClientLocked c').2 := by rw [heq]; rfl
    rw [hregistry, lookup_unregisterClientLocked] at hinfo
    split at hinfo
    · cases hinfo
    · exact .inl (OrderedMap.mem_iff_exists.mpr ⟨info, hinfo⟩)
  | @recorded c' ids info' hfound hpc heq =>
    have hregistry : s'.registry = (s.registry.heartbeatLocked c' ids now).2 := by rw [heq]; rfl
    rw [hregistry, lookup_heartbeatLocked hfound] at hinfo
    split at hinfo
    · rename_i hself
      exact .inl (OrderedMap.mem_iff_exists.mpr ⟨info', hself ▸ hfound⟩)
    · exact .inl (OrderedMap.mem_iff_exists.mpr ⟨info, hinfo⟩)
  | _ => rename_i heq; exact .inl (hkept (by rw [heq]; rfl))

theorem Kept.section (h : Kept s) (hsection : Section s s' handler readings now) : Kept s' :=
  ⟨fun _ => h.held_section hsection, fun _ _ => h.beginning_section hsection,
    fun c hc => (hsection.enters hc).elim (h.named c) fun hpc => h.beginning handler c (.inr hpc)⟩

theorem Kept.step {a : ServiceAction} (h : Kept s) (hs : Sane s) (hstep : s.step a = some s') :
    Kept s' := by
  rcases step_cases hstep with ⟨call, rfl⟩ | ⟨handler, readings, now, -, hsection⟩ | ⟨now, -, rfl⟩
  · exact h.receive hs call
  · exact h.section hsection
  · exact ⟨h.held, h.beginning, h.named⟩

end ServiceState

end Throttling
