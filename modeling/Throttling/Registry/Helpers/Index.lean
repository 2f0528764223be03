import Throttling.Registry.Model.Registry
import Mathlib.Data.Finset.Card
/-!
# What the registry's sections do to the two maps

For each section, its effect on `clients_` as a lookup and on the reverse
index as an edit of the entries of a set of resources, and that the index
stays the mirror image of the interests (`IndexMirrors`). The edits go
through `editIndex`, so the two pruning loops and the inserting one are
one lemma each.
-/

namespace Throttling

namespace ClientRegistry

variable {reg : ClientRegistry} {clientId a : ClientId} {r : ResourceId}

/-! ## The timeout -/

/-- Up to 9223372036 s the conversion is exact. -/
theorem timeoutTicks_of_le (hnonneg : 0 ≤ reg.heartbeatTimeout)
    (hfits : reg.heartbeatTimeout ≤ 9223372036) :
    reg.timeoutTicks = reg.heartbeatTimeout * ticksPerSecond := by
  unfold timeoutTicks ticksPerSecond
  exact Int.bmod_eq_of_le (by omega) (by omega)

theorem timeoutTicks_nonneg (hnonneg : 0 ≤ reg.heartbeatTimeout)
    (hfits : reg.heartbeatTimeout ≤ 9223372036) : 0 ≤ reg.timeoutTicks := by
  rw [timeoutTicks_of_le hnonneg hfits, ticksPerSecond]
  omega

theorem timeoutTicks_congr {reg' : ClientRegistry}
    (h : reg'.heartbeatTimeout = reg.heartbeatTimeout) : reg'.timeoutTicks = reg.timeoutTicks := by
  rw [timeoutTicks, timeoutTicks, h]

/-! ## Edits of the index -/

theorem lookup_editIndex (edit : Option (Finset ClientId) → Option (Finset ClientId))
    (rs : Finset ResourceId) (index : OrderedMap ResourceId (Finset ClientId)) (r : ResourceId) :
    (editIndex edit rs index)[r]? = if r ∈ rs then edit index[r]? else index[r]? := by
  rw [editIndex, OrderedMap.lookup_foldl_alter (fun _ => edit) r _ _ rs.nodup_ascending]
  simp only [Finset.mem_ascending]

theorem mem_indexInsert {e : Option (Finset ClientId)} :
    a ∈ (indexInsert clientId e).getD ∅ ↔ a = clientId ∨ a ∈ e.getD ∅ := by
  simp [indexInsert]

theorem mem_indexErase {e : Option (Finset ClientId)} :
    a ∈ (indexErase clientId e).getD ∅ ↔ a ≠ clientId ∧ a ∈ e.getD ∅ := by
  rw [← Finset.mem_erase]
  unfold indexErase
  dsimp only
  split
  · rename_i h; rw [h]; simp
  · simp

theorem nonempty_of_indexInsert {e : Option (Finset ClientId)} {S : Finset ClientId}
    (h : indexInsert clientId e = some S) : S.Nonempty := by
  obtain rfl : insert clientId (e.getD ∅) = S := by simpa [indexInsert] using h
  exact Finset.insert_nonempty _ _

theorem nonempty_of_indexErase {e : Option (Finset ClientId)} {S : Finset ClientId}
    (h : indexErase clientId e = some S) : S.Nonempty := by
  unfold indexErase at h
  dsimp only at h
  split at h
  · cases h
  · rename_i hne
    obtain rfl := Option.some.inj h
    exact Finset.nonempty_iff_ne_empty.mpr hne

theorem mem_clientsForResourceLocked :
    a ∈ reg.clientsForResourceLocked r ↔ a ∈ (reg.resourceToClients[r]?).getD ∅ := by
  unfold clientsForResourceLocked
  cases reg.resourceToClients[r]? <;> rfl

theorem mem_interestedResourcesLocked :
    r ∈ reg.interestedResourcesLocked clientId ↔
      ∃ info, reg.clients[clientId]? = some info ∧ r ∈ info.interestedResources := by
  unfold interestedResourcesLocked
  cases reg.clients[clientId]? <;> simp

/-! ## The invariant -/

theorem indexMirrors_new (heartbeatTimeout : ℤ) : (new heartbeatTimeout).IndexMirrors where
  mem_iff := by simp [new]
  nonempty := by simp [new]

/-- The invariant reads the two maps alone. -/
theorem IndexMirrors.congr {reg' : ClientRegistry} (h : reg.IndexMirrors)
    (hc : reg'.clients = reg.clients) (hi : reg'.resourceToClients = reg.resourceToClients) :
    reg'.IndexMirrors where
  mem_iff := by rw [hc, hi]; exact h.mem_iff
  nonempty := by rw [hi]; exact h.nonempty

/-! ## Notifications touch neither map -/

@[simp] theorem notify_clients (e : ListenerEvent) : (reg.notify e).clients = reg.clients := by
  unfold notify; split <;> rfl

@[simp] theorem notify_resourceToClients (e : ListenerEvent) :
    (reg.notify e).resourceToClients = reg.resourceToClients := by
  unfold notify; split <;> rfl

@[simp] theorem notify_heartbeatTimeout (e : ListenerEvent) :
    (reg.notify e).heartbeatTimeout = reg.heartbeatTimeout := by
  unfold notify; split <;> rfl

/-! ## Removal -/

@[simp] theorem removeClientLocked_heartbeatTimeout (reg : ClientRegistry) (clientId : ClientId) :
    (reg.removeClientLocked clientId).heartbeatTimeout = reg.heartbeatTimeout := by
  unfold removeClientLocked; split <;> simp

theorem lookup_removeClientLocked (reg : ClientRegistry) (clientId a : ClientId) :
    (reg.removeClientLocked clientId).clients[a]? =
      if clientId = a then none else reg.clients[a]? := by
  unfold removeClientLocked
  split
  · rename_i hnone
    split
    · rename_i h; exact h ▸ hnone
    · rfl
  · rw [notify_clients]
    exact OrderedMap.lookup_erase _ _ _

theorem IndexMirrors.removeClientLocked (h : reg.IndexMirrors) (clientId : ClientId) :
    (reg.removeClientLocked clientId).IndexMirrors := by
  cases hinfo : reg.clients[clientId]? with
  | none => rw [ClientRegistry.removeClientLocked, hinfo]; exact h
  | some info =>
    have hindex : ∀ r, (reg.removeClientLocked clientId).resourceToClients[r]? =
        if r ∈ info.interestedResources then indexErase clientId reg.resourceToClients[r]?
        else reg.resourceToClients[r]? := by
      intro r
      rw [ClientRegistry.removeClientLocked, hinfo]
      simp only [notify_resourceToClients]
      exact lookup_editIndex _ _ _ r
    refine ⟨fun c r => ?_, fun r S hS => ?_⟩
    · have hold := h.mem_iff c r
      rw [lookup_removeClientLocked, hindex]
      by_cases hc : clientId = c
      · -- the client itself: its own interests are exactly the entries edited
        subst hc
        rw [if_pos rfl]
        split
        · simp [mem_indexErase]
        · rename_i hr
          rw [hold, hinfo]
          simpa using hr
      · -- anybody else: an erasure takes out one client alone
        rw [if_neg hc, ← hold]
        split
        · rw [mem_indexErase]; simp [Ne.symm hc]
        · rfl
    · rw [hindex] at hS
      split at hS
      · exact nonempty_of_indexErase hS
      · exact h.nonempty r S hS

/-! ## The expiry pass -/

theorem mem_staleClients {now : ClientId → TimePoint} :
    a ∈ reg.staleClients now ↔
      ∃ info, reg.clients[a]? = some info ∧ reg.isClientStaleLocked info (now a) = true := by
  simp only [staleClients, List.mem_map, List.mem_filter, Prod.exists]
  constructor
  · rintro ⟨c, info, ⟨hmem, hstale⟩, rfl⟩
    exact ⟨info, Std.ExtTreeMap.mem_toList_iff_getElem?_eq_some.mp hmem, hstale⟩
  · rintro ⟨info, hinfo, hstale⟩
    exact ⟨a, info, ⟨Std.ExtTreeMap.mem_toList_iff_getElem?_eq_some.mpr hinfo, hstale⟩, rfl⟩

theorem lookup_foldl_removeClientLocked (a : ClientId) :
    ∀ (l : List ClientId) (reg : ClientRegistry),
      (l.foldl removeClientLocked reg).clients[a]? = if a ∈ l then none else reg.clients[a]? := by
  intro l
  induction l with
  | nil => intro reg; simp
  | cons c cs ih =>
    intro reg
    rw [List.foldl_cons, ih, lookup_removeClientLocked]
    by_cases hc : c = a
    · subst hc; simp
    · simp [hc, Ne.symm hc]

/-- **The pass removes the stale clients and no other.** -/
theorem lookup_expireStaleClients (reg : ClientRegistry) (now : ClientId → TimePoint)
    (a : ClientId) :
    (reg.expireStaleClients now).clients[a]? =
      (reg.clients[a]?).filter fun info => !reg.isClientStaleLocked info (now a) := by
  rw [expireStaleClients, lookup_foldl_removeClientLocked]
  simp only [mem_staleClients]
  cases hinfo : reg.clients[a]? with
  | none => simp
  | some info =>
    cases hstale : reg.isClientStaleLocked info (now a) <;> simp [Option.filter, hstale]

@[simp] theorem expireStaleClients_heartbeatTimeout (reg : ClientRegistry)
    (now : ClientId → TimePoint) :
    (reg.expireStaleClients now).heartbeatTimeout = reg.heartbeatTimeout := by
  rw [expireStaleClients]
  induction reg.staleClients now generalizing reg with
  | nil => rfl
  | cons c cs ih => rw [List.foldl_cons, ih, removeClientLocked_heartbeatTimeout]

/-- Staleness reads nothing of the registry but its timeout. -/
theorem isClientStaleLocked_congr {reg' : ClientRegistry}
    (h : reg'.heartbeatTimeout = reg.heartbeatTimeout) (info : ClientInfo) (now : TimePoint) :
    reg'.isClientStaleLocked info now = reg.isClientStaleLocked info now := by
  rw [isClientStaleLocked, isClientStaleLocked, timeoutTicks_congr h]

/-- A pass that finds nobody stale changes nothing. -/
theorem expireStaleClients_eq_self {now : ClientId → TimePoint}
    (h : ∀ a info, reg.clients[a]? = some info → reg.isClientStaleLocked info (now a) = false) :
    reg.expireStaleClients now = reg := by
  have hnil : reg.staleClients now = [] := by
    refine List.eq_nil_iff_forall_not_mem.mpr fun a ha => ?_
    obtain ⟨info, hinfo, hstale⟩ := mem_staleClients.mp ha
    rw [h a info hinfo] at hstale
    cases hstale
  rw [expireStaleClients, hnil, List.foldl_nil]

/-- Who is left after a pass is fresh. -/
theorem fresh_of_lookup_expireStaleClients {now : ClientId → TimePoint} {info : ClientInfo}
    (h : (reg.expireStaleClients now).clients[a]? = some info) :
    reg.clients[a]? = some info ∧ reg.isClientStaleLocked info (now a) = false := by
  rw [lookup_expireStaleClients, Option.filter_eq_some_iff] at h
  simpa using h

/-- **A second pass at the same readings finds nobody.** -/
theorem expireStaleClients_expireStaleClients (reg : ClientRegistry)
    (now : ClientId → TimePoint) :
    (reg.expireStaleClients now).expireStaleClients now = reg.expireStaleClients now := by
  refine expireStaleClients_eq_self fun a info hinfo => ?_
  rw [isClientStaleLocked_congr (expireStaleClients_heartbeatTimeout reg now)]
  exact (fresh_of_lookup_expireStaleClients hinfo).2

/-- The registry after the pass at one reading. -/
def expiredAt (reg : ClientRegistry) (now : TimePoint) : ClientRegistry :=
  reg.expireStaleClients fun _ => now

@[simp] theorem expiredAt_expiredAt (reg : ClientRegistry) (now : TimePoint) :
    (reg.expiredAt now).expiredAt now = reg.expiredAt now :=
  expireStaleClients_expireStaleClients reg _

theorem IndexMirrors.expireStaleClients (h : reg.IndexMirrors) (now : ClientId → TimePoint) :
    (reg.expireStaleClients now).IndexMirrors := by
  rw [ClientRegistry.expireStaleClients]
  induction reg.staleClients now generalizing reg with
  | nil => exact h
  | cons c cs ih => exact ih (h.removeClientLocked c)

/-! ## The operations' own sections -/

theorem lookup_registerClientLocked (reg : ClientRegistry) (clientId a : ClientId)
    (now : TimePoint) :
    (reg.registerClientLocked clientId now).2.clients[a]? =
      if clientId = a then some ⟨now, reg.interestedResourcesLocked clientId⟩
      else reg.clients[a]? := by
  unfold registerClientLocked interestedResourcesLocked
  cases reg.clients[clientId]? with
  | none => simp only [notify_clients, OrderedMap.lookup_insert]
  | some it => exact OrderedMap.lookup_insert _ _ _ _

@[simp] theorem registerClientLocked_resourceToClients (reg : ClientRegistry)
    (clientId : ClientId) (now : TimePoint) :
    (reg.registerClientLocked clientId now).2.resourceToClients = reg.resourceToClients := by
  unfold registerClientLocked; split <;> simp

@[simp] theorem registerClientLocked_heartbeatTimeout (reg : ClientRegistry)
    (clientId : ClientId) (now : TimePoint) :
    (reg.registerClientLocked clientId now).2.heartbeatTimeout = reg.heartbeatTimeout := by
  unfold registerClientLocked; split <;> simp

@[simp] theorem registerClientLocked_fst (reg : ClientRegistry) (clientId : ClientId)
    (now : TimePoint) : (reg.registerClientLocked clientId now).1 = true := by
  unfold registerClientLocked; split <;> rfl

/-- A registration changes no client's interests: it renews a time, or
adds a client with none. -/
theorem IndexMirrors.registerClientLocked (h : reg.IndexMirrors) (clientId : ClientId)
    (now : TimePoint) : (reg.registerClientLocked clientId now).2.IndexMirrors where
  mem_iff c r := by
    rw [registerClientLocked_resourceToClients, h.mem_iff, lookup_registerClientLocked]
    by_cases hc : clientId = c
    · subst hc
      rw [if_pos rfl, ← mem_interestedResourcesLocked]
      simp
    · rw [if_neg hc]
  nonempty r S hS := by
    rw [registerClientLocked_resourceToClients] at hS
    exact h.nonempty r S hS

theorem heartbeatLocked_of_none {resourceIds : Finset ResourceId} {now : TimePoint}
    (hc : reg.clients[clientId]? = none) :
    reg.heartbeatLocked clientId resourceIds now = (false, reg) := by
  rw [heartbeatLocked, hc]

theorem heartbeatLocked_fst (reg : ClientRegistry) (clientId : ClientId)
    (resourceIds : Finset ResourceId) (now : TimePoint) :
    (reg.heartbeatLocked clientId resourceIds now).1 = (reg.clients[clientId]?).isSome := by
  unfold heartbeatLocked
  cases reg.clients[clientId]? <;> rfl

@[simp] theorem heartbeatLocked_heartbeatTimeout (reg : ClientRegistry) (clientId : ClientId)
    (resourceIds : Finset ResourceId) (now : TimePoint) :
    (reg.heartbeatLocked clientId resourceIds now).2.heartbeatTimeout = reg.heartbeatTimeout := by
  unfold heartbeatLocked
  cases reg.clients[clientId]? with
  | none => rfl
  | some it => dsimp only; split <;> simp

theorem lookup_heartbeatLocked {resourceIds : Finset ResourceId} {now : TimePoint}
    {it : ClientInfo} (hc : reg.clients[clientId]? = some it) (a : ClientId) :
    (reg.heartbeatLocked clientId resourceIds now).2.clients[a]? =
      if clientId = a then some ⟨now, resourceIds⟩ else reg.clients[a]? := by
  rw [heartbeatLocked, hc]
  dsimp only
  split
  · rw [notify_clients]; exact OrderedMap.lookup_insert _ _ _ _
  · exact OrderedMap.lookup_insert _ _ _ _

theorem index_heartbeatLocked {resourceIds : Finset ResourceId} {now : TimePoint}
    {it : ClientInfo} (hc : reg.clients[clientId]? = some it) (r : ResourceId) :
    (reg.heartbeatLocked clientId resourceIds now).2.resourceToClients[r]? =
      if r ∈ it.interestedResources \ resourceIds then
        indexErase clientId reg.resourceToClients[r]?
      else if r ∈ resourceIds \ it.interestedResources then
        indexInsert clientId reg.resourceToClients[r]?
      else reg.resourceToClients[r]? := by
  have hedit : (reg.heartbeatLocked clientId resourceIds now).2.resourceToClients =
      editIndex (indexErase clientId) (it.interestedResources \ resourceIds)
        (editIndex (indexInsert clientId) (resourceIds \ it.interestedResources)
          reg.resourceToClients) := by
    rw [heartbeatLocked, hc]
    dsimp only
    split <;> simp
  rw [hedit, lookup_editIndex, lookup_editIndex]
  split
  · -- a resource dropped is not one added, so the first loop left its entry
    rename_i hrem
    rw [if_neg fun hadd => (Finset.mem_sdiff.mp hadd).2 (Finset.mem_sdiff.mp hrem).1]
  · rfl

/-- **The diff of a heartbeat keeps the mirror.** -/
theorem IndexMirrors.heartbeatLocked (h : reg.IndexMirrors) (clientId : ClientId)
    (resourceIds : Finset ResourceId) (now : TimePoint) :
    (reg.heartbeatLocked clientId resourceIds now).2.IndexMirrors := by
  cases hinfo : reg.clients[clientId]? with
  | none => rw [heartbeatLocked_of_none hinfo]; exact h
  | some it =>
    refine ⟨fun c r => ?_, fun r S hS => ?_⟩
    · have hold := h.mem_iff c r
      rw [lookup_heartbeatLocked hinfo, index_heartbeatLocked hinfo]
      by_cases hc : clientId = c
      · -- the client itself: dropped, added, or kept as it was
        subst hc
        rw [hinfo] at hold
        simp only [Option.some.injEq, exists_eq_left'] at hold
        simp only [if_pos, Option.some.injEq, exists_eq_left', Finset.mem_sdiff]
        split
        · rename_i hr; simp [mem_indexErase, hr.2]
        · split
          · rename_i hr; simp [mem_indexInsert, hr.1]
          · rename_i hrem hadd
            rw [hold]
            tauto
      · rw [if_neg hc, ← hold]
        split
        · simp [mem_indexErase, Ne.symm hc]
        · split
          · simp [mem_indexInsert, Ne.symm hc]
          · rfl
    · rw [index_heartbeatLocked hinfo] at hS
      split at hS
      · exact nonempty_of_indexErase hS
      · split at hS
        · exact nonempty_of_indexInsert hS
        · exact h.nonempty r S hS

theorem lookup_unregisterClientLocked (reg : ClientRegistry) (clientId a : ClientId) :
    (reg.unregisterClientLocked clientId).2.clients[a]? =
      if clientId = a then none else reg.clients[a]? := by
  unfold unregisterClientLocked
  split
  · rename_i hnone
    split
    · rename_i h; exact h ▸ hnone
    · rfl
  · exact lookup_removeClientLocked _ _ _

@[simp] theorem unregisterClientLocked_heartbeatTimeout (reg : ClientRegistry)
    (clientId : ClientId) :
    (reg.unregisterClientLocked clientId).2.heartbeatTimeout = reg.heartbeatTimeout := by
  unfold unregisterClientLocked; split <;> simp

theorem IndexMirrors.unregisterClientLocked (h : reg.IndexMirrors) (clientId : ClientId) :
    (reg.unregisterClientLocked clientId).2.IndexMirrors := by
  unfold ClientRegistry.unregisterClientLocked
  split
  · exact h
  · exact h.removeClientLocked clientId

/-- **A resource's entry counts exactly the clients interested in it.** -/
theorem IndexMirrors.mem_clientsForResourceLocked (h : reg.IndexMirrors) :
    a ∈ reg.clientsForResourceLocked r ↔ r ∈ reg.interestedResourcesLocked a := by
  rw [ClientRegistry.mem_clientsForResourceLocked, h.mem_iff, mem_interestedResourcesLocked]

/-- **The clients determine the index**: two registries with the same
clients have the same. -/
theorem IndexMirrors.resourceToClients_eq {reg' : ClientRegistry} (h : reg.IndexMirrors)
    (h' : reg'.IndexMirrors) (hclients : reg.clients = reg'.clients) :
    reg.resourceToClients = reg'.resourceToClients := by
  refine Std.ExtTreeMap.ext_getElem? fun r => ?_
  have hmem : (reg.resourceToClients[r]?).getD ∅ = (reg'.resourceToClients[r]?).getD ∅ := by
    ext c
    rw [h.mem_iff, h'.mem_iff, hclients]
  -- an entry that is there has somebody in it, so a missing one is not empty
  cases hS : reg.resourceToClients[r]? with
  | none =>
    cases hS' : reg'.resourceToClients[r]? with
    | none => rfl
    | some S' =>
      have hne := h'.nonempty r S' hS'
      rw [hS, hS'] at hmem
      exact absurd hmem.symm hne.ne_empty
  | some S =>
    have hne := h.nonempty r S hS
    cases hS' : reg'.resourceToClients[r]? with
    | none =>
      rw [hS, hS'] at hmem
      exact absurd hmem hne.ne_empty
    | some S' =>
      rw [hS, hS'] at hmem
      exact congrArg some hmem

/-- What a pass leaves of a client is a matter of its entry and the
timeout. -/
theorem lookup_expiredAt_congr {reg' : ClientRegistry}
    (htimeout : reg.heartbeatTimeout = reg'.heartbeatTimeout)
    (h : reg.clients[a]? = reg'.clients[a]?) (now : TimePoint) :
    (reg.expiredAt now).clients[a]? = (reg'.expiredAt now).clients[a]? := by
  rw [expiredAt, expiredAt, lookup_expireStaleClients, lookup_expireStaleClients, h]
  simp only [isClientStaleLocked, timeoutTicks_congr htimeout]

/-- A later pass finds what an earlier one would have removed. -/
theorem lookup_expiredAt_expiredAt {now later : TimePoint} (hle : now ≤ later) (a : ClientId) :
    ((reg.expiredAt now).expiredAt later).clients[a]? = (reg.expiredAt later).clients[a]? := by
  simp only [expiredAt, lookup_expireStaleClients]
  cases reg.clients[a]? with
  | none => rfl
  | some info =>
    by_cases hstale : reg.isClientStaleLocked info now = true
    · have hstale' : reg.isClientStaleLocked info later = true := by
        rw [isClientStaleLocked, decide_eq_true_eq] at hstale ⊢
        exact lt_of_lt_of_le hstale (sub_le_sub_right hle _)
      simp [Option.filter, hstale, hstale']
    · have hsame : (reg.expireStaleClients fun _ => now).isClientStaleLocked info later =
          reg.isClientStaleLocked info later :=
        isClientStaleLocked_congr (expireStaleClients_heartbeatTimeout reg _) info later
      simp [Option.filter, hstale, hsame]

end ClientRegistry

end Throttling
