import Throttling.Common.Races
import Throttling.Server.Helpers.Monitors
import Throttling.Server.Model.Handlers
/-!
# What the handlers answer among others

Handlers run in any number of threads, lock by lock. Whatever the others
do meanwhile, a query of one share or of one limit answers as the eager
reference would, from what the server had on record in one single state
that the call passed; a heartbeat names the interests it had on record in
one such state, and each of its shares is that of some such state. While
both mutexes are free, registry and manager are as whole sections bring
them about; and what two threads do next never depends on which goes
first.
-/

namespace Throttling

/-- What is answered to a query of a limit, given what is on record. -/
def Reference.limitAnswer (t : Reference) (resourceId : ResourceId) : Status × Response :=
  match t.limits[resourceId]? with
  | none =>
    (⟨.notFound, "resource not found"⟩,
      .getResourceLimit { errorMessage := "resource not found" })
  | some limit =>
    (.ok, .getResourceLimit
      { success := true, rateLimit := limit,
        activeClientCount := toInt32 (t.interested resourceId).card })

/-- What is answered to a call that names no client. -/
def invalidAnswer (request : Request) : Status × Response := ((Reference.new 0).answer 0 request).1

/-- **An accepted heartbeat's answer**, from states the call met: it was
registered in one, its interests are those of one, and each share is that
of one. -/
structure SharesMet (clientId : ClientId) (allocations : OrderedMap ResourceId ℚ)
    (met : Server → Prop) : Prop where
  registered : ∃ x, met x ∧ clientId ∈ x.registry.clients
  interests : ∃ x, met x ∧ ∀ r, r ∈ allocations ↔ r ∈ x.registry.interestedResourcesLocked clientId
  shares : ∀ (r : ResourceId) (v : ℚ), allocations[r]? = some v →
    ∃ x, met x ∧ v = x.recorded.allocation clientId r

/-- **What a heartbeat is told**: that its client is not registered, where
it was not in a state the call met, or its shares. -/
def HeartbeatTold (clientId : ClientId) (answer : Status × Response) (met : Server → Prop) : Prop :=
  ((∃ x, met x ∧ clientId ∉ x.registry.clients) ∧
    answer = (⟨.notFound, "client not registered"⟩,
      .heartbeat { errorMessage := "client not registered" })) ∨
  ∃ allocations, SharesMet clientId allocations met ∧
    answer = (.ok, .heartbeat { success := true, allocations := allocations })

/-- **What a call answers**, given the states of the data it met. -/
def Answered (request : Request) (answer : Status × Response) (met : Server → Prop) : Prop :=
  match request with
  | .registerClient clientId =>
    answer = if clientId.isEmpty then invalidAnswer request
      else (.ok, .registerClient { success := true })
  | .unregisterClient _ => answer = (.ok, .unregisterClient { success := true })
  | .heartbeat clientId _ =>
    if clientId.isEmpty then answer = invalidAnswer request else HeartbeatTold clientId answer met
  | .getAllocation clientId resourceId =>
    if clientId.isEmpty then answer = invalidAnswer request
    else ∃ x, met x ∧ answer = (.ok, .getAllocation
      { success := true, allocatedRate := x.recorded.allocation clientId resourceId })
  | .setResourceLimit _ rateLimit =>
    answer = if rateLimit < 0 then invalidAnswer request
      else (.ok, .setResourceLimit { success := true })
  | .getResourceLimit resourceId => ∃ x, met x ∧ answer = x.recorded.limitAnswer resourceId

namespace ServerProg

open Prog Guard

variable {timeout : ℤ} {held : Set Mutex} {seen : List Server} {s : Server}

/-- **Every handler answers from what it met**, and holds nothing then. -/
theorem sound_handler (request : Request) (s : Server) :
    (handler request).Sound (serverGuard timeout)
      (fun answer held seen _ => held = ∅ ∧ Answered request answer (· ∈ seen)) ∅ [] s := by
  cases request with
  | registerClient clientId =>
    refine Sound.bind ?_
    unfold registerClient
    split
    · rename_i hid
      refine sound_pure ⟨rfl, ?_⟩
      rw [Answered, if_pos hid]
      rw [String.isEmpty_iff] at hid
      subst hid
      rfl
    · rename_i hid
      refine Sound.bind (sound_registryRegisterClient (Bool.eq_false_iff.mpr hid)
        (Set.notMem_empty _) fun seen' s' _ => sound_pure (sound_pure ⟨rfl, ?_⟩))
      rw [Answered, if_neg hid]
  | unregisterClient clientId =>
    exact Sound.bind (Sound.bind (sound_registryUnregisterClient clientId (Set.notMem_empty _)
      fun seen' s' _ => sound_pure (sound_pure ⟨rfl, rfl⟩)))
  | heartbeat clientId resourceIds =>
    refine Sound.bind ?_
    unfold heartbeat
    split
    · rename_i hid
      refine sound_pure ⟨rfl, ?_⟩
      rw [Answered, if_pos hid]
      rw [String.isEmpty_iff] at hid
      subst hid
      rfl
    · rename_i hid
      refine Sound.bind (sound_registryHeartbeat clientId _ (Set.notMem_empty _)
        fun success seen₁ s₁ x hsince hx hfound => ?_)
      cases success with
      | false =>
        have hnot : clientId ∉ x.registry.clients := fun hin => Bool.false_ne_true (hfound.mpr hin)
        refine sound_pure (sound_pure ⟨rfl, ?_⟩)
        rw [Answered, if_neg hid]
        exact .inl ⟨⟨x, hx, hnot⟩, rfl⟩
      | true =>
        refine Sound.bind (sound_getAllAllocations clientId
          fun allocations seen₂ s₂ y hlater hy hkeys hvalues =>
            sound_pure (sound_pure ⟨rfl, ?_⟩))
        rw [Answered, if_neg hid]
        exact .inr ⟨allocations, ⟨⟨x, hlater.seen hx, hfound.mp rfl⟩, ⟨y, hy, hkeys⟩, hvalues⟩, rfl⟩
  | getAllocation clientId resourceId =>
    refine Sound.bind ?_
    unfold getAllocation
    split
    · rename_i hid
      refine sound_pure ⟨rfl, ?_⟩
      rw [Answered, if_pos hid]
      rw [String.isEmpty_iff] at hid
      subst hid
      rfl
    · rename_i hid
      refine Sound.bind (sound_managerGetAllocation clientId resourceId
        fun seen' s' x _ hx => sound_pure (sound_pure ⟨rfl, ?_⟩))
      rw [Answered, if_neg hid]
      exact ⟨x, hx, rfl⟩
  | setResourceLimit resourceId rateLimit =>
    refine Sound.bind (Sound.bind (sound_managerSetResourceLimit resourceId rateLimit
      fun seen' s' _ => ?_))
    by_cases hneg : rateLimit < 0
    · rw [decide_eq_true hneg]
      refine sound_pure (sound_pure ⟨rfl, ?_⟩)
      rw [Answered, if_pos hneg]
      simp [invalidAnswer, Reference.answer, hneg]
    · rw [decide_eq_false hneg]
      refine sound_pure (sound_pure ⟨rfl, ?_⟩)
      rw [Answered, if_neg hneg]
  | getResourceLimit resourceId =>
    refine Sound.bind (Sound.bind (sound_getResourceInfo resourceId
      fun info seen' s' x _ hx hinfo => ?_))
    cases hlimit : x.recorded.limits[resourceId]? with
    | none =>
      rw [hlimit] at hinfo
      subst hinfo
      refine sound_pure (sound_pure ⟨rfl, x, hx, ?_⟩)
      rw [Reference.limitAnswer, hlimit]
    | some limit =>
      rw [hlimit] at hinfo
      subst hinfo
      refine sound_pure (sound_pure ⟨rfl, x, hx, ?_⟩)
      rw [Reference.limitAnswer, hlimit]

end ServerProg

/-! ## The server's threads -/

variable {heartbeatTimeout : ℤ}

/-- The server starts with the manager attached to an empty registry. -/
theorem ClientRegistry.reached_new :
    ((ClientRegistry.new heartbeatTimeout).setListener true).Reached heartbeatTimeout :=
  GuardedSystem.Reachable.step (a := .setListener true) .init rfl

/-- **Monitor invariants of the server**: what a free mutex guards is as
whole sections bring it about. -/
theorem governed_of_serverLockSystem
    {s : LockState Mutex Readings Server (Status × Response) ℕ}
    (h : (serverLockSystem heartbeatTimeout).Reachable s) :
    s.Governed (serverGuard heartbeatTimeout) := by
  refine LockState.governed_of_reachable (fun request d =>
    (ServerProg.sound_handler request d).mono fun a held seen s' hanswer => hanswer.1)
    (fun m => ?_) h
  cases m with
  | resourceManager => exact GuardedSystem.ReachableVia.init
  | clientRegistry => exact ClientRegistry.reached_new

/-! ## Runs of two threads -/

/-- Steps of one thread, all at one reading. -/
def threadSteps (t n : ℕ) : List (LockAction Readings ℕ Request) :=
  List.replicate n (.step t ⟨fun _ => 0, 0⟩)

/-- `"a"` has all of resource `1`, and `"b"` is registered. -/
def untilNamed : List (LockAction Readings ℕ Request) :=
  [.begin 0 (.setResourceLimit 1 10)] ++ threadSteps 0 4 ++
    [.begin 0 (.registerClient "a")] ++ threadSteps 0 9 ++
    [.begin 0 (.registerClient "b")] ++ threadSteps 0 9 ++
    [.begin 0 (.heartbeat "a" [1])] ++ threadSteps 0 24

/-- **Locks make sections whole**: while nobody is in the registry, the
registry is one that whole sections reach; and while nobody is in the
manager either, the two together are. -/
theorem reachable_serverSystem_of_serverLockSystem
    {s : LockState Mutex Readings Server (Status × Response) ℕ}
    (h : (serverLockSystem heartbeatTimeout).Reachable s)
    (hregistry : s.holder .clientRegistry = none) :
    (registrySystem heartbeatTimeout).Reachable ⟨s.data.registry, fun _ => .idle⟩ ∧
      (s.holder .resourceManager = none →
        (serverSystem heartbeatTimeout).Reachable
          ⟨⟨s.data.registry, fun _ => .idle⟩, s.data.manager⟩) := by
  have hgoverned := governed_of_serverLockSystem h
  have hreached : s.data.registry.Reached heartbeatTimeout :=
    hgoverned.free .clientRegistry hregistry
  exact ⟨hreached, fun hmanager =>
    reachable_serverSystem hreached (hgoverned.free .resourceManager hmanager)⟩

theorem untilNamed_reachable_serverSystem :
    ∃ s, (serverLockSystem 30).runFrom (serverLockSystem 30).init untilNamed = some s ∧
      (serverSystem 30).Reachable ⟨⟨s.data.registry, fun _ => .idle⟩, s.data.manager⟩ := by
  have hrun : ((serverLockSystem 30).runFrom (serverLockSystem 30).init untilNamed).map
      (fun s => (s.holder .clientRegistry, s.holder .resourceManager)) = some (none, none) := by
    decide +kernel
  obtain ⟨s, hs, hreached⟩ := Option.map_eq_some_iff.mp hrun
  simp only [Prod.mk.injEq] at hreached
  exact ⟨s, hs, (reachable_serverSystem_of_serverLockSystem
    (GuardedSystem.Reachable.runFrom .init hs) hreached.1).2 hreached.2⟩

/-- **No data race in the server**: what two threads can do next comes to
the same in either order, unless both take the same mutex. -/
theorem steps_commute_of_serverLockSystem
    {s s₁ s₂ : LockState Mutex Readings Server (Status × Response) ℕ} {t u : ℕ} {i j : Readings}
    (h : (serverLockSystem heartbeatTimeout).Reachable s) (hne : t ≠ u)
    (ht : (serverLockSystem heartbeatTimeout).step s (.step t i) = some s₁)
    (hu : (serverLockSystem heartbeatTimeout).step s (.step u j) = some s₂)
    (hboth : ∀ m, s.wants t = some m → s.wants u ≠ some m) :
    ∃ s', (serverLockSystem heartbeatTimeout).step s₁ (.step u j) = some s' ∧
      (serverLockSystem heartbeatTimeout).step s₂ (.step t i) = some s' :=
  (governed_of_serverLockSystem h).steps_commute serverGuard_ext hne ht hu hboth

/-- One thread about to read the limit, with the manager locked, and another
about to look for stale clients, with the registry. -/
def untilApart : List (LockAction Readings ℕ Request) :=
  untilNamed ++ [.begin 0 (.getAllocation "a" 1)] ++ threadSteps 0 1 ++
    [.begin 1 (.heartbeat "b" [1])] ++ threadSteps 1 1

theorem untilApart_steps_commute :
    ∃ s s₁ s₂ s', (serverLockSystem 30).runFrom (serverLockSystem 30).init untilApart = some s ∧
      (serverLockSystem 30).step s (.step 0 ⟨fun _ => 0, 0⟩) = some s₁ ∧
      (serverLockSystem 30).step s (.step 1 ⟨fun _ => 0, 0⟩) = some s₂ ∧
      (serverLockSystem 30).step s₁ (.step 1 ⟨fun _ => 0, 0⟩) = some s' ∧
      (serverLockSystem 30).step s₂ (.step 0 ⟨fun _ => 0, 0⟩) = some s' := by
  have hrun : ((serverLockSystem 30).runFrom (serverLockSystem 30).init untilApart).map
      (fun s => (((serverLockSystem 30).step s (.step 0 ⟨fun _ => 0, 0⟩)).isSome,
        ((serverLockSystem 30).step s (.step 1 ⟨fun _ => 0, 0⟩)).isSome, s.wants 0)) =
        some (true, true, none) := by decide +kernel
  obtain ⟨s, hs, hreached⟩ := Option.map_eq_some_iff.mp hrun
  simp only [Prod.mk.injEq] at hreached
  obtain ⟨hfirst, hsecond, hwants⟩ := hreached
  obtain ⟨s₁, hs₁⟩ := Option.isSome_iff_exists.mp hfirst
  obtain ⟨s₂, hs₂⟩ := Option.isSome_iff_exists.mp hsecond
  obtain ⟨s', hs'⟩ := steps_commute_of_serverLockSystem (GuardedSystem.Reachable.runFrom .init hs)
    Nat.zero_ne_one hs₁ hs₂ fun m hm => by rw [hwants] at hm; cases hm
  exact ⟨s, s₁, s₂, s', hs, hs₁, hs₂, hs'⟩

/-! ## Calls -/

/-- **A call**: a thread begins the handler of a request, and the whole
passes some states until that thread has its answer. -/
def ServerCall (heartbeatTimeout : ℤ) (request : Request)
    (V : List (LockState Mutex Readings Server (Status × Response) ℕ))
    (answer : Status × Response) : Prop :=
  ∃ t s₀ s₁ s, (serverLockSystem heartbeatTimeout).Reachable s₀ ∧
    (serverLockSystem heartbeatTimeout).step s₀ (.begin t request) = some s₁ ∧
    (serverLockSystem heartbeatTimeout).Run s₁ V s ∧ (∀ m ∈ V, (m.threads t).isSome = true) ∧
    s.threads t = some (.done answer)

variable {V : List (LockState Mutex Readings Server (Status × Response) ℕ)}
variable {answer : Status × Response} {clientId : ClientId} {resourceId : ResourceId}

theorem Answered.mono {request : Request} {met met' : Server → Prop}
    (h : Answered request answer met) (hmet : ∀ x, met x → met' x) :
    Answered request answer met' := by
  cases request with
  | heartbeat clientId resourceIds =>
    rw [Answered] at h ⊢
    split
    · rename_i hid
      rwa [if_pos hid] at h
    · rename_i hid
      rw [if_neg hid] at h
      rcases h with ⟨⟨x, hx, hnot⟩, heq⟩ | ⟨allocations, ⟨hregistered, hinterests, hshares⟩, heq⟩
      · exact .inl ⟨⟨x, hmet x hx, hnot⟩, heq⟩
      · obtain ⟨x, hx, hin⟩ := hregistered
        obtain ⟨y, hy, hkeys⟩ := hinterests
        refine .inr ⟨allocations, ⟨⟨x, hmet x hx, hin⟩, ⟨y, hmet y hy, hkeys⟩, fun r v hv => ?_⟩,
          heq⟩
        obtain ⟨z, hz, hvalue⟩ := hshares r v hv
        exact ⟨z, hmet z hz, hvalue⟩
  | getAllocation clientId resourceId =>
    rw [Answered] at h ⊢
    split
    · rename_i hid
      rwa [if_pos hid] at h
    · rename_i hid
      rw [if_neg hid] at h
      obtain ⟨x, hx, heq⟩ := h
      exact ⟨x, hmet x hx, heq⟩
  | getResourceLimit resourceId =>
    obtain ⟨x, hx, heq⟩ := h
    exact ⟨x, hmet x hx, heq⟩
  | _ => exact h

/-- **A call answers from the states it passes.** -/
theorem ServerCall.answered {request : Request}
    (h : ServerCall heartbeatTimeout request V answer) :
    Answered request answer fun x => ∃ m ∈ V, m.data = x := by
  obtain ⟨t, s₀, s₁, s, hs, hbegin, hrun, hbusy, hdone⟩ := h
  obtain ⟨held, seen, known, hseen, -, hanswer⟩ := LockState.answer_of_run
    (fun request d => (ServerProg.sound_handler request d).mono
      fun a held seen s' hanswer => hanswer.1)
    (governed_of_serverLockSystem .init |>.free · rfl) (ServerProg.sound_handler request) hs hbegin
    hrun hbusy hdone
  exact hanswer.mono hseen

theorem ServerCall.exists_mem {request : Request}
    (h : ServerCall heartbeatTimeout request V answer) : ∃ m, m ∈ V := by
  obtain ⟨t, s₀, s₁, s, -, -, hrun, -, -⟩ := h
  exact ⟨s, hrun.last_mem⟩

deriving instance DecidableEq for Response

/-- What a call has come to, if it has its answer. -/
def answerOf (s : LockState Mutex Readings Server (Status × Response) ℕ) (t : ℕ) :
    Option (Status × Response) :=
  match s.threads t with
  | some (.done answer) => some answer
  | _ => none

/-- Between the first `n` steps of a call and the rest of it, `"b"` names the
resource. -/
def overtaking (n rest : ℕ) : List (LockAction Readings ℕ Request) :=
  threadSteps 0 n ++ [.begin 1 (.heartbeat "b" [1])] ++ threadSteps 1 8 ++ threadSteps 0 rest

theorem serverCall_of_answerOf (request : Request) (answer : Status × Response) (n rest : ℕ)
    (h : ((serverLockSystem 30).runFrom (serverLockSystem 30).init untilNamed).bind (fun s₀ =>
      ((serverLockSystem 30).step s₀ (.begin 0 request)).bind fun s₁ =>
        ((serverLockSystem 30).runFrom s₁ (overtaking n rest)).map fun s => decide (
          (∀ m ∈ (serverLockSystem 30).passed [s₁] s₁ (overtaking n rest),
            (m.threads 0).isSome = true) ∧ answerOf s 0 = some answer)) = some true) :
    ∃ V, ServerCall 30 request V answer := by
  obtain ⟨s₀, hs₀, hrest⟩ := Option.bind_eq_some_iff.mp h
  obtain ⟨s₁, hs₁, hrest⟩ := Option.bind_eq_some_iff.mp hrest
  obtain ⟨s, hs, hchecked⟩ := Option.map_eq_some_iff.mp hrest
  obtain ⟨hbusy, hdone⟩ := of_decide_eq_true hchecked
  refine ⟨_, 0, s₀, s₁, s, .runFrom .init hs₀, hs₁, GuardedSystem.Run.start.runFrom hs, hbusy, ?_⟩
  unfold answerOf at hdone
  split at hdone
  · rename_i answer' hthread
    rw [hthread, Option.some.inj hdone]
  · cases hdone

/-- **A share is answered as of one state**: `GetAllocation`'s answer is the
eager reference's, from what was on record in a state the call passed. -/
theorem getAllocation_of_serverCall
    (h : ServerCall heartbeatTimeout (.getAllocation clientId resourceId) V answer) :
    ∃ m ∈ V, answer = (m.data.recorded.answer 0 (.getAllocation clientId resourceId)).1 := by
  have hanswered := h.answered
  rw [Answered] at hanswered
  split at hanswered
  · rename_i hid
    obtain ⟨m, hm⟩ := h.exists_mem
    rw [String.isEmpty_iff] at hid
    subst hid
    exact ⟨m, hm, hanswered⟩
  · rename_i hid
    obtain ⟨x, ⟨m, hm, rfl⟩, heq⟩ := hanswered
    rw [String.isEmpty_iff] at hid
    refine ⟨m, hm, ?_⟩
    rw [heq, Reference.answer, if_neg hid]

/-- Half of the limit, though all of it was its share when the call began. -/
theorem overtaken_getAllocation :
    ∃ V answer, ServerCall 30 (.getAllocation "a" 1) V answer ∧
      answer = (.ok, .getAllocation { success := true, allocatedRate := 5 }) ∧
      ∃ m ∈ V, answer = (m.data.recorded.answer 0 (.getAllocation "a" 1)).1 := by
  obtain ⟨V, hcall⟩ := serverCall_of_answerOf (.getAllocation "a" 1)
    (.ok, .getAllocation { success := true, allocatedRate := 5 }) 2 7 (by decide +kernel)
  exact ⟨V, _, hcall, rfl, getAllocation_of_serverCall hcall⟩

/-- **A heartbeat is told of states it passes**: that its client is not
registered only if it was not in one, else the interests it had on record
in one, each with its share in one. -/
theorem heartbeat_of_serverCall {resourceIds : List ResourceId} (hid : clientId ≠ "")
    (h : ServerCall heartbeatTimeout (.heartbeat clientId resourceIds) V answer) :
    HeartbeatTold clientId answer fun x => ∃ m ∈ V, m.data = x := by
  have hanswered := h.answered
  rwa [Answered, if_neg fun hempty => hid (String.isEmpty_iff.mp hempty)] at hanswered

theorem overtaken_heartbeat :
    ∃ V answer, ServerCall 30 (.heartbeat "a" [1]) V answer ∧
      answer = (.ok, .heartbeat
        { success := true, allocations := (∅ : OrderedMap ResourceId ℚ).insert 1 5 }) ∧
      HeartbeatTold "a" answer fun x => ∃ m ∈ V, m.data = x := by
  obtain ⟨V, hcall⟩ := serverCall_of_answerOf (.heartbeat "a" [1])
    (.ok, .heartbeat
      { success := true, allocations := (∅ : OrderedMap ResourceId ℚ).insert 1 5 }) 3 19
    (by decide +kernel)
  exact ⟨V, _, hcall, rfl, heartbeat_of_serverCall (by decide) hcall⟩

end Throttling
