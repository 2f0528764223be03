import Throttling.Client.Model.Lifecycle
import Throttling.Client.Helpers.Runs
/-!
# What each step of the lifecycle can do

One inversion for the steps of a call, by the place the call is at, one
for those of a worker, and one description of what the loops' threads and
an `Acquire` leave alone.
-/

namespace Throttling

namespace LifecycleState

variable {s s' : LifecycleState} {t : LifecycleCaller} {i : ℕ}

/-! ## A step of a call -/

/-- **A call begins** where its caller is in none, and is in a callback if it
is a worker. -/
theorem enter_cases {pc : CallPc} (h : s.enter t pc = some s') :
    s.callers t = .idle ∧ s' = s.goto t pc := by
  unfold enter at h
  split at h
  · rename_i hidle
    split at h
    · exact ⟨hidle, (Option.some.inj h).symm⟩
    · cases h
  · cases h

/-- **The steps of a call**, from the place it is at to the next. -/
inductive CallSection (s : LifecycleState) (t : LifecycleCaller) : LifecycleState → Prop
  | refused (hpc : s.callers t = .startTesting ∨ s.callers t = .stopTesting) :
      CallSection s t (s.goto t .idle)
  | startPassed (hpc : s.callers t = .startTesting) (hrunning : s.running = false) :
      CallSection s t (s.goto t .registering)
  | registrationFailed (hpc : s.callers t = .registering) :
      CallSection s t ({ s with rpcs := s.rpcs ++ [LifecycleRpc.registerClient false] }.goto t .idle)
  | registered (hpc : s.callers t = .registering) :
      CallSection s t ({ s with rpcs := s.rpcs ++ [LifecycleRpc.registerClient true] }.goto t .raising)
  | raised (hpc : s.callers t = .raising) :
      CallSection s t ({ s with running := true }.goto t .creatingHeartbeat)
  | heartbeatCreated (hpc : s.callers t = .creatingHeartbeat) :
      CallSection s t ({ s with
        heartbeats := Function.update s.heartbeats s.created .testing
        heartbeatThread := some s.created
        created := s.created + 1
        assignedOver := s.assignedOver || s.heartbeatThread.isSome }.goto t .creatingWorker)
  | workerCreated (hpc : s.callers t = .creatingWorker) :
      CallSection s t ({ s with
        workers := Function.update s.workers s.created .testing
        workerThread := some s.created
        created := s.created + 1
        assignedOver := s.assignedOver || s.workerThread.isSome }.goto t .heartbeating)
  | heartbeatFailed (hpc : s.callers t = .heartbeating) :
      CallSection s t ({ s with rpcs := s.rpcs ++ [LifecycleRpc.heartbeat false] }.goto t .idle)
  | heartbeatAnswered (hpc : s.callers t = .heartbeating)
      (allocations : OrderedMap ResourceId ℚ) :
      CallSection s t
        ({ s with rpcs := s.rpcs ++ [LifecycleRpc.heartbeat true] }.goto t (.updating allocations))
  | updated (allocations : OrderedMap ResourceId ℚ) (hpc : s.callers t = .updating allocations)
      (now : ResourceId → TimePoint) :
      CallSection s t
        ({ s with client := s.client.updateTokenBuckets now allocations }.goto t .idle)
  | stopPassed (hpc : s.callers t = .stopTesting) (hrunning : s.running = true) :
      CallSection s t (s.goto t .lowering)
  | lowered (hpc : s.callers t = .lowering) :
      CallSection s t ({ s with running := false }.goto t .checkingHeartbeat)
  | heartbeatChecked (hpc : s.callers t = .checkingHeartbeat) :
      CallSection s t (s.goto t
        (if s.heartbeatThread.isSome then .joiningHeartbeat else .checkingWorker))
  | workerChecked (hpc : s.callers t = .checkingWorker) :
      CallSection s t (s.goto t
        (if s.workerThread.isSome then .joiningWorker else .unregistering))
  | joinedNothing (hpc : s.callers t = .joiningHeartbeat ∧ s.heartbeatThread = none ∨
        s.callers t = .joiningWorker ∧ s.workerThread = none) :
      CallSection s t ({ s with joinedTwice := true }.goto t .idle)
  | joinedItself (hpc : s.callers t = .joiningWorker) (thread : ℕ) (hself : t = .worker thread) :
      CallSection s t (s.goto t .idle)
  | heartbeatJoined (hpc : s.callers t = .joiningHeartbeat) (thread : ℕ)
      (hthread : s.heartbeatThread = some thread) (hexited : s.heartbeats thread = .exited) :
      CallSection s t ({ s with heartbeatThread := none }.goto t .checkingWorker)
  | workerJoined (hpc : s.callers t = .joiningWorker) (thread : ℕ)
      (hthread : s.workerThread = some thread) (hexited : s.workers thread = .exited) :
      CallSection s t ({ s with workerThread := none }.goto t .unregistering)
  | unregistered (hpc : s.callers t = .unregistering) :
      CallSection s t
        ({ s with rpcs := s.rpcs ++ [LifecycleRpc.unregisterClient] }.goto t .clearingBuckets)
  | bucketsCleared (hpc : s.callers t = .clearingBuckets) :
      CallSection s t ({ s with client := { s.client with tokenBuckets := ∅ } }.goto t
        .clearingQueue)
  | queueCleared (hpc : s.callers t = .clearingQueue) :
      CallSection s t ({ s with client := { s.client with pendingQueue := [] } }.goto t .idle)

theorem callSection_of_step {answer : StubAnswer} {now : ResourceId → TimePoint}
    (h : s.callStep t answer now = some s') : CallSection s t s' := by
  unfold callStep at h
  split at h
  · cases h
  · rename_i hpc
    obtain rfl := Option.some.inj h
    cases hrunning : s.running with
    | false => exact .startPassed hpc hrunning
    | true => exact .refused (.inl hpc)
  · rename_i hpc
    obtain rfl := Option.some.inj h
    cases answer.ok with
    | false => exact .registrationFailed hpc
    | true => exact .registered hpc
  · obtain rfl := Option.some.inj h
    exact .raised ‹_›
  · obtain rfl := Option.some.inj h
    exact .heartbeatCreated ‹_›
  · obtain rfl := Option.some.inj h
    exact .workerCreated ‹_›
  · rename_i hpc
    obtain rfl := Option.some.inj h
    cases answer.ok with
    | false => exact .heartbeatFailed hpc
    | true => exact .heartbeatAnswered hpc _
  · obtain rfl := Option.some.inj h
    exact .updated _ ‹_› now
  · rename_i hpc
    obtain rfl := Option.some.inj h
    cases hrunning : s.running with
    | false => exact .refused (.inr hpc)
    | true => exact .stopPassed hpc hrunning
  · obtain rfl := Option.some.inj h
    exact .lowered ‹_›
  · obtain rfl := Option.some.inj h
    exact .heartbeatChecked ‹_›
  · rename_i hpc
    split at h
    · obtain rfl := Option.some.inj h
      exact .joinedNothing (.inl ⟨hpc, ‹_›⟩)
    · split at h
      · obtain rfl := Option.some.inj h
        exact .heartbeatJoined hpc _ ‹_› ‹_›
      · cases h
  · obtain rfl := Option.some.inj h
    exact .workerChecked ‹_›
  · rename_i hpc
    split at h
    · obtain rfl := Option.some.inj h
      exact .joinedNothing (.inr ⟨hpc, ‹_›⟩)
    · split at h
      · obtain rfl := Option.some.inj h
        exact .joinedItself hpc _ ‹_›
      · split at h
        · obtain rfl := Option.some.inj h
          exact .workerJoined hpc _ ‹_› ‹_›
        · cases h
  · obtain rfl := Option.some.inj h
    exact .unregistered ‹_›
  · obtain rfl := Option.some.inj h
    exact .bucketsCleared ‹_›
  · obtain rfl := Option.some.inj h
    exact .queueCleared ‹_›

theorem callers_callSection (h : CallSection s t s') {u : LifecycleCaller} (hu : u ≠ t) :
    s'.callers u = s.callers u := by
  cases h <;> exact Function.update_of_ne hu _ _

/-! ## The threads -/

/-- What the threads of the loops, and an `Acquire`, leave of a state:
everything but the buckets, the queue and their own places. -/
structure Looped (s s' : LifecycleState) : Prop where
  callers : s'.callers = s.callers
  running : s'.running = s.running
  heartbeatThread : s'.heartbeatThread = s.heartbeatThread
  workerThread : s'.workerThread = s.workerThread
  assignedOver : s'.assignedOver = s.assignedOver
  joinedTwice : s'.joinedTwice = s.joinedTwice
  heartbeats : ∀ i, (s'.heartbeats i).alive = true → (s.heartbeats i).alive = true
  workers : ∀ i, (s'.workers i).alive = true → (s.workers i).alive = true
  rpcs : s'.rpcs = s.rpcs ∨ ∃ ok, s'.rpcs = s.rpcs ++ [.heartbeat ok]
  /-- Buckets come from a loop that is alive. -/
  buckets : s'.client.tokenBuckets ≠ ∅ →
    s.client.tokenBuckets ≠ ∅ ∨ ∃ i, (s.heartbeats i).alive = true

/-- Another thread's place is not touched, and this one was alive. -/
theorem alive_of_update {thread i : ℕ} {pc : HeartbeatPc}
    (halive : (s.heartbeats thread).alive = true)
    (hi : (Function.update s.heartbeats thread pc i).alive = true) :
    (s.heartbeats i).alive = true := by
  by_cases hthread : i = thread
  · rw [hthread]; exact halive
  · rwa [Function.update_of_ne hthread] at hi

theorem worker_alive_of_update {thread i : ℕ} {pc : WorkerLoopPc}
    (halive : (s.workers thread).alive = true)
    (hi : (Function.update s.workers thread pc i).alive = true) : (s.workers i).alive = true := by
  by_cases hthread : i = thread
  · rw [hthread]; exact halive
  · rwa [Function.update_of_ne hthread] at hi

theorem looped_heartbeatStep {thread : ℕ} {answer : StubAnswer} {now : ResourceId → TimePoint}
    (h : s.heartbeatStep thread answer now = some s') : Looped s s' := by
  unfold heartbeatStep at h
  dsimp only at h
  split at h
  · cases h
  · rename_i hpc
    obtain rfl := Option.some.inj h
    exact ⟨rfl, rfl, rfl, rfl, rfl, rfl, fun i => alive_of_update (by rw [hpc]; rfl), fun i hi => hi,
      .inl rfl, .inl⟩
  · rename_i hpc
    obtain rfl := Option.some.inj h
    exact ⟨rfl, rfl, rfl, rfl, rfl, rfl, fun i => alive_of_update (by rw [hpc]; rfl), fun i hi => hi,
      .inl rfl, .inl⟩
  · rename_i hpc
    obtain rfl := Option.some.inj h
    exact ⟨rfl, rfl, rfl, rfl, rfl, rfl, fun i => alive_of_update (by rw [hpc]; rfl), fun i hi => hi,
      .inr ⟨_, rfl⟩, .inl⟩
  · rename_i allocations hpc
    obtain rfl := Option.some.inj h
    exact ⟨rfl, rfl, rfl, rfl, rfl, rfl, fun i => alive_of_update (by rw [hpc]; rfl), fun i hi => hi,
      .inl rfl, fun _ => .inr ⟨thread, by rw [hpc]; rfl⟩⟩
  · cases h

/-- A consumption makes no bucket. -/
theorem tokenBuckets_tryConsume {c : Client} (h : c.tokenBuckets = ∅) (r : ResourceId) (count : ℚ)
    (now : TimePoint) : (c.tryConsume r count now).2.tokenBuckets = ∅ := by
  rw [Client.tryConsume, h]
  exact h

/-- **The steps of a worker**, with the client and the place they leave. -/
inductive WorkerSection (s : LifecycleState) (i : ℕ) : Client → WorkerLoopPc → Prop
  | tested (hpc : s.workers i = .testing) :
      WorkerSection s i s.client (if s.running then .waiting else .exited)
  | foundEmpty (hpc : s.workers i = .waiting) :
      WorkerSection s i s.client (if s.running then .testing else .exited)
  | took (hpc : s.workers i = .waiting) (request : PendingRequest) (rest : List PendingRequest) :
      WorkerSection s i { s.client with pendingQueue := rest } (.holding request)
  | tried {request : PendingRequest} {client : Client} {pc : WorkerLoopPc}
      (hpc : s.workers i = .holding request) (hnext : pc = .running ∨ pc = .testing)
      (hbuckets : s.client.tokenBuckets = ∅ → client.tokenBuckets = ∅) :
      WorkerSection s i client pc
  | returned (hpc : s.workers i = .running) (hidle : s.callers (.worker i) = .idle) :
      WorkerSection s i s.client .testing

theorem workerSection_of_step {now : TimePoint} (h : s.workerStep i now = some s') :
    ∃ client pc, WorkerSection s i client pc ∧
      s' = { s with client := client, workers := Function.update s.workers i pc } := by
  unfold workerStep at h
  dsimp only at h
  split at h
  · cases h
  · rename_i hpc
    exact ⟨_, _, .tested hpc, (Option.some.inj h).symm⟩
  · rename_i hpc
    split at h
    · exact ⟨_, _, .foundEmpty hpc, (Option.some.inj h).symm⟩
    · exact ⟨_, _, .took hpc _ _, (Option.some.inj h).symm⟩
  · rename_i request hpc
    split at h
    · refine ⟨_, _, .tried hpc ?_ fun hempty => ?_, (Option.some.inj h).symm⟩
      · split
        · exact .inl rfl
        · exact .inr rfl
      · exact tokenBuckets_tryConsume hempty _ _ _
    · refine ⟨_, _, .tried hpc (.inr rfl) fun hempty => ?_, (Option.some.inj h).symm⟩
      exact tokenBuckets_tryConsume hempty _ _ _
  · rename_i hpc
    split at h
    · exact ⟨_, _, .returned hpc ‹_›, (Option.some.inj h).symm⟩
    · cases h
  · cases h

theorem WorkerSection.alive {client : Client} {pc : WorkerLoopPc}
    (h : WorkerSection s i client pc) : (s.workers i).alive = true := by
  cases h with
  | tested hpc => rw [hpc]; rfl
  | foundEmpty hpc => rw [hpc]; rfl
  | took hpc _ _ => rw [hpc]; rfl
  | tried hpc _ _ => rw [hpc]; rfl
  | returned hpc _ => rw [hpc]; rfl

theorem looped_workerStep {now : TimePoint} (h : s.workerStep i now = some s') : Looped s s' := by
  obtain ⟨client, pc, hsection, rfl⟩ := workerSection_of_step h
  refine ⟨rfl, rfl, rfl, rfl, rfl, rfl, fun j hj => hj,
    fun j => worker_alive_of_update hsection.alive, .inl rfl, fun hne => .inl fun hempty => hne ?_⟩
  cases hsection with
  | tried hpc hnext hbuckets => exact hbuckets hempty
  | _ => exact hempty

theorem looped_acquire (s : LifecycleState) (request : PendingRequest) (now : TimePoint) :
    Looped s { s with client := s.client.acquire request now } := by
  refine ⟨rfl, rfl, rfl, rfl, rfl, rfl, fun i hi => hi, fun i hi => hi, .inl rfl,
    fun hne => .inl fun hempty => hne ?_⟩
  simp only [Client.acquire]
  split <;> exact tokenBuckets_tryConsume hempty _ _ _

/-! ## Whose step it is -/

/-- Who makes a step of a call. -/
def caller : LifecycleAction → Option LifecycleCaller
  | .start t => some t
  | .stop t => some t
  | .callStep t _ _ => some t
  | _ => none

/-- A step is of one caller at most. -/
theorem callers_step {a : LifecycleAction} (hstep : s.step a = some s') {u : LifecycleCaller}
    (hu : caller a ≠ some u) : s'.callers u = s.callers u := by
  have hne : ∀ v, caller a = some v → u ≠ v := by
    intro v hv heq
    exact hu (by rw [hv, heq])
  unfold LifecycleState.step at hstep
  split at hstep
  · cases hstep
  split at hstep
  · obtain ⟨-, rfl⟩ := enter_cases hstep
    exact Function.update_of_ne (hne _ rfl) _ _
  · obtain ⟨-, rfl⟩ := enter_cases hstep
    exact Function.update_of_ne (hne _ rfl) _ _
  · exact callers_callSection (callSection_of_step hstep) (hne _ rfl)
  · rw [(looped_heartbeatStep hstep).callers]
  · rw [(looped_workerStep hstep).callers]
  · obtain rfl := Option.some.inj hstep
    rfl

/-! ## Answers, and records -/

/-- Applying an answer with no allocation leaves no bucket. -/
theorem tokenBuckets_updateTokenBuckets {c : Client} {allocations : OrderedMap ResourceId ℚ}
    (h : allocations.isEmpty = true) (now : ResourceId → TimePoint) :
    (c.updateTokenBuckets now allocations).tokenBuckets = ∅ := by
  refine Std.ExtTreeMap.ext_getElem? fun r => ?_
  have hnone : allocations[r]? = none := by
    rw [Std.ExtTreeMap.isEmpty_iff.mp h]
    simp
  rw [Client.lookup_updateTokenBuckets, hnone]
  simp

/-- The last RPC either is the one that registers, or comes after it. -/
theorem everyRegistrationUndone_append {rpcs : List LifecycleRpc} {rpc : LifecycleRpc}
    (h : rpc = .unregisterClient ∨ EveryRegistrationUndone rpcs ∧ rpc ≠ .registerClient true) :
    EveryRegistrationUndone (rpcs ++ [rpc]) := by
  intro before after heq
  rcases List.eq_nil_or_concat after with rfl | ⟨after, last, rfl⟩
  · obtain ⟨-, hlast⟩ := List.append_inj' heq rfl
    obtain rfl : rpc = .registerClient true := by simpa using hlast
    rcases h with h | h
    · cases h
    · exact absurd rfl h.2
  · rw [List.concat_eq_append, ← List.cons_append, ← List.append_assoc] at heq
    obtain ⟨hrpcs, hlast⟩ := List.append_inj' heq rfl
    obtain rfl : rpc = last := by simpa using hlast
    rw [List.concat_eq_append, List.mem_append, List.mem_singleton]
    rcases h with h | h
    · exact .inr h.symm
    · exact .inl (h.1 _ _ hrpcs)

end LifecycleState

end Throttling
