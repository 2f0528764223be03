import Throttling.Common.Liveness
import Throttling.Client.Lifecycle
/-!
# Calls return, and heartbeats recur

`Stop` joins both loops' threads, so it returns only if they end, and they
look at `running_` between steps that take their time: an RPC, a callback
that may itself call `Start` or `Stop`. Where calls take turns, every
thread is treated fairly and callbacks return, each call of `Start` or
`Stop` returns (`call_returns`): while one joins, the flag stays down, and
each step of the loop's thread brings it nearer to its end. When
one owner stops the client for good, as the destructor does, nothing is
left of it (`down_of_lastStop`). And while the client keeps running,
heartbeats are sent again and again, however they are answered
(`heartbeats_recur`).
-/

namespace Throttling

/-! ## How much there is left to do -/

/-- How many steps a call has before it, at most. -/
def CallPc.rank : CallPc → ℕ
  | .idle => 0
  | .startTesting => 7
  | .registering => 6
  | .raising => 5
  | .creatingHeartbeat => 4
  | .creatingWorker => 3
  | .heartbeating => 2
  | .updating _ => 1
  | .stopTesting => 9
  | .lowering => 8
  | .checkingHeartbeat => 7
  | .joiningHeartbeat => 6
  | .checkingWorker => 5
  | .joiningWorker => 4
  | .unregistering => 3
  | .clearingBuckets => 2
  | .clearingQueue => 1

/-- And a loop's thread once the flag is down. -/
def HeartbeatPc.rank : HeartbeatPc → ℕ
  | .notCreated => 0
  | .testing => 1
  | .waiting => 1
  | .sending => 3
  | .updating _ => 2
  | .exited => 0

def WorkerLoopPc.rank : WorkerLoopPc → ℕ
  | .notCreated => 0
  | .testing => 1
  | .waiting => 4
  | .holding _ => 3
  | .running => 2
  | .exited => 0

/-- Where a `Stop` that found the client running has lowered the flag, or
one that did not has returned. -/
def CallPc.hasLowered : CallPc → Bool
  | .idle => true
  | .checkingHeartbeat => true
  | .joiningHeartbeat => true
  | .checkingWorker => true
  | .joiningWorker => true
  | .unregistering => true
  | .clearingBuckets => true
  | .clearingQueue => true
  | _ => false

namespace LifecycleAction

/-- Whether a call of `Start` or `Stop` begins. -/
def begins : LifecycleAction → Bool
  | .start _ => true
  | .stop _ => true
  | _ => false

/-- The steps of a call that is in progress. -/
def IsCallStep (t : LifecycleCaller) (a : LifecycleAction) : Prop :=
  ∃ answer now, a = .callStep t answer now

/-- The steps of a thread in `HeartbeatLoop`. -/
def IsHeartbeatStep (i : ℕ) (a : LifecycleAction) : Prop :=
  ∃ answer now, a = .heartbeatStep i answer now

/-- The steps of a thread in `WorkerLoop`. -/
def IsWorkerStep (i : ℕ) (a : LifecycleAction) : Prop := ∃ now, a = .workerStep i now

end LifecycleAction

namespace LifecycleState

open LifecycleAction

variable {s s' : LifecycleState} {a : LifecycleAction} {t : LifecycleCaller} {i : ℕ}

/-- **A call's step leaves it with less to do.** -/
theorem rank_lt_of_callSection (h : CallSection s t s') :
    (s'.callers t).rank < (s.callers t).rank := by
  cases h with
  | refused hpc => rcases hpc with hpc | hpc <;> simp [goto, hpc, CallPc.rank]
  | joinedNothing hpc => rcases hpc with hpc | hpc <;> simp [goto, hpc.1, CallPc.rank]
  | heartbeatChecked hpc =>
    simp only [goto, hpc, Function.update_self]
    split <;> decide
  | workerChecked hpc =>
    simp only [goto, hpc, Function.update_self]
    split <;> decide
  | _ => simp_all [goto, CallPc.rank]

/-- A call can go on from anywhere but a join. -/
theorem callStep_isSome (hidle : s.callers t ≠ .idle) (hbeat : s.callers t ≠ .joiningHeartbeat)
    (hworker : s.callers t ≠ .joiningWorker) (answer : StubAnswer) (now : ResourceId → TimePoint) :
    (s.callStep t answer now).isSome = true := by
  unfold callStep
  split <;> first | contradiction | rfl

/-- **Once the flag is down a step of the heartbeat's thread brings it
nearer to its end**, -/
theorem rank_lt_of_heartbeatStep {answer : StubAnswer} {now : ResourceId → TimePoint}
    (hrunning : s.running = false) (h : s.heartbeatStep i answer now = some s') :
    (s'.heartbeats i).rank < (s.heartbeats i).rank ∧ s'.heartbeats i ≠ .notCreated := by
  unfold heartbeatStep at h
  dsimp only at h
  split at h
  · cases h
  · obtain rfl := Option.some.inj h
    simp_all [HeartbeatPc.rank]
  · obtain rfl := Option.some.inj h
    simp_all [HeartbeatPc.rank]
  · obtain rfl := Option.some.inj h
    cases hok : answer.ok <;> simp_all [HeartbeatPc.rank]
  · obtain rfl := Option.some.inj h
    simp_all [HeartbeatPc.rank]
  · cases h

/-- and a step of the worker does. -/
theorem WorkerSection.rank_lt {client : Client} {pc : WorkerLoopPc}
    (h : WorkerSection s i client pc) (hrunning : s.running = false) :
    pc.rank < (s.workers i).rank := by
  cases h with
  | tested hpc => simp [hpc, hrunning, WorkerLoopPc.rank]
  | foundEmpty hpc => simp [hpc, hrunning, WorkerLoopPc.rank]
  | took hpc request rest => simp [hpc, WorkerLoopPc.rank]
  | tried hpc hnext hbuckets => rcases hnext with rfl | rfl <;> simp [hpc, WorkerLoopPc.rank]
  | returned hpc hidle => simp [hpc, WorkerLoopPc.rank]

theorem WorkerSection.created {client : Client} {pc : WorkerLoopPc}
    (h : WorkerSection s i client pc) : pc ≠ .notCreated := by
  cases h with
  | tested hpc => split <;> simp
  | foundEmpty hpc => split <;> simp
  | took hpc request rest => simp
  | tried hpc hnext hbuckets => rcases hnext with rfl | rfl <;> simp
  | returned hpc hidle => simp

/-- A loop's thread that is alive can go on. -/
theorem heartbeatStep_isSome (halive : (s.heartbeats i).alive = true) (answer : StubAnswer)
    (now : ResourceId → TimePoint) : (s.heartbeatStep i answer now).isSome = true := by
  unfold heartbeatStep
  dsimp only
  split <;> simp_all [HeartbeatPc.alive]

/-- So can a worker's, out of a callback only where that makes no call. -/
theorem workerStep_isSome (halive : (s.workers i).alive = true)
    (hidle : s.callers (.worker i) = .idle) (now : TimePoint) :
    (s.workerStep i now).isSome = true := by
  unfold workerStep
  dsimp only
  split
  · simp_all [WorkerLoopPc.alive]
  · rfl
  · split <;> rfl
  · split <;> rfl
  · rw [hidle]
    rfl
  · simp_all [WorkerLoopPc.alive]

/-! ## What others leave a call that is past its store -/

/-- A loop's thread moves itself alone, and to a place in the loop or past
it. -/
theorem heartbeats_of_heartbeatStep {answer : StubAnswer} {now : ResourceId → TimePoint}
    (h : s.heartbeatStep i answer now = some s') :
    s'.workers = s.workers ∧
      ∃ pc, pc ≠ .notCreated ∧ s'.heartbeats = Function.update s.heartbeats i pc := by
  unfold heartbeatStep at h
  dsimp only at h
  split at h
  · cases h
  · obtain rfl := Option.some.inj h
    exact ⟨rfl, _, by split <;> simp, rfl⟩
  · obtain rfl := Option.some.inj h
    exact ⟨rfl, _, by split <;> simp, rfl⟩
  · obtain rfl := Option.some.inj h
    exact ⟨rfl, _, by split <;> simp, rfl⟩
  · obtain rfl := Option.some.inj h
    exact ⟨rfl, _, by simp, rfl⟩
  · cases h

theorem workers_of_workerStep {now : TimePoint} (h : s.workerStep i now = some s') :
    s'.heartbeats = s.heartbeats ∧
      ∃ pc, pc ≠ .notCreated ∧ s'.workers = Function.update s.workers i pc := by
  obtain ⟨client, pc, hsection, rfl⟩ := workerSection_of_step h
  exact ⟨rfl, pc, hsection.created, rfl⟩

/-- **What a step of another leaves** a call that is past its store. -/
structure Undisturbed (s : LifecycleState) (a : LifecycleAction) (s' : LifecycleState)
    (t : LifecycleCaller) : Prop where
  caller : s'.callers t = s.callers t
  running : s'.running = s.running
  heartbeatThread : s'.heartbeatThread = s.heartbeatThread
  workerThread : s'.workerThread = s.workerThread
  heartbeats : ∀ i, ¬ a.IsHeartbeatStep i → s'.heartbeats i = s.heartbeats i
  workers : ∀ i, ¬ a.IsWorkerStep i → s'.workers i = s.workers i

/-- Nothing is left for a second call to disturb. -/
theorem Undisturbed.of_same (hsame : SameThreads s s') (hcaller : s'.callers t = s.callers t) :
    Undisturbed s a s' t :=
  ⟨hcaller, hsame.running, hsame.heartbeatThread, hsame.workerThread,
    fun _ _ => by rw [hsame.heartbeats], fun _ _ => by rw [hsame.workers]⟩

/-- **Another call's step**: that call is settled, and does not store. -/
theorem sameThreads_of_callSection (hsettled : (s.callers t).isSettled = true)
    (hstores : (s.callers t).stores = none) (h : CallSection s t s') : SameThreads s s' := by
  cases h with
  | refused hpc => exact ⟨rfl, rfl, rfl, rfl, rfl, rfl, rfl⟩
  | startPassed hpc hrunning => exact ⟨rfl, rfl, rfl, rfl, rfl, rfl, rfl⟩
  | registrationFailed hpc => exact ⟨rfl, rfl, rfl, rfl, rfl, rfl, rfl⟩
  | registered hpc => exact ⟨rfl, rfl, rfl, rfl, rfl, rfl, rfl⟩
  | updated allocations hpc now => exact ⟨rfl, rfl, rfl, rfl, rfl, rfl, rfl⟩
  | stopPassed hpc hrunning => exact ⟨rfl, rfl, rfl, rfl, rfl, rfl, rfl⟩
  | unregistered hpc => exact ⟨rfl, rfl, rfl, rfl, rfl, rfl, rfl⟩
  | bucketsCleared hpc => exact ⟨rfl, rfl, rfl, rfl, rfl, rfl, rfl⟩
  | queueCleared hpc => exact ⟨rfl, rfl, rfl, rfl, rfl, rfl, rfl⟩
  | raised hpc => simp [hpc, CallPc.stores] at hstores
  | lowered hpc => simp [hpc, CallPc.stores] at hstores
  | joinedNothing hpc => rcases hpc with hpc | hpc <;> simp [hpc.1, CallPc.isSettled] at hsettled
  | joinedItself hpc thread hself => exact ⟨rfl, rfl, rfl, rfl, rfl, rfl, rfl⟩
  | heartbeatJoined hpc _ _ _ => simp [hpc, CallPc.isSettled] at hsettled
  | workerJoined hpc _ _ _ => simp [hpc, CallPc.isSettled] at hsettled
  | heartbeatChecked hpc => exact ⟨rfl, rfl, rfl, rfl, rfl, rfl, rfl⟩
  | workerChecked hpc => exact ⟨rfl, rfl, rfl, rfl, rfl, rfl, rfl⟩
  | _ => simp_all [CallPc.isSettled]

theorem Phases.undisturbed (h : Phases s) (hbusy : (s.callers t).isSettled = false)
    (hturns : TakesTurns s a) (hstep : s.step a = some s') (hother : ¬ a.IsCallStep t) :
    Undisturbed s a s' t := by
  have hidle : s.callers t ≠ .idle := fun hidle => by rw [hidle] at hbusy; cases hbusy
  unfold LifecycleState.step at hstep
  split at hstep
  · cases hstep
  split at hstep
  · rename_i u
    obtain ⟨hpc, rfl⟩ := enter_cases hstep
    have hne : t ≠ u := fun heq => hidle (heq ▸ hpc)
    exact .of_same ⟨rfl, rfl, rfl, rfl, rfl, rfl, rfl⟩ (Function.update_of_ne hne _ _)
  · rename_i u
    obtain ⟨hpc, rfl⟩ := enter_cases hstep
    have hne : t ≠ u := fun heq => hidle (heq ▸ hpc)
    exact .of_same ⟨rfl, rfl, rfl, rfl, rfl, rfl, rfl⟩ (Function.update_of_ne hne _ _)
  · rename_i u answer now
    have hne : t ≠ u := by
      rintro rfl
      exact hother ⟨answer, now, rfl⟩
    have hsection := callSection_of_step hstep
    refine .of_same (sameThreads_of_callSection ?_ ?_ hsection) (callers_callSection hsection hne)
    · by_contra hnot
      exact hne (h.alone t u hbusy (Bool.eq_false_iff.mpr hnot))
    · -- while the first call is past its store the other may not make its own
      by_contra hstores
      obtain ⟨value, hvalue⟩ := Option.ne_none_iff_exists'.mp hstores
      rw [(hturns value hvalue).2.2 t hne] at hbusy
      cases hbusy
  · rename_i j answer now
    have hl := looped_heartbeatStep hstep
    obtain ⟨hworkers, pc, -, hheartbeats⟩ := heartbeats_of_heartbeatStep hstep
    refine ⟨by rw [hl.callers], hl.running, hl.heartbeatThread, hl.workerThread, fun i hi => ?_,
      fun i _ => by rw [hworkers]⟩
    have hne : i ≠ j := by
      rintro rfl
      exact hi ⟨answer, now, rfl⟩
    rw [hheartbeats, Function.update_of_ne hne]
  · rename_i j now
    have hl := looped_workerStep hstep
    obtain ⟨hheartbeats, pc, -, hworkers⟩ := workers_of_workerStep hstep
    refine ⟨by rw [hl.callers], hl.running, hl.heartbeatThread, hl.workerThread,
      fun i _ => by rw [hheartbeats], fun i hi => ?_⟩
    have hne : i ≠ j := by
      rintro rfl
      exact hi ⟨now, rfl⟩
    rw [hworkers, Function.update_of_ne hne]
  · obtain rfl := Option.some.inj hstep
    exact ⟨rfl, rfl, rfl, rfl, fun _ _ => rfl, fun _ _ => rfl⟩

/-! ## Who is joined was created -/

/-- A thread object holds a thread that was created. -/
structure HoldsCreated (s : LifecycleState) : Prop where
  heartbeat : ∀ i, s.heartbeatThread = some i → s.heartbeats i ≠ .notCreated
  worker : ∀ i, s.workerThread = some i → s.workers i ≠ .notCreated

theorem HoldsCreated.callSection (h : HoldsCreated s) (hstep : CallSection s t s') :
    HoldsCreated s' := by
  cases hstep with
  | heartbeatCreated hpc =>
    refine ⟨fun i hi => ?_, h.worker⟩
    obtain rfl := Option.some.inj hi
    simp [goto]
  | workerCreated hpc =>
    refine ⟨h.heartbeat, fun i hi => ?_⟩
    obtain rfl := Option.some.inj hi
    simp [goto]
  | heartbeatJoined hpc thread _ _ => exact ⟨fun i hi => (by cases hi), h.worker⟩
  | workerJoined hpc thread _ _ => exact ⟨h.heartbeat, fun i hi => (by cases hi)⟩
  | _ => exact ⟨h.heartbeat, h.worker⟩

theorem HoldsCreated.step (h : HoldsCreated s) (hstep : s.step a = some s') : HoldsCreated s' := by
  unfold LifecycleState.step at hstep
  split at hstep
  · cases hstep
  split at hstep
  · obtain ⟨-, rfl⟩ := enter_cases hstep
    exact ⟨h.heartbeat, h.worker⟩
  · obtain ⟨-, rfl⟩ := enter_cases hstep
    exact ⟨h.heartbeat, h.worker⟩
  · exact h.callSection (callSection_of_step hstep)
  · rename_i j answer now
    have hl := looped_heartbeatStep hstep
    obtain ⟨hworkers, pc, hpc, hheartbeats⟩ := heartbeats_of_heartbeatStep hstep
    refine ⟨fun i hi => ?_, by rw [hl.workerThread, hworkers]; exact h.worker⟩
    rw [hl.heartbeatThread] at hi
    rw [hheartbeats]
    by_cases hj : i = j
    · rw [hj, Function.update_self]
      exact hpc
    · rw [Function.update_of_ne hj]
      exact h.heartbeat i hi
  · rename_i j now
    have hl := looped_workerStep hstep
    obtain ⟨hheartbeats, pc, hpc, hworkers⟩ := workers_of_workerStep hstep
    refine ⟨by rw [hl.heartbeatThread, hheartbeats]; exact h.heartbeat, fun i hi => ?_⟩
    rw [hl.workerThread] at hi
    rw [hworkers]
    by_cases hj : i = j
    · rw [hj, Function.update_self]
      exact hpc
    · rw [Function.update_of_ne hj]
      exact h.worker i hi
  · obtain rfl := Option.some.inj hstep
    exact ⟨h.heartbeat, h.worker⟩

theorem holdsCreated_of_reachable (h : lifecycleSystem.Reachable s) : HoldsCreated s := by
  refine GuardedSystem.Reachable.invariant (P := HoldsCreated) ⟨fun i hi => ?_, fun i hi => ?_⟩
    (fun s a s' hs hstep => hs.step hstep) h
  · cases hi
  · cases hi

/-! ## Executions -/

section Executions

open GuardedSystem.Execution

variable {E : lifecycleSystem.Execution} {n : ℕ}

/-- **Every thread gets on** that is in a call or in `HeartbeatLoop`, so RPCs
are answered. A worker's callback may make one call after the other, so
that it returns is more: `WorkerLoop` is treated strongly fairly then. -/
structure Fair (E : lifecycleSystem.Execution) : Prop where
  calls : ∀ t, E.WeaklyFair (IsCallStep t)
  heartbeats : ∀ i, E.WeaklyFair (IsHeartbeatStep i)

theorem phases_of_via (hturns : E.Via TakesTurns) (n : ℕ) : Phases (E.state n) :=
  (phases_and_owed (reachableVia hturns n)).1

/-- While the program has not ended, the threads are what steps. -/
theorem Phases.call_step (h : Phases s) (t : LifecycleCaller) (answer : StubAnswer)
    (now : ResourceId → TimePoint) :
    lifecycleSystem.step s (.callStep t answer now) = s.callStep t answer now :=
  if_neg (Bool.eq_false_iff.mp h.clean.1)

theorem Phases.heartbeat_step (h : Phases s) (i : ℕ) (answer : StubAnswer)
    (now : ResourceId → TimePoint) :
    lifecycleSystem.step s (.heartbeatStep i answer now) = s.heartbeatStep i answer now :=
  if_neg (Bool.eq_false_iff.mp h.clean.1)

theorem Phases.worker_step (h : Phases s) (i : ℕ) (now : TimePoint) :
    lifecycleSystem.step s (.workerStep i now) = s.workerStep i now :=
  if_neg (Bool.eq_false_iff.mp h.clean.1)

/-! ## Calls get on -/

/-- **A call that can take its step takes it**, if what it needs for the
step stays until then. -/
theorem goes_on {P : LifecycleState → Prop} (pc : CallPc) (hturns : E.Via TakesTurns)
    (hfair : Fair E) (hpc : ∀ s, P s → s.callers t = pc)
    (henabled : ∀ s, P s → (s.callStep t ⟨true, ∅⟩ fun _ => 0).isSome = true)
    (hothers : ∀ (n : ℕ) (a : LifecycleAction), P (E.state n) → E.action n = some a →
      ¬ a.IsCallStep t → P (E.state (n + 1))) :
    E.Leads P fun s => (s.callers t).rank < pc.rank := by
  refine leads_of_weaklyFair (hfair.calls t) (fun n hn => ?_) (fun n a hn haction hown => ?_)
    fun n a hn haction hother => .inl (hothers n a hn haction hother)
  · refine ⟨.callStep t ⟨true, ∅⟩ fun _ => 0, ⟨_, _, rfl⟩, ?_⟩
    rw [(phases_of_via hturns n).call_step]
    exact henabled _ hn
  · obtain ⟨answer, now, rfl⟩ := hown
    have hstep := E.moved n _ haction
    rw [(phases_of_via hturns n).call_step] at hstep
    have hlt := rank_lt_of_callSection (callSection_of_step hstep)
    rwa [hpc _ hn] at hlt

/-- A call's own place is its own. -/
theorem callers_of_other {a : LifecycleAction} (haction : E.action n = some a)
    (hbusy : (E.state n).callers t ≠ .idle) (hother : ¬ a.IsCallStep t) :
    (E.state (n + 1)).callers t = (E.state n).callers t := by
  have hstep := E.moved n a haction
  by_cases hcaller : caller a = some t
  · cases a with
    | start u =>
      obtain rfl := Option.some.inj hcaller
      have hstart : (E.state n).step (.start u) = some (E.state (n + 1)) := hstep
      unfold LifecycleState.step at hstart
      split at hstart
      · cases hstart
      · exact absurd (enter_cases hstart).1 hbusy
    | stop u =>
      obtain rfl := Option.some.inj hcaller
      have hstop : (E.state n).step (.stop u) = some (E.state (n + 1)) := hstep
      unfold LifecycleState.step at hstop
      split at hstop
      · cases hstop
      · exact absurd (enter_cases hstop).1 hbusy
    | callStep u answer now =>
      obtain rfl := Option.some.inj hcaller
      exact absurd ⟨answer, now, rfl⟩ hother
    | heartbeatStep _ _ _ => cases hcaller
    | workerStep _ _ => cases hcaller
    | acquire _ _ => cases hcaller
  · exact callers_step hstep hcaller

/-- Away from the joins a call gets on. -/
theorem call_progresses_of_ne (hturns : E.Via TakesTurns) (hfair : Fair E)
    (hbusy : (E.state n).callers t ≠ .idle) (hbeat : (E.state n).callers t ≠ .joiningHeartbeat)
    (hworker : (E.state n).callers t ≠ .joiningWorker) :
    ∃ m, n ≤ m ∧ ((E.state m).callers t).rank < ((E.state n).callers t).rank := by
  refine goes_on (t := t) _ hturns hfair (P := fun s => s.callers t = (E.state n).callers t)
    (fun s hs => hs) (fun s hs => ?_) (fun k a hk haction hother => ?_) n rfl
  · exact callStep_isSome (hs ▸ hbusy) (hs ▸ hbeat) (hs ▸ hworker) _ _
  · exact (callers_of_other haction (hk ▸ hbusy) hother).trans hk

/-- A call that always gets on returns. -/
theorem returns_of_progresses (h : ∀ k, n ≤ k → (E.state k).callers t ≠ .idle →
      ∃ m, k ≤ m ∧ ((E.state m).callers t).rank < ((E.state k).callers t).rank) :
    ∃ m, n ≤ m ∧ (E.state m).callers t = .idle := by
  by_contra hnever
  have hbusy : ∀ k, n ≤ k → (E.state k).callers t ≠ .idle := fun k hk hidle => hnever ⟨k, hk, hidle⟩
  have hall : ∀ r k, n ≤ k → ((E.state k).callers t).rank ≠ r := by
    intro r
    induction r using Nat.strong_induction_on with
    | _ r ih =>
      rintro k hk rfl
      obtain ⟨m, hm, hlt⟩ := h k hk (hbusy k hk)
      exact ih _ hlt m (hk.trans hm) rfl
  exact hall _ n le_rfl rfl

/-- **A call out of a callback returns**: it never comes to join. -/
theorem callback_returns (hturns : E.Via TakesTurns) (hfair : Fair E) (n i : ℕ) :
    ∃ m, n ≤ m ∧ (E.state m).callers (.worker i) = .idle := by
  refine returns_of_progresses fun k _ hbusy => ?_
  have hsettled := (phases_of_via hturns k).outside i
  refine call_progresses_of_ne hturns hfair hbusy (fun hpc => ?_) fun hpc => ?_
  · rw [hpc] at hsettled
    cases hsettled
  · rw [hpc] at hsettled
    cases hsettled

/-! ## Loops end -/

/-- No thread joins itself. -/
theorem Phases.not_joinsItself (h : Phases s) (hpc : s.callers t = .joiningWorker) (i : ℕ) :
    t ≠ .worker i := by
  rintro rfl
  have hsettled := h.outside i
  rw [hpc] at hsettled
  cases hsettled

/-- A thread that was created has left its loop or is in it. -/
theorem exited_or_alive {pc : HeartbeatPc} (h : pc ≠ .notCreated) :
    pc = .exited ∨ pc.alive = true := by
  cases pc <;> simp_all [HeartbeatPc.alive]

theorem worker_exited_or_alive {pc : WorkerLoopPc} (h : pc ≠ .notCreated) :
    pc = .exited ∨ pc.alive = true := by
  cases pc <;> simp_all [WorkerLoopPc.alive]

/-- **The heartbeat's thread ends** while a `Stop` joins it. -/
theorem heartbeat_exits (hturns : E.Via TakesTurns) (hfair : Fair E) (t : LifecycleCaller)
    (i : ℕ) :
    E.Leads
      (fun s => (s.callers t = .joiningHeartbeat ∧ s.heartbeatThread = some i) ∧
        (s.heartbeats i).alive = true)
      fun s => (s.callers t = .joiningHeartbeat ∧ s.heartbeatThread = some i) ∧
        s.heartbeats i = .exited := by
  refine leads_of_weaklyFair_rank (fun s => (s.heartbeats i).rank) (hfair.heartbeats i)
    (fun n hn => ?_) (fun n a hn haction hown => ?_) fun n a hn haction hother => ?_
  · refine ⟨.heartbeatStep i ⟨true, ∅⟩ fun _ => 0, ⟨_, _, rfl⟩, ?_⟩
    rw [(phases_of_via hturns n).heartbeat_step]
    exact heartbeatStep_isSome hn.2 _ _
  · obtain ⟨answer, now, rfl⟩ := hown
    obtain ⟨⟨hpc, hthread⟩, -⟩ := hn
    have hphases := phases_of_via hturns n
    have hrunning := (hphases.flags (t := t) (by rw [hpc]; rfl)).1
    have hstep := E.moved n _ haction
    rw [hphases.heartbeat_step] at hstep
    have hl := looped_heartbeatStep hstep
    obtain ⟨hlt, hcreated⟩ := rank_lt_of_heartbeatStep hrunning hstep
    have hstill : (E.state (n + 1)).callers t = .joiningHeartbeat ∧
        (E.state (n + 1)).heartbeatThread = some i := by
      rw [hl.callers, hl.heartbeatThread]
      exact ⟨hpc, hthread⟩
    exact (exited_or_alive hcreated).imp (⟨hstill, ·⟩) fun halive => ⟨⟨hstill, halive⟩, hlt⟩
  · obtain ⟨⟨hpc, hthread⟩, halive⟩ := hn
    have hphases := phases_of_via hturns n
    have hstep := E.moved n _ haction
    by_cases hcall : a.IsCallStep t
    · -- the join waits
      obtain ⟨answer, now, rfl⟩ := hcall
      rw [hphases.call_step] at hstep
      simp only [callStep, hpc, hthread] at hstep
      split at hstep
      · rename_i hexited
        rw [hexited] at halive
        cases halive
      · cases hstep
    · have hkept := hphases.undisturbed (t := t) (by rw [hpc]; rfl) (hturns n a haction) hstep hcall
      refine .inr ⟨⟨⟨hkept.caller.trans hpc, hkept.heartbeatThread.trans hthread⟩, ?_⟩, ?_⟩
      · rw [hkept.heartbeats i hother]
        exact halive
      · rw [hkept.heartbeats i hother]

/-- **The worker ends** while a `Stop` joins it, if callbacks return. -/
theorem worker_exits (hturns : E.Via TakesTurns) (hfair : Fair E)
    (hcallbacks : ∀ i, E.StronglyFair (IsWorkerStep i)) (t : LifecycleCaller) (i : ℕ) :
    E.Leads
      (fun s => (s.callers t = .joiningWorker ∧ s.workerThread = some i) ∧
        (s.workers i).alive = true)
      fun s => (s.callers t = .joiningWorker ∧ s.workerThread = some i) ∧
        s.workers i = .exited := by
  refine leads_of_actsIn_rank (fun s => (s.workers i).rank)
    ((hcallbacks i).actsIn fun n hall => ?_) (fun n a hn haction hown => ?_)
    fun n a hn haction hother => ?_
  · -- it can go on wherever its callback, if it runs one, makes no call
    obtain ⟨m, hm, hidle⟩ := callback_returns hturns hfair n i
    refine ⟨m, hm, .workerStep i 0, ⟨_, rfl⟩, ?_⟩
    rw [(phases_of_via hturns m).worker_step]
    exact workerStep_isSome (hall m hm).2 hidle _
  · obtain ⟨now, rfl⟩ := hown
    obtain ⟨⟨hpc, hthread⟩, -⟩ := hn
    have hphases := phases_of_via hturns n
    have hrunning := (hphases.flags (t := t) (by rw [hpc]; rfl)).1
    have hstep := E.moved n _ haction
    rw [hphases.worker_step] at hstep
    have hl := looped_workerStep hstep
    obtain ⟨client, pc, hsection, hnext⟩ := workerSection_of_step hstep
    have hworker : (E.state (n + 1)).workers i = pc := by
      rw [hnext]
      exact Function.update_self _ _ _
    have hlt : ((E.state (n + 1)).workers i).rank < ((E.state n).workers i).rank := by
      rw [hworker]
      exact hsection.rank_lt hrunning
    have hcreated : (E.state (n + 1)).workers i ≠ .notCreated := hworker ▸ hsection.created
    have hstill : (E.state (n + 1)).callers t = .joiningWorker ∧
        (E.state (n + 1)).workerThread = some i := by
      rw [hl.callers, hl.workerThread]
      exact ⟨hpc, hthread⟩
    exact (worker_exited_or_alive hcreated).imp (⟨hstill, ·⟩)
      fun halive => ⟨⟨hstill, halive⟩, hlt⟩
  · obtain ⟨⟨hpc, hthread⟩, halive⟩ := hn
    have hphases := phases_of_via hturns n
    have hstep := E.moved n _ haction
    by_cases hcall : a.IsCallStep t
    · obtain ⟨answer, now, rfl⟩ := hcall
      rw [hphases.call_step] at hstep
      simp only [callStep, hpc, hthread, if_neg (hphases.not_joinsItself hpc i)] at hstep
      split at hstep
      · rename_i hexited
        rw [hexited] at halive
        cases halive
      · cases hstep
    · have hkept := hphases.undisturbed (t := t) (by rw [hpc]; rfl) (hturns n a haction) hstep hcall
      refine .inr ⟨⟨⟨hkept.caller.trans hpc, hkept.workerThread.trans hthread⟩, ?_⟩, ?_⟩
      · rw [hkept.workers i hother]
        exact halive
      · rw [hkept.workers i hother]

/-! ## Calls return -/

/-- A join returns. -/
theorem heartbeat_joined (hturns : E.Via TakesTurns) (hfair : Fair E)
    (hpc : (E.state n).callers t = .joiningHeartbeat) :
    ∃ m, n ≤ m ∧ ((E.state m).callers t).rank < CallPc.rank .joiningHeartbeat := by
  have hphases := phases_of_via hturns n
  have hsome := (hphases.flags (t := t) (by rw [hpc]; rfl)).2.1
  obtain ⟨i, hthread⟩ := Option.isSome_iff_exists.mp hsome
  have hcreated := (holdsCreated_of_reachable (reachable n)).heartbeat i hthread
  obtain ⟨m, hm, ⟨hpc', hthread'⟩, hexited⟩ : ∃ m, n ≤ m ∧
      ((E.state m).callers t = .joiningHeartbeat ∧ (E.state m).heartbeatThread = some i) ∧
        (E.state m).heartbeats i = .exited := by
    rcases exited_or_alive hcreated with hexited | halive
    · exact ⟨n, le_rfl, ⟨hpc, hthread⟩, hexited⟩
    · exact heartbeat_exits hturns hfair t i n ⟨⟨hpc, hthread⟩, halive⟩
  have hgoes := goes_on (t := t) .joiningHeartbeat hturns hfair
    (P := fun s => s.callers t = .joiningHeartbeat ∧ s.heartbeatThread = some i ∧
      s.heartbeats i = .exited) (fun s hs => hs.1) (fun s hs => ?_) fun k a hk haction hother => ?_
  · obtain ⟨k, hk, hlt⟩ := hgoes m ⟨hpc', hthread', hexited⟩
    exact ⟨k, by omega, hlt⟩
  · simp only [callStep, hs.1, hs.2.1, hs.2.2]
    rfl
  · obtain ⟨hpc, hthread, hexited⟩ := hk
    have hphases := phases_of_via hturns k
    have hstep := E.moved k a haction
    have hkept := hphases.undisturbed (t := t) (by rw [hpc]; rfl) (hturns k a haction) hstep hother
    refine ⟨hkept.caller.trans hpc, hkept.heartbeatThread.trans hthread, ?_⟩
    by_cases hown : a.IsHeartbeatStep i
    · obtain ⟨answer, now, rfl⟩ := hown
      rw [hphases.heartbeat_step] at hstep
      simp only [heartbeatStep, hexited] at hstep
      cases hstep
    · rw [hkept.heartbeats i hown]
      exact hexited

theorem worker_joined (hturns : E.Via TakesTurns) (hfair : Fair E)
    (hcallbacks : ∀ i, E.StronglyFair (IsWorkerStep i))
    (hpc : (E.state n).callers t = .joiningWorker) :
    ∃ m, n ≤ m ∧ ((E.state m).callers t).rank < CallPc.rank .joiningWorker := by
  have hphases := phases_of_via hturns n
  have hsome := (hphases.flags (t := t) (by rw [hpc]; rfl)).2.2
  obtain ⟨i, hthread⟩ := Option.isSome_iff_exists.mp hsome
  have hcreated := (holdsCreated_of_reachable (reachable n)).worker i hthread
  obtain ⟨m, hm, ⟨hpc', hthread'⟩, hexited⟩ : ∃ m, n ≤ m ∧
      ((E.state m).callers t = .joiningWorker ∧ (E.state m).workerThread = some i) ∧
        (E.state m).workers i = .exited := by
    rcases worker_exited_or_alive hcreated with hexited | halive
    · exact ⟨n, le_rfl, ⟨hpc, hthread⟩, hexited⟩
    · exact worker_exits hturns hfair hcallbacks t i n ⟨⟨hpc, hthread⟩, halive⟩
  have hgoes := goes_on (t := t) .joiningWorker hturns hfair
    (P := fun s => s.callers t = .joiningWorker ∧ s.workerThread = some i ∧
      s.workers i = .exited) (fun s hs => hs.1) (fun s hs => ?_) fun k a hk haction hother => ?_
  · obtain ⟨k, hk, hlt⟩ := hgoes m ⟨hpc', hthread', hexited⟩
    exact ⟨k, by omega, hlt⟩
  · simp only [callStep, hs.1, hs.2.1, hs.2.2]
    split <;> rfl
  · obtain ⟨hpc, hthread, hexited⟩ := hk
    have hphases := phases_of_via hturns k
    have hstep := E.moved k a haction
    have hkept := hphases.undisturbed (t := t) (by rw [hpc]; rfl) (hturns k a haction) hstep hother
    refine ⟨hkept.caller.trans hpc, hkept.workerThread.trans hthread, ?_⟩
    by_cases hown : a.IsWorkerStep i
    · obtain ⟨now, rfl⟩ := hown
      rw [hphases.worker_step] at hstep
      simp only [workerStep, hexited] at hstep
      cases hstep
    · rw [hkept.workers i hown]
      exact hexited

/-- **A call in progress gets on.** -/
theorem call_progresses (hturns : E.Via TakesTurns) (hfair : Fair E)
    (hcallbacks : ∀ i, E.StronglyFair (IsWorkerStep i)) (hbusy : (E.state n).callers t ≠ .idle) :
    ∃ m, n ≤ m ∧ ((E.state m).callers t).rank < ((E.state n).callers t).rank := by
  by_cases hbeat : (E.state n).callers t = .joiningHeartbeat
  · rw [hbeat]
    exact heartbeat_joined hturns hfair hbeat
  by_cases hworker : (E.state n).callers t = .joiningWorker
  · rw [hworker]
    exact worker_joined hturns hfair hcallbacks hworker
  exact call_progresses_of_ne hturns hfair hbusy hbeat hworker

/-- **Every call returns**, whatever the loops, the callbacks, the stub and
the other calls do, if the calls take turns, every thread gets on and
callbacks return. -/
theorem call_returns (hturns : E.Via TakesTurns) (hfair : Fair E)
    (hcallbacks : ∀ i, E.StronglyFair (IsWorkerStep i)) (n : ℕ) (t : LifecycleCaller) :
    ∃ m, n ≤ m ∧ (E.state m).callers t = .idle :=
  returns_of_progresses fun _ _ hbusy => call_progresses hturns hfair hcallbacks hbusy

/-! ## The last Stop -/

/-- **Nothing is left of the client** but its memory: no call, no loop, no
thread object to join, no bucket, and no registration. -/
structure Down (s : LifecycleState) : Prop where
  returned : ∀ u, s.callers u = .idle
  stopped : s.running = false
  joined : s.heartbeatThread = none ∧ s.workerThread = none
  loops : (∀ i, (s.heartbeats i).alive = false) ∧ ∀ i, (s.workers i).alive = false
  buckets : s.client.tokenBuckets = ∅
  registrations : EveryRegistrationUndone s.rpcs

/-- **One call stops the client**, and nobody else calls. -/
structure Stopping (t : LifecycleCaller) (s : LifecycleState) : Prop where
  others : ∀ u, u ≠ t → s.callers u = .idle
  mine : (s.callers t = .stopTesting ∨ s.callers t = .lowering) ∨
    s.running = false ∧ (s.callers t).hasLowered = true

theorem Stopping.callStep {answer : StubAnswer} {now : ResourceId → TimePoint} (h : Stopping t s)
    (hstep : s.callStep t answer now = some s') : Stopping t s' := by
  have hmine := h.mine
  refine ⟨fun u hu => (callers_callSection (callSection_of_step hstep) hu).trans (h.others u hu),
    ?_⟩
  by_cases htest : s.callers t = .stopTesting
  · -- the test decides whether there is anything to stop
    simp only [LifecycleState.callStep, htest] at hstep
    rw [← Option.some.inj hstep]
    cases hrunning : s.running <;> simp [goto, hrunning, CallPc.hasLowered]
  · cases callSection_of_step hstep with
    | refused hpc => rcases hpc with hpc | hpc <;> simp_all [CallPc.hasLowered]
    | lowered hpc => simp [goto, CallPc.hasLowered]
    | joinedNothing hpc => rcases hpc with hpc | hpc <;> simp_all [goto, CallPc.hasLowered]
    | heartbeatChecked hpc =>
      simp only [hpc, reduceCtorEq, or_self, false_or] at hmine
      refine .inr ⟨hmine.1, ?_⟩
      simp only [goto, Function.update_self]
      split <;> rfl
    | workerChecked hpc =>
      simp only [hpc, reduceCtorEq, or_self, false_or] at hmine
      refine .inr ⟨hmine.1, ?_⟩
      simp only [goto, Function.update_self]
      split <;> rfl
    | _ => simp_all [goto, CallPc.hasLowered]

theorem Stopping.looped (h : Stopping t s) (hl : Looped s s') : Stopping t s' := by
  refine ⟨fun u hu => ?_, ?_⟩
  · rw [hl.callers]
    exact h.others u hu
  · rw [hl.callers, hl.running]
    exact h.mine

/-- It goes on so while no other call begins. -/
theorem Stopping.step (h : Stopping t s) (hnobody : a.begins = false)
    (hstep : s.step a = some s') : Stopping t s' := by
  unfold LifecycleState.step at hstep
  split at hstep
  · cases hstep
  split at hstep
  · cases hnobody
  · cases hnobody
  · rename_i u answer now
    by_cases hu : u = t
    · subst hu
      exact h.callStep hstep
    · rw [LifecycleState.callStep, h.others u hu] at hstep
      cases hstep
  · exact h.looped (looped_heartbeatStep hstep)
  · exact h.looped (looped_workerStep hstep)
  · obtain rfl := Option.some.inj hstep
    exact h.looped (looped_acquire s _ _)

theorem Stopping.down (h : Stopping t s) (hidle : s.callers t = .idle) (hphases : Phases s)
    (howed : Owed s) : Down s := by
  have hall : ∀ u, s.callers u = .idle := by
    intro u
    by_cases hu : u = t
    · rw [hu]
      exact hidle
    · exact h.others u hu
  have hstopped : s.running = false := by
    have hmine := h.mine
    simp only [hidle, reduceCtorEq, or_self, false_or] at hmine
    exact hmine.1
  have hflags := hphases.rest fun u => by rw [hall u]; rfl
  rw [threadFlags, hstopped, Prod.mk.injEq, Prod.mk.injEq] at hflags
  obtain ⟨hheartbeats, hworkers, hbuckets, hundone⟩ :=
    (hphases.sound howed).stopped hstopped hall
  exact ⟨hall, hstopped, ⟨Option.not_isSome_iff_eq_none.mp (Bool.eq_false_iff.mp hflags.2.1),
    Option.not_isSome_iff_eq_none.mp (Bool.eq_false_iff.mp hflags.2.2)⟩,
    ⟨hheartbeats, hworkers⟩, hbuckets, hundone⟩

/-- **The loop runs while the client does**: it ends only where it finds the
flag down. -/
def Lively (s : LifecycleState) : Prop :=
  s.running = true → ∀ i, s.heartbeatThread = some i → (s.heartbeats i).alive = true

theorem Lively.callSection (h : Lively s) (hphases : Phases s') (hstep : CallSection s t s') :
    Lively s' := by
  cases hstep with
  | raised hpc =>
    -- no thread is held yet
    have hat : (({ s with running := true } : LifecycleState).goto t .creatingHeartbeat).callers t =
        .creatingHeartbeat := Function.update_self _ _ _
    have hnone := (hphases.flags (t := t) (by rw [hat]; rfl)).2.1
    intro _ i hi
    rw [hi] at hnone
    cases hnone
  | heartbeatCreated hpc =>
    intro _ i hi
    obtain rfl := Option.some.inj hi
    simp [goto, HeartbeatPc.alive]
  | lowered hpc =>
    intro hrunning
    cases hrunning
  | heartbeatJoined hpc thread _ _ =>
    intro _ i hi
    cases hi
  | _ => exact h

theorem alive_of_heartbeatStep {answer : StubAnswer} {now : ResourceId → TimePoint}
    (hrunning : s.running = true) (h : s.heartbeatStep i answer now = some s') :
    (s'.heartbeats i).alive = true := by
  unfold heartbeatStep at h
  dsimp only at h
  split at h
  · cases h
  · rw [← Option.some.inj h]
    simp [hrunning, HeartbeatPc.alive]
  · rw [← Option.some.inj h]
    simp [hrunning, HeartbeatPc.alive]
  · rw [← Option.some.inj h]
    cases answer.ok <;> simp [HeartbeatPc.alive]
  · rw [← Option.some.inj h]
    simp [HeartbeatPc.alive]
  · cases h

theorem Lively.step (h : Lively s) (hphases : Phases s') (hstep : s.step a = some s') :
    Lively s' := by
  unfold LifecycleState.step at hstep
  split at hstep
  · cases hstep
  split at hstep
  · obtain ⟨-, rfl⟩ := enter_cases hstep
    exact h
  · obtain ⟨-, rfl⟩ := enter_cases hstep
    exact h
  · exact h.callSection hphases (callSection_of_step hstep)
  · rename_i j answer now
    have hl := looped_heartbeatStep hstep
    intro hrunning i hi
    rw [hl.running] at hrunning
    rw [hl.heartbeatThread] at hi
    by_cases hij : i = j
    · subst hij
      exact alive_of_heartbeatStep hrunning hstep
    · obtain ⟨-, pc, -, hheartbeats⟩ := heartbeats_of_heartbeatStep hstep
      rw [hheartbeats, Function.update_of_ne hij]
      exact h hrunning i hi
  · have hl := looped_workerStep hstep
    intro hrunning i hi
    rw [hl.running] at hrunning
    rw [hl.heartbeatThread] at hi
    rw [(workers_of_workerStep hstep).1]
    exact h hrunning i hi
  · obtain rfl := Option.some.inj hstep
    exact h

theorem lively_of_via (hturns : E.Via TakesTurns) (n : ℕ) : Lively (E.state n) := by
  refine stays (P := Lively) n.zero_le ?_ fun k a _ _ haction h =>
    h.step (phases_of_via hturns (k + 1)) (E.moved k a haction)
  rw [E.start]
  intro hrunning
  cases hrunning

/-- The thread is created before long, -/
theorem exists_heartbeatThread (hturns : E.Via TakesTurns) (hfair : Fair E)
    (hruns : (E.state n).running = true) :
    ∃ m, n ≤ m ∧ ((E.state m).heartbeatThread).isSome = true := by
  have hphases := phases_of_via hturns n
  by_cases hall : ∀ t, ((E.state n).callers t).isSettled = true
  · have hflags := hphases.rest hall
    rw [threadFlags, hruns, Prod.mk.injEq, Prod.mk.injEq] at hflags
    exact ⟨n, le_rfl, hflags.2.1⟩
  obtain ⟨t, ht⟩ := not_forall.mp hall
  obtain ⟨⟨r, b, w⟩, hexpects⟩ := (isSettled_eq_false_iff _).mp (Bool.eq_false_iff.mpr ht)
  obtain ⟨hrunning, hbeat, -⟩ := hphases.flags hexpects
  cases b with
  | true => exact ⟨n, le_rfl, hbeat⟩
  | false =>
    obtain rfl : r = true := hrunning.symm.trans hruns
    have hpc : (E.state n).callers t = .creatingHeartbeat := by
      cases hpc : (E.state n).callers t <;> simp_all [CallPc.expects]
    refine leads_of_weaklyFair (P := fun s => s.callers t = .creatingHeartbeat)
      (Q := fun s : LifecycleState => s.heartbeatThread.isSome = true) (hfair.calls t)
      (fun k hk => ?_) (fun k a hk haction hown => ?_) (fun k a hk haction hother => ?_) n hpc
    · refine ⟨.callStep t ⟨true, ∅⟩ fun _ => 0, ⟨_, _, rfl⟩, ?_⟩
      rw [(phases_of_via hturns k).call_step, LifecycleState.callStep, hk]
      rfl
    · obtain ⟨answer, now, rfl⟩ := hown
      have hstep := E.moved k _ haction
      rw [(phases_of_via hturns k).call_step, LifecycleState.callStep, hk] at hstep
      rw [← Option.some.inj hstep]
      rfl
    · refine .inl ((callers_of_other haction ?_ hother).trans hk)
      rw [hk]
      exact CallPc.noConfusion

/-- and stays while the client runs, moved by nobody else. -/
theorem heartbeatThread_of_step (h : Phases s) (hrunning : s.running = true)
    (hthread : s.heartbeatThread = some i) (hstep : s.step a = some s') :
    s'.heartbeatThread = some i ∧
      (¬ a.IsHeartbeatStep i → s'.heartbeats i = s.heartbeats i) := by
  unfold LifecycleState.step at hstep
  split at hstep
  · cases hstep
  split at hstep
  · obtain ⟨-, rfl⟩ := enter_cases hstep
    exact ⟨hthread, fun _ => rfl⟩
  · obtain ⟨-, rfl⟩ := enter_cases hstep
    exact ⟨hthread, fun _ => rfl⟩
  · rename_i t answer now
    cases callSection_of_step hstep with
    | heartbeatCreated hpc =>
      have hnone := (h.flags (t := t) (by rw [hpc]; rfl)).2.1
      rw [hthread] at hnone
      cases hnone
    | heartbeatJoined hpc thread _ _ =>
      have hdown := (h.flags (t := t) (by rw [hpc]; rfl)).1
      rw [hrunning] at hdown
      cases hdown
    | _ => exact ⟨hthread, fun _ => rfl⟩
  · rename_i j answer now
    obtain ⟨-, pc, -, hheartbeats⟩ := heartbeats_of_heartbeatStep hstep
    refine ⟨(looped_heartbeatStep hstep).heartbeatThread.trans hthread, fun hother => ?_⟩
    have hne : i ≠ j := by
      rintro rfl
      exact hother ⟨answer, now, rfl⟩
    rw [hheartbeats, Function.update_of_ne hne]
  · refine ⟨(looped_workerStep hstep).heartbeatThread.trans hthread, fun _ => ?_⟩
    rw [(workers_of_workerStep hstep).1]
  · obtain rfl := Option.some.inj hstep
    exact ⟨hthread, fun _ => rfl⟩

/-- How many steps a loop has before it sends its next heartbeat. -/
def beatsIn : HeartbeatPc → ℕ
  | .updating _ => 3
  | .testing => 2
  | .waiting => 1
  | _ => 0

theorem beatsIn_lt_of_heartbeatStep {answer : StubAnswer} {now : ResourceId → TimePoint}
    (hrunning : s.running = true) (hnot : s.heartbeats i ≠ .sending)
    (h : s.heartbeatStep i answer now = some s') :
    beatsIn (s'.heartbeats i) < beatsIn (s.heartbeats i) := by
  unfold heartbeatStep at h
  dsimp only at h
  split at h
  · cases h
  · rw [← Option.some.inj h]
    simp_all [beatsIn]
  · rw [← Option.some.inj h]
    simp_all [beatsIn]
  · exact absurd ‹_› hnot
  · rw [← Option.some.inj h]
    simp_all [beatsIn]
  · cases h

theorem exists_heartbeat (hturns : E.Via TakesTurns) (hfair : Fair E) (n : ℕ)
    (hruns : ∀ k, n ≤ k → (E.state k).running = true) :
    ∃ m i answer now, n ≤ m ∧ (E.state m).heartbeats i = .sending ∧
      E.action m = some (.heartbeatStep i answer now) := by
  obtain ⟨k, hk, hsome⟩ := exists_heartbeatThread hturns hfair (hruns n le_rfl)
  obtain ⟨i, hi⟩ := Option.isSome_iff_exists.mp hsome
  have hthread : ∀ m, k ≤ m → (E.state m).heartbeatThread = some i := fun m hm =>
    stays (P := fun s : LifecycleState => s.heartbeatThread = some i) hm hi
      fun j a hj _ haction h => (heartbeatThread_of_step (phases_of_via hturns j)
        (hruns j (by omega)) h (E.moved j a haction)).1
  -- each step of the loop's thread brings the next heartbeat nearer
  have hnext : ∀ r m, k ≤ m → beatsIn ((E.state m).heartbeats i) = r →
      ∃ m' answer now, m ≤ m' ∧ (E.state m').heartbeats i = .sending ∧
        E.action m' = some (.heartbeatStep i answer now) := by
    intro r
    induction r using Nat.strong_induction_on with
    | _ r ih =>
      intro m hm hr
      have hacts := exists_action_of_weaklyFair
        (P := fun s : LifecycleState => s.heartbeats i = (E.state m).heartbeats i) rfl
        (hfair.heartbeats i) (fun j hj _ => ?_) fun j a hj hsame haction hother => ?_
      · obtain ⟨m', a, hm', hsame, haction, answer, now, rfl⟩ := hacts
        by_cases hsending : (E.state m').heartbeats i = .sending
        · exact ⟨m', answer, now, hm', hsending, haction⟩
        · have hstep := E.moved m' _ haction
          rw [(phases_of_via hturns m').heartbeat_step] at hstep
          have hlt := beatsIn_lt_of_heartbeatStep (hruns m' (by omega)) hsending hstep
          rw [hsame, hr] at hlt
          obtain ⟨m'', answer', now', hm'', hsends⟩ := ih _ hlt (m' + 1) (by omega) rfl
          exact ⟨m'', answer', now', by omega, hsends⟩
      · refine ⟨.heartbeatStep i ⟨true, ∅⟩ fun _ => 0, ⟨_, _, rfl⟩, ?_⟩
        rw [(phases_of_via hturns j).heartbeat_step]
        exact heartbeatStep_isSome
          (lively_of_via hturns j (hruns j (by omega)) i (hthread j (by omega))) _ _
      · exact ((heartbeatThread_of_step (phases_of_via hturns j) (hruns j (by omega))
          (hthread j (by omega)) (E.moved j a haction)).2 hother).trans hsame
  obtain ⟨m, answer, now, hm, hsends⟩ := hnext _ k le_rfl rfl
  exact ⟨m, i, answer, now, by omega, hsends⟩

/-- **A client that keeps running keeps sending heartbeats**, however they
are answered: after any time its loop makes one more. -/
theorem heartbeats_recur (hturns : E.Via TakesTurns) (hfair : Fair E) (n : ℕ)
    (hruns : ∀ k, n ≤ k → (E.state k).running = true) :
    ∀ k, n ≤ k → ∃ m i answer now, k ≤ m ∧ (E.state m).heartbeats i = .sending ∧
      E.action m = some (.heartbeatStep i answer now) :=
  fun k hk => exists_heartbeat hturns hfair k fun j hj => hruns j (hk.trans hj)

/-! ## One owner -/

/-- **Where one thread makes all the calls they take turns.** -/
theorem oneCaller_of_actions {t : ℕ}
    (hone : ∀ n a, E.action n = some a → ∀ u, caller a = some u → u = .app t) (n : ℕ) :
    OneCaller t (E.state n) := by
  refine stays (P := OneCaller t) n.zero_le ?_ fun k a _ _ haction h =>
    h.step (hone k a haction) (E.moved k a haction)
  rw [E.start]
  exact oneCaller_init t

theorem via_of_oneCaller {t : ℕ}
    (hone : ∀ n a, E.action n = some a → ∀ u, caller a = some u → u = .app t) :
    E.Via TakesTurns :=
  fun n a haction => (oneCaller_of_actions hone n).takesTurns (hone n a haction)

end Executions

section Witnesses

open GuardedSystem.Execution

theorem startedAndStopped_oneCaller {s : LifecycleState}
    (hs : lifecycleSystem.runFrom lifecycleSystem.init startedAndStopped = some s) (n : ℕ)
    (a : LifecycleAction) (haction : (ofRun hs).action n = some a) :
    ∀ u, caller a = some u → u = .app 0 := by
  have hone : ∀ a ∈ startedAndStopped, ∀ u, caller a = some u → u = .app 0 := by decide
  exact hone a (List.mem_of_getElem? haction)

theorem exists_startedAndStopped :
    ∃ s, ∃ hs : lifecycleSystem.runFrom lifecycleSystem.init startedAndStopped = some s,
      (ofRun hs).Via TakesTurns ∧ Fair (ofRun hs) ∧
        ∀ i, (ofRun hs).StronglyFair (IsWorkerStep i) := by
  have hrun : (lifecycleSystem.runFrom lifecycleSystem.init startedAndStopped).map
      (fun s => ((s.callers (.app 0)).rank, s.heartbeatThread.isSome, s.workerThread.isSome)) =
        some (0, false, false) := by decide +kernel
  obtain ⟨s, hs, hend⟩ := Option.map_eq_some_iff.mp hrun
  simp only [Prod.mk.injEq] at hend
  obtain ⟨hrank, hbeat, hworker⟩ := hend
  have hturns := via_of_oneCaller (startedAndStopped_oneCaller hs)
  have hlast : (ofRun hs).state startedAndStopped.length = s := ofRun_state_of_le hs le_rfl
  have hphases : Phases s := hlast ▸ phases_of_via hturns startedAndStopped.length
  have hcaller : OneCaller 0 s := hlast ▸ oneCaller_of_actions (startedAndStopped_oneCaller hs) _
  have hidle : ∀ t, s.callers t = .idle := by
    intro t
    by_cases ht : t = .app 0
    · subst ht
      cases hpc : s.callers (.app 0) <;> simp_all [CallPc.rank]
    · exact hcaller.others t ht
  have hworkers : ∀ i, (ofRun hs).StronglyFair (IsWorkerStep i) := by
    refine fun i => stronglyFair_ofRun hs ?_
    rintro ⟨_, ⟨now, rfl⟩, henabled⟩
    obtain ⟨s', hstep⟩ := Option.isSome_iff_exists.mp henabled
    rw [hphases.worker_step] at hstep
    obtain ⟨client, pc, hsection, -⟩ := workerSection_of_step hstep
    have halive := hsection.alive
    rw [hphases.no_worker hworker i] at halive
    cases halive
  refine ⟨s, hs, hturns, ⟨fun t => ?_, fun i => ?_⟩, hworkers⟩
  · refine (stronglyFair_ofRun hs ?_).weaklyFair
    rintro ⟨_, ⟨answer, now, rfl⟩, henabled⟩
    rw [hphases.call_step, LifecycleState.callStep, hidle t] at henabled
    cases henabled
  · refine (stronglyFair_ofRun hs ?_).weaklyFair
    rintro ⟨_, ⟨answer, now, rfl⟩, henabled⟩
    obtain ⟨s', hstep⟩ := Option.isSome_iff_exists.mp henabled
    rw [hphases.heartbeat_step] at hstep
    have halive := hphases.no_heartbeat hbeat i
    cases hpc : s.heartbeats i <;> simp_all [heartbeatStep, HeartbeatPc.alive]

/-- While its `Stop` waits for a worker in a callback. -/
theorem startedAndStopped_returns : ∃ E : lifecycleSystem.Execution,
    (E.state 23).callers (.app 0) = .joiningWorker ∧ (E.state 23).workers 1 = .running ∧
      ∃ m, 23 ≤ m ∧ (E.state m).callers (.app 0) = .idle := by
  obtain ⟨s, hs, hturns, hfair, hcallbacks⟩ := exists_startedAndStopped
  have hplaces : let mid := stateAfter lifecycleSystem startedAndStopped 23
      ((mid.callers (.app 0)).rank, (mid.callers (.app 0)).hasLowered, (mid.workers 1).rank) =
        (4, true, 2) := by decide +kernel
  simp only [Prod.mk.injEq] at hplaces
  obtain ⟨hrank, hlowered, hworker⟩ := hplaces
  refine ⟨ofRun hs, ?_, ?_, call_returns hturns hfair hcallbacks 23 (.app 0)⟩
  · change (stateAfter lifecycleSystem startedAndStopped 23).callers (.app 0) = _
    cases hpc : (stateAfter lifecycleSystem startedAndStopped 23).callers (.app 0) <;>
      simp_all [CallPc.rank, CallPc.hasLowered]
  · change (stateAfter lifecycleSystem startedAndStopped 23).workers 1 = _
    cases hpc : (stateAfter lifecycleSystem startedAndStopped 23).workers 1 <;>
      simp_all [WorkerLoopPc.rank]

/-- A client is started, and left alone. -/
def started : List LifecycleAction :=
  .start (.app 0) :: List.replicate 7 (.callStep (.app 0) ⟨true, ∅⟩ fun _ => 0)

/-- The steps of a loop: the even ones are a heartbeat's thread, the odd ones
a worker. -/
def loops (k : ℕ) (a : LifecycleAction) : Prop :=
  if k % 2 = 0 then a.IsHeartbeatStep (k / 2) else a.IsWorkerStep (k / 2)

theorem caller_of_loops {k : ℕ} (h : loops k a) : caller a = none := by
  unfold loops at h
  split at h
  · obtain ⟨answer, now, rfl⟩ := h
    rfl
  · obtain ⟨now, rfl⟩ := h
    rfl

theorem looped_of_loops {k : ℕ} (hphases : Phases s) (h : loops k a)
    (hstep : lifecycleSystem.step s a = some s') : Looped s s' := by
  unfold loops at h
  split at h
  · obtain ⟨answer, now, rfl⟩ := h
    rw [hphases.heartbeat_step] at hstep
    exact looped_heartbeatStep hstep
  · obtain ⟨now, rfl⟩ := h
    rw [hphases.worker_step] at hstep
    exact looped_workerStep hstep

theorem started_recurs : ∃ E : lifecycleSystem.Execution,
    (∀ k, 8 ≤ k → (E.state k).running = true) ∧
      ∀ k, 8 ≤ k → ∃ m i answer now, k ≤ m ∧ (E.state m).heartbeats i = .sending ∧
        E.action m = some (.heartbeatStep i answer now) := by
  have hrun : (lifecycleSystem.runFrom lifecycleSystem.init started).map
      (fun s => ((s.callers (.app 0)).rank, s.running)) = some (0, true) := by decide +kernel
  obtain ⟨s, hs, hend⟩ := Option.map_eq_some_iff.mp hrun
  simp only [Prod.mk.injEq] at hend
  have hlast : (ofRunFairly hs loops).state 8 = s := ofRunFairly_state_length hs loops
  have hstarted : ∀ a ∈ started, ∀ u, caller a = some u → u = .app 0 := by decide
  have hone : ∀ n a, (ofRunFairly hs loops).action n = some a →
      ∀ u, caller a = some u → u = .app 0 := by
    intro n a haction u hu
    rcases ofRunFairly_action hs haction with hmem | ⟨-, k, hk⟩
    · exact hstarted a (List.mem_of_getElem? hmem) u hu
    · rw [caller_of_loops hk] at hu
      cases hu
  have hturns := via_of_oneCaller hone
  have hquiet : ∀ k, 8 ≤ k → ((ofRunFairly hs loops).state k).running = true ∧
      ∀ t, ((ofRunFairly hs loops).state k).callers t = .idle := by
    intro k hk
    refine stays (P := fun s : LifecycleState => s.running = true ∧ ∀ t, s.callers t = .idle) hk
      ?_ fun j a hj _ haction h => ?_
    · refine ⟨by rw [hlast]; exact hend.2, fun t => ?_⟩
      by_cases ht : t = .app 0
      · rw [ht, hlast]
        cases hpc : s.callers (.app 0) <;> simp_all [CallPc.rank]
      · exact (oneCaller_of_actions hone 8).others t ht
    · rcases ofRunFairly_action hs haction with hearly | ⟨-, k, hloop⟩
      · have hlength : started.length = 8 := rfl
        rw [List.getElem?_eq_none (by omega)] at hearly
        cases hearly
      · have hl := looped_of_loops (phases_of_via hturns j) hloop
          ((ofRunFairly hs loops).moved j a haction)
        rw [hl.running, hl.callers]
        exact h
  refine ⟨_, fun k hk => (hquiet k hk).1, heartbeats_recur hturns
    ⟨fun t n henabled => ?_, fun i => ?_⟩ 8 fun k hk => (hquiet k hk).1⟩
  · obtain ⟨_, ⟨answer, now, rfl⟩, hstep⟩ := henabled (max n 8) (le_max_left _ _)
    rw [(phases_of_via hturns _).call_step, LifecycleState.callStep,
      (hquiet _ (le_max_right _ _)).2 t] at hstep
    cases hstep
  · have hclass : loops (2 * i) = IsHeartbeatStep i := by
      funext a
      simp [loops]
    exact hclass ▸ (stronglyFair_ofRunFairly hs loops (2 * i)).weaklyFair

end Witnesses

end LifecycleState

end Throttling
