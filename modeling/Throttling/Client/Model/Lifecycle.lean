import Throttling.Client.Model.Client
import Throttling.Common.System
import Mathlib.Logic.Function.Basic
/-!
# The client's lifecycle under threads

`Start` and `Stop` run in any number of threads, beside the threads they
create, and in the callbacks a worker runs. A step is one load or store
of `running_`, one call of the stub with its answer, one creation or one
join of a thread, or one section under a mutex. Nothing here asks the
calls to take turns.

A thread object that is assigned over while it is joinable ends the
program, and the `join` of one that is not joinable throws; both are
recorded, and after the first there is no step. The `join` of a thread by
itself throws too: the call is over, and a callback that lets the
exception pass ends the program. A thread is named by how many were
created before it.
-/

namespace Throttling

/-- What the stub answers: a status, and to a heartbeat the allocations. -/
structure StubAnswer where
  ok : Bool
  allocations : OrderedMap ResourceId ℚ

/-- Who calls `Start` and `Stop`: a thread of the application, or a callback
on a worker's thread. The callbacks of an `Acquire` that is granted at
once run on the application's. -/
inductive LifecycleCaller where
  | app (thread : ℕ)
  | worker (thread : ℕ)
deriving DecidableEq

/-- Where a call of `Start` or `Stop` is. -/
inductive CallPc where
  | idle
  /-- `Start`, about to load `running_`. -/
  | startTesting
  | registering
  /-- The registration was accepted; about to store `true`. -/
  | raising
  | creatingHeartbeat
  | creatingWorker
  /-- About to send the initial heartbeat. -/
  | heartbeating
  /-- It was answered; about to apply the answer. -/
  | updating (allocations : OrderedMap ResourceId ℚ)
  /-- `Stop`, about to load `running_`. -/
  | stopTesting
  /-- About to store `false`. -/
  | lowering
  | checkingHeartbeat
  | joiningHeartbeat
  | checkingWorker
  | joiningWorker
  | unregistering
  | clearingBuckets
  | clearingQueue

/-- Where a thread that runs `HeartbeatLoop` is. -/
inductive HeartbeatPc where
  | notCreated
  /-- At the loop's test. -/
  | testing
  /-- In the wait; about to load `running_` again. -/
  | waiting
  | sending
  | updating (allocations : OrderedMap ResourceId ℚ)
  | exited

/-- Where a thread that runs `WorkerLoop` is. -/
inductive WorkerLoopPc where
  | notCreated
  /-- At the loop's test. -/
  | testing
  /-- In the wait; about to look at the queue. -/
  | waiting
  /-- About to consume for the request it took. -/
  | holding (request : PendingRequest)
  /-- In the callback of a request. -/
  | running
  | exited

/-- The RPCs whose order the server sees. -/
inductive LifecycleRpc where
  | registerClient (ok : Bool)
  | heartbeat (ok : Bool)
  | unregisterClient
deriving DecidableEq

/-- **The client, its calls and its threads.** -/
structure LifecycleState where
  /-- `token_buckets_` and `pending_queue_`. -/
  client : Client
  running : Bool
  /-- The thread `heartbeat_thread_` holds; none where it is not joinable. -/
  heartbeatThread : Option ℕ
  workerThread : Option ℕ
  callers : LifecycleCaller → CallPc
  heartbeats : ℕ → HeartbeatPc
  workers : ℕ → WorkerLoopPc
  /-- How many threads were created. -/
  created : ℕ
  /-- The RPCs answered, oldest first. -/
  rpcs : List LifecycleRpc
  /-- Whether a thread object was assigned over while it was joinable. -/
  assignedOver : Bool
  /-- Whether one was joined that was not joinable. -/
  joinedTwice : Bool

/-- A step of one thread; what it reads of the clock and the stub is the
step's own. -/
inductive LifecycleAction where
  | start (caller : LifecycleCaller)
  | stop (caller : LifecycleCaller)
  | callStep (caller : LifecycleCaller) (answer : StubAnswer) (now : ResourceId → TimePoint)
  | heartbeatStep (thread : ℕ) (answer : StubAnswer) (now : ResourceId → TimePoint)
  | workerStep (thread : ℕ) (now : TimePoint)
  /-- An application's `Acquire`. -/
  | acquire (request : PendingRequest) (now : TimePoint)

namespace LifecycleState

/-- A call goes to its next place. -/
def goto (s : LifecycleState) (caller : LifecycleCaller) (pc : CallPc) : LifecycleState :=
  { s with callers := Function.update s.callers caller pc }

/-- Whether a caller can make a call: a worker's thread only in a callback. -/
def canCall (s : LifecycleState) : LifecycleCaller → Bool
  | .app _ => true
  | .worker thread =>
    match s.workers thread with
    | .running => true
    | _ => false

/-- A call begins; a caller makes one at a time. -/
def enter (s : LifecycleState) (caller : LifecycleCaller) (pc : CallPc) : Option LifecycleState :=
  match s.callers caller with
  | .idle => if s.canCall caller then some (s.goto caller pc) else none
  | _ => none

/-- The next step of a call of `Start` or `Stop`. -/
def callStep (s : LifecycleState) (caller : LifecycleCaller) (answer : StubAnswer)
    (now : ResourceId → TimePoint) : Option LifecycleState :=
  match s.callers caller with
  | .idle => none
  | .startTesting => some (s.goto caller (if s.running then .idle else .registering))
  | .registering =>
    some ({ s with rpcs := s.rpcs ++ [LifecycleRpc.registerClient answer.ok] }.goto caller
      (if answer.ok then .raising else .idle))
  | .raising => some ({ s with running := true }.goto caller .creatingHeartbeat)
  | .creatingHeartbeat =>
    some ({ s with
      heartbeats := Function.update s.heartbeats s.created .testing
      heartbeatThread := some s.created
      created := s.created + 1
      assignedOver := s.assignedOver || s.heartbeatThread.isSome }.goto caller .creatingWorker)
  | .creatingWorker =>
    some ({ s with
      workers := Function.update s.workers s.created .testing
      workerThread := some s.created
      created := s.created + 1
      assignedOver := s.assignedOver || s.workerThread.isSome }.goto caller .heartbeating)
  | .heartbeating =>
    some ({ s with rpcs := s.rpcs ++ [LifecycleRpc.heartbeat answer.ok] }.goto caller
      (if answer.ok then .updating answer.allocations else .idle))
  | .updating allocations =>
    some ({ s with client := s.client.updateTokenBuckets now allocations }.goto caller .idle)
  | .stopTesting => some (s.goto caller (if s.running then .lowering else .idle))
  | .lowering => some ({ s with running := false }.goto caller .checkingHeartbeat)
  | .checkingHeartbeat =>
    some (s.goto caller (if s.heartbeatThread.isSome then .joiningHeartbeat else .checkingWorker))
  | .joiningHeartbeat =>
    match s.heartbeatThread with
    | none => some ({ s with joinedTwice := true }.goto caller .idle)
    | some thread =>
      match s.heartbeats thread with
      | .exited => some ({ s with heartbeatThread := none }.goto caller .checkingWorker)
      | _ => none
  | .checkingWorker =>
    some (s.goto caller (if s.workerThread.isSome then .joiningWorker else .unregistering))
  | .joiningWorker =>
    match s.workerThread with
    | none => some ({ s with joinedTwice := true }.goto caller .idle)
    | some thread =>
      -- of a thread by itself: the join throws, and the rest of `Stop` is not reached
      if caller = .worker thread then some (s.goto caller .idle)
      else
        match s.workers thread with
        | .exited => some ({ s with workerThread := none }.goto caller .unregistering)
        | _ => none
  | .unregistering =>
    some ({ s with rpcs := s.rpcs ++ [LifecycleRpc.unregisterClient] }.goto caller .clearingBuckets)
  | .clearingBuckets =>
    some ({ s with client := { s.client with tokenBuckets := ∅ } }.goto caller .clearingQueue)
  | .clearingQueue =>
    some ({ s with client := { s.client with pendingQueue := [] } }.goto caller .idle)

/-- The next step of a thread in `HeartbeatLoop`. -/
def heartbeatStep (s : LifecycleState) (thread : ℕ) (answer : StubAnswer)
    (now : ResourceId → TimePoint) : Option LifecycleState :=
  let goto (s : LifecycleState) (pc : HeartbeatPc) : LifecycleState :=
    { s with heartbeats := Function.update s.heartbeats thread pc }
  match s.heartbeats thread with
  | .notCreated => none
  | .testing => some (goto s (if s.running then .waiting else .exited))
  | .waiting => some (goto s (if s.running then .sending else .exited))
  | .sending =>
    some (goto { s with rpcs := s.rpcs ++ [LifecycleRpc.heartbeat answer.ok] }
      (if answer.ok then .updating answer.allocations else .testing))
  | .updating allocations =>
    some (goto { s with client := s.client.updateTokenBuckets now allocations } .testing)
  | .exited => none

/-- The next step of a thread in `WorkerLoop`. -/
def workerStep (s : LifecycleState) (thread : ℕ) (now : TimePoint) : Option LifecycleState :=
  let goto (s : LifecycleState) (pc : WorkerLoopPc) : LifecycleState :=
    { s with workers := Function.update s.workers thread pc }
  match s.workers thread with
  | .notCreated => none
  | .testing => some (goto s (if s.running then .waiting else .exited))
  | .waiting =>
    match s.client.pendingQueue with
    | [] => some (goto s (if s.running then .testing else .exited))
    | request :: rest =>
      some (goto { s with client := { s.client with pendingQueue := rest } } (.holding request))
  | .holding request =>
    let (ok, client) := s.client.tryConsume request.resourceId request.count now
    if ok then
      some (goto { s with client := { client with executed := client.executed ++ [request] } }
        (if request.callback.isSome then .running else .testing))
    else
      some (goto { s with client := { client with
        pendingQueue := request :: client.pendingQueue } } .testing)
  | .running =>
    -- the callback returns once no call it made is in progress
    match s.callers (.worker thread) with
    | .idle => some (goto s .testing)
    | _ => none
  | .exited => none

/-- One step; none after the program has ended. -/
def step (s : LifecycleState) (a : LifecycleAction) : Option LifecycleState :=
  if s.assignedOver then none
  else
    match a with
    | .start caller => s.enter caller .startTesting
    | .stop caller => s.enter caller .stopTesting
    | .callStep caller answer now => s.callStep caller answer now
    | .heartbeatStep thread answer now => s.heartbeatStep thread answer now
    | .workerStep thread now => s.workerStep thread now
    | .acquire request now => some { s with client := s.client.acquire request now }

end LifecycleState

/-- The runs of a client that was just constructed. -/
def lifecycleSystem : GuardedSystem LifecycleState LifecycleAction where
  init :=
    { client := .new, running := false, heartbeatThread := none, workerThread := none,
      callers := fun _ => .idle, heartbeats := fun _ => .notCreated,
      workers := fun _ => .notCreated, created := 0, rpcs := [], assignedOver := false,
      joinedTwice := false }
  step := LifecycleState.step

/-! ## What is to hold, and when it does -/

/-- Whether a thread is in the loop. -/
def HeartbeatPc.alive : HeartbeatPc → Bool
  | .notCreated => false
  | .exited => false
  | _ => true

def WorkerLoopPc.alive : WorkerLoopPc → Bool
  | .notCreated => false
  | .exited => false
  | _ => true

/-- Every registration accepted was followed by an unregistration. -/
def EveryRegistrationUndone (rpcs : List LifecycleRpc) : Prop :=
  ∀ before after, rpcs = before ++ .registerClient true :: after → .unregisterClient ∈ after

/-- **What a client's lifecycle promises** of a state. -/
structure LifecycleState.Sound (s : LifecycleState) : Prop where
  oneHeartbeat : ∀ i j, (s.heartbeats i).alive = true → (s.heartbeats j).alive = true → i = j
  oneWorker : ∀ i j, (s.workers i).alive = true → (s.workers j).alive = true → i = j
  notAssignedOver : s.assignedOver = false
  notJoinedTwice : s.joinedTwice = false
  /-- Stopped, with no call in progress: nothing is left over. -/
  stopped : s.running = false → (∀ t, s.callers t = .idle) →
    (∀ i, (s.heartbeats i).alive = false) ∧ (∀ i, (s.workers i).alive = false) ∧
      s.client.tokenBuckets = ∅ ∧ EveryRegistrationUndone s.rpcs

/-- A call that is not in another's way: before its store to `running_`, or
past its joins, or with nothing left to apply. -/
def CallPc.isSettled : CallPc → Bool
  | .idle => true
  | .startTesting => true
  | .registering => true
  | .raising => true
  | .stopTesting => true
  | .lowering => true
  | .updating allocations => allocations.isEmpty
  | .unregistering => true
  | .clearingBuckets => true
  | .clearingQueue => true
  | _ => false

/-- What a call's next step stores to `running_`, if it does. -/
def CallPc.stores : CallPc → Option Bool
  | .raising => some true
  | .lowering => some false
  | _ => none

/-- **Calls take turns**: one stores to `running_` only while the flag is
still as its test found it and every other call is settled, and none does
from a worker's callback. -/
def TakesTurns (s : LifecycleState) : LifecycleAction → Prop
  | .callStep caller _ _ => ∀ value, (s.callers caller).stores = some value →
    s.running = !value ∧ (∀ thread, caller ≠ .worker thread) ∧
      ∀ u, u ≠ caller → (s.callers u).isSettled = true
  | _ => True

end Throttling
