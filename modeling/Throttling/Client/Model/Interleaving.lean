import Throttling.Client.Model.Client
import Throttling.Common.System
import Mathlib.Logic.Function.Basic
/-!
# The client under threads

`Acquire` runs in any number of application threads, and in the worker's
own when a callback calls it; a callback that calls `Acquire` puts a frame
on top of the one it runs in. `WorkerLoop` runs in one thread, beside
`UpdateTokenBuckets` and `Stop`. The steps are the sections under
`mutex_`, those under `queue_mutex_`, and the code between them.

A bucket is looked up in one step and used in a later one, so an entry
carries an identity, and what a thread holds is that identity. Using a
bucket that is no longer registered reads freed memory: what comes of it
is the action's to say.
-/

namespace Throttling

/-- Who calls `Acquire`. -/
inductive Caller where
  | app (thread : ℕ)
  /-- The worker, from a callback. -/
  | worker
deriving DecidableEq

/-- A request, with which call of `Acquire` made it, and whose. -/
structure Acquisition extends PendingRequest where
  ticket : ℕ
  caller : Caller
deriving DecidableEq

/-- The identity of a bucket: the resource it was made for, and which
application of allocations made it. -/
structure BucketRef where
  resourceId : ResourceId
  generation : ℕ
deriving DecidableEq

/-- What an entry of `token_buckets_` owns. -/
structure OwnedBucket where
  generation : ℕ
  bucket : TokenBucket ℚ

/-- Where a call of `Acquire` is. -/
inductive AcquirePc where
  /-- About to look up the bucket. -/
  | lookup
  /-- About to consume from what it found, if anything. -/
  | consume (bucket : Option BucketRef)
  /-- The tokens were granted; about to run the callback. -/
  | execute
  /-- In the callback. -/
  | running
  /-- About to queue the request. -/
  | push
  /-- The request is queued, and `queue_mutex_` released; about to notify the
  worker and return. -/
  | notifying
deriving DecidableEq

structure AcquireFrame where
  request : Acquisition
  pc : AcquirePc
deriving DecidableEq

/-- Where the worker is. -/
inductive WorkerPc where
  /-- `worker_thread_` holds no thread. -/
  | noThread
  /-- At the loop's test. -/
  | loop
  /-- About to take the head of the queue. -/
  | waiting
  /-- About to look up the bucket. -/
  | holding (request : Acquisition)
  | consume (request : Acquisition) (bucket : Option BucketRef)
  /-- The tokens were granted; about to run the callback. -/
  | execute (request : Acquisition)
  /-- In the callback. -/
  | running
  /-- About to put the request back. -/
  | requeue (request : Acquisition)
  /-- Done, and not joined. -/
  | exited
deriving DecidableEq

/-- How far `Stop` is. -/
inductive StopPc where
  | idle
  /-- The flag is lowered; about to join the worker. -/
  | joining
  | clearingBuckets
  | clearingQueue
deriving DecidableEq

/-- **The client and its threads.** The fields from `updates` on record
what happened and steer nothing, but for the identities they number. -/
structure ClientThreads where
  tokenBuckets : OrderedMap ResourceId OwnedBucket
  pendingQueue : List Acquisition
  isRunning : Bool
  stop : StopPc
  frames : Caller → List AcquireFrame
  worker : WorkerPc
  /-- How often `UpdateTokenBuckets` ran. -/
  updates : ℕ
  /-- How often `Acquire` was called. -/
  tickets : ℕ
  /-- The requests pushed to the queue's back, in order. -/
  pushed : List Acquisition
  /-- The requests the worker executed, in order. -/
  workerExecuted : List Acquisition
  /-- The requests a `TryConsume` returned true for. -/
  granted : List Acquisition
  /-- The requests executed, by the worker or in the call itself. -/
  executed : List Acquisition
  /-- Whether a `Stop` has cleared the queue. -/
  queueCleared : Bool

/-- A step of one thread. -/
inductive ClientAction where
  | start
  | stop
  | updateTokenBuckets (now : ResourceId → TimePoint) (allocations : OrderedMap ResourceId ℚ)
  /-- A thread calls `Acquire`. -/
  | acquire (caller : Caller) (request : PendingRequest)
  /-- The next section of the call a thread is in. -/
  | acquireStep (caller : Caller) (now : TimePoint) (freed : Bool)
  /-- The worker's next section. -/
  | workerStep (now : TimePoint) (freed : Bool)

namespace ClientThreads

/-- The bucket registered for a resource. -/
def registered (s : ClientThreads) (resourceId : ResourceId) : Option BucketRef :=
  (s.tokenBuckets[resourceId]?).map fun owned => ⟨resourceId, owned.generation⟩

/-- `GetPendingCount`. -/
def getPendingCount (s : ClientThreads) : ℕ := s.pendingQueue.length

/-- `UpdateTokenBuckets`: the buckets it makes are new ones. -/
def updateTokenBuckets (s : ClientThreads) (now : ResourceId → TimePoint)
    (allocations : OrderedMap ResourceId ℚ) : ClientThreads :=
  let setRate := fun resourceId (owned : OwnedBucket) rate =>
    { owned with bucket := owned.bucket.setRate rate (now resourceId) }
  let create := fun resourceId rate =>
    { generation := s.updates, bucket := TokenBucket.new rate (-1) (now resourceId) }
  { s with
    tokenBuckets := updateBuckets setRate create allocations s.tokenBuckets
    updates := s.updates + 1 }

/-- `bucket->TryConsume(count)` on the bucket a thread holds. -/
def consumeFrom (tokenBuckets : OrderedMap ResourceId OwnedBucket) (ref : BucketRef) (count : ℚ)
    (now : TimePoint) (freed : Bool) : Bool × OrderedMap ResourceId OwnedBucket :=
  match tokenBuckets[ref.resourceId]? with
  | some owned =>
    if owned.generation = ref.generation then
      let (ok, bucket) := owned.bucket.tryConsume count now
      (ok, tokenBuckets.insert ref.resourceId { owned with bucket := bucket })
    else (freed, tokenBuckets)
  | none => (freed, tokenBuckets)

/-- `bucket != nullptr && bucket->TryConsume(count)`. -/
def tryConsume (s : ClientThreads) (request : Acquisition) (bucket : Option BucketRef)
    (now : TimePoint) (freed : Bool) : Bool × ClientThreads :=
  match bucket with
  | none => (false, s)
  | some ref =>
    let (ok, tokenBuckets) := consumeFrom s.tokenBuckets ref request.count now freed
    (ok, { s with
      tokenBuckets := tokenBuckets
      granted := if ok then s.granted ++ [request] else s.granted })

/-- A thread's calls of `Acquire`, the innermost first. -/
def setFrames (s : ClientThreads) (caller : Caller) (frames : List AcquireFrame) : ClientThreads :=
  { s with frames := Function.update s.frames caller frames }

/-- Whether a thread can call `Acquire`: an application thread when it is
in no call, any thread when it is in a callback. -/
def mayAcquire (s : ClientThreads) (caller : Caller) : Bool :=
  match s.frames caller with
  | frame :: _ => frame.pc = .running
  | [] => caller ≠ .worker ∨ s.worker = .running

/-- A call of `Acquire`. -/
def acquire (s : ClientThreads) (caller : Caller) (request : PendingRequest) :
    Option ClientThreads :=
  if s.mayAcquire caller then
    let frame := ⟨{ request with ticket := s.tickets, caller := caller }, .lookup⟩
    some ({ s with tickets := s.tickets + 1 }.setFrames caller (frame :: s.frames caller))
  else none

/-- The next section of the innermost call a thread is in. -/
def acquireStep (s : ClientThreads) (caller : Caller) (now : TimePoint) (freed : Bool) :
    Option ClientThreads :=
  match s.frames caller with
  | [] => none
  | ⟨request, .lookup⟩ :: outer =>
    some (s.setFrames caller (⟨request, .consume (s.registered request.resourceId)⟩ :: outer))
  | ⟨request, .consume bucket⟩ :: outer =>
    let (ok, s') := s.tryConsume request bucket now freed
    some (s'.setFrames caller (⟨request, if ok then .execute else .push⟩ :: outer))
  | ⟨request, .execute⟩ :: outer =>
    let s' := { s with executed := s.executed ++ [request] }
    if request.callback.isSome then some (s'.setFrames caller (⟨request, .running⟩ :: outer))
    else some (s'.setFrames caller outer)
  | ⟨_, .running⟩ :: outer => some (s.setFrames caller outer)
  | ⟨request, .push⟩ :: outer =>
    let s' := { s with
      pendingQueue := s.pendingQueue ++ [request], pushed := s.pushed ++ [request] }
    some (s'.setFrames caller (⟨request, .notifying⟩ :: outer))
  -- a worker that waits is woken by this or by nothing at all
  | ⟨_, .notifying⟩ :: outer => some (s.setFrames caller outer)

/-- The next section of `WorkerLoop`. -/
def workerStep (s : ClientThreads) (now : TimePoint) (freed : Bool) : Option ClientThreads :=
  match s.worker with
  | .noThread => none
  | .loop => some { s with worker := if s.isRunning then .waiting else .exited }
  | .waiting =>
    match s.pendingQueue with
    -- woken with nothing to take: by the flag, or by nothing at all
    | [] => some { s with worker := if s.isRunning then .loop else .exited }
    | request :: rest => some { s with pendingQueue := rest, worker := .holding request }
  | .holding request =>
    some { s with worker := .consume request (s.registered request.resourceId) }
  | .consume request bucket =>
    let (ok, s') := s.tryConsume request bucket now freed
    some { s' with worker := if ok then .execute request else .requeue request }
  | .execute request =>
    some { s with
      executed := s.executed ++ [request]
      workerExecuted := s.workerExecuted ++ [request]
      worker := if request.callback.isSome then .running else .loop }
  -- a callback that called `Acquire` is not done before that call is
  | .running => if s.frames .worker = [] then some { s with worker := .loop } else none
  | .requeue request =>
    some { s with pendingQueue := request :: s.pendingQueue, worker := .loop }
  | .exited => none

/-- The next section of `Stop`, which joins the worker before it clears
anything. -/
def stopStep (s : ClientThreads) : Option ClientThreads :=
  match s.stop with
  | .idle => if s.isRunning then some { s with isRunning := false, stop := .joining } else none
  | .joining =>
    if s.worker = .exited then some { s with worker := .noThread, stop := .clearingBuckets }
    else none
  | .clearingBuckets => some { s with tokenBuckets := ∅, stop := .clearingQueue }
  | .clearingQueue => some { s with pendingQueue := [], queueCleared := true, stop := .idle }

/-- What `Start` leaves once its registration is accepted. Over a worker
that was not joined it ends the program, so there it is no step. -/
def start (s : ClientThreads) : Option ClientThreads :=
  if s.isRunning = false ∧ s.worker = .noThread then
    some { s with isRunning := true, worker := .loop }
  else none

/-- One step of one thread. `UpdateTokenBuckets` is called by the thread in
`Start` and by the heartbeat's; nothing here depends on when. -/
def step (s : ClientThreads) : ClientAction → Option ClientThreads
  | .start => s.start
  | .stop => s.stopStep
  | .updateTokenBuckets now allocations => some (s.updateTokenBuckets now allocations)
  | .acquire caller request => s.acquire caller request
  | .acquireStep caller now freed => s.acquireStep caller now freed
  | .workerStep now freed => s.workerStep now freed

end ClientThreads

/-- The interleavings of a client that was just constructed. -/
def clientSystem : GuardedSystem ClientThreads ClientAction where
  init :=
    { tokenBuckets := ∅, pendingQueue := [], isRunning := false, stop := .idle,
      frames := fun _ => [], worker := .noThread, updates := 0, tickets := 0, pushed := [],
      workerExecuted := [], granted := [], executed := [], queueCleared := false }
  step := ClientThreads.step

end Throttling
