import Throttling.Common.OrderedMap
import Throttling.TokenBucket.Model.Bucket
import Throttling.Registry.Model.Registry
/-!
# The client

`ThrottlingClient` as `throttling_client.cc` computes it, one whole call
after another: what `UpdateTokenBuckets`, `Acquire` and an iteration of
`WorkerLoop` do to the buckets and the queue. The threads that make the
calls are in `Client/Model/Interleaving.lean`. A callback is opaque, so
only which one it is matters, and an empty `std::function` is none.
-/

namespace Throttling

/-- The code a `std::function` stands for. -/
abbrev Callback : Type := ℕ

/-- `PendingRequest`. -/
structure PendingRequest where
  resourceId : ResourceId
  count : ℚ
  callback : Option Callback
deriving DecidableEq

/-- The loops of `UpdateTokenBuckets`, over what an entry of the map owns:
change the rate of the buckets there are, make the missing ones, erase
those not listed. -/
def updateBuckets {β : Type} (setRate : ResourceId → β → ℚ → β) (create : ResourceId → ℚ → β)
    (allocations : OrderedMap ResourceId ℚ) (tokenBuckets : OrderedMap ResourceId β) :
    OrderedMap ResourceId β :=
  -- the first loop, over what is listed
  let updated := allocations.foldl
    (fun buckets resourceId rate => buckets.alter resourceId fun it =>
      match it with
      | some bucket => some (setRate resourceId bucket rate)
      | none => some (create resourceId rate))
    tokenBuckets
  -- the second, over the map that leaves
  updated.keys.foldl
    (fun buckets resourceId =>
      if resourceId ∈ allocations then buckets else buckets.erase resourceId)
    updated

/-- **The client's state**: its buckets, its queue, and the requests whose
tokens were granted, in that order. -/
structure Client where
  tokenBuckets : OrderedMap ResourceId (TokenBucket ℚ)
  pendingQueue : List PendingRequest
  executed : List PendingRequest

namespace Client

/-- The constructor: no buckets, nothing pending. -/
def new : Client := { tokenBuckets := ∅, pendingQueue := [], executed := [] }

/-- `UpdateTokenBuckets`. Every bucket touched reads the clock for itself.
A bucket is made with the default burst, its rate. -/
def updateTokenBuckets (c : Client) (now : ResourceId → TimePoint)
    (allocations : OrderedMap ResourceId ℚ) : Client :=
  let setRate := fun resourceId (bucket : TokenBucket ℚ) rate =>
    bucket.setRate rate (now resourceId)
  let create := fun resourceId rate => TokenBucket.new rate (-1) (now resourceId)
  { c with tokenBuckets := updateBuckets setRate create allocations c.tokenBuckets }

/-- `GetAllocation`: the rate of the bucket, or none of it. -/
def getAllocation (c : Client) (resourceId : ResourceId) : ℚ :=
  match c.tokenBuckets[resourceId]? with
  | none => 0
  | some bucket => bucket.getRate

/-- The lookup and the `TryConsume` of `Acquire` and `WorkerLoop`: whether
the count was taken. No bucket is as good as too few tokens. -/
def tryConsume (c : Client) (resourceId : ResourceId) (count : ℚ) (now : TimePoint) :
    Bool × Client :=
  match c.tokenBuckets[resourceId]? with
  | none => (false, c)
  | some bucket =>
    let (ok, bucket') := bucket.tryConsume count now
    (ok, { c with tokenBuckets := c.tokenBuckets.insert resourceId bucket' })

/-- `Acquire`: take the tokens and run the callback, or queue. -/
def acquire (c : Client) (req : PendingRequest) (now : TimePoint) : Client :=
  let (ok, c') := c.tryConsume req.resourceId req.count now
  if ok then { c' with executed := c'.executed ++ [req] }
  else { c' with pendingQueue := c'.pendingQueue ++ [req] }

/-- One iteration of `WorkerLoop`: take the head, and put it back at the
front where its tokens are refused. -/
def workerIteration (c : Client) (now : TimePoint) : Client :=
  match c.pendingQueue with
  | [] => c
  | req :: rest =>
    let (ok, c') := { c with pendingQueue := rest }.tryConsume req.resourceId req.count now
    if ok then { c' with executed := c'.executed ++ [req] }
    else { c' with pendingQueue := req :: c'.pendingQueue }

end Client

end Throttling
