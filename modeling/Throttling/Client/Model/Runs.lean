import Throttling.Client.Model.Client
import Throttling.TokenBucket.Helpers.Refill
/-!
# Runs of one client

A run is a list of operations, each with the clock readings it takes, in
the order of the clock. What a run says of one resource: the allocation
last applied, the one its bucket was created with, the tokens its bucket
has at a moment, and the tokens granted so far.
-/

namespace Throttling

/-- What happens to a client, with the clock readings it takes. -/
inductive ClientOp where
  | updateTokenBuckets (now : ResourceId → TimePoint) (allocations : OrderedMap ResourceId ℚ)
  | acquire (req : PendingRequest) (now : TimePoint)
  | workerIteration (now : TimePoint)
  /-- The consumption alone, of a call or an iteration whose other sections
  other threads run between. -/
  | tryConsume (req : PendingRequest) (now : TimePoint)

namespace Client

def step (c : Client) : ClientOp → Client
  | .updateTokenBuckets now allocations => c.updateTokenBuckets now allocations
  | .acquire req now => c.acquire req now
  | .workerIteration now => c.workerIteration now
  | .tryConsume req now =>
    let (ok, c') := c.tryConsume req.resourceId req.count now
    if ok then { c' with executed := c'.executed ++ [req] } else c'

/-- The state a list of operations leads to. -/
def run (c : Client) (ops : List ClientOp) : Client := ops.foldl step c

/-- The tokens granted for a resource; a count that is not positive takes
none. -/
def granted (c : Client) (r : ResourceId) : ℚ :=
  ((c.executed.filter fun req => req.resourceId = r).map fun req => max 0 req.count).sum

/-- The tokens its bucket has at a moment, none where there is none. -/
def available (c : Client) (r : ResourceId) (now : TimePoint) : ℚ :=
  match c.tokenBuckets[r]? with
  | some bucket => (bucket.getAvailableTokens now).1
  | none => 0

end Client

/-! ## Clocks -/

/-- Every reading an operation takes lies between two moments. -/
def ClientOp.ReadsWithin (lo hi : TimePoint) : ClientOp → Prop
  | .updateTokenBuckets now _ => ∀ r, lo ≤ now r ∧ now r ≤ hi
  | .acquire _ now => lo ≤ now ∧ now ≤ hi
  | .workerIteration now => lo ≤ now ∧ now ≤ hi
  | .tryConsume _ now => lo ≤ now ∧ now ≤ hi

/-- The operations take their readings one after another, from one moment
to a later one. -/
def Clocked : TimePoint → List ClientOp → TimePoint → Prop
  | lo, [], hi => lo ≤ hi
  | lo, op :: ops, hi => ∃ mid, op.ReadsWithin lo mid ∧ Clocked mid ops hi

/-! ## Allocations -/

/-- No allocation applied is negative. -/
def ClientOp.Nonneg : ClientOp → Prop
  | .updateTokenBuckets _ allocations =>
    ∀ (r : ResourceId) (rate : ℚ), allocations[r]? = some rate → 0 ≤ rate
  | _ => True

/-- What is applied lists the resource at this allocation. -/
def ClientOp.Reapplies (r : ResourceId) (rate : ℚ) : ClientOp → Prop
  | .updateTokenBuckets _ allocations => allocations[r]? = some rate
  | _ => True

/-- What is applied lists the resource at this allocation or not at all. -/
def ClientOp.ReappliesOrDrops (r : ResourceId) (rate : ℚ) : ClientOp → Prop
  | .updateTokenBuckets _ allocations => allocations[r]? = some rate ∨ allocations[r]? = none
  | _ => True

/-- The allocation of a resource that is in force after an operation. -/
def ClientOp.applied (r : ResourceId) (allocation : Option ℚ) : ClientOp → Option ℚ
  | .updateTokenBuckets _ allocations => allocations[r]?
  | _ => allocation

/-- The allocation its bucket was created with. -/
def ClientOp.creating (r : ResourceId) (created : Option ℚ) : ClientOp → Option ℚ
  | .updateTokenBuckets _ allocations => (allocations[r]?).map fun rate => created.getD rate
  | _ => created

/-- **The allocation of a resource** after a history. -/
def allocation (ops : List ClientOp) (r : ResourceId) : Option ℚ :=
  ops.foldl (ClientOp.applied r) none

/-- **The allocation its bucket was created with**: the first applied since
it was last unlisted. -/
def createdWith (ops : List ClientOp) (r : ResourceId) : Option ℚ :=
  ops.foldl (ClientOp.creating r) none

end Throttling
