import Throttling.Client.Handles
import Throttling.Client.Helpers.Runs
/-!
# The threads, as runs of whole operations

What the threads of a client do to its buckets, and to what is granted,
they do in applications of allocations and in consumptions, one after
another. So as long as no bucket is erased that a thread holds, the
buckets and the grants of an interleaving are those of a run of `Client`
(`Refines.run`), and what is true of the tokens of every such run is true
under threads (`grantedFor_le_of_keepingRun`).
-/

namespace Throttling

namespace ClientThreads

/-- What the next section of a thread does to the buckets, at a moment. -/
def opsOf (s : ClientThreads) (moment : TimePoint) : ClientAction → List ClientOp
  | .updateTokenBuckets now allocations => [.updateTokenBuckets now allocations]
  | .acquireStep t now _ =>
    match s.frames t with
    | ⟨request, .consume (some _)⟩ :: _ => [.tryConsume request.toPendingRequest now]
    | _ => []
  | .workerStep now _ =>
    match s.worker with
    | .consume request (some _) => [.tryConsume request.toPendingRequest now]
    | _ => []
  -- `Stop` clears the buckets as an application that lists nothing does,
  -- and takes no reading, so any will do
  | .stop => if s.stop = .clearingBuckets then [.updateTokenBuckets (fun _ => moment) ∅] else []
  | _ => []

/-- The threads' state and the client's have the same buckets, but for
their identities, and the same grants. -/
structure Refines (s : ClientThreads) (c : Client) : Prop where
  buckets : ∀ r : ResourceId, c.tokenBuckets[r]? = (s.tokenBuckets[r]?).map OwnedBucket.bucket
  granted : c.executed = s.granted.map Acquisition.toPendingRequest

variable {s s' : ClientThreads} {c : Client} {a : ClientAction} {moment : TimePoint}

theorem Refines.congr (h : Refines s c) (hbuckets : s'.tokenBuckets = s.tokenBuckets)
    (hgranted : s'.granted = s.granted) : Refines s' c :=
  ⟨by rw [hbuckets]; exact h.buckets, by rw [hgranted]; exact h.granted⟩

/-- Applying allocations, to the buckets of the one and of the other. -/
theorem Refines.updateTokenBuckets (h : Refines s c) (now : ResourceId → TimePoint)
    (allocations : OrderedMap ResourceId ℚ) :
    Refines (s.updateTokenBuckets now allocations) (c.updateTokenBuckets now allocations) where
  buckets r := by
    rw [Client.lookup_updateTokenBuckets, h.buckets r, ClientThreads.updateTokenBuckets,
      lookup_updateBuckets, Option.map_map]
    cases s.tokenBuckets[r]? <;> rfl
  granted := h.granted

/-- **Consuming from the bucket registered** is the client's consumption. -/
theorem Refines.tryConsume (h : Refines s c) {request : Acquisition} {ref : BucketRef}
    (hreg : s.registered request.resourceId = some ref) (now : TimePoint) (freed : Bool) :
    Refines (s.tryConsume request (some ref) now freed).2
      (c.step (.tryConsume request.toPendingRequest now)) := by
  obtain ⟨owned, howned, rfl⟩ := Option.map_eq_some_iff.mp hreg
  have hbucket : c.tokenBuckets[request.resourceId]? = some owned.bucket := by
    rw [h.buckets, howned]
    rfl
  have hinsert : ∀ (b : TokenBucket ℚ) (r : ResourceId),
      (c.tokenBuckets.insert request.resourceId b)[r]? =
        ((s.tokenBuckets.insert request.resourceId { owned with bucket := b })[r]?).map
          OwnedBucket.bucket := by
    intro b r
    rw [OrderedMap.lookup_insert, OrderedMap.lookup_insert]
    split
    · rfl
    · exact h.buckets r
  simp only [ClientThreads.tryConsume, consumeFrom, howned, if_true, Client.step, Client.tryConsume,
    hbucket]
  split
  · exact ⟨hinsert _, by simp [h.granted]⟩
  · exact ⟨hinsert _, h.granted⟩

/-- A section of a call of `Acquire`: its `TryConsume` is one of the
client's, and the others touch no bucket. -/
theorem Refines.acquireStep (h : Refines s c) (hheld : HeldRegistered s) {t : Caller}
    {now : TimePoint} {freed : Bool} (hstep : s.acquireStep t now freed = some s') :
    Refines s' (c.run (s.opsOf moment (.acquireStep t now freed))) := by
  unfold ClientThreads.acquireStep at hstep
  split at hstep
  · cases hstep
  · rename_i request outer hframes
    obtain rfl := Option.some.inj hstep
    simp only [opsOf, hframes]
    exact h.congr rfl rfl
  · rename_i request bucket outer hframes
    obtain rfl := Option.some.inj hstep
    simp only [opsOf, hframes]
    cases bucket with
    | none => exact h.congr rfl rfl
    | some ref =>
      have hreg := hheld request ref (.inl ⟨t, by rw [hframes]; exact List.mem_cons_self⟩)
      exact (h.tryConsume hreg now freed).congr rfl rfl
  · rename_i request outer hframes
    simp only [opsOf, hframes]
    split at hstep <;> obtain rfl := Option.some.inj hstep <;> exact h.congr rfl rfl
  · rename_i request outer hframes
    obtain rfl := Option.some.inj hstep
    simp only [opsOf, hframes]
    exact h.congr rfl rfl
  · rename_i request outer hframes
    obtain rfl := Option.some.inj hstep
    simp only [opsOf, hframes]
    exact h.congr rfl rfl
  · rename_i request outer hframes
    obtain rfl := Option.some.inj hstep
    simp only [opsOf, hframes]
    exact h.congr rfl rfl

/-- So with the worker's. -/
theorem Refines.workerStep (h : Refines s c) (hheld : HeldRegistered s) {now : TimePoint}
    {freed : Bool} (hstep : s.workerStep now freed = some s') :
    Refines s' (c.run (s.opsOf moment (.workerStep now freed))) := by
  unfold ClientThreads.workerStep at hstep
  split at hstep
  · cases hstep
  · rename_i hworker
    obtain rfl := Option.some.inj hstep
    simp only [opsOf, hworker]
    exact h.congr rfl rfl
  · rename_i hworker
    simp only [opsOf, hworker]
    split at hstep <;> obtain rfl := Option.some.inj hstep <;> exact h.congr rfl rfl
  · rename_i request hworker
    obtain rfl := Option.some.inj hstep
    simp only [opsOf, hworker]
    exact h.congr rfl rfl
  · rename_i request bucket hworker
    obtain rfl := Option.some.inj hstep
    simp only [opsOf, hworker]
    cases bucket with
    | none => exact h.congr rfl rfl
    | some ref => exact (h.tryConsume (hheld request ref (.inr hworker)) now freed).congr rfl rfl
  · rename_i request hworker
    obtain rfl := Option.some.inj hstep
    simp only [opsOf, hworker]
    exact h.congr rfl rfl
  · rename_i hworker
    simp only [opsOf, hworker]
    split at hstep
    · obtain rfl := Option.some.inj hstep
      exact h.congr rfl rfl
    · cases hstep
  · rename_i request hworker
    obtain rfl := Option.some.inj hstep
    simp only [opsOf, hworker]
    exact h.congr rfl rfl
  · cases hstep

/-- And with those of `Stop`, of which one clears the buckets. -/
theorem Refines.stopStep (h : Refines s c) (hstep : s.stopStep = some s') :
    Refines s' (c.run (s.opsOf moment .stop)) := by
  unfold ClientThreads.stopStep at hstep
  split at hstep
  · rename_i hstop
    simp only [opsOf, hstop]
    split at hstep
    · obtain rfl := Option.some.inj hstep
      exact h.congr rfl rfl
    · cases hstep
  · rename_i hstop
    simp only [opsOf, hstop]
    split at hstep
    · obtain rfl := Option.some.inj hstep
      exact h.congr rfl rfl
    · cases hstep
  · rename_i hstop
    obtain rfl := Option.some.inj hstep
    simp only [opsOf, hstop, if_true]
    refine ⟨fun r => ?_, h.granted⟩
    change (c.updateTokenBuckets (fun _ => moment) ∅).tokenBuckets[r]? = _
    rw [Client.lookup_updateTokenBuckets]
    simp
  · rename_i hstop
    obtain rfl := Option.some.inj hstep
    simp only [opsOf, hstop]
    exact h.congr rfl rfl

/-- **One section**, of any thread. -/
theorem Refines.step (h : Refines s c) (hheld : HeldRegistered s) (hstep : s.step a = some s') :
    Refines s' (c.run (s.opsOf moment a)) := by
  cases a with
  | start =>
    simp only [ClientThreads.step, ClientThreads.start] at hstep
    split at hstep
    · obtain rfl := Option.some.inj hstep
      exact h.congr rfl rfl
    · cases hstep
  | stop => exact h.stopStep hstep
  | updateTokenBuckets now allocations =>
    obtain rfl := Option.some.inj hstep
    exact h.updateTokenBuckets now allocations
  | acquire t request =>
    simp only [ClientThreads.step, ClientThreads.acquire] at hstep
    split at hstep
    · obtain rfl := Option.some.inj hstep
      exact h.congr rfl rfl
    · cases hstep
  | acquireStep t now freed => exact h.acquireStep hheld hstep
  | workerStep now freed => exact h.workerStep hheld hstep

/-! ## Runs -/

/-- **A run of the threads that erases no bucket held**, from a state on,
with what its sections do to the buckets. -/
inductive KeepingRun (s₀ : ClientThreads) : List ClientOp → ClientThreads → Prop
  | refl : KeepingRun s₀ [] s₀
  | step {ops : List ClientOp} {s s' : ClientThreads} {a : ClientAction} (moment : TimePoint) :
      KeepingRun s₀ ops s → s.KeepsHeld a → s.step a = some s' →
      KeepingRun s₀ (ops ++ s.opsOf moment a) s'

variable {s₀ : ClientThreads} {ops : List ClientOp} {r : ResourceId} {t₀ t₁ : TimePoint}

theorem KeepingRun.heldRegistered (h : KeepingRun s₀ ops s) (hheld : HeldRegistered s₀) :
    HeldRegistered s := by
  induction h with
  | refl => exact hheld
  | step moment _ hkeeps hstep ih => exact heldRegistered_step ih hkeeps hstep

/-- **Its buckets and its grants** are those of the client that runs the
operations. -/
theorem Refines.run (h : Refines s₀ c) (hheld : HeldRegistered s₀) (hrun : KeepingRun s₀ ops s) :
    Refines s (c.run ops) := by
  induction hrun with
  | refl => exact h
  | step moment hbefore hkeeps hstep ih =>
    rw [Client.run_append]
    exact ih.step (hbefore.heldRegistered hheld) hstep

theorem refines_init : Refines clientSystem.init Client.new :=
  ⟨fun r => by simp [clientSystem, Client.new], rfl⟩

theorem heldRegistered_init : HeldRegistered clientSystem.init :=
  heldRegistered_of_keepsHeld .init

/-- Every state reached so ends such a run. -/
theorem exists_keepingRun (h : clientSystem.ReachableVia KeepsHeld s) :
    ∃ ops, KeepingRun clientSystem.init ops s := by
  induction h with
  | init => exact ⟨[], .refl⟩
  | step _ hkeeps hstep ih =>
    obtain ⟨ops, hrun⟩ := ih
    exact ⟨_, hrun.step 0 hkeeps hstep⟩

/-- The tokens granted for a resource. -/
def grantedFor (s : ClientThreads) (r : ResourceId) : ℚ :=
  ((s.granted.filter fun request => request.resourceId = r).map fun request =>
    max 0 request.count).sum

theorem Refines.grantedFor (h : Refines s c) (r : ResourceId) : s.grantedFor r = c.granted r := by
  rw [ClientThreads.grantedFor, Client.granted, h.granted, List.filter_map, List.map_map]
  rfl

/-- **The rate bound under threads.** Whatever the threads interleave in a
window in which the allocation of a resource stays, they are granted at
most what its bucket was created with and what it earns. -/
theorem grantedFor_le_of_keepingRun {start : TimePoint} {before window : List ClientOp}
    (hbefore : KeepingRun clientSystem.init before s) (hwindow : KeepingRun s window s')
    (hclock : Clocked start before t₀) (hclock' : Clocked t₀ window t₁)
    (hnonneg : ∀ op ∈ before, op.Nonneg) {created rate : ℚ}
    (hcreated : createdWith before r = some created) (hrate : allocation before r = some rate)
    (hsame : ∀ op ∈ window, op.Reapplies r rate) :
    s'.grantedFor r - s.grantedFor r ≤ created + elapsedSeconds ℚ t₀ t₁ * rate := by
  have hstart := refines_init.run heldRegistered_init hbefore
  have hend := hstart.run (hbefore.heldRegistered heldRegistered_init) hwindow
  have hsteady := Client.steady_run hclock hnonneg hcreated hrate
  have hheld := hsteady.available_le t₀
  obtain ⟨hlater, hpaid⟩ := hsteady.run hclock' hsame
  have hleft := hlater.available_nonneg t₁
  rw [hend.grantedFor, hstart.grantedFor]
  linarith

end ClientThreads

end Throttling
