import Throttling.Client.Helpers.Runs
/-!
# Which requests starve

`UpdateTokenBuckets` changes the rate of a bucket there is and leaves its
burst, so a bucket never holds more than the allocation it was created
with, whatever it is allocated later. A worker that gives every bucket a
second between attempts empties the queue in order exactly if no request
asks for more than that (`emptiedInOrder_iff`); a request within its
resource's allocation that asks for more is never executed, and holds up
everything behind it (`raisedAllocation_starves`).
-/

namespace Throttling

namespace Client

/-- The state after the worker's first attempts, at given readings. -/
def attempts (c : Client) (attempt : ℕ → TimePoint) : ℕ → Client
  | 0 => c
  | i + 1 => (attempts c attempt i).workerIteration (attempt i)

/-- **The queue is emptied in order, one request at each attempt.** -/
def EmptiedInOrder (c : Client) (attempt : ℕ → TimePoint) : Prop :=
  ∀ i ≤ c.pendingQueue.length,
    (c.attempts attempt i).pendingQueue = c.pendingQueue.drop i ∧
      (c.attempts attempt i).executed = c.executed ++ c.pendingQueue.take i

variable {c : Client} {r : ResourceId} {t₀ u t : TimePoint} {attempt : ℕ → TimePoint}

/-! ## One attempt -/

/-- **A bucket that rested a second** grants a positive count within its
rate exactly if the count is within the allocation it was created with. -/
theorem tryConsume_iff_of_rested {created rate count : ℚ} (hset : c.Settled r u)
    (hrec : c.Records r (some created) (some rate)) (hrest : u + ticksPerSecond ≤ t)
    (hpos : 0 < count) (hle : count ≤ rate) :
    (c.tryConsume r count t).1 = true ↔ count ≤ created := by
  obtain ⟨b, hb, hburst⟩ := Option.map_eq_some_iff.mp hrec.1.symm
  have hrate : b.rate = rate := by
    have := hrec.2
    rw [hb] at this
    exact (Option.some.inj this).symm
  obtain ⟨hwf, hlast⟩ := hset b hb
  -- a second earns the rate, and the cap is what the bucket was created with
  have hheld : min rate created ≤ (b.refillLocked t).tokens := by
    rw [← hrate, ← hburst]
    exact TokenBucket.min_rate_burstSize_le_refillLocked hwf
      (le_trans (add_le_add_left hlast _) hrest)
  have hcap : (b.refillLocked t).tokens ≤ created := by
    simpa [hburst] using (TokenBucket.wf_refillLocked hwf t).tokens_le
  rw [tryConsume_fst, hb]
  dsimp only
  rw [TokenBucket.tryConsume_fst_iff hpos]
  exact ⟨fun h => h.trans hcap, fun h => (le_min hle h).trans hheld⟩

/-! ## The run of attempts -/

/-- An attempt is a worker iteration; it is made at its own reading. -/
theorem settled_attempts (hset : c.Settled r t₀) (hfirst : t₀ + ticksPerSecond ≤ attempt 0)
    (hapart : ∀ i, attempt i + ticksPerSecond ≤ attempt (i + 1)) (i : ℕ) :
    ∃ u, (c.attempts attempt i).Settled r u ∧ u + ticksPerSecond ≤ attempt i := by
  induction i with
  | zero => exact ⟨t₀, hset, hfirst⟩
  | succ i ih =>
    obtain ⟨u, hu, hrest⟩ := ih
    have hle : u ≤ attempt i := le_trans (le_add_of_nonneg_right (by decide)) hrest
    have hop : (ClientOp.workerIteration (attempt i)).ReadsWithin (attempt i) (attempt i) :=
      ⟨le_rfl, le_rfl⟩
    exact ⟨attempt i, (hu.mono hle).step hop, hapart i⟩

theorem records_attempts {created applied : Option ℚ} (hrec : c.Records r created applied)
    (i : ℕ) : (c.attempts attempt i).Records r created applied := by
  induction i with
  | zero => exact hrec
  | succ i ih =>
    have hop : (ClientOp.workerIteration (attempt i)).ReadsWithin (attempt i) (attempt i) :=
      ⟨le_rfl, le_rfl⟩
    exact ih.step hop trivial

/-- **Attempts succeed exactly up to the allocation at creation.** -/
theorem emptiedInOrder_iff_count_le (created : PendingRequest → ℚ) (hset : ∀ r, c.Settled r t₀)
    (hfirst : t₀ + ticksPerSecond ≤ attempt 0)
    (hapart : ∀ i, attempt i + ticksPerSecond ≤ attempt (i + 1))
    (hqueue : ∀ req ∈ c.pendingQueue, 0 < req.count ∧ ∃ rate, req.count ≤ rate ∧
      c.Records req.resourceId (some (created req)) (some rate)) :
    c.EmptiedInOrder attempt ↔ ∀ req ∈ c.pendingQueue, req.count ≤ created req := by
  have hattempt : ∀ i, ∀ req ∈ c.pendingQueue,
      ((c.attempts attempt i).tryConsume req.resourceId req.count (attempt i)).1 = true ↔
        req.count ≤ created req := by
    intro i req hreq
    obtain ⟨hpos, rate, hle, hrec⟩ := hqueue req hreq
    obtain ⟨u, hu, hrest⟩ := settled_attempts (hset req.resourceId) hfirst hapart i
    exact tryConsume_iff_of_rested hu (records_attempts hrec i) hrest hpos hle
  constructor
  · intro h req hreq
    obtain ⟨i, hi, rfl⟩ := List.mem_iff_getElem.mp hreq
    rw [← hattempt i _ hreq]
    have hhead : (c.attempts attempt i).pendingQueue =
        c.pendingQueue[i] :: c.pendingQueue.drop (i + 1) := by
      rw [(h i hi.le).1, List.drop_eq_getElem_cons hi]
    have hnext := (h (i + 1) hi).1
    rw [attempts, workerIteration_cons hhead] at hnext
    by_contra hrefused
    simp only [if_neg hrefused] at hnext
    exact List.cons_ne_self _ _ hnext
  · intro h i
    induction i with
    | zero => exact fun _ => ⟨by simp [attempts], by simp [attempts]⟩
    | succ i ih =>
      intro hi
      obtain ⟨hpending, hexecuted⟩ := ih (by omega)
      have hmem : c.pendingQueue[i] ∈ c.pendingQueue := List.getElem_mem _
      have hok := (hattempt i _ hmem).mpr (h _ hmem)
      rw [List.drop_eq_getElem_cons hi] at hpending
      rw [attempts, workerIteration_cons hpending, if_pos hok, if_pos hok, hexecuted,
        List.append_assoc, ← List.take_concat_get' _ _ hi]
      exact ⟨rfl, rfl⟩

/-! ## The result -/

/-- **Which requests starve.** After any history, with any queue of
requests within their resources' allocations, and attempts a second
apart: every attempt succeeds, in order, exactly if no request asks for
more than the allocation its bucket was created with. -/
theorem emptiedInOrder_iff {start : TimePoint} {ops : List ClientOp} (hops : Clocked start ops t₀)
    (hnonneg : ∀ op ∈ ops, op.Nonneg) (queue : List PendingRequest)
    (hqueue : ∀ req ∈ queue, 0 < req.count ∧ ∃ rate, req.count ≤ rate ∧
      allocation ops req.resourceId = some rate)
    (hfirst : t₀ + ticksPerSecond ≤ attempt 0)
    (hapart : ∀ i, attempt i + ticksPerSecond ≤ attempt (i + 1)) :
    { new.run ops with pendingQueue := queue }.EmptiedInOrder attempt ↔
      ∀ req ∈ queue, ∃ created, createdWith ops req.resourceId = some created ∧
        req.count ≤ created := by
  have hrec := fun r => records_run hops hnonneg r
  -- a resource that is allocated has a bucket, and so a creation on record
  have hcreated : ∀ req ∈ queue, ∃ created, createdWith ops req.resourceId = some created := by
    intro req hreq
    obtain ⟨-, rate, -, hrate⟩ := hqueue req hreq
    exact exists_createdWith hops hnonneg hrate
  have key := emptiedInOrder_iff_count_le (c := { new.run ops with pendingQueue := queue })
    (fun req => (createdWith ops req.resourceId).getD 0)
    (fun r => (settled_new r start).run hops) hfirst hapart (fun req hreq => ?_)
  · rw [key]
    refine forall₂_congr fun req hreq => ?_
    obtain ⟨created, h⟩ := hcreated req hreq
    simp [h]
  · obtain ⟨hpos, rate, hle, hrate⟩ := hqueue req hreq
    obtain ⟨created, h⟩ := hcreated req hreq
    refine ⟨hpos, rate, hle, ?_⟩
    have hreq := hrec req.resourceId
    rw [hrate, h] at hreq
    rw [h]
    exact hreq

/-- Resource `1` is allocated `first`, and then ten. -/
def raisedHistory (first : ℚ) : List ClientOp :=
  [.updateTokenBuckets (fun _ => 0) ((∅ : OrderedMap ResourceId ℚ).insert 1 first),
   .updateTokenBuckets (fun _ => 0) ((∅ : OrderedMap ResourceId ℚ).insert 1 10)]

theorem raisedHistory_clocked (first : ℚ) : Clocked 0 (raisedHistory first) 0 :=
  ⟨0, fun _ => ⟨le_rfl, le_rfl⟩, 0, fun _ => ⟨le_rfl, le_rfl⟩, le_rfl⟩

theorem raisedHistory_nonneg {first : ℚ} (h : 0 ≤ first) :
    ∀ op ∈ raisedHistory first, op.Nonneg := by
  intro op hop
  rcases List.mem_pair.mp hop with rfl | rfl
  · exact ClientOp.nonneg_single h
  · exact ClientOp.nonneg_single (by norm_num)

/-- An attempt at every full second. -/
def everySecond (i : ℕ) : TimePoint := (i + 1) * ticksPerSecond

theorem everySecond_apart (i : ℕ) : everySecond i + ticksPerSecond ≤ everySecond (i + 1) := by
  simp only [everySecond]
  push_cast
  linarith

/-- Two requests within four, on a bucket created with four. -/
theorem raisedFromFour_emptied :
    EmptiedInOrder { new.run (raisedHistory 4) with
      pendingQueue := [⟨1, 3, some 7⟩, ⟨1, 4, some 8⟩] } everySecond := by
  have hqueue : ∀ req ∈ [(⟨1, 3, some 7⟩ : PendingRequest), ⟨1, 4, some 8⟩], req.resourceId = 1 ∧
      0 < req.count ∧ req.count ≤ 4 := by decide +kernel
  refine (emptiedInOrder_iff (raisedHistory_clocked 4) (raisedHistory_nonneg (by norm_num)) _
    (fun req hreq => ?_) (by decide) everySecond_apart).mpr fun req hreq => ?_
  · obtain ⟨hr, hpos, hle⟩ := hqueue req hreq
    exact ⟨hpos, 10, by linarith, by rw [hr]; decide +kernel⟩
  · obtain ⟨hr, -, hle⟩ := hqueue req hreq
    exact ⟨4, by rw [hr]; decide +kernel, hle⟩

/-- **A request starves.** Resource `1` is allocated zero before it is
configured, and then ten: its bucket never holds anything, and a request
for one token is refused. -/
theorem raisedAllocation_starves :
    ¬ ∀ (start t₀ : TimePoint) (ops : List ClientOp) (queue : List PendingRequest)
      (attempt : ℕ → TimePoint), Clocked start ops t₀ → (∀ op ∈ ops, op.Nonneg) →
      (∀ req ∈ queue, 0 < req.count ∧ ∃ rate, req.count ≤ rate ∧
        allocation ops req.resourceId = some rate) →
      t₀ + ticksPerSecond ≤ attempt 0 → (∀ i, attempt i + ticksPerSecond ≤ attempt (i + 1)) →
      { new.run ops with pendingQueue := queue }.EmptiedInOrder attempt := by
  intro hall
  have h := hall 0 0 (raisedHistory 0) [⟨1, 1, some 7⟩] everySecond (raisedHistory_clocked 0)
    (raisedHistory_nonneg le_rfl)
    (fun req hreq => by
      rw [List.mem_singleton.mp hreq]
      exact ⟨by norm_num, 10, by norm_num, by decide +kernel⟩)
    (by decide) everySecond_apart 1 le_rfl
  exact absurd h.1 (by decide +kernel)

end Client

end Throttling
