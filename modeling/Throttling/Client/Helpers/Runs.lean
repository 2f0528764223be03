import Throttling.Client.Model.Runs
import Throttling.Client.Helpers.Buckets
/-!
# What an operation does to one bucket

`Client.step_cases` says it once: an operation leaves a resource's bucket
alone, consumes from it at one reading, or applies allocations. With the
bucket's own lemmas, read at a moment no earlier than its last refill,
that gives what the tokens and the grants of a resource can do in a step.
-/

namespace Throttling

/-! ## A bucket at a moment -/

namespace TokenBucket

variable {b : TokenBucket ℚ} {t u : TimePoint}

theorem getAvailableTokens_fst (b : TokenBucket ℚ) (t : TimePoint) :
    (b.getAvailableTokens t).1 = (b.refillLocked t).tokens := rfl

/-- **What is available later** is at most what is now and what is earned
meanwhile, also of a bucket that was refilled last at a later reading. -/
theorem refillLocked_tokens_le_add (hb : b.Wf) (hle : t ≤ u) :
    (b.refillLocked u).tokens ≤ (b.refillLocked t).tokens + elapsedSeconds ℚ t u * b.rate := by
  rcases le_total b.lastRefillTime t with hlast | hlast
  · have h := refillLocked_tokens_le (wf_refillLocked hb t) u
    rw [refillLocked_refillLocked hb hlast hle] at h
    simpa [forwardSeconds_of_le hle] using h
  · -- the clock went back to `t`, which left the tokens alone
    have hback := elapsedSeconds_add b.lastRefillTime t b.lastRefillTime
    have hahead := elapsedSeconds_nonneg.mpr hlast
    have hnow : (b.refillLocked t).tokens = b.tokens := by
      have hearned : forwardSeconds b.lastRefillTime t = 0 := by
        rw [elapsedSeconds_self] at hback
        exact max_eq_left (by linarith)
      rw [refillLocked_tokens hb, hearned, zero_mul, add_zero, min_eq_left hb.tokens_le]
    have hearned : forwardSeconds b.lastRefillTime u ≤ elapsedSeconds ℚ t u :=
      max_le (elapsedSeconds_nonneg.mpr hle) (elapsedSeconds_le_elapsedSeconds hlast le_rfl)
    have h := refillLocked_tokens_le hb u
    rw [hnow]
    linarith [mul_le_mul_of_nonneg_right hearned hb.rate_nonneg]

/-- A refill at the moment of the last one does nothing. -/
theorem refillLocked_tokens_of_eq (hb : b.Wf) (h : b.lastRefillTime = t) :
    (b.refillLocked t).tokens = b.tokens := by
  rw [refillLocked_tokens hb, h, forwardSeconds_self, zero_mul, add_zero, min_eq_left hb.tokens_le]

theorem tryConsume_lastRefillTime_le {count : ℚ} (h : b.lastRefillTime ≤ t) :
    (b.tryConsume count t).2.lastRefillTime ≤ t := by
  rcases le_or_gt count 0 with hc | hc
  · rw [tryConsume_of_nonpos hc]
    exact h
  · rw [tryConsume_of_pos hc]
    split <;> simp

/-- **What a consumption takes** is gone from what is available: the count
if it is granted and positive. -/
theorem tryConsume_available (hb : b.Wf) (count : ℚ) (t : TimePoint) :
    ((b.tryConsume count t).2.refillLocked t).tokens +
        (if (b.tryConsume count t).1 then max 0 count else 0) =
      (b.refillLocked t).tokens := by
  rcases le_or_gt count 0 with hc | hc
  · rw [tryConsume_of_nonpos hc]
    simp [max_eq_left hc]
  · have hwf := wf_tryConsume hb count t
    rw [tryConsume_of_pos hc] at hwf ⊢
    by_cases hle : count ≤ (b.refillLocked t).tokens
    · rw [if_pos hle] at hwf ⊢
      rw [refillLocked_tokens_of_eq hwf (refillLocked_lastRefillTime b t), if_pos rfl,
        max_eq_right hc.le]
      exact sub_add_cancel _ _
    · rw [if_neg hle]
      simp [refillLocked_tokens_of_eq (wf_refillLocked hb t) (refillLocked_lastRefillTime b t)]

/-- A change of rate leaves what is available. -/
theorem setRate_available (hb : b.Wf) (newRate : ℚ) (t : TimePoint) :
    ((b.setRate newRate t).refillLocked t).tokens = (b.refillLocked t).tokens :=
  refillLocked_tokens_of_eq (wf_setRate hb newRate t) (setRate_lastRefillTime b newRate t)

/-- An attempt in between: what is left later, with what it granted, is at
most what was there and what was earned. -/
theorem tryConsume_tokens_add_le (hb : b.Wf) (count : ℚ) {lo hi : TimePoint} (hlo : lo ≤ t)
    (hhi : t ≤ hi) :
    ((b.tryConsume count t).2.refillLocked hi).tokens +
        (if (b.tryConsume count t).1 then max 0 count else 0) ≤
      (b.refillLocked lo).tokens + elapsedSeconds ℚ lo hi * b.rate := by
  have hlater := refillLocked_tokens_le_add (wf_tryConsume hb count t) hhi
  have hpaid := tryConsume_available hb count t
  have hearlier := refillLocked_tokens_le_add hb hlo
  rw [tryConsume_rate] at hlater
  rw [← elapsedSeconds_add lo t hi, add_mul]
  linarith

/-- So is what is left where the rate was set to what it is. -/
theorem setRate_tokens_le (hb : b.Wf) {lo hi : TimePoint} (hlo : lo ≤ t) (hhi : t ≤ hi) :
    ((b.setRate b.rate t).refillLocked hi).tokens ≤
      (b.refillLocked lo).tokens + elapsedSeconds ℚ lo hi * b.rate := by
  have hlater := refillLocked_tokens_le_add (wf_setRate hb b.rate t) hhi
  have hsame := setRate_available hb b.rate t
  have hearlier := refillLocked_tokens_le_add hb hlo
  rw [setRate_rate, max_eq_right hb.rate_nonneg] at hlater
  rw [← elapsedSeconds_add lo t hi, add_mul]
  linarith

end TokenBucket

/-! ## One operation -/

namespace Client

variable {c : Client} {r : ResourceId}

/-- What the consumption of `Acquire` and `WorkerLoop` does: to the bucket
of its resource, if there is one, and to no other. -/
theorem lookup_tryConsume (c : Client) (resourceId : ResourceId) (count : ℚ) (now : TimePoint)
    (r : ResourceId) :
    (c.tryConsume resourceId count now).2.tokenBuckets[r]? =
      if resourceId = r then (c.tokenBuckets[r]?).map fun b => (b.tryConsume count now).2
      else c.tokenBuckets[r]? := by
  rw [tryConsume]
  cases hb : c.tokenBuckets[resourceId]? with
  | none =>
    by_cases hr : resourceId = r
    · subst hr
      simp [hb]
    · simp [hr]
  | some b =>
    dsimp only
    rw [OrderedMap.lookup_insert]
    by_cases hr : resourceId = r
    · subst hr
      simp [hb]
    · simp [hr]

theorem tryConsume_fst (c : Client) (resourceId : ResourceId) (count : ℚ) (now : TimePoint) :
    (c.tryConsume resourceId count now).1 =
      match c.tokenBuckets[resourceId]? with
      | some b => (b.tryConsume count now).1
      | none => false := by
  rw [tryConsume]
  cases c.tokenBuckets[resourceId]? <;> rfl

@[simp] theorem tryConsume_executed (c : Client) (resourceId : ResourceId) (count : ℚ)
    (now : TimePoint) : (c.tryConsume resourceId count now).2.executed = c.executed := by
  rw [tryConsume]
  cases c.tokenBuckets[resourceId]? <;> rfl

/-- What `UpdateTokenBuckets` leaves of a resource. -/
theorem lookup_updateTokenBuckets (c : Client) (now : ResourceId → TimePoint)
    (allocations : OrderedMap ResourceId ℚ) (r : ResourceId) :
    (c.updateTokenBuckets now allocations).tokenBuckets[r]? =
      (allocations[r]?).map fun rate =>
        match c.tokenBuckets[r]? with
        | some b => b.setRate rate (now r)
        | none => TokenBucket.new rate (-1) (now r) := by
  simp only [updateTokenBuckets, lookup_updateBuckets]
  cases c.tokenBuckets[r]? <;> rfl

theorem granted_congr {c' : Client} (h : c'.executed = c.executed) (r : ResourceId) :
    c'.granted r = c.granted r := by
  rw [granted, granted, h]

/-- A grant counts for its own resource. -/
theorem granted_append {c' : Client} {req : PendingRequest}
    (h : c'.executed = c.executed ++ [req]) (r : ResourceId) :
    c'.granted r = c.granted r + if req.resourceId = r then max 0 req.count else 0 := by
  rw [granted, granted, h, List.filter_append]
  by_cases hr : req.resourceId = r <;> simp [hr]

/-- **What an operation does to a resource**: to its bucket, and to the
tokens granted for it. -/
inductive Effect (c c' : Client) (r : ResourceId) (lo hi : TimePoint) : ClientOp → Prop
  | applied (now : ResourceId → TimePoint) (allocations : OrderedMap ResourceId ℚ)
      (hlo : lo ≤ now r) (hhi : now r ≤ hi)
      (hbucket : c'.tokenBuckets[r]? = (allocations[r]?).map fun rate =>
        match c.tokenBuckets[r]? with
        | some b => b.setRate rate (now r)
        | none => TokenBucket.new rate (-1) (now r))
      (hgranted : c'.granted r = c.granted r) :
      Effect c c' r lo hi (.updateTokenBuckets now allocations)
  | untouched {op : ClientOp} (hop : ∀ now allocations, op ≠ .updateTokenBuckets now allocations)
      (hbucket : c'.tokenBuckets[r]? = c.tokenBuckets[r]?)
      (hgranted : c'.granted r = c.granted r) : Effect c c' r lo hi op
  | attempted {op : ClientOp} (hop : ∀ now allocations, op ≠ .updateTokenBuckets now allocations)
      (b : TokenBucket ℚ) (count : ℚ) (now : TimePoint) (hlo : lo ≤ now) (hhi : now ≤ hi)
      (hfound : c.tokenBuckets[r]? = some b)
      (hbucket : c'.tokenBuckets[r]? = some (b.tryConsume count now).2)
      (hgranted : c'.granted r =
        c.granted r + if (b.tryConsume count now).1 then max 0 count else 0) :
      Effect c c' r lo hi op

/-- An attempt at a request, from `Acquire` or from the worker. -/
theorem effect_of_attempt {c' : Client} {op : ClientOp} {lo hi now : TimePoint}
    (hop : ∀ now allocations, op ≠ .updateTokenBuckets now allocations)
    (hlo : lo ≤ now) (hhi : now ≤ hi) (req : PendingRequest)
    (hbuckets : c'.tokenBuckets = (c.tryConsume req.resourceId req.count now).2.tokenBuckets)
    (hexecuted : c'.executed = if (c.tryConsume req.resourceId req.count now).1 then
      c.executed ++ [req] else c.executed) (r : ResourceId) : Effect c c' r lo hi op := by
  have hlookup := lookup_tryConsume c req.resourceId req.count now r
  rw [← hbuckets] at hlookup
  have hgranted : c'.granted r = c.granted r +
      if (c.tryConsume req.resourceId req.count now).1 = true ∧ req.resourceId = r then
        max 0 req.count else 0 := by
    split at hexecuted
    · rename_i hok
      simp [granted_append hexecuted, hok]
    · rename_i hok
      simp [granted_congr hexecuted, hok]
  by_cases hr : req.resourceId = r
  · subst hr
    rw [if_pos rfl] at hlookup
    rw [tryConsume_fst] at hgranted
    cases hb : c.tokenBuckets[req.resourceId]? with
    | none =>
      rw [hb] at hlookup hgranted
      exact .untouched hop (by rw [hlookup, hb]; rfl) (by simpa using hgranted)
    | some b =>
      rw [hb] at hlookup hgranted
      exact .attempted hop b req.count now hlo hhi hb hlookup (by simpa using hgranted)
  · rw [if_neg hr] at hlookup
    exact .untouched hop hlookup (by simpa [hr] using hgranted)

/-- What an iteration of the worker leaves, where something is pending. -/
theorem workerIteration_cons {req : PendingRequest} {rest : List PendingRequest}
    (h : c.pendingQueue = req :: rest) (now : TimePoint) :
    c.workerIteration now =
      { tokenBuckets := (c.tryConsume req.resourceId req.count now).2.tokenBuckets
        pendingQueue := if (c.tryConsume req.resourceId req.count now).1 then rest else req :: rest
        executed := if (c.tryConsume req.resourceId req.count now).1 then c.executed ++ [req]
          else c.executed } := by
  -- the consumption does not look at the queue the head was taken from
  have htaken : { c with pendingQueue := rest }.tryConsume req.resourceId req.count now =
      ((c.tryConsume req.resourceId req.count now).1,
        { (c.tryConsume req.resourceId req.count now).2 with pendingQueue := rest }) := by
    cases hb : c.tokenBuckets[req.resourceId]? <;> simp [tryConsume, hb]
  rw [workerIteration, h]
  simp only [htaken, tryConsume_executed]
  split <;> rfl

theorem effect_step {op : ClientOp} {lo hi : TimePoint} (h : op.ReadsWithin lo hi)
    (c : Client) (r : ResourceId) : Effect c (c.step op) r lo hi op := by
  cases op with
  | updateTokenBuckets now allocations =>
    exact .applied now allocations (h r).1 (h r).2 (lookup_updateTokenBuckets c now allocations r)
      rfl
  | acquire req now =>
    refine effect_of_attempt (by simp) h.1 h.2 req ?_ ?_ r
    · rw [step, acquire]
      dsimp only
      split <;> rfl
    · rw [step, acquire]
      dsimp only
      split <;> simp
  | workerIteration now =>
    cases hqueue : c.pendingQueue with
    | nil =>
      have hsame : c.step (.workerIteration now) = c := by rw [step, workerIteration, hqueue]
      exact .untouched (by simp) (by rw [hsame]) (by rw [hsame])
    | cons req rest =>
      exact effect_of_attempt (by simp) h.1 h.2 req (by rw [step, workerIteration_cons hqueue])
        (by rw [step, workerIteration_cons hqueue]) r
  | tryConsume req now =>
    refine effect_of_attempt (by simp) h.1 h.2 req ?_ ?_ r
    · rw [step]
      dsimp only
      split <;> rfl
    · rw [step]
      dsimp only
      split <;> simp

end Client

/-! ## Runs -/

theorem ClientOp.ReadsWithin.le {op : ClientOp} {lo hi : TimePoint} (h : op.ReadsWithin lo hi) :
    lo ≤ hi := by
  cases op with
  | updateTokenBuckets now allocations => exact (h 0).1.trans (h 0).2
  | acquire req now => exact h.1.trans h.2
  | workerIteration now => exact h.1.trans h.2
  | tryConsume req now => exact h.1.trans h.2

/-- One resource, listed at an allocation that is not negative. -/
theorem ClientOp.nonneg_single {now : ResourceId → TimePoint} {r : ResourceId} {rate : ℚ}
    (h : 0 ≤ rate) :
    (ClientOp.updateTokenBuckets now ((∅ : OrderedMap ResourceId ℚ).insert r rate)).Nonneg := by
  intro a rate' hrate
  rw [OrderedMap.lookup_insert] at hrate
  split at hrate
  · obtain rfl := Option.some.inj hrate
    exact h
  · simp at hrate

theorem Clocked.le {lo hi : TimePoint} {ops : List ClientOp} (h : Clocked lo ops hi) :
    lo ≤ hi := by
  induction ops generalizing lo with
  | nil => exact h
  | cons op ops ih =>
    obtain ⟨mid, hop, hops⟩ := h
    exact hop.le.trans (ih hops)

namespace Client

variable {c : Client} {r : ResourceId} {lo hi : TimePoint}

theorem run_cons (c : Client) (op : ClientOp) (ops : List ClientOp) :
    c.run (op :: ops) = (c.step op).run ops := rfl

theorem run_append (c : Client) (before window : List ClientOp) :
    c.run (before ++ window) = (c.run before).run window := List.foldl_append

/-- The bucket of a resource, if there is one, is well formed and was last
refilled by a moment. -/
def Settled (c : Client) (r : ResourceId) (now : TimePoint) : Prop :=
  ∀ b : TokenBucket ℚ, c.tokenBuckets[r]? = some b → b.Wf ∧ b.lastRefillTime ≤ now

theorem settled_new (r : ResourceId) (now : TimePoint) : new.Settled r now := by
  intro b hb
  simp [new] at hb

theorem Settled.mono (h : c.Settled r lo) (hle : lo ≤ hi) : c.Settled r hi :=
  fun b hb => ⟨(h b hb).1, (h b hb).2.trans hle⟩

theorem Settled.step (h : c.Settled r lo) {op : ClientOp} (hop : op.ReadsWithin lo hi) :
    (c.step op).Settled r hi := by
  cases effect_step hop c r with
  | applied now allocations hlo hhi hbucket hgranted =>
    intro b hb
    rw [hbucket] at hb
    obtain ⟨rate, -, rfl⟩ := Option.map_eq_some_iff.mp hb
    cases hold : c.tokenBuckets[r]? with
    | none => exact ⟨TokenBucket.wf_new _ _ _, hhi⟩
    | some b => exact ⟨TokenBucket.wf_setRate (h b hold).1 _ _, by simpa using hhi⟩
  | untouched hop' hbucket hgranted =>
    intro b hb
    exact h.mono hop.le b (hbucket ▸ hb)
  | attempted hop' b count now hlo hhi hfound hbucket hgranted =>
    intro b' hb'
    obtain rfl := Option.some.inj (hbucket.symm.trans hb')
    obtain ⟨hwf, hlast⟩ := h b hfound
    exact ⟨TokenBucket.wf_tryConsume hwf _ _,
      (TokenBucket.tryConsume_lastRefillTime_le (hlast.trans hlo)).trans hhi⟩

/-- **Every run leaves its buckets settled.** -/
theorem Settled.run {ops : List ClientOp} (h : c.Settled r lo) (hops : Clocked lo ops hi) :
    (c.run ops).Settled r hi := by
  induction ops generalizing c lo with
  | nil => exact h.mono hops
  | cons op ops ih =>
    obtain ⟨mid, hop, hops⟩ := hops
    exact ih (h.step hop) hops

/-- The record of a history is the bucket's own: its cap is the allocation
it was created with, its rate the one last applied. -/
def Records (c : Client) (r : ResourceId) (created applied : Option ℚ) : Prop :=
  created = (c.tokenBuckets[r]?).map TokenBucket.burstSize ∧
    applied = (c.tokenBuckets[r]?).map TokenBucket.rate

theorem Records.step {created applied : Option ℚ} (h : c.Records r created applied)
    {op : ClientOp} (hop : op.ReadsWithin lo hi) (hnonneg : op.Nonneg) :
    (c.step op).Records r (op.creating r created) (op.applied r applied) := by
  obtain ⟨rfl, rfl⟩ := h
  cases effect_step hop c r with
  | applied now allocations hlo hhi hbucket hgranted =>
    rw [Records, hbucket, ClientOp.creating, ClientOp.applied]
    cases hrate : allocations[r]? with
    | none => exact ⟨rfl, rfl⟩
    | some rate =>
      have hpos := hnonneg r rate hrate
      cases hold : c.tokenBuckets[r]? with
      | none => simp [TokenBucket.new_burstSize, max_eq_right hpos]
      | some b => simp [max_eq_right hpos]
  | untouched hop' hbucket hgranted =>
    rw [Records, hbucket]
    cases op with
    | updateTokenBuckets now allocations => exact absurd rfl (hop' now allocations)
    | _ => exact ⟨rfl, rfl⟩
  | attempted hop' b count now hlo hhi hfound hbucket hgranted =>
    rw [Records, hbucket, hfound]
    cases op with
    | updateTokenBuckets now allocations => exact absurd rfl (hop' now allocations)
    | _ => simp [ClientOp.creating, ClientOp.applied]

/-- **What a history says of a bucket**, it has. -/
theorem records_run {ops : List ClientOp} (hops : Clocked lo ops hi)
    (hnonneg : ∀ op ∈ ops, op.Nonneg) (r : ResourceId) :
    (new.run ops).Records r (createdWith ops r) (allocation ops r) := by
  -- from any state whose record is right
  have key : ∀ (ops : List ClientOp) (c : Client) (lo : TimePoint) (created applied : Option ℚ),
      Clocked lo ops hi → (∀ op ∈ ops, op.Nonneg) → c.Records r created applied →
      (c.run ops).Records r (ops.foldl (ClientOp.creating r) created)
        (ops.foldl (ClientOp.applied r) applied) := by
    intro ops
    induction ops with
    | nil => intro c lo created applied _ _ h; exact h
    | cons op ops ih =>
      rintro c lo created applied ⟨mid, hop, hops⟩ hnonneg h
      exact ih _ mid _ _ hops (fun op' hop' => hnonneg op' (List.mem_cons_of_mem _ hop'))
        (h.step hop (hnonneg op List.mem_cons_self))
  exact key ops new lo none none hops hnonneg (by simp [Records, new])

/-- What has an allocation was created with one. -/
theorem exists_createdWith {ops : List ClientOp} (hops : Clocked lo ops hi)
    (hnonneg : ∀ op ∈ ops, op.Nonneg) {rate : ℚ} (hrate : allocation ops r = some rate) :
    ∃ created, createdWith ops r = some created := by
  obtain ⟨hburst, hlast⟩ := records_run hops hnonneg r
  rw [hrate] at hlast
  obtain ⟨b, hb, -⟩ := Option.map_eq_some_iff.mp hlast.symm
  exact ⟨b.burstSize, by rw [hburst, hb]; rfl⟩

/-- Grants are never taken back. -/
theorem granted_le_run {ops : List ClientOp} (hops : Clocked lo ops hi) (c : Client)
    (r : ResourceId) : c.granted r ≤ (c.run ops).granted r := by
  induction ops generalizing c lo with
  | nil => exact le_rfl
  | cons op ops ih =>
    obtain ⟨mid, hop, hops⟩ := hops
    refine le_trans ?_ (ih hops (c.step op))
    cases effect_step hop c r with
    | applied now allocations hlo hhi hbucket hgranted => exact hgranted.ge
    | untouched hop' hbucket hgranted => exact hgranted.ge
    | attempted hop' b count now hlo hhi hfound hbucket hgranted =>
      rw [hgranted]
      split
      · exact le_add_of_nonneg_right (le_max_left _ _)
      · exact (add_zero _).ge

/-! ## While an allocation stays -/

/-- **The resource has a bucket at this rate and cap.** -/
def Steady (c : Client) (r : ResourceId) (rate burst : ℚ) (now : TimePoint) : Prop :=
  ∃ b : TokenBucket ℚ, c.tokenBuckets[r]? = some b ∧ b.Wf ∧ b.lastRefillTime ≤ now ∧
    b.rate = rate ∧ b.burstSize = burst

theorem steady_run {ops : List ClientOp} (hops : Clocked lo ops hi)
    (hnonneg : ∀ op ∈ ops, op.Nonneg) {created rate : ℚ}
    (hcreated : createdWith ops r = some created) (hrate : allocation ops r = some rate) :
    (new.run ops).Steady r rate created hi := by
  obtain ⟨hburst, hlast⟩ := records_run hops hnonneg r
  rw [hcreated] at hburst
  rw [hrate] at hlast
  obtain ⟨b, hb, hcap⟩ := Option.map_eq_some_iff.mp hburst.symm
  rw [hb] at hlast
  obtain ⟨hwf, hrefill⟩ := (settled_new r lo).run hops b hb
  exact ⟨b, hb, hwf, hrefill, (Option.some.inj hlast).symm, hcap⟩

theorem Steady.available {rate burst : ℚ} (h : c.Steady r rate burst lo) (now : TimePoint) :
    ∃ b : TokenBucket ℚ, c.tokenBuckets[r]? = some b ∧ b.Wf ∧ b.lastRefillTime ≤ lo ∧
      b.rate = rate ∧ b.burstSize = burst ∧ c.available r now = (b.refillLocked now).tokens := by
  obtain ⟨b, hb, hwf, hlast, hrate, hburst⟩ := h
  exact ⟨b, hb, hwf, hlast, hrate, hburst, by rw [Client.available, hb]; rfl⟩

/-- There is never more available than the cap. -/
theorem Steady.available_le {rate burst : ℚ} (h : c.Steady r rate burst lo) (now : TimePoint) :
    c.available r now ≤ burst := by
  obtain ⟨b, -, hwf, -, -, hburst, havail⟩ := h.available now
  rw [havail, ← hburst]
  simpa using (TokenBucket.wf_refillLocked hwf now).tokens_le

theorem Steady.available_nonneg {rate burst : ℚ} (h : c.Steady r rate burst lo)
    (now : TimePoint) : 0 ≤ c.available r now := by
  obtain ⟨b, -, hwf, -, -, -, havail⟩ := h.available now
  rw [havail]
  exact (TokenBucket.wf_refillLocked hwf now).tokens_nonneg

/-- Nothing but time passes. -/
theorem Steady.wait {rate burst : ℚ} (h : c.Steady r rate burst lo) (hle : lo ≤ hi) :
    c.Steady r rate burst hi ∧
      c.available r hi ≤ c.available r lo + elapsedSeconds ℚ lo hi * rate := by
  obtain ⟨b, hb, hwf, hlast, hrate, hburst⟩ := h
  refine ⟨⟨b, hb, hwf, hlast.trans hle, hrate, hburst⟩, ?_⟩
  simp only [Client.available, hb, ← hrate]
  exact TokenBucket.refillLocked_tokens_le_add hwf hle

/-- **One operation of a client whose allocation stays.** What is left and
what was granted is at most what there was and what was earned. -/
theorem Steady.step {rate burst : ℚ} (h : c.Steady r rate burst lo) {op : ClientOp}
    (hop : op.ReadsWithin lo hi) (happlies : op.Reapplies r rate) :
    (c.step op).Steady r rate burst hi ∧
      (c.step op).available r hi + (c.step op).granted r ≤
        c.available r lo + elapsedSeconds ℚ lo hi * rate + c.granted r := by
  obtain ⟨b, hb, hwf, hlast, rfl, rfl⟩ := h
  cases effect_step hop c r with
  | applied now allocations hlo hhi hbucket hgranted =>
    rw [show allocations[r]? = some b.rate from happlies, hb] at hbucket
    dsimp only [Option.map_some] at hbucket
    refine ⟨⟨_, hbucket, TokenBucket.wf_setRate hwf _ _, by simpa using hhi,
      by simp [max_eq_right hwf.rate_nonneg], by simp⟩, ?_⟩
    simp only [Client.available, hbucket, hb, hgranted]
    exact add_le_add_left (TokenBucket.setRate_tokens_le hwf hlo hhi) _
  | untouched hop' hbucket hgranted =>
    rw [hb] at hbucket
    refine ⟨⟨b, hbucket, hwf, hlast.trans hop.le, rfl, rfl⟩, ?_⟩
    simp only [Client.available, hbucket, hb, hgranted]
    exact add_le_add_left (TokenBucket.refillLocked_tokens_le_add hwf hop.le) _
  | attempted hop' b' count now hlo hhi hfound hbucket hgranted =>
    obtain rfl := Option.some.inj (hb.symm.trans hfound)
    refine ⟨⟨_, hbucket, TokenBucket.wf_tryConsume hwf _ _,
      (TokenBucket.tryConsume_lastRefillTime_le (hlast.trans hlo)).trans hhi, by simp, by simp⟩, ?_⟩
    have hpaid := TokenBucket.tryConsume_tokens_add_le hwf count hlo hhi
    simp only [Client.available, hbucket, hb, hgranted, TokenBucket.getAvailableTokens_fst]
    linarith

/-- **A whole run of it.** -/
theorem Steady.run {rate burst : ℚ} (h : c.Steady r rate burst lo) {ops : List ClientOp}
    (hops : Clocked lo ops hi) (happlies : ∀ op ∈ ops, op.Reapplies r rate) :
    (c.run ops).Steady r rate burst hi ∧
      (c.run ops).available r hi + (c.run ops).granted r ≤
        c.available r lo + elapsedSeconds ℚ lo hi * rate + c.granted r := by
  induction ops generalizing c lo with
  | nil =>
    obtain ⟨hsteady, havail⟩ := h.wait hops
    exact ⟨hsteady, add_le_add_left havail _⟩
  | cons op ops ih =>
    obtain ⟨mid, hop, hops⟩ := hops
    obtain ⟨hstep, hpaid⟩ := h.step hop (happlies op List.mem_cons_self)
    obtain ⟨hrun, hrest⟩ := ih hstep hops fun op' hop' => happlies op' (List.mem_cons_of_mem _ hop')
    refine ⟨hrun, ?_⟩
    rw [run_cons, ← elapsedSeconds_add lo mid hi, add_mul]
    linarith

end Client

end Throttling
