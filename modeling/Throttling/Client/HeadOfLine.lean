import Throttling.Client.Starvation
/-!
# What a refused head holds up

One queue serves all resources, and a head that is refused goes back to
its front, so that the order is kept. At one reading no bucket gains
anything, so the worker executes the queue up to the first request its
bucket cannot pay for, or that has no bucket, and stays there. Whether a
request for one resource is executed is then a question about every
request ahead of it (`executed_iff_affordsInTurn`).
-/

namespace Throttling

namespace Client

/-- What requests take from a resource; a count that is not positive takes
nothing. -/
def demand (r : ResourceId) (reqs : List PendingRequest) : ℚ :=
  ((reqs.filter fun req => req.resourceId = r).map fun req => max 0 req.count).sum

/-- **A request can be paid for after others**: its bucket exists, and what
they leave of it covers the count. -/
def Affords (c : Client) (t : TimePoint) (before : List PendingRequest) (req : PendingRequest) :
    Prop :=
  (c.tokenBuckets[req.resourceId]?).isSome = true ∧
    (0 < req.count → demand req.resourceId before + req.count ≤ c.available req.resourceId t)

/-- Each request of a queue can be paid for after those before it. -/
def AffordsInTurn (c : Client) (t : TimePoint) (queue : List PendingRequest) : Prop :=
  ∀ before req after, queue = before ++ req :: after → c.Affords t before req

variable {c c' : Client} {t : TimePoint} {r : ResourceId} {req : PendingRequest}
variable {queue before done : List PendingRequest}

theorem affordsInTurn_nil : c.AffordsInTurn t [] := fun before req after h => by simp at h

theorem AffordsInTurn.append (h : c.AffordsInTurn t queue) (hreq : c.Affords t queue req) :
    c.AffordsInTurn t (queue ++ [req]) := by
  intro before q after heq
  rcases List.append_eq_append_iff.mp heq with ⟨l, rfl, hl⟩ | ⟨l, rfl, hl⟩
  · obtain ⟨rfl, hq⟩ : l = [] ∧ q = req := by
      cases l with
      | nil => exact ⟨rfl, by simpa using (List.cons.inj hl).1.symm⟩
      | cons x l => simp at hl
    rw [List.append_nil, hq]
    exact hreq
  · cases l with
    | nil =>
      obtain ⟨rfl, -⟩ := List.cons.inj hl
      simpa using hreq
    | cons x l =>
      obtain ⟨rfl, -⟩ := List.cons.inj hl
      exact h before q l rfl

theorem AffordsInTurn.of_prefix (h : c.AffordsInTurn t queue) (hp : before <+: queue) :
    c.AffordsInTurn t before := by
  obtain ⟨rest, rfl⟩ := hp
  intro first q after heq
  exact h first q (after ++ rest) (by rw [heq, List.append_assoc]; rfl)

/-! ## One iteration -/

/-- **What executing requests leaves**, at the reading they were executed
at: the buckets, with their counts taken out. -/
structure Served (c c' : Client) (t : TimePoint) (done : List PendingRequest) : Prop where
  executed : c'.executed = c.executed ++ done
  wf : ∀ (r : ResourceId) (b : TokenBucket ℚ), c'.tokenBuckets[r]? = some b → b.Wf
  buckets : ∀ r : ResourceId, (c'.tokenBuckets[r]?).isSome = (c.tokenBuckets[r]?).isSome
  available : ∀ r : ResourceId, (c.tokenBuckets[r]?).isSome = true →
    c'.available r t + demand r done = c.available r t

theorem served_nil (hwf : ∀ (r : ResourceId) (b : TokenBucket ℚ),
    c.tokenBuckets[r]? = some b → b.Wf) : Served c c t [] where
  executed := (List.append_nil _).symm
  wf := hwf
  buckets _ := rfl
  available r _ := by simp [demand]

theorem demand_append (r : ResourceId) (done : List PendingRequest) (req : PendingRequest) :
    demand r (done ++ [req]) = demand r done + if req.resourceId = r then max 0 req.count else 0 := by
  rw [demand, demand, List.filter_append]
  by_cases hr : req.resourceId = r <;> simp [hr]

/-- What is available is a matter of the buckets. -/
theorem available_congr (h : c'.tokenBuckets = c.tokenBuckets) (r : ResourceId) (t : TimePoint) :
    c'.available r t = c.available r t := by
  rw [available, available, h]

/-- What an attempt at a request takes from its bucket's tokens. -/
theorem available_tryConsume (hwf : ∀ (r : ResourceId) (b : TokenBucket ℚ),
      c.tokenBuckets[r]? = some b → b.Wf) (req : PendingRequest) (t : TimePoint)
    (hr : (c.tokenBuckets[r]?).isSome = true) :
    (c.tryConsume req.resourceId req.count t).2.available r t +
        (if (c.tryConsume req.resourceId req.count t).1 = true ∧ req.resourceId = r then
          max 0 req.count else 0) = c.available r t := by
  obtain ⟨b, hb⟩ := Option.isSome_iff_exists.mp hr
  rw [available, available, lookup_tryConsume, hb]
  by_cases hreq : req.resourceId = r
  · subst hreq
    have htaken := TokenBucket.tryConsume_available (hwf _ b hb) req.count t
    simpa [tryConsume_fst, hb, TokenBucket.getAvailableTokens_fst] using htaken
  · simp [hreq]

theorem wf_tryConsume (hwf : ∀ (r : ResourceId) (b : TokenBucket ℚ),
      c.tokenBuckets[r]? = some b → b.Wf) (req : PendingRequest) (t : TimePoint) :
    ∀ (r : ResourceId) (b : TokenBucket ℚ),
      (c.tryConsume req.resourceId req.count t).2.tokenBuckets[r]? = some b → b.Wf := by
  intro r b hb
  rw [lookup_tryConsume] at hb
  split at hb
  · obtain ⟨b', hb', rfl⟩ := Option.map_eq_some_iff.mp hb
    exact TokenBucket.wf_tryConsume (hwf r b' hb') _ _
  · exact hwf r b hb

theorem isSome_tryConsume (c : Client) (req : PendingRequest) (t : TimePoint) (r : ResourceId) :
    ((c.tryConsume req.resourceId req.count t).2.tokenBuckets[r]?).isSome =
      (c.tokenBuckets[r]?).isSome := by
  rw [lookup_tryConsume]
  split
  · rw [Option.isSome_map]
  · rfl

/-- **The head is executed exactly if it can be paid for** after those
executed before it. -/
theorem Served.tryConsume_iff (h : Served c c' t done) (req : PendingRequest) :
    (c'.tryConsume req.resourceId req.count t).1 = true ↔ c.Affords t done req := by
  have hsome := h.buckets req.resourceId
  rw [tryConsume_fst, Affords]
  cases hb : c'.tokenBuckets[req.resourceId]? with
  | none =>
    rw [hb] at hsome
    simp [← hsome]
  | some b =>
    rw [hb] at hsome
    have hthere : (c.tokenBuckets[req.resourceId]?).isSome = true := hsome.symm
    have hheld : c'.available req.resourceId t = (b.refillLocked t).tokens := by
      rw [Client.available, hb]
      exact TokenBucket.getAvailableTokens_fst b t
    have hleft := h.available req.resourceId hthere
    rw [hheld] at hleft
    rcases le_or_gt req.count 0 with hc | hc
    · simp [TokenBucket.tryConsume_of_nonpos hc, hthere, not_lt.mpr hc]
    · dsimp only
      rw [TokenBucket.tryConsume_fst_iff hc]
      constructor
      · intro hle
        exact ⟨hthere, fun _ => by linarith⟩
      · rintro ⟨-, hle⟩
        have := hle hc
        linarith

/-- **One iteration**: the head, if it can be paid for, is executed; if
not, everything is as it was, but for the moment of its bucket's refill. -/
theorem Served.workerIteration (h : Served c c' t done) {rest : List PendingRequest}
    (hqueue : c'.pendingQueue = req :: rest) :
    (c.Affords t done req → Served c (c'.workerIteration t) t (done ++ [req]) ∧
        (c'.workerIteration t).pendingQueue = rest) ∧
      (¬ c.Affords t done req → Served c (c'.workerIteration t) t done ∧
        (c'.workerIteration t).pendingQueue = req :: rest) := by
  have hok := h.tryConsume_iff req
  have hwf := wf_tryConsume h.wf req t
  have hsome := fun r => (isSome_tryConsume c' req t r).trans (h.buckets r)
  have hleft := fun r hr => available_tryConsume (r := r) h.wf req t hr
  have hheld : ∀ r, (c'.workerIteration t).available r t =
      (c'.tryConsume req.resourceId req.count t).2.available r t :=
    fun r => available_congr (by rw [workerIteration_cons hqueue]) r t
  rw [workerIteration_cons hqueue] at hheld ⊢
  constructor
  · intro hpaid
    have htrue := hok.mpr hpaid
    rw [if_pos htrue, if_pos htrue] at hheld ⊢
    refine ⟨⟨by rw [h.executed, List.append_assoc], hwf, hsome, fun r hr => ?_⟩, rfl⟩
    have hbefore := h.available r hr
    have hafter := hleft r ((h.buckets r).trans hr)
    simp only [htrue, true_and] at hafter
    rw [hheld, demand_append]
    linarith
  · intro hunpaid
    have hfalse : ¬ (c'.tryConsume req.resourceId req.count t).1 = true := fun hp =>
      hunpaid (hok.mp hp)
    rw [if_neg hfalse, if_neg hfalse] at hheld ⊢
    refine ⟨⟨h.executed, hwf, hsome, fun r hr => ?_⟩, rfl⟩
    have hbefore := h.available r hr
    have hafter := hleft r ((h.buckets r).trans hr)
    rw [if_neg fun hboth => hfalse hboth.1] at hafter
    rw [hheld]
    linarith

/-! ## The run -/

/-- **How far the worker gets**: through a part of the queue that can be
paid for in turn, which is all of it, or as much as it had iterations
for, or all before a head that cannot be. -/
theorem served_attempts (hwf : ∀ (r : ResourceId) (b : TokenBucket ℚ),
      c.tokenBuckets[r]? = some b → b.Wf) (t : TimePoint) (k : ℕ) :
    ∃ done rest, c.pendingQueue = done ++ rest ∧
      (c.attempts (fun _ => t) k).pendingQueue = rest ∧
      Served c (c.attempts (fun _ => t) k) t done ∧ c.AffordsInTurn t done ∧
      (done.length = k ∨ rest = [] ∨
        ∃ req rest', rest = req :: rest' ∧ ¬ c.Affords t done req) := by
  induction k with
  | zero => exact ⟨[], c.pendingQueue, rfl, rfl, served_nil hwf, affordsInTurn_nil, .inl rfl⟩
  | succ k ih =>
    obtain ⟨done, rest, hsplit, hpending, hserved, hturn, hstop⟩ := ih
    rw [attempts]
    cases rest with
    | nil =>
      have hidle : (c.attempts (fun _ => t) k).workerIteration t = c.attempts (fun _ => t) k := by
        rw [workerIteration, hpending]
      rw [hidle]
      exact ⟨done, [], hsplit, hpending, hserved, hturn, .inr (.inl rfl)⟩
    | cons req rest =>
      obtain ⟨hpaid, hunpaid⟩ := hserved.workerIteration hpending
      by_cases haffords : c.Affords t done req
      · obtain ⟨hserved', hrest⟩ := hpaid haffords
        -- whoever can pay is not blocked, so every iteration so far executed one
        have hlength : done.length = k := by
          rcases hstop with h | h | ⟨req', rest', h, hnot⟩
          · exact h
          · cases h
          · obtain ⟨rfl, -⟩ := List.cons.inj h
            exact absurd haffords hnot
        exact ⟨done ++ [req], rest, by rw [hsplit, List.append_assoc]; rfl, hrest, hserved',
          hturn.append haffords, .inl (by simp [hlength])⟩
      · obtain ⟨hserved', hrest⟩ := hunpaid haffords
        exact ⟨done, req :: rest, hsplit, hrest, hserved', hturn, .inr (.inr ⟨req, rest, rfl, haffords⟩)⟩

/-- **A request is held up by what is ahead of it.** At one reading, after
at least as many iterations as there are requests: the first request for
a resource, whose bucket has the tokens for it, has been executed exactly
if every request ahead of it could be paid for in turn. -/
theorem executed_iff_affordsInTurn (hwf : ∀ (r : ResourceId) (b : TokenBucket ℚ),
      c.tokenBuckets[r]? = some b → b.Wf) {ahead behind : List PendingRequest}
    (hqueue : c.pendingQueue = ahead ++ req :: behind)
    (hfirst : ∀ q ∈ ahead, q.resourceId ≠ req.resourceId)
    (hbucket : (c.tokenBuckets[req.resourceId]?).isSome = true)
    (henough : req.count ≤ c.available req.resourceId t) {k : ℕ}
    (hk : c.pendingQueue.length ≤ k) :
    (c.executed ++ (ahead ++ [req]) <+: (c.attempts (fun _ => t) k).executed) ↔
      c.AffordsInTurn t ahead := by
  obtain ⟨done, rest, hsplit, -, hserved, hturn, hstop⟩ := served_attempts hwf t k
  rw [hserved.executed, List.prefix_append_right_inj]
  constructor
  · intro hp
    exact hturn.of_prefix ((List.prefix_append ahead [req]).trans hp)
  · intro hahead
    have hnone : demand req.resourceId ahead = 0 := by
      have hfilter : (ahead.filter fun q => q.resourceId = req.resourceId) = [] :=
        List.filter_eq_nil_iff.mpr fun q hq => by simpa using hfirst q hq
      rw [demand, hfilter]
      rfl
    have hall : c.AffordsInTurn t (ahead ++ [req]) :=
      hahead.append ⟨hbucket, fun _ => by rw [hnone, zero_add]; exact henough⟩
    have hmine : ahead ++ [req] <+: c.pendingQueue := ⟨behind, by rw [hqueue, List.append_assoc]; rfl⟩
    have hdone : done <+: c.pendingQueue := ⟨rest, hsplit.symm⟩
    rcases List.prefix_or_prefix_of_prefix hmine hdone with h | h
    · exact h
    · -- the worker did not get past the request: then it is blocked before it
      rcases hstop with hlength | rfl | ⟨q, rest', rfl, hblocked⟩
      · have hlong : c.pendingQueue.length ≤ done.length := hlength.symm ▸ hk
        rw [hdone.eq_of_length_le hlong]
        exact hmine
      · rw [List.append_nil] at hsplit
        rw [← hsplit]
        exact hmine
      · obtain ⟨more, hmore⟩ := h
        cases more with
        | nil => rw [← hmore, List.append_nil]
        | cons x more =>
          have hx : x = q := by
            have heq : done ++ (x :: more ++ behind) = done ++ q :: rest' := by
              rw [← hsplit, hqueue, ← List.append_assoc, hmore, List.append_assoc]
              rfl
            exact (List.cons.inj (List.append_cancel_left heq)).1
          exact absurd (hx ▸ hall done x more hmore.symm) hblocked

/-- A client with a bucket of five for resource `1`, one of three for
resource `2`, and a queue. -/
def twoBuckets (queue : List PendingRequest) : Client :=
  { tokenBuckets := ((∅ : OrderedMap ResourceId (TokenBucket ℚ)).insert 1
      (TokenBucket.new 5 (-1) 0)).insert 2 (TokenBucket.new 3 (-1) 0)
    pendingQueue := queue
    executed := [] }

theorem wf_twoBuckets (queue : List PendingRequest) :
    ∀ (r : ResourceId) (b : TokenBucket ℚ), (twoBuckets queue).tokenBuckets[r]? = some b → b.Wf := by
  intro r b hb
  rw [twoBuckets, OrderedMap.lookup_insert, OrderedMap.lookup_insert] at hb
  split at hb
  · obtain rfl := Option.some.inj hb
    exact TokenBucket.wf_new _ _ _
  · split at hb
    · obtain rfl := Option.some.inj hb
      exact TokenBucket.wf_new _ _ _
    · simp at hb

/-- Two requests for resource `2` are ahead, which together ask for what
its bucket has. -/
theorem twoBuckets_executed_iff :
    ((twoBuckets [⟨2, 2, none⟩, ⟨2, 1, none⟩, ⟨1, 4, some 7⟩]).executed ++
        ([⟨2, 2, none⟩, ⟨2, 1, none⟩] ++ [⟨1, 4, some 7⟩]) <+:
      ((twoBuckets [⟨2, 2, none⟩, ⟨2, 1, none⟩, ⟨1, 4, some 7⟩]).attempts (fun _ => 0) 3).executed) ↔
      (twoBuckets [⟨2, 2, none⟩, ⟨2, 1, none⟩, ⟨1, 4, some 7⟩]).AffordsInTurn 0
        [⟨2, 2, none⟩, ⟨2, 1, none⟩] := by
  have hqueue : (twoBuckets [⟨2, 2, none⟩, ⟨2, 1, none⟩, ⟨1, 4, some 7⟩]).pendingQueue =
      [⟨2, 2, none⟩, ⟨2, 1, none⟩] ++ ⟨1, 4, some 7⟩ :: [] := rfl
  exact executed_iff_affordsInTurn (wf_twoBuckets _) hqueue (by decide) (by decide)
    (by decide +kernel) le_rfl

/-- **A head without a bucket holds up everybody.** Resource `3` has none;
the request behind is for resource `1`, whose bucket has five tokens. -/
theorem refusedHead_holds_up :
    ¬ ∀ (c : Client) (t : TimePoint) (k : ℕ) (ahead behind : List PendingRequest)
      (req : PendingRequest) (b : TokenBucket ℚ),
      (∀ (r : ResourceId) (b : TokenBucket ℚ), c.tokenBuckets[r]? = some b → b.Wf) →
      c.pendingQueue = ahead ++ req :: behind → (∀ q ∈ ahead, q.resourceId ≠ req.resourceId) →
      c.tokenBuckets[req.resourceId]? = some b → req.count ≤ b.tokens →
      c.pendingQueue.length ≤ k → req ∈ (c.attempts (fun _ => t) k).executed := by
  intro hall
  have hmem := hall (twoBuckets [⟨3, 1, some 7⟩, ⟨1, 1, some 8⟩]) 0 2 [⟨3, 1, some 7⟩] []
    ⟨1, 1, some 8⟩ (TokenBucket.new 5 (-1) 0) (wf_twoBuckets _) rfl (by decide) (by decide +kernel)
    (by decide +kernel) le_rfl
  exact absurd hmem (by decide +kernel)

end Client

end Throttling
