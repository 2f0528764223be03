import Throttling.Client.Queue
/-!
# Who overtakes a queued request

The queue is first in, first out, and the only way past it is not to be
in it: `Acquire` asks the bucket before it queues, so a later request the
bucket has tokens for is executed at once, however long an earlier one
has waited for more (`granted_overtakes_queued`). A later request that
is refused and queued stays behind.
-/

namespace Throttling

namespace ClientThreads

variable {s s' : ClientThreads} {a : ClientAction} {A B q : Acquisition}

/-! ## What a step adds to the records -/

/-- **A step pushes one request at most**, which was waiting in its call. -/
theorem pushed_step (hstep : s.step a = some s') :
    s.tickets ≤ s'.tickets ∧
      (s'.pushed = s.pushed ∨ ∃ q t outer, s.frames t = ⟨q, .push⟩ :: outer ∧
        s'.pushed = s.pushed ++ [q]) := by
  cases a with
  | start =>
    have hsec := controlSection_of_start hstep
    exact ⟨by cases hsec <;> exact le_rfl, .inl (by cases hsec <;> rfl)⟩
  | stop =>
    have hsec := controlSection_of_stop hstep
    exact ⟨by cases hsec <;> exact le_rfl, .inl (by cases hsec <;> rfl)⟩
  | updateTokenBuckets now allocations =>
    obtain rfl := Option.some.inj hstep
    exact ⟨le_rfl, .inl rfl⟩
  | acquire caller request =>
    simp only [step, acquire] at hstep
    split at hstep
    · obtain rfl := Option.some.inj hstep
      exact ⟨Nat.le_succ _, .inl rfl⟩
    · cases hstep
  | acquireStep caller now freed =>
    have hsec := acquireSection_of_step hstep
    refine ⟨by cases hsec <;> exact le_rfl, ?_⟩
    cases hsec with
    | pushed request outer hframes => exact .inr ⟨request, caller, outer, hframes, rfl⟩
    | _ => exact .inl rfl
  | workerStep now freed =>
    have hsec := workerSection_of_step hstep
    exact ⟨by cases hsec <;> exact le_rfl, .inl (by cases hsec <;> rfl)⟩

theorem pushed_prefix_run {run : List ClientAction} (hrun : clientSystem.runFrom s run = some s') :
    s.pushed <+: s'.pushed := by
  induction run generalizing s with
  | nil =>
    obtain rfl : s = s' := by simpa [GuardedSystem.runFrom] using hrun
    exact List.prefix_rfl
  | cons a run ih =>
    rw [GuardedSystem.runFrom] at hrun
    obtain ⟨mid, hstep, hrest⟩ := Option.bind_eq_some_iff.mp hrun
    have hmid : s.pushed <+: mid.pushed := by
      rcases (pushed_step hstep).2 with heq | ⟨q, t, outer, -, heq⟩
      · rw [heq]
      · rw [heq]
        exact List.prefix_append _ _
    exact hmid.trans (ih hrest)

/-- A request that waits in its call has its ticket. -/
theorem ticket_lt_of_push (h : Books s) {t : Caller} {outer : List AcquireFrame}
    (hframes : s.frames t = ⟨q, .push⟩ :: outer) : q.ticket < s.tickets := by
  have howner : q.caller = t := h.caller t ⟨q, .push⟩ (by rw [hframes]; exact List.mem_cons_self)
  by_contra hnot
  have hnone := h.fresh q (not_lt.mp hnot)
  rw [waiting, howner, hframes, tally_cons] at hnone
  simp [AcquirePc.isWaiting] at hnone

/-- So the requests pushed so far have tickets given so far. -/
theorem ticket_lt_of_pushed (h : clientSystem.Reachable s) : ∀ q ∈ s.pushed, q.ticket < s.tickets := by
  induction h with
  | init => exact fun q hq => absurd hq List.not_mem_nil
  | step hs _ hstep ih =>
    obtain ⟨htickets, hpushed⟩ := pushed_step hstep
    intro q hq
    rcases hpushed with heq | ⟨q', t, outer, hframes, heq⟩
    · rw [heq] at hq
      exact (ih q hq).trans_le htickets
    · rw [heq, List.mem_append, List.mem_singleton] at hq
      rcases hq with hold | rfl
      · exact (ih q hold).trans_le htickets
      · exact (ticket_lt_of_push (books_of_reachable hs) hframes).trans_le htickets

/-- What the worker executed was executed, in that order. -/
theorem workerExecuted_sublist (h : clientSystem.Reachable s) :
    s.workerExecuted.Sublist s.executed := by
  refine GuardedSystem.Reachable.invariant (M := clientSystem)
    (P := fun s => s.workerExecuted.Sublist s.executed) List.Sublist.slnil
    (fun s a s' hs hstep => ?_) h
  cases a with
  | start =>
    have hsec := controlSection_of_start hstep
    cases hsec <;> exact hs
  | stop =>
    have hsec := controlSection_of_stop hstep
    cases hsec <;> exact hs
  | updateTokenBuckets now allocations =>
    obtain rfl := Option.some.inj hstep
    exact hs
  | acquire caller request =>
    simp only [clientSystem, step, acquire] at hstep
    split at hstep
    · obtain rfl := Option.some.inj hstep
      exact hs
    · cases hstep
  | acquireStep caller now freed =>
    have hsec := acquireSection_of_step hstep
    cases hsec with
    | callback request outer hframes hcallback =>
      exact hs.trans (List.sublist_append_left _ _)
    | noCallback request outer hframes => exact hs.trans (List.sublist_append_left _ _)
    | _ => exact hs
  | workerStep now freed =>
    have hsec := workerSection_of_step hstep
    cases hsec with
    | executed request hworker worker hworker' => exact hs.append (List.Sublist.refl _)
    | _ => exact hs

/-! ## The two requests -/

/-- A request that was executed is neither held nor pending any more. -/
theorem not_mem_rest_of_executed (h : Books s) (hexec : q ∈ s.executed) :
    q ∉ s.worker.held ++ s.pendingQueue := by
  have hcount : 0 < s.executed.count q := List.count_pos_iff.mpr hexec
  have hpaid := h.paid q
  have honce := h.once q
  rw [executing] at hpaid
  rw [waiting] at honce
  rw [List.mem_append, not_or]
  constructor
  · intro hheld
    -- in the worker's hand it is granted or waiting, and it is done already
    have hplaces : s.worker.held.count q = s.worker.unpaid.count q + s.worker.paid.count q := by
      cases s.worker <;> simp [WorkerPc.held, WorkerPc.unpaid, WorkerPc.paid]
    have hpos : 0 < s.worker.held.count q := List.count_pos_iff.mpr hheld
    omega
  · intro hpending
    have hpos : 0 < s.pendingQueue.count q := List.count_pos_iff.mpr hpending
    omega

/-- **A queued request is not overtaken by a later one that is queued.**
`A` was queued when `B` was asked for; if `B` was refused and queued, and
its callback was run, `A`'s was run before, until a `Stop` clears the
queue. -/
theorem executed_before_of_queued {run : List ClientAction} (h : clientSystem.Reachable s)
    (hA : A ∈ s.pushed) (hB : s.tickets ≤ B.ticket)
    (hrun : clientSystem.runFrom s run = some s') (hcleared : s'.queueCleared = false)
    (hqueued : B ∈ s'.pushed) (hexec : B ∈ s'.executed) : [A, B].Sublist s'.executed := by
  have h' : clientSystem.Reachable s' := GuardedSystem.Reachable.runFrom h hrun
  -- `B` is none of those pushed before it was asked for
  obtain ⟨later, hlater⟩ := pushed_prefix_run hrun
  have hBlater : B ∈ later := by
    rw [← hlater, List.mem_append] at hqueued
    refine hqueued.resolve_left fun hold => ?_
    exact absurd (ticket_lt_of_pushed h B hold) (not_lt.mpr hB)
  have hpushed : [A, B].Sublist s'.pushed := by
    rw [← hlater]
    exact (List.singleton_sublist.mpr hA).append (List.singleton_sublist.mpr hBlater)
  -- and the order of those pushed is that of those executed, up to `B`
  have horder := (inOrder_and_paid_of_reachable h').1 hcleared
  have hrest := not_mem_rest_of_executed (books_of_reachable h') hexec
  rw [horder, List.append_assoc] at hpushed
  obtain ⟨done, rest, hsplit, hdone, hrest'⟩ := List.sublist_append_iff.mp hpushed
  have hnone : rest = [] := by
    by_contra hne
    have hlast : rest.getLast hne = B := by
      have hall : ([A, B].getLast (by simp)) = (done ++ rest).getLast (by simp [hne]) := by
        simp only [hsplit]
      rw [List.getLast_append_of_ne_nil _ hne] at hall
      exact hall.symm
    exact hrest (hrest'.subset (hlast ▸ List.getLast_mem hne))
  rw [hnone, List.append_nil] at hsplit
  rw [hsplit]
  exact hdone.trans (workerExecuted_sublist h')

/-- A bucket of two, emptied; a thread then asks for two and is queued. -/
def firstQueuedRun : List ClientAction :=
  [.updateTokenBuckets (fun _ => 0) ((∅ : OrderedMap ResourceId ℚ).insert 1 2), .start,
   .acquire (.app 0) ⟨1, 2, none⟩, .acquireStep (.app 0) 0 false,
   .acquireStep (.app 0) 0 false, .acquireStep (.app 0) 0 false,
   .acquire (.app 0) ⟨1, 2, some 7⟩, .acquireStep (.app 0) 0 false,
   .acquireStep (.app 0) 0 false, .acquireStep (.app 0) 0 false]

/-- Another asks for one and is queued too; the worker runs the first a
second later, and the second a second after that. -/
def secondQueuedRun : List ClientAction :=
  [.acquire (.app 1) ⟨1, 1, some 8⟩, .acquireStep (.app 1) 0 false,
   .acquireStep (.app 1) 0 false, .acquireStep (.app 1) 0 false,
   .workerStep 0 false, .workerStep 0 false, .workerStep 0 false,
   .workerStep 1000000000 false, .workerStep 1000000000 false, .workerStep 1000000000 false,
   .workerStep 1000000000 false, .workerStep 1000000000 false, .workerStep 1000000000 false,
   .workerStep 2000000000 false, .workerStep 2000000000 false]

theorem secondQueuedRun_executed_before :
    ∃ s s', clientSystem.runFrom clientSystem.init firstQueuedRun = some s ∧
      clientSystem.runFrom s secondQueuedRun = some s' ∧
      [⟨⟨1, 2, some 7⟩, 1, .app 0⟩, ⟨⟨1, 1, some 8⟩, 2, .app 1⟩].Sublist s'.executed := by
  have hruns : ((clientSystem.runFrom clientSystem.init firstQueuedRun).bind fun s =>
      (clientSystem.runFrom s secondQueuedRun).map fun s' =>
        (s.pushed, s.tickets, s'.queueCleared, s'.pushed, s'.executed)) =
      some ([⟨⟨1, 2, some 7⟩, 1, .app 0⟩], 2, false,
        [⟨⟨1, 2, some 7⟩, 1, .app 0⟩, ⟨⟨1, 1, some 8⟩, 2, .app 1⟩],
        [⟨⟨1, 2, none⟩, 0, .app 0⟩, ⟨⟨1, 2, some 7⟩, 1, .app 0⟩,
          ⟨⟨1, 1, some 8⟩, 2, .app 1⟩]) := by decide +kernel
  obtain ⟨s, hs, hafter⟩ := Option.bind_eq_some_iff.mp hruns
  obtain ⟨s', hs', hreached⟩ := Option.map_eq_some_iff.mp hafter
  simp only [Prod.mk.injEq] at hreached
  obtain ⟨hpushed, htickets, hcleared, hpushed', hexecuted⟩ := hreached
  exact ⟨s, s', hs, hs', executed_before_of_queued (GuardedSystem.Reachable.runFrom .init hs)
    (by simp [hpushed]) (by simp [htickets]) hs' hcleared (by simp [hpushed'])
    (by simp [hexecuted])⟩

/-! ## The request that overtakes -/

/-- A bucket of five: a request for ten is queued. -/
def queuedRun : List ClientAction :=
  [.updateTokenBuckets (fun _ => 0) ((∅ : OrderedMap ResourceId ℚ).insert 1 5), .start,
   .acquire (.app 0) ⟨1, 10, some 7⟩, .acquireStep (.app 0) 0 false,
   .acquireStep (.app 0) 0 false, .acquireStep (.app 0) 0 false]

/-- Another thread asks for three, and its callback runs. -/
def overtakingRun : List ClientAction :=
  [.acquire (.app 1) ⟨1, 3, some 8⟩, .acquireStep (.app 1) 0 false,
   .acquireStep (.app 1) 0 false, .acquireStep (.app 1) 0 false]

/-- **A later request overtakes.** `Acquire` tries the bucket first, and the
bucket has three tokens while the request for ten is queued. -/
theorem granted_overtakes_queued :
    ¬ ∀ (s s' : ClientThreads) (run : List ClientAction) (A B : Acquisition),
      clientSystem.Reachable s → A ∈ s.pushed → s.tickets ≤ B.ticket →
      A.resourceId = B.resourceId → clientSystem.runFrom s run = some s' →
      s'.queueCleared = false → B ∈ s'.executed → [A, B].Sublist s'.executed := by
  intro hall
  have hruns : ((clientSystem.runFrom clientSystem.init queuedRun).bind fun s =>
      (clientSystem.runFrom s overtakingRun).map fun s' =>
        (s.pushed, s.tickets, s'.queueCleared, s'.executed)) =
      some ([⟨⟨1, 10, some 7⟩, 0, .app 0⟩], 1, false, [⟨⟨1, 3, some 8⟩, 1, .app 1⟩]) := by
    decide +kernel
  obtain ⟨s, hs, hafter⟩ := Option.bind_eq_some_iff.mp hruns
  obtain ⟨s', hs', hreached⟩ := Option.map_eq_some_iff.mp hafter
  simp only [Prod.mk.injEq] at hreached
  obtain ⟨hpushed, htickets, hcleared, hexecuted⟩ := hreached
  have hbefore := hall s s' overtakingRun ⟨⟨1, 10, some 7⟩, 0, .app 0⟩
    ⟨⟨1, 3, some 8⟩, 1, .app 1⟩ (GuardedSystem.Reachable.runFrom .init hs) (by simp [hpushed])
    (by simp [htickets]) rfl hs' hcleared (by simp [hexecuted])
  -- one request was executed, and two would have to be
  have htwo := hbefore.length_le
  simp [hexecuted] at htwo

end ClientThreads

end Throttling
