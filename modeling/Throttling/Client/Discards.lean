import Throttling.Client.Queue
/-!
# What a `Stop` discards

A client may be stopped and started any number of times, and each `Stop`
clears the queue at its end, with calls of `Acquire` under way and maybe
a worker of the next `Start` already at work; one `Stop` is in progress
at a time, and of the client's operations callbacks call only `Acquire`.
Beside the client we keep
what the clearings took out of the queue. A request pushed to the queue
is then executed by a worker, in some worker's hand, pending or discarded,
in the order of pushing; and a discarded one never runs.
-/

namespace Throttling

/-- What an action takes out of the queue for good. -/
def ClientThreads.discards (s : ClientThreads) : ClientAction → List Acquisition
  | .stop => if s.stop = .clearingQueue then s.pendingQueue else []
  | _ => []

/-- A client, and what was discarded so far. -/
structure Accounts where
  client : ClientThreads
  discarded : List Acquisition

/-- One step of the client, with what it discards. -/
def Accounts.step (s : Accounts) (a : ClientAction) : Option Accounts :=
  (s.client.step a).map fun client =>
    { client := client, discarded := s.discarded ++ s.client.discards a }

/-- The interleavings of a client that was just constructed. -/
def accountsSystem : GuardedSystem Accounts ClientAction where
  init := { client := clientSystem.init, discarded := [] }
  step := Accounts.step

namespace ClientThreads

variable {s s' : ClientThreads} {t : Caller} {q : Acquisition}

/-! ## Where a request is -/

/-- Who is in the worker's hand waits, or was granted. -/
theorem waiting_or_executing_of_held (h : q ∈ s.worker.held) :
    0 < s.worker.unpaid.count q ∨ 0 < s.worker.paid.count q := by
  cases hworker : s.worker with
  | holding request =>
    rw [hworker] at h
    exact .inl (List.count_pos_iff.mpr h)
  | consume request bucket =>
    rw [hworker] at h
    exact .inl (List.count_pos_iff.mpr h)
  | requeue request =>
    rw [hworker] at h
    exact .inl (List.count_pos_iff.mpr h)
  | execute request =>
    rw [hworker] at h
    exact .inr (List.count_pos_iff.mpr h)
  | _ =>
    rw [hworker] at h
    cases h

/-- Who was executed was granted. -/
theorem Books.granted_of_executed (h : Books s) (hq : q ∈ s.executed) : 0 < s.granted.count q := by
  have hcount := List.count_pos_iff.mpr hq
  have hpaid := h.paid q
  omega

/-- Who is held or was executed is not in the queue as well. -/
theorem Books.not_pending (h : Books s)
    (hq : q ∈ s.executed ∨ q ∈ s.worker.held) : q ∉ s.pendingQueue := by
  intro hpending
  have hcount := List.count_pos_iff.mpr hpending
  have honce := h.once q
  have hpaid := h.paid q
  rw [waiting] at honce
  rw [executing] at hpaid
  rcases hq with hexecuted | hheld
  · have hdone := List.count_pos_iff.mpr hexecuted
    omega
  · rcases waiting_or_executing_of_held hheld with hunpaid | hpaid'
    · omega
    · omega

/-- A request that waits in its call is nowhere else. -/
theorem Books.alone_of_push (h : Books s) {request : Acquisition} {outer : List AcquireFrame}
    (hframes : s.frames t = ⟨request, .push⟩ :: outer) :
    request ∉ s.executed ∧ request ∉ s.worker.held ∧ request ∉ s.pendingQueue := by
  have howner : request.caller = t :=
    h.caller t ⟨request, .push⟩ (by rw [hframes]; exact List.mem_cons_self)
  have hin : 0 < tally AcquirePc.isWaiting (s.frames request.caller) request := by
    rw [howner, hframes, tally_cons, if_pos ⟨rfl, rfl⟩]
    omega
  have honce := h.once request
  rw [waiting] at honce
  have hpaid := h.paid request
  rw [executing] at hpaid
  refine ⟨fun hexecuted => ?_, fun hheld => ?_, fun hpending => ?_⟩
  · have hdone := List.count_pos_iff.mpr hexecuted
    omega
  · rcases waiting_or_executing_of_held hheld with hunpaid | hpaid'
    · omega
    · omega
  · have hcount := List.count_pos_iff.mpr hpending
    omega

/-- A call makes no request that was made before. -/
theorem waiting_acquire {request : PendingRequest} (hstep : s.acquire t request = some s')
    (hq : q.ticket < s.tickets) : s'.waiting q = s.waiting q ∧ s'.granted = s.granted := by
  unfold acquire at hstep
  split at hstep
  · obtain rfl := Option.some.inj hstep
    refine ⟨?_, rfl⟩
    rw [waiting, waiting]
    have hframes : tally AcquirePc.isWaiting
        (Function.update s.frames t (⟨{ request with ticket := s.tickets, caller := t }, .lookup⟩ ::
          s.frames t) q.caller) q = tally AcquirePc.isWaiting (s.frames q.caller) q := by
      by_cases hcaller : q.caller = t
      · rw [hcaller, Function.update_self, tally_cons, if_neg, add_zero]
        rintro ⟨-, heq⟩
        rw [← heq] at hq
        exact absurd hq (lt_irrefl _)
      · rw [Function.update_of_ne hcaller]
    rw [setFrames]
    dsimp only
    rw [hframes]
  · cases hstep

end ClientThreads

namespace Accounts

open ClientThreads

variable {s s' : Accounts} {a : ClientAction} {q : Acquisition}

/-- **The accounts of the queue** over any number of clearings. -/
structure Accounted (s : Accounts) : Prop where
  /-- What was pushed and not discarded is what workers executed, then what
  the worker holds, then what is pending. -/
  order : s.client.pushed.filter (fun q => decide (q ∉ s.discarded)) =
    s.client.workerExecuted ++ s.client.worker.held ++ s.client.pendingQueue
  /-- Nothing is pushed twice. -/
  distinct : s.client.pushed.Nodup
  /-- Only what was pushed is discarded, and only once. -/
  pushed : ∀ q ∈ s.discarded, q ∈ s.client.pushed
  once : s.discarded.Nodup
  /-- What was discarded waits nowhere, and is never granted. -/
  gone : ∀ q ∈ s.discarded, q.ticket < s.client.tickets ∧
    s.client.waiting q + s.client.granted.count q = 0
  /-- What the worker executed was executed. -/
  executed : ∀ q ∈ s.client.workerExecuted, q ∈ s.client.executed

theorem accounted_init : Accounted accountsSystem.init where
  order := rfl
  distinct := List.nodup_nil
  pushed _ hq := absurd hq List.not_mem_nil
  once := List.nodup_nil
  gone _ hq := absurd hq List.not_mem_nil
  executed _ hq := absurd hq List.not_mem_nil

/-- Whoever was pushed is in one of four places. -/
theorem Accounted.place (h : Accounted s) (hq : q ∈ s.client.pushed) :
    q ∈ s.discarded ∨ q ∈ s.client.workerExecuted ∨ q ∈ s.client.worker.held ∨
      q ∈ s.client.pendingQueue := by
  by_cases hgone : q ∈ s.discarded
  · exact .inl hgone
  · have hmem : q ∈ s.client.pushed.filter fun q => decide (q ∉ s.discarded) :=
      List.mem_filter.mpr ⟨hq, decide_eq_true hgone⟩
    rw [h.order, List.mem_append, List.mem_append, or_assoc] at hmem
    exact .inr hmem

/-- Who is pending, held or executed by a worker was pushed and kept. -/
theorem Accounted.kept (h : Accounted s) (hq : q ∈ s.client.workerExecuted ∨
    q ∈ s.client.worker.held ∨ q ∈ s.client.pendingQueue) :
    q ∈ s.client.pushed ∧ q ∉ s.discarded := by
  have hmem : q ∈ s.client.workerExecuted ++ s.client.worker.held ++ s.client.pendingQueue := by
    rwa [List.mem_append, List.mem_append, or_assoc]
  rw [← h.order, List.mem_filter] at hmem
  exact ⟨hmem.1, of_decide_eq_true hmem.2⟩

/-- **A step that moves requests** and pushes and discards none. -/
theorem Accounted.moves (h : Accounted s) {client : ClientThreads} (hm : Moves s.client client)
    (hpushed : client.pushed = s.client.pushed)
    (horder : client.workerExecuted ++ client.worker.held ++ client.pendingQueue =
      s.client.workerExecuted ++ s.client.worker.held ++ s.client.pendingQueue)
    (hexecuted : ∀ q ∈ client.workerExecuted, q ∈ client.executed) :
    Accounted { s with client := client } where
  order := by rw [horder, ← h.order, hpushed]
  distinct := hpushed ▸ h.distinct
  pushed q hq := hpushed ▸ h.pushed q hq
  once := h.once
  gone q hq := by
    obtain ⟨hticket, hzero⟩ := h.gone q hq
    exact ⟨hm.tickets ▸ hticket, Nat.le_zero.mp (hzero ▸ hm.kept q)⟩
  executed := hexecuted

theorem Accounted.acquireSection (h : Accounted s) (hbooks : Books s.client) {t : Caller}
    {client : ClientThreads} (hsection : AcquireSection s.client t client) :
    Accounted { s with client := client } := by
  have hm := moves_acquireSection hbooks.caller hsection
  cases hsection with
  | lookup request outer hframes => exact h.moves hm rfl rfl h.executed
  | refused request bucket outer hframes buckets hsame => exact h.moves hm rfl rfl h.executed
  | granted request bucket outer hframes buckets hsame => exact h.moves hm rfl rfl h.executed
  | callback request outer hframes hcallback =>
    exact h.moves hm rfl rfl fun q hq => List.mem_append_left _ (h.executed q hq)
  | noCallback request outer hframes =>
    exact h.moves hm rfl rfl fun q hq => List.mem_append_left _ (h.executed q hq)
  | returned request pc outer hframes hpc => exact h.moves hm rfl rfl h.executed
  | pushed request outer hframes =>
    obtain ⟨hexecuted, hheld, hpending⟩ := hbooks.alone_of_push hframes
    have hnew : request ∉ s.client.pushed ∧ request ∉ s.discarded := by
      have hgone : request ∉ s.discarded := by
        intro hmem
        have hzero := (h.gone request hmem).2
        have howner := hbooks.caller t ⟨request, .push⟩ (by rw [hframes]; exact List.mem_cons_self)
        dsimp only at howner
        rw [waiting, howner, hframes, tally_cons, if_pos ⟨rfl, rfl⟩] at hzero
        omega
      refine ⟨fun hmem => ?_, hgone⟩
      rcases h.place hmem with hold | hdone | hhand | hqueue
      · exact hgone hold
      · exact hexecuted (h.executed request hdone)
      · exact hheld hhand
      · exact hpending hqueue
    refine ⟨?_, ?_, fun q hq => List.mem_append_left _ (h.pushed q hq), h.once, fun q hq => ?_,
      h.executed⟩
    · change (s.client.pushed ++ [request]).filter (fun q => decide (q ∉ s.discarded)) =
        s.client.workerExecuted ++ s.client.worker.held ++ (s.client.pendingQueue ++ [request])
      have hlast : [request].filter (fun q => decide (q ∉ s.discarded)) = [request] := by
        simp [hnew.2]
      rw [List.filter_append, h.order, hlast, List.append_assoc]
    · change (s.client.pushed ++ [request]).Nodup
      rw [List.nodup_append]
      refine ⟨h.distinct, List.nodup_singleton _, fun q hq q' hq' heq => ?_⟩
      rw [List.mem_singleton.mp hq'] at heq
      exact hnew.1 (heq ▸ hq)
    · obtain ⟨hticket, hzero⟩ := h.gone q hq
      exact ⟨hticket, Nat.le_zero.mp (hzero ▸ hm.kept q)⟩

theorem Accounted.workerSection (h : Accounted s) (hbooks : Books s.client)
    {client : ClientThreads} (hsection : WorkerSection s.client client) :
    Accounted { s with client := client } := by
  have hm := moves_workerSection hbooks.caller hsection
  cases hsection with
  | turn worker hworker hworker' =>
    have hempty : s.client.worker.held = [] := by
      rcases hworker with h | h | h <;> rw [h] <;> rfl
    have hempty' : worker.held = [] := by
      rcases hworker' with h | h | h <;> rw [h] <;> rfl
    refine h.moves hm rfl ?_ h.executed
    rw [hempty]
    exact congrArg (s.client.workerExecuted ++ · ++ s.client.pendingQueue) hempty'
  | taken request rest hworker hqueue =>
    refine h.moves hm rfl ?_ h.executed
    rw [hworker, hqueue]
    simp [WorkerPc.held]
  | lookup request hworker =>
    exact h.moves hm rfl (by rw [hworker]; rfl) h.executed
  | refused request bucket hworker buckets hsame =>
    exact h.moves hm rfl (by rw [hworker]; rfl) h.executed
  | granted request bucket hworker buckets hsame =>
    exact h.moves hm rfl (by rw [hworker]; rfl) h.executed
  | executed request hworker worker hworker' =>
    have hempty' : worker.held = [] := by
      rcases hworker' with h | h <;> rw [h] <;> rfl
    refine h.moves hm rfl ?_ fun q hq => ?_
    · rw [hworker]
      change s.client.workerExecuted ++ [request] ++ worker.held ++ _ = _
      rw [hempty', List.append_nil]
      rfl
    · rcases List.mem_append.mp hq with hold | hnew
      · exact List.mem_append_left _ (h.executed q hold)
      · exact List.mem_append_right _ hnew
  | requeued request hworker =>
    refine h.moves hm rfl ?_ h.executed
    rw [hworker]
    simp [WorkerPc.held]

/-- **The clearing of the queue** discards what is pending, and nothing that
was executed or is in the worker's hand. -/
theorem Accounted.clearedQueue (h : Accounted s) (hbooks : Books s.client) :
    Accounted
      { client := { s.client with pendingQueue := [], queueCleared := true, stop := .idle }
        discarded := s.discarded ++ s.client.pendingQueue } := by
  have hone : ∀ q, s.client.pendingQueue.count q ≤ 1 := by
    intro q
    have honce := hbooks.once q
    rw [waiting] at honce
    omega
  refine ⟨?_, h.distinct, fun q hq => ?_, ?_, fun q hq => ?_, h.executed⟩
  · have hsplit : (fun q => decide (q ∉ s.discarded ++ s.client.pendingQueue)) =
        fun q => decide (q ∉ s.client.pendingQueue) && decide (q ∉ s.discarded) := by
      funext q
      rw [← Bool.decide_and]
      exact decide_eq_decide.mpr (by rw [List.mem_append, not_or, and_comm])
    have hstays : (s.client.workerExecuted ++ s.client.worker.held).filter
        (fun q => decide (q ∉ s.client.pendingQueue)) =
          s.client.workerExecuted ++ s.client.worker.held := by
      refine List.filter_eq_self.mpr fun q hq => decide_eq_true ?_
      rcases List.mem_append.mp hq with hdone | hhand
      · exact hbooks.not_pending (.inl (h.executed q hdone))
      · exact hbooks.not_pending (.inr hhand)
    have hgoes : s.client.pendingQueue.filter (fun q => decide (q ∉ s.client.pendingQueue)) =
        [] := List.filter_eq_nil_iff.mpr fun q hq hnot => of_decide_eq_true hnot hq
    change s.client.pushed.filter _ = s.client.workerExecuted ++ s.client.worker.held ++ []
    rw [hsplit, ← List.filter_filter, h.order, List.filter_append, hstays, hgoes]
  · rcases List.mem_append.mp hq with hold | hpending
    · exact h.pushed q hold
    · exact (h.kept (.inr (.inr hpending))).1
  · rw [List.nodup_append]
    refine ⟨h.once, List.nodup_iff_count_le_one.mpr hone, fun q hq q' hq' heq => ?_⟩
    subst heq
    exact (h.kept (.inr (.inr hq'))).2 hq
  · set cleared : ClientThreads :=
      { s.client with pendingQueue := [], queueCleared := true, stop := .idle } with hcleared
    have hleft : cleared.waiting q + s.client.pendingQueue.count q = s.client.waiting q := by
      rw [waiting, waiting]
      change tally AcquirePc.isWaiting (s.client.frames q.caller) q + 0 +
        s.client.worker.unpaid.count q + s.client.pendingQueue.count q = _
      omega
    change q.ticket < s.client.tickets ∧ cleared.waiting q + s.client.granted.count q = 0
    rcases List.mem_append.mp hq with hold | hpending
    · obtain ⟨hticket, hzero⟩ := h.gone q hold
      exact ⟨hticket, by omega⟩
    · -- its one place was the queue
      have hcount := List.count_pos_iff.mpr hpending
      have honce := hbooks.once q
      refine ⟨?_, by omega⟩
      by_contra hfresh
      have hnone := hbooks.fresh q (not_lt.mp hfresh)
      omega

/-- A section of `Start` or `Stop` that leaves the queue alone. -/
theorem Accounted.control (h : Accounted s) (hbooks : Books s.client) {client : ClientThreads}
    (hsection : ControlSection s.client client)
    (hqueue : client.pendingQueue = s.client.pendingQueue) :
    Accounted { s with client := client } := by
  have hm := moves_controlSection hbooks hsection
  cases hsection with
  | started hworker => exact h.moves hm rfl (by rw [hworker]; rfl) h.executed
  | flagged => exact h.moves hm rfl rfl h.executed
  | joined hworker => exact h.moves hm rfl (by rw [hworker]; rfl) h.executed
  | clearedBuckets hstop => exact h.moves hm rfl rfl h.executed
  | clearedQueue => exact h.moves hm rfl (by rw [← hqueue]) h.executed

/-- A call of `Acquire` is a new request, which is nowhere yet. -/
theorem Accounted.acquire (h : Accounted s) {t : Caller} {request : PendingRequest}
    {client : ClientThreads} (hstep : s.client.acquire t request = some client) :
    Accounted { s with client := client } := by
  have hold := fun q (hq : q ∈ s.discarded) => waiting_acquire hstep (h.gone q hq).1
  unfold ClientThreads.acquire at hstep
  split at hstep
  · obtain rfl := Option.some.inj hstep
    refine ⟨h.order, h.distinct, h.pushed, h.once, fun q hq => ?_, h.executed⟩
    obtain ⟨hticket, hzero⟩ := h.gone q hq
    obtain ⟨hwaiting, hgranted⟩ := hold q hq
    refine ⟨Nat.lt_succ_of_lt hticket, ?_⟩
    dsimp only
    rw [hwaiting, hgranted]
    exact hzero
  · cases hstep

/-- **Every step keeps the accounts.** -/
theorem Accounted.step (h : Accounted s) (hbooks : Books s.client) (hstep : s.step a = some s') :
    Accounted s' := by
  obtain ⟨client, hclient, rfl⟩ := Option.map_eq_some_iff.mp hstep
  have hnothing : s.client.discards a = [] → Accounted { s with client := client } →
      Accounted { client := client, discarded := s.discarded ++ s.client.discards a } := by
    intro hnone haccounted
    rwa [hnone, List.append_nil]
  cases a with
  | start =>
    have hqueue : client.pendingQueue = s.client.pendingQueue := by
      simp only [ClientThreads.step, start] at hclient
      split at hclient
      · rw [← Option.some.inj hclient]
      · cases hclient
    exact hnothing rfl (h.control hbooks (controlSection_of_start hclient) hqueue)
  | stop =>
    by_cases hclearing : s.client.stop = .clearingQueue
    · simp only [ClientThreads.step, stopStep, hclearing] at hclient
      obtain rfl := Option.some.inj hclient
      rw [discards, if_pos hclearing]
      exact h.clearedQueue hbooks
    · have hqueue : client.pendingQueue = s.client.pendingQueue := by
        simp only [ClientThreads.step, stopStep] at hclient
        split at hclient
        · split at hclient
          · rw [← Option.some.inj hclient]
          · cases hclient
        · split at hclient
          · rw [← Option.some.inj hclient]
          · cases hclient
        · rw [← Option.some.inj hclient]
        · exact absurd ‹_› hclearing
      exact hnothing (if_neg hclearing) (h.control hbooks (controlSection_of_stop hclient) hqueue)
  | updateTokenBuckets now allocations =>
    obtain rfl := Option.some.inj hclient
    refine hnothing rfl (h.moves ?_ rfl rfl h.executed)
    exact moves_of_same hbooks ⟨rfl, rfl, rfl, rfl⟩ (fun _ => le_rfl) rfl rfl
  | acquire t request => exact hnothing rfl (h.acquire hclient)
  | acquireStep t now freed =>
    exact hnothing rfl (h.acquireSection hbooks (acquireSection_of_step hclient))
  | workerStep now freed =>
    exact hnothing rfl (h.workerSection hbooks (workerSection_of_step hclient))

/-- What is kept beside the client steers nothing. -/
theorem reachable_client (h : accountsSystem.Reachable s) : clientSystem.Reachable s.client := by
  refine GuardedSystem.Reachable.invariant (P := fun s => clientSystem.Reachable s.client) .init
    (fun s a s' hs hstep => ?_) h
  obtain ⟨client, hclient, rfl⟩ := Option.map_eq_some_iff.mp hstep
  exact hs.step hclient

theorem accounted_of_reachable (h : accountsSystem.Reachable s) : Accounted s := by
  have hboth : accountsSystem.Reachable s ∧ Accounted s := by
    refine GuardedSystem.Reachable.invariant
      (P := fun s => accountsSystem.Reachable s ∧ Accounted s) ⟨.init, accounted_init⟩ ?_ h
    rintro s a s' ⟨hs, haccounted⟩ hstep
    exact ⟨hs.step hstep,
      haccounted.step (books_of_reachable (reachable_client hs)) hstep⟩
  exact hboth.2

/-- **Every queued request is accounted for, over any number of stops and
starts**, one `Stop` at a time, with callbacks that call only `Acquire`:
what was pushed and not discarded is, in order, what workers
executed, what the worker holds and what is pending; nothing is pushed
twice or discarded twice; and what was discarded has no tokens and never
ran. -/
theorem queue_accounted_of_reachable (h : accountsSystem.Reachable s) :
    s.client.pushed.filter (fun q => decide (q ∉ s.discarded)) =
        s.client.workerExecuted ++ s.client.worker.held ++ s.client.pendingQueue ∧
      s.client.pushed.Nodup ∧ s.discarded.Nodup ∧
      ∀ q ∈ s.discarded, q ∈ s.client.pushed ∧ q ∉ s.client.granted ∧
        q ∉ s.client.executed ∧ ¬ s.client.IsExecuting q := by
  have haccounted := accounted_of_reachable h
  have hbooks := books_of_reachable (reachable_client h)
  refine ⟨haccounted.order, haccounted.distinct, haccounted.once, fun q hq => ?_⟩
  have hungranted : q ∉ s.client.granted := by
    have hzero := (haccounted.gone q hq).2
    exact List.count_eq_zero.mp (by omega)
  refine ⟨haccounted.pushed q hq, hungranted, fun hexecuted => ?_, fun hexecuting => ?_⟩
  · exact hungranted (List.count_pos_iff.mp (hbooks.granted_of_executed hexecuted))
  · have hpaid := hbooks.paid q
    have hplace : 0 < s.client.executing q := by
      rcases hexecuting with ⟨t, hframe⟩ | hworker
      · have howner := hbooks.caller t _ hframe
        dsimp only at howner
        have hcount : 0 < tally AcquirePc.isExecuting (s.client.frames q.caller) q := by
          refine List.countP_pos_iff.mpr ⟨⟨q, .execute⟩, howner ▸ hframe, ?_⟩
          simp [AcquirePc.isExecuting]
        rw [executing]
        omega
      · rw [executing, hworker]
        simp [WorkerPc.paid]
    have hcount : s.client.granted.count q = 0 := List.count_eq_zero.mpr hungranted
    omega

/-- A call of `Acquire` by thread `0`, up to its return. -/
def refusedCall (callback : Callback) : List ClientAction :=
  [.acquire (.app 0) ⟨1, 1, some callback⟩, .acquireStep (.app 0) 0 false,
   .acquireStep (.app 0) 0 false, .acquireStep (.app 0) 0 false,
   .acquireStep (.app 0) 0 false]

/-- A turn of the worker that executes what it takes. -/
def workerTurn (now : TimePoint) : List ClientAction :=
  List.replicate 6 (.workerStep now false)

/-- Of two queued requests the first is executed, and the second discarded;
a third, queued while stopped, is executed after the next `Start`. -/
def restartedRun : List ClientAction :=
  [.start] ++ refusedCall 7 ++ refusedCall 8 ++
    [.updateTokenBuckets (fun _ => 0) ((∅ : OrderedMap ResourceId ℚ).insert 1 1)] ++
    workerTurn 0 ++ [.stop, .workerStep 0 false, .stop, .stop, .stop] ++ refusedCall 9 ++
    [.start, .updateTokenBuckets (fun _ => 0) ((∅ : OrderedMap ResourceId ℚ).insert 1 1)] ++
    workerTurn 0

theorem restartedRun_accounted :
    ∃ s, accountsSystem.runFrom accountsSystem.init restartedRun = some s ∧
      s.client.workerExecuted.map (·.callback) = [some 7, some 9] ∧
      s.discarded.map (·.callback) = [some 8] ∧
      s.client.pushed.filter (fun q => decide (q ∉ s.discarded)) =
        s.client.workerExecuted ++ s.client.worker.held ++ s.client.pendingQueue ∧
      s.client.pushed.Nodup ∧ s.discarded.Nodup ∧
      ∀ q ∈ s.discarded, q ∈ s.client.pushed ∧ q ∉ s.client.granted ∧
        q ∉ s.client.executed ∧ ¬ s.client.IsExecuting q := by
  have hrun : (accountsSystem.runFrom accountsSystem.init restartedRun).map
      (fun s => (s.client.workerExecuted.map (·.callback), s.discarded.map (·.callback))) =
        some ([some 7, some 9], [some 8]) := by decide +kernel
  obtain ⟨s, hs, hreached⟩ := Option.map_eq_some_iff.mp hrun
  simp only [Prod.mk.injEq] at hreached
  exact ⟨s, hs, hreached.1, hreached.2,
    queue_accounted_of_reachable (GuardedSystem.Reachable.runFrom .init hs)⟩

end Accounts

end Throttling
