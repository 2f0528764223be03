import Throttling.Client.Helpers.Sections
import Mathlib.Data.List.Count
/-!
# The queue, and what a grant pays for

A request is in one place at a time: in the call that made it, in the
queue, in the worker's hand, or done. Two counts of its places say so:
where it waits for tokens (`waiting`) and where it has them and is about
to be executed (`executing`). Each section moves a request from one place
to another, so it keeps the sums (`Books`), and on that rests that every
execution is paid for once. The order of the queue is an equation between
lists of its own (`InOrder`).
-/

namespace Throttling

/-- The request the worker has taken and neither executed nor put back. -/
def WorkerPc.held : WorkerPc → List Acquisition
  | .holding request => [request]
  | .consume request _ => [request]
  | .execute request => [request]
  | .requeue request => [request]
  | _ => []

/-- The one it has no tokens for. -/
def WorkerPc.unpaid : WorkerPc → List Acquisition
  | .holding request => [request]
  | .consume request _ => [request]
  | .requeue request => [request]
  | _ => []

/-- The one it has tokens for. -/
def WorkerPc.paid : WorkerPc → List Acquisition
  | .execute request => [request]
  | _ => []

/-- Whether a call still waits for its tokens. -/
def AcquirePc.isWaiting : AcquirePc → Bool
  | .lookup => true
  | .consume _ => true
  | .push => true
  | _ => false

/-- Whether it has them and is about to run its callback. -/
def AcquirePc.isExecuting : AcquirePc → Bool
  | .execute => true
  | _ => false

/-- How many of a thread's calls are for a request, at a place that meets
a test. -/
def tally (p : AcquirePc → Bool) (frames : List AcquireFrame) (q : Acquisition) : ℕ :=
  frames.countP fun frame => p frame.pc && decide (frame.request = q)

@[simp] theorem tally_nil (p : AcquirePc → Bool) (q : Acquisition) : tally p [] q = 0 := rfl

@[simp] theorem tally_cons (p : AcquirePc → Bool) (request : Acquisition) (pc : AcquirePc)
    (frames : List AcquireFrame) (q : Acquisition) :
    tally p (⟨request, pc⟩ :: frames) q =
      tally p frames q + if p pc = true ∧ request = q then 1 else 0 := by
  simp [tally, List.countP_cons]

namespace ClientThreads

/-- The places where a request waits for its tokens. -/
def waiting (s : ClientThreads) (q : Acquisition) : ℕ :=
  tally AcquirePc.isWaiting (s.frames q.caller) q + s.pendingQueue.count q +
    s.worker.unpaid.count q

/-- The places where it is about to be executed. -/
def executing (s : ClientThreads) (q : Acquisition) : ℕ :=
  tally AcquirePc.isExecuting (s.frames q.caller) q + s.worker.paid.count q

/-- **The queue is in order**: what was pushed is what the worker executed,
then what it holds, then what is pending. -/
def InOrder (s : ClientThreads) : Prop :=
  s.pushed = s.workerExecuted ++ s.worker.held ++ s.pendingQueue

/-- **The books balance.** -/
structure Books (s : ClientThreads) : Prop where
  /-- A thread's calls are its own. -/
  caller : ∀ t, ∀ frame ∈ s.frames t, frame.request.caller = t
  /-- A request waits in one place, or has been granted once. -/
  once : ∀ q, s.waiting q + s.granted.count q ≤ 1
  /-- A request not made yet does neither. -/
  fresh : ∀ q, s.tickets ≤ q.ticket → s.waiting q + s.granted.count q = 0
  /-- Each grant is executed or about to be. -/
  paid : ∀ q, s.granted.count q = s.executing q + s.executed.count q

variable {s s' : ClientThreads} {t : Caller} {q : Acquisition}

/-! ## One section -/

/-- What a section may do to the books: move requests between places,
grant the one it moves, and drop some. -/
structure Moves (s s' : ClientThreads) : Prop where
  caller : ∀ t, ∀ frame ∈ s'.frames t, frame.request.caller = t
  tickets : s'.tickets = s.tickets
  kept : ∀ q, s'.waiting q + s'.granted.count q ≤ s.waiting q + s.granted.count q
  paid : ∀ q, s'.granted.count q + (s.executing q + s.executed.count q) =
    s.granted.count q + (s'.executing q + s'.executed.count q)

theorem Books.moves (h : Books s) (hm : Moves s s') : Books s' where
  caller := hm.caller
  once q := le_trans (hm.kept q) (h.once q)
  fresh q hq := Nat.le_zero.mp (h.fresh q (hm.tickets ▸ hq) ▸ hm.kept q)
  paid q := by
    have hold := h.paid q
    have hnew := hm.paid q
    omega

theorem tally_append (p : AcquirePc → Bool) (inner outer : List AcquireFrame) (q : Acquisition) :
    tally p (inner ++ outer) q = tally p inner q + tally p outer q :=
  List.countP_append

/-- Calls for other requests do not count. -/
theorem tally_of_ne {p : AcquirePc → Bool} {frames : List AcquireFrame}
    (h : ∀ frame ∈ frames, frame.request ≠ q) : tally p frames q = 0 := by
  refine List.countP_eq_zero.mpr fun frame hframe => ?_
  simp [h frame hframe]

/-- **A section of a call** replaces the thread's innermost frame by one
for the same request, or by none. What it does elsewhere must be to that
request, and make up for the change of place. -/
theorem moves_of_frames {request : Acquisition} {pc : AcquirePc} {outer : List AcquireFrame}
    (inner : List AcquireFrame)
    (hcaller : ∀ t, ∀ frame ∈ s.frames t, frame.request.caller = t)
    (hframes : s.frames t = ⟨request, pc⟩ :: outer)
    (hframes' : s'.frames = Function.update s.frames t (inner ++ outer))
    (hinner : ∀ frame ∈ inner, frame.request = request)
    (htickets : s'.tickets = s.tickets) (hworker : s'.worker = s.worker)
    (hothers : ∀ q, q ≠ request → s'.pendingQueue.count q = s.pendingQueue.count q ∧
      s'.granted.count q = s.granted.count q ∧ s'.executed.count q = s.executed.count q)
    (hkept : tally AcquirePc.isWaiting inner request + s'.pendingQueue.count request +
        s'.granted.count request =
      tally AcquirePc.isWaiting [⟨request, pc⟩] request + s.pendingQueue.count request +
        s.granted.count request)
    (hpaid : s'.granted.count request + (tally AcquirePc.isExecuting [⟨request, pc⟩] request +
        s.executed.count request) =
      s.granted.count request + (tally AcquirePc.isExecuting inner request +
        s'.executed.count request)) : Moves s s' := by
  have howner : request.caller = t :=
    hcaller t ⟨request, pc⟩ (by rw [hframes]; exact List.mem_cons_self)
  have hmine : s'.frames t = inner ++ outer := by rw [hframes', Function.update_self]
  have htheirs : ∀ u, u ≠ t → s'.frames u = s.frames u := fun u hu => by
    rw [hframes', Function.update_of_ne hu]
  -- how a count of places changes, for the request at hand and for any other
  have hself : ∀ p, tally p (s'.frames request.caller) request +
      tally p [⟨request, pc⟩] request =
        tally p (s.frames request.caller) request + tally p inner request := by
    intro p
    rw [howner, hmine, hframes, tally_append, tally_cons, tally_cons, tally_nil]
    omega
  have hother : ∀ p q, q ≠ request →
      tally p (s'.frames q.caller) q = tally p (s.frames q.caller) q := by
    intro p q hq
    by_cases hu : q.caller = t
    · rw [hu, hmine, hframes, tally_append, tally_cons,
        tally_of_ne fun frame hframe => hinner frame hframe ▸ hq.symm]
      simp [hq.symm]
    · rw [htheirs _ hu]
  refine ⟨fun u frame hframe => ?_, htickets, fun q => ?_, fun q => ?_⟩
  · by_cases hu : u = t
    · subst hu
      rw [hmine, List.mem_append] at hframe
      rcases hframe with hin | hout
      · rw [hinner frame hin]; exact howner
      · exact hcaller u frame (by rw [hframes]; exact List.mem_cons_of_mem _ hout)
    · exact hcaller u frame (htheirs u hu ▸ hframe)
  · rw [waiting, waiting, hworker]
    by_cases hq : q = request
    · subst hq
      have hplaces := hself AcquirePc.isWaiting
      omega
    · have hplaces := hother AcquirePc.isWaiting q hq
      have hlists := hothers q hq
      omega
  · rw [executing, executing, hworker]
    by_cases hq : q = request
    · subst hq
      have hplaces := hself AcquirePc.isExecuting
      omega
    · have hplaces := hother AcquirePc.isExecuting q hq
      have hlists := hothers q hq
      omega

theorem count_append_singleton_of_ne {l : List Acquisition} {request : Acquisition}
    (h : q ≠ request) : (l ++ [request]).count q = l.count q := by
  simp [List.count_append, h.symm]

/-- Every section of a call keeps the books. -/
theorem moves_acquireSection (hcaller : ∀ t, ∀ frame ∈ s.frames t, frame.request.caller = t)
    (h : AcquireSection s t s') : Moves s s' := by
  cases h with
  | lookup request outer hframes =>
    exact moves_of_frames [⟨request, .consume (s.registered request.resourceId)⟩] hcaller hframes
      rfl (by simp) rfl rfl (fun q _ => ⟨rfl, rfl, rfl⟩)
      (by simp [setFrames, AcquirePc.isWaiting]) (by simp [setFrames, AcquirePc.isExecuting])
  | refused request bucket outer hframes buckets hsame =>
    exact moves_of_frames [⟨request, .push⟩] hcaller hframes rfl (by simp) rfl rfl
      (fun q _ => ⟨rfl, rfl, rfl⟩)
      (by simp [setFrames, AcquirePc.isWaiting]) (by simp [setFrames, AcquirePc.isExecuting])
  | granted request bucket outer hframes buckets hsame =>
    exact moves_of_frames [⟨request, .execute⟩] hcaller hframes rfl (by simp) rfl rfl
      (fun q hq => ⟨rfl, count_append_singleton_of_ne hq, rfl⟩)
      (by simp [setFrames, AcquirePc.isWaiting]; omega)
      (by simp [setFrames, AcquirePc.isExecuting]; omega)
  | callback request outer hframes hcallback =>
    exact moves_of_frames [⟨request, .running⟩] hcaller hframes rfl (by simp) rfl rfl
      (fun q hq => ⟨rfl, rfl, count_append_singleton_of_ne hq⟩)
      (by simp [setFrames, AcquirePc.isWaiting])
      (by simp [setFrames, AcquirePc.isExecuting]; omega)
  | noCallback request outer hframes =>
    exact moves_of_frames [] hcaller hframes rfl (by simp) rfl rfl
      (fun q hq => ⟨rfl, rfl, count_append_singleton_of_ne hq⟩)
      (by simp [setFrames, AcquirePc.isWaiting])
      (by simp [setFrames, AcquirePc.isExecuting]; omega)
  | returned request pc outer hframes hpc =>
    exact moves_of_frames [] hcaller hframes rfl (by simp) rfl rfl (fun q _ => ⟨rfl, rfl, rfl⟩)
      (by rcases hpc with rfl | rfl <;> simp [setFrames, AcquirePc.isWaiting])
      (by rcases hpc with rfl | rfl <;> simp [setFrames, AcquirePc.isExecuting])
  | pushed request outer hframes =>
    exact moves_of_frames [⟨request, .notifying⟩] hcaller hframes rfl (by simp) rfl rfl
      (fun q hq => ⟨count_append_singleton_of_ne hq, rfl, rfl⟩)
      (by simp [setFrames, AcquirePc.isWaiting]; omega)
      (by simp [setFrames, AcquirePc.isExecuting])

/-- **A section of the worker** moves the request in its hand, or to or
from the queue. -/
theorem moves_of_worker (hcaller : ∀ t, ∀ frame ∈ s.frames t, frame.request.caller = t)
    (hframes : s'.frames = s.frames) (htickets : s'.tickets = s.tickets)
    (hkept : ∀ q, s'.pendingQueue.count q + s'.worker.unpaid.count q + s'.granted.count q =
      s.pendingQueue.count q + s.worker.unpaid.count q + s.granted.count q)
    (hpaid : ∀ q, s'.granted.count q + (s.worker.paid.count q + s.executed.count q) =
      s.granted.count q + (s'.worker.paid.count q + s'.executed.count q)) : Moves s s' := by
  refine ⟨hframes ▸ hcaller, htickets, fun q => ?_, fun q => ?_⟩
  · rw [waiting, waiting, hframes]
    have := hkept q
    omega
  · rw [executing, executing, hframes]
    have := hpaid q
    omega

/-- Every section of the worker keeps the books. -/
theorem moves_workerSection (hcaller : ∀ t, ∀ frame ∈ s.frames t, frame.request.caller = t)
    (h : WorkerSection s s') : Moves s s' := by
  cases h with
  | turn worker hworker hworker' =>
    have hempty : s.worker.unpaid = [] ∧ s.worker.paid = [] := by
      rcases hworker with h | h | h <;> rw [h] <;> exact ⟨rfl, rfl⟩
    have hempty' : worker.unpaid = [] ∧ worker.paid = [] := by
      rcases hworker' with h | h | h <;> rw [h] <;> exact ⟨rfl, rfl⟩
    exact moves_of_worker hcaller rfl rfl (fun q => by rw [hempty.1, hempty'.1])
      (fun q => by rw [hempty.2, hempty'.2])
  | taken request rest hworker hqueue =>
    exact moves_of_worker hcaller rfl rfl
      (fun q => by simp [hworker, hqueue, WorkerPc.unpaid, List.count_cons])
      (fun q => by simp [hworker, WorkerPc.paid])
  | lookup request hworker =>
    exact moves_of_worker hcaller rfl rfl (fun q => by rw [hworker]; rfl)
      (fun q => by rw [hworker]; rfl)
  | refused request bucket hworker buckets hsame =>
    exact moves_of_worker hcaller rfl rfl (fun q => by rw [hworker]; rfl)
      (fun q => by rw [hworker]; rfl)
  | granted request bucket hworker buckets hsame =>
    exact moves_of_worker hcaller rfl rfl
      (fun q => by simp [hworker, WorkerPc.unpaid, List.count_append]; omega)
      (fun q => by simp [hworker, WorkerPc.paid, List.count_append]; omega)
  | executed request hworker worker hworker' =>
    rcases hworker' with rfl | rfl <;>
      exact moves_of_worker hcaller rfl rfl (fun q => by rw [hworker]; rfl)
        (fun q => by simp [hworker, WorkerPc.paid, List.count_append]; omega)
  | requeued request hworker =>
    exact moves_of_worker hcaller rfl rfl
      (fun q => by simp [hworker, WorkerPc.unpaid, List.count_cons])
      (fun q => by simp [hworker, WorkerPc.paid])

/-! ## Every step -/

/-- A call makes a request that waits in it, with a ticket no other has. -/
theorem books_acquire (h : Books s) {request : PendingRequest}
    (hstep : s.acquire t request = some s') : Books s' := by
  unfold acquire at hstep
  split at hstep
  swap
  · cases hstep
  obtain rfl := Option.some.inj hstep
  set made : Acquisition := { request with ticket := s.tickets, caller := t } with hmade
  have hnew := h.fresh made (le_refl s.tickets)
  set s' := { s with tickets := s.tickets + 1 }.setFrames t (⟨made, .lookup⟩ :: s.frames t)
    with hs'
  have hframes : ∀ p q, tally p (s'.frames q.caller) q =
      tally p (s.frames q.caller) q + if p .lookup = true ∧ made = q then 1 else 0 := by
    intro p q
    by_cases hq : q.caller = t
    · simp only [hs', setFrames, hq, Function.update_self, tally_cons]
    · have hne : made ≠ q := fun heq => hq (by rw [← heq, hmade])
      simp [hs', setFrames, Function.update_of_ne hq, hne]
  -- the new request waits in its call, and nothing else changes place
  have hwaiting : ∀ q, s'.waiting q = s.waiting q + if made = q then 1 else 0 := by
    intro q
    rw [waiting, waiting, hframes]
    simp only [AcquirePc.isWaiting, true_and]
    change _ + s.pendingQueue.count q + s.worker.unpaid.count q = _
    omega
  have hexecuting : ∀ q, s'.executing q = s.executing q := by
    intro q
    rw [executing, executing, hframes]
    simp only [AcquirePc.isExecuting, Bool.false_eq_true, false_and, if_false, add_zero]
    rfl
  refine ⟨fun u frame hframe => ?_, fun q => ?_, fun q hq => ?_, fun q => ?_⟩
  · by_cases hu : u = t
    · subst hu
      have hmine : s'.frames u = ⟨made, .lookup⟩ :: s.frames u := Function.update_self _ _ _
      rw [hmine, List.mem_cons] at hframe
      rcases hframe with rfl | hold
      · rfl
      · exact h.caller u frame hold
    · have htheirs : s'.frames u = s.frames u := Function.update_of_ne hu _ _
      exact h.caller u frame (htheirs ▸ hframe)
  · rw [hwaiting]
    change _ + s.granted.count q ≤ 1
    by_cases hq : made = q
    · subst hq
      rw [if_pos rfl]
      omega
    · rw [if_neg hq]
      exact h.once q
  · -- the ticket of the new request is taken now
    have hq' : s.tickets + 1 ≤ q.ticket := hq
    have hne : made ≠ q := fun heq => by
      rw [← heq, hmade] at hq'
      exact absurd hq' (by simp)
    rw [hwaiting, if_neg hne]
    exact h.fresh q (by omega)
  · rw [hexecuting]
    exact h.paid q

/-- The steps that touch no request, but for the clearing of the queue. -/
theorem moves_of_same (h : Books s)
    (hs' : s'.frames = s.frames ∧ s'.tickets = s.tickets ∧ s'.granted = s.granted ∧
      s'.executed = s.executed)
    (hqueue : ∀ q, s'.pendingQueue.count q ≤ s.pendingQueue.count q)
    (hunpaid : s'.worker.unpaid = s.worker.unpaid) (hpaid : s'.worker.paid = s.worker.paid) :
    Moves s s' := by
  obtain ⟨hframes, htickets, hgranted, hexecuted⟩ := hs'
  refine ⟨hframes ▸ h.caller, htickets, fun q => ?_, fun q => ?_⟩
  · rw [waiting, waiting, hframes, hunpaid, hgranted]
    have := hqueue q
    omega
  · rw [executing, executing, hframes, hpaid, hgranted, hexecuted]

theorem moves_controlSection (h : Books s) (hstep : ControlSection s s') : Moves s s' := by
  cases hstep with
  | started hworker =>
    exact moves_of_same h ⟨rfl, rfl, rfl, rfl⟩ (fun _ => le_rfl) (by rw [hworker]; rfl)
      (by rw [hworker]; rfl)
  | flagged => exact moves_of_same h ⟨rfl, rfl, rfl, rfl⟩ (fun _ => le_rfl) rfl rfl
  | joined hworker =>
    exact moves_of_same h ⟨rfl, rfl, rfl, rfl⟩ (fun _ => le_rfl) (by rw [hworker]; rfl)
      (by rw [hworker]; rfl)
  | clearedBuckets hstop =>
    exact moves_of_same h ⟨rfl, rfl, rfl, rfl⟩ (fun _ => le_rfl) rfl rfl
  | clearedQueue =>
    exact moves_of_same h ⟨rfl, rfl, rfl, rfl⟩ (fun _ => Nat.zero_le _) rfl rfl

/-- **Every step keeps the books.** -/
theorem books_step {a : ClientAction} (h : Books s) (hstep : s.step a = some s') : Books s' := by
  cases a with
  | start => exact h.moves (moves_controlSection h (controlSection_of_start hstep))
  | stop => exact h.moves (moves_controlSection h (controlSection_of_stop hstep))
  | updateTokenBuckets now allocations =>
    obtain rfl := Option.some.inj hstep
    exact h.moves (moves_of_same h ⟨rfl, rfl, rfl, rfl⟩ (fun _ => le_rfl) rfl rfl)
  | acquire caller request => exact books_acquire h hstep
  | acquireStep caller now freed =>
    exact h.moves (moves_acquireSection h.caller (acquireSection_of_step hstep))
  | workerStep now freed =>
    exact h.moves (moves_workerSection h.caller (workerSection_of_step hstep))

theorem books_of_reachable (h : clientSystem.Reachable s) : Books s := by
  refine GuardedSystem.Reachable.invariant (P := Books) ?_ (fun s a s' hs hstep => ?_) h
  · refine ⟨fun t frame hframe => ?_, fun q => ?_, fun q _ => rfl, fun q => rfl⟩
    · cases hframe
    · exact Nat.zero_le 1
  · exact books_step hs hstep

/-! ## The order -/

theorem inOrder_acquireSection (h : InOrder s) (hstep : AcquireSection s t s') : InOrder s' := by
  cases hstep with
  | pushed request outer hframes =>
    change s.pushed ++ [request] =
      s.workerExecuted ++ s.worker.held ++ (s.pendingQueue ++ [request])
    rw [← List.append_assoc, ← h]
  | _ => exact h

theorem inOrder_workerSection (h : InOrder s) (hstep : WorkerSection s s') : InOrder s' := by
  unfold InOrder at h
  cases hstep with
  | turn worker hworker hworker' =>
    have hempty : s.worker.held = [] := by
      rcases hworker with h | h | h <;> rw [h] <;> rfl
    have hempty' : worker.held = [] := by
      rcases hworker' with h | h | h <;> rw [h] <;> rfl
    change s.pushed = s.workerExecuted ++ worker.held ++ s.pendingQueue
    rw [hempty', h, hempty]
  | taken request rest hworker hqueue =>
    rw [hworker, hqueue] at h
    simpa [InOrder, WorkerPc.held] using h
  | lookup request hworker => rw [hworker] at h; exact h
  | refused request bucket hworker buckets hsame => rw [hworker] at h; exact h
  | granted request bucket hworker buckets hsame => rw [hworker] at h; exact h
  | executed request hworker worker hworker' =>
    rw [hworker] at h
    rcases hworker' with rfl | rfl <;> simpa [InOrder, WorkerPc.held] using h
  | requeued request hworker =>
    rw [hworker] at h
    simpa [InOrder, WorkerPc.held] using h

theorem inOrder_controlSection (h : s.queueCleared = false → InOrder s)
    (hstep : ControlSection s s') : s'.queueCleared = false → InOrder s' := by
  intro hcleared
  cases hstep with
  | started hworker =>
    have hold := h hcleared
    rw [InOrder, hworker] at hold
    exact hold
  | flagged => exact h hcleared
  | joined hworker =>
    have hold := h hcleared
    rw [InOrder, hworker] at hold
    exact hold
  | clearedBuckets hstop => exact h hcleared
  | clearedQueue => cases hcleared

theorem inOrder_step {a : ClientAction} (h : s.queueCleared = false → InOrder s)
    (hstep : s.step a = some s') : s'.queueCleared = false → InOrder s' := by
  intro hcleared
  cases a with
  | start => exact inOrder_controlSection h (controlSection_of_start hstep) hcleared
  | stop => exact inOrder_controlSection h (controlSection_of_stop hstep) hcleared
  | updateTokenBuckets now allocations =>
    obtain rfl := Option.some.inj hstep
    exact h hcleared
  | acquire caller request =>
    simp only [step, acquire] at hstep
    split at hstep
    · obtain rfl := Option.some.inj hstep
      exact h hcleared
    · cases hstep
  | acquireStep caller now freed =>
    have hsec := acquireSection_of_step hstep
    have hkept : s'.queueCleared = s.queueCleared := by cases hsec <;> rfl
    exact inOrder_acquireSection (h (hkept ▸ hcleared)) hsec
  | workerStep now freed =>
    have hsec := workerSection_of_step hstep
    have hkept : s'.queueCleared = s.queueCleared := by cases hsec <;> rfl
    exact inOrder_workerSection (h (hkept ▸ hcleared)) hsec

/-! ## The result -/

/-- The requests whose callbacks were started. -/
def started (s : ClientThreads) : List Acquisition :=
  s.executed.filter fun request => request.callback.isSome

/-- Whether some thread is between a request's grant and its callback. -/
def IsExecuting (s : ClientThreads) (q : Acquisition) : Prop :=
  (∃ t, ⟨q, .execute⟩ ∈ s.frames t) ∨ s.worker = .execute q

theorem executing_eq_zero (h : ¬ s.IsExecuting q) : s.executing q = 0 := by
  have hframes : tally AcquirePc.isExecuting (s.frames q.caller) q = 0 := by
    refine List.countP_eq_zero.mpr fun frame hframe hboth => h (.inl ⟨q.caller, ?_⟩)
    obtain ⟨request, pc⟩ := frame
    simp only [Bool.and_eq_true, decide_eq_true_eq] at hboth
    obtain ⟨hpc, rfl⟩ := hboth
    cases pc with
    | execute => exact hframe
    | _ => cases hpc
  have hworker : s.worker.paid.count q = 0 := by
    refine List.count_eq_zero.mpr fun hmem => h (.inr ?_)
    cases hpc : s.worker with
    | execute request =>
      rw [hpc] at hmem
      rw [List.mem_singleton.mp hmem]
    | _ =>
      rw [hpc] at hmem
      cases hmem
  rw [executing, hframes, hworker]

/-- **No queued request is lost, duplicated or reordered, and every
execution is paid for once**, in every interleaving, whoever calls
`Acquire`. Until a `Stop` clears the queue, what was pushed is what the
worker executed, then what it holds, then what is pending. A request is
granted at most once, and started exactly when it was granted and has a
callback, unless a thread is between the two. -/
theorem inOrder_and_paid_of_reachable (h : clientSystem.Reachable s) :
    (s.queueCleared = false →
      s.pushed = s.workerExecuted ++ s.worker.held ++ s.pendingQueue) ∧
    ∀ q, s.granted.count q ≤ 1 ∧ s.started.count q ≤ 1 ∧
      (¬ s.IsExecuting q → (q ∈ s.started ↔ s.granted.count q = 1 ∧ q.callback.isSome = true)) := by
  refine ⟨?_, fun q => ?_⟩
  · exact GuardedSystem.Reachable.invariant (M := clientSystem)
      (P := fun s => s.queueCleared = false → InOrder s)
      (fun _ => rfl) (fun s a s' hs hstep => inOrder_step hs hstep) h
  · have hbooks := books_of_reachable h
    have honce := hbooks.once q
    have hpaid := hbooks.paid q
    have hstarted : s.started.count q ≤ s.executed.count q :=
      List.Sublist.count_le _ List.filter_sublist
    -- with no thread between the two, what was granted is what was executed
    refine ⟨by omega, by omega, fun hnot => ?_⟩
    have hzero := executing_eq_zero hnot
    rw [started, List.mem_filter, ← List.count_pos_iff]
    constructor
    · rintro ⟨hpos, hcallback⟩
      exact ⟨by omega, hcallback⟩
    · rintro ⟨hone, hcallback⟩
      exact ⟨by omega, hcallback⟩

/-- A callback that acquires again, is refused and queued, and is executed
by the worker at its second attempt. -/
def nestedRun : List ClientAction :=
  [.updateTokenBuckets (fun _ => 0) ((∅ : OrderedMap ResourceId ℚ).insert 1 2), .start,
   .acquire (.app 0) ⟨1, 2, some 7⟩, .acquireStep (.app 0) 0 false,
   .acquireStep (.app 0) 0 false, .acquireStep (.app 0) 0 false,
   .acquire (.app 0) ⟨1, 1, some 8⟩, .acquireStep (.app 0) 0 false,
   .acquireStep (.app 0) 0 false, .acquireStep (.app 0) 0 false, .acquireStep (.app 0) 0 false,
   .workerStep 0 false, .workerStep 0 false, .workerStep 0 false, .workerStep 0 false,
   .workerStep 0 false, .workerStep 0 false, .workerStep 0 false, .workerStep 0 false,
   .workerStep 1000000000 false, .workerStep 1000000000 false]

theorem nestedRun_inOrder_and_paid :
    ∃ s, clientSystem.runFrom clientSystem.init nestedRun = some s ∧
      (s.started.map (·.callback), s.worker) = ([some 7, some 8], .running) ∧
      (s.queueCleared = false →
        s.pushed = s.workerExecuted ++ s.worker.held ++ s.pendingQueue) ∧
      ∀ q, s.granted.count q ≤ 1 ∧ s.started.count q ≤ 1 ∧
        (¬ s.IsExecuting q →
          (q ∈ s.started ↔ s.granted.count q = 1 ∧ q.callback.isSome = true)) := by
  have hrun : (clientSystem.runFrom clientSystem.init nestedRun).map
      (fun s => (s.started.map (·.callback), s.worker)) =
        some ([some 7, some 8], .running) := by decide +kernel
  obtain ⟨s, hs, hreached⟩ := Option.map_eq_some_iff.mp hrun
  exact ⟨s, hs, hreached,
    inOrder_and_paid_of_reachable (GuardedSystem.Reachable.runFrom .init hs)⟩

end ClientThreads

end Throttling
