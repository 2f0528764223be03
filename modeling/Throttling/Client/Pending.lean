import Throttling.Client.Queue
import Mathlib.Data.Set.Card
/-!
# What `GetPendingCount` counts

A call of `Acquire` is known by its number, the ticket of the request it
makes. It waits once it has returned without its tokens: no thread is in
it any more and the request was not granted. In a client no `Stop` has
touched, the requests that wait so are those in the queue and the one in
the worker's hand, each once, but for those whose call has queued them and
is about to return (`ncard_waitingCalls`). So the queue's length misses the
one the worker holds, and has those of calls that have not returned yet.
-/

namespace Throttling

namespace ClientThreads

/-- **The calls that wait**, by number: made, returned, and without their
tokens. -/
def waitingCalls (s : ClientThreads) : Set ℕ :=
  {k | k < s.tickets ∧ (∀ t, ∀ frame ∈ s.frames t, frame.request.ticket ≠ k) ∧
    ∀ request ∈ s.granted, request.ticket ≠ k}

/-- No `Stop` begins. -/
def NoStop (_ : ClientThreads) (a : ClientAction) : Prop := a ≠ .stop

/-- Whether some thread is in the call that made a request. -/
def InCall (s : ClientThreads) (q : Acquisition) : Prop :=
  ∃ t, ∃ frame ∈ s.frames t, frame.request = q

/-- Whether a request is anywhere: in its call, in the queue, in the
worker's hand, or granted. -/
def Known (s : ClientThreads) (q : Acquisition) : Prop :=
  s.InCall q ∨ q ∈ s.pendingQueue ∨ q ∈ s.worker.unpaid ∨ q ∈ s.granted

/-- **Every call is accounted for**, under its own number. -/
structure Accounted (s : ClientThreads) : Prop where
  /-- No call is lost. -/
  made : ∀ k < s.tickets, ∃ q, s.Known q ∧ q.ticket = k
  /-- No two have one number. -/
  unique : ∀ q q', s.Known q → s.Known q' → q.ticket = q'.ticket → q = q'
  /-- And none has a number not given yet. -/
  given : ∀ q, s.Known q → q.ticket < s.tickets
  /-- A call past its `TryConsume` with the tokens was granted them. -/
  paid : ∀ t, ∀ frame ∈ s.frames t, frame.pc = .execute ∨ frame.pc = .running →
    frame.request ∈ s.granted
  /-- What a call has queued is there, in the worker's hand or granted. -/
  queued : ∀ t, ∀ frame ∈ s.frames t, frame.pc = .notifying →
    frame.request ∈ s.pendingQueue ∨ frame.request ∈ s.worker.unpaid ∨ frame.request ∈ s.granted

variable {s s' : ClientThreads} {t : Caller} {q : Acquisition}

/-! ## One section -/

/-- **What a section may do to what is known**: nothing, but for where. -/
structure Keeps (s s' : ClientThreads) : Prop where
  tickets : s'.tickets = s.tickets
  known : ∀ q, s'.Known q ↔ s.Known q
  paid : ∀ t, ∀ frame ∈ s'.frames t, frame.pc = .execute ∨ frame.pc = .running →
    frame.request ∈ s'.granted
  queued : ∀ t, ∀ frame ∈ s'.frames t, frame.pc = .notifying →
    frame.request ∈ s'.pendingQueue ∨ frame.request ∈ s'.worker.unpaid ∨
      frame.request ∈ s'.granted

theorem Accounted.keeps (h : Accounted s) (hk : Keeps s s') : Accounted s' where
  made k hlt := by
    obtain ⟨q, hq, hticket⟩ := h.made k (hk.tickets ▸ hlt)
    exact ⟨q, (hk.known q).mpr hq, hticket⟩
  unique q q' hq hq' := h.unique q q' ((hk.known q).mp hq) ((hk.known q').mp hq')
  given q hq := hk.tickets ▸ h.given q ((hk.known q).mp hq)
  paid := hk.paid
  queued := hk.queued

/-- **The calls threads are in** when one thread's innermost frame is
replaced: the one it is for and the others. -/
theorem inCall_split {frame : AcquireFrame} {inner outer : List AcquireFrame}
    (hframes : s.frames t = frame :: outer)
    (hframes' : s'.frames = Function.update s.frames t (inner ++ outer))
    (hinner : ∀ f ∈ inner, f.request = frame.request) :
    ∃ others : Acquisition → Prop, (∀ q, s.InCall q ↔ q = frame.request ∨ others q) ∧
      ∀ q, s'.InCall q ↔ (inner ≠ [] ∧ q = frame.request) ∨ others q := by
  have hmine : s'.frames t = inner ++ outer := by rw [hframes', Function.update_self]
  have htheirs : ∀ u, u ≠ t → s'.frames u = s.frames u := fun u hu => by
    rw [hframes', Function.update_of_ne hu]
  refine ⟨fun q => (∃ f ∈ outer, f.request = q) ∨ ∃ u, u ≠ t ∧ ∃ f ∈ s.frames u, f.request = q,
    fun q => ⟨?_, ?_⟩, fun q => ⟨?_, ?_⟩⟩
  · rintro ⟨u, f, hf, rfl⟩
    by_cases hu : u = t
    · rw [hu, hframes, List.mem_cons] at hf
      rcases hf with rfl | hout
      · exact .inl rfl
      · exact .inr (.inl ⟨f, hout, rfl⟩)
    · exact .inr (.inr ⟨u, hu, f, hf, rfl⟩)
  · rintro (rfl | ⟨f, hf, rfl⟩ | ⟨u, hu, f, hf, rfl⟩)
    · exact ⟨t, frame, hframes ▸ List.mem_cons_self, rfl⟩
    · exact ⟨t, f, hframes ▸ List.mem_cons_of_mem _ hf, rfl⟩
    · exact ⟨u, f, hf, rfl⟩
  · rintro ⟨u, f, hf, rfl⟩
    by_cases hu : u = t
    · rw [hu, hmine, List.mem_append] at hf
      rcases hf with hin | hout
      · exact .inl ⟨List.ne_nil_of_mem hin, hinner f hin⟩
      · exact .inr (.inl ⟨f, hout, rfl⟩)
    · exact .inr (.inr ⟨u, hu, f, htheirs u hu ▸ hf, rfl⟩)
  · rintro (⟨hne, rfl⟩ | ⟨f, hf, rfl⟩ | ⟨u, hu, f, hf, rfl⟩)
    · obtain ⟨f, hf⟩ := List.exists_mem_of_ne_nil inner hne
      exact ⟨t, f, hmine ▸ List.mem_append_left _ hf, hinner f hf⟩
    · exact ⟨t, f, hmine ▸ List.mem_append_right _ hf, rfl⟩
    · exact ⟨u, f, htheirs u hu ▸ hf, rfl⟩

/-- **A section of a call** keeps what is known if the request it is for is
found again: in the call, in the queue, in the worker's hand or among the
granted. -/
theorem keeps_of_frames (h : Accounted s) {frame : AcquireFrame} {outer : List AcquireFrame}
    (inner : List AcquireFrame) (hframes : s.frames t = frame :: outer)
    (hframes' : s'.frames = Function.update s.frames t (inner ++ outer))
    (hinner : ∀ f ∈ inner, f.request = frame.request)
    (htickets : s'.tickets = s.tickets) (hworker : s'.worker = s.worker)
    (hplaces : ∀ q, ((inner ≠ [] ∧ q = frame.request) ∨ q ∈ s'.pendingQueue ∨
        q ∈ s.worker.unpaid ∨ q ∈ s'.granted) ↔
      (q = frame.request ∨ q ∈ s.pendingQueue ∨ q ∈ s.worker.unpaid ∨ q ∈ s.granted))
    (hpending : ∀ q ∈ s.pendingQueue, q ∈ s'.pendingQueue)
    (hgranted : ∀ q ∈ s.granted, q ∈ s'.granted)
    (hpaid : ∀ f ∈ inner, f.pc = .execute ∨ f.pc = .running → f.request ∈ s'.granted)
    (hqueued : ∀ f ∈ inner, f.pc = .notifying → f.request ∈ s'.pendingQueue) :
    Keeps s s' := by
  obtain ⟨others, hbefore, hafter⟩ := inCall_split hframes hframes' hinner
  have hframe : ∀ u, ∀ f ∈ s'.frames u, f ∈ inner ∨ f ∈ s.frames u := by
    intro u f hf
    by_cases hu : u = t
    · rw [hu, hframes', Function.update_self, List.mem_append] at hf
      rcases hf with hin | hout
      · exact .inl hin
      · rw [hu, hframes]
        exact .inr (List.mem_cons_of_mem _ hout)
    · rw [hframes', Function.update_of_ne hu] at hf
      exact .inr hf
  refine ⟨htickets, fun q => ?_, fun u f hf hpc => ?_, fun u f hf hpc => ?_⟩
  · -- the other calls are as they were
    rw [Known, Known, hbefore, hafter, hworker, or_right_comm (b := others q), hplaces q,
      or_right_comm (b := others q)]
  · rcases hframe u f hf with hin | hold
    · exact hpaid f hin hpc
    · exact hgranted _ (h.paid u f hold hpc)
  · rcases hframe u f hf with hin | hold
    · exact .inl (hqueued f hin hpc)
    · rw [hworker]
      rcases h.queued u f hold hpc with hpend | hhand | hmem
      · exact .inl (hpending _ hpend)
      · exact .inr (.inl hhand)
      · exact .inr (.inr (hgranted _ hmem))

/-- **A call that is over** leaves its request in the queue, in the worker's
hand or granted. -/
theorem keeps_of_returned (h : Accounted s) {request : Acquisition} {pc : AcquirePc}
    {outer : List AcquireFrame} (hframes : s.frames t = ⟨request, pc⟩ :: outer)
    (hpc : pc = .execute ∨ pc = .running ∨ pc = .notifying)
    (hframes' : s'.frames = Function.update s.frames t outer)
    (htickets : s'.tickets = s.tickets) (hworker : s'.worker = s.worker)
    (hpending : s'.pendingQueue = s.pendingQueue) (hgranted : s'.granted = s.granted) :
    Keeps s s' := by
  have hmem : ⟨request, pc⟩ ∈ s.frames t := hframes ▸ List.mem_cons_self
  have hleft : request ∈ s.pendingQueue ∨ request ∈ s.worker.unpaid ∨ request ∈ s.granted := by
    rcases hpc with hpc | hpc | hpc
    · exact .inr (.inr (h.paid t _ hmem (.inl hpc)))
    · exact .inr (.inr (h.paid t _ hmem (.inr hpc)))
    · exact h.queued t _ hmem hpc
  refine keeps_of_frames h [] hframes hframes' (by simp) htickets hworker (fun q => ?_)
    (fun q hq => hpending ▸ hq) (fun q hq => hgranted ▸ hq) (by simp) (by simp)
  rw [hpending, hgranted]
  constructor
  · rintro (hnone | hq)
    · exact absurd rfl hnone.1
    · exact .inr hq
  · rintro (rfl | hq)
    · exact .inr hleft
    · exact .inr hq

theorem keeps_acquireSection (h : Accounted s) (hstep : AcquireSection s t s') : Keeps s s' := by
  cases hstep with
  | lookup request outer hframes =>
    exact keeps_of_frames h [⟨request, .consume (s.registered request.resourceId)⟩] hframes rfl
      (by simp) rfl rfl (fun q => by simp [setFrames]) (fun q hq => hq) (fun q hq => hq) (by simp)
      (by simp)
  | refused request bucket outer hframes buckets hsame =>
    exact keeps_of_frames h [⟨request, .push⟩] hframes rfl (by simp) rfl rfl
      (fun q => by simp [setFrames]) (fun q hq => hq) (fun q hq => hq) (by simp) (by simp)
  | granted request bucket outer hframes buckets hsame =>
    refine keeps_of_frames h [⟨request, .execute⟩] hframes rfl (by simp) rfl rfl (fun q => ?_)
      (fun q hq => hq) (fun q hq => List.mem_append_left _ hq) (by simp [setFrames]) (by simp)
    simp only [setFrames, List.mem_append, List.mem_singleton, ne_eq, List.cons_ne_nil,
      not_false_eq_true, true_and]
    tauto
  | callback request outer hframes hcallback =>
    have hgranted := h.paid t ⟨request, .execute⟩ (hframes ▸ List.mem_cons_self) (.inl rfl)
    exact keeps_of_frames h [⟨request, .running⟩] hframes rfl (by simp) rfl rfl
      (fun q => by simp [setFrames]) (fun q hq => hq) (fun q hq => hq)
      (by simpa [setFrames] using hgranted) (by simp)
  | noCallback request outer hframes =>
    exact keeps_of_returned h hframes (.inl rfl) rfl rfl rfl rfl rfl
  | returned request pc outer hframes hpc =>
    exact keeps_of_returned h hframes (.inr hpc) rfl rfl rfl rfl rfl
  | pushed request outer hframes =>
    refine keeps_of_frames h [⟨request, .notifying⟩] hframes rfl (by simp) rfl rfl (fun q => ?_)
      (fun q hq => List.mem_append_left _ hq) (fun q hq => hq) (by simp) (by simp [setFrames])
    simp only [setFrames, List.mem_append, List.mem_singleton, ne_eq, List.cons_ne_nil,
      not_false_eq_true, true_and]
    tauto

/-- **A section of the worker** moves the request in its hand. -/
theorem keeps_of_worker (h : Accounted s) (hframes : s'.frames = s.frames)
    (htickets : s'.tickets = s.tickets) (hgranted : ∀ q ∈ s.granted, q ∈ s'.granted)
    (hplaces : ∀ q, (q ∈ s'.pendingQueue ∨ q ∈ s'.worker.unpaid ∨ q ∈ s'.granted) ↔
      (q ∈ s.pendingQueue ∨ q ∈ s.worker.unpaid ∨ q ∈ s.granted)) : Keeps s s' := by
  refine ⟨htickets, fun q => ?_, fun u f hf hpc => ?_, fun u f hf hpc => ?_⟩
  · have hcall : s'.InCall q ↔ s.InCall q := by rw [InCall, InCall, hframes]
    rw [Known, Known, hcall, hplaces q]
  · rw [hframes] at hf
    exact hgranted _ (h.paid u f hf hpc)
  · rw [hframes] at hf
    exact (hplaces _).mpr (h.queued u f hf hpc)

theorem keeps_workerSection (h : Accounted s) (hstep : WorkerSection s s') : Keeps s s' := by
  cases hstep with
  | turn worker hworker hworker' =>
    have hempty : s.worker.unpaid = [] := by
      rcases hworker with h | h | h <;> rw [h] <;> rfl
    have hempty' : worker.unpaid = [] := by
      rcases hworker' with h | h | h <;> rw [h] <;> rfl
    exact keeps_of_worker h rfl rfl (fun q hq => hq) (fun q => by rw [hempty, hempty'])
  | taken request rest hworker hqueue =>
    refine keeps_of_worker h rfl rfl (fun q hq => hq) (fun q => ?_)
    simp only [hworker, hqueue, WorkerPc.unpaid, List.mem_cons, List.not_mem_nil]
    tauto
  | lookup request hworker =>
    exact keeps_of_worker h rfl rfl (fun q hq => hq) (fun q => by rw [hworker]; rfl)
  | refused request bucket hworker buckets hsame =>
    exact keeps_of_worker h rfl rfl (fun q hq => hq) (fun q => by rw [hworker]; rfl)
  | granted request bucket hworker buckets hsame =>
    refine keeps_of_worker h rfl rfl (fun q hq => List.mem_append_left _ hq) (fun q => ?_)
    simp only [hworker, WorkerPc.unpaid, List.mem_append, List.mem_singleton, List.not_mem_nil]
    tauto
  | executed request hworker worker hworker' =>
    have hempty : worker.unpaid = [] := by
      rcases hworker' with rfl | rfl <;> rfl
    exact keeps_of_worker h rfl rfl (fun q hq => hq) (fun q => by rw [hworker, hempty]; rfl)
  | requeued request hworker =>
    refine keeps_of_worker h rfl rfl (fun q hq => hq) (fun q => ?_)
    simp only [hworker, WorkerPc.unpaid, List.mem_cons, List.not_mem_nil]
    tauto

/-! ## Every step -/

/-- A call makes one more request known, under the next number. -/
theorem accounted_acquire (h : Accounted s) {request : PendingRequest}
    (hstep : s.acquire t request = some s') : Accounted s' := by
  unfold acquire at hstep
  split at hstep
  swap
  · cases hstep
  obtain rfl := Option.some.inj hstep
  set made : Acquisition := { request with ticket := s.tickets, caller := t } with hmade
  set s' := { s with tickets := s.tickets + 1 }.setFrames t (⟨made, .lookup⟩ :: s.frames t)
    with hs'
  have hmine : s'.frames t = ⟨made, .lookup⟩ :: s.frames t := Function.update_self _ _ _
  have htheirs : ∀ u, u ≠ t → s'.frames u = s.frames u := fun u hu => Function.update_of_ne hu _ _
  have hframe : ∀ u f, f ∈ s'.frames u ↔ f ∈ s.frames u ∨ (u = t ∧ f = ⟨made, .lookup⟩) := by
    intro u f
    by_cases hu : u = t
    · rw [hu, hmine, List.mem_cons]
      tauto
    · rw [htheirs u hu]
      tauto
  have hknown : ∀ q, s'.Known q ↔ s.Known q ∨ q = made := by
    intro q
    have hcall : s'.InCall q ↔ s.InCall q ∨ q = made := by
      constructor
      · rintro ⟨u, f, hf, rfl⟩
        rcases (hframe u f).mp hf with hold | ⟨-, rfl⟩
        · exact .inl ⟨u, f, hold, rfl⟩
        · exact .inr rfl
      · rintro (⟨u, f, hf, rfl⟩ | rfl)
        · exact ⟨u, f, (hframe u f).mpr (.inl hf), rfl⟩
        · exact ⟨t, _, (hframe t _).mpr (.inr ⟨rfl, rfl⟩), rfl⟩
    have hrest : s'.pendingQueue = s.pendingQueue ∧ s'.worker = s.worker ∧
        s'.granted = s.granted := ⟨rfl, rfl, rfl⟩
    rw [Known, Known, hcall, hrest.1, hrest.2.1, hrest.2.2]
    tauto
  have hticket : made.ticket = s.tickets := rfl
  have htickets : s'.tickets = s.tickets + 1 := rfl
  refine ⟨fun k hk => ?_, fun q q' hq hq' heq => ?_, fun q hq => ?_, fun u f hf hpc => ?_,
    fun u f hf hpc => ?_⟩
  · rcases Nat.lt_or_ge k s.tickets with hlt | hge
    · obtain ⟨q, hq, hqk⟩ := h.made k hlt
      exact ⟨q, (hknown q).mpr (.inl hq), hqk⟩
    · exact ⟨made, (hknown made).mpr (.inr rfl), by omega⟩
  · -- the new number is above all that were given
    rcases (hknown q).mp hq with hold | rfl <;> rcases (hknown q').mp hq' with hold' | rfl
    · exact h.unique q q' hold hold' heq
    · have hlt := h.given q hold
      omega
    · have hlt := h.given q' hold'
      omega
    · rfl
  · rcases (hknown q).mp hq with hold | rfl
    · have hlt := h.given q hold
      omega
    · omega
  · rcases (hframe u f).mp hf with hold | ⟨-, rfl⟩
    · exact h.paid u f hold hpc
    · rcases hpc with hpc | hpc <;> cases hpc
  · rcases (hframe u f).mp hf with hold | ⟨-, rfl⟩
    · exact h.queued u f hold hpc
    · cases hpc

/-- **Every step but `Stop`'s accounts for every call.** -/
theorem accounted_step {a : ClientAction} (h : Accounted s) (hnostop : NoStop s a)
    (hstep : s.step a = some s') : Accounted s' := by
  cases a with
  | start =>
    simp only [step, start] at hstep
    split at hstep
    · rename_i hidle
      obtain rfl := Option.some.inj hstep
      exact h.keeps
        (keeps_of_worker h rfl rfl (fun q hq => hq) (fun q => by rw [hidle.2]; rfl))
    · cases hstep
  | stop => exact absurd rfl hnostop
  | updateTokenBuckets now allocations =>
    obtain rfl := Option.some.inj hstep
    exact h.keeps (keeps_of_worker h rfl rfl (fun q hq => hq) (fun q => Iff.rfl))
  | acquire caller request => exact accounted_acquire h hstep
  | acquireStep caller now freed =>
    exact h.keeps (keeps_acquireSection h (acquireSection_of_step hstep))
  | workerStep now freed => exact h.keeps (keeps_workerSection h (workerSection_of_step hstep))

theorem accounted_of_reachableVia (h : clientSystem.ReachableVia NoStop s) : Accounted s := by
  refine GuardedSystem.ReachableVia.invariant (P := Accounted) ?_
    (fun s a s' hs hnostop hstep => accounted_step hs hnostop hstep) h
  have hnone : ∀ q, ¬ clientSystem.init.Known q := by
    rintro q (⟨t, f, hf, -⟩ | hq | hq | hq)
    · cases hf
    · cases hq
    · cases hq
    · cases hq
  exact ⟨fun k hk => absurd hk (Nat.not_lt_zero k), fun q q' hq => absurd hq (hnone q),
    fun q hq => absurd hq (hnone q), fun t f hf => absurd hf List.not_mem_nil,
    fun t f hf => absurd hf List.not_mem_nil⟩

/-! ## The count -/

/-- The requests without their tokens that have left their calls, or are
about to: those in the queue, and the one in the worker's hand. -/
def waitingRequests (s : ClientThreads) : List Acquisition :=
  s.pendingQueue ++ s.worker.unpaid

/-- Whether the call that made a request has queued it and not returned
yet. -/
def isReturning (s : ClientThreads) (q : Acquisition) : Bool :=
  (s.frames q.caller).any fun frame => decide (frame.request = q ∧ frame.pc = .notifying)

/-- Each of them once. -/
theorem count_waitingRequests_le (hbooks : Books s) (q : Acquisition) :
    s.waitingRequests.count q + s.granted.count q +
      tally AcquirePc.isWaiting (s.frames q.caller) q ≤ 1 := by
  have honce := hbooks.once q
  rw [waiting] at honce
  rw [waitingRequests, List.count_append]
  omega

/-- **A request that waits** was not granted, and is in no call but one that
is about to return. -/
theorem waits_of_mem (hbooks : Books s) (h : Accounted s) (hq : q ∈ s.waitingRequests) :
    (s.InCall q ↔ s.isReturning q = true) ∧ q ∉ s.granted := by
  have hone := count_waitingRequests_le hbooks q
  have hpos := List.count_pos_iff.mpr hq
  have hgranted : q ∉ s.granted := by
    intro hmem
    have := List.count_pos_iff.mpr hmem
    omega
  refine ⟨⟨?_, fun hreturning => ?_⟩, hgranted⟩
  · rintro ⟨t, frame, hframe, rfl⟩
    have hcaller := hbooks.caller t frame hframe
    -- a call that has its tokens was granted them, and one that queues it waits itself
    cases hplace : frame.pc with
    | execute => exact absurd (h.paid t frame hframe (.inl hplace)) hgranted
    | running => exact absurd (h.paid t frame hframe (.inr hplace)) hgranted
    | notifying =>
      exact List.any_eq_true.mpr ⟨frame, hcaller ▸ hframe, decide_eq_true ⟨rfl, hplace⟩⟩
    | _ =>
      have htally : 0 < tally AcquirePc.isWaiting (s.frames frame.request.caller)
          frame.request := by
        refine List.countP_pos_iff.mpr ⟨frame, hcaller ▸ hframe, ?_⟩
        simp [hplace, AcquirePc.isWaiting]
      omega
  · obtain ⟨frame, hframe, hmine⟩ := List.any_eq_true.mp hreturning
    exact ⟨q.caller, frame, hframe, (of_decide_eq_true hmine).1⟩

/-- **The numbers of the calls that wait** are those of the requests that
do, once their calls have returned. -/
theorem mem_waitingCalls_iff (hbooks : Books s) (h : Accounted s) (k : ℕ) :
    k ∈ s.waitingCalls ↔ ∃ q ∈ s.waitingRequests.filter fun q => !s.isReturning q,
      q.ticket = k := by
  simp only [List.mem_filter, Bool.not_eq_true']
  constructor
  · rintro ⟨hlt, hcalls, hgranted⟩
    obtain ⟨q, hq, hticket⟩ := h.made k hlt
    have hreturned : ¬ s.InCall q := by
      rintro ⟨t, frame, hframe, rfl⟩
      exact hcalls t frame hframe hticket
    have hwaits : q ∈ s.waitingRequests := by
      rcases hq with hcall | hqueue | hhand | hmem
      · exact absurd hcall hreturned
      · exact List.mem_append_left _ hqueue
      · exact List.mem_append_right _ hhand
      · exact absurd hticket (hgranted q hmem)
    refine ⟨q, ⟨hwaits, ?_⟩, hticket⟩
    rwa [(waits_of_mem hbooks h hwaits).1, Bool.not_eq_true] at hreturned
  · rintro ⟨q, ⟨hq, hreturned⟩, rfl⟩
    obtain ⟨hcall, hgranted⟩ := waits_of_mem hbooks h hq
    have hknown : s.Known q := by
      rcases List.mem_append.mp hq with hqueue | hhand
      · exact .inr (.inl hqueue)
      · exact .inr (.inr (.inl hhand))
    rw [← Bool.not_eq_true, ← hcall] at hreturned
    -- whoever has its number is the request itself
    refine ⟨h.given q hknown, fun t frame hframe heq => hreturned ?_,
      fun q' hq' heq => hgranted ?_⟩
    · have hsame : frame.request = q := h.unique _ _ (.inl ⟨t, frame, hframe, rfl⟩) hknown heq
      exact ⟨t, frame, hframe, hsame⟩
    · have hsame : q' = q := h.unique _ _ (.inr (.inr (.inr hq'))) hknown heq
      exact hsame ▸ hq'

/-- **How many calls wait**: as many as have returned of those whose request
is queued or held by the worker without its tokens. -/
theorem ncard_waitingCalls (h : clientSystem.ReachableVia NoStop s) :
    s.waitingCalls.ncard = s.waitingRequests.countP fun q => !s.isReturning q := by
  have hbooks := books_of_reachable h.reachable
  have haccounted := accounted_of_reachableVia h
  have hnodup : s.waitingRequests.Nodup := by
    refine List.nodup_iff_count_le_one.mpr fun q => ?_
    have hone := count_waitingRequests_le hbooks q
    omega
  have hknown : ∀ q ∈ s.waitingRequests, s.Known q := by
    intro q hq
    rcases List.mem_append.mp hq with hqueue | hhand
    · exact .inr (.inl hqueue)
    · exact .inr (.inr (.inl hhand))
  have htickets : ((s.waitingRequests.filter fun q => !s.isReturning q).map
      fun q => q.ticket).Nodup :=
    (hnodup.filter _).map_on fun q hq q' hq' heq =>
      haccounted.unique q q' (hknown q (List.mem_of_mem_filter hq))
        (hknown q' (List.mem_of_mem_filter hq')) heq
  have hset : s.waitingCalls = (((s.waitingRequests.filter fun q => !s.isReturning q).map
      fun q => q.ticket).toFinset : Set ℕ) := by
    ext k
    rw [mem_waitingCalls_iff hbooks haccounted]
    simp
  rw [hset, Set.ncard_coe_finset, List.toFinset_card_of_nodup htickets, List.length_map,
    ← List.countP_eq_length_filter]

/-- The queued requests whose calls have not returned yet. -/
def queuedReturning (s : ClientThreads) : List Acquisition := s.pendingQueue.filter s.isReturning

/-- What the worker has taken off the queue and got no tokens for yet, if the
call that made it has returned. -/
def heldReturned (s : ClientThreads) : List Acquisition :=
  s.worker.unpaid.filter fun q => !s.isReturning q

/-- **`GetPendingCount` counts every waiting request** exactly where it has
as many of calls about to return as the worker holds of calls that have
returned: in every interleaving without a `Stop`, whichever calls of
`Acquire` are under way. -/
theorem getPendingCount_eq_iff (h : clientSystem.ReachableVia NoStop s) :
    s.getPendingCount = s.waitingCalls.ncard ↔
      s.queuedReturning.length = s.heldReturned.length := by
  have hqueue := List.length_eq_countP_add_countP s.isReturning (l := s.pendingQueue)
  rw [ncard_waitingCalls h, waitingRequests, List.countP_append, getPendingCount, queuedReturning,
    heldReturned, ← List.countP_eq_length_filter, ← List.countP_eq_length_filter]
  simp only [decide_not, Bool.decide_eq_true] at hqueue
  omega

/-- A call that is refused, there being no bucket, and queues its request. -/
def pushedRun : List ClientAction :=
  [.start, .acquire (.app 0) ⟨1, 1, some 7⟩, .acquireStep (.app 0) 0 false,
   .acquireStep (.app 0) 0 false, .acquireStep (.app 0) 0 false]

/-- It returns. -/
def refusedRun : List ClientAction := pushedRun ++ [.acquireStep (.app 0) 0 false]

/-- And the worker's first two steps. -/
def heldRun : List ClientAction := refusedRun ++ [.workerStep 0 false, .workerStep 0 false]

-- before the call returns, the count is one too many
example : (clientSystem.runFrom clientSystem.init pushedRun).map (fun s =>
    (s.getPendingCount, s.queuedReturning.length, s.heldReturned.length)) = some (1, 1, 0) := by
  decide +kernel

theorem refusedRun_getPendingCount_eq :
    ∃ s, clientSystem.runFrom clientSystem.init refusedRun = some s ∧ s.isRunning = true ∧
      s.getPendingCount = 1 ∧ s.getPendingCount = s.waitingCalls.ncard := by
  have hrun : (clientSystem.runFrom clientSystem.init refusedRun).map (fun s =>
      (s.isRunning, s.getPendingCount, s.queuedReturning.length, s.heldReturned.length)) =
        some (true, 1, 0, 0) := by
    decide +kernel
  obtain ⟨s, hs, hreached⟩ := Option.map_eq_some_iff.mp hrun
  simp only [Prod.mk.injEq] at hreached
  obtain ⟨hrunning, hcount, hqueued, hheld⟩ := hreached
  have hvia : clientSystem.ReachableVia NoStop s :=
    GuardedSystem.ReachableVia.runFrom .init (by simp [refusedRun, pushedRun, NoStop]) hs
  exact ⟨s, hs, hrunning, hcount, (getPendingCount_eq_iff hvia).mpr (hqueued.trans hheld.symm)⟩

/-- **While the worker holds a request** it is counted nowhere: the call
has returned, no thread is in one, and the count is zero. -/
theorem heldRun_getPendingCount_ne :
    ∃ s, clientSystem.ReachableVia NoStop s ∧ s.isRunning = true ∧ s.stop = .idle ∧
      (∀ t, s.frames t = []) ∧ s.getPendingCount = 0 ∧ s.waitingCalls.ncard = 1 := by
  have hrun : (clientSystem.runFrom clientSystem.init heldRun).map (fun s =>
      (s.isRunning, s.stop, s.getPendingCount,
        s.waitingRequests.countP fun q => !s.isReturning q)) = some (true, .idle, 0, 1) := by
    decide +kernel
  obtain ⟨s, hs, hreached⟩ := Option.map_eq_some_iff.mp hrun
  simp only [Prod.mk.injEq] at hreached
  obtain ⟨hrunning, hstop, hcount, hwaiting⟩ := hreached
  have hvia : clientSystem.ReachableVia NoStop s :=
    GuardedSystem.ReachableVia.runFrom .init (by simp [heldRun, refusedRun, pushedRun, NoStop]) hs
  have hframes : ∀ t, (clientSystem.runFrom clientSystem.init heldRun).map
      (fun s => s.frames t) = some [] := by
    intro t
    rcases t with (_ | n) | _ <;> rfl
  refine ⟨s, hvia, hrunning, hstop, fun t => ?_, hcount, ?_⟩
  · have ht := hframes t
    rw [hs] at ht
    exact Option.some.inj ht
  · rw [ncard_waitingCalls hvia, hwaiting]

end ClientThreads

end Throttling
