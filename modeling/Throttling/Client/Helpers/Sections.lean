import Throttling.Client.Helpers.Buckets
/-!
# What each section can do

One inversion for the sections of a call of `Acquire`, one for those of
the worker, and one for those of `Start` and `Stop`: the place the thread
is at, and the state it leaves. Whatever is to hold in every interleaving
is proved from these, case by case.
-/

namespace Throttling

/-- Two maps register the same buckets. -/
def SameIdentities (before after : OrderedMap ResourceId OwnedBucket) : Prop :=
  ∀ r : ResourceId, (after[r]?).map OwnedBucket.generation =
    (before[r]?).map OwnedBucket.generation

namespace ClientThreads

/-- **The sections of a call of `Acquire`**, from a state in which its
frame is the thread's innermost. -/
inductive AcquireSection (s : ClientThreads) (t : Caller) : ClientThreads → Prop
  | lookup (request : Acquisition) (outer : List AcquireFrame)
      (hframes : s.frames t = ⟨request, .lookup⟩ :: outer) :
      AcquireSection s t
        (s.setFrames t (⟨request, .consume (s.registered request.resourceId)⟩ :: outer))
  | refused (request : Acquisition) (bucket : Option BucketRef) (outer : List AcquireFrame)
      (hframes : s.frames t = ⟨request, .consume bucket⟩ :: outer)
      (buckets : OrderedMap ResourceId OwnedBucket)
      (hsame : SameIdentities s.tokenBuckets buckets) :
      AcquireSection s t
        ({ s with tokenBuckets := buckets }.setFrames t (⟨request, .push⟩ :: outer))
  | granted (request : Acquisition) (bucket : Option BucketRef) (outer : List AcquireFrame)
      (hframes : s.frames t = ⟨request, .consume bucket⟩ :: outer)
      (buckets : OrderedMap ResourceId OwnedBucket)
      (hsame : SameIdentities s.tokenBuckets buckets) :
      AcquireSection s t
        ({ s with tokenBuckets := buckets, granted := s.granted ++ [request] }.setFrames t
          (⟨request, .execute⟩ :: outer))
  | callback (request : Acquisition) (outer : List AcquireFrame)
      (hframes : s.frames t = ⟨request, .execute⟩ :: outer)
      (hcallback : request.callback.isSome = true) :
      AcquireSection s t
        ({ s with executed := s.executed ++ [request] }.setFrames t
          (⟨request, .running⟩ :: outer))
  | noCallback (request : Acquisition) (outer : List AcquireFrame)
      (hframes : s.frames t = ⟨request, .execute⟩ :: outer) :
      AcquireSection s t ({ s with executed := s.executed ++ [request] }.setFrames t outer)
  | returned (request : Acquisition) (pc : AcquirePc) (outer : List AcquireFrame)
      (hframes : s.frames t = ⟨request, pc⟩ :: outer) (hpc : pc = .running ∨ pc = .notifying) :
      AcquireSection s t (s.setFrames t outer)
  | pushed (request : Acquisition) (outer : List AcquireFrame)
      (hframes : s.frames t = ⟨request, .push⟩ :: outer) :
      AcquireSection s t
        ({ s with
          pendingQueue := s.pendingQueue ++ [request]
          pushed := s.pushed ++ [request] }.setFrames t (⟨request, .notifying⟩ :: outer))

/-- **The sections of the worker.** -/
inductive WorkerSection (s : ClientThreads) : ClientThreads → Prop
  /-- The loop's test, and the wait that ends with nothing taken. -/
  | turn (worker : WorkerPc) (hworker : s.worker = .loop ∨ s.worker = .waiting ∨
        s.worker = .running)
      (hworker' : worker = .loop ∨ worker = .waiting ∨ worker = .exited) :
      WorkerSection s { s with worker := worker }
  | taken (request : Acquisition) (rest : List Acquisition) (hworker : s.worker = .waiting)
      (hqueue : s.pendingQueue = request :: rest) :
      WorkerSection s { s with pendingQueue := rest, worker := .holding request }
  | lookup (request : Acquisition) (hworker : s.worker = .holding request) :
      WorkerSection s
        { s with worker := .consume request (s.registered request.resourceId) }
  | refused (request : Acquisition) (bucket : Option BucketRef)
      (hworker : s.worker = .consume request bucket)
      (buckets : OrderedMap ResourceId OwnedBucket)
      (hsame : SameIdentities s.tokenBuckets buckets) :
      WorkerSection s { s with tokenBuckets := buckets, worker := .requeue request }
  | granted (request : Acquisition) (bucket : Option BucketRef)
      (hworker : s.worker = .consume request bucket)
      (buckets : OrderedMap ResourceId OwnedBucket)
      (hsame : SameIdentities s.tokenBuckets buckets) :
      WorkerSection s
        { s with
          tokenBuckets := buckets
          granted := s.granted ++ [request]
          worker := .execute request }
  | executed (request : Acquisition) (hworker : s.worker = .execute request) (worker : WorkerPc)
      (hworker' : worker = .running ∨ worker = .loop) :
      WorkerSection s
        { s with
          executed := s.executed ++ [request]
          workerExecuted := s.workerExecuted ++ [request]
          worker := worker }
  | requeued (request : Acquisition) (hworker : s.worker = .requeue request) :
      WorkerSection s { s with pendingQueue := request :: s.pendingQueue, worker := .loop }

/-- **The sections of `Start` and `Stop`.** -/
inductive ControlSection (s : ClientThreads) : ClientThreads → Prop
  | started (hworker : s.worker = .noThread) :
      ControlSection s { s with isRunning := true, worker := .loop }
  | flagged : ControlSection s { s with isRunning := false, stop := .joining }
  | joined (hworker : s.worker = .exited) :
      ControlSection s { s with worker := .noThread, stop := .clearingBuckets }
  | clearedBuckets (hstop : s.stop = .clearingBuckets) :
      ControlSection s { s with tokenBuckets := ∅, stop := .clearingQueue }
  | clearedQueue :
      ControlSection s { s with pendingQueue := [], queueCleared := true, stop := .idle }

variable {s s' : ClientThreads}

/-- A consumption records a grant if it grants, and leaves every bucket
its identity. -/
theorem tryConsume_eq (s : ClientThreads) (request : Acquisition) (bucket : Option BucketRef)
    (now : TimePoint) (freed : Bool) :
    ∃ (ok : Bool) (buckets : OrderedMap ResourceId OwnedBucket),
      SameIdentities s.tokenBuckets buckets ∧
      s.tryConsume request bucket now freed =
        (ok, { s with
          tokenBuckets := buckets
          granted := if ok then s.granted ++ [request] else s.granted }) := by
  cases bucket with
  | none => exact ⟨false, s.tokenBuckets, fun _ => rfl, rfl⟩
  | some ref =>
    exact ⟨_, _, generation_consumeFrom s.tokenBuckets ref request.count now freed, rfl⟩

theorem acquireSection_of_step {t : Caller} {now : TimePoint} {freed : Bool}
    (h : s.acquireStep t now freed = some s') : AcquireSection s t s' := by
  unfold acquireStep at h
  split at h
  · cases h
  · obtain rfl := Option.some.inj h
    exact .lookup _ _ ‹_›
  · rename_i request bucket outer hframes
    obtain ⟨ok, buckets, hsame, heq⟩ := tryConsume_eq s request bucket now freed
    rw [heq] at h
    obtain rfl := Option.some.inj h
    cases ok with
    | false => exact .refused _ _ _ hframes buckets hsame
    | true => exact .granted _ _ _ hframes buckets hsame
  · split at h
    · obtain rfl := Option.some.inj h
      exact .callback _ _ ‹_› ‹_›
    · obtain rfl := Option.some.inj h
      exact .noCallback _ _ ‹_›
  · obtain rfl := Option.some.inj h
    exact .returned _ _ _ ‹_› (.inl rfl)
  · obtain rfl := Option.some.inj h
    exact .pushed _ _ ‹_›
  · obtain rfl := Option.some.inj h
    exact .returned _ _ _ ‹_› (.inr rfl)

theorem workerSection_of_step {now : TimePoint} {freed : Bool}
    (h : s.workerStep now freed = some s') : WorkerSection s s' := by
  unfold workerStep at h
  split at h
  · cases h
  · obtain rfl := Option.some.inj h
    exact .turn _ (.inl ‹_›) (by split <;> simp)
  · split at h
    · obtain rfl := Option.some.inj h
      exact .turn _ (.inr (.inl ‹_›)) (by split <;> simp)
    · obtain rfl := Option.some.inj h
      exact .taken _ _ ‹_› ‹_›
  · obtain rfl := Option.some.inj h
    exact .lookup _ ‹_›
  · rename_i request bucket hworker
    obtain ⟨ok, buckets, hsame, heq⟩ := tryConsume_eq s request bucket now freed
    rw [heq] at h
    obtain rfl := Option.some.inj h
    cases ok with
    | false => exact .refused _ _ hworker buckets hsame
    | true => exact .granted _ _ hworker buckets hsame
  · obtain rfl := Option.some.inj h
    exact .executed _ ‹_› _ (by split <;> simp)
  · split at h
    · obtain rfl := Option.some.inj h
      exact .turn _ (.inr (.inr ‹_›)) (.inl rfl)
    · cases h
  · obtain rfl := Option.some.inj h
    exact .requeued _ ‹_›
  · cases h

theorem controlSection_of_start (h : s.start = some s') : ControlSection s s' := by
  unfold start at h
  split at h
  · rename_i hguard
    obtain rfl := Option.some.inj h
    exact .started hguard.2
  · cases h

theorem controlSection_of_stop (h : s.stopStep = some s') : ControlSection s s' := by
  unfold stopStep at h
  split at h
  · split at h
    · obtain rfl := Option.some.inj h
      exact .flagged
    · cases h
  · split at h
    · obtain rfl := Option.some.inj h
      exact .joined ‹_›
    · cases h
  · obtain rfl := Option.some.inj h
    exact .clearedBuckets ‹_›
  · obtain rfl := Option.some.inj h
    exact .clearedQueue

/-! ## What they have in common -/

/-- A call's frame is replaced by at most one, and one that holds a bucket
has just found it registered. -/
theorem AcquireSection.frames {t : Caller} (h : AcquireSection s t s') :
    ∃ frame outer inner, s.frames t = frame :: outer ∧
      s'.frames = Function.update s.frames t (inner ++ outer) ∧ inner.length ≤ 1 ∧
      ∀ request ref, ⟨request, .consume (some ref)⟩ ∈ inner →
        s.registered request.resourceId = some ref := by
  cases h with
  | lookup request outer hframes =>
    refine ⟨_, outer, [_], hframes, rfl, le_rfl, fun request' ref hmem => ?_⟩
    have hfound := List.mem_singleton.mp hmem
    simp only [AcquireFrame.mk.injEq, AcquirePc.consume.injEq] at hfound
    rw [hfound.1]
    exact hfound.2.symm
  | refused request bucket outer hframes buckets hsame =>
    exact ⟨_, outer, [_], hframes, rfl, le_rfl, by simp⟩
  | granted request bucket outer hframes buckets hsame =>
    exact ⟨_, outer, [_], hframes, rfl, le_rfl, by simp⟩
  | callback request outer hframes hcallback =>
    exact ⟨_, outer, [_], hframes, rfl, le_rfl, by simp⟩
  | noCallback request outer hframes => exact ⟨_, outer, [], hframes, rfl, Nat.zero_le _, by simp⟩
  | returned request pc outer hframes =>
    exact ⟨_, outer, [], hframes, rfl, Nat.zero_le _, by simp⟩
  | pushed request outer hframes => exact ⟨_, outer, [_], hframes, rfl, le_rfl, by simp⟩

theorem AcquireSection.worker {t : Caller} (h : AcquireSection s t s') : s'.worker = s.worker := by
  cases h <;> rfl

theorem AcquireSection.identities {t : Caller} (h : AcquireSection s t s') :
    SameIdentities s.tokenBuckets s'.tokenBuckets := by
  cases h with
  | refused request bucket outer hframes buckets hsame => exact hsame
  | granted request bucket outer hframes buckets hsame => exact hsame
  | _ => exact fun _ => rfl

/-- And so has the worker's. -/
theorem WorkerSection.found (h : WorkerSection s s') {request : Acquisition} {ref : BucketRef}
    (hworker : s'.worker = .consume request (some ref)) :
    s.registered request.resourceId = some ref := by
  cases h with
  | turn worker hpc hpc' => rcases hpc' with rfl | rfl | rfl <;> cases hworker
  | lookup request' hpc =>
    obtain ⟨rfl, hfound⟩ := WorkerPc.consume.inj hworker
    exact hfound
  | executed request hpc worker hpc' => rcases hpc' with rfl | rfl <;> cases hworker
  | _ => cases hworker

theorem WorkerSection.frames (h : WorkerSection s s') : s'.frames = s.frames := by
  cases h <;> rfl

theorem WorkerSection.identities (h : WorkerSection s s') :
    SameIdentities s.tokenBuckets s'.tokenBuckets := by
  cases h with
  | refused request bucket hworker buckets hsame => exact hsame
  | granted request bucket hworker buckets hsame => exact hsame
  | _ => exact fun _ => rfl

theorem ControlSection.frames (h : ControlSection s s') : s'.frames = s.frames := by
  cases h <;> rfl

/-- A call of `Acquire` starts at its lookup, in a thread whose other calls
are in their callbacks. -/
theorem acquire_frames {t : Caller} {request : PendingRequest}
    (h : s.acquire t request = some s') :
    ∃ made : Acquisition, s'.frames = Function.update s.frames t (⟨made, .lookup⟩ :: s.frames t) ∧
      ∀ frame outer, s.frames t = frame :: outer → frame.pc = .running := by
  unfold acquire at h
  split at h
  · rename_i hmay
    obtain rfl := Option.some.inj h
    refine ⟨_, rfl, fun frame outer hframes => ?_⟩
    rw [mayAcquire, hframes] at hmay
    exact of_decide_eq_true hmay
  · cases h

end ClientThreads

end Throttling
