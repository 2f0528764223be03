import Throttling.Client.Helpers.Sections
/-!
# Buckets used after they are gone

`Acquire` and `WorkerLoop` keep a raw pointer from a lookup under `mutex_`
to a `TryConsume` without it, and `UpdateTokenBuckets` and `Stop` erase
buckets in between (`droppedRun_uses_unregistered`). It goes well exactly as
long as no step erases a bucket that a thread holds: under that condition
every `TryConsume` is on a registered bucket
(`uses_registered_of_keepsHeld`), and a step that breaks it leaves a
thread about to use a bucket that is gone
(`exists_uses_unregistered_of_not_keepsHeld`).
-/

namespace Throttling

namespace ClientThreads

/-- A thread has looked the bucket up for a request and not used it yet. -/
def HoldsFor (s : ClientThreads) (request : Acquisition) (ref : BucketRef) : Prop :=
  (∃ t, ⟨request, .consume (some ref)⟩ ∈ s.frames t) ∨ s.worker = .consume request (some ref)

def Holds (s : ClientThreads) (ref : BucketRef) : Prop := ∃ request, s.HoldsFor request ref

/-- The bucket a step calls `TryConsume` on, if it does. -/
def uses (s : ClientThreads) : ClientAction → Option BucketRef
  | .acquireStep t _ _ =>
    match s.frames t with
    | ⟨_, .consume bucket⟩ :: _ => bucket
    | _ => none
  | .workerStep _ _ =>
    match s.worker with
    | .consume _ bucket => bucket
    | _ => none
  | _ => none

/-- **A step that erases no bucket a thread holds**: an application of
allocations lists the resource of every such bucket, and `Stop` clears
the buckets when there is none. -/
def KeepsHeld (s : ClientThreads) : ClientAction → Prop
  | .updateTokenBuckets _ allocations => ∀ ref, s.Holds ref → ref.resourceId ∈ allocations
  | .stop => s.stop = .clearingBuckets → ∀ ref, ¬ s.Holds ref
  | _ => True

/-- Every bucket held is the one registered for the request's resource. -/
def HeldRegistered (s : ClientThreads) : Prop :=
  ∀ request ref, s.HoldsFor request ref → s.registered request.resourceId = some ref

variable {s s' : ClientThreads} {a : ClientAction} {t : Caller} {ref : BucketRef}

/-- What a step uses, a thread holds. -/
theorem holds_of_uses (h : s.uses a = some ref) : s.Holds ref := by
  cases a with
  | acquireStep t now freed =>
    simp only [uses] at h
    split at h
    · rename_i request bucket outer hframes
      subst h
      exact ⟨request, .inl ⟨t, by rw [hframes]; exact List.mem_cons_self⟩⟩
    · cases h
  | workerStep now freed =>
    simp only [uses] at h
    split at h
    · rename_i request bucket hworker
      subst h
      exact ⟨request, .inr hworker⟩
    · cases h
  | _ => cases h

/-! ## What a step does to the buckets held -/

/-- The identities registered are those the map's owners carry. -/
theorem registered_congr (h : SameIdentities s.tokenBuckets s'.tokenBuckets) (r : ResourceId) :
    s'.registered r = s.registered r := by
  rw [registered_eq, registered_eq, h r]

/-- A section of a call comes to hold a bucket only by looking it up. -/
theorem heldRegistered_acquireSection (h : HeldRegistered s) (hstep : AcquireSection s t s') :
    HeldRegistered s' := by
  obtain ⟨frame, outer, inner, hframes, hframes', -, hfound⟩ := hstep.frames
  rintro request ref (⟨u, hmem⟩ | hpc)
  · rw [registered_congr hstep.identities]
    rw [hframes'] at hmem
    by_cases hu : u = t
    · subst hu
      rw [Function.update_self, List.mem_append] at hmem
      rcases hmem with hin | hout
      · -- the section was the lookup
        exact hfound request ref hin
      · exact h request ref (.inl ⟨u, by rw [hframes]; exact List.mem_cons_of_mem _ hout⟩)
    · rw [Function.update_of_ne hu] at hmem
      exact h request ref (.inl ⟨u, hmem⟩)
  · rw [registered_congr hstep.identities]
    exact h request ref (.inr (hstep.worker ▸ hpc))

theorem heldRegistered_workerSection (h : HeldRegistered s) (hstep : WorkerSection s s') :
    HeldRegistered s' := by
  rintro request ref (⟨u, hmem⟩ | hpc)
  · rw [registered_congr hstep.identities]
    exact h request ref (.inl ⟨u, hstep.frames ▸ hmem⟩)
  · rw [registered_congr hstep.identities]
    exact hstep.found hpc

/-- `Start` and `Stop` come to hold nothing, and erase buckets in one
section alone. -/
theorem heldRegistered_controlSection (h : HeldRegistered s) (hkeeps : s.KeepsHeld .stop)
    (hstep : ControlSection s s') : HeldRegistered s' := by
  cases hstep with
  | started hworker =>
    rintro request ref (hframe | hpc)
    · exact h request ref (.inl hframe)
    · cases hpc
  | flagged => exact h
  | joined hworker =>
    rintro request ref (hframe | hpc)
    · exact h request ref (.inl hframe)
    · cases hpc
  | clearedBuckets hstop =>
    intro request ref hholds
    exact absurd ⟨request, hholds⟩ (hkeeps hstop ref)
  | clearedQueue => exact h

/-- A call that begins holds nothing. -/
theorem heldRegistered_acquire {request : PendingRequest} (h : HeldRegistered s)
    (hstep : s.acquire t request = some s') : HeldRegistered s' := by
  obtain ⟨made, hframes, -⟩ := acquire_frames hstep
  have hsame : s'.worker = s.worker ∧ s'.tokenBuckets = s.tokenBuckets := by
    unfold acquire at hstep
    split at hstep
    · obtain rfl := Option.some.inj hstep
      exact ⟨rfl, rfl⟩
    · cases hstep
  rintro request' ref (⟨u, hmem⟩ | hpc)
  · rw [registered, hsame.2, ← registered]
    rw [hframes] at hmem
    by_cases hu : u = t
    · subst hu
      rw [Function.update_self, List.mem_cons] at hmem
      rcases hmem with hnew | hold
      · cases hnew
      · exact h request' ref (.inl ⟨u, hold⟩)
    · rw [Function.update_of_ne hu] at hmem
      exact h request' ref (.inl ⟨u, hmem⟩)
  · rw [registered, hsame.2, ← registered]
    exact h request' ref (.inr (hsame.1 ▸ hpc))

/-- **A step that erases no bucket held** leaves every bucket held
registered. -/
theorem heldRegistered_step (h : HeldRegistered s) (hkeeps : s.KeepsHeld a)
    (hstep : s.step a = some s') : HeldRegistered s' := by
  cases a with
  | start =>
    simp only [step, start] at hstep
    split at hstep
    · obtain rfl := Option.some.inj hstep
      rintro request ref (hframe | hpc)
      · exact h request ref (.inl hframe)
      · cases hpc
    · cases hstep
  | stop => exact heldRegistered_controlSection h hkeeps (controlSection_of_stop hstep)
  | updateTokenBuckets now allocations =>
    obtain rfl := Option.some.inj hstep
    intro request ref hholds
    have hreg := h request ref hholds
    have hlisted := hkeeps ref ⟨request, hholds⟩
    rw [resourceId_of_registered hreg] at hlisted
    exact registered_updateTokenBuckets hlisted hreg
  | acquire t request => exact heldRegistered_acquire h hstep
  | acquireStep t now freed => exact heldRegistered_acquireSection h (acquireSection_of_step hstep)
  | workerStep now freed => exact heldRegistered_workerSection h (workerSection_of_step hstep)

theorem heldRegistered_of_keepsHeld (h : clientSystem.ReachableVia KeepsHeld s) :
    HeldRegistered s := by
  refine GuardedSystem.ReachableVia.invariant (P := HeldRegistered) ?_
    (fun s a s' hs hkeeps hstep => heldRegistered_step hs hkeeps hstep) h
  rintro request ref (⟨t, hmem⟩ | hpc)
  · cases hmem
  · cases hpc

/-! ## The result -/

/-- **Tokens are taken from registered buckets**, in every run in which no
step erases a bucket that a thread has looked up and not used yet. -/
theorem uses_registered_of_keepsHeld (h : clientSystem.ReachableVia KeepsHeld s)
    (huses : s.uses a = some ref) : s.registered ref.resourceId = some ref := by
  obtain ⟨request, hholds⟩ := holds_of_uses huses
  have hreg := heldRegistered_of_keepsHeld h request ref hholds
  rw [resourceId_of_registered hreg]
  exact hreg

/-- A call that has looked its bucket up is about to use it. -/
theorem lookedUp_uses_registered :
    ∃ s : ClientThreads, s.uses (.acquireStep (.app 0) 9 false) = some ⟨1, 0⟩ ∧
      s.registered 1 = some ⟨1, 0⟩ := by
  have hinit : clientSystem.init.KeepsHeld (.updateTokenBuckets (fun _ => 0)
      ((∅ : OrderedMap ResourceId ℚ).insert 1 2)) := by
    rintro ref ⟨request, ⟨t, hmem⟩ | hpc⟩
    · cases hmem
    · cases hpc
  have h₁ := GuardedSystem.ReachableVia.step .init hinit rfl
  have h₂ := h₁.step (a := ClientAction.acquire (.app 0) ⟨1, 2, some 7⟩)
    (show KeepsHeld _ (.acquire _ _) from trivial) rfl
  have h₃ := h₂.step (a := ClientAction.acquireStep (.app 0) 0 false)
    (show KeepsHeld _ (.acquireStep _ _ _) from trivial) rfl
  exact ⟨_, by decide +kernel,
    @uses_registered_of_keepsHeld _ (.acquireStep (.app 0) 9 false) ⟨1, 0⟩ h₃ (by decide +kernel)⟩

/-- The same call, and an application of allocations that no longer lists
the resource. -/
def droppedRun : List ClientAction :=
  [.updateTokenBuckets (fun _ => 0) ((∅ : OrderedMap ResourceId ℚ).insert 1 2), .start,
   .acquire (.app 0) ⟨1, 2, some 7⟩, .acquireStep (.app 0) 0 false,
   .updateTokenBuckets (fun _ => 5) ∅]

/-- **A bucket is used after it is gone**: the thread's next step is a
`TryConsume` on it. -/
theorem droppedRun_uses_unregistered :
    ¬ ∀ (s : ClientThreads) (a : ClientAction) (ref : BucketRef), clientSystem.Reachable s →
      s.uses a = some ref → s.registered ref.resourceId = some ref := by
  intro hall
  have hrun : (clientSystem.runFrom clientSystem.init droppedRun).map
      (fun s => (s.uses (.acquireStep (.app 0) 9 false), s.registered 1)) =
        some (some ⟨1, 0⟩, none) := by decide +kernel
  obtain ⟨s, hs, hreached⟩ := Option.map_eq_some_iff.mp hrun
  obtain ⟨huses, hregistered⟩ := Prod.mk.inj hreached
  have := hall s _ ⟨1, 0⟩ (GuardedSystem.Reachable.runFrom .init hs) huses
  rw [hregistered] at this
  cases this

/-! ## The condition is exact -/

/-- A thread's outer calls are in their callbacks. -/
def OuterRunning (s : ClientThreads) : Prop :=
  ∀ t, ∀ frame ∈ (s.frames t).tail, frame.pc = .running

theorem OuterRunning.congr (h : OuterRunning s) (hframes : s'.frames = s.frames) :
    OuterRunning s' := by
  unfold OuterRunning
  rw [hframes]
  exact h

theorem outerRunning_step (h : OuterRunning s) (hstep : s.step a = some s') : OuterRunning s' := by
  cases a with
  | start => exact h.congr (controlSection_of_start hstep).frames
  | stop => exact h.congr (controlSection_of_stop hstep).frames
  | updateTokenBuckets now allocations =>
    obtain rfl := Option.some.inj hstep
    exact h
  | acquire t request =>
    obtain ⟨made, hframes, hrunning⟩ := acquire_frames hstep
    intro u below hbelow
    rw [hframes] at hbelow
    by_cases hu : u = t
    · subst hu
      rw [Function.update_self, List.tail_cons] at hbelow
      cases hcalls : s.frames u with
      | nil =>
        rw [hcalls] at hbelow
        cases hbelow
      | cons frame outer =>
        rw [hcalls] at hbelow
        rcases List.mem_cons.mp hbelow with rfl | hmem
        · exact hrunning _ outer hcalls
        · exact h u below (by rw [hcalls]; exact hmem)
    · rw [Function.update_of_ne hu] at hbelow
      exact h u below hbelow
  | acquireStep t now freed =>
    obtain ⟨frame, outer, inner, hframes, hframes', hlength, -⟩ :=
      (acquireSection_of_step hstep).frames
    intro u below hbelow
    rw [hframes'] at hbelow
    by_cases hu : u = t
    · subst hu
      have hold := h u below
      rw [hframes] at hold
      rw [Function.update_self] at hbelow
      refine hold ?_
      cases inner with
      | nil => exact List.mem_of_mem_tail hbelow
      | cons top rest =>
        obtain rfl : rest = [] := List.eq_nil_of_length_eq_zero (by simpa using hlength)
        exact hbelow
    · rw [Function.update_of_ne hu] at hbelow
      exact h u below hbelow
  | workerStep now freed => exact h.congr (workerSection_of_step hstep).frames

/-- What a thread holds, its next step uses. -/
theorem exists_uses_of_holds (houter : OuterRunning s) (h : s.Holds ref) :
    ∃ a, s.uses a = some ref := by
  obtain ⟨request, ⟨t, hmem⟩ | hworker⟩ := h
  · refine ⟨.acquireStep t 0 false, ?_⟩
    cases hframes : s.frames t with
    | nil =>
      rw [hframes] at hmem
      cases hmem
    | cons frame outer =>
      rw [hframes] at hmem
      rcases List.mem_cons.mp hmem with rfl | hout
      · simp only [uses, hframes]
      · have hpc := houter t _ (by rw [hframes]; exact hout)
        cases hpc
  · refine ⟨.workerStep 0 false, ?_⟩
    simp only [uses, hworker]

/-- **A step that breaks the condition leaves a thread about to use a
bucket that is gone.** -/
theorem exists_uses_unregistered_of_not_keepsHeld (h : clientSystem.Reachable s)
    (hbreaks : ¬ s.KeepsHeld a) (hstep : s.step a = some s') :
    ∃ b ref, s'.uses b = some ref ∧ s'.registered ref.resourceId ≠ some ref := by
  have houter : OuterRunning s' := by
    refine outerRunning_step ?_ hstep
    refine GuardedSystem.Reachable.invariant (P := OuterRunning) (fun t frame hmem => ?_)
      (fun s a s' hs hstep => outerRunning_step hs hstep) h
    cases hmem
  -- a bucket held that the step erases
  obtain ⟨ref, hholds, hgone⟩ : ∃ ref, s'.Holds ref ∧ s'.registered ref.resourceId = none := by
    cases a with
    | updateTokenBuckets now allocations =>
      obtain rfl := Option.some.inj hstep
      simp only [KeepsHeld, not_forall] at hbreaks
      obtain ⟨ref, hholds, hunlisted⟩ := hbreaks
      exact ⟨ref, hholds, registered_updateTokenBuckets_of_not_mem hunlisted⟩
    | stop =>
      simp only [KeepsHeld, not_forall, not_not] at hbreaks
      obtain ⟨hclearing, ref, hholds⟩ := hbreaks
      simp only [step, stopStep, hclearing] at hstep
      obtain rfl := Option.some.inj hstep
      exact ⟨ref, hholds, rfl⟩
    | _ => exact absurd trivial hbreaks
  obtain ⟨b, huses⟩ := exists_uses_of_holds houter hholds
  exact ⟨b, ref, huses, by rw [hgone]; exact nofun⟩

end ClientThreads

end Throttling
