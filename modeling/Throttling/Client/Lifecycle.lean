import Throttling.Client.Helpers.Lifecycle
/-!
# When the lifecycle is sound

`Start` and `Stop` test `running_` and store to it later, and nothing
keeps another call from doing so in between, or a callback from joining
the thread it runs on. Where the calls take turns, the place of the one
call that is past its store says what the flag and the two thread objects
are (`CallPc.expects`), so that no object is assigned over or joined in
vain, and the loops alive are those the objects hold. What a stopped
client must not leave over, buckets and registrations, is there only
while some call still has to take it away.
-/

namespace Throttling

/-- The flag, and whether each thread object holds a thread, while a call
past its store is at a place. -/
def CallPc.expects : CallPc → Option (Bool × Bool × Bool)
  | .creatingHeartbeat => some (true, false, false)
  | .creatingWorker => some (true, true, false)
  | .heartbeating => some (true, true, true)
  | .updating allocations => if allocations.isEmpty then none else some (true, true, true)
  | .checkingHeartbeat => some (false, true, true)
  | .joiningHeartbeat => some (false, true, true)
  | .checkingWorker => some (false, false, true)
  | .joiningWorker => some (false, false, true)
  | _ => none

/-- A `Stop` that has not cleared the buckets yet. -/
def CallPc.clears : CallPc → Bool
  | .checkingHeartbeat => true
  | .joiningHeartbeat => true
  | .checkingWorker => true
  | .joiningWorker => true
  | .unregistering => true
  | .clearingBuckets => true
  | _ => false

/-- A `Start` that is registered and about to run, or a `Stop` that has
not unregistered yet. -/
def CallPc.undoes : CallPc → Bool
  | .raising => true
  | .checkingHeartbeat => true
  | .joiningHeartbeat => true
  | .checkingWorker => true
  | .joiningWorker => true
  | .unregistering => true
  | _ => false

theorem CallPc.isSettled_iff (pc : CallPc) : pc.isSettled = true ↔ pc.expects = none := by
  cases pc <;> simp [isSettled, expects]

namespace LifecycleState

variable {s s' : LifecycleState} {t : LifecycleCaller} {pc : CallPc}

/-- The flag, and whether each thread object holds a thread. -/
def threadFlags (s : LifecycleState) : Bool × Bool × Bool :=
  (s.running, s.heartbeatThread.isSome, s.workerThread.isSome)

/-! ## The phase of the client -/

/-- **One call at a time is past its store**, and no callback's, its place
says what the flag and the thread objects are, and the loops alive are
those they hold. -/
structure Phases (s : LifecycleState) : Prop where
  outside : ∀ i, (s.callers (.worker i)).isSettled = true
  alone : ∀ t u, (s.callers t).isSettled = false → (s.callers u).isSettled = false → t = u
  phase : ∀ t flags, (s.callers t).expects = some flags → s.threadFlags = flags
  rest : (∀ t, (s.callers t).isSettled = true) → s.threadFlags = (s.running, s.running, s.running)
  heartbeat : ∀ i, (s.heartbeats i).alive = true → s.heartbeatThread = some i
  worker : ∀ i, (s.workers i).alive = true → s.workerThread = some i
  clean : s.assignedOver = false ∧ s.joinedTwice = false

/-- The application's call, and every other one is settled. -/
structure Free (s : LifecycleState) (t : LifecycleCaller) : Prop where
  outside : ∀ thread, t ≠ .worker thread
  others : ∀ u, u ≠ t → (s.callers u).isSettled = true

/-- How a step of a call may change the phase: it takes the turn or keeps
it, it gives it up, or it has none. -/
inductive Turn (s s' : LifecycleState) (t : LifecycleCaller) (pc : CallPc) : Prop
  | taken (hexpects : pc.expects = some s'.threadFlags)
      (hfree : (s.callers t).isSettled = false ∨ Free s t)
  | given (hold : (s.callers t).isSettled = false) (hpc : pc.isSettled = true)
      (hrest : s'.threadFlags = (s'.running, s'.running, s'.running))
  | kept (hold : (s.callers t).isSettled = true) (hpc : pc.isSettled = true)
      (hsame : s'.threadFlags = s.threadFlags)

theorem isSettled_eq_false_iff (pc : CallPc) :
    pc.isSettled = false ↔ ∃ flags, pc.expects = some flags := by
  rw [← Option.ne_none_iff_exists', ← Bool.not_eq_true, ne_eq, CallPc.isSettled_iff]

/-- The one who is not settled is the application's, and the others are. -/
theorem Phases.free (h : Phases s) (hfree : (s.callers t).isSettled = false ∨ Free s t) :
    Free s t := by
  rcases hfree with hbusy | hfree
  · refine ⟨fun thread heq => ?_, fun u hu => ?_⟩
    · rw [heq, h.outside thread] at hbusy
      cases hbusy
    · by_contra hnot
      exact hu (h.alone u t (Bool.eq_false_iff.mpr hnot) hbusy)
  · exact hfree

theorem Phases.of_turn (h : Phases s) (hcallers : s'.callers = Function.update s.callers t pc)
    (hturn : Turn s s' t pc)
    (hheartbeat : ∀ i, (s'.heartbeats i).alive = true → s'.heartbeatThread = some i)
    (hworker : ∀ i, (s'.workers i).alive = true → s'.workerThread = some i)
    (hclean : s'.assignedOver = false ∧ s'.joinedTwice = false) : Phases s' := by
  have hmine : s'.callers t = pc := by rw [hcallers, Function.update_self]
  have htheirs : ∀ u, u ≠ t → s'.callers u = s.callers u := fun u hu => by
    rw [hcallers, Function.update_of_ne hu]
  -- who is past a store afterwards: the mover alone, or those who were
  have hothers : pc.isSettled = false → ∀ u, u ≠ t → (s'.callers u).isSettled = true := by
    intro hbusy u hu
    rw [htheirs u hu]
    cases hturn with
    | taken hexpects hfree => exact (h.free hfree).others u hu
    | given hold hpc hrest => rw [hpc] at hbusy; cases hbusy
    | kept hold hpc hsame => rw [hpc] at hbusy; cases hbusy
  refine ⟨fun i => ?_, fun u v hu hv => ?_, fun u flags hflags => ?_, fun hall => ?_, hheartbeat,
    hworker, hclean⟩
  · by_cases hit : .worker i = t
    · rw [hit, hmine]
      cases hturn with
      | taken hexpects hfree => exact absurd hit.symm ((h.free hfree).outside i)
      | given hold hpc hrest => exact hpc
      | kept hold hpc hsame => exact hpc
    · rw [htheirs _ hit]
      exact h.outside i
  · by_cases hut : u = t
    · by_cases hvt : v = t
      · rw [hut, hvt]
      · have hbusy : pc.isSettled = false := by rw [← hmine, ← hut]; exact hu
        rw [hothers hbusy v hvt] at hv
        cases hv
    · by_cases hvt : v = t
      · have hbusy : pc.isSettled = false := by rw [← hmine, ← hvt]; exact hv
        rw [hothers hbusy u hut] at hu
        cases hu
      · rw [htheirs u hut] at hu
        rw [htheirs v hvt] at hv
        exact h.alone u v hu hv
  · by_cases hut : u = t
    · rw [hut, hmine] at hflags
      cases hturn with
      | taken hexpects hfree => exact Option.some.inj (hexpects.symm.trans hflags)
      | given hold hpc hrest => rw [(pc.isSettled_iff).mp hpc] at hflags; cases hflags
      | kept hold hpc hsame => rw [(pc.isSettled_iff).mp hpc] at hflags; cases hflags
    · rw [htheirs u hut] at hflags
      have hbusy := (isSettled_eq_false_iff _).mpr ⟨flags, hflags⟩
      cases hturn with
      | taken hexpects hfree => rw [(h.free hfree).others u hut] at hbusy; cases hbusy
      | given hold hpc hrest => exact absurd (h.alone u t hbusy hold) hut
      | kept hold hpc hsame => rw [hsame]; exact h.phase u flags hflags
  · cases hturn with
    | taken hexpects hfree =>
      have hsettled := hall t
      rw [hmine, CallPc.isSettled_iff, hexpects] at hsettled
      cases hsettled
    | given hold hpc hrest => exact hrest
    | kept hold hpc hsame =>
      have hflags : s.threadFlags = (s.running, s.running, s.running) := by
        refine h.rest fun u => ?_
        by_cases hut : u = t
        · rw [hut]; exact hold
        · rw [← htheirs u hut]; exact hall u
      have hrunning : s'.running = s.running := congrArg Prod.fst hsame
      rw [hsame, hflags, hrunning]

/-- Neither the flag nor a thread, its object or its loop is touched. -/
structure SameThreads (s s' : LifecycleState) : Prop where
  running : s'.running = s.running
  heartbeats : s'.heartbeats = s.heartbeats
  heartbeatThread : s'.heartbeatThread = s.heartbeatThread
  workers : s'.workers = s.workers
  workerThread : s'.workerThread = s.workerThread
  assignedOver : s'.assignedOver = s.assignedOver
  joinedTwice : s'.joinedTwice = s.joinedTwice

theorem SameThreads.threadFlags (h : SameThreads s s') : s'.threadFlags = s.threadFlags := by
  rw [LifecycleState.threadFlags, h.running, h.heartbeatThread, h.workerThread]
  rfl

theorem Phases.of_same (h : Phases s) (hsame : SameThreads s s')
    (hcallers : s'.callers = Function.update s.callers t pc) (hturn : Turn s s' t pc) :
    Phases s' := by
  refine h.of_turn hcallers hturn ?_ ?_
    ⟨hsame.assignedOver.trans h.clean.1, hsame.joinedTwice.trans h.clean.2⟩
  · rw [hsame.heartbeats, hsame.heartbeatThread]
    exact h.heartbeat
  · rw [hsame.workers, hsame.workerThread]
    exact h.worker

/-- A call that is settled stays so. -/
theorem Phases.kept (h : Phases s) (hsame : SameThreads s s')
    (hcallers : s'.callers = Function.update s.callers t pc)
    (hold : (s.callers t).isSettled = true) (hpc : pc.isSettled = true) : Phases s' :=
  h.of_same hsame hcallers (.kept hold hpc hsame.threadFlags)

/-- One that is not goes on to a place that says the same. -/
theorem Phases.continued (h : Phases s) (hsame : SameThreads s s')
    (hcallers : s'.callers = Function.update s.callers t pc) {f : Bool × Bool × Bool}
    (hold : (s.callers t).expects = some f) (hpc : pc.expects = some f) : Phases s' := by
  have hflags : s'.threadFlags = f := hsame.threadFlags.trans (h.phase t f hold)
  exact h.of_same hsame hcallers
    (.taken (hpc.trans (congrArg some hflags.symm))
      (.inl ((isSettled_eq_false_iff _).mpr ⟨f, hold⟩)))

/-- Or is settled, where the client is as one that starts or stops leaves
it. -/
theorem Phases.finished (h : Phases s) (hsame : SameThreads s s')
    (hcallers : s'.callers = Function.update s.callers t pc) {r : Bool}
    (hold : (s.callers t).expects = some (r, r, r)) (hpc : pc.isSettled = true) : Phases s' := by
  have hflags : s'.threadFlags = (r, r, r) := hsame.threadFlags.trans (h.phase t _ hold)
  have hrunning : s'.running = r := congrArg Prod.fst hflags
  exact h.of_same hsame hcallers
    (.given ((isSettled_eq_false_iff _).mpr ⟨_, hold⟩) hpc (by rw [hflags, hrunning]))

/-- With everybody settled the flag says whether the objects hold threads. -/
theorem Phases.flags_of_free (h : Phases s) (hold : (s.callers t).isSettled = true)
    (hfree : Free s t) :
    s.heartbeatThread.isSome = s.running ∧ s.workerThread.isSome = s.running := by
  have hrest : s.threadFlags = (s.running, s.running, s.running) := by
    refine h.rest fun u => ?_
    by_cases hu : u = t
    · rw [hu]; exact hold
    · exact hfree.others u hu
  simpa [threadFlags] using hrest

/-- What a place says of the flag and the objects, one by one. -/
theorem Phases.flags (h : Phases s) {r b w : Bool}
    (hpc : (s.callers t).expects = some (r, b, w)) :
    s.running = r ∧ s.heartbeatThread.isSome = b ∧ s.workerThread.isSome = w := by
  simpa [threadFlags] using h.phase t _ hpc

/-- An object that holds no thread: none of its loops is alive. -/
theorem Phases.no_heartbeat (h : Phases s) (hnone : s.heartbeatThread.isSome = false) (i : ℕ) :
    (s.heartbeats i).alive = false := by
  by_contra halive
  rw [h.heartbeat i (Bool.not_eq_false _ ▸ halive)] at hnone
  cases hnone

theorem Phases.no_worker (h : Phases s) (hnone : s.workerThread.isSome = false) (i : ℕ) :
    (s.workers i).alive = false := by
  by_contra halive
  rw [h.worker i (Bool.not_eq_false _ ▸ halive)] at hnone
  cases hnone

/-- **A call's step keeps the phase**, if it stores only in its turn. -/
theorem Phases.callSection (h : Phases s)
    (hturns : ∀ value, (s.callers t).stores = some value →
      s.running = !value ∧ (∀ thread, t ≠ .worker thread) ∧
        ∀ u, u ≠ t → (s.callers u).isSettled = true)
    (hstep : CallSection s t s') : Phases s' := by
  cases hstep with
  | refused hpc =>
    have hsettled : (s.callers t).isSettled = true := by
      rcases hpc with hpc | hpc <;> rw [hpc] <;> rfl
    exact h.kept ⟨rfl, rfl, rfl, rfl, rfl, rfl, rfl⟩ rfl hsettled rfl
  | startPassed hpc hrunning =>
    exact h.kept ⟨rfl, rfl, rfl, rfl, rfl, rfl, rfl⟩ rfl (by rw [hpc]; rfl) rfl
  | registrationFailed hpc =>
    exact h.kept ⟨rfl, rfl, rfl, rfl, rfl, rfl, rfl⟩ rfl (by rw [hpc]; rfl) rfl
  | registered hpc =>
    exact h.kept ⟨rfl, rfl, rfl, rfl, rfl, rfl, rfl⟩ rfl (by rw [hpc]; rfl) rfl
  | raised hpc =>
    obtain ⟨hrunning, hout, hothers⟩ := hturns true (by rw [hpc]; rfl)
    have hflags := h.flags_of_free (by rw [hpc]; rfl) ⟨hout, hothers⟩
    refine h.of_turn rfl (.taken ?_ (.inr ⟨hout, hothers⟩)) h.heartbeat h.worker h.clean
    simp [CallPc.expects, threadFlags, goto, hflags, hrunning]
  | heartbeatCreated hpc =>
    have hexpects : (s.callers t).expects = some (true, false, false) := by rw [hpc]; rfl
    obtain ⟨hrunning, hbeat, hworker⟩ := h.flags hexpects
    refine h.of_turn rfl (.taken ?_ (.inl (by rw [hpc]; rfl))) (fun i hi => ?_) h.worker ?_
    · simp [CallPc.expects, threadFlags, goto, hrunning, hworker]
    · -- nobody was alive before, so it is the one just created
      by_cases hnew : i = s.created
      · rw [hnew]; rfl
      · simp only [goto, Function.update_of_ne hnew] at hi
        rw [h.no_heartbeat hbeat i] at hi
        cases hi
    · simp [goto, hbeat, h.clean]
  | workerCreated hpc =>
    have hexpects : (s.callers t).expects = some (true, true, false) := by rw [hpc]; rfl
    obtain ⟨hrunning, hbeat, hworker⟩ := h.flags hexpects
    refine h.of_turn rfl (.taken ?_ (.inl (by rw [hpc]; rfl))) h.heartbeat (fun i hi => ?_) ?_
    · simp [CallPc.expects, threadFlags, goto, hrunning, hbeat]
    · by_cases hnew : i = s.created
      · rw [hnew]; rfl
      · simp only [goto, Function.update_of_ne hnew] at hi
        rw [h.no_worker hworker i] at hi
        cases hi
    · simp [goto, hworker, h.clean]
  | heartbeatFailed hpc =>
    exact h.finished ⟨rfl, rfl, rfl, rfl, rfl, rfl, rfl⟩ rfl (r := true) (by rw [hpc]; rfl) rfl
  | heartbeatAnswered hpc allocations =>
    by_cases hempty : allocations.isEmpty = true
    · exact h.finished ⟨rfl, rfl, rfl, rfl, rfl, rfl, rfl⟩ rfl (r := true) (by rw [hpc]; rfl) hempty
    · exact h.continued ⟨rfl, rfl, rfl, rfl, rfl, rfl, rfl⟩ rfl (f := (true, true, true))
        (by rw [hpc]; rfl) (if_neg hempty)
  | updated allocations hpc now =>
    by_cases hempty : allocations.isEmpty = true
    · exact h.kept ⟨rfl, rfl, rfl, rfl, rfl, rfl, rfl⟩ rfl (by rw [hpc]; exact hempty) rfl
    · exact h.finished ⟨rfl, rfl, rfl, rfl, rfl, rfl, rfl⟩ rfl (r := true)
        (by rw [hpc]; exact if_neg hempty) rfl
  | stopPassed hpc hrunning =>
    exact h.kept ⟨rfl, rfl, rfl, rfl, rfl, rfl, rfl⟩ rfl (by rw [hpc]; rfl) rfl
  | lowered hpc =>
    obtain ⟨hrunning, hout, hothers⟩ := hturns false (by rw [hpc]; rfl)
    have hflags := h.flags_of_free (by rw [hpc]; rfl) ⟨hout, hothers⟩
    refine h.of_turn rfl (.taken ?_ (.inr ⟨hout, hothers⟩)) h.heartbeat h.worker h.clean
    simp [CallPc.expects, threadFlags, goto, hflags, hrunning]
  | heartbeatChecked hpc =>
    have hexpects : (s.callers t).expects = some (false, true, true) := by rw [hpc]; rfl
    obtain ⟨-, hbeat, -⟩ := h.flags hexpects
    rw [hbeat]
    exact h.continued ⟨rfl, rfl, rfl, rfl, rfl, rfl, rfl⟩ rfl hexpects rfl
  | workerChecked hpc =>
    have hexpects : (s.callers t).expects = some (false, false, true) := by rw [hpc]; rfl
    obtain ⟨-, -, hworker⟩ := h.flags hexpects
    rw [hworker]
    exact h.continued ⟨rfl, rfl, rfl, rfl, rfl, rfl, rfl⟩ rfl hexpects rfl
  | joinedNothing hpc =>
    -- a call about to join knows that its object holds a thread
    exfalso
    rcases hpc with ⟨hpc, hnone⟩ | ⟨hpc, hnone⟩
    · have hexpects : (s.callers t).expects = some (false, true, true) := by rw [hpc]; rfl
      obtain ⟨-, hbeat, -⟩ := h.flags hexpects
      rw [hnone] at hbeat
      cases hbeat
    · have hexpects : (s.callers t).expects = some (false, false, true) := by rw [hpc]; rfl
      obtain ⟨-, -, hworker⟩ := h.flags hexpects
      rw [hnone] at hworker
      cases hworker
  | joinedItself hpc thread hself =>
    -- no callback is past its store
    have hsettled := h.outside thread
    rw [← hself, hpc] at hsettled
    cases hsettled
  | heartbeatJoined hpc thread hthread hexited =>
    have hexpects : (s.callers t).expects = some (false, true, true) := by rw [hpc]; rfl
    obtain ⟨hrunning, -, hworker⟩ := h.flags hexpects
    refine h.of_turn rfl (.taken ?_ (.inl (by rw [hpc]; rfl))) (fun i hi => ?_) h.worker h.clean
    · simp [CallPc.expects, threadFlags, goto, hrunning, hworker]
    · -- the one joined has exited, and no other was alive
      have hheld : some thread = some i := hthread.symm.trans (h.heartbeat i hi)
      obtain rfl := Option.some.inj hheld
      change (s.heartbeats thread).alive = true at hi
      rw [hexited] at hi
      cases hi
  | workerJoined hpc thread hthread hexited =>
    have hexpects : (s.callers t).expects = some (false, false, true) := by rw [hpc]; rfl
    obtain ⟨hrunning, hbeat, -⟩ := h.flags hexpects
    refine h.of_turn rfl (.given (by rw [hpc]; rfl) rfl ?_) h.heartbeat (fun i hi => ?_) h.clean
    · simp [threadFlags, goto, hrunning, hbeat]
    · have hheld : some thread = some i := hthread.symm.trans (h.worker i hi)
      obtain rfl := Option.some.inj hheld
      change (s.workers thread).alive = true at hi
      rw [hexited] at hi
      cases hi
  | unregistered hpc =>
    exact h.kept ⟨rfl, rfl, rfl, rfl, rfl, rfl, rfl⟩ rfl (by rw [hpc]; rfl) rfl
  | bucketsCleared hpc =>
    exact h.kept ⟨rfl, rfl, rfl, rfl, rfl, rfl, rfl⟩ rfl (by rw [hpc]; rfl) rfl
  | queueCleared hpc =>
    exact h.kept ⟨rfl, rfl, rfl, rfl, rfl, rfl, rfl⟩ rfl (by rw [hpc]; rfl) rfl

/-! ## The threads -/

theorem Phases.looped (h : Phases s) (hl : Looped s s') : Phases s' where
  outside := by rw [hl.callers]; exact h.outside
  alone := by rw [hl.callers]; exact h.alone
  phase := by
    rw [hl.callers, threadFlags, hl.running, hl.heartbeatThread, hl.workerThread]
    exact h.phase
  rest := by
    rw [hl.callers, threadFlags, hl.running, hl.heartbeatThread, hl.workerThread]
    exact h.rest
  heartbeat i hi := by rw [hl.heartbeatThread]; exact h.heartbeat i (hl.heartbeats i hi)
  worker i hi := by rw [hl.workerThread]; exact h.worker i (hl.workers i hi)
  clean := ⟨hl.assignedOver.trans h.clean.1, hl.joinedTwice.trans h.clean.2⟩

/-- **Every step keeps the phase**, in runs whose calls take turns. -/
theorem Phases.step {a : LifecycleAction} (h : Phases s) (hturns : TakesTurns s a)
    (hstep : s.step a = some s') : Phases s' := by
  unfold LifecycleState.step at hstep
  split at hstep
  · cases hstep
  split at hstep
  · obtain ⟨hpc, rfl⟩ := enter_cases hstep
    exact h.kept ⟨rfl, rfl, rfl, rfl, rfl, rfl, rfl⟩ rfl (by rw [hpc]; rfl) rfl
  · obtain ⟨hpc, rfl⟩ := enter_cases hstep
    exact h.kept ⟨rfl, rfl, rfl, rfl, rfl, rfl, rfl⟩ rfl (by rw [hpc]; rfl) rfl
  · exact h.callSection hturns (callSection_of_step hstep)
  · exact h.looped (looped_heartbeatStep hstep)
  · exact h.looped (looped_workerStep hstep)
  · obtain rfl := Option.some.inj hstep
    exact h.looped (looped_acquire s _ _)

/-! ## What is still owed -/

/-- **What a stopped client must not leave over is owed by some call.** -/
structure Owed (s : LifecycleState) : Prop where
  buckets : s.client.tokenBuckets ≠ ∅ →
    s.running = true ∨ ∃ t, (s.callers t).clears = true
  registrations : EveryRegistrationUndone s.rpcs ∨ s.running = true ∨
    ∃ t, (s.callers t).undoes = true

/-- A thread object is held while the client runs, or until a `Stop` has
joined it. -/
theorem Phases.clears_of_heartbeatThread (h : Phases s) (hthread : s.heartbeatThread.isSome = true) :
    s.running = true ∨ ∃ t, (s.callers t).clears = true := by
  by_cases hall : ∀ t, (s.callers t).isSettled = true
  · left
    have hflags := h.rest hall
    rw [threadFlags, hthread, Prod.mk.injEq, Prod.mk.injEq] at hflags
    exact hflags.2.1.symm
  · obtain ⟨t, ht⟩ := not_forall.mp hall
    obtain ⟨⟨r, b, w⟩, hexpects⟩ := (isSettled_eq_false_iff _).mp (Bool.eq_false_iff.mpr ht)
    obtain ⟨hrunning, hbeat, -⟩ := h.flags hexpects
    obtain rfl : b = true := hbeat.symm.trans hthread
    have hplace : ∀ pc : CallPc, pc.expects = some (r, true, w) → r = true ∨ pc.clears = true := by
      intro pc hpc
      cases pc <;> simp_all [CallPc.expects, CallPc.clears]
    exact (hplace _ hexpects).imp hrunning.trans fun hclears => ⟨t, hclears⟩

/-- Who owes something goes on to a place that owes it, or somebody else
does. -/
theorem exists_moved {p : CallPc → Bool} (hcallers : s'.callers = Function.update s.callers t pc)
    (hkeep : p (s.callers t) = true → p pc = true) (h : ∃ u, p (s.callers u) = true) :
    ∃ u, p (s'.callers u) = true := by
  obtain ⟨u, hu⟩ := h
  refine ⟨u, ?_⟩
  rw [hcallers]
  by_cases hut : u = t
  · rw [hut, Function.update_self]
    exact hkeep (hut ▸ hu)
  · rwa [Function.update_of_ne hut]

/-- A call moves, and leaves the flag, the buckets and the registrations. -/
theorem Owed.moved (h : Owed s) (hcallers : s'.callers = Function.update s.callers t pc)
    (hrunning : s'.running = s.running)
    (hbuckets : s'.client.tokenBuckets = s.client.tokenBuckets)
    (hrpcs : EveryRegistrationUndone s.rpcs → EveryRegistrationUndone s'.rpcs)
    (hclears : (s.callers t).clears = true → pc.clears = true)
    (hundoes : (s.callers t).undoes = true → pc.undoes = true) : Owed s' where
  buckets hne := by
    rw [hbuckets] at hne
    rw [hrunning]
    exact (h.buckets hne).imp_right (exists_moved hcallers hclears)
  registrations := by
    rw [hrunning]
    exact h.registrations.imp hrpcs (Or.imp_right (exists_moved hcallers hundoes))

/-- **A call's step keeps the debts.** -/
theorem Owed.callSection (h : Owed s) (hphases : Phases s) (hphases' : Phases s')
    (hstep : CallSection s t s') : Owed s' := by
  have hclean := hphases'.clean
  cases hstep with
  | refused hpc =>
    refine h.moved rfl rfl rfl id ?_ ?_ <;> rcases hpc with hpc | hpc <;> rw [hpc] <;> exact id
  | startPassed hpc hrunning =>
    exact h.moved rfl rfl rfl id (by rw [hpc]; exact id) (by rw [hpc]; exact id)
  | registrationFailed hpc =>
    exact h.moved rfl rfl rfl (fun hu => everyRegistrationUndone_append (.inr ⟨hu, by simp⟩))
      (by rw [hpc]; exact id) (by rw [hpc]; exact id)
  | registered hpc =>
    have hnone : (s.callers t).clears = true → CallPc.clears .raising = true := by
      rw [hpc]; exact id
    refine ⟨fun hne => (h.buckets hne).imp_right (exists_moved rfl hnone), .inr (.inr ⟨t, ?_⟩)⟩
    simp [goto, CallPc.undoes]
  | raised hpc => exact ⟨fun _ => .inl rfl, .inr (.inl rfl)⟩
  | heartbeatCreated hpc =>
    exact h.moved rfl rfl rfl id (by rw [hpc]; exact id) (by rw [hpc]; exact id)
  | workerCreated hpc =>
    exact h.moved rfl rfl rfl id (by rw [hpc]; exact id) (by rw [hpc]; exact id)
  | heartbeatFailed hpc =>
    exact h.moved rfl rfl rfl (fun hu => everyRegistrationUndone_append (.inr ⟨hu, by simp⟩))
      (by rw [hpc]; exact id) (by rw [hpc]; exact id)
  | heartbeatAnswered hpc allocations =>
    exact h.moved rfl rfl rfl (fun hu => everyRegistrationUndone_append (.inr ⟨hu, by simp⟩))
      (by rw [hpc]; exact id) (by rw [hpc]; exact id)
  | updated allocations hpc now =>
    have hundoes : (s.callers t).undoes = true → CallPc.undoes .idle = true := by
      rw [hpc]; exact id
    refine ⟨fun hne => ?_, h.registrations.imp id (Or.imp_right (exists_moved rfl hundoes))⟩
    -- a `Start` with allocations to apply has the client running
    by_cases hempty : allocations.isEmpty = true
    · exact absurd (tokenBuckets_updateTokenBuckets hempty now) hne
    · have hexpects : (s.callers t).expects = some (true, true, true) := by
        rw [hpc]
        exact if_neg hempty
      exact .inl (hphases.flags hexpects).1
  | stopPassed hpc hrunning =>
    exact h.moved rfl rfl rfl id (by rw [hpc]; exact id) (by rw [hpc]; exact id)
  | lowered hpc =>
    refine ⟨fun _ => .inr ⟨t, ?_⟩, .inr (.inr ⟨t, ?_⟩)⟩
    · simp [goto, CallPc.clears]
    · simp [goto, CallPc.undoes]
  | heartbeatChecked hpc =>
    refine h.moved rfl rfl rfl id ?_ ?_ <;> intro _ <;> split <;> rfl
  | workerChecked hpc =>
    refine h.moved rfl rfl rfl id ?_ ?_ <;> intro _ <;> split <;> rfl
  | joinedNothing hpc => exact absurd hclean.2 (by simp [goto])
  | joinedItself hpc thread hself =>
    have hsettled := hphases.outside thread
    rw [← hself, hpc] at hsettled
    cases hsettled
  | heartbeatJoined hpc thread hthread hexited =>
    exact h.moved rfl rfl rfl id (fun _ => rfl) (fun _ => rfl)
  | workerJoined hpc thread hthread hexited =>
    exact h.moved rfl rfl rfl id (fun _ => rfl) (fun _ => rfl)
  | unregistered hpc =>
    refine ⟨fun hne => (h.buckets hne).imp_right (exists_moved rfl fun _ => rfl), .inl ?_⟩
    exact everyRegistrationUndone_append (.inl rfl)
  | bucketsCleared hpc =>
    have hundoes : (s.callers t).undoes = true → CallPc.undoes .clearingQueue = true := by
      rw [hpc]; exact id
    exact ⟨fun hne => absurd rfl hne,
      h.registrations.imp id (Or.imp_right (exists_moved rfl hundoes))⟩
  | queueCleared hpc =>
    exact h.moved rfl rfl rfl id (by rw [hpc]; exact id) (by rw [hpc]; exact id)

theorem Owed.looped (h : Owed s) (hphases : Phases s) (hl : Looped s s') : Owed s' where
  buckets hne := by
    rw [hl.running, hl.callers]
    rcases hl.buckets hne with hold | ⟨i, halive⟩
    · exact h.buckets hold
    · exact hphases.clears_of_heartbeatThread (by rw [hphases.heartbeat i halive]; rfl)
  registrations := by
    rw [hl.running, hl.callers]
    refine h.registrations.imp_left fun hundone => ?_
    rcases hl.rpcs with heq | ⟨ok, heq⟩
    · rwa [heq]
    · rw [heq]
      exact everyRegistrationUndone_append (.inr ⟨hundone, by simp⟩)

theorem Owed.step {a : LifecycleAction} (h : Owed s) (hphases : Phases s) (hphases' : Phases s')
    (hstep : s.step a = some s') : Owed s' := by
  unfold LifecycleState.step at hstep
  split at hstep
  · cases hstep
  split at hstep
  · obtain ⟨hpc, rfl⟩ := enter_cases hstep
    exact h.moved rfl rfl rfl id (by rw [hpc]; exact id) (by rw [hpc]; exact id)
  · obtain ⟨hpc, rfl⟩ := enter_cases hstep
    exact h.moved rfl rfl rfl id (by rw [hpc]; exact id) (by rw [hpc]; exact id)
  · exact h.callSection hphases hphases' (callSection_of_step hstep)
  · exact h.looped hphases (looped_heartbeatStep hstep)
  · exact h.looped hphases (looped_workerStep hstep)
  · obtain rfl := Option.some.inj hstep
    exact h.looped hphases (looped_acquire s _ _)

/-! ## The result -/

theorem Phases.sound (h : Phases s) (howed : Owed s) : Sound s where
  oneHeartbeat i j hi hj := Option.some.inj ((h.heartbeat i hi).symm.trans (h.heartbeat j hj))
  oneWorker i j hi hj := Option.some.inj ((h.worker i hi).symm.trans (h.worker j hj))
  notAssignedOver := h.clean.1
  notJoinedTwice := h.clean.2
  stopped hrunning hidle := by
    have hflags := h.rest fun t => by rw [hidle t]; rfl
    rw [threadFlags, hrunning, Prod.mk.injEq, Prod.mk.injEq] at hflags
    refine ⟨h.no_heartbeat hflags.2.1, h.no_worker hflags.2.2, ?_, ?_⟩
    · by_contra hne
      rcases howed.buckets hne with hup | ⟨t, hclears⟩
      · rw [hrunning] at hup
        cases hup
      · rw [hidle t] at hclears
        cases hclears
    · rcases howed.registrations with hundone | hup | ⟨t, hundoes⟩
      · exact hundone
      · rw [hrunning] at hup
        cases hup
      · rw [hidle t] at hundoes
        cases hundoes

theorem phases_and_owed (h : lifecycleSystem.ReachableVia TakesTurns s) : Phases s ∧ Owed s := by
  refine GuardedSystem.ReachableVia.invariant (P := fun s => Phases s ∧ Owed s) ?_ ?_ h
  · refine ⟨⟨fun i => rfl, fun t u ht => ?_, fun t flags ht => ?_, fun _ => rfl, fun i hi => ?_,
      fun i hi => ?_, rfl, rfl⟩, fun hne => absurd rfl hne, .inl fun before after heq => ?_⟩
    · cases ht
    · cases ht
    · cases hi
    · cases hi
    · simp [lifecycleSystem] at heq
  · rintro s a s' ⟨hphases, howed⟩ hturns hstep
    have hphases' := hphases.step hturns hstep
    exact ⟨hphases', howed.step hphases hphases' hstep⟩

/-- **Where calls take turns the lifecycle is sound**, in every state
reached, whatever the loops, the callbacks and the stub do. -/
theorem sound_of_takesTurns (h : lifecycleSystem.ReachableVia TakesTurns s) : Sound s := by
  obtain ⟨hphases, howed⟩ := phases_and_owed h
  exact hphases.sound howed

/-! ## One thread that starts and stops -/

/-- **One thread of the application makes all the calls**, and the flag is as
its test found it. -/
structure OneCaller (t : ℕ) (s : LifecycleState) : Prop where
  others : ∀ u, u ≠ .app t → s.callers u = .idle
  found : (s.callers (.app t) = .registering ∨ s.callers (.app t) = .raising →
      s.running = false) ∧ (s.callers (.app t) = .lowering → s.running = true)

theorem oneCaller_init (t : ℕ) : OneCaller t lifecycleSystem.init :=
  ⟨fun _ _ => rfl, fun _ => rfl, fun hpc => by cases hpc⟩

/-- It takes turns with itself. -/
theorem OneCaller.takesTurns {a : LifecycleAction} {t : ℕ} (h : OneCaller t s)
    (hmine : ∀ u, caller a = some u → u = .app t) : TakesTurns s a := by
  cases a with
  | callStep u answer now =>
    obtain rfl := hmine u rfl
    intro value hvalue
    refine ⟨?_, fun _ => LifecycleCaller.noConfusion, fun v hv => by rw [h.others v hv]; rfl⟩
    cases hpc : s.callers (.app t) with
    | raising =>
      obtain rfl : true = value := by simpa [hpc, CallPc.stores] using hvalue
      exact h.found.1 (.inr hpc)
    | lowering =>
      obtain rfl : false = value := by simpa [hpc, CallPc.stores] using hvalue
      exact h.found.2 hpc
    | _ => simp [hpc, CallPc.stores] at hvalue
  | _ => trivial

/-- A step of a call tests the flag before it goes to store. -/
theorem found_of_callSection (h : (s.callers t = .registering ∨ s.callers t = .raising →
      s.running = false) ∧ (s.callers t = .lowering → s.running = true))
    (hstep : CallSection s t s') :
    (s'.callers t = .registering ∨ s'.callers t = .raising → s'.running = false) ∧
      (s'.callers t = .lowering → s'.running = true) := by
  cases hstep with
  | startPassed hpc hrunning => exact ⟨fun _ => hrunning, fun hlater => by simp [goto] at hlater⟩
  | registered hpc =>
    exact ⟨fun _ => h.1 (.inl hpc), fun hlater => by simp [goto] at hlater⟩
  | stopPassed hpc hrunning => exact ⟨fun hlater => by simp [goto] at hlater, fun _ => hrunning⟩
  | heartbeatChecked hpc =>
    refine ⟨fun hlater => ?_, fun hlater => ?_⟩ <;>
      · simp only [goto, Function.update_self] at hlater
        split at hlater <;> simp at hlater
  | workerChecked hpc =>
    refine ⟨fun hlater => ?_, fun hlater => ?_⟩ <;>
      · simp only [goto, Function.update_self] at hlater
        split at hlater <;> simp at hlater
  | _ => refine ⟨fun hlater => ?_, fun hlater => ?_⟩ <;> simp [goto] at hlater

theorem OneCaller.step {a : LifecycleAction} {t : ℕ} (h : OneCaller t s)
    (hmine : ∀ u, caller a = some u → u = .app t) (hstep : s.step a = some s') :
    OneCaller t s' := by
  refine ⟨fun u hu => ?_, ?_⟩
  · rw [callers_step hstep fun hcaller => hu (hmine u hcaller)]
    exact h.others u hu
  unfold LifecycleState.step at hstep
  split at hstep
  · cases hstep
  split at hstep
  · obtain rfl := hmine _ rfl
    obtain ⟨-, rfl⟩ := enter_cases hstep
    simp [goto]
  · obtain rfl := hmine _ rfl
    obtain ⟨-, rfl⟩ := enter_cases hstep
    simp [goto]
  · obtain rfl := hmine _ rfl
    exact found_of_callSection h.found (callSection_of_step hstep)
  · have hl := looped_heartbeatStep hstep
    rw [hl.callers, hl.running]
    exact h.found
  · have hl := looped_workerStep hstep
    rw [hl.callers, hl.running]
    exact h.found
  · obtain rfl := Option.some.inj hstep
    exact h.found

/-- **Where nobody else starts or stops the client** every run does as the
calls are made. -/
theorem reachableVia_of_oneCaller {t : ℕ} (h : lifecycleSystem.ReachableVia TakesTurns s)
    (hcaller : OneCaller t s) {run : List LifecycleAction}
    (hrun : lifecycleSystem.runFrom s run = some s')
    (hone : ∀ a ∈ run, ∀ u, caller a = some u → u = .app t) :
    lifecycleSystem.ReachableVia TakesTurns s' := by
  induction run generalizing s with
  | nil =>
    obtain rfl : s = s' := by simpa [GuardedSystem.runFrom] using hrun
    exact h
  | cons a run ih =>
    rw [GuardedSystem.runFrom] at hrun
    obtain ⟨mid, hstep, hrest⟩ := Option.bind_eq_some_iff.mp hrun
    have hmine := hone a List.mem_cons_self
    exact ih (h.step (hcaller.takesTurns hmine) hstep) (hcaller.step hmine hstep) hrest
      fun b hb => hone b (List.mem_cons_of_mem _ hb)

/-- A client is started and, once its loops have run, stopped, while the
callback of a queued request runs. -/
def startedAndStopped : List LifecycleAction :=
  let accepted : StubAnswer := ⟨true, (∅ : OrderedMap ResourceId ℚ).insert 1 5⟩
  let call := LifecycleAction.callStep (.app 0) accepted fun _ => 0
  let beat := LifecycleAction.heartbeatStep 0 accepted fun _ => 0
  let work := LifecycleAction.workerStep 1 0
  [.acquire ⟨1, 1, some 7⟩ 0, .start (.app 0), call, call, call, call, call, call, beat, beat, beat,
   call, beat, work, work, work, .stop (.app 0), call, call, call, beat, call, call, work, work,
   call, call, call, call]

theorem startedAndStopped_sound :
    ∃ s, lifecycleSystem.runFrom lifecycleSystem.init startedAndStopped = some s ∧
      s.rpcs = [.registerClient true, .heartbeat true, .heartbeat true, .unregisterClient] ∧
      Sound s := by
  have hrun : (lifecycleSystem.runFrom lifecycleSystem.init startedAndStopped).map
      (fun s => s.rpcs) =
        some [.registerClient true, .heartbeat true, .heartbeat true, .unregisterClient] := by
    decide +kernel
  obtain ⟨s, hs, hrpcs⟩ := Option.map_eq_some_iff.mp hrun
  exact ⟨s, hs, hrpcs, sound_of_takesTurns
    (reachableVia_of_oneCaller .init (oneCaller_init 0) hs (by decide))⟩

/-! ## Two threads that do not take turns -/

/-- Two threads call `Start` on a client that is not running, and both find
it so. -/
def overlappingStarts : List LifecycleAction :=
  let call (t : ℕ) := LifecycleAction.callStep (.app t) ⟨true, ∅⟩ fun _ => 0
  [.start (.app 0), .start (.app 1), call 0, call 1, call 0, call 1, call 0, call 0, call 0,
   call 1, call 1]

/-- **The second `Start` assigns over the first's thread.** -/
theorem overlappingStarts_not_sound : ¬ ∀ s, lifecycleSystem.Reachable s → Sound s := by
  intro hall
  have hrun : (lifecycleSystem.runFrom lifecycleSystem.init overlappingStarts).map
      (fun s => s.assignedOver) = some true := by decide +kernel
  obtain ⟨s, hs, hover⟩ := Option.map_eq_some_iff.mp hrun
  have hsound := hall s (GuardedSystem.Reachable.runFrom .init hs)
  rw [hsound.notAssignedOver] at hover
  cases hover

/-- A worker runs the callback of a queued request, and that stops the
client. -/
def stoppedByCallback : List LifecycleAction :=
  let granting : StubAnswer := ⟨true, (∅ : OrderedMap ResourceId ℚ).insert 1 5⟩
  let call (caller : LifecycleCaller) := LifecycleAction.callStep caller granting fun _ => 0
  let work := LifecycleAction.workerStep 1 0
  [.acquire ⟨1, 1, some 7⟩ 0, .start (.app 0)] ++ List.replicate 7 (call (.app 0)) ++
    [work, work, work, .stop (.worker 1)] ++ List.replicate 3 (call (.worker 1)) ++
    [.heartbeatStep 0 granting fun _ => 0] ++ List.replicate 3 (call (.worker 1)) ++ [work, work]

/-- **Its `Stop` joins the thread it runs on**: the flag is down and the
loops are over, and the client is still registered and has its bucket. -/
example : (lifecycleSystem.runFrom lifecycleSystem.init stoppedByCallback).map (fun s =>
      (s.running, s.workerThread, s.client.tokenBuckets.keys)) = some (false, some 1, [1]) ∧
    (lifecycleSystem.runFrom lifecycleSystem.init stoppedByCallback).map (fun s => s.rpcs) =
      some [.registerClient true, .heartbeat true] := by
  decide +kernel

end LifecycleState

end Throttling
