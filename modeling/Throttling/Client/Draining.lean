import Throttling.Common.Liveness
import Throttling.Client.Helpers.Touches
import Throttling.Client.Queue
import Mathlib.Algebra.Order.Archimedean.Basic
/-!
# The queue drains

The worker puts back a head it cannot pay for and tries again. These
attempts come to an end where the head's bucket stays, earns, and can ever
hold the count, unless calls of `Acquire` take what it earns. So where
that is so of all that waits, and the worker gets on, everything in line
is executed, in order (`executed_of_affords`).
-/

namespace Throttling

open GuardedSystem.Execution

/-- A section of the worker. -/
def ClientAction.IsWorkerStep (a : ClientAction) : Prop := ∃ now freed, a = .workerStep now freed

namespace ClientThreads

variable {s s' : ClientThreads} {a : ClientAction} {r : ResourceId} {q : Acquisition}
variable {E : clientSystem.Execution} {clock : ℕ → TimePoint} {rate : ℚ} {k n m : ℕ}

/-- **Everybody in line**: whom the worker executed, whom it holds, and who
is pending. -/
def line (s : ClientThreads) : List Acquisition :=
  s.workerExecuted ++ (s.worker.held ++ s.pendingQueue)

/-- A request is the next one to execute. -/
def IsNext (s : ClientThreads) (q : Acquisition) : Prop :=
  (s.worker.held ++ s.pendingQueue).head? = some q

/-- A client that runs has a worker that is not done. -/
def Alive (s : ClientThreads) : Prop :=
  s.isRunning = true → s.worker ≠ .noThread ∧ s.worker ≠ .exited

/-- **The client is not stopped** any more, its worker gets on, and its
callbacks return. -/
structure Serves (E : clientSystem.Execution) (n : ℕ) : Prop where
  running : (E.state n).isRunning = true
  unstopped : ∀ m, n ≤ m → E.action m ≠ some .stop
  worker : E.WeaklyFair ClientAction.IsWorkerStep
  returns : ∀ m, n ≤ m → (E.state m).worker = .running →
    ∃ j, m ≤ j ∧ (E.state j).worker ≠ .running

/-- **Readings follow a clock** that never stops. -/
structure ClockedBy (E : clientSystem.Execution) (clock : ℕ → TimePoint) : Prop where
  mono : ∀ {m m' : ℕ}, m ≤ m' → clock m ≤ clock m'
  reads : ∀ m a, E.action m = some a → a.ReadsWithin (clock m) (clock (m + 1))
  unbounded : ∀ t, ∃ m, t ≤ clock m

/-- **A request will be affordable**: its bucket stays, earns at some rate,
can hold the count, and no call of `Acquire` takes from it. -/
structure Affords (E : clientSystem.Execution) (n : ℕ) (q : Acquisition) (rate : ℚ) : Prop where
  pos : 0 < rate
  bucket : ∀ m, n ≤ m → ∃ owned : OwnedBucket,
    (E.state m).tokenBuckets[q.resourceId]? = some owned ∧
      rate ≤ owned.bucket.rate ∧ q.count ≤ owned.bucket.burstSize
  untaken : ∀ m a, n ≤ m → E.action m = some a → ¬ (E.state m).Takes q.resourceId a

/-! ## The line -/

theorem line_acquireSection {t : Caller} (h : AcquireSection s t s') : s.line <+: s'.line := by
  cases h with
  | pushed request outer hframes =>
    refine ⟨[request], ?_⟩
    simp only [line, setFrames, List.append_assoc]
  | _ => exact List.prefix_rfl

theorem line_workerSection (h : WorkerSection s s') : s'.line = s.line := by
  cases h with
  | turn worker hworker hworker' =>
    have hempty : s.worker.held = [] := by
      rcases hworker with h | h | h <;> rw [h] <;> rfl
    have hempty' : worker.held = [] := by
      rcases hworker' with h | h | h <;> rw [h] <;> rfl
    simp only [line, hempty, hempty']
  | taken request rest hworker hqueue => simp [line, hworker, hqueue, WorkerPc.held]
  | lookup request hworker => simp only [line, hworker, WorkerPc.held]
  | refused request bucket hworker buckets hsame => simp only [line, hworker, WorkerPc.held]
  | granted request bucket hworker buckets hsame => simp only [line, hworker, WorkerPc.held]
  | executed request hworker worker hworker' =>
    rcases hworker' with rfl | rfl <;> simp [line, hworker, WorkerPc.held]
  | requeued request hworker => simp [line, hworker, WorkerPc.held]

/-- **Nobody leaves the line** but by a `Stop`. -/
theorem line_of_step (h : s.step a = some s') (ha : a ≠ .stop) : s.line <+: s'.line := by
  cases a with
  | start =>
    change s.start = some s' at h
    unfold start at h
    split at h
    · rename_i hguard
      obtain rfl := Option.some.inj h
      simp [line, hguard.2, WorkerPc.held]
    · cases h
  | stop => exact absurd rfl ha
  | updateTokenBuckets now allocations =>
    obtain rfl := Option.some.inj h
    exact List.prefix_rfl
  | acquire caller request =>
    obtain ⟨tickets, frames, rfl⟩ := exists_of_acquire h
    exact List.prefix_rfl
  | acquireStep caller now freed => exact line_acquireSection (acquireSection_of_step h)
  | workerStep now freed => rw [line_workerSection (workerSection_of_step h)]

theorem workerExecuted_of_step (h : s.step a = some s') :
    s.workerExecuted <+: s'.workerExecuted := by
  cases a with
  | start =>
    have hsec := controlSection_of_start h
    cases hsec <;> exact List.prefix_rfl
  | stop =>
    have hsec := controlSection_of_stop h
    cases hsec <;> exact List.prefix_rfl
  | updateTokenBuckets now allocations =>
    obtain rfl := Option.some.inj h
    exact List.prefix_rfl
  | acquire caller request =>
    obtain ⟨tickets, frames, rfl⟩ := exists_of_acquire h
    exact List.prefix_rfl
  | acquireStep caller now freed =>
    have hsec := acquireSection_of_step h
    cases hsec <;> exact List.prefix_rfl
  | workerStep now freed =>
    have hsec := workerSection_of_step h
    cases hsec with
    | executed request hworker worker hworker' => exact List.prefix_append _ _
    | _ => exact List.prefix_rfl

/-! ## The worker -/

theorem alive_of_workerStep {now : TimePoint} {freed : Bool}
    (h : s.workerStep now freed = some s') : s'.Alive := by
  intro hrunning
  unfold workerStep at h
  split at h
  · cases h
  · obtain rfl := Option.some.inj h
    change s.isRunning = true at hrunning
    dsimp only
    rw [if_pos hrunning]
    exact ⟨nofun, nofun⟩
  · split at h
    · obtain rfl := Option.some.inj h
      change s.isRunning = true at hrunning
      dsimp only
      rw [if_pos hrunning]
      exact ⟨nofun, nofun⟩
    · obtain rfl := Option.some.inj h
      exact ⟨nofun, nofun⟩
  · obtain rfl := Option.some.inj h
    exact ⟨nofun, nofun⟩
  · rename_i request bucket hworker
    obtain ⟨ok, buckets, hsame, heq⟩ := tryConsume_eq s request bucket now freed
    rw [heq] at h
    obtain rfl := Option.some.inj h
    cases ok <;> exact ⟨nofun, nofun⟩
  · obtain rfl := Option.some.inj h
    dsimp only
    split <;> exact ⟨nofun, nofun⟩
  · split at h
    · obtain rfl := Option.some.inj h
      exact ⟨nofun, nofun⟩
    · cases h
  · obtain rfl := Option.some.inj h
    exact ⟨nofun, nofun⟩
  · cases h

theorem alive_of_controlSection (h : ControlSection s s') (halive : s.Alive) : s'.Alive := by
  cases h with
  | started hworker => exact fun _ => ⟨nofun, nofun⟩
  | flagged => exact nofun
  | joined hworker => exact fun hrunning => absurd hworker (halive hrunning).2
  | clearedBuckets hstop => exact halive
  | clearedQueue => exact halive

theorem alive_of_reachable (h : clientSystem.Reachable s) : s.Alive := by
  refine GuardedSystem.Reachable.invariant (P := Alive) (fun hrunning => ?_)
    (fun s a s' halive hstep => ?_) h
  · cases hrunning
  cases a with
  | start => exact alive_of_controlSection (controlSection_of_start hstep) halive
  | stop => exact alive_of_controlSection (controlSection_of_stop hstep) halive
  | updateTokenBuckets now allocations =>
    obtain rfl := Option.some.inj hstep
    exact halive
  | acquire caller request =>
    obtain ⟨tickets, frames, rfl⟩ := exists_of_acquire hstep
    exact halive
  | acquireStep caller now freed =>
    have hsec := acquireSection_of_step hstep
    cases hsec <;> exact halive
  | workerStep now freed => exact alive_of_workerStep hstep

/-- **A worker that is not done** and in no callback can take its next
section. -/
theorem workerStep_isSome (halive : s.worker ≠ .noThread ∧ s.worker ≠ .exited)
    (hrunning : s.worker ≠ .running) (now : TimePoint) (freed : Bool) :
    (s.workerStep now freed).isSome = true := by
  unfold workerStep
  split
  · exact absurd ‹_› halive.1
  · rfl
  · split <;> rfl
  · rfl
  · rfl
  · rfl
  · exact absurd ‹_› hrunning
  · rfl
  · exact absurd ‹_› halive.2

/-- In a client that runs and is not being stopped, only the worker moves
the worker. -/
theorem worker_of_step (h : s.step a = some s') (hrunning : s.isRunning = true)
    (ha : a ≠ .stop) :
    s'.isRunning = true ∧ (s'.worker = s.worker ∨ a.IsWorkerStep) := by
  cases a with
  | start =>
    change s.start = some s' at h
    unfold start at h
    split at h
    · rename_i hguard
      rw [hrunning] at hguard
      cases hguard.1
    · cases h
  | stop => exact absurd rfl ha
  | updateTokenBuckets now allocations =>
    obtain rfl := Option.some.inj h
    exact ⟨hrunning, .inl rfl⟩
  | acquire caller request =>
    obtain ⟨tickets, frames, rfl⟩ := exists_of_acquire h
    exact ⟨hrunning, .inl rfl⟩
  | acquireStep caller now freed =>
    have hsec := acquireSection_of_step h
    refine ⟨?_, .inl hsec.worker⟩
    cases hsec <;> exact hrunning
  | workerStep now freed =>
    have hsec := workerSection_of_step h
    refine ⟨?_, .inr ⟨now, freed, rfl⟩⟩
    cases hsec <;> exact hrunning

namespace Serves

variable (h : Serves E n)
include h

theorem isRunning (hm : n ≤ m) : (E.state m).isRunning = true := by
  refine stays (P := fun s : ClientThreads => s.isRunning = true) hm h.running
    fun j a hj _ haction hrunning => ?_
  exact (worker_of_step (E.moved j a haction) hrunning
    fun hstop => h.unstopped j hj (hstop ▸ haction)).1

theorem line_prefix (hk : n ≤ k) (hm : k ≤ m) : (E.state k).line <+: (E.state m).line := by
  refine stays (P := fun s : ClientThreads => (E.state k).line <+: s.line) hm List.prefix_rfl
    fun j a hj _ haction hsofar => ?_
  exact hsofar.trans (line_of_step (E.moved j a haction)
    fun hstop => h.unstopped j (hk.trans hj) (hstop ▸ haction))

/-- **The worker takes its next section.** -/
theorem exists_turn (hm : n ≤ m) : ∃ j now freed, m ≤ j ∧
    (E.state j).worker = (E.state m).worker ∧
    (E.state j).workerStep now freed = some (E.state (j + 1)) ∧
    E.action j = some (.workerStep now freed) := by
  by_contra hnever
  have hforever : ∀ j, m ≤ j → (E.state j).worker = (E.state m).worker := by
    intro j hj
    refine stays (P := fun s : ClientThreads => s.worker = _) hj rfl
      fun i a hi _ haction hsame => ?_
    rcases (worker_of_step (E.moved i a haction) (h.isRunning (hm.trans hi))
      fun hstop => h.unstopped i (hm.trans hi) (hstop ▸ haction)).2 with
        hkept | ⟨now, freed, rfl⟩
    · exact hkept.trans hsame
    · exact absurd ⟨i, now, freed, hi, hsame, E.moved i _ haction, haction⟩ hnever
  by_cases hrunning : (E.state m).worker = .running
  · obtain ⟨j, hj, hleft⟩ := h.returns m hm hrunning
    exact hleft ((hforever j hj).trans hrunning)
  · obtain ⟨j, hj, a, haction, now, freed, rfl⟩ := h.worker m fun j hj => by
      refine ⟨.workerStep 0 false, ⟨0, false, rfl⟩, ?_⟩
      have halive := alive_of_reachable (reachable (E := E) j) (h.isRunning (hm.trans hj))
      exact workerStep_isSome halive (hforever j hj ▸ hrunning) 0 false
    exact hnever ⟨j, now, freed, hj, hforever j hj, E.moved j _ haction, haction⟩

end Serves

/-! ## The buckets -/

/-- Every bucket is well formed, and no later than its step's readings. -/
theorem Touched.wf {t u : TimePoint} {owned' : OwnedBucket} (h : Touched s a s' r)
    (hold : ∀ owned : OwnedBucket, s.tokenBuckets[r]? = some owned →
      owned.bucket.Wf ∧ owned.bucket.lastRefillTime ≤ t)
    (hreads : a.ReadsWithin t u) (htu : t ≤ u) (hnew : s'.tokenBuckets[r]? = some owned') :
    owned'.bucket.Wf ∧ owned'.bucket.lastRefillTime ≤ u := by
  cases h with
  | kept heq =>
    obtain ⟨hwf, hlast⟩ := hold owned' (heq ▸ hnew)
    exact ⟨hwf, hlast.trans htu⟩
  | gone hnone =>
    rw [hnone] at hnew
    cases hnew
  | created hnone hwithin heq =>
    obtain rfl := Option.some.inj (heq.symm.trans hnew)
    exact ⟨TokenBucket.wf_new _ _ _, (hwithin t u hreads).2⟩
  | rateSet hfound hwithin heq =>
    obtain rfl := Option.some.inj (heq.symm.trans hnew)
    refine ⟨TokenBucket.wf_setRate (hold _ hfound).1 _ _, ?_⟩
    simpa using (hwithin t u hreads).2
  | tried hfound hwithin hwho heq =>
    obtain rfl := Option.some.inj (heq.symm.trans hnew)
    obtain ⟨hwf, hlast⟩ := hold _ hfound
    obtain ⟨hlo, hhi⟩ := hwithin t u hreads
    exact ⟨TokenBucket.wf_tryConsume hwf _ _,
      (TokenBucket.tryConsume_lastRefillTime_le (hlast.trans hlo)).trans hhi⟩

/-- **A bucket from which nobody takes** goes on earning, and is the same
one. -/
theorem Touched.earned {t u start : TimePoint} {owned owned' : OwnedBucket}
    (h : Touched s a s' r) (hold : s.tokenBuckets[r]? = some owned) (hwf : owned.bucket.Wf)
    (hlast : owned.bucket.lastRefillTime ≤ t) (hreads : a.ReadsWithin t u) (hrate : 0 ≤ rate)
    (hle : rate ≤ owned.bucket.rate) (hearned : owned.bucket.Earned rate start)
    (huntaken : ¬ s.Takes r a) (hworker : ∀ request, s'.worker ≠ .execute request)
    (hnew : s'.tokenBuckets[r]? = some owned') :
    owned'.bucket.Earned rate start ∧ owned'.bucket.burstSize = owned.bucket.burstSize ∧
      owned'.generation = owned.generation := by
  cases h with
  | kept heq =>
    obtain rfl := Option.some.inj (hold.symm.trans (heq ▸ hnew))
    exact ⟨hearned, rfl, rfl⟩
  | gone hnone =>
    rw [hnone] at hnew
    cases hnew
  | created hnone hwithin heq =>
    rw [hnone] at hold
    cases hold
  | rateSet hfound hwithin heq =>
    obtain rfl := Option.some.inj (hfound.symm.trans hold)
    obtain rfl := Option.some.inj (heq.symm.trans hnew)
    have hnow := hlast.trans (hwithin t u hreads).1
    exact ⟨hearned.setRate hwf hrate hle hnow _, TokenBucket.setRate_burstSize _ _ _, rfl⟩
  | @tried _ count now hfound hwithin hwho heq =>
    obtain rfl := Option.some.inj (hold.symm.trans hfound)
    obtain rfl := Option.some.inj (heq.symm.trans hnew)
    refine ⟨?_, TokenBucket.tryConsume_burstSize _ _ _, rfl⟩
    dsimp only
    by_cases hgranted : (owned.bucket.tryConsume count now).1 = true
    · -- a grant nobody is given takes nothing
      rcases le_or_gt count 0 with hcount | hcount
      · rw [TokenBucket.tryConsume_of_nonpos hcount]
        exact hearned
      · rcases hwho hgranted hcount with htakes | ⟨request, hexecutes⟩
        · exact absurd htakes huntaken
        · exact absurd hexecutes (hworker request)
    · rw [TokenBucket.tryConsume_snd_of_refused (Bool.eq_false_iff.mpr hgranted)]
      exact hearned.refillLocked hwf hrate hle (hlast.trans (hwithin t u hreads).1)

/-- **The bucket that is registered decides.** -/
theorem worker_of_registered {request : Acquisition} {now : TimePoint} {freed : Bool}
    {owned : OwnedBucket} (h : s.workerStep now freed = some s')
    (hworker : s.worker = .consume request (s.registered r))
    (hfound : s.tokenBuckets[r]? = some owned) :
    s'.worker = if (owned.bucket.tryConsume request.count now).1 then .execute request
      else .requeue request := by
  have hregistered : s.registered r = some ⟨r, owned.generation⟩ := by
    rw [registered, hfound]
    rfl
  have hsame : (s.tryConsume request (s.registered r) now freed).1 =
      (owned.bucket.tryConsume request.count now).1 := by
    simp only [hregistered, tryConsume, consumeFrom, hfound, if_true]
  rw [workerStep, hworker] at h
  obtain rfl := Option.some.inj h
  rw [← hsame]
  rfl

theorem ClockedBy.wf (h : ClockedBy E clock) (m : ℕ) {owned : OwnedBucket}
    (hfound : (E.state m).tokenBuckets[r]? = some owned) :
    owned.bucket.Wf ∧ owned.bucket.lastRefillTime ≤ clock m := by
  induction m generalizing owned with
  | zero =>
    rw [E.start] at hfound
    simp [clientSystem] at hfound
  | succ m ih =>
    have hlater := h.mono (Nat.le_succ m)
    cases haction : E.action m with
    | none =>
      rw [E.rested m haction] at hfound
      obtain ⟨hwf, hlast⟩ := ih hfound
      exact ⟨hwf, hlast.trans hlater⟩
    | some a =>
      exact (touched_of_step (E.moved m a haction) r).wf (fun owned => ih)
        (h.reads m a haction) hlater hfound

/-- **Any burst is earned** in time. -/
theorem ClockedBy.exists_full (h : ClockedBy E clock) (start : TimePoint) (hrate : 0 < rate)
    (burstSize : ℚ) : ∃ m, ∀ now, clock m ≤ now →
      burstSize ≤ elapsedSeconds ℚ start now * rate := by
  obtain ⟨seconds, hseconds⟩ := exists_nat_ge (burstSize / rate)
  obtain ⟨m, hm⟩ := h.unbounded (start + seconds * ticksPerSecond)
  refine ⟨m, fun now hnow => ?_⟩
  have hpassed : (seconds : ℚ) ≤ elapsedSeconds ℚ start now := by
    have hlate : ((start + seconds * ticksPerSecond : ℤ) : ℚ) ≤ now := by
      exact_mod_cast hm.trans hnow
    rw [elapsedSeconds_eq, le_div_iff₀ (by norm_num)]
    push_cast [ticksPerSecond] at hlate
    linarith
  rw [div_le_iff₀ hrate] at hseconds
  exact hseconds.trans (mul_le_mul_of_nonneg_right hpassed hrate.le)

/-! ## The head -/

/-- **A request is next from a time on**, and is never executed. -/
structure Stuck (E : clientSystem.Execution) (k : ℕ) (q : Acquisition) : Prop where
  next : ∀ m, k ≤ m → (E.state m).IsNext q
  executed : ∀ m, k ≤ m → (E.state m).workerExecuted = (E.state k).workerExecuted

/-- Who is next and never among the executed. -/
theorem Serves.stuck (h : Serves E n) (hk : n ≤ k)
    (hnext : (E.state k).workerExecuted ++ [q] <+: (E.state k).line)
    (hnever : ∀ m, k ≤ m →
      ¬ (E.state k).workerExecuted ++ [q] <+: (E.state m).workerExecuted) : Stuck E k q := by
  have hsame : ∀ m, k ≤ m → (E.state m).workerExecuted = (E.state k).workerExecuted := by
    intro m hm
    refine stays (P := fun s : ClientThreads => s.workerExecuted = _) hm rfl
      fun j a hj hjm haction hsame => ?_
    have hgrown := workerExecuted_of_step (E.moved j a haction)
    rw [hsame] at hgrown
    have hline : (E.state (j + 1)).workerExecuted <+: (E.state (j + 1)).line :=
      List.prefix_append _ _
    have hinline := hnext.trans (h.line_prefix hk (m := j + 1) (by omega))
    rcases List.prefix_or_prefix_of_prefix hinline hline with hdone | hbefore
    · exact absurd hdone (hnever (j + 1) (by omega))
    · rcases List.prefix_concat_iff.mp hbefore with heq | hbefore
      · exact absurd (heq ▸ List.prefix_rfl) (hnever (j + 1) (by omega))
      · exact hbefore.eq_of_length_le hgrown.length_le
  refine ⟨fun m hm => ?_, hsame⟩
  have hinline := hnext.trans (h.line_prefix hk hm)
  rw [line, hsame m hm, List.prefix_append_right_inj] at hinline
  exact List.head?_eq_some_iff.mpr ⟨_, hinline.choose_spec.symm⟩

namespace Stuck

variable (h : Stuck E k q) (hserves : Serves E n) (hk : n ≤ k)
include h hserves hk

/-- The worker is never about to execute anything. -/
theorem worker_ne_execute (hm : k ≤ m) (request : Acquisition) :
    (E.state m).worker ≠ .execute request := by
  intro hworker
  obtain ⟨j, now, freed, hj, hsame, hmoved, -⟩ := hserves.exists_turn (hk.trans hm)
  rw [workerStep, hsame.trans hworker] at hmoved
  have hexecuted := congrArg workerExecuted (Option.some.inj hmoved)
  rw [h.executed (j + 1) (by omega)] at hexecuted
  change (E.state j).workerExecuted ++ [request] = _ at hexecuted
  rw [h.executed j (by omega)] at hexecuted
  simp at hexecuted

/-- **The worker takes it in its hand** again and again. -/
theorem exists_holding (hm : k ≤ m) : ∃ j, m ≤ j ∧ (E.state j).worker = .holding q := by
  -- backwards from there, over the places it can be at
  have hwaiting : ∀ m, k ≤ m → (E.state m).worker = .waiting →
      ∃ j, m ≤ j ∧ (E.state j).worker = .holding q := by
    intro m hm hworker
    obtain ⟨j, now, freed, hj, hsame, hmoved, -⟩ := hserves.exists_turn (hk.trans hm)
    have hnext := h.next j (hm.trans hj)
    rw [IsNext, hsame.trans hworker] at hnext
    obtain ⟨rest, hqueue⟩ := List.head?_eq_some_iff.mp hnext
    change (E.state j).pendingQueue = q :: rest at hqueue
    rw [workerStep, hsame.trans hworker, hqueue] at hmoved
    have hholding := congrArg worker (Option.some.inj hmoved)
    exact ⟨j + 1, by omega, hholding.symm⟩
  have hloop : ∀ m, k ≤ m → (E.state m).worker = .loop →
      ∃ j, m ≤ j ∧ (E.state j).worker = .holding q := by
    intro m hm hworker
    obtain ⟨j, now, freed, hj, hsame, hmoved, -⟩ := hserves.exists_turn (hk.trans hm)
    rw [workerStep, hsame.trans hworker] at hmoved
    have hturned := congrArg worker (Option.some.inj hmoved)
    dsimp only at hturned
    rw [if_pos (hserves.isRunning (hk.trans (hm.trans hj)))] at hturned
    obtain ⟨i, hi, hholding⟩ := hwaiting (j + 1) (by omega) hturned.symm
    exact ⟨i, by omega, hholding⟩
  have hrequeue : ∀ m request, k ≤ m → (E.state m).worker = .requeue request →
      ∃ j, m ≤ j ∧ (E.state j).worker = .holding q := by
    intro m request hm hworker
    obtain ⟨j, now, freed, hj, hsame, hmoved, -⟩ := hserves.exists_turn (hk.trans hm)
    rw [workerStep, hsame.trans hworker] at hmoved
    have hturned := congrArg worker (Option.some.inj hmoved)
    obtain ⟨i, hi, hholding⟩ := hloop (j + 1) (by omega) hturned.symm
    exact ⟨i, by omega, hholding⟩
  cases hworker : (E.state m).worker with
  | noThread =>
    have halive := alive_of_reachable (reachable (E := E) m) (hserves.isRunning (hk.trans hm))
    exact absurd hworker halive.1
  | exited =>
    have halive := alive_of_reachable (reachable (E := E) m) (hserves.isRunning (hk.trans hm))
    exact absurd hworker halive.2
  | loop => exact hloop m hm hworker
  | waiting => exact hwaiting m hm hworker
  | requeue request => exact hrequeue m request hm hworker
  | holding request =>
    have hnext := h.next m hm
    rw [IsNext, hworker] at hnext
    obtain rfl : request = q := Option.some.inj hnext
    exact ⟨m, le_rfl, hworker⟩
  | execute request => exact absurd hworker (h.worker_ne_execute hserves hk hm request)
  | running =>
    obtain ⟨j, now, freed, hj, hsame, hmoved, -⟩ := hserves.exists_turn (hk.trans hm)
    rw [workerStep, hsame.trans hworker] at hmoved
    dsimp only at hmoved
    split at hmoved
    · have hturned := congrArg worker (Option.some.inj hmoved)
      obtain ⟨i, hi, hholding⟩ := hloop (j + 1) (by omega) hturned.symm
      exact ⟨i, by omega, hholding⟩
    · cases hmoved
  | consume request bucket =>
    obtain ⟨j, now, freed, hj, hsame, hmoved, -⟩ := hserves.exists_turn (hk.trans hm)
    obtain ⟨ok, buckets, -, heq⟩ := tryConsume_eq (E.state j) request bucket now freed
    rw [workerStep, hsame.trans hworker] at hmoved
    dsimp only at hmoved
    rw [heq] at hmoved
    have hturned := congrArg worker (Option.some.inj hmoved)
    cases ok with
    | true => exact absurd hturned.symm (h.worker_ne_execute hserves hk (by omega) request)
    | false =>
      obtain ⟨i, hi, hholding⟩ := hrequeue (j + 1) request (by omega) hturned.symm
      exact ⟨i, by omega, hholding⟩

/-- **Its bucket earns meanwhile**, and is the same one. -/
theorem earned (hclock : ClockedBy E clock) (haffords : Affords E n q rate) {owned : OwnedBucket}
    (hfound : (E.state k).tokenBuckets[q.resourceId]? = some owned) (hm : k ≤ m) :
    ∃ owned' : OwnedBucket, (E.state m).tokenBuckets[q.resourceId]? = some owned' ∧
      owned'.bucket.Earned rate (clock k) ∧
      owned'.bucket.burstSize = owned.bucket.burstSize ∧
      owned'.generation = owned.generation := by
  induction m, hm using Nat.le_induction with
  | base =>
    obtain ⟨hwf, hlast⟩ := hclock.wf k hfound
    exact ⟨owned, hfound, TokenBucket.earned_of_le hwf haffords.pos.le hlast, rfl, rfl⟩
  | succ m hm ih =>
    obtain ⟨mid, hmid, hearned, hburst, hgeneration⟩ := ih
    cases haction : E.action m with
    | none =>
      rw [E.rested m haction]
      exact ⟨mid, hmid, hearned, hburst, hgeneration⟩
    | some a =>
      obtain ⟨mid', hmid', hle, -⟩ := haffords.bucket m (hk.trans hm)
      obtain rfl := Option.some.inj (hmid.symm.trans hmid')
      obtain ⟨next, hnext, -⟩ := haffords.bucket (m + 1) (by omega)
      obtain ⟨hwf, hlast⟩ := hclock.wf m hmid
      obtain ⟨hearned', hburst', hgeneration'⟩ :=
        (touched_of_step (E.moved m a haction) q.resourceId).earned hmid hwf hlast
          (hclock.reads m a haction) haffords.pos.le hle hearned
          (haffords.untaken m a (hk.trans hm) haction)
          (h.worker_ne_execute hserves hk (Nat.le_succ_of_le hm)) hnext
      exact ⟨next, hnext, hearned', hburst'.trans hburst, hgeneration'.trans hgeneration⟩

end Stuck

/-- **The head is executed.** -/
theorem exists_executed (hclock : ClockedBy E clock) (hserves : Serves E n) (hk : n ≤ k)
    (haffords : Affords E n q rate)
    (hnext : (E.state k).workerExecuted ++ [q] <+: (E.state k).line) :
    ∃ m, k ≤ m ∧ (E.state k).workerExecuted ++ [q] <+: (E.state m).workerExecuted := by
  by_contra hnever
  have hstuck : Stuck E k q := hserves.stuck hk hnext fun m hm hdone => hnever ⟨m, hm, hdone⟩
  obtain ⟨owned, hfound, -⟩ := haffords.bucket k hk
  have hearned := fun m hm =>
    hstuck.earned hserves hk hclock haffords hfound (m := m) hm
  obtain ⟨late, hlate⟩ := hclock.exists_full (clock k) haffords.pos owned.bucket.burstSize
  -- the worker takes the head late enough, finds its bucket, and tries
  obtain ⟨i, hi, hholding⟩ := hstuck.exists_holding hserves hk (le_max_left k late)
  obtain ⟨j, now, freed, hj, hsame, hmoved, -⟩ := hserves.exists_turn (m := i) (by omega)
  rw [workerStep, hsame.trans hholding] at hmoved
  have hconsuming := (congrArg worker (Option.some.inj hmoved)).symm
  dsimp only at hconsuming
  obtain ⟨l, now', freed', hl, hsame', hmoved', haction⟩ :=
    hserves.exists_turn (m := j + 1) (by omega)
  obtain ⟨found, hfound', -, -, hgeneration⟩ := hearned j (by omega)
  obtain ⟨tried, htried, hfull, hburst, hgeneration'⟩ := hearned l (by omega)
  have hregistered : (E.state j).registered q.resourceId =
      (E.state l).registered q.resourceId := by
    rw [registered, registered, hfound', htried, Option.map_some, Option.map_some, hgeneration,
      hgeneration']
  rw [hregistered] at hconsuming
  -- by then it has earned its burst, so it grants
  obtain ⟨hwf, hlast⟩ := hclock.wf l htried
  obtain ⟨hlo, -⟩ := hclock.reads l _ haction
  obtain ⟨tried', htried', hle, hcount⟩ := haffords.bucket l (by omega)
  obtain rfl := Option.some.inj (htried.symm.trans htried')
  have hgranted : (tried.bucket.tryConsume q.count now').1 = true := by
    refine hfull.tryConsume_fst hwf haffords.pos.le hle (hlast.trans hlo) ?_ hcount
    rw [hburst]
    exact hlate now' ((hclock.mono (by omega)).trans hlo)
  have hturned := worker_of_registered hmoved' (hsame'.trans hconsuming) htried
  rw [if_pos hgranted] at hturned
  exact hstuck.worker_ne_execute hserves hk (by omega) q hturned

/-! ## The result -/

/-- **The queue drains, in order.** In every execution whose readings follow
a clock that never stops: from a time on at which the client runs, is not
stopped any more, has a worker that gets on and callbacks that return,
everything in line then is executed by the worker, in order, if the bucket
of each that waits stays, earns at some rate, can ever hold the count, and
no call of `Acquire` takes from it any more. -/
theorem executed_of_affords (hclock : ClockedBy E clock) (hserves : Serves E n)
    (haffords : ∀ q ∈ (E.state n).worker.held ++ (E.state n).pendingQueue,
      ∃ rate, Affords E n q rate) :
    ∃ m, n ≤ m ∧ (E.state n).line <+: (E.state m).workerExecuted := by
  -- by induction on how many in line are not executed yet
  have hall : ∀ x k, n ≤ k →
      (E.state n).line.length - (E.state k).workerExecuted.length = x →
      ∃ m, n ≤ m ∧ (E.state n).line <+: (E.state m).workerExecuted := by
    intro x
    induction x using Nat.strong_induction_on with
    | _ x ih =>
      intro k hk hx
      have hline := hserves.line_prefix le_rfl hk
      have hexecuted : (E.state k).workerExecuted <+: (E.state k).line := List.prefix_append _ _
      rcases List.prefix_or_prefix_of_prefix hline hexecuted with hdone | ⟨rest, hrest⟩
      · exact ⟨k, hk, hdone⟩
      · cases rest with
        | nil =>
          rw [List.append_nil] at hrest
          exact ⟨k, hk, hrest ▸ List.prefix_rfl⟩
        | cons q rest =>
          have hgrown : (E.state n).workerExecuted <+: (E.state k).workerExecuted := by
            refine stays (P := fun s : ClientThreads => _ <+: s.workerExecuted) hk List.prefix_rfl
              fun j a _ _ haction hsofar => ?_
            exact hsofar.trans (workerExecuted_of_step (E.moved j a haction))
          obtain ⟨done, hdone⟩ := hgrown
          have hwaits : (E.state n).worker.held ++ (E.state n).pendingQueue =
              done ++ q :: rest := by
            rw [← hdone, line, List.append_assoc] at hrest
            exact (List.append_cancel_left hrest).symm
          obtain ⟨rate, hrate⟩ := haffords q (by simp [hwaits])
          have hnext : (E.state k).workerExecuted ++ [q] <+: (E.state n).line :=
            ⟨rest, by rw [← hrest, List.append_assoc]; rfl⟩
          obtain ⟨m, hm, hlonger⟩ := exists_executed hclock hserves hk hrate (hnext.trans hline)
          have hfewer := hlonger.length_le
          have hbound := hnext.length_le
          rw [List.length_append, List.length_singleton] at hfewer hbound
          exact ih _ (by omega) m (hk.trans hm) rfl
  exact hall _ n le_rfl rfl

/-- A call granted, and one that is refused and queued, with the readings
they take; then the worker's turn. -/
def untilQueued : List (TimePoint → ClientAction) :=
  [fun _ => .start,
   fun now => .updateTokenBuckets (fun _ => now) ((∅ : OrderedMap ResourceId ℚ).insert 1 2),
   fun _ => .acquire (.app 0) ⟨1, 2, some 7⟩, fun now => .acquireStep (.app 0) now false,
   fun now => .acquireStep (.app 0) now false, fun now => .acquireStep (.app 0) now false,
   fun now => .acquireStep (.app 0) now false, fun _ => .acquire (.app 0) ⟨1, 2, some 8⟩,
   fun now => .acquireStep (.app 0) now false, fun now => .acquireStep (.app 0) now false,
   fun now => .acquireStep (.app 0) now false]

/-- A tenth of a second for each step. -/
def tenths (n : ℕ) : TimePoint := n * 100000000

/-- Those calls, and then the worker alone. -/
def queuedSchedule (n : ℕ) : ClientAction :=
  (untilQueued[n]?.getD fun now => .workerStep now false) (tenths n)

theorem queuedSchedule_of_le (hn : 11 ≤ n) : queuedSchedule n = .workerStep (tenths n) false := by
  have hnone : untilQueued[n]? = none := List.getElem?_eq_none_iff.mpr hn
  rw [queuedSchedule, hnone]
  rfl

theorem tenths_mono (hle : n ≤ m) : tenths n ≤ tenths m := by
  change (n : ℤ) * 100000000 ≤ m * 100000000
  omega

theorem queuedSchedule_clockedBy : ClockedBy (ofSchedule clientSystem queuedSchedule) tenths where
  mono := tenths_mono
  reads m a haction := by
    obtain rfl := ofSchedule_action haction
    have hlater := tenths_mono (Nat.le_succ m)
    have hall : ∀ act ∈ untilQueued, ∀ t u : TimePoint, t ≤ u → (act t).ReadsWithin t u := by
      simp [untilQueued, ClientAction.ReadsWithin]
    rw [queuedSchedule]
    cases hact : untilQueued[m]? with
    | none => exact ⟨le_rfl, hlater⟩
    | some act => exact hall act (List.mem_of_getElem? hact) _ _ hlater
  unbounded t := by
    refine ⟨t.toNat, (Int.self_le_toNat t).trans ?_⟩
    change (t.toNat : ℤ) ≤ t.toNat * 100000000
    omega

theorem workerStep_isSome_congr (s : ClientThreads) (now now' : TimePoint) (freed freed' : Bool) :
    (s.workerStep now freed).isSome = (s.workerStep now' freed').isSome := by
  cases hworker : s.worker with
  | waiting =>
    cases hqueue : s.pendingQueue <;> simp only [workerStep, hworker, hqueue, Option.isSome_some]
  | running =>
    simp only [workerStep, hworker]
  | _ => simp only [workerStep, hworker, Option.isSome_some]

/-- The second call waits in the queue, and its bucket is there. -/
theorem queuedSchedule_state :
    let s := (ofSchedule clientSystem queuedSchedule).state 11
    s.isRunning = true ∧ s.worker = .loop ∧ s.frames .worker = [] ∧
      s.pendingQueue = [⟨⟨1, 2, some 8⟩, 1, .app 0⟩] ∧
      (s.tokenBuckets[(1 : ResourceId)]?).map
        (fun owned => (owned.bucket.rate, owned.bucket.burstSize)) = some (2, 2) := by
  decide +kernel

/-- The worker alone leaves the bucket its rate and burst, and is in no
call when it is in a callback. -/
theorem queuedSchedule_stays (hm : 11 ≤ m) :
    let s := (ofSchedule clientSystem queuedSchedule).state m
    s.frames .worker = [] ∧ (s.tokenBuckets[(1 : ResourceId)]?).map
      (fun owned => (owned.bucket.rate, owned.bucket.burstSize)) = some (2, 2) := by
  obtain ⟨-, -, hframes, -, hbucket⟩ := queuedSchedule_state
  refine stays (P := fun s : ClientThreads => s.frames .worker = [] ∧
    (s.tokenBuckets[(1 : ResourceId)]?).map
      (fun owned => (owned.bucket.rate, owned.bucket.burstSize)) = some (2, 2)) hm
    ⟨hframes, hbucket⟩ ?_
  rintro j a hj - haction ⟨hframes, hbucket⟩
  have hstep := (ofSchedule clientSystem queuedSchedule).moved j a haction
  rw [← ofSchedule_action haction, queuedSchedule_of_le hj] at hstep
  rw [(workerSection_of_step hstep).frames]
  refine ⟨hframes, ?_⟩
  rcases attempted_of_workerStep hstep 1 with hsame | ⟨owned, request, hold, -, htried⟩
  · rw [hsame]
    exact hbucket
  · rw [hold] at hbucket
    rw [htried]
    simpa using hbucket

theorem queuedSchedule_serves : Serves (ofSchedule clientSystem queuedSchedule) 11 where
  running := queuedSchedule_state.1
  unstopped m hm hstop := by
    have hworker := ofSchedule_action hstop
    rw [queuedSchedule_of_le hm] at hworker
    cases hworker
  worker := by
    refine weaklyFair_ofSchedule fun n => ⟨max n 11, le_max_left n 11, ?_⟩
    rw [queuedSchedule_of_le (le_max_right n 11)]
    refine ⟨⟨_, _, rfl⟩, ?_⟩
    rintro s ⟨a, ⟨now, freed, rfl⟩, hcan⟩
    change (s.workerStep (tenths (max n 11)) false).isSome = true
    rw [workerStep_isSome_congr s _ now _ freed]
    exact hcan
  returns m hm hworker := by
    refine ⟨m + 1, Nat.le_succ m, ?_⟩
    -- the callback makes no call, so the next step is the one after it
    have hreturned : ((ofSchedule clientSystem queuedSchedule).state m).workerStep (tenths m) false =
        some { (ofSchedule clientSystem queuedSchedule).state m with worker := .loop } := by
      rw [workerStep, hworker]
      exact if_pos (queuedSchedule_stays hm).1
    change ((((ofSchedule clientSystem queuedSchedule).state m).step (queuedSchedule m)).getD
      _).worker ≠ _
    rw [queuedSchedule_of_le hm]
    change ((((ofSchedule clientSystem queuedSchedule).state m).workerStep (tenths m)
      false).getD _).worker ≠ _
    rw [hreturned]
    exact nofun

/-- The second call's request is executed, once its bucket has earned two
tokens. -/
theorem queuedSchedule_executed : ∃ m, 11 ≤ m ∧
    ((ofSchedule clientSystem queuedSchedule).state 11).line <+:
      ((ofSchedule clientSystem queuedSchedule).state m).workerExecuted := by
  refine executed_of_affords queuedSchedule_clockedBy queuedSchedule_serves fun q hq => ⟨2, ?_⟩
  obtain ⟨-, hworker, -, hqueue, -⟩ := queuedSchedule_state
  rw [hworker, hqueue] at hq
  obtain rfl := List.mem_singleton.mp hq
  refine ⟨by norm_num, fun m hm => ?_, fun m a hm haction htakes => ?_⟩
  · obtain ⟨owned, howned, hpair⟩ := Option.map_eq_some_iff.mp (queuedSchedule_stays hm).2
    obtain ⟨hrate, hburst⟩ := Prod.mk.inj hpair
    exact ⟨owned, howned, hrate.ge, hburst.ge⟩
  · rw [← ofSchedule_action haction, queuedSchedule_of_le hm] at htakes
    exact htakes

end ClientThreads

end Throttling
