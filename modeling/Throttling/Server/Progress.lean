import Throttling.Common.FairLocks
import Throttling.Server.Answers
import Throttling.Server.Deadlock
/-!
# Every call is answered

Handlers hold one mutex while they wait for another, and a mutex may go to
others each time it is free. Under a scheduler that is strongly fair to
each thread every call returns all the same, with an answer from states
passed since it began (`answered_of_stronglyFair`): the locks are taken in
one order, and no handler loops. Once no call begins any more, as after a
shutdown, weak fairness will do (`drains_of_weaklyFair`).
-/

namespace Throttling

variable {heartbeatTimeout : ℤ} {E : (serverLockSystem heartbeatTimeout).Execution}

instance : Nonempty Readings := ⟨⟨fun _ => 0, 0⟩⟩

/-- **Every call is answered**: it returns, whatever the other threads do,
and its answer is from states passed since it began. -/
theorem answered_of_stronglyFair (hfair : ∀ t, E.StronglyFair (LockAction.IsStepOf t)) {n t : ℕ}
    {request : Request} (hbegin : E.action n = some (.begin t request)) :
    ∃ k answer readings, n < k ∧ (E.state k).threads t = some (.done answer) ∧
      E.action k = some (.step t readings) ∧
      Answered request answer fun x => ∃ j, n < j ∧ j ≤ k ∧ (E.state j).data = x := by
  have hstep := E.moved n _ hbegin
  have hbegun : (E.state (n + 1)).threads t = some (ServerProg.handler request) := by
    have hcopy := hstep
    simp only [serverLockSystem, lockSystem] at hcopy
    split at hcopy
    · rw [← Option.some.inj hcopy]
      exact LockState.goto_threads_self _ _ _
    · cases hcopy
  obtain ⟨k, hk, ⟨answer, readings, hdone, haction⟩, hbusy⟩ :=
    LockState.returns_of_stronglyFair ServerProg.ordered_handler hfair hbegun
  obtain ⟨V, hrun, hbetween⟩ := GuardedSystem.Execution.exists_run (E := E) hk
  have hcall : ServerCall heartbeatTimeout request V answer := by
    refine ⟨t, E.state n, E.state (n + 1), E.state k, GuardedSystem.Execution.reachable n, hstep,
      hrun, fun m hm => ?_, hdone⟩
    obtain ⟨j, hj, hjk, rfl⟩ := hbetween m hm
    exact Option.isSome_iff_ne_none.mpr (hbusy j hj hjk)
  refine ⟨k, answer, readings, by omega, hdone, haction, hcall.answered.mono ?_⟩
  rintro x ⟨m, hm, rfl⟩
  obtain ⟨j, hj, hjk, rfl⟩ := hbetween m hm
  exact ⟨j, by omega, hjk, rfl⟩

/-- A call for a share is overtaken by a heartbeat, and both return. -/
def servedRun : List (LockAction Readings ℕ Request) :=
  untilNamed ++ [.begin 0 (.getAllocation "a" 1)] ++ overtaking 2 7 ++ threadSteps 0 1 ++
    threadSteps 1 16

theorem exists_servedRun : ∃ s,
    (serverLockSystem 30).runFrom (serverLockSystem 30).init servedRun = some s ∧
      ∀ t, s.threads t = none := by
  have hrun : ((serverLockSystem 30).runFrom (serverLockSystem 30).init servedRun).map
      (fun s => ((s.threads 0).isNone, (s.threads 1).isNone)) = some (true, true) := by
    decide +kernel
  obtain ⟨s, hs, hidle⟩ := Option.map_eq_some_iff.mp hrun
  simp only [Prod.mk.injEq, Option.isNone_iff_eq_none] at hidle
  refine ⟨s, hs, fun t => ?_⟩
  match t with
  | 0 => exact hidle.1
  | 1 => exact hidle.2
  | t + 2 =>
    have hactors : ∀ a ∈ servedRun, a.thread < 2 := by decide +kernel
    refine LockState.threads_of_runFrom hs fun a ha heq => ?_
    have hlt := hactors a ha
    omega

/-- Where every handler has returned, no thread has a step left. -/
theorem not_enabled_of_idle {s : LockState Mutex Readings Server (Status × Response) ℕ} {t : ℕ}
    (hidle : s.threads t = none) :
    ¬ (serverLockSystem heartbeatTimeout).Enabled (LockAction.IsStepOf t) s := by
  rintro ⟨_, ⟨readings, rfl⟩, henabled⟩
  obtain ⟨s', hstep⟩ := Option.isSome_iff_exists.mp henabled
  obtain ⟨p, hp, -⟩ := LockState.threadStep_eq_some_iff.mp hstep
  rw [hidle] at hp
  cases hp

theorem servedRun_answered : ∃ E : (serverLockSystem 30).Execution, ∃ k answer readings,
    E.action 50 = some (.begin 0 (.getAllocation "a" 1)) ∧
      (E.state k).threads 0 = some (.done answer) ∧ E.action k = some (.step 0 readings) ∧
      Answered (.getAllocation "a" 1) answer
        fun x => ∃ j, 50 < j ∧ j ≤ k ∧ (E.state j).data = x := by
  obtain ⟨s, hs, hidle⟩ := exists_servedRun
  have hfair : ∀ t, (GuardedSystem.Execution.ofRun hs).StronglyFair (LockAction.IsStepOf t) :=
    fun t => GuardedSystem.Execution.stronglyFair_ofRun hs (not_enabled_of_idle (hidle t))
  have hbegin : (GuardedSystem.Execution.ofRun hs).action 50 =
      some (.begin 0 (.getAllocation "a" 1)) := rfl
  obtain ⟨k, answer, readings, -, hdone, haction, hanswered⟩ :=
    answered_of_stronglyFair hfair hbegin
  exact ⟨_, k, answer, readings, hbegin, hdone, haction, hanswered⟩

/-- **The server drains**: once no call begins any more, every handler that
runs comes to its end. -/
theorem drains_of_weaklyFair (hfair : ∀ t, E.WeaklyFair (LockAction.IsStepOf t)) {n : ℕ}
    (hclosed : ∀ k t request, n ≤ k → E.action k ≠ some (.begin t request)) :
    ∃ k, n ≤ k ∧ ∀ j, k ≤ j → ∀ t, (E.state j).threads t = none :=
  LockState.ClosedFrom.idle_of_weaklyFair hclosed ServerProg.ordered_handler hfair

theorem servedRun_drained : ∃ E : (serverLockSystem 30).Execution,
    (((E.state 54).threads 0).isSome ∧ ((E.state 54).threads 1).isSome) ∧
      ∃ k, 54 ≤ k ∧ ∀ j, k ≤ j → ∀ t, (E.state j).threads t = none := by
  obtain ⟨s, hs, hidle⟩ := exists_servedRun
  have hboth : ((GuardedSystem.Execution.stateAfter (serverLockSystem 30) servedRun 54).threads
      0).isSome ∧ ((GuardedSystem.Execution.stateAfter (serverLockSystem 30) servedRun 54).threads
        1).isSome := by decide +kernel
  refine ⟨GuardedSystem.Execution.ofRun hs, hboth,
    drains_of_weaklyFair (fun t => ?_) fun k t request hk hbegin => ?_⟩
  · exact (GuardedSystem.Execution.stronglyFair_ofRun hs
      (not_enabled_of_idle (hidle t))).weaklyFair
  · have hlate : ∀ a ∈ servedRun.drop 54, ∃ t i, a = .step t i := by
      intro a ha
      have hsteps : servedRun.drop 54 =
          threadSteps 1 8 ++ threadSteps 0 7 ++ threadSteps 0 1 ++ threadSteps 1 16 := by rfl
      rw [hsteps] at ha
      simp only [List.mem_append] at ha
      rcases ha with ((ha | ha) | ha) | ha <;> exact ⟨_, _, List.eq_of_mem_replicate ha⟩
    have hmem : LockAction.begin t request ∈ servedRun.drop 54 := by
      refine List.mem_of_getElem? (i := k - 54) ?_
      rw [List.getElem?_drop, Nat.add_sub_cancel' hk]
      exact hbegin
    obtain ⟨_, _, heq⟩ := hlate _ hmem
    cases heq

end Throttling
