import Throttling.Client.Model.HeartbeatLoop
import Throttling.Common.WakeUp
/-!
# When the heartbeat thread misses a `Stop`

`Stop` stores the flag and notifies without the mutex of the thread that
waits, so a notification can come after the thread has found the client
running and before it blocks. The thread then waits until its interval
ends (`exited_of_wakeUpLost`), and the `Stop` that joins it does too; no
other interleaving does that (`forall_not_wakeUpLost_iff`).
-/

namespace Throttling

/-- What each of the thread's places is in its wait. A test whose outcome
nobody reads is none. -/
def HeartbeatLoopPc.phase : HeartbeatLoopPc → WaitPhase
  | testing => .testing
  | committed => .committed
  | blocked => .blocked
  | looping | locking | relocking _ | returning | checking | unlocking | sending | exited => .away

theorem HeartbeatLoopPc.phase_eq_committed_iff (pc : HeartbeatLoopPc) :
    pc.phase = .committed ↔ pc = .committed := by
  cases pc <;> simp [phase]

theorem HeartbeatLoopPc.phase_eq_blocked_iff (pc : HeartbeatLoopPc) :
    pc.phase = .blocked ↔ pc = .blocked := by
  cases pc <;> simp [phase]

namespace HeartbeatStop

variable {s s' : HeartbeatStop} {a : HeartbeatStopAction}

/-- The flag, its notifiers and its waiter. -/
def wait (s : HeartbeatStop) : Wait where
  raised := !s.running
  storing := s.storing
  notifying := s.notifying
  phase := s.thread.phase

theorem wakeUpLost_iff : s.WakeUpLost ↔ s.wait.Lost := by
  rw [WakeUpLost, Wait.Lost, wait, HeartbeatLoopPc.phase_eq_committed_iff,
    HeartbeatLoopPc.phase_eq_blocked_iff, Bool.not_eq_true']

theorem timely_iff : s.Timely a ↔ (a = .notifyAll → ¬ s.wait.AtGap) := by
  rw [Timely, Wait.AtGap, wait, HeartbeatLoopPc.phase_eq_committed_iff]

/-! ## One step -/

/-- The thread goes where it is not about to block. -/
theorem waitStep_away {pc : HeartbeatLoopPc} (hpc : pc.phase = .away ∨ pc.phase = .testing) :
    Wait.WaitStep s.wait (wait { s with thread := pc }) :=
  .move pc.phase hpc

/-- The thread's places follow each other as a waiter's do. -/
theorem waitStep_of_threadStep (hstep : s.threadStep = some s') :
    Wait.WaitStep s.wait s'.wait := by
  unfold threadStep at hstep
  cases hthread : s.thread with
  | looping =>
    simp only [hthread] at hstep
    obtain rfl := Option.some.inj hstep
    refine waitStep_away (.inl ?_)
    split <;> rfl
  | locking =>
    simp only [hthread] at hstep
    split at hstep
    · cases hstep
    · obtain rfl := Option.some.inj hstep
      exact waitStep_away (.inr rfl)
  | testing =>
    simp only [hthread] at hstep
    obtain rfl := Option.some.inj hstep
    have hphase : s.wait.phase = .testing := by rw [wait, hthread]; rfl
    by_cases hrunning : s.running = true
    · rw [if_pos hrunning]
      have hdown : s.wait.raised = false := by rw [wait, hrunning]; rfl
      exact .commit hphase hdown
    · rw [if_neg hrunning]
      exact waitStep_away (.inl rfl)
  | committed =>
    simp only [hthread] at hstep
    obtain rfl := Option.some.inj hstep
    exact .block (by rw [wait, hthread]; rfl)
  | blocked =>
    simp only [hthread] at hstep
    cases hstep
  | relocking timedOut =>
    simp only [hthread] at hstep
    split at hstep
    · cases hstep
    · obtain rfl := Option.some.inj hstep
      cases timedOut with
      | true => exact waitStep_away (.inl rfl)
      | false => exact waitStep_away (.inr rfl)
  | returning =>
    simp only [hthread] at hstep
    obtain rfl := Option.some.inj hstep
    exact waitStep_away (.inl rfl)
  | checking =>
    simp only [hthread] at hstep
    obtain rfl := Option.some.inj hstep
    refine waitStep_away (.inl ?_)
    split <;> rfl
  | unlocking =>
    simp only [hthread] at hstep
    obtain rfl := Option.some.inj hstep
    exact waitStep_away (.inl rfl)
  | sending =>
    simp only [hthread] at hstep
    obtain rfl := Option.some.inj hstep
    exact waitStep_away (.inl rfl)
  | exited =>
    simp only [hthread] at hstep
    cases hstep

/-- **Every step but a notification** is one of a waiting protocol. -/
theorem waitStep_of_step (ha : a ≠ .notifyAll) (hstep : s.step a = some s') :
    Wait.WaitStep s.wait s'.wait := by
  cases a with
  | stop =>
    obtain rfl := Option.some.inj hstep
    exact .stay
  | load =>
    simp only [step] at hstep
    split at hstep
    · obtain rfl := Option.some.inj hstep
      by_cases hrunning : s.running = true
      · have hwait : wait { s with
            loading := s.loading - 1
            storing := if s.running then s.storing + 1 else s.storing } =
            { s.wait with storing := s.wait.storing + 1 } := by
          simp only [wait, if_pos hrunning]
        exact hwait ▸ .begin
      · have hwait : wait { s with
            loading := s.loading - 1
            storing := if s.running then s.storing + 1 else s.storing } = s.wait := by
          simp only [wait, if_neg hrunning]
        exact hwait ▸ .stay
    · cases hstep
  | store =>
    simp only [step] at hstep
    split at hstep
    · rename_i hstoring
      obtain rfl := Option.some.inj hstep
      exact .raise hstoring
    · cases hstep
  | notifyAll => exact absurd rfl ha
  | threadStep => exact waitStep_of_threadStep hstep
  | timeOut =>
    simp only [step] at hstep
    split at hstep
    · obtain rfl := Option.some.inj hstep
      exact waitStep_away (.inl rfl)
    · cases hstep
  | lock =>
    simp only [step] at hstep
    split at hstep
    · cases hstep
    · obtain rfl := Option.some.inj hstep
      exact .stay
  | unlock =>
    simp only [step] at hstep
    split at hstep
    · obtain rfl := Option.some.inj hstep
      exact .stay
    · cases hstep

/-- **A notification** is one, of the view. -/
theorem wait_of_notifyAll (hstep : s.step .notifyAll = some s') :
    0 < s.notifying ∧ s'.wait = s.wait.notified := by
  simp only [step] at hstep
  by_cases hnotifying : 0 < s.notifying
  · rw [if_pos hnotifying] at hstep
    obtain rfl := Option.some.inj hstep
    refine ⟨hnotifying, ?_⟩
    simp only [wait, Wait.notified, HeartbeatLoopPc.phase_eq_blocked_iff]
    split <;> rfl
  · rw [if_neg hnotifying] at hstep
    cases hstep

/-! ## Runs -/

/-- **The interleavings that lose no wake-up** of the heartbeat thread. -/
theorem forall_not_wakeUpLost_iff {as : List HeartbeatStopAction}
    (hrun : heartbeatStopSystem.runFrom heartbeatStopSystem.init as = some s) :
    (∀ m ∈ heartbeatStopSystem.passed [heartbeatStopSystem.init] heartbeatStopSystem.init as,
        ¬ m.WakeUpLost) ↔
      heartbeatStopSystem.runVia Timely heartbeatStopSystem.init as = some s := by
  simp only [wakeUpLost_iff]
  refine GuardedSystem.forall_not_lost_iff wait (· = .notifyAll) (fun s a => timely_iff)
    ⟨rfl, rfl⟩ (fun s a s' ha hstep => waitStep_of_step ha hstep) ?_ hrun
  rintro s _ s' rfl hstep
  exact wait_of_notifyAll hstep

/-- **The interval's end makes up for it**: the thread then leaves its loop
as soon as it gets the mutex. -/
theorem exited_of_wakeUpLost (hlost : s.WakeUpLost) (hblocked : s.thread = .blocked)
    (hfree : s.lockedByOther = false) :
    heartbeatStopSystem.runFrom s [.timeOut, .threadStep, .threadStep, .threadStep] =
      some { s with thread := .exited } := by
  obtain ⟨hrunning, -, -, -⟩ := hlost
  simp [GuardedSystem.runFrom, heartbeatStopSystem, step, threadStep, hblocked, hfree, hrunning]

end HeartbeatStop

end Throttling
