import Throttling.Server.Model.Shutdown
import Throttling.Common.WakeUp
/-!
# When the server's shutdown is missed

The handlers store the flag and notify without the mutex of the thread
that waits, so a notification can come after the thread has found the
flag down and before it blocks. If no handler is left then, the server
does not shut down before another signal (`wakeUpLost_of_runFrom`),
and no other interleaving does that (`forall_not_wakeUpLost_iff`).
-/

namespace Throttling

/-- What each of the thread's places is in its wait. -/
def ShutdownPc.phase : ShutdownPc → WaitPhase
  | testing => .testing
  | committed => .committed
  | blocked => .blocked
  | locking | relocking | stopping | finished => .away

theorem ShutdownPc.phase_eq_committed_iff (pc : ShutdownPc) :
    pc.phase = .committed ↔ pc = .committed := by
  cases pc <;> simp [phase]

theorem ShutdownPc.phase_eq_blocked_iff (pc : ShutdownPc) :
    pc.phase = .blocked ↔ pc = .blocked := by
  cases pc <;> simp [phase]

namespace Shutdown

variable {s s' : Shutdown} {a : ShutdownAction}

/-- The flag, its notifiers and its waiter. -/
def wait (s : Shutdown) : Wait where
  raised := s.requested
  storing := s.storing
  notifying := s.notifying
  phase := s.thread.phase

theorem wakeUpLost_iff : s.WakeUpLost ↔ s.wait.Lost := by
  rw [WakeUpLost, Wait.Lost, wait, ShutdownPc.phase_eq_committed_iff,
    ShutdownPc.phase_eq_blocked_iff]

theorem timely_iff : s.Timely a ↔ (a = .notifyAll → ¬ s.wait.AtGap) := by
  rw [Timely, Wait.AtGap, wait, ShutdownPc.phase_eq_committed_iff]

/-! ## One step -/

/-- The thread's places follow each other as a waiter's do. -/
theorem waitStep_of_threadStep (hstep : s.threadStep = some s') :
    Wait.WaitStep s.wait s'.wait := by
  unfold threadStep at hstep
  cases hthread : s.thread with
  | locking =>
    rw [hthread] at hstep
    obtain rfl := Option.some.inj hstep
    exact .move .testing (.inr rfl)
  | testing =>
    rw [hthread] at hstep
    obtain rfl := Option.some.inj hstep
    have hphase : s.wait.phase = .testing := by rw [wait, hthread]; rfl
    by_cases hrequested : s.requested = true
    · rw [if_pos hrequested]
      exact .move .away (.inl rfl)
    · rw [if_neg hrequested]
      exact .commit hphase (Bool.eq_false_iff.mpr hrequested)
  | committed =>
    rw [hthread] at hstep
    obtain rfl := Option.some.inj hstep
    exact .block (by rw [wait, hthread]; rfl)
  | relocking =>
    rw [hthread] at hstep
    obtain rfl := Option.some.inj hstep
    exact .move .testing (.inr rfl)
  | stopping =>
    rw [hthread] at hstep
    obtain rfl := Option.some.inj hstep
    exact .move .away (.inl rfl)
  | blocked =>
    rw [hthread] at hstep
    cases hstep
  | finished =>
    rw [hthread] at hstep
    cases hstep

/-- **Every step but a notification** is one of a waiting protocol. -/
theorem waitStep_of_step (ha : a ≠ .notifyAll) (hstep : s.step a = some s') :
    Wait.WaitStep s.wait s'.wait := by
  cases a with
  | deliver signal =>
    obtain rfl := Option.some.inj hstep
    by_cases hsignal : signal = .sigint ∨ signal = .sigterm
    · rw [if_pos hsignal]
      exact .begin
    · rw [if_neg hsignal]
      exact .stay
  | store =>
    simp only [step] at hstep
    split at hstep
    · rename_i hstoring
      obtain rfl := Option.some.inj hstep
      exact .raise hstoring
    · cases hstep
  | notifyAll => exact absurd rfl ha
  | threadStep => exact waitStep_of_threadStep hstep

/-- **A notification** is one, of the view. -/
theorem wait_of_notifyAll (hstep : s.step .notifyAll = some s') :
    0 < s.notifying ∧ s'.wait = s.wait.notified := by
  simp only [step] at hstep
  by_cases hnotifying : 0 < s.notifying
  · rw [if_pos hnotifying] at hstep
    obtain rfl := Option.some.inj hstep
    refine ⟨hnotifying, ?_⟩
    simp only [wait, Wait.notified, ShutdownPc.phase_eq_blocked_iff]
    split <;> rfl
  · rw [if_neg hnotifying] at hstep
    cases hstep

/-! ## Runs -/

/-- **The interleavings that lose no wake-up** of the shutdown thread. -/
theorem forall_not_wakeUpLost_iff {as : List ShutdownAction}
    (hrun : shutdownSystem.runFrom shutdownSystem.init as = some s) :
    (∀ m ∈ shutdownSystem.passed [shutdownSystem.init] shutdownSystem.init as, ¬ m.WakeUpLost) ↔
      shutdownSystem.runVia Timely shutdownSystem.init as = some s := by
  simp only [wakeUpLost_iff]
  refine GuardedSystem.forall_not_lost_iff wait (· = .notifyAll) (fun s a => timely_iff)
    ⟨rfl, rfl⟩ (fun s a s' ha hstep => waitStep_of_step ha hstep) ?_ hrun
  rintro s _ s' rfl hstep
  exact wait_of_notifyAll hstep

/-- **The server then hangs**: a lost wake-up stays lost until another
signal is delivered. -/
theorem wakeUpLost_of_runFrom {as : List ShutdownAction}
    (hquiet : ∀ a ∈ as, a ≠ .deliver .sigint ∧ a ≠ .deliver .sigterm) :
    ∀ {s : Shutdown}, s.WakeUpLost → shutdownSystem.runFrom s as = some s' → s'.WakeUpLost := by
  induction as with
  | nil =>
    intro s hlost hrun
    obtain rfl : s = s' := by simpa [GuardedSystem.runFrom] using hrun
    exact hlost
  | cons a as ih =>
    intro s hlost hrun
    rw [GuardedSystem.runFrom] at hrun
    obtain ⟨s₁, hstep, hrest⟩ := Option.bind_eq_some_iff.mp hrun
    refine ih (fun b hb => hquiet b (List.mem_cons_of_mem _ hb)) ?_ hrest
    obtain ⟨hsigint, hsigterm⟩ := hquiet a List.mem_cons_self
    obtain ⟨hrequested, hstoring, hnotifying, hthread⟩ := hlost
    change s.step a = some s₁ at hstep
    cases a with
    | deliver signal =>
      have hother : ¬ (signal = .sigint ∨ signal = .sigterm) := by
        rintro (rfl | rfl)
        · exact hsigint rfl
        · exact hsigterm rfl
      obtain rfl := Option.some.inj hstep
      rw [if_neg hother]
      exact ⟨hrequested, hstoring, hnotifying, hthread⟩
    | store => simp [step, hstoring] at hstep
    | notifyAll => simp [step, hnotifying] at hstep
    | threadStep =>
      -- about to block, it blocks; blocked, it has no step
      rcases hthread with hcommitted | hblocked
      · simp only [step, threadStep, hcommitted] at hstep
        obtain rfl := Option.some.inj hstep
        exact ⟨hrequested, hstoring, hnotifying, .inr rfl⟩
      · simp [step, threadStep, hblocked] at hstep

end Shutdown

end Throttling
