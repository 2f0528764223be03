import Throttling.Common.System
import Mathlib.Data.Nat.Notation
/-!
# Waiting for a flag on a condition variable

A waiter tests a flag under its mutex and blocks where the flag is down;
others raise the flag and then notify, without the mutex. A notification
releases a waiter that is blocked and no other, so between the waiter's
test and its blocking there is a moment at which it misses one. `Wait` is
what matters of such a protocol, whatever else its parties do; a system
whose steps are those of one loses a wake-up at exactly the notifications
that are the last under way and come at that moment
(`forall_not_lost_iff`).
-/

/-- Where a waiter is. -/
inductive WaitPhase where
  /-- Not waiting: before its wait, released from it, or past it. -/
  | away
  /-- Holding the mutex, about to test the flag. -/
  | testing
  /-- The flag was down; holding the mutex still, about to block. -/
  | committed
  /-- Blocked, the mutex released. -/
  | blocked
deriving DecidableEq

/-- **A flag, its notifiers and its waiter.** -/
structure Wait where
  raised : Bool
  /-- How many are about to raise the flag. -/
  storing : ℕ
  /-- How many have raised it and are about to notify. -/
  notifying : ℕ
  phase : WaitPhase

namespace Wait

variable {w w' : Wait}

/-- **A lost wake-up**: the flag is up, nobody will notify, and the waiter
is blocked, or will be. -/
def Lost (w : Wait) : Prop :=
  w.raised = true ∧ w.storing = 0 ∧ w.notifying = 0 ∧ (w.phase = .committed ∨ w.phase = .blocked)

/-- What a notification leaves. -/
def notified (w : Wait) : Wait :=
  { w with
    notifying := w.notifying - 1
    phase := if w.phase = .blocked then .away else w.phase }

/-- **The steps but for notifications.** -/
inductive WaitStep (w : Wait) : Wait → Prop
  | stay : WaitStep w w
  /-- The waiter goes anywhere but into its wait, or out of it. -/
  | move (phase : WaitPhase) (hphase : phase = .away ∨ phase = .testing) :
      WaitStep w { w with phase := phase }
  /-- It tests the flag and finds it down. -/
  | commit (hphase : w.phase = .testing) (hraised : w.raised = false) :
      WaitStep w { w with phase := .committed }
  | block (hphase : w.phase = .committed) : WaitStep w { w with phase := .blocked }
  /-- Somebody is about to raise the flag. -/
  | begin : WaitStep w { w with storing := w.storing + 1 }
  | raise (hstoring : 0 < w.storing) :
      WaitStep w { w with
        raised := true, storing := w.storing - 1, notifying := w.notifying + 1 }

/-- A notification now would be the last, and find the waiter past its
test and not blocked. -/
def AtGap (w : Wait) : Prop := w.storing = 0 ∧ w.notifying = 1 ∧ w.phase = .committed

/-- Who is about to notify has raised the flag. -/
def RaisedFirst (w : Wait) : Prop := 0 < w.notifying → w.raised = true

theorem RaisedFirst.waitStep (h : w.RaisedFirst) (hstep : WaitStep w w') : w'.RaisedFirst := by
  intro hnotifying
  cases hstep with
  | raise _ => rfl
  | stay | move | commit | block | begin => exact h hnotifying

theorem RaisedFirst.notified (h : w.RaisedFirst) : w.notified.RaisedFirst := by
  intro hnotifying
  have hbefore : w.notified.notifying = w.notifying - 1 := rfl
  exact h (by omega)

/-- No step but a notification loses a wake-up. -/
theorem not_lost_of_waitStep (h : ¬ w.Lost) (hstep : WaitStep w w') : ¬ w'.Lost := by
  rintro ⟨hraised, hstoring, hnotifying, hphase⟩
  cases hstep with
  | stay => exact h ⟨hraised, hstoring, hnotifying, hphase⟩
  | move phase haway =>
    change phase = .committed ∨ phase = .blocked at hphase
    rcases haway with rfl | rfl <;> rcases hphase with h | h <;> cases h
  | commit htesting hdown => exact absurd (hdown.symm.trans hraised) nofun
  | block hcommitted => exact h ⟨hraised, hstoring, hnotifying, .inl hcommitted⟩
  | begin => exact absurd hstoring (Nat.succ_ne_zero _)
  | raise hpos => exact absurd hnotifying (Nat.succ_ne_zero _)

/-- **A notification loses one** exactly at the gap. -/
theorem lost_notified_iff (h : w.RaisedFirst) (hnotifying : 0 < w.notifying) :
    w.notified.Lost ↔ w.AtGap := by
  have hphase : w.notified.phase = .committed ∨ w.notified.phase = .blocked ↔
      w.phase = .committed := by
    rw [notified]
    cases w.phase <;> simp
  have hrest : w.notified.raised = w.raised ∧ w.notified.storing = w.storing ∧
      w.notified.notifying = w.notifying - 1 := ⟨rfl, rfl, rfl⟩
  rw [Lost, hphase, AtGap, hrest.1, hrest.2.1, hrest.2.2]
  constructor
  · rintro ⟨-, hstoring, hlast, hcommitted⟩
    exact ⟨hstoring, by omega, hcommitted⟩
  · rintro ⟨hstoring, hlast, hcommitted⟩
    exact ⟨h hnotifying, hstoring, by omega, hcommitted⟩

end Wait

namespace GuardedSystem

open Wait

variable {σ α : Type*} {M : GuardedSystem σ α} {C : σ → α → Prop}

/-- **The runs that lose no wake-up**, in a system that has such a protocol
in it, are those in which no notification comes at the gap. -/
theorem forall_not_lost_iff [∀ s a, Decidable (C s a)] (wait : σ → Wait) (notifies : α → Prop)
    (hC : ∀ s a, C s a ↔ (notifies a → ¬ (wait s).AtGap))
    (hinit : (wait M.init).raised = false ∧ (wait M.init).notifying = 0)
    (hother : ∀ s a s', ¬ notifies a → M.step s a = some s' → WaitStep (wait s) (wait s'))
    (hnotify : ∀ s a s', notifies a → M.step s a = some s' →
      0 < (wait s).notifying ∧ wait s' = (wait s).notified)
    {as : List α} {s : σ} (hrun : M.runFrom M.init as = some s) :
    (∀ m ∈ M.passed [M.init] M.init as, ¬ (wait m).Lost) ↔ M.runVia C M.init as = some s := by
  have hraisedFirst : ∀ s, M.Reachable s → (wait s).RaisedFirst := by
    intro s hs
    refine GuardedSystem.Reachable.invariant (P := fun s => (wait s).RaisedFirst) ?_ ?_ hs
    · intro hnotifying
      exact absurd hinit.2 (Nat.pos_iff_ne_zero.mp hnotifying)
    · intro s a s' ih hstep
      by_cases ha : notifies a
      · rw [(hnotify s a s' ha hstep).2]
        exact ih.notified
      · exact ih.waitStep (hother s a s' ha hstep)
  have hnotLost : ¬ (wait M.init).Lost := fun h => absurd (hinit.1.symm.trans h.1) nofun
  refine forall_passed_iff_runVia (fun s a s' hs hkept hstep => ?_) .init hnotLost hrun
  rw [hC s a]
  by_cases ha : notifies a
  · obtain ⟨hnotifying, hafter⟩ := hnotify s a s' ha hstep
    rw [hafter, lost_notified_iff (hraisedFirst s hs) hnotifying]
    exact ⟨fun h _ => h, fun h => h ha⟩
  · have hkeeps := not_lost_of_waitStep hkept (hother s a s' ha hstep)
    exact iff_of_true hkeeps fun h => absurd h ha

end GuardedSystem
