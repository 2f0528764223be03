import Throttling.Common.System
import Mathlib.Data.Nat.Notation
/-!
# Stopping the heartbeat thread

`Stop` stores `running_` and notifies `cv_`, without `mutex_`;
`HeartbeatLoop` waits on `cv_` under that mutex for one heartbeat interval
at a time, and takes part in nothing else while it waits. Any number of
calls of `Stop` can be under way; what each does after it notified `cv_`
is left out, as are `SendHeartbeat` and the sections others run under
`mutex_`, but for the mutex they hold. A notification releases the thread
if it is blocked at that moment; otherwise only the interval's end does.
-/

namespace Throttling

/-- Where the heartbeat thread is. -/
inductive HeartbeatLoopPc where
  /-- At the loop's test. -/
  | looping
  /-- About to lock `mutex_` for the wait. -/
  | locking
  /-- Holding it, about to evaluate the wait's predicate. -/
  | testing
  /-- The predicate was false; holding the mutex still, about to block. -/
  | committed
  /-- In the wait, with the mutex released. -/
  | blocked
  /-- Released, by a notification or at the interval's end; about to lock
  the mutex again. -/
  | relocking (timedOut : Bool)
  /-- At the interval's end, about to evaluate the predicate for the
  wait's value, which nobody reads. -/
  | returning
  /-- Past the wait, about to load `running_`. -/
  | checking
  /-- About to unlock the mutex. -/
  | unlocking
  /-- In `SendHeartbeat`. -/
  | sending
  | exited
deriving DecidableEq

/-- Whether it holds the mutex there. -/
def HeartbeatLoopPc.holdsMutex : HeartbeatLoopPc → Bool
  | testing | committed | returning | checking | unlocking => true
  | looping | locking | blocked | relocking _ | sending | exited => false

/-- **The flag, the calls of `Stop` and the thread.** -/
structure HeartbeatStop where
  /-- `running_`. -/
  running : Bool
  /-- How many calls of `Stop` are about to load `running_`. -/
  loading : ℕ
  /-- How many are about to store it. -/
  storing : ℕ
  /-- How many have stored it and are about to notify `cv_`. -/
  notifying : ℕ
  thread : HeartbeatLoopPc
  /-- Whether another thread holds `mutex_`. -/
  lockedByOther : Bool
deriving DecidableEq

inductive HeartbeatStopAction where
  /-- `Stop` is called. -/
  | stop
  | load
  | store
  | notifyAll
  /-- The thread's next step. -/
  | threadStep
  /-- The heartbeat interval ends. -/
  | timeOut
  /-- Another thread locks `mutex_`. -/
  | lock
  | unlock
deriving DecidableEq

namespace HeartbeatStop

/-- The thread's next step. -/
def threadStep (s : HeartbeatStop) : Option HeartbeatStop :=
  match s.thread with
  | .looping => some { s with thread := if s.running then .locking else .exited }
  | .locking => if s.lockedByOther then none else some { s with thread := .testing }
  | .testing => some { s with thread := if s.running then .committed else .checking }
  | .committed => some { s with thread := .blocked }
  | .blocked => none
  | .relocking timedOut =>
    if s.lockedByOther then none
    else some { s with thread := if timedOut then .returning else .testing }
  | .returning => some { s with thread := .checking }
  | .checking => some { s with thread := if s.running then .unlocking else .exited }
  | .unlocking => some { s with thread := .sending }
  | .sending => some { s with thread := .looping }
  | .exited => none

def step (s : HeartbeatStop) : HeartbeatStopAction → Option HeartbeatStop
  | .stop => some { s with loading := s.loading + 1 }
  | .load =>
    if 0 < s.loading then
      some { s with
        loading := s.loading - 1
        storing := if s.running then s.storing + 1 else s.storing }
    else none
  | .store =>
    if 0 < s.storing then
      some { s with running := false, storing := s.storing - 1, notifying := s.notifying + 1 }
    else none
  | .notifyAll =>
    if 0 < s.notifying then
      some { s with
        notifying := s.notifying - 1
        thread := if s.thread = .blocked then .relocking false else s.thread }
    else none
  | .threadStep => s.threadStep
  | .timeOut =>
    if s.thread = .blocked then some { s with thread := .relocking true } else none
  | .lock =>
    if s.lockedByOther || s.thread.holdsMutex then none else some { s with lockedByOther := true }
  | .unlock => if s.lockedByOther then some { s with lockedByOther := false } else none

/-- **A lost wake-up**: the client was stopped, every call of `Stop` that
is to notify has done so, and the thread is blocked, or about to block. -/
def WakeUpLost (s : HeartbeatStop) : Prop :=
  s.running = false ∧ s.storing = 0 ∧ s.notifying = 0 ∧
    (s.thread = .committed ∨ s.thread = .blocked)

/-- **No notification falls into the gap**: none that is the last under
way runs between the thread's test of the flag and its blocking. -/
def Timely (s : HeartbeatStop) (a : HeartbeatStopAction) : Prop :=
  a = .notifyAll → ¬ (s.storing = 0 ∧ s.notifying = 1 ∧ s.thread = .committed)

instance (s : HeartbeatStop) (a : HeartbeatStopAction) : Decidable (s.Timely a) :=
  inferInstanceAs (Decidable (_ → _))

end HeartbeatStop

/-- The runs of a heartbeat thread that was just created. -/
def heartbeatStopSystem : GuardedSystem HeartbeatStop HeartbeatStopAction where
  init :=
    { running := true, loading := 0, storing := 0, notifying := 0, thread := .looping,
      lockedByOther := false }
  step := HeartbeatStop.step

end Throttling
