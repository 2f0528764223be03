import Throttling.Common.System
import Mathlib.Data.Nat.Notation
/-!
# Shutting the server down

`SignalHandler` stores `g_shutdown_requested` and notifies
`g_shutdown_cv`, without `g_shutdown_mutex`; the thread `RunServer` starts
waits for it under that mutex, which nobody else takes. Any number of
handlers can be under way, each delivered at any moment. A notification
releases the thread if it is blocked at that moment, and nothing else
does.
-/

namespace Throttling

/-- The signals: the two that `main` installs the handler for, and the
others. -/
inductive Signal where
  | sigint
  | sigterm
  | other
deriving DecidableEq

/-- Where the shutdown thread is. -/
inductive ShutdownPc where
  /-- Created or not yet; about to lock `g_shutdown_mutex`. -/
  | locking
  /-- Holding it, about to evaluate the wait's predicate. -/
  | testing
  /-- The predicate was false; holding it still, about to block. -/
  | committed
  /-- In the wait, with the mutex released. -/
  | blocked
  /-- Released; about to lock the mutex again. -/
  | relocking
  /-- The wait is over; about to call `server->Shutdown()`. -/
  | stopping
  | finished
deriving DecidableEq

/-- **The flag, the handlers and the thread.** -/
structure Shutdown where
  /-- `g_shutdown_requested`. -/
  requested : Bool
  /-- How many handlers are about to store it. -/
  storing : ℕ
  /-- How many have stored it and are about to notify. -/
  notifying : ℕ
  thread : ShutdownPc
deriving DecidableEq

inductive ShutdownAction where
  /-- A signal is delivered, and the handler entered. -/
  | deliver (signal : Signal)
  | store
  | notifyAll
  /-- The thread's next step. -/
  | threadStep
deriving DecidableEq

namespace Shutdown

/-- The thread's next step. -/
def threadStep (s : Shutdown) : Option Shutdown :=
  match s.thread with
  | .locking => some { s with thread := .testing }
  | .testing => some { s with thread := if s.requested then .stopping else .committed }
  | .committed => some { s with thread := .blocked }
  | .blocked => none
  | .relocking => some { s with thread := .testing }
  | .stopping => some { s with thread := .finished }
  | .finished => none

def step (s : Shutdown) : ShutdownAction → Option Shutdown
  | .deliver signal =>
    some (if signal = .sigint ∨ signal = .sigterm then { s with storing := s.storing + 1 } else s)
  | .store =>
    if 0 < s.storing then
      some { s with requested := true, storing := s.storing - 1, notifying := s.notifying + 1 }
    else none
  | .notifyAll =>
    if 0 < s.notifying then
      some { s with
        notifying := s.notifying - 1
        thread := if s.thread = .blocked then .relocking else s.thread }
    else none
  | .threadStep => s.threadStep

/-- **A lost wake-up**: shutdown was requested, every handler has returned,
and the thread is blocked, or about to block. -/
def WakeUpLost (s : Shutdown) : Prop :=
  s.requested = true ∧ s.storing = 0 ∧ s.notifying = 0 ∧
    (s.thread = .committed ∨ s.thread = .blocked)

/-- **No notification falls into the gap**: none that is the last of the
handlers under way runs between the thread's test of the flag and its
blocking. -/
def Timely (s : Shutdown) (a : ShutdownAction) : Prop :=
  a = .notifyAll → ¬ (s.storing = 0 ∧ s.notifying = 1 ∧ s.thread = .committed)

instance (s : Shutdown) (a : ShutdownAction) : Decidable (s.Timely a) :=
  inferInstanceAs (Decidable (_ → _))

end Shutdown

/-- The runs of a server that was just started. -/
def shutdownSystem : GuardedSystem Shutdown ShutdownAction where
  init := { requested := false, storing := 0, notifying := 0, thread := .locking }
  step := Shutdown.step

end Throttling
