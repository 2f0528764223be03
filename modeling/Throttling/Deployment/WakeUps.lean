import Throttling.Server.Shutdown
import Throttling.Client.HeartbeatLoop
/-!
# Shutdown wake-ups

Both sides end by a flag and a notification: the server on a signal, the
client's heartbeat thread on `Stop`. On both, whether a wake-up is lost
is a matter of one moment of the waiter's.
-/

namespace Throttling

/-- **Shutdown wake-ups are kept** in exactly the interleavings in which no
notification that is the last under way comes between the waiter's test
and its blocking: those of any number of signals with the shutdown
thread, and those of any number of calls of `Stop` with the heartbeat
thread. -/
theorem wakeUps_kept_iff (signals : List ShutdownAction) (server : Shutdown)
    (hserver : shutdownSystem.runFrom shutdownSystem.init signals = some server)
    (stops : List HeartbeatStopAction) (client : HeartbeatStop)
    (hclient : heartbeatStopSystem.runFrom heartbeatStopSystem.init stops = some client) :
    ((∀ s ∈ shutdownSystem.passed [shutdownSystem.init] shutdownSystem.init signals,
        ¬ s.WakeUpLost) ↔
      shutdownSystem.runVia Shutdown.Timely shutdownSystem.init signals = some server) ∧
    ((∀ s ∈ heartbeatStopSystem.passed [heartbeatStopSystem.init] heartbeatStopSystem.init stops,
        ¬ s.WakeUpLost) ↔
      heartbeatStopSystem.runVia HeartbeatStop.Timely heartbeatStopSystem.init stops =
        some client) :=
  ⟨Shutdown.forall_not_wakeUpLost_iff hserver, HeartbeatStop.forall_not_wakeUpLost_iff hclient⟩

/-- The thread has blocked when the signal comes. -/
def signalledRun : List ShutdownAction :=
  [.threadStep, .threadStep, .threadStep, .deliver .sigint, .store, .notifyAll, .threadStep,
   .threadStep, .threadStep]

/-- One round of the loop; in the next, two calls of `Stop`, the second of
which notifies once the thread has blocked. -/
def stoppedRun : List HeartbeatStopAction :=
  [.threadStep, .threadStep, .threadStep, .threadStep, .timeOut, .threadStep, .threadStep,
   .threadStep, .threadStep, .threadStep, .threadStep, .threadStep, .threadStep, .stop, .load,
   .stop, .load, .store, .store, .notifyAll, .threadStep, .notifyAll, .threadStep, .threadStep,
   .threadStep]

theorem signalledRun_stoppedRun_wakeUps_kept :
    (∀ s ∈ shutdownSystem.passed [shutdownSystem.init] shutdownSystem.init signalledRun,
      ¬ s.WakeUpLost) ∧
    ∀ s ∈ heartbeatStopSystem.passed [heartbeatStopSystem.init] heartbeatStopSystem.init stoppedRun,
      ¬ s.WakeUpLost := by
  have hkept := wakeUps_kept_iff signalledRun
    { requested := true, storing := 0, notifying := 0, thread := .finished } (by decide) stoppedRun
    { running := false, loading := 0, storing := 0, notifying := 0, thread := .exited,
      lockedByOther := false } (by decide)
  exact ⟨hkept.1.mpr (by decide), hkept.2.mpr (by decide)⟩

/-- **In the gap both are lost**: the flag is found down, then stored and
notified, and then the thread blocks. -/
theorem wakeUps_lost_at_gap :
    shutdownSystem.runFrom shutdownSystem.init
        [.threadStep, .threadStep, .deliver .sigint, .store, .notifyAll, .threadStep] =
      some { requested := true, storing := 0, notifying := 0, thread := .blocked } ∧
    Shutdown.WakeUpLost { requested := true, storing := 0, notifying := 0, thread := .blocked } ∧
    heartbeatStopSystem.runFrom heartbeatStopSystem.init
        [.threadStep, .threadStep, .threadStep, .stop, .load, .store, .notifyAll, .threadStep] =
      some { running := false, loading := 0, storing := 0, notifying := 0, thread := .blocked,
             lockedByOther := false } ∧
    HeartbeatStop.WakeUpLost
      { running := false, loading := 0, storing := 0, notifying := 0, thread := .blocked,
        lockedByOther := false } := by
  refine ⟨by decide, ⟨rfl, rfl, rfl, .inr rfl⟩, by decide, ⟨rfl, rfl, rfl, .inr rfl⟩⟩

end Throttling
