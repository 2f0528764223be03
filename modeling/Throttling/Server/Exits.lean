import Throttling.Server.Process
import Throttling.Server.Progress
import Throttling.Server.Shutdown
/-!
# A signal brings the server down

Once the server is up and a signal has been delivered, every execution in
which each thread gets on when it can comes to its end with `0`, or to a
lost wake-up of the shutdown thread, and to none of these if no
notification falls into the gap (`exits_of_signalled`). On the way the
thread is released and shuts the server down; gRPC closes it, so the
handlers under way return and no other is called; `Shutdown` and `Wait`
have nothing left to wait for, and the thread is joined.
-/

namespace Throttling

open GuardedSystem.Execution

variable {server : GrpcServer} {args : List String}

/-- The places of `main`, in the order it comes to them. -/
def MainPc.stage : MainPc → ℕ
  | parsing => 0
  | installingSigint _ => 1
  | installingSigterm _ => 2
  | starting _ => 3
  | creatingThread => 4
  | waiting => 5
  | joining => 6
  | returning => 7
  | exited _ => 8
  | killed => 9

namespace Shutdown

variable {s s' : Shutdown} {a : ShutdownAction}

theorem step_store (h : 0 < s.storing) : s.step .store =
    some { s with
      requested := true, storing := s.storing - 1, notifying := s.notifying + 1 } := if_pos h

theorem step_notifyAll (h : 0 < s.notifying) : s.step .notifyAll =
    some { s with
      notifying := s.notifying - 1
      thread := if s.thread = .blocked then .relocking else s.thread } := if_pos h

theorem storing_le_of_step (ha : a ≠ .store) (h : s.step a = some s') : s.storing ≤ s'.storing := by
  cases a with
  | deliver signal =>
    rw [← Option.some.inj h]
    split
    · exact Nat.le_succ _
    · exact le_rfl
  | store => exact absurd rfl ha
  | notifyAll =>
    simp only [step] at h
    split at h
    · rw [← Option.some.inj h]
    · cases h
  | threadStep => exact (others_of_threadStep h).2.1.ge

theorem notifying_le_of_step (ha : a ≠ .notifyAll) (h : s.step a = some s') :
    s.notifying ≤ s'.notifying := by
  cases a with
  | deliver signal =>
    rw [← Option.some.inj h]
    split <;> exact le_rfl
  | store =>
    simp only [step] at h
    split at h
    · rw [← Option.some.inj h]
      exact Nat.le_succ _
    · cases h
  | notifyAll => exact absurd rfl ha
  | threadStep => exact (others_of_threadStep h).2.2.ge

theorem requested_of_step (h : s.step a = some s') (hrequested : s.requested = true) :
    s'.requested = true := by
  by_cases ha : a = .threadStep
  · subst ha
    exact (others_of_threadStep h).1.trans hrequested
  · exact (thread_of_step ha h).2 hrequested

theorem raisedFirst_of_step (h : s.wait.RaisedFirst) (hstep : s.step a = some s') :
    s'.wait.RaisedFirst := by
  by_cases ha : a = .notifyAll
  · subst ha
    rw [(wait_of_notifyAll hstep).2]
    exact h.notified
  · exact h.waitStep (waitStep_of_step ha hstep)

/-- The thread has a step unless it is blocked, or done. -/
theorem exists_threadStep (hblocked : s.thread ≠ .blocked) (hfinished : s.thread ≠ .finished) :
    ∃ s', s.threadStep = some s' := by
  unfold threadStep
  cases hthread : s.thread with
  | blocked => exact absurd hthread hblocked
  | finished => exact absurd hthread hfinished
  | locking | testing | committed | relocking | stopping => exact ⟨_, rfl⟩

end Shutdown

namespace Process

/-- The server was built, and `main` has not returned. -/
def Up (s : Process) : Prop := 4 ≤ s.main.stage ∧ s.main.stage ≤ 7

variable {s s' : Process} {a : ProcessAction} {E : (processSystem server args).Execution} {n m : ℕ}

theorem Up.cases (h : s.Up) : s.main = .creatingThread ∨ s.main = .waiting ∨ s.main = .joining ∨
    s.main = .returning := by
  obtain ⟨hlow, hhigh⟩ := h
  cases hmain : s.main with
  | creatingThread | waiting | joining | returning => simp
  | parsing | installingSigint | installingSigterm | starting | exited | killed =>
    rw [hmain] at hlow hhigh
    simp only [MainPc.stage] at hlow hhigh
    omega

theorem Up.not_ended (h : s.Up) : s.ended = false := by
  rcases h.cases with hmain | hmain | hmain | hmain <;> simp [ended, hmain]

/-- **It is the server of a configuration**, and handles both signals. -/
theorem Up.exists_started (h : s.Up) (horderly : Orderly args s) :
    ∃ text config, Started args s text config := by
  have hplace := horderly.place
  rcases h.cases with hmain | hmain | hmain | hmain
  · rw [hmain] at hplace
    exact ⟨_, hplace.1⟩
  · rw [hmain] at hplace
    exact ⟨_, hplace⟩
  · rw [hmain] at hplace
    exact ⟨_, hplace.1⟩
  · rw [hmain] at hplace
    exact ⟨_, hplace.1⟩

/-! ## What steps leave as it is -/

theorem stage_lt_of_mainStep {started : Bool} (h : Moved server args s (.mainStep started) s') :
    s.main.stage < s'.main.stage := by
  cases h with
  | refused hmain | parsed hmain | installedSigint hmain | installedSigterm hmain
  | started hmain | notStarted hmain | createdThread hmain | waited hmain | joined hmain
  | returned hmain =>
    rw [hmain]
    simp [MainPc.stage]

/-- **`main` goes on, never back.** -/
theorem stage_le_of_moved (h : Moved server args s a s') :
    s.main.stage ≤ s'.main.stage := by
  cases a with
  | mainStep started => exact (stage_lt_of_mainStep h).le
  | shutdown action =>
    cases h with
    | killed hsignal hhandles =>
      change s.main.stage ≤ 9
      cases s.main <;> simp [MainPc.stage]
    | _ => exact le_rfl
  | service action => cases h <;> exact le_rfl

/-- Who else moves leaves `main` where it is, or kills it. -/
theorem main_of_moved (hother : ∀ started, a ≠ .mainStep started) (h : Moved server args s a s') :
    s'.main = s.main ∨ s'.main = .killed := by
  cases h with
  | refused | parsed | installedSigint | installedSigterm | started | notStarted | createdThread
  | waited | joined | returned => exact absurd rfl (hother _)
  | killed => exact .inr rfl
  | _ => exact .inl rfl

/-- A server that is up stays up until `main` returns with `0`. -/
theorem Up.step (h : s.Up) (horderly : Orderly args s) (hstep : s.step server args a = some s') :
    s'.Up ∨ s'.main = .exited 0 := by
  obtain ⟨hgoing, hmoved⟩ := moved_of_step hstep
  have hlow := h.1.trans (stage_le_of_moved hmoved)
  cases hmoved with
  | refused hmain => simp [Up, hmain, MainPc.stage] at h
  | parsed hmain => simp [Up, hmain, MainPc.stage] at h
  | installedSigint hmain => simp [Up, hmain, MainPc.stage] at h
  | installedSigterm hmain => simp [Up, hmain, MainPc.stage] at h
  | started hmain => simp [Up, hmain, MainPc.stage] at h
  | notStarted hmain => simp [Up, hmain, MainPc.stage] at h
  | createdThread | waited | joined => exact .inl ⟨hlow, by simp [MainPc.stage]⟩
  | returned => exact .inr rfl
  | killed hsignal hhandles =>
    obtain ⟨text, config, hstarted⟩ := h.exists_started horderly
    exact absurd (hhandles.symm.trans (hstarted.handles hsignal)) Bool.false_ne_true
  | _ => exact .inl h

/-! ## Executions -/

/-- **Each thread, and each handler of a signal, gets on when it can.** -/
structure Fair (E : (processSystem server args).Execution) : Prop where
  main : E.WeaklyFair fun a => ∃ started, a = .mainStep started
  thread : E.WeaklyFair (· = .shutdown .threadStep)
  store : E.WeaklyFair (· = .shutdown .store)
  notify : E.WeaklyFair (· = .shutdown .notifyAll)
  service : ∀ t, E.WeaklyFair fun a => ∃ readings, a = .service (.step t readings)

/-- **gRPC closes a server that is shut down**: from some time on it calls
no handler any more. -/
def Closes (E : (processSystem server args).Execution) : Prop :=
  ∀ n, .shutdownCalled ∈ (E.state n).history → ∃ m, n ≤ m ∧
    ∀ k t request, m ≤ k → E.action k ≠ some (.service (.begin t request))

theorem orderly_state (hserver : server.Documented) (n : ℕ) : Orderly args (E.state n) :=
  orderly_of_reachable hserver (reachable n)

theorem moved_of_action (h : E.action n = some a) :
    Moved server args (E.state n) a (E.state (n + 1)) :=
  (moved_of_step (E.moved n a h)).2

/-- **From a time on the server is up**, in order, and no wake-up is lost. -/
structure Going (E : (processSystem server args).Execution) (n : ℕ) : Prop where
  orderly : ∀ m, Orderly args (E.state m)
  up : ∀ m, n ≤ m → (E.state m).Up
  kept : ∀ m, n ≤ m → ¬ (E.state m).shutdown.WakeUpLost

theorem Going.mono (h : Going E n) (hle : n ≤ m) : Going E m :=
  ⟨h.orderly, fun k hk => h.up k (hle.trans hk), fun k hk => h.kept k (hle.trans hk)⟩

/-- What every step keeps stays. -/
theorem Going.stays {P : Process → Prop} (h : Going E n)
    (hstep : ∀ s s' a, s.Up → s'.Up → Orderly args s → Moved server args s a s' → P s → P s')
    (hP : P (E.state n)) (hle : n ≤ m) : P (E.state m) :=
  GuardedSystem.Execution.stays hle hP fun k _ hk _ haction hPk =>
    hstep _ _ _ (h.up k hk) (h.up (k + 1) (by omega)) (h.orderly k) (moved_of_action haction) hPk

theorem Up.enabled {p : ProcessAction → Prop} (h : s.Up) (ha : p a)
    (hmoved : Moved server args s a s') : (processSystem server args).Enabled p s :=
  ⟨a, ha, Option.isSome_iff_exists.mpr ⟨s', step_of_moved h.not_ended hmoved⟩⟩

/-! ## The thread is released -/

/-- `main` creates the thread that waits. -/
theorem Going.waits (h : Going E n) (hfair : Fair E) : ∃ m, n ≤ m ∧
    ∀ k, m ≤ k → 5 ≤ (E.state k).main.stage := by
  have hforever : ∀ m, n ≤ m → 5 ≤ (E.state m).main.stage → ∀ k, m ≤ k →
      5 ≤ (E.state k).main.stage := fun m hm hstage k hk =>
    (h.mono hm).stays (P := fun s => 5 ≤ s.main.stage)
      (fun _ _ _ _ _ _ hmoved hs => le_trans hs (stage_le_of_moved hmoved)) hstage hk
  by_cases hnow : (E.state n).main = .creatingThread
  · obtain ⟨m, a, hm, hmain, haction, started, rfl⟩ := exists_action_of_weaklyFair
      (P := fun s => s.main = .creatingThread) hnow hfair.main
      (fun m hm hmain => (h.up m hm).enabled ⟨true, rfl⟩ (.createdThread hmain))
      fun m a hm hmain haction hother => by
        have hup := h.up (m + 1) (by omega)
        rcases main_of_moved (fun started heq => hother ⟨started, heq⟩)
          (moved_of_action haction) with hsame | hkilled
        · exact hsame.trans hmain
        · simp [Up, hkilled, MainPc.stage] at hup
    refine ⟨m + 1, by omega, hforever (m + 1) (by omega) ?_⟩
    have hlt := stage_lt_of_mainStep (moved_of_action haction)
    rw [hmain] at hlt
    exact hlt
  · refine ⟨n, le_rfl, hforever n le_rfl ?_⟩
    rcases (h.up n le_rfl).cases with hmain | hmain | hmain | hmain
    · exact absurd hmain hnow
    · simp [hmain, MainPc.stage]
    · simp [hmain, MainPc.stage]
    · simp [hmain, MainPc.stage]

/-- Where a step of the protocol was taken. -/
theorem step_of_stored (h : Moved server args s (.shutdown .store) s') :
    s.shutdown.step .store = some s'.shutdown := by
  cases h with
  | stored hstep => exact hstep

theorem step_of_notified (h : Moved server args s (.shutdown .notifyAll) s') :
    s.shutdown.step .notifyAll = some s'.shutdown := by
  cases h with
  | notified hstep => exact hstep

theorem storing_le_of_moved (hother : a ≠ .shutdown .store) (h : Moved server args s a s') :
    s.shutdown.storing ≤ s'.shutdown.storing := by
  rcases shutdown_of_moved h with hsame | ⟨action, rfl, hstep⟩
  · rw [hsame]
  · exact Shutdown.storing_le_of_step (fun heq => hother (congrArg _ heq)) hstep

theorem notifying_le_of_moved (hother : a ≠ .shutdown .notifyAll) (h : Moved server args s a s') :
    s.shutdown.notifying ≤ s'.shutdown.notifying := by
  rcases shutdown_of_moved h with hsame | ⟨action, rfl, hstep⟩
  · rw [hsame]
  · exact Shutdown.notifying_le_of_step (fun heq => hother (congrArg _ heq)) hstep

theorem requested_of_moved (h : Moved server args s a s')
    (hrequested : s.shutdown.requested = true) : s'.shutdown.requested = true := by
  rcases shutdown_of_moved h with hsame | ⟨action, rfl, hstep⟩
  · rw [hsame]
    exact hrequested
  · exact Shutdown.requested_of_step hstep hrequested

theorem thread_of_moved (hother : a ≠ .shutdown .threadStep) (h : Moved server args s a s') :
    s'.shutdown.thread = s.shutdown.thread ∨
      s.shutdown.thread = .blocked ∧ s'.shutdown.thread = .relocking := by
  rcases shutdown_of_moved h with hsame | ⟨action, rfl, hstep⟩
  · exact .inl (congrArg _ hsame)
  · exact (Shutdown.thread_of_step (fun heq => hother (congrArg _ heq)) hstep).1

theorem raisedFirst_state (n : ℕ) : (E.state n).shutdown.wait.RaisedFirst := by
  refine GuardedSystem.Reachable.invariant (P := fun s => s.shutdown.wait.RaisedFirst)
    (fun hnotifying => ?_) (fun s a s' h hstep => ?_) (reachable (E := E) n)
  · exact absurd hnotifying (Nat.lt_irrefl 0)
  · rcases shutdown_of_moved (moved_of_step hstep).2 with hsame | ⟨action, -, hprotocol⟩
    · rw [hsame]
      exact h
    · exact Shutdown.raisedFirst_of_step h hprotocol

/-- **The flag goes up** once a handler was entered. -/
theorem Going.requested (h : Going E n) (hfair : Fair E) (hraised : (E.state n).shutdown.Raised) :
    ∃ m, n ≤ m ∧ ∀ k, m ≤ k → (E.state k).shutdown.requested = true := by
  have hforever : ∀ m, n ≤ m → (E.state m).shutdown.requested = true → ∀ k, m ≤ k →
      (E.state k).shutdown.requested = true := fun m hm hrequested k hk =>
    (h.mono hm).stays (P := fun s => s.shutdown.requested = true)
      (fun _ _ _ _ _ _ hmoved hs => requested_of_moved hmoved hs) hrequested hk
  by_cases hnow : (E.state n).shutdown.requested = true
  · exact ⟨n, le_rfl, hforever n le_rfl hnow⟩
  · have hstoring : 0 < (E.state n).shutdown.storing :=
      (hraised.resolve_left hnow).resolve_right fun hnotifying =>
        hnow (raisedFirst_state n hnotifying)
    obtain ⟨m, _, hm, hpos, haction, rfl⟩ := exists_action_of_weaklyFair
      (P := fun s => 0 < s.shutdown.storing) hstoring hfair.store
      (fun m hm hpos => (h.up m hm).enabled rfl (.stored (Shutdown.step_store hpos)))
      fun m a hm hpos haction hother =>
        hpos.trans_le (storing_le_of_moved hother (moved_of_action haction))
    refine ⟨m + 1, by omega, hforever (m + 1) (by omega) ?_⟩
    have hstep := step_of_stored (moved_of_action haction)
    rw [Shutdown.step_store hpos] at hstep
    rw [← Option.some.inj hstep]

/-- **Shutdown was requested**, of a server that is up, with its thread
created. -/
structure Called (E : (processSystem server args).Execution) (n : ℕ) : Prop extends Going E n where
  waits : ∀ m, n ≤ m → 5 ≤ (E.state m).main.stage
  requested : ∀ m, n ≤ m → (E.state m).shutdown.requested = true

theorem Called.mono (h : Called E n) (hle : n ≤ m) : Called E m :=
  ⟨h.toGoing.mono hle, fun k hk => h.waits k (hle.trans hk),
    fun k hk => h.requested k (hle.trans hk)⟩

/-- `main` waits for the thread until that is done. -/
theorem Called.main_of_thread (h : Called E n) (hle : n ≤ m)
    (hthread : (E.state m).shutdown.thread ≠ .finished) :
    (E.state m).main = .waiting ∨ (E.state m).main = .joining := by
  have hplace := (h.orderly m).place
  rcases (h.up m hle).cases with hmain | hmain | hmain | hmain
  · have hstage := h.waits m hle
    rw [hmain] at hstage
    simp [MainPc.stage] at hstage
  · exact .inl hmain
  · exact .inr hmain
  · rw [hmain] at hplace
    exact absurd hplace.2.1 hthread

/-- **The thread takes its next step**, in its wait or on its way to it. -/
theorem Called.threadSteps (h : Called E n) (hfair : Fair E) {pc : ShutdownPc}
    (hblocked : pc ≠ .blocked) (hstopping : pc ≠ .stopping) (hfinished : pc ≠ .finished)
    (hthread : (E.state n).shutdown.thread = pc) :
    ∃ m, n ≤ m ∧ (E.state m).shutdown.thread = pc ∧
      (E.state m).shutdown.threadStep = some (E.state (m + 1)).shutdown := by
  obtain ⟨m, _, hm, hpc, haction, rfl⟩ := exists_action_of_weaklyFair
    (P := fun s => s.shutdown.thread = pc) hthread hfair.thread
    (fun m hm hpc => by
      obtain ⟨shutdown, hstep⟩ := Shutdown.exists_threadStep (s := (E.state m).shutdown)
        (hpc ▸ hblocked) (hpc ▸ hfinished)
      exact (h.up m hm).enabled rfl
        (.threadMoved (h.main_of_thread hm (hpc ▸ hfinished)) (hpc ▸ hstopping) hstep))
    fun m a hm hpc haction hother => by
      rcases thread_of_moved hother (moved_of_action haction) with hsame | ⟨hwas, -⟩
      · exact hsame.trans hpc
      · exact absurd (hpc.symm.trans hwas) hblocked
  refine ⟨m, hm, hpc, ?_⟩
  have hmoved := moved_of_action haction
  generalize E.state (m + 1) = s' at hmoved
  cases hmoved with
  | shutDown _ hnow => exact absurd (hpc.symm.trans hnow) hstopping
  | shutDownReturned _ hnow => exact absurd (hpc.symm.trans hnow) hstopping
  | threadMoved _ _ hstep => exact hstep

/-- **The thread is released**: it is notified at last, or was never
blocked. -/
theorem Called.relocks (h : Called E n) (hfair : Fair E)
    (hthread : (E.state n).shutdown.thread = .blocked) :
    ∃ m, n ≤ m ∧ (E.state m).shutdown.thread = .relocking := by
  by_contra hnever
  have hblocked : ∀ m, n ≤ m → (E.state m).shutdown.thread = .blocked := by
    intro m hm
    refine GuardedSystem.Execution.stays (P := fun s : Process => s.shutdown.thread = .blocked) hm
      hthread fun k a hk _ haction hpc => ?_
    by_cases ha : a = .shutdown .threadStep
    · subst ha
      have hmoved := moved_of_action haction
      generalize E.state (k + 1) = s' at hmoved
      cases hmoved with
      | shutDown _ hnow => exact absurd (hpc.symm.trans hnow) (by decide)
      | shutDownReturned _ hnow => exact absurd (hpc.symm.trans hnow) (by decide)
      | threadMoved _ _ hstep => simp [Shutdown.threadStep, hpc] at hstep
    · rcases thread_of_moved ha (moved_of_action haction) with hsame | ⟨-, hreleased⟩
      · exact hsame.trans hpc
      · exact absurd ⟨k + 1, by omega, hreleased⟩ hnever
  -- nothing is lost, so a handler is under way, and will notify
  obtain ⟨m, hm, hnotifying⟩ : ∃ m, n ≤ m ∧ 0 < (E.state m).shutdown.notifying := by
    by_cases hnow : 0 < (E.state n).shutdown.notifying
    · exact ⟨n, le_rfl, hnow⟩
    · have hstoring : 0 < (E.state n).shutdown.storing := by
        by_contra hnone
        exact h.kept n le_rfl ⟨h.requested n le_rfl, by omega, by omega, .inr hthread⟩
      obtain ⟨m, _, hm, hpos, haction, rfl⟩ := exists_action_of_weaklyFair
        (P := fun s => 0 < s.shutdown.storing) hstoring hfair.store
        (fun m hm hpos => (h.up m hm).enabled rfl (.stored (Shutdown.step_store hpos)))
        fun m a hm hpos haction hother =>
          hpos.trans_le (storing_le_of_moved hother (moved_of_action haction))
      refine ⟨m + 1, by omega, ?_⟩
      have hstep := step_of_stored (moved_of_action haction)
      rw [Shutdown.step_store hpos] at hstep
      rw [← Option.some.inj hstep]
      exact Nat.succ_pos _
  obtain ⟨k, _, hk, hpos, haction, rfl⟩ := exists_action_of_weaklyFair
    (P := fun s => 0 < s.shutdown.notifying) hnotifying hfair.notify
    (fun k hk hpos => (h.up k (hm.trans hk)).enabled rfl
      (.notified (Shutdown.step_notifyAll hpos)))
    fun k a hk hpos haction hother =>
      hpos.trans_le (notifying_le_of_moved hother (moved_of_action haction))
  have hstep := step_of_notified (moved_of_action haction)
  rw [Shutdown.step_notifyAll hpos, if_pos (hblocked k (hm.trans hk))] at hstep
  refine hnever ⟨k + 1, by omega, ?_⟩
  rw [← Option.some.inj hstep]

/-- The thread's wait is over. -/
def Past (s : Process) : Prop := s.shutdown.thread = .stopping ∨ s.shutdown.thread = .finished

theorem Called.past_of_testing (h : Called E n) (hfair : Fair E)
    (hthread : (E.state n).shutdown.thread = .testing) : ∃ m, n ≤ m ∧ Past (E.state m) := by
  obtain ⟨m, hm, hpc, hstep⟩ := h.threadSteps hfair (by decide) (by decide) (by decide) hthread
  refine ⟨m + 1, by omega, .inl ?_⟩
  simp only [Shutdown.threadStep, hpc, h.requested m hm] at hstep
  rw [← Option.some.inj hstep]
  rfl

theorem Called.past_of_locking (h : Called E n) (hfair : Fair E)
    (hthread : (E.state n).shutdown.thread = .locking ∨
      (E.state n).shutdown.thread = .relocking) : ∃ m, n ≤ m ∧ Past (E.state m) := by
  have htesting : ∃ m, n ≤ m ∧ (E.state m).shutdown.thread = .testing := by
    rcases hthread with hthread | hthread
    · obtain ⟨m, hm, hpc, hstep⟩ := h.threadSteps hfair (by decide) (by decide) (by decide) hthread
      refine ⟨m + 1, by omega, ?_⟩
      simp only [Shutdown.threadStep, hpc] at hstep
      rw [← Option.some.inj hstep]
    · obtain ⟨m, hm, hpc, hstep⟩ := h.threadSteps hfair (by decide) (by decide) (by decide) hthread
      refine ⟨m + 1, by omega, ?_⟩
      simp only [Shutdown.threadStep, hpc] at hstep
      rw [← Option.some.inj hstep]
  obtain ⟨m, hm, hpc⟩ := htesting
  obtain ⟨k, hk, hpast⟩ := (h.mono hm).past_of_testing hfair hpc
  exact ⟨k, hm.trans hk, hpast⟩

theorem Called.past_of_blocked (h : Called E n) (hfair : Fair E)
    (hthread : (E.state n).shutdown.thread = .blocked) : ∃ m, n ≤ m ∧ Past (E.state m) := by
  obtain ⟨m, hm, hpc⟩ := h.relocks hfair hthread
  obtain ⟨k, hk, hpast⟩ := (h.mono hm).past_of_locking hfair (.inr hpc)
  exact ⟨k, hm.trans hk, hpast⟩

/-- **The thread's wait comes to its end.** -/
theorem Called.past (h : Called E n) (hfair : Fair E) : ∃ m, n ≤ m ∧ Past (E.state m) := by
  cases hthread : (E.state n).shutdown.thread with
  | locking => exact h.past_of_locking hfair (.inl hthread)
  | relocking => exact h.past_of_locking hfair (.inr hthread)
  | testing => exact h.past_of_testing hfair hthread
  | blocked => exact h.past_of_blocked hfair hthread
  | committed =>
    obtain ⟨m, hm, hpc, hstep⟩ := h.threadSteps hfair (by decide) (by decide) (by decide) hthread
    simp only [Shutdown.threadStep, hpc] at hstep
    have hblocked : (E.state (m + 1)).shutdown.thread = .blocked := by rw [← Option.some.inj hstep]
    obtain ⟨k, hk, hpast⟩ := (h.mono (hm.trans (Nat.le_succ m))).past_of_blocked hfair hblocked
    exact ⟨k, by omega, hpast⟩
  | stopping => exact ⟨n, le_rfl, .inl hthread⟩
  | finished => exact ⟨n, le_rfl, .inr hthread⟩

/-! ## The server drains -/

/-- The past is not undone. -/
theorem mem_history_of_moved {event : GrpcEvent} (h : Moved server args s a s')
    (hevent : event ∈ s.history) : event ∈ s'.history := by
  cases h with
  | waited | shutDown | shutDownReturned | began => exact List.mem_cons_of_mem _ hevent
  | @served t readings service hstep =>
    change event ∈ (if (service.threads t).isNone = true then _ else _)
    split
    · exact List.mem_cons_of_mem _ hevent
    · exact hevent
  | _ => exact hevent

/-- Where no handler is called, none comes to be under way. -/
theorem underWay_of_moved (h : Moved server args s a s')
    (hclosed : ∀ t request, a ≠ .service (.begin t request)) (hnone : underWay s.history = ∅) :
    underWay s'.history = ∅ := by
  cases h with
  | began => exact absurd rfl (hclosed _ _)
  | @served t readings service hstep =>
    change underWay (if (service.threads t).isNone = true then _ else _) = ∅
    split
    · rw [underWay, hnone, Finset.erase_empty]
    · exact hnone
  | _ => exact hnone

/-- **The thread shuts the server down.** -/
theorem Called.shutsDown (h : Called E n) (hfair : Fair E) (hpast : Past (E.state n)) :
    ∃ m, n ≤ m ∧ .shutdownCalled ∈ (E.state m).history := by
  by_contra hnever
  have hopen : ∀ m, n ≤ m → .shutdownCalled ∉ (E.state m).history := fun m hm hdown =>
    hnever ⟨m, hm, hdown⟩
  have hstopping : (E.state n).shutdown.thread = .stopping := hpast.resolve_right fun hfinished =>
    hnever ⟨n, le_rfl, ((h.orderly n).finished hfinished).1⟩
  obtain ⟨m, _, hm, hpc, haction, rfl⟩ := exists_action_of_weaklyFair
    (P := fun s => s.shutdown.thread = .stopping) hstopping hfair.thread
    (fun m hm hpc => (h.up m hm).enabled rfl
      (.shutDown (h.main_of_thread hm (by rw [hpc]; decide)) hpc (hopen m hm)))
    fun m a hm hpc haction hother => by
      rcases thread_of_moved hother (moved_of_action haction) with hsame | ⟨hwas, -⟩
      · exact hsame.trans hpc
      · rw [hpc] at hwas
        cases hwas
  have hnext := hopen (m + 1) (by omega)
  have hmoved := moved_of_action haction
  generalize E.state (m + 1) = s' at hmoved hnext
  cases hmoved with
  | shutDown => exact hnext List.mem_cons_self
  | shutDownReturned _ _ hdown => exact hopen m hm hdown
  | threadMoved _ hthread => exact hthread hpc

/-- **The server is shut down**, and closed. -/
structure Closing (E : (processSystem server args).Execution) (n : ℕ) : Prop
    extends Called E n where
  down : ∀ m, n ≤ m → .shutdownCalled ∈ (E.state m).history
  closed : ∀ k t request, n ≤ k → E.action k ≠ some (.service (.begin t request))

theorem Closing.mono (h : Closing E n) (hle : n ≤ m) : Closing E m :=
  ⟨h.toCalled.mono hle, fun k hk => h.down k (hle.trans hk),
    fun k t request hk => h.closed k t request (hle.trans hk)⟩

/-- The action of the service that an action is. -/
def service? : ProcessAction → Option (LockAction Readings ℕ Request)
  | .service action => some action
  | _ => none

/-- What the service does is a step of its handlers' threads. -/
theorem service_of_moved {action : LockAction Readings ℕ Request}
    (h : Moved server args s (.service action) s') (heartbeatTimeout : ℤ) :
    (serverLockSystem heartbeatTimeout).step s.service action = some s'.service := by
  cases h with
  | began _ _ hidle => simp [serverLockSystem, lockSystem, hidle]
  | served hstep => exact hstep

theorem service_of_other (h : Moved server args s a s') (hup : s.Up) (ha : service? a = none) :
    s'.service = s.service := by
  cases h with
  | started hmain => simp [Up, hmain, MainPc.stage] at hup
  | began => cases ha
  | served => cases ha
  | _ => rfl

/-- It comes up when the server is built. -/
theorem built_of_moved (h : Moved server args s a s') (hbefore : ¬ s.Up) (hup : s'.Up) :
    ∃ heartbeatTimeout, s'.service = (serverLockSystem heartbeatTimeout).init := by
  cases h with
  | @started config hmain => exact ⟨config.heartbeatTimeout, rfl⟩
  | refused | parsed | installedSigint | installedSigterm | notStarted | killed =>
    simp [Up, MainPc.stage] at hup
  | createdThread hmain | waited hmain | joined hmain | returned hmain =>
    simp [Up, hmain, MainPc.stage] at hbefore
  | _ => exact absurd hup hbefore

/-- The server was built, at one time. -/
theorem exists_built (hup : (E.state n).Up) : ∃ m heartbeatTimeout, m ≤ n ∧
    (E.state m).service = (serverLockSystem heartbeatTimeout).init ∧ (E.state m).Up := by
  induction n with
  | zero =>
    rw [E.start] at hup
    exact absurd hup.1 (Nat.not_succ_le_zero 3)
  | succ n ih =>
    by_cases hbefore : (E.state n).Up
    · obtain ⟨m, heartbeatTimeout, hm, hbuilt⟩ := ih hbefore
      exact ⟨m, heartbeatTimeout, by omega, hbuilt⟩
    · cases haction : E.action n with
      | none =>
        rw [E.rested n haction] at hup
        exact absurd hup hbefore
      | some a =>
        obtain ⟨heartbeatTimeout, hbuilt⟩ := built_of_moved (moved_of_action haction) hbefore hup
        exact ⟨n + 1, heartbeatTimeout, le_rfl, hbuilt, hup⟩

/-- **The handlers under way return**: seen from its start on, the service
is an execution of its handlers' threads, in which no handler begins any
more. -/
theorem Closing.drains (h : Closing E n) (hfair : Fair E) :
    ∃ m, n ≤ m ∧ underWay (E.state m).history = ∅ := by
  obtain ⟨start, heartbeatTimeout, hstart, hbuilt, hup⟩ := exists_built (h.up n le_rfl)
  have hstage : ∀ {j k}, j ≤ k → (E.state j).main.stage ≤ (E.state k).main.stage := by
    intro j k hjk
    refine GuardedSystem.Execution.stays
      (P := fun s : Process => (E.state j).main.stage ≤ s.main.stage) hjk le_rfl fun i a _ _ haction hle => ?_
    exact hle.trans (stage_le_of_moved (moved_of_action haction))
  have hupAll : ∀ k, start ≤ k → (E.state k).Up := by
    intro k hk
    have hlast := (h.up (max n k) (le_max_left n k)).2
    exact ⟨hup.1.trans (hstage hk), (hstage (le_max_right n k)).trans hlast⟩
  have hmoved : ∀ (k : ℕ) (a : ProcessAction) (b : LockAction Readings ℕ Request), start ≤ k →
      E.action k = some a → service? a = some b →
      (serverLockSystem heartbeatTimeout).step (E.state k).service b =
        some (E.state (k + 1)).service := by
    intro k a b hk haction hb
    cases a with
    | service action =>
      obtain rfl := Option.some.inj hb
      exact service_of_moved (moved_of_action haction) heartbeatTimeout
    | mainStep started => cases hb
    | shutdown action => cases hb
  let E' := E.ofPart (N := serverLockSystem heartbeatTimeout) Process.service service? start hbuilt
    hmoved fun k a hk haction hnone =>
      service_of_other (moved_of_action haction) (hupAll k hk) hnone
  have hfair' : ∀ t, E'.WeaklyFair (LockAction.IsStepOf t) := by
    intro t
    refine weaklyFair_ofPart (hfair.service t) ?_ ?_
    · rintro _ ⟨readings, rfl⟩
      exact ⟨_, rfl, readings, rfl⟩
    · rintro k hk ⟨_, ⟨readings, rfl⟩, hstep⟩
      obtain ⟨service, hstep⟩ := Option.isSome_iff_exists.mp hstep
      exact (hupAll k hk).enabled ⟨readings, rfl⟩ (.served hstep)
  have hclosed : LockState.ClosedFrom E' (n - start) := by
    intro k t request hk hbegin
    obtain ⟨a, haction, hb⟩ := Option.bind_eq_some_iff.mp hbegin
    cases a with
    | service action =>
      obtain rfl := Option.some.inj hb
      exact h.closed (start + k) t request (by omega) haction
    | mainStep started => cases hb
    | shutdown action => cases hb
  obtain ⟨k, hk, hidle⟩ := hclosed.idle_of_weaklyFair ServerProg.ordered_handler hfair'
  refine ⟨start + k, by omega, Finset.eq_empty_of_forall_notMem fun t ht => ?_⟩
  exact ((h.orderly (start + k)).calls t).mp ht (hidle k le_rfl t)

/-! ## `main` returns -/

theorem Closing.finishes (h : Closing E n) (hfair : Fair E) (hwaits : server.WaitsOnlyForHandlers)
    (hnone : ∀ m, n ≤ m → underWay (E.state m).history = ∅) :
    ∃ m, n ≤ m ∧ (E.state m).shutdown.thread = .finished := by
  rcases (h.orderly n).shuttingDown (h.down n le_rfl) with hthread | hthread
  · obtain ⟨m, _, hm, hpc, haction, rfl⟩ := exists_action_of_weaklyFair
      (P := fun s => s.shutdown.thread = .stopping) hthread hfair.thread
      (fun m hm hpc => by
        obtain ⟨shutdown, hstep⟩ := Shutdown.exists_threadStep (s := (E.state m).shutdown)
          (by rw [hpc]; decide) (by rw [hpc]; decide)
        exact (h.up m hm).enabled rfl
          (.shutDownReturned (h.main_of_thread hm (by rw [hpc]; decide)) hpc (h.down m hm)
            (hwaits _ (h.down m hm) (hnone m hm)).1 hstep))
      fun m a hm hpc haction hother => by
        rcases thread_of_moved hother (moved_of_action haction) with hsame | ⟨hwas, -⟩
        · exact hsame.trans hpc
        · rw [hpc] at hwas
          cases hwas
    refine ⟨m + 1, by omega, ?_⟩
    have hmoved := moved_of_action haction
    have hdown := h.down m hm
    generalize E.state (m + 1) = s' at hmoved
    cases hmoved with
    | shutDown _ _ hopen => exact absurd hdown hopen
    | shutDownReturned _ _ _ _ hstep =>
      simp only [Shutdown.threadStep, hpc] at hstep
      rw [← Option.some.inj hstep]
    | threadMoved _ hthread => exact absurd hpc hthread
  · exact ⟨n, le_rfl, hthread⟩

theorem finished_of_moved (h : Moved server args s a s')
    (hfinished : s.shutdown.thread = .finished) : s'.shutdown.thread = .finished := by
  by_cases ha : a = .shutdown .threadStep
  · subst ha
    cases h with
    | shutDown => exact hfinished
    | shutDownReturned _ hthread => exact absurd (hthread.symm.trans hfinished) (by decide)
    | threadMoved _ _ hstep => simp [Shutdown.threadStep, hfinished] at hstep
  · rcases thread_of_moved ha h with hsame | ⟨hwas, -⟩
    · exact hsame.trans hfinished
    · rw [hfinished] at hwas
      cases hwas

/-- **Then nothing keeps `main` from returning**, so the server does not
stay up. -/
theorem Closing.not_finished (h : Closing E n) (hfair : Fair E)
    (hwaits : server.WaitsOnlyForHandlers)
    (hnone : ∀ m, n ≤ m → underWay (E.state m).history = ∅)
    (hfinished : ∀ m, n ≤ m → (E.state m).shutdown.thread = .finished) : False := by
  have hgoes : ∀ c, ∃ m, n ≤ m ∧ c ≤ (E.state m).main.stage := by
    intro c
    induction c with
    | zero => exact ⟨n, le_rfl, Nat.zero_le _⟩
    | succ c ih =>
      obtain ⟨m, hm, hstage⟩ := ih
      obtain ⟨k, a, hk, hsame, haction, started, rfl⟩ := exists_action_of_weaklyFair
        (P := fun s => s.main = (E.state m).main) rfl hfair.main
        (fun k hk _ => by
          have hk' : n ≤ k := hm.trans hk
          have hup := h.up k hk'
          rcases hup.cases with hmain | hmain | hmain | hmain
          · exact hup.enabled ⟨true, rfl⟩ (.createdThread hmain)
          · exact hup.enabled ⟨true, rfl⟩
              (.waited hmain (hwaits _ (h.down k hk') (hnone k hk')).2)
          · exact hup.enabled ⟨true, rfl⟩ (.joined hmain (hfinished k hk'))
          · exact hup.enabled ⟨true, rfl⟩ (.returned hmain))
        fun k a hk hsame haction hother => by
          have hup := h.up (k + 1) (by omega)
          rcases main_of_moved (fun started heq => hother ⟨started, heq⟩)
            (moved_of_action haction) with hstill | hkilled
          · exact hstill.trans hsame
          · simp [Up, hkilled, MainPc.stage] at hup
      have hlt := stage_lt_of_mainStep (moved_of_action haction)
      rw [hsame] at hlt
      exact ⟨k + 1, by omega, by omega⟩
  obtain ⟨m, hm, hstage⟩ := hgoes 8
  have hup := (h.up m hm).2
  omega

/-- **A server that was signalled does not stay up.** -/
theorem Going.not_raised (h : Going E n) (hfair : Fair E) (hwaits : server.WaitsOnlyForHandlers)
    (hcloses : Closes E) (hraised : (E.state n).shutdown.Raised) : False := by
  obtain ⟨n₁, hn₁, hrequested⟩ := h.requested hfair hraised
  obtain ⟨n₂, hn₂, hwaiting⟩ := (h.mono hn₁).waits hfair
  have hcalled : Called E n₂ :=
    ⟨h.mono (hn₁.trans hn₂), hwaiting, fun k hk => hrequested k (hn₂.trans hk)⟩
  obtain ⟨n₃, hn₃, hpast⟩ := hcalled.past hfair
  obtain ⟨n₄, hn₄, hdown⟩ := (hcalled.mono hn₃).shutsDown hfair hpast
  obtain ⟨n₅, hn₅, hclosed⟩ := hcloses n₄ hdown
  have hclosing : Closing E n₅ := by
    refine ⟨hcalled.mono (by omega), fun m hm => ?_, hclosed⟩
    exact GuardedSystem.Execution.stays (P := fun s : Process => .shutdownCalled ∈ s.history)
      (hn₅.trans hm) hdown fun k a _ _ haction hs =>
        mem_history_of_moved (moved_of_action haction) hs
  obtain ⟨n₆, hn₆, hempty⟩ := hclosing.drains hfair
  have hnone : ∀ m, n₆ ≤ m → underWay (E.state m).history = ∅ := fun m hm =>
    GuardedSystem.Execution.stays (P := fun s : Process => underWay s.history = ∅) hm hempty
      fun k a hk _ haction hs => underWay_of_moved (moved_of_action haction)
        (fun t request ha => hclosed k t request (hn₆.trans hk) (ha ▸ haction)) hs
  obtain ⟨n₇, hn₇, hthread⟩ := (hclosing.mono hn₆).finishes hfair hwaits hnone
  have hfinished : ∀ m, n₇ ≤ m → (E.state m).shutdown.thread = .finished := fun m hm =>
    GuardedSystem.Execution.stays (P := fun s : Process => s.shutdown.thread = .finished) hm hthread
      fun k a _ _ haction hs => finished_of_moved (moved_of_action haction) hs
  exact (hclosing.mono (hn₆.trans hn₇)).not_finished hfair hwaits
    (fun m hm => hnone m (hn₇.trans hm)) hfinished

/-- **So it ends, or its thread misses the signal.** -/
theorem exits_or_loses (hserver : server.Documented) (hwaits : server.WaitsOnlyForHandlers)
    (hcloses : Closes E) (hfair : Fair E) (hup : (E.state n).Up)
    (hraised : (E.state n).shutdown.Raised) :
    ∃ m, n ≤ m ∧ ((E.state m).main = .exited 0 ∨ (E.state m).shutdown.WakeUpLost) := by
  by_contra hnever
  have hgoing : Going E n := by
    refine ⟨orderly_state hserver, fun m hm => ?_,
      fun m hm hlost => hnever ⟨m, hm, .inr hlost⟩⟩
    refine GuardedSystem.Execution.stays (P := Up) hm hup fun k a hk _ haction hs => ?_
    exact (hs.step (orderly_state hserver k) (E.moved k a haction)).resolve_right fun hexited =>
      hnever ⟨k + 1, by omega, .inl hexited⟩
  exact hgoing.not_raised hfair hwaits hcloses hraised

/-! ## No wake-up is lost where notifications are timely -/

def notifies : ProcessAction → Bool
  | .shutdown .notifyAll => true
  | _ => false

/-- No notification falls into the gap of the thread that waits. -/
def TimelyNotified (s : Process) (a : ProcessAction) : Prop :=
  notifies a = true → s.shutdown.Timely .notifyAll

instance (s : Process) (a : ProcessAction) : Decidable (s.TimelyNotified a) :=
  inferInstanceAs (Decidable (_ → _))

theorem not_wakeUpLost_of_via (htimely : E.Via TimelyNotified) (n : ℕ) :
    ¬ (E.state n).shutdown.WakeUpLost := by
  rw [Shutdown.wakeUpLost_iff]
  have hboth : (E.state n).shutdown.wait.RaisedFirst ∧ ¬ (E.state n).shutdown.wait.Lost := by
    refine GuardedSystem.ReachableVia.invariant
      (P := fun s : Process => s.shutdown.wait.RaisedFirst ∧ ¬ s.shutdown.wait.Lost) ?_
      (fun s a s' h ha hstep => ?_) (reachableVia htimely n)
    · exact ⟨fun hnotifying => absurd hnotifying (Nat.lt_irrefl 0),
        fun hlost => absurd hlost.1 Bool.false_ne_true⟩
    · rcases shutdown_of_moved (moved_of_step hstep).2 with hsame | ⟨action, heq, hprotocol⟩
      · rw [hsame]
        exact h
      · refine ⟨Shutdown.raisedFirst_of_step h.1 hprotocol, ?_⟩
        by_cases hnotify : action = .notifyAll
        · subst hnotify
          obtain ⟨hpos, hnotified⟩ := Shutdown.wait_of_notifyAll hprotocol
          rw [hnotified, Wait.lost_notified_iff h.1 hpos]
          exact Shutdown.timely_iff.mp (ha (by rw [heq]; rfl)) rfl
        · exact Wait.not_lost_of_waitStep h.2 (Shutdown.waitStep_of_step hnotify hprotocol)
  exact hboth.2

end Process

open Process

/-- **A signal brings the server down**, with a gRPC that keeps to its
documentation and closes a server that is shut down. From any state in
which it is up and a handler was entered, `main` returns `0`, the shutdown
thread joined and every call answered, or a wake-up of that thread is
lost; and where notifications are timely, `main` returns. -/
theorem exits_of_signalled {E : (processSystem server args).Execution}
    (hserver : server.Documented) (hwaits : server.WaitsOnlyForHandlers) (hcloses : Closes E)
    (hfair : Fair E) :
    E.Leads (fun s => (s.main = .creatingThread ∨ s.main = .waiting) ∧ s.shutdown.Raised)
      (fun s => s.main = .exited 0 ∨ s.shutdown.WakeUpLost) ∧
    (E.Via TimelyNotified →
      E.Leads (fun s => (s.main = .creatingThread ∨ s.main = .waiting) ∧ s.shutdown.Raised)
        fun s => s.main = .exited 0) := by
  have hleads : E.Leads
      (fun s => (s.main = .creatingThread ∨ s.main = .waiting) ∧ s.shutdown.Raised)
      (fun s => s.main = .exited 0 ∨ s.shutdown.WakeUpLost) := by
    rintro n ⟨hserving, hraised⟩
    refine exits_or_loses hserver hwaits hcloses hfair ?_ hraised
    rcases hserving with hmain | hmain <;> simp [Up, hmain, MainPc.stage]
  refine ⟨hleads, fun htimely n hn => ?_⟩
  obtain ⟨m, hm, hexited | hlost⟩ := hleads n hn
  · exact ⟨m, hm, hexited⟩
  · exact absurd hlost (not_wakeUpLost_of_via htimely m)

theorem interruptedRun_exits : ∃ E : sampleSystem.Execution,
    ((E.state 12).main = .waiting ∧ (E.state 12).shutdown.Raised) ∧
      ∃ m, 12 ≤ m ∧ (E.state m).main = .exited 0 := by
  have hrun : (sampleSystem.runVia TimelyNotified sampleSystem.init interruptedRun).map
      Process.main = some (.exited 0) := by decide +kernel
  obtain ⟨s, hvia, hmain⟩ := Option.map_eq_some_iff.mp hrun
  let E := ofRun (runFrom_of_runVia hvia)
  have hdone : ∀ p, ¬ sampleSystem.Enabled p s := by
    rintro p ⟨a, -, hstep⟩
    obtain ⟨s', hstep⟩ := Option.isSome_iff_exists.mp hstep
    have hgoing := (moved_of_step hstep).1
    simp [ended, hmain] at hgoing
  have hfairAll : ∀ p, E.WeaklyFair p := fun p =>
    (stronglyFair_ofRun (runFrom_of_runVia hvia) (hdone p)).weaklyFair
  have hfair : Fair E := ⟨hfairAll _, hfairAll _, hfairAll _, hfairAll _, fun _ => hfairAll _⟩
  have hcloses : Closes E := by
    intro n _
    refine ⟨max n interruptedRun.length, le_max_left _ _, fun k t request hk hbegin => ?_⟩
    have hnone : interruptedRun[k]? = none :=
      List.getElem?_eq_none ((le_max_right _ _).trans hk)
    exact absurd (hnone.symm.trans hbegin) (Option.some_ne_none _).symm
  have hstate : (stateAfter sampleSystem interruptedRun 12).main = .waiting ∧
      (stateAfter sampleSystem interruptedRun 12).shutdown.storing = 1 := by
    decide +kernel
  have hraised : (E.state 12).shutdown.Raised := .inr (.inl (hstate.2 ▸ Nat.one_pos))
  exact ⟨E, ⟨hstate.1, hraised⟩,
    (exits_of_signalled GrpcServer.untilShutdown_documented
      GrpcServer.untilShutdown_waitsOnlyForHandlers hcloses hfair).2 (via_ofRun hvia) 12
      ⟨.inr hstate.1, hraised⟩⟩

end Throttling
