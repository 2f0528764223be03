import Throttling.Common.Races
import Throttling.Server.CommandLine
import Throttling.Server.Model.Process
/-!
# What the process comes to

The components are built before the first handler is called, and
destroyed when the last one has returned and the shutdown thread is done,
so what runs between is the server of the command line's timeout
(`serving_of_reachable`). The process ends with `0` after a signal, and
with `1` when it has served nothing; what it has written by then says
which (`exited_of_runFrom`). Of gRPC both assume what its documentation
says, and no more.
-/

namespace Throttling

variable {server : GrpcServer} {args : List String} {config : ServerConfig}

/-- What is accepted is accepted in silence. -/
theorem parseArgs_of_some (h : (parseArgs args).1 = some config) :
    parseArgs args = (some config, {}) := by
  have hsilent : (parseArgs args).2 = {} := by
    cases args with
    | nil => rfl
    | cons programName args =>
      refine (parseFrom_snd_eq_iff args {}).mpr ?_
      rw [show (parseFrom programName {} args).1 = some config from h]
      rfl
  rw [← h, ← hsilent]

namespace Shutdown

variable {s s' : Shutdown} {a : ShutdownAction}

/-- What others do leaves the thread where it is, or releases it. -/
theorem thread_of_step (ha : a ≠ .threadStep) (h : s.step a = some s') :
    (s'.thread = s.thread ∨ s.thread = .blocked ∧ s'.thread = .relocking) ∧
      (s.requested = true → s'.requested = true) := by
  cases a with
  | deliver signal =>
    obtain rfl := Option.some.inj h
    split
    · exact ⟨.inl rfl, id⟩
    · exact ⟨.inl rfl, id⟩
  | store =>
    simp only [step] at h
    split at h
    · obtain rfl := Option.some.inj h
      exact ⟨.inl rfl, fun _ => rfl⟩
    · cases h
  | notifyAll =>
    simp only [step] at h
    split at h
    · obtain rfl := Option.some.inj h
      refine ⟨?_, id⟩
      by_cases hblocked : s.thread = .blocked
      · exact .inr ⟨hblocked, if_pos hblocked⟩
      · exact .inl (if_neg hblocked)
    · cases h
  | threadStep => exact absurd rfl ha

/-- The thread's own step is of its place only. -/
theorem others_of_threadStep (h : s.threadStep = some s') : s'.requested = s.requested ∧
    s'.storing = s.storing ∧ s'.notifying = s.notifying := by
  unfold threadStep at h
  split at h
  · rw [← Option.some.inj h]
    exact ⟨rfl, rfl, rfl⟩
  · rw [← Option.some.inj h]
    exact ⟨rfl, rfl, rfl⟩
  · rw [← Option.some.inj h]
    exact ⟨rfl, rfl, rfl⟩
  · cases h
  · rw [← Option.some.inj h]
    exact ⟨rfl, rfl, rfl⟩
  · rw [← Option.some.inj h]
    exact ⟨rfl, rfl, rfl⟩
  · cases h

/-- The thread is past its wait only once shutdown was requested, and done
only after that. -/
theorem requested_of_threadStep (h : s.threadStep = some s') :
    (s'.thread = .stopping → s.requested = true) ∧
      (s'.thread = .finished → s.thread = .stopping) := by
  unfold threadStep at h
  split at h
  · rw [← Option.some.inj h]
    simp
  · rw [← Option.some.inj h]
    by_cases hrequested : s.requested = true
    · simp [hrequested]
    · simp [hrequested]
  · rw [← Option.some.inj h]
    simp
  · cases h
  · rw [← Option.some.inj h]
    simp
  · rename_i hstopping
    rw [← Option.some.inj h]
    exact ⟨by simp, fun _ => hstopping⟩
  · cases h

/-- Some handler was entered. -/
def Raised (s : Shutdown) : Prop := s.requested = true ∨ 0 < s.storing ∨ 0 < s.notifying

/-- **A signal comes first.** -/
theorem raised_of_step (h : s.step a = some s') (hraised : s'.Raised) :
    s.Raised ∨ ∃ signal, signal ≠ .other ∧ a = .deliver signal := by
  cases a with
  | deliver signal =>
    obtain rfl := Option.some.inj h
    by_cases hsignal : signal = .sigint ∨ signal = .sigterm
    · refine .inr ⟨signal, ?_, rfl⟩
      rintro rfl
      simp at hsignal
    · rw [if_neg hsignal] at hraised
      exact .inl hraised
  | store =>
    simp only [step] at h
    split at h
    · rename_i hstoring
      exact .inl (.inr (.inl hstoring))
    · cases h
  | notifyAll =>
    simp only [step] at h
    split at h
    · rename_i hnotifying
      exact .inl (.inr (.inr hnotifying))
    · cases h
  | threadStep =>
    obtain ⟨hrequested, hstoring, hnotifying⟩ := others_of_threadStep h
    rw [Raised, hrequested, hstoring, hnotifying] at hraised
    exact .inl hraised

end Shutdown

namespace Process

variable {s s' : Process} {a : ProcessAction}

/-! ## One step -/

/-- **What a step can be.** -/
inductive Moved (server : GrpcServer) (args : List String) (s : Process) :
    ProcessAction → Process → Prop
  | refused {started : Bool} (hmain : s.main = .parsing) (hparse : (parseArgs args).1 = none) :
      Moved server args s (.mainStep started)
        { s.write (parseArgs args).2 with main := .exited 1 }
  | parsed {started : Bool} {config : ServerConfig} (hmain : s.main = .parsing)
      (hparse : (parseArgs args).1 = some config) :
      Moved server args s (.mainStep started) { s.write {} with main := .installingSigint config }
  | installedSigint {started : Bool} {config : ServerConfig}
      (hmain : s.main = .installingSigint config) :
      Moved server args s (.mainStep started)
        { s with sigintHandled := true, main := .installingSigterm config }
  | installedSigterm {started : Bool} {config : ServerConfig}
      (hmain : s.main = .installingSigterm config) :
      Moved server args s (.mainStep started)
        { s with sigtermHandled := true, main := .starting config }
  | started {config : ServerConfig} (hmain : s.main = .starting config) :
      Moved server args s (.mainStep true)
        { s.write { cout := startedText config } with
          service := (serverLockSystem config.heartbeatTimeout).init, main := .creatingThread }
  | notStarted {config : ServerConfig} (hmain : s.main = .starting config) :
      Moved server args s (.mainStep false)
        { s.write { cerr := notStartedText config } with main := .exited 1 }
  | createdThread {started : Bool} (hmain : s.main = .creatingThread) :
      Moved server args s (.mainStep started) { s with main := .waiting }
  | waited {started : Bool} (hmain : s.main = .waiting)
      (hreturns : server.waitReturns s.history = true) :
      Moved server args s (.mainStep started)
        { s with main := .joining, history := .waitReturned :: s.history }
  | joined {started : Bool} (hmain : s.main = .joining)
      (hfinished : s.shutdown.thread = .finished) :
      Moved server args s (.mainStep started)
        { s.write { cout := completeText } with main := .returning }
  | returned {started : Bool} (hmain : s.main = .returning) :
      Moved server args s (.mainStep started) { s with main := .exited 0 }
  /-- The shutdown thread calls `server->Shutdown()`. -/
  | shutDown (hmain : s.main = .waiting ∨ s.main = .joining)
      (hthread : s.shutdown.thread = .stopping) (hopen : .shutdownCalled ∉ s.history) :
      Moved server args s (.shutdown .threadStep)
        { s.write { cout := stoppingText } with history := .shutdownCalled :: s.history }
  /-- The call returns. -/
  | shutDownReturned {shutdown : Shutdown} (hmain : s.main = .waiting ∨ s.main = .joining)
      (hthread : s.shutdown.thread = .stopping) (hdown : .shutdownCalled ∈ s.history)
      (hreturns : server.shutdownReturns s.history = true)
      (hstep : s.shutdown.threadStep = some shutdown) :
      Moved server args s (.shutdown .threadStep)
        { s with shutdown := shutdown, history := .shutdownReturned :: s.history }
  | threadMoved {shutdown : Shutdown} (hmain : s.main = .waiting ∨ s.main = .joining)
      (hthread : s.shutdown.thread ≠ .stopping) (hstep : s.shutdown.threadStep = some shutdown) :
      Moved server args s (.shutdown .threadStep) { s with shutdown := shutdown }
  | signalled {signal : Signal} {shutdown : Shutdown} (hhandles : s.handles signal = true)
      (hstep : s.shutdown.step (.deliver signal) = some shutdown) :
      Moved server args s (.shutdown (.deliver signal)) { s with shutdown := shutdown }
  | ignored : Moved server args s (.shutdown (.deliver .other)) s
  | killed {signal : Signal} (hsignal : signal ≠ .other) (hhandles : s.handles signal = false) :
      Moved server args s (.shutdown (.deliver signal)) { s with main := .killed }
  | stored {shutdown : Shutdown} (hstep : s.shutdown.step .store = some shutdown) :
      Moved server args s (.shutdown .store) { s with shutdown := shutdown }
  | notified {shutdown : Shutdown} (hstep : s.shutdown.step .notifyAll = some shutdown) :
      Moved server args s (.shutdown .notifyAll) { s with shutdown := shutdown }
  | began {t : ℕ} {request : Request} (hstands : s.serverStands = true)
      (hcalls : server.callsHandler s.history = true) (hidle : s.service.threads t = none) :
      Moved server args s (.service (.begin t request))
        { s with
          service := s.service.goto t (some (ServerProg.handler request))
          history := .handlerCalled t :: s.history }
  | served {t : ℕ} {readings : Readings}
      {service : LockState Mutex Readings Server (Status × Response) ℕ}
      (hstep : s.service.threadStep t readings = some service) :
      Moved server args s (.service (.step t readings))
        { s with
          service := service
          history :=
            if (service.threads t).isNone then .handlerReturned t :: s.history else s.history }

theorem moved_of_mainStep {started : Bool} (h : s.mainStep server args started = some s') :
    Moved server args s (.mainStep started) s' := by
  unfold mainStep at h
  split at h
  · rename_i hmain
    split at h
    · rename_i text hparse
      obtain rfl := Option.some.inj h
      have htext : text = (parseArgs args).2 := by rw [hparse]
      rw [htext]
      exact .refused hmain (by rw [hparse])
    · rename_i config text hparse
      obtain rfl := Option.some.inj h
      have hparsed : (parseArgs args).1 = some config := by rw [hparse]
      have htext : text = {} := by
        rw [parseArgs_of_some hparsed] at hparse
        exact (congrArg Prod.snd hparse).symm
      rw [htext]
      exact .parsed hmain hparsed
  · obtain rfl := Option.some.inj h
    exact .installedSigint ‹_›
  · obtain rfl := Option.some.inj h
    exact .installedSigterm ‹_›
  · split at h
    · rename_i htrue
      obtain rfl := Option.some.inj h
      rw [htrue]
      exact .started ‹_›
    · rename_i hfalse
      obtain rfl := Option.some.inj h
      rw [Bool.not_eq_true] at hfalse
      rw [hfalse]
      exact .notStarted ‹_›
  · obtain rfl := Option.some.inj h
    exact .createdThread ‹_›
  · split at h
    · rename_i hwait
      obtain rfl := Option.some.inj h
      exact .waited ‹_› hwait
    · cases h
  · split at h
    · obtain rfl := Option.some.inj h
      exact .joined ‹_› ‹_›
    · cases h
  · obtain rfl := Option.some.inj h
    exact .returned ‹_›
  · cases h
  · cases h

theorem threadCreated_iff : s.threadCreated = true ↔ s.main = .waiting ∨ s.main = .joining := by
  simp [threadCreated]

theorem moved_of_threadStep (h : s.threadStep server = some s') :
    Moved server args s (.shutdown .threadStep) s' := by
  unfold threadStep at h
  split at h
  · rename_i hcreated
    rw [threadCreated_iff] at hcreated
    split at h
    · rename_i hstopping
      split at h
      · rename_i hopen
        obtain rfl := Option.some.inj h
        exact .shutDown hcreated hstopping hopen
      · rename_i hdown
        split at h
        · rename_i hreturns
          obtain ⟨shutdown, hstep, rfl⟩ := Option.map_eq_some_iff.mp h
          exact .shutDownReturned hcreated hstopping (not_not.mp hdown) hreturns hstep
        · cases h
    · rename_i hstopping
      obtain ⟨shutdown, hstep, rfl⟩ := Option.map_eq_some_iff.mp h
      exact .threadMoved hcreated hstopping hstep
  · cases h

theorem moved_of_deliver {signal : Signal} (h : s.deliver signal = some s') :
    Moved server args s (.shutdown (.deliver signal)) s' := by
  unfold deliver at h
  split at h
  · rename_i hhandles
    obtain ⟨shutdown, hstep, rfl⟩ := Option.map_eq_some_iff.mp h
    exact .signalled hhandles hstep
  · rename_i hhandles
    split at h
    · rename_i hother
      obtain rfl := Option.some.inj h
      rw [hother]
      exact .ignored
    · rename_i hsignal
      obtain rfl := Option.some.inj h
      exact .killed hsignal (Bool.eq_false_iff.mpr hhandles)

theorem serverStands_iff : s.serverStands = true ↔ s.main = .creatingThread ∨
    s.main = .waiting ∨ s.main = .joining ∨ s.main = .returning := by
  simp [serverStands, or_assoc]

theorem moved_of_serviceStep {action : LockAction Readings ℕ Request}
    (h : s.serviceStep server action = some s') : Moved server args s (.service action) s' := by
  cases action with
  | begin t request =>
    simp only [serviceStep] at h
    split at h
    · rename_i hbegin
      obtain rfl := Option.some.inj h
      exact .began hbegin.1 hbegin.2.1 (Option.isNone_iff_eq_none.mp hbegin.2.2)
    · cases h
  | step t readings =>
    obtain ⟨service, hstep, rfl⟩ := Option.map_eq_some_iff.mp h
    exact .served hstep

/-- **A step is one of these**, of a process that has not ended. -/
theorem moved_of_step (h : s.step server args a = some s') :
    s.ended = false ∧ Moved server args s a s' := by
  unfold step at h
  split at h
  · cases h
  · rename_i hgoing
    refine ⟨Bool.eq_false_iff.mpr hgoing, ?_⟩
    split at h
    · exact moved_of_mainStep h
    · exact moved_of_deliver h
    · exact moved_of_threadStep h
    · rename_i action hdeliver hthread
      obtain ⟨shutdown, hstep, rfl⟩ := Option.map_eq_some_iff.mp h
      cases action with
      | deliver signal => exact absurd rfl (hdeliver signal)
      | store => exact .stored hstep
      | notifyAll => exact .notified hstep
      | threadStep => exact absurd rfl hthread
    · exact moved_of_serviceStep h

/-- **And each of these is a step.** -/
theorem step_of_moved (hgoing : s.ended = false) (h : Moved server args s a s') :
    s.step server args a = some s' := by
  cases h with
  | refused hmain hparse =>
    have hpair : parseArgs args = (none, (parseArgs args).2) := by rw [← hparse]
    simp only [step, hgoing, mainStep, hmain]
    rw [hpair]
    rfl
  | parsed hmain hparse => simp [step, hgoing, mainStep, hmain, parseArgs_of_some hparse]
  | installedSigint hmain => simp [step, hgoing, mainStep, hmain]
  | installedSigterm hmain => simp [step, hgoing, mainStep, hmain]
  | started hmain => simp [step, hgoing, mainStep, hmain]
  | notStarted hmain => simp [step, hgoing, mainStep, hmain]
  | createdThread hmain => simp [step, hgoing, mainStep, hmain]
  | waited hmain hreturns => simp [step, hgoing, mainStep, hmain, hreturns]
  | joined hmain hfinished => simp [step, hgoing, mainStep, hmain, hfinished]
  | returned hmain => simp [step, hgoing, mainStep, hmain]
  | shutDown hmain hthread hopen =>
    simp [step, hgoing, threadStep, threadCreated_iff.mpr hmain, hthread, hopen]
  | shutDownReturned hmain hthread hdown hreturns hstep =>
    simp [step, hgoing, threadStep, threadCreated_iff.mpr hmain, hthread, hdown, hreturns, hstep]
  | threadMoved hmain hthread hstep =>
    simp [step, hgoing, threadStep, threadCreated_iff.mpr hmain, hthread, hstep]
  | signalled hhandles hstep => simp [step, hgoing, deliver, hhandles, hstep]
  | ignored => simp [step, hgoing, deliver, handles]
  | killed hsignal hhandles => simp [step, hgoing, deliver, hhandles, hsignal]
  | stored hstep => simp [step, hgoing, hstep]
  | notified hstep => simp [step, hgoing, hstep]
  | began hstands hcalls hidle => simp [step, hgoing, serviceStep, hstands, hcalls, hidle]
  | served hstep => simp [step, hgoing, serviceStep, hstep]

/-! ## Where `main` is says what there is -/

/-- Nothing is served, and nobody waits. -/
structure Unstarted (s : Process) : Prop where
  thread : s.shutdown.thread = .locking
  silent : s.history = []
  idle : ∀ t, s.service.threads t = none

/-- The server of a configuration was started: its handlers run lock by
lock, and what was written says how far it is. -/
structure Started (args : List String) (s : Process) (text : String) (config : ServerConfig) :
    Prop where
  handled : s.sigintHandled = true ∧ s.sigtermHandled = true
  parsed : (parseArgs args).1 = some config
  reachable : (serverLockSystem config.heartbeatTimeout).Reachable s.service
  output : s.output = { cout := startedText config ++ text }

/-- What `cout` was told of the shutdown. -/
def progress (s : Process) : String := if .shutdownCalled ∈ s.history then stoppingText else ""

/-- It was started, and everything in it has come to its end. -/
def Stopped (args : List String) (s : Process) (text : String) : Prop :=
  (∃ config, Started args s text config) ∧ s.shutdown.thread = .finished ∧
    underWay s.history = ∅

/-- It was never started; what was written says why. -/
def NotStarted (args : List String) (s : Process) : Prop :=
  (parseArgs args).1 = none ∧ s.output = (parseArgs args).2 ∨
    ∃ config, (parseArgs args).1 = some config ∧ s.output = { cerr := notStartedText config }

/-- **What a place of `main` says.** -/
def Place (args : List String) (s : Process) : MainPc → Prop
  | .parsing => s.Unstarted ∧ s.output = {}
  | .installingSigint config => s.Unstarted ∧ s.output = {} ∧ (parseArgs args).1 = some config
  | .installingSigterm config =>
    s.Unstarted ∧ s.output = {} ∧ (parseArgs args).1 = some config ∧ s.sigintHandled = true
  | .starting config =>
    s.Unstarted ∧ s.output = {} ∧ (parseArgs args).1 = some config ∧
      s.sigintHandled = true ∧ s.sigtermHandled = true
  | .creatingThread =>
    (∃ config, Started args s "" config) ∧ s.shutdown.thread = .locking ∧
      .shutdownCalled ∉ s.history
  | .waiting => ∃ config, Started args s s.progress config
  | .joining =>
    (∃ config, Started args s stoppingText config) ∧ .shutdownCalled ∈ s.history ∧
      .waitReturned ∈ s.history ∧ underWay s.history = ∅
  | .returning => Stopped args s (stoppingText ++ completeText)
  | .exited code =>
    code = 0 ∧ Stopped args s (stoppingText ++ completeText) ∨
      code = 1 ∧ s.Unstarted ∧ NotStarted args s
  | .killed => s.Unstarted

/-- **The process is in order.** -/
structure Orderly (args : List String) (s : Process) : Prop where
  place : Place args s s.main
  calls : ∀ t, t ∈ underWay s.history ↔ s.service.threads t ≠ none
  /-- The server is shut down by the thread, past its wait. -/
  shuttingDown : .shutdownCalled ∈ s.history →
    s.shutdown.thread = .stopping ∨ s.shutdown.thread = .finished
  requested : s.shutdown.thread = .stopping ∨ s.shutdown.thread = .finished →
    s.shutdown.requested = true
  finished : s.shutdown.thread = .finished →
    .shutdownCalled ∈ s.history ∧ .shutdownReturned ∈ s.history ∧ underWay s.history = ∅

theorem orderly_init : Orderly args (processSystem server args).init where
  place := ⟨⟨rfl, rfl, fun _ => rfl⟩, rfl⟩
  calls t := ⟨fun h => absurd h (Finset.notMem_empty t), fun h => absurd rfl h⟩
  shuttingDown h := absurd h List.not_mem_nil
  requested h := by rcases h with h | h <;> cases h
  finished h := by cases h

theorem output_eq_of_write {a b : String} (h : s.output = { cout := a }) :
    (s.write { cout := b }).output = { cout := a ++ b } := by
  simp [write, h]

/-- **Handlers run while the server is up**: from its start until `Wait`
has returned. -/
theorem Orderly.serving (h : Orderly args s) {t : ℕ} (hbusy : s.service.threads t ≠ none) :
    s.main = .creatingThread ∨ s.main = .waiting := by
  have hplace := h.place
  have hcalls : underWay s.history ≠ ∅ := Finset.ne_empty_of_mem ((h.calls t).mpr hbusy)
  cases hmain : s.main with
  | creatingThread => exact .inl rfl
  | waiting => exact .inr rfl
  | parsing | installingSigint | installingSigterm | starting =>
    rw [hmain] at hplace
    exact absurd (hplace.1.idle t) hbusy
  | joining =>
    rw [hmain] at hplace
    exact absurd hplace.2.2.2 hcalls
  | returning =>
    rw [hmain] at hplace
    exact absurd hplace.2.2 hcalls
  | exited code =>
    rw [hmain] at hplace
    rcases hplace with ⟨-, hstopped⟩ | ⟨-, hunstarted, -⟩
    · exact absurd hstopped.2.2 hcalls
    · exact absurd (hunstarted.idle t) hbusy
  | killed =>
    rw [hmain] at hplace
    exact absurd (hplace.idle t) hbusy

/-! ## Steps of `main` -/

/-- **A step of `main` goes to a place that says the truth.** -/
theorem Orderly.mainStep {started : Bool} (h : Orderly args s) (hserver : server.Documented)
    (hmoved : Moved server args s (.mainStep started) s') : Orderly args s' := by
  have hplace := h.place
  cases hmoved with
  | refused hmain hparse =>
    rw [hmain] at hplace
    obtain ⟨hunstarted, houtput⟩ := hplace
    refine ⟨.inr ⟨rfl, ⟨hunstarted.1, hunstarted.2, hunstarted.3⟩, .inl ⟨hparse, ?_⟩⟩, h.calls,
      h.shuttingDown, h.requested, h.finished⟩
    simp [write, houtput]
  | parsed hmain hparse =>
    rw [hmain] at hplace
    obtain ⟨hunstarted, houtput⟩ := hplace
    refine ⟨⟨⟨hunstarted.1, hunstarted.2, hunstarted.3⟩, ?_, hparse⟩, h.calls,
      h.shuttingDown, h.requested, h.finished⟩
    simp [write, houtput]
  | installedSigint hmain =>
    rw [hmain] at hplace
    obtain ⟨hunstarted, houtput, hparsed⟩ := hplace
    exact ⟨⟨⟨hunstarted.1, hunstarted.2, hunstarted.3⟩, houtput, hparsed, rfl⟩, h.calls,
      h.shuttingDown, h.requested, h.finished⟩
  | installedSigterm hmain =>
    rw [hmain] at hplace
    obtain ⟨hunstarted, houtput, hparsed, hsigint⟩ := hplace
    exact ⟨⟨⟨hunstarted.1, hunstarted.2, hunstarted.3⟩, houtput, hparsed, hsigint, rfl⟩, h.calls,
      h.shuttingDown, h.requested, h.finished⟩
  | @started config hmain =>
    rw [hmain] at hplace
    obtain ⟨hunstarted, houtput, hparsed, hhandled⟩ := hplace
    have hopen : .shutdownCalled ∉ s.history := by
      rw [hunstarted.silent]
      exact List.not_mem_nil
    have hempty : underWay s.history = ∅ := by rw [hunstarted.silent, underWay]
    refine ⟨⟨⟨config, hhandled, hparsed, .init, ?_⟩, hunstarted.thread, hopen⟩,
      fun t => ?_, h.shuttingDown, h.requested, h.finished⟩
    · simp [write, houtput]
    · change t ∈ underWay s.history ↔ _
      rw [hempty]
      exact ⟨fun ht => absurd ht (Finset.notMem_empty t), fun ht => absurd rfl ht⟩
  | @notStarted config hmain =>
    rw [hmain] at hplace
    obtain ⟨hunstarted, houtput, hparsed, -⟩ := hplace
    refine ⟨.inr ⟨rfl, ⟨hunstarted.1, hunstarted.2, hunstarted.3⟩, .inr ⟨config, hparsed, ?_⟩⟩,
      h.calls, h.shuttingDown, h.requested, h.finished⟩
    simp [write, houtput]
  | createdThread hmain =>
    rw [hmain] at hplace
    obtain ⟨⟨config, hstarted⟩, -, hopen⟩ := hplace
    refine ⟨⟨config, hstarted.1, hstarted.2, hstarted.3, ?_⟩, h.calls, h.shuttingDown,
      h.requested, h.finished⟩
    rw [progress, if_neg hopen]
    exact hstarted.output
  | waited hmain hreturns =>
    obtain ⟨hdown, hnone⟩ := hserver.wait_waits _ hreturns
    rw [hmain] at hplace
    obtain ⟨config, hstarted⟩ := hplace
    have hcalled := List.mem_cons_of_mem GrpcEvent.waitReturned hdown
    refine ⟨⟨⟨config, hstarted.1, hstarted.2, hstarted.3, ?_⟩, hcalled, List.mem_cons_self, hnone⟩,
      h.calls, fun _ => h.shuttingDown hdown, h.requested, fun hdone => ?_⟩
    · have htext : s.progress = stoppingText := if_pos hdown
      rw [← htext]
      exact hstarted.output
    · obtain ⟨-, hreturned, -⟩ := h.finished hdone
      exact ⟨hcalled, List.mem_cons_of_mem _ hreturned, hnone⟩
  | joined hmain hfinished =>
    rw [hmain] at hplace
    obtain ⟨⟨config, hstarted⟩, -, -, hcalls⟩ := hplace
    refine ⟨⟨⟨config, hstarted.1, hstarted.2, hstarted.3, ?_⟩, hfinished, hcalls⟩, h.calls,
      h.shuttingDown, h.requested, h.finished⟩
    rw [← String.append_assoc]
    exact output_eq_of_write hstarted.output
  | returned hmain =>
    rw [hmain] at hplace
    obtain ⟨⟨config, hstarted⟩, hfinished, hcalls⟩ := hplace
    exact ⟨.inl ⟨rfl, ⟨config, hstarted.1, hstarted.2, hstarted.3, hstarted.4⟩, hfinished, hcalls⟩,
      h.calls, h.shuttingDown, h.requested, h.finished⟩

/-! ## Steps of the shutdown thread, and signals -/

/-- A thread that has not begun to wait, or is done, stays there while
others move. -/
theorem Place.of_shutdown {shutdown : Shutdown} {pc : MainPc} (h : Place args s pc)
    (hkeeps : ∀ pc, pc = .locking ∨ pc = .finished → s.shutdown.thread = pc →
      shutdown.thread = pc) : Place args { s with shutdown := shutdown } pc := by
  have hunstarted : s.Unstarted → Unstarted { s with shutdown := shutdown } := fun hs =>
    ⟨hkeeps _ (.inl rfl) hs.thread, hs.silent, hs.idle⟩
  have hstarted : ∀ text, (∃ config, Started args s text config) →
      ∃ config, Started args { s with shutdown := shutdown } text config := by
    rintro text ⟨config, hs⟩
    exact ⟨config, hs.handled, hs.parsed, hs.reachable, hs.output⟩
  have hstopped : ∀ text, Stopped args s text → Stopped args { s with shutdown := shutdown } text :=
    fun text hs => ⟨hstarted text hs.1, hkeeps _ (.inr rfl) hs.2.1, hs.2.2⟩
  cases pc with
  | parsing | installingSigint | installingSigterm | starting => exact ⟨hunstarted h.1, h.2⟩
  | creatingThread => exact ⟨hstarted "" h.1, hkeeps _ (.inl rfl) h.2.1, h.2.2⟩
  | waiting => exact hstarted s.progress h
  | joining => exact ⟨hstarted stoppingText h.1, h.2⟩
  | returning => exact hstopped _ h
  | exited code =>
    rcases h with ⟨hcode, hs⟩ | ⟨hcode, hs, hwhy⟩
    · exact .inl ⟨hcode, hstopped _ hs⟩
    · exact .inr ⟨hcode, hunstarted hs, hwhy⟩
  | killed => exact hunstarted h

/-- The thread's own place says of others that they may move. -/
theorem Place.of_threadStep {shutdown : Shutdown} {history : List GrpcEvent}
    (h : Place args s s.main) (hmain : s.main = .waiting ∨ s.main = .joining)
    (hhistory : history = s.history ∨ history = .shutdownReturned :: s.history) :
    Place args { s with shutdown := shutdown, history := history } s.main := by
  have hdown : .shutdownCalled ∈ history ↔ .shutdownCalled ∈ s.history := by
    rcases hhistory with hhistory | hhistory <;> simp [hhistory]
  have hwait : .waitReturned ∈ history ↔ .waitReturned ∈ s.history := by
    rcases hhistory with hhistory | hhistory <;> simp [hhistory]
  have hcalls : underWay history = underWay s.history := by
    rcases hhistory with hhistory | hhistory <;> simp [hhistory, underWay]
  rcases hmain with hmain | hmain
  · rw [hmain] at h ⊢
    obtain ⟨config, hs⟩ := h
    refine ⟨config, hs.handled, hs.parsed, hs.reachable, ?_⟩
    rw [progress, if_congr hdown rfl rfl]
    exact hs.output
  · rw [hmain] at h ⊢
    obtain ⟨⟨config, hs⟩, hdone, hreturned, hnone⟩ := h
    exact ⟨⟨config, hs.handled, hs.parsed, hs.reachable, hs.output⟩, hdown.mpr hdone,
      hwait.mpr hreturned, hcalls.trans hnone⟩

theorem Orderly.of_shutdown {shutdown : Shutdown} {action : ShutdownAction} (h : Orderly args s)
    (haction : action ≠ .threadStep) (hstep : s.shutdown.step action = some shutdown) :
    Orderly args { s with shutdown := shutdown } := by
  obtain ⟨hthread, hrequested⟩ := Shutdown.thread_of_step haction hstep
  have hsame : ∀ pc, pc ≠ .blocked ∧ pc ≠ .relocking →
      (shutdown.thread = pc ↔ s.shutdown.thread = pc) := by
    rintro pc ⟨hblocked, hrelocking⟩
    rcases hthread with hthread | ⟨hbefore, hafter⟩
    · rw [hthread]
    · rw [hbefore, hafter]
      exact iff_of_false (Ne.symm hrelocking) (Ne.symm hblocked)
  have hstopping := hsame .stopping (by decide)
  have hfinished := hsame .finished (by decide)
  refine ⟨h.place.of_shutdown ?_, h.calls, fun hdown => ?_, fun hpast => ?_, fun hdone => ?_⟩
  · rintro pc (rfl | rfl) hpc
    · exact (hsame .locking (by decide)).mpr hpc
    · exact hfinished.mpr hpc
  · exact (h.shuttingDown hdown).imp hstopping.mpr hfinished.mpr
  · exact hrequested (h.requested (hpast.imp hstopping.mp hfinished.mp))
  · exact h.finished (hfinished.mp hdone)

/-- The handlers are in place when the server is built. -/
theorem Started.handles {text : String} (h : Started args s text config) {signal : Signal}
    (hsignal : signal ≠ .other) : s.handles signal = true := by
  cases signal with
  | sigint => exact h.handled.1
  | sigterm => exact h.handled.2
  | other => exact absurd rfl hsignal

/-- **Who is killed by a signal has served nothing.** -/
theorem Orderly.killed (h : Orderly args s) (hgoing : s.ended = false) {signal : Signal}
    (hsignal : signal ≠ .other) (hhandles : s.handles signal = false) :
    Orderly args { s with main := .killed } := by
  have hnotStarted : ∀ text, ¬ ∃ config, Started args s text config := by
    rintro text ⟨config, hstarted⟩
    exact absurd (hhandles.symm.trans (hstarted.handles hsignal)) Bool.false_ne_true
  have hunstarted : s.Unstarted := by
    have hplace := h.place
    cases hmain : s.main with
    | parsing | installingSigint | installingSigterm | starting =>
      rw [hmain] at hplace
      exact hplace.1
    | creatingThread =>
      rw [hmain] at hplace
      exact absurd hplace.1 (hnotStarted "")
    | waiting =>
      rw [hmain] at hplace
      exact absurd hplace (hnotStarted s.progress)
    | joining =>
      rw [hmain] at hplace
      exact absurd hplace.1 (hnotStarted stoppingText)
    | returning =>
      rw [hmain] at hplace
      exact absurd hplace.1 (hnotStarted _)
    | exited code => simp [ended, hmain] at hgoing
    | killed => simp [ended, hmain] at hgoing
  exact ⟨⟨hunstarted.1, hunstarted.2, hunstarted.3⟩, h.calls, h.shuttingDown, h.requested,
    h.finished⟩

theorem Orderly.signalStep {action : ShutdownAction} (h : Orderly args s)
    (haction : action ≠ .threadStep) (hgoing : s.ended = false)
    (hmoved : Moved server args s (.shutdown action) s') : Orderly args s' := by
  cases hmoved with
  | shutDown | shutDownReturned | threadMoved => exact absurd rfl haction
  | signalled _ hstep => exact h.of_shutdown haction hstep
  | ignored => exact h
  | killed hsignal hhandles => exact h.killed hgoing hsignal hhandles
  | stored hstep => exact h.of_shutdown haction hstep
  | notified hstep => exact h.of_shutdown haction hstep

theorem Orderly.threadStep (h : Orderly args s) (hserver : server.Documented)
    (hmoved : Moved server args s (.shutdown .threadStep) s') : Orderly args s' := by
  cases hmoved with
  | shutDown hmain hthread hopen =>
    refine ⟨?_, h.calls, fun _ => .inl hthread, h.requested, fun hdone => ?_⟩
    · have hplace := h.place
      rcases hmain with hmain | hmain
      · rw [hmain] at hplace
        obtain ⟨config, hstarted⟩ := hplace
        have hplace' : Place args { s.write { cout := stoppingText } with
            history := .shutdownCalled :: s.history } .waiting := by
          refine ⟨config, hstarted.1, hstarted.2, hstarted.3, ?_⟩
          have hnothing : s.progress = "" := if_neg hopen
          have houtput := hstarted.output
          rw [hnothing, String.append_empty] at houtput
          rw [progress, if_pos List.mem_cons_self]
          exact output_eq_of_write houtput
        rw [← hmain] at hplace'
        exact hplace'
      · rw [hmain] at hplace
        exact absurd hplace.2.1 hopen
    · have hfinished : s.shutdown.thread = .finished := hdone
      rw [hthread] at hfinished
      cases hfinished
  | @shutDownReturned shutdown hmain hthread hdown hreturns hstep =>
    have hsame := (Shutdown.others_of_threadStep hstep).1
    have hfinished : shutdown.thread = .finished := by
      simp only [Shutdown.threadStep, hthread] at hstep
      rw [← Option.some.inj hstep]
    refine ⟨h.place.of_threadStep hmain (.inr rfl), h.calls, fun _ => .inr hfinished,
      fun _ => hsame.trans (h.requested (.inl hthread)), fun _ => ?_⟩
    exact ⟨List.mem_cons_of_mem _ hdown, List.mem_cons_self,
      hserver.shutdown_waits s.history hreturns⟩
  | @threadMoved shutdown hmain hthread hstep =>
    have hsame := (Shutdown.others_of_threadStep hstep).1
    obtain ⟨hstopping, hfinished⟩ := Shutdown.requested_of_threadStep hstep
    refine ⟨h.place.of_threadStep hmain (.inl rfl), h.calls, fun hdown => ?_, fun hpast => ?_,
      fun hdone => absurd (hfinished hdone) hthread⟩
    · rcases h.shuttingDown hdown with hbefore | hbefore
      · exact absurd hbefore hthread
      · simp only [Shutdown.threadStep, hbefore] at hstep
        cases hstep
    · rcases hpast with hpast | hpast
      · exact hsame.trans (hstopping hpast)
      · exact absurd (hfinished hpast) hthread

/-! ## Steps of the service -/

/-- What a handler's beginning and end leave of the past. -/
theorem shutdownCalled_mem_iff {t : ℕ} {event : GrpcEvent}
    (hevent : event = .handlerCalled t ∨ event = .handlerReturned t) (history : List GrpcEvent) :
    .shutdownCalled ∈ event :: history ↔ .shutdownCalled ∈ history := by
  rcases hevent with rfl | rfl <;> simp

/-- **A server that still calls handlers stands**, and nobody has waited
for it in vain. -/
theorem Orderly.calling (h : Orderly args s) (hserver : server.Documented)
    (hstands : s.serverStands = true) (hcalls : server.callsHandler s.history = true) :
    (s.main = .creatingThread ∨ s.main = .waiting) ∧ s.shutdown.thread ≠ .finished := by
  obtain ⟨hshutdown, hwait⟩ := hserver.no_more_calls _ hcalls
  have hplace := h.place
  have hthread : s.shutdown.thread ≠ .finished := fun hdone => hshutdown (h.finished hdone).2.1
  refine ⟨?_, hthread⟩
  rcases serverStands_iff.mp hstands with hmain | hmain | hmain | hmain
  · exact .inl hmain
  · exact .inr hmain
  · rw [hmain] at hplace
    exact absurd hplace.2.2.1 hwait
  · rw [hmain] at hplace
    exact absurd hplace.2.1 hthread

theorem Place.of_service {service : LockState Mutex Readings Server (Status × Response) ℕ}
    {history : List GrpcEvent} (h : Place args s s.main)
    (hmain : s.main = .creatingThread ∨ s.main = .waiting)
    (hreachable : ∀ heartbeatTimeout, (serverLockSystem heartbeatTimeout).Reachable s.service →
      (serverLockSystem heartbeatTimeout).Reachable service)
    (hdown : .shutdownCalled ∈ history ↔ .shutdownCalled ∈ s.history) :
    Place args { s with service := service, history := history } s.main := by
  rcases hmain with hmain | hmain
  · rw [hmain] at h ⊢
    obtain ⟨⟨config, hs⟩, hthread, hopen⟩ := h
    exact ⟨⟨config, hs.handled, hs.parsed, hreachable _ hs.reachable, hs.output⟩, hthread,
      hdown.not.mpr hopen⟩
  · rw [hmain] at h ⊢
    obtain ⟨config, hs⟩ := h
    refine ⟨config, hs.handled, hs.parsed, hreachable _ hs.reachable, ?_⟩
    rw [progress, if_congr hdown rfl rfl]
    exact hs.output

theorem Orderly.serviceStep {action : LockAction Readings ℕ Request} (h : Orderly args s)
    (hserver : server.Documented) (hmoved : Moved server args s (.service action) s') :
    Orderly args s' := by
  cases hmoved with
  | @began t request hstands hcalls hidle =>
    obtain ⟨hmain, hthread⟩ := h.calling hserver hstands hcalls
    have hdown := shutdownCalled_mem_iff (t := t) (.inl rfl) s.history
    refine ⟨h.place.of_service hmain (fun heartbeatTimeout hs => ?_) hdown, fun u => ?_,
      fun hshut => h.shuttingDown (hdown.mp hshut), h.requested, fun hdone => absurd hdone hthread⟩
    · refine hs.step (a := .begin t request) ?_
      simp [serverLockSystem, lockSystem, hidle]
    · by_cases hu : u = t
      · rw [hu]
        refine iff_of_true (Finset.mem_insert_self t (underWay s.history)) ?_
        rw [LockState.goto_threads_self]
        exact Option.some_ne_none _
      · rw [LockState.goto_threads_of_ne _ _ hu, ← h.calls u]
        exact Finset.mem_insert.trans (or_iff_right hu)
  | @served t readings service hstep =>
    obtain ⟨p, hp, -, hnext⟩ := LockState.threadStep_eq_some_iff.mp hstep
    have hbusy : s.service.threads t ≠ none := hp ▸ Option.some_ne_none p
    have hothers : ∀ u, u ≠ t → service.threads u = s.service.threads u := by
      intro u hu
      rw [hnext]
      exact Function.update_of_ne hu _ _
    have hdown : .shutdownCalled ∈ (if (service.threads t).isNone = true then
        .handlerReturned t :: s.history else s.history) ↔ .shutdownCalled ∈ s.history := by
      split
      · exact shutdownCalled_mem_iff (.inr rfl) s.history
      · exact Iff.rfl
    refine ⟨h.place.of_service (h.serving hbusy) (fun heartbeatTimeout hs => ?_) hdown,
      fun u => ?_, fun hshut => h.shuttingDown (hdown.mp hshut), h.requested, fun hdone => ?_⟩
    · exact hs.step (a := .step t readings) hstep
    · by_cases hu : u = t
      · rw [hu]
        by_cases hnone : service.threads t = none
        · simp [hnone, underWay]
        · simpa [hnone] using (h.calls t).mpr hbusy
      · rw [hothers u hu, ← h.calls u]
        by_cases hnone : service.threads t = none
        · simp [hnone, underWay, hu]
        · simp [hnone]
    · have hempty := (h.finished hdone).2.2
      exact absurd ((h.calls t).mpr hbusy) (hempty ▸ Finset.notMem_empty t)

/-- **Every step keeps the order.** -/
theorem Orderly.step (h : Orderly args s) (hserver : server.Documented)
    (hstep : s.step server args a = some s') : Orderly args s' := by
  obtain ⟨hgoing, hmoved⟩ := moved_of_step hstep
  cases a with
  | mainStep started => exact h.mainStep hserver hmoved
  | service action => exact h.serviceStep hserver hmoved
  | shutdown action =>
    by_cases haction : action = .threadStep
    · subst haction
      exact h.threadStep hserver hmoved
    · exact h.signalStep haction hgoing hmoved

theorem orderly_of_reachable (hserver : server.Documented)
    (h : (processSystem server args).Reachable s) : Orderly args s :=
  h.invariant (orderly_init : Orderly args (processSystem server args).init)
    fun _ _ _ hs hstep => hs.step hserver hstep

/-! ## What holds of every run -/

/-- What the process does is a step of the shutdown's protocol, or none. -/
theorem shutdown_of_moved (h : Moved server args s a s') : s'.shutdown = s.shutdown ∨
    ∃ action, a = .shutdown action ∧ s.shutdown.step action = some s'.shutdown := by
  cases h with
  | shutDownReturned _ _ _ _ hstep => exact .inr ⟨_, rfl, hstep⟩
  | threadMoved _ _ hstep => exact .inr ⟨_, rfl, hstep⟩
  | signalled _ hstep => exact .inr ⟨_, rfl, hstep⟩
  | stored hstep => exact .inr ⟨_, rfl, hstep⟩
  | notified hstep => exact .inr ⟨_, rfl, hstep⟩
  | _ => exact .inl rfl

theorem signalled_of_runFrom {as : List ProcessAction}
    (hrun : (processSystem server args).runFrom s as = some s') (hraised : s'.shutdown.Raised) :
    s.shutdown.Raised ∨ ∃ signal, signal ≠ .other ∧ .shutdown (.deliver signal) ∈ as := by
  induction as generalizing s with
  | nil =>
    obtain rfl := Option.some.inj hrun
    exact .inl hraised
  | cons a as ih =>
    rw [GuardedSystem.runFrom] at hrun
    obtain ⟨s₁, hstep, hrest⟩ := Option.bind_eq_some_iff.mp hrun
    rcases ih hrest with hbefore | ⟨signal, hsignal, hmem⟩
    · rcases shutdown_of_moved (moved_of_step hstep).2 with hsame | ⟨action, rfl, hprotocol⟩
      · exact .inl (hsame ▸ hbefore)
      · rcases Shutdown.raised_of_step hprotocol hbefore with hfirst | ⟨signal, hsignal, rfl⟩
        · exact .inl hfirst
        · exact .inr ⟨signal, hsignal, List.mem_cons_self⟩
    · exact .inr ⟨signal, hsignal, List.mem_cons_of_mem a hmem⟩

end Process

open Process

/-! ## A server that is interrupted -/

def mainSteps (n : ℕ) : List ProcessAction := List.replicate n (.mainStep true)

def shutdownSteps (n : ℕ) : List ProcessAction := List.replicate n (.shutdown .threadStep)

def serviceSteps (n : ℕ) : List ProcessAction :=
  List.replicate n (.service (.step 0 ⟨fun _ => 0, 0⟩))

/-- The server is up, its shutdown thread waits, and a client is about to
be registered. -/
def untilServing : List ProcessAction :=
  mainSteps 5 ++ shutdownSteps 3 ++ [.service (.begin 0 (.registerClient "a"))] ++ serviceSteps 2

/-- `SIGINT` is delivered meanwhile. -/
def interruptedRun : List ProcessAction :=
  untilServing ++ [.shutdown (.deliver .sigint), .shutdown .store, .shutdown .notifyAll] ++
    shutdownSteps 3 ++ serviceSteps 7 ++ shutdownSteps 1 ++ mainSteps 3

/-- What a server is run with. -/
def commandLine : List String := ["throttling_server", "--port=8080"]

/-- And with which gRPC. -/
def sampleSystem : GuardedSystem Process ProcessAction := processSystem .untilShutdown commandLine

theorem exists_interruptedRun : ∃ s,
    sampleSystem.runFrom sampleSystem.init interruptedRun = some s ∧ s.main = .exited 0 := by
  have hrun : (sampleSystem.runFrom sampleSystem.init interruptedRun).map Process.main =
      some (.exited 0) := by decide +kernel
  exact Option.map_eq_some_iff.mp hrun

/-- **How the process ends**, with a gRPC that keeps to its documentation.
With `0`, after a signal, the shutdown thread and every handler done,
having said so; with `1`, having served nothing, for the reason it has
written. -/
theorem exited_of_runFrom {as : List ProcessAction} {s : Process} {code : ℕ}
    (hserver : server.Documented)
    (hrun : (processSystem server args).runFrom (processSystem server args).init as = some s)
    (hmain : s.main = .exited code) :
    (code = 0 ∧ (∃ signal, signal ≠ .other ∧ .shutdown (.deliver signal) ∈ as) ∧
      s.shutdown.thread = .finished ∧ (∀ t, s.service.threads t = none) ∧
      ∃ config, (parseArgs args).1 = some config ∧
        (serverLockSystem config.heartbeatTimeout).Reachable s.service ∧
        s.output = { cout := startedText config ++ stoppingText ++ completeText }) ∨
    (code = 1 ∧ (∀ t, s.service.threads t = none) ∧
      ((parseArgs args).1 = none ∧ s.output = (parseArgs args).2 ∨
        ∃ config, (parseArgs args).1 = some config ∧
          s.output = { cerr := notStartedText config })) := by
  have horderly := orderly_of_reachable hserver (GuardedSystem.Reachable.runFrom .init hrun)
  have hplace := horderly.place
  rw [hmain] at hplace
  rcases hplace with ⟨hcode, ⟨config, hstarted⟩, hfinished, hcalls⟩ | ⟨hcode, hunstarted, hwhy⟩
  · refine .inl ⟨hcode, ?_, hfinished, fun t => ?_, config, hstarted.parsed, hstarted.reachable, ?_⟩
    · have hraised := signalled_of_runFrom hrun (.inl (horderly.requested (.inr hfinished)))
      refine hraised.resolve_left ?_
      rintro (h | h | h) <;> cases h
    · by_contra hbusy
      exact absurd ((horderly.calls t).mpr hbusy) (hcalls ▸ Finset.notMem_empty t)
    · rw [hstarted.output, String.append_assoc]
  · exact .inr ⟨hcode, hunstarted.idle, hwhy⟩

theorem interruptedRun_exited : ∃ s,
    sampleSystem.runFrom sampleSystem.init interruptedRun = some s ∧ s.output.cerr = "" := by
  obtain ⟨s, hrun, hmain⟩ := exists_interruptedRun
  refine ⟨s, hrun, ?_⟩
  rcases exited_of_runFrom GrpcServer.untilShutdown_documented hrun hmain with
    ⟨-, -, -, -, config, -, -, houtput⟩ | ⟨hcode, -⟩
  · rw [houtput]
  · cases hcode

/-- **No handler outlives what it uses**, with a gRPC that keeps to its
documentation. While one runs the components stand, of the timeout the
command line says, and so do the server and the thread that will shut it
down; every state of theirs is one the handlers' programs reach. -/
theorem serving_of_reachable {s : Process} {t : ℕ} (hserver : server.Documented)
    (h : (processSystem server args).Reachable s) (hbusy : s.service.threads t ≠ none) :
    (s.main = .creatingThread ∨ s.main = .waiting) ∧ s.shutdown.thread ≠ .finished ∧
      ∃ config, (parseArgs args).1 = some config ∧
        (serverLockSystem config.heartbeatTimeout).Reachable s.service := by
  have horderly := orderly_of_reachable hserver h
  have hplace := horderly.place
  have hmain := horderly.serving hbusy
  refine ⟨hmain, fun hfinished => ?_, ?_⟩
  · have hcalls := (horderly.finished hfinished).2.2
    exact absurd ((horderly.calls t).mpr hbusy) (hcalls ▸ Finset.notMem_empty t)
  · rcases hmain with hmain | hmain
    · rw [hmain] at hplace
      obtain ⟨⟨config, hstarted⟩, -⟩ := hplace
      exact ⟨config, hstarted.parsed, hstarted.reachable⟩
    · rw [hmain] at hplace
      obtain ⟨config, hstarted⟩ := hplace
      exact ⟨config, hstarted.parsed, hstarted.reachable⟩

theorem untilServing_serving : ∃ s config,
    sampleSystem.runFrom sampleSystem.init untilServing = some s ∧
      s.service.threads 0 ≠ none ∧ (parseArgs commandLine).1 = some config ∧
      (serverLockSystem config.heartbeatTimeout).Reachable s.service := by
  have hrun : (sampleSystem.runFrom sampleSystem.init untilServing).map
      (fun s => (s.service.threads 0).isSome) = some true := by decide +kernel
  obtain ⟨s, hs, hbusy⟩ := Option.map_eq_some_iff.mp hrun
  rw [Option.isSome_iff_ne_none] at hbusy
  obtain ⟨-, -, config, hparsed, hreachable⟩ :=
    serving_of_reachable GrpcServer.untilShutdown_documented
      (GuardedSystem.Reachable.runFrom .init hs) hbusy
  exact ⟨s, config, hs, hbusy, hparsed, hreachable⟩

end Throttling
