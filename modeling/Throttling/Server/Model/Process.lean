import Throttling.Server.Model.Arguments
import Throttling.Server.Model.Grpc
import Throttling.Server.Model.Locking
import Throttling.Server.Model.Shutdown
/-!
# The server's process

`main` reads the command line, installs the signal handlers and calls
`RunServer`, which builds the components, starts the gRPC server and a
thread that waits for a signal, waits for the server and then for the
thread, and returns. Beside it run the signal handlers, that thread, and
the service's handlers, each in a thread of gRPC's. When the server calls
one, and when its `Shutdown()` and `Wait()` return, is the parameter's to
say.
-/

namespace Throttling

/-- Where `main` is. -/
inductive MainPc where
  /-- About to call `ParseArgs`. -/
  | parsing
  | installingSigint (config : ServerConfig)
  | installingSigterm (config : ServerConfig)
  /-- In `RunServer`, about to build and start the server. -/
  | starting (config : ServerConfig)
  /-- About to create the shutdown thread. -/
  | creatingThread
  /-- In `server->Wait()`. -/
  | waiting
  /-- In `shutdown_thread.join()`. -/
  | joining
  /-- About to destroy the components and return. -/
  | returning
  | exited (code : ℕ)
  /-- Ended by a signal it does not handle. -/
  | killed
deriving DecidableEq

/-- **The process.** -/
structure Process where
  main : MainPc
  sigintHandled : Bool
  sigtermHandled : Bool
  /-- The flag, the signal handlers under way, and the shutdown thread. -/
  shutdown : Shutdown
  /-- What has happened between the process and the server, the latest
  first. -/
  history : List GrpcEvent
  /-- The service's threads, with the data of the components. -/
  service : LockState Mutex Readings Server (Status × Response) ℕ
  output : Output

inductive ProcessAction where
  /-- The next step of `main`; whether a server is started is the step's
  own. -/
  | mainStep (started : Bool)
  /-- A signal, a step of its handler, or one of the shutdown thread. -/
  | shutdown (a : ShutdownAction)
  /-- A handler is called, or takes its next step. -/
  | service (a : LockAction Readings ℕ Request)

/-! ## What is written -/

def serverAddress (config : ServerConfig) : String := "0.0.0.0:" ++ toString config.port.toNat

def startedText (config : ServerConfig) : String :=
  "Throttling server started on " ++ serverAddress config ++ "\n" ++
    "Heartbeat timeout: " ++ toString config.heartbeatTimeout ++ " seconds\n" ++
    "Press Ctrl+C to shutdown...\n"

def notStartedText (config : ServerConfig) : String :=
  "Error: Failed to start server on " ++ serverAddress config ++ "\n"

def stoppingText : String := "\nShutdown requested, stopping server...\n"

def completeText : String := "Server shutdown complete.\n"

namespace Process

def write (s : Process) (text : Output) : Process :=
  { s with output := ⟨s.output.cout ++ text.cout, s.output.cerr ++ text.cerr⟩ }

/-! ## Steps -/

/-- The next step of `main`, and of `RunServer` in it. -/
def mainStep (server : GrpcServer) (args : List String) (s : Process) (started : Bool) :
    Option Process :=
  match s.main with
  | .parsing =>
    match parseArgs args with
    | (none, text) => some { s.write text with main := .exited 1 }
    | (some config, text) => some { s.write text with main := .installingSigint config }
  | .installingSigint config =>
    some { s with sigintHandled := true, main := .installingSigterm config }
  | .installingSigterm config => some { s with sigtermHandled := true, main := .starting config }
  | .starting config =>
    if started then
      some { s.write { cout := startedText config } with
        service := (serverLockSystem config.heartbeatTimeout).init, main := .creatingThread }
    else some { s.write { cerr := notStartedText config } with main := .exited 1 }
  | .creatingThread => some { s with main := .waiting }
  | .waiting =>
    if server.waitReturns s.history then
      some { s with main := .joining, history := .waitReturned :: s.history }
    else none
  | .joining =>
    if s.shutdown.thread = .finished then
      some { s.write { cout := completeText } with main := .returning }
    else none
  | .returning => some { s with main := .exited 0 }
  | .exited _ => none
  | .killed => none

/-- Whether the shutdown thread runs, or has run and is not joined. -/
def threadCreated (s : Process) : Bool := s.main = .waiting || s.main = .joining

/-- The next step of the shutdown thread: `server->Shutdown()` is a call and
a return. -/
def threadStep (server : GrpcServer) (s : Process) : Option Process :=
  if s.threadCreated then
    if s.shutdown.thread = .stopping then
      if .shutdownCalled ∉ s.history then
        some { s.write { cout := stoppingText } with history := .shutdownCalled :: s.history }
      else if server.shutdownReturns s.history then
        s.shutdown.threadStep.map fun shutdown =>
          { s with shutdown := shutdown, history := .shutdownReturned :: s.history }
      else none
    else s.shutdown.threadStep.map fun shutdown => { s with shutdown := shutdown }
  else none

/-- Whether `SignalHandler` is installed for a signal. -/
def handles (s : Process) : Signal → Bool
  | .sigint => s.sigintHandled
  | .sigterm => s.sigtermHandled
  | .other => false

/-- A signal is delivered; by default it ends the process. -/
def deliver (s : Process) (signal : Signal) : Option Process :=
  if s.handles signal then
    (s.shutdown.step (.deliver signal)).map fun shutdown => { s with shutdown := shutdown }
  else if signal = .other then some s
  else some { s with main := .killed }

/-- Whether there is a server: it was started, and is not destroyed. -/
def serverStands (s : Process) : Bool :=
  s.main = .creatingThread || s.main = .waiting || s.main = .joining || s.main = .returning

/-- A step of the service. -/
def serviceStep (server : GrpcServer) (s : Process) :
    LockAction Readings ℕ Request → Option Process
  | .begin t request =>
    if s.serverStands ∧ server.callsHandler s.history ∧ (s.service.threads t).isNone then
      some { s with
        service := s.service.goto t (some (ServerProg.handler request))
        history := .handlerCalled t :: s.history }
    else none
  | .step t readings =>
    (s.service.threadStep t readings).map fun service =>
      { s with
        service := service
        history :=
          if (service.threads t).isNone then .handlerReturned t :: s.history else s.history }

/-- Whether the process has ended. -/
def ended (s : Process) : Bool :=
  match s.main with
  | .exited _ => true
  | .killed => true
  | _ => false

def step (server : GrpcServer) (args : List String) (s : Process) (a : ProcessAction) :
    Option Process :=
  if s.ended then none
  else
    match a with
    | .mainStep started => s.mainStep server args started
    | .shutdown (.deliver signal) => s.deliver signal
    | .shutdown .threadStep => s.threadStep server
    | .shutdown a => (s.shutdown.step a).map fun shutdown => { s with shutdown := shutdown }
    | .service a => s.serviceStep server a

end Process

/-- **The runs of the process**, given gRPC's server and the command line.
Before they are built the components stand for nothing. -/
def processSystem (server : GrpcServer) (args : List String) :
    GuardedSystem Process ProcessAction where
  init :=
    { main := .parsing, sigintHandled := false, sigtermHandled := false,
      shutdown := shutdownSystem.init, history := [], service := (serverLockSystem 0).init,
      output := {} }
  step := Process.step server args

end Throttling
