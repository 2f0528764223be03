import Mathlib.Data.Finset.Basic
/-!
# gRPC's server

`RunServer` leaves its calls to a `grpc::Server`, which is not the
repository's own. What it does is a parameter here: when it may call a
handler, and when `Shutdown()` and `Wait()` may return, after what has
happened between it and the process. What is used of it is what its
documentation says: `Shutdown` and `Wait` wait for the handlers under way
(`GrpcServer.Documented`), and for nothing else
(`GrpcServer.WaitsOnlyForHandlers`).
-/

namespace Throttling

/-- What happens between the process and its `grpc::Server`. -/
inductive GrpcEvent where
  /-- A handler of the service is called, in thread `t`. -/
  | handlerCalled (t : ℕ)
  | handlerReturned (t : ℕ)
  | shutdownCalled
  | shutdownReturned
  | waitReturned
deriving DecidableEq

/-- **A `grpc::Server`**: what it may do next, given what has happened
since it was started, the latest first. -/
structure GrpcServer where
  callsHandler : List GrpcEvent → Bool
  shutdownReturns : List GrpcEvent → Bool
  waitReturns : List GrpcEvent → Bool

/-- The threads that are in a handler. -/
def underWay : List GrpcEvent → Finset ℕ
  | [] => ∅
  | .handlerCalled t :: history => insert t (underWay history)
  | .handlerReturned t :: history => (underWay history).erase t
  | _ :: history => underWay history

namespace GrpcServer

/-- **What the documentation promises.** `Shutdown` returns when the
handlers have; `Wait` blocks until the server was shut down and its work
is complete; and from then on there is none. -/
structure Documented (server : GrpcServer) : Prop where
  shutdown_waits : ∀ history, server.shutdownReturns history = true → underWay history = ∅
  wait_waits : ∀ history, server.waitReturns history = true →
    .shutdownCalled ∈ history ∧ underWay history = ∅
  no_more_calls : ∀ history, server.callsHandler history = true →
    .shutdownReturned ∉ history ∧ .waitReturned ∉ history

/-- Once `Shutdown` was called and no handler is left, nothing keeps either
from returning. -/
def WaitsOnlyForHandlers (server : GrpcServer) : Prop :=
  ∀ history, .shutdownCalled ∈ history → underWay history = ∅ →
    server.shutdownReturns history = true ∧ server.waitReturns history = true

/-- The server that calls handlers until it is shut down. -/
def untilShutdown : GrpcServer where
  callsHandler history := .shutdownCalled ∉ history ∧ .shutdownReturned ∉ history ∧
    .waitReturned ∉ history
  shutdownReturns history := underWay history = ∅
  waitReturns history := .shutdownCalled ∈ history ∧ underWay history = ∅

theorem untilShutdown_documented : untilShutdown.Documented where
  shutdown_waits _ h := of_decide_eq_true h
  wait_waits _ h := of_decide_eq_true h
  no_more_calls _ h := (of_decide_eq_true h).2

theorem untilShutdown_waitsOnlyForHandlers : untilShutdown.WaitsOnlyForHandlers :=
  fun _ hdown hnone => ⟨decide_eq_true hnone, decide_eq_true ⟨hdown, hnone⟩⟩

end GrpcServer

end Throttling
