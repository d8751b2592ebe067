import StanoPlatform.Launcher.Server

/-!
# `Launcher/Observability.lean` — `record_http_metrics`, and how a future ends

The middleware reports on both sides of an `.await`. Whether it gets to the other side is not up
to it: a future that is waited for may return, but it may also unwind, or be dropped together with
the one that waits. Which of these a layer sees depends on how the request ended and on the layers
between the two, so the stack of `run` is what decides (`RunArgs.awaited`).

Nothing is said here of the response the client gets in the end. The layers further out may change
it, and they answer requests of their own accord that never get to the metrics.

From `record_http_metrics` in `stano-launcher/src/observability.rs`. A future that is dropped runs
no line of its own any more, which is Rust's rule; that `TimeoutLayer` drops the future inside it
when the time is up, and hyper the whole of it when the client goes, is what they document.
-/

set_option autoImplicit false

namespace StanoPlatform
namespace Launcher

open Axum

variable {M : Matchit} {E : Type}

/-! ## The middleware -/

/-- What `record_http_metrics` reads of a request. -/
structure Observed where
  method : String
  matchedPath : Option String
  deriving DecidableEq, Repr

/-- What is reported to the meter, by instrument; the seconds of a duration are left out. -/
inductive Measurement where
  | activeRequests (value : Int) (method : String)
  | requestDuration (method route : String) (statusCode : Nat)
  deriving DecidableEq, Repr

namespace RecordHttpMetrics

/-- Up to `next.run(req).await`. -/
def enter (req : Observed) : List Measurement := [.activeRequests 1 req.method]

/-- From there. -/
def leave (req : Observed) (status : Nat) : List Measurement :=
  [.activeRequests (-1) req.method,
    .requestDuration req.method (req.matchedPath.getD "unknown") status]

end RecordHttpMetrics

/-! ## How a request ends -/

inductive Ending where
  -- the handler returns a response
  | responds (status : Nat)
  | panics
  -- `TimeoutLayer` fires
  | timesOut
  -- the client is gone, and the server drops the whole future
  | disconnects
  deriving DecidableEq, Repr

/-- What becomes of the future behind an `.await`. -/
inductive Awaited where
  | returned (status : Nat)
  | unwinds
  | dropped
  deriving DecidableEq, Repr

def Ending.handler : Ending → Awaited
  | .responds status => .returned status
  | .panics => .unwinds
  | .timesOut | .disconnects => .dropped

/-- What becomes of a layer, by what becomes of the part inside it: `CatchPanicLayer` makes a
response of a panic, and the `TimeoutLayer` that fires drops what is inside it and responds. Only
the layers inside `record_http_metrics` are asked. -/
def Layer.await (ending : Ending) : Layer M E → Awaited → Awaited
  | .catchPanic, .unwinds => .returned 500
  | .timeout, awaited => if ending = .timesOut then .returned 408 else awaited
  | _, awaited => awaited

def Layer.isRecordHttpMetrics : Layer M E → Bool
  | .recordHttpMetrics => true
  | _ => false

namespace RunArgs

variable (args : RunArgs M E) (ending : Ending)

/-- What becomes of the layers, from the handler outwards. -/
def awaitLayers (layers : List (Layer M E)) : Awaited :=
  layers.foldl (fun awaited layer => layer.await ending awaited) ending.handler

/-- What becomes of the `next.run(req)` that `record_http_metrics` waits for. -/
def awaited : Awaited :=
  awaitLayers ending (args.layers.takeWhile fun layer => !layer.isRecordHttpMetrics)

/-- What `record_http_metrics` still reports when the request ends. -/
def reportsAtEnd (req : Observed) : List Measurement :=
  match args.awaited ending with
  | .returned status => RecordHttpMetrics.leave req status
  | .unwinds | .dropped => []

variable {args ending}

/-- Nothing is layered inside the metrics. -/
theorem awaited_eq (hmetrics : args.metrics = true) : args.awaited ending = ending.handler := by
  rw [awaited, layers, behind, inner, if_pos hmetrics]
  rfl

theorem reportsAtEnd_eq (hmetrics : args.metrics = true) (req : Observed) :
    args.reportsAtEnd ending req =
      match ending with
      | .responds status => RecordHttpMetrics.leave req status
      | _ => [] := by
  rw [reportsAtEnd, awaited_eq hmetrics]
  cases ending <;> rfl

end RunArgs

end Launcher
end StanoPlatform
