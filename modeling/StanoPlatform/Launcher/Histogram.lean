import StanoPlatform.Launcher.Gauge

/-!
# `Launcher/Histogram.lean` — which requests the duration histogram has seen

`http.server.request.duration` is recorded behind the same `.await` that the gauge comes down
behind. So the two instruments miss the same requests: what the histogram lacks is what the gauge
has too much of, and together they say how many requests have entered the metrics middleware
(`arrivals_accounted`).

To arrive, in this file, is to enter `record_http_metrics`. It is mounted on the routes, inside
the other layers, so a request that is answered further out (a 401, a preflight, a body that is too
large) never arrives, and no more does one that has no route.

The seconds that are recorded are left out: a record is a series, and that there is one more in it.
-/

set_option autoImplicit false

namespace StanoPlatform
namespace Launcher

open Lib

variable {M : Axum.Matchit} {E : Type}

/-- A record of the histogram, in one of the series of `p`: by method, route and status code. -/
def Measurement.records (p : String → String → Nat → Bool) : Measurement → Bool
  | .activeRequests _ _ => false
  | .requestDuration method route status => p method route status

def Server.recorded (server : Server) (p : String → String → Nat → Bool) : Nat :=
  server.reported.countP (Measurement.records p)

namespace ServerEvent

/-- The handler returns a response, to a request of one of the series of `p`. -/
def completes (p : String → String → Nat → Bool) : ServerEvent → Bool
  | .ends req (.responds status) => p req.method (req.matchedPath.getD "unknown") status
  | _ => false

def arrivesBy (method : String) : ServerEvent → Bool
  | .arrives req => req.method = method
  | .ends _ _ => false

/-- A request of the method ends, one way or another. -/
def endsBy (method : String) : ServerEvent → Bool
  | .arrives _ => false
  | .ends req _ => req.method = method

end ServerEvent

variable {args : RunArgs M E} {events : List ServerEvent} {server server' : Server}
  {event : ServerEvent}

/-! ## The histogram -/

theorem recorded_reportsAtEnd (hmetrics : args.metrics = true) (p : String → String → Nat → Bool)
    (req : Observed) (ending : Ending) :
    (args.reportsAtEnd ending req).countP (Measurement.records p) =
      if (ServerEvent.ends req ending).completes p then 1 else 0 := by
  rw [RunArgs.reportsAtEnd_eq hmetrics]
  cases ending with
  | responds status => exact List.countP_singleton
  | panics | timesOut | disconnects => rfl

theorem step_recorded (hmetrics : args.metrics = true) (p : String → String → Nat → Bool)
    (h : event.step args server = some server') :
    server'.recorded p = server.recorded p + if event.completes p then 1 else 0 := by
  cases event with
  | arrives req =>
    cases h
    exact List.countP_append
  | ends req ending =>
    rw [ServerEvent.step] at h
    split at h <;> cases h
    rw [Server.recorded, List.countP_append, recorded_reportsAtEnd hmetrics, Server.recorded]

theorem recorded_eq (hmetrics : args.metrics = true) (p : String → String → Nat → Bool)
    (hrun : run (ServerEvent.step args) .init events = some server) :
    server.recorded p = events.countP (ServerEvent.completes p) := by
  refine run_invariant (fun events (server : Server) =>
    server.recorded p = events.countP (ServerEvent.completes p)) rfl ?_ hrun
  intro events server server' event ih hstep
  rw [step_recorded hmetrics p hstep, ih, List.countP_append, List.countP_singleton]

/-- A request that ends has returned a response, or is lost. -/
theorem endsBy_eq (event : ServerEvent) (method : String) :
    (if event.endsBy method then 1 else 0) =
      (if event.completes fun m _ _ => m = method then 1 else 0) +
        if event.loses method then 1 else 0 := by
  cases event with
  | arrives req => rfl
  | ends req ending =>
    cases ending with
    | responds status => simp [ServerEvent.endsBy, ServerEvent.completes, ServerEvent.loses]
    | panics | timesOut | disconnects =>
      simp [ServerEvent.endsBy, ServerEvent.completes, ServerEvent.loses]

/-- **The histogram is exact.** In every run, a series has as many records as responses of its
method, route and status code have come back to the middleware, from a handler or from axum's own
405. The requests of a method that have ended are those on record and those that have panicked,
timed out or been dropped: these are on no record. -/
theorem durations_recorded (args : RunArgs M E) (hmetrics : args.metrics = true)
    (hrun : run (ServerEvent.step args) .init events = some server) :
    (∀ p, server.recorded p = events.countP (ServerEvent.completes p)) ∧
    ∀ method, events.countP (ServerEvent.endsBy method) =
      server.recorded (fun m _ _ => m = method) + lost method events := by
  refine ⟨fun p => recorded_eq hmetrics p hrun, fun method => ?_⟩
  rw [recorded_eq hmetrics _ hrun, lost]
  clear hrun
  induction events with
  | nil => rfl
  | cons event events ih =>
    have hevent := endsBy_eq event method
    rw [List.countP_cons, List.countP_cons, List.countP_cons, ih, hevent]
    omega

/-- Two requests, of which one panics. -/
def panicking : List ServerEvent :=
  [.arrives getIndex, .arrives getIndex, .ends getIndex .panics, .ends getIndex (.responds 200)]

theorem durations_recorded_panic :
    ∃ server, run (ServerEvent.step metered) .init panicking = some server ∧
      server.recorded (fun m _ s => m = "GET" && s = 200) = 1 ∧
      panicking.countP (ServerEvent.endsBy "GET") =
        server.recorded (fun m _ _ => m = "GET") + 1 := by
  obtain ⟨server, hrun⟩ : ∃ server, run (ServerEvent.step metered) .init panicking = some server :=
    ⟨_, rfl⟩
  obtain ⟨hrecorded, hended⟩ := durations_recorded metered rfl hrun
  exact ⟨server, hrun, hrecorded _, hended "GET"⟩

/-! ## Both instruments -/

theorem step_arrivals (hmetrics : args.metrics = true) (method : String)
    (h : event.step args server = some server') :
    server'.active method + server'.recorded (fun m _ _ => m = method) =
      server.active method + server.recorded (fun m _ _ => m = method) +
        if event.arrivesBy method then 1 else 0 := by
  rw [step_recorded hmetrics _ h]
  cases event with
  | arrives req =>
    cases h
    rw [Server.active, List.map_append, List.sum_append]
    by_cases hmethod : req.method = method <;>
      simp [Server.active, RecordHttpMetrics.enter, Measurement.added, ServerEvent.completes,
        ServerEvent.arrivesBy, hmethod, add_right_comm]
  | ends req ending =>
    rw [ServerEvent.step] at h
    split at h <;> cases h
    rw [Server.active, List.map_append, List.sum_append, added_reportsAtEnd hmetrics]
    cases ending with
    | responds status =>
      by_cases hmethod : req.method = method
      · simp [Server.active, ServerEvent.loses, ServerEvent.completes, ServerEvent.arrivesBy,
          hmethod]
        omega
      · simp [Server.active, ServerEvent.loses, ServerEvent.completes, ServerEvent.arrivesBy,
          hmethod]
    -- the gauge stays up, and there is no record
    | panics | timesOut | disconnects =>
      by_cases hmethod : req.method = method <;>
        simp [Server.active, ServerEvent.loses, ServerEvent.completes, ServerEvent.arrivesBy,
          hmethod]

/-- **No request is lost on both.** In every run, the gauge of a method and the records of the
histogram of that method add up to the requests that have entered the metrics middleware, however
they have ended. -/
theorem arrivals_accounted (args : RunArgs M E) (hmetrics : args.metrics = true)
    (hrun : run (ServerEvent.step args) .init events = some server) (method : String) :
    server.active method + server.recorded (fun m _ _ => m = method) =
      events.countP (ServerEvent.arrivesBy method) := by
  refine run_invariant (fun events (server : Server) =>
    server.active method + server.recorded (fun m _ _ => m = method) =
      events.countP (ServerEvent.arrivesBy method)) rfl ?_ hrun
  intro events server server' event ih hstep
  rw [step_arrivals hmetrics method hstep, ih, List.countP_append, List.countP_singleton]
  split <;> simp

theorem arrivals_accounted_panic :
    ∃ server, run (ServerEvent.step metered) .init panicking = some server ∧
      server.active "GET" + server.recorded (fun m _ _ => m = "GET") = 2 := by
  obtain ⟨server, hrun⟩ : ∃ server, run (ServerEvent.step metered) .init panicking = some server :=
    ⟨_, rfl⟩
  exact ⟨server, hrun, arrivals_accounted metered rfl hrun "GET"⟩

end Launcher
end StanoPlatform
