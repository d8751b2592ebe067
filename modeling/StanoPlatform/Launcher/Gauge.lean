import Mathlib.Algebra.Ring.Int.Defs
import StanoPlatform.Lib.Run
import StanoPlatform.Launcher.Observability

/-!
# `Launcher/Gauge.lean` — what the in-flight gauge counts

`http.server.active_requests` goes up when a request enters the metrics middleware and down when
`next.run(req)` returns to it. Requests that end otherwise leave the middleware without a word,
so the gauge counts two things: the requests inside, and the requests lost (`accounted`). It is
exact for as long as nothing is lost, and never again after that.

The gauge is a sum of measurements, `+1` and `-1`, by method. What a provider makes of them is not
part of it. Requests that never get to the middleware (`Launcher/Histogram.lean` says which) are on
neither side of the balance.
-/

set_option autoImplicit false

namespace StanoPlatform
namespace Launcher

open Lib

variable {M : Axum.Matchit} {E : Type}

/-- What a measurement adds to `http.server.active_requests` for a method. -/
def Measurement.added (method : String) : Measurement → Int
  | .activeRequests value m => if m = method then value else 0
  | .requestDuration _ _ _ => 0

structure Server where
  reported : List Measurement
  -- the requests inside the middleware
  inFlight : List Observed
  deriving DecidableEq, Repr

namespace Server

def init : Server := { reported := [], inFlight := [] }

def active (server : Server) (method : String) : Int :=
  (server.reported.map (Measurement.added method)).sum

def inside (server : Server) (method : String) : Nat :=
  server.inFlight.countP (·.method = method)

end Server

inductive ServerEvent where
  | arrives (req : Observed)
  | ends (req : Observed) (ending : Ending)
  deriving DecidableEq, Repr

/-- A request enters the middleware, or one inside it ends. -/
def ServerEvent.step (args : RunArgs M E) (server : Server) : ServerEvent → Option Server
  | .arrives req =>
    some { reported := server.reported ++ RecordHttpMetrics.enter req
           inFlight := req :: server.inFlight }
  | .ends req ending =>
    if req ∈ server.inFlight then
      some { reported := server.reported ++ args.reportsAtEnd ending req
             inFlight := server.inFlight.erase req }
    else none

/-- A request of the method that ends with nothing to return to the middleware. -/
def ServerEvent.loses (method : String) : ServerEvent → Bool
  | .ends _ (.responds _) => false
  | .ends req _ => req.method = method
  | .arrives _ => false

def lost (method : String) (events : List ServerEvent) : Nat :=
  events.countP (ServerEvent.loses method)

/-- The gauge is exact for a method in every state of a run. -/
def GaugeExact (args : RunArgs M E) (events : List ServerEvent) (method : String) : Prop :=
  ∀ before server, before <+: events →
    run (ServerEvent.step args) .init before = some server →
    server.active method = server.inside method

/-! ## The account -/

variable {args : RunArgs M E} {method : String}

theorem added_reportsAtEnd (hmetrics : args.metrics = true) (method : String) (req : Observed)
    (ending : Ending) :
    ((args.reportsAtEnd ending req).map (Measurement.added method)).sum =
      (if (ServerEvent.ends req ending).loses method then 1 else 0) -
        if req.method = method then 1 else 0 := by
  rw [RunArgs.reportsAtEnd_eq hmetrics]
  cases ending with
  | responds status =>
    by_cases h : req.method = method <;>
      simp [RecordHttpMetrics.leave, Measurement.added, ServerEvent.loses, h]
  | panics | timesOut | disconnects => simp [ServerEvent.loses]

theorem countP_erase {req : Observed} {inFlight : List Observed} (h : req ∈ inFlight)
    (p : Observed → Bool) :
    inFlight.countP p = (inFlight.erase req).countP p + if p req then 1 else 0 := by
  rw [(List.perm_cons_erase h).countP_eq p, List.countP_cons]

/-- **One event.** The gauge moves with the requests inside, but for those that are lost. -/
theorem step_accounted (hmetrics : args.metrics = true) (method : String)
    {server server' : Server} {event : ServerEvent} (h : event.step args server = some server') :
    server'.active method - server'.inside method =
      server.active method - server.inside method + if event.loses method then 1 else 0 := by
  cases event with
  | arrives req =>
    cases h
    by_cases hmethod : req.method = method <;>
      simp [Server.active, Server.inside, RecordHttpMetrics.enter, Measurement.added,
        ServerEvent.loses, hmethod]
  | ends req ending =>
    rw [ServerEvent.step] at h
    split at h
    case isFalse => cases h
    case isTrue hmem =>
      cases h
      have hreports := added_reportsAtEnd hmetrics method req ending
      have hcount := countP_erase hmem fun req => decide (req.method = method)
      rw [Server.active, Server.active, Server.inside, Server.inside, List.map_append,
        List.sum_append, hreports, hcount]
      by_cases hmethod : req.method = method <;> simp [hmethod] <;> omega

/-- **Every run.** The gauge is the requests inside and the requests lost. -/
theorem accounted (hmetrics : args.metrics = true) (method : String) {events : List ServerEvent}
    {server : Server}
    (hrun : run (ServerEvent.step args) .init events = some server) :
    server.active method = server.inside method + lost method events := by
  refine run_invariant (fun events (server : Server) =>
    server.active method = server.inside method + lost method events) rfl ?_ hrun
  intro events server server' event ih hstep
  have h := step_accounted hmetrics method hstep
  rw [lost, List.countP_append, List.countP_singleton, ← lost]
  split at h <;> simp_all <;> omega

theorem lost_eq_zero {events : List ServerEvent} :
    lost method events = 0 ↔ ∀ req ending, .ends req ending ∈ events → req.method = method →
      ∃ status, ending = .responds status := by
  rw [lost, List.countP_eq_zero]
  constructor
  · intro h req ending hmem hmethod
    have hloses := h _ hmem
    cases ending with
    | responds status => exact ⟨status, rfl⟩
    | panics | timesOut | disconnects => simp [ServerEvent.loses, hmethod] at hloses
  · intro h event hmem
    cases event with
    | arrives req => simp [ServerEvent.loses]
    | ends req ending =>
      by_cases hmethod : req.method = method
      · obtain ⟨status, rfl⟩ := h req ending hmem hmethod
        simp [ServerEvent.loses]
      · cases ending <;> simp [ServerEvent.loses, hmethod]

/-- **When the gauge is exact.** In a server with metrics, for any run and any method: in every
state of the run iff every request of the method that has ended has ended with a response of its
handler. -/
theorem gauge_exact_iff (args : RunArgs M E) (hmetrics : args.metrics = true)
    (events : List ServerEvent) (server : Server)
    (hrun : run (ServerEvent.step args) .init events = some server) (method : String) :
    GaugeExact args events method ↔
      ∀ req ending, .ends req ending ∈ events → req.method = method →
        ∃ status, ending = .responds status := by
  rw [← lost_eq_zero]
  constructor
  · intro hexact
    have hserver := hexact events server (List.prefix_refl events) hrun
    have haccount := accounted hmetrics method hrun
    omega
  · intro hlost before server' hbefore hrun'
    have haccount := accounted hmetrics method hrun'
    -- what is lost in a prefix is lost in the run
    have hle : lost method before ≤ lost method events := hbefore.sublist.countP_le
    omega

/-! ### One request -/

def metered : RunArgs .unasked Unit :=
  { metricsEnabled := true, prometheusEnabled := false, httpLoggingEnabled := false
    authorization := none, postAuthorization := none }

def getIndex : Observed := { method := "GET", matchedPath := some "/" }

theorem gauge_exact_iff_ok :
    GaugeExact metered [.arrives getIndex, .ends getIndex (.responds 200)] "GET" := by
  refine (gauge_exact_iff metered rfl _ _ rfl "GET").mpr fun req ending hmem _ => ?_
  simp only [List.mem_cons, reduceCtorEq, ServerEvent.ends.injEq, List.not_mem_nil, or_false,
    false_or] at hmem
  exact ⟨200, hmem.2⟩

/-- After a panic nobody is inside, and the gauge says one. -/
theorem gauge_stuck_panic :
    ¬ GaugeExact metered [.arrives getIndex, .ends getIndex .panics] "GET" := by
  intro hexact
  have hserver := hexact _ ⟨[.activeRequests 1 "GET"], []⟩ (List.prefix_refl _) rfl
  exact absurd hserver (by decide)

end Launcher
end StanoPlatform
