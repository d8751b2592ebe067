import StanoPlatform.Launcher.Lifecycle
import StanoPlatform.Seaorm.QueryTracing

/-!
# `Example/Startup.lean` — `main`, as far as telemetry is concerned

`main` builds its context and then calls `run`. Building the context runs the pending migrations,
over the connection that the application keeps; `run` installs the providers. The callback of that
connection makes its instruments at its first query. If that is a migration's, they are made before
any provider is installed, and are bound to the ones that do nothing (`migrations_tell_nobody`).

Only what goes through the instruments is meant: the pool gauge, the records of the histogram and
the spans. The events of a query go to the `tracing` subscriber and are not spoken of here.

From `stano-example-app/launcher/src/main.rs` and `lib.rs`. It is taken from `opentelemetry::global`
that an instrument belongs to the provider that was installed when it was made, and to one that does
nothing if there was none.
-/

set_option autoImplicit false

namespace StanoPlatform
namespace Example

open Seaorm Di
open Launcher (Act ObservabilityConfig OtelGuard Provider RunConfig SdkMeterProvider)

variable {ι C : Type}

/-- What it is for queries; a provider that does nothing is `none`. -/
def installation? : Act → Option (TracingEvent ι (Option Provider) C)
  | .setMeterProvider provider => some (.setMeterProvider (some (.meter provider)))
  | .setTracerProvider provider => some (.setTracerProvider (some (.tracer provider)))
  | _ => none

/-- A callback, from behind `get_or_init`. -/
def reported (main : ι) (query : Info × Ambient C) : List (TracingEvent ι (Option Provider) C) :=
  [.reports main query.1 query.2, .tells main, .tells main, .tells main]

/-- `Migrator::up`: one query after the other. -/
def migrations (main : ι) :
    List (Info × Ambient C) → List (TracingEvent ι (Option Provider) C)
  | [] => []
  | query :: queries =>
    [.called main query.1, .initializes main, .initialized main] ++ reported main query ++
      queries.flatMap fun query => .called main query.1 :: reported main query

/-- `main`: `build_context`, `run`, and the requests that it serves. -/
def launch (main : ι) (queries : List (Info × Ambient C)) (config : RunConfig)
    (luck : Launcher.Luck) (serving : List (TracingEvent ι (Option Provider) C)) :
    List (TracingEvent ι (Option Provider) C) :=
  migrations main queries ++ (config.run luck).acts.filterMap installation? ++ serving

/-- It is not an installation. -/
def InstallsNothing (e : TracingEvent ι (Option Provider) C) : Prop :=
  e.meterProvider? = none ∧ e.tracerProvider? = none

variable {main : ι} {queries : List (Info × Ambient C)}

theorem migrations_installNothing : ∀ e ∈ migrations main queries, InstallsNothing e := by
  have hreported : ∀ query : Info × Ambient C, ∀ e ∈ reported main query, InstallsNothing e := by
    intro query e he
    simp only [reported, List.mem_cons, List.not_mem_nil, or_false] at he
    obtain rfl | rfl | rfl | rfl := he <;> exact ⟨rfl, rfl⟩
  intro e he
  cases queries with
  | nil => cases he
  | cons query queries =>
    simp only [migrations, List.cons_append, List.nil_append, List.mem_cons, List.mem_append,
      List.mem_flatMap] at he
    obtain rfl | rfl | rfl | he | ⟨query, _, rfl | he⟩ := he
    · exact ⟨rfl, rfl⟩
    · exact ⟨rfl, rfl⟩
    · exact ⟨rfl, rfl⟩
    · exact hreported _ e he
    · exact ⟨rfl, rfl⟩
    · exact hreported _ e he

theorem migrations_report (hqueries : queries ≠ []) [DecidableEq ι] :
    ∃ e ∈ migrations main queries, e.reportedBy? main ≠ none := by
  obtain ⟨query, queries, rfl⟩ := List.exists_cons_of_ne_nil hqueries
  refine ⟨.reports main query.1 query.2, ?_, ?_⟩
  · exact List.mem_append_left _ (List.mem_append_right _ List.mem_cons_self)
  · rw [TracingEvent.reportedBy?, if_pos rfl]
    exact Option.some_ne_none _

/-! ## What `run` installs -/

section

variable {config : RunConfig} {luck : Launcher.Luck} {guard : OtelGuard}

theorem installation?_of_installs {a : Act} (h : a.installs = []) :
    installation? (ι := ι) (C := C) a = none := by
  cases a <;> first | rfl | cases h

theorem filterMap_installation? {acts : List Act} (h : ∀ a ∈ acts, a.installs = []) :
    acts.filterMap (installation? (ι := ι) (C := C)) = [] :=
  List.filterMap_eq_nil_iff.mpr fun a ha => installation?_of_installs (h a ha)

/-- The meter provider, and then the tracer provider. -/
def installations (guard : OtelGuard) : List (TracingEvent ι (Option Provider) C) :=
  (guard.meterProvider.map fun provider => .setMeterProvider (some (.meter provider))).toList ++
    (guard.tracerProvider.map fun provider => .setTracerProvider (some (.tracer provider))).toList

theorem installations_of_run
    (h : (Launcher.initObservability config.observability luck).result = .ok guard) :
    (config.run luck).acts.filterMap (installation? (ι := ι) (C := C)) = installations guard := by
  obtain ⟨work, ending, hrun, hwork, hending, -⟩ := RunConfig.run_of_ok h
  obtain ⟨observing, exporting, hinit, hobserving, hexporting⟩ := Launcher.initObservability_ok h
  -- only two of the acts of `run` install anything, and both are behind `init_observability`
  have hmeter : (guard.meterProvider.map Act.setMeterProvider).toList.filterMap
      (installation? (ι := ι) (C := C)) = (guard.meterProvider.map fun provider =>
        .setMeterProvider (some (.meter provider))).toList := by
    cases guard.meterProvider <;> rfl
  rw [hrun, hinit, List.filterMap_append, List.filterMap_append, List.filterMap_append,
    List.filterMap_append, hmeter,
    filterMap_installation? (List.flatMap_eq_nil_iff.mp hobserving),
    filterMap_installation? fun a ha => (hwork a ha).2,
    filterMap_installation? fun a ha => (hending a ha).installs, List.append_nil, List.append_nil,
    List.append_nil, installations]
  cases hexporting with
  | off htracer _ =>
    rw [htracer]
    rfl
  | on htracer _ =>
    rw [htracer]
    rfl

theorem lastMeter_installations : lastMeter none (installations (ι := ι) (C := C) guard) =
    guard.meterProvider.map .meter := by
  obtain ⟨_ | _, _ | _, _, _⟩ := guard <;> rfl

theorem lastTracer_installations : lastTracer none (installations (ι := ι) (C := C) guard) =
    guard.tracerProvider.map .tracer := by
  obtain ⟨_ | _, _ | _, _, _⟩ := guard <;> rfl

theorem installations_only : ∀ e ∈ installations (ι := ι) (C := C) guard, ¬ e.Initializes := by
  obtain ⟨_ | _, _ | _, _, _⟩ := guard <;> simp [installations, TracingEvent.Initializes]

end

/-! ## Whom queries are told to -/

section

variable [DecidableEq ι] {environment : Environment} {config : RunConfig} {luck : Launcher.Luck}
  {serving : List (TracingEvent ι (Option Provider) C)} {m : Tracing ι (Option Provider) C}
  {t : ι × Telemetry (Option Provider) C}

/-- **One migration is enough.** Where building the context makes a query that is traced, the
providers that `run` installs get no gauge, no record and no span, of any query. -/
theorem migrations_tell_nobody (hqueries : queries ≠ [])
    (hrun : Lib.run (TracingEvent.step (queryTracingConfigFromEnv environment)) (.start none ι C)
      (launch main queries config luck serving) = some m)
    (ht : t ∈ m.told) (hinstrumented : t.2.Instrumented) :
    t.2.To { meter := none, tracer := none } := by
  rw [launch, List.append_assoc] at hrun
  exact told_to_nobody migrations_installNothing (migrations_report hqueries) hrun ht hinstrumented

/-- **And without one, they get all of them.** -/
theorem queries_told {guard : OtelGuard}
    (hinit : (Launcher.initObservability config.observability luck).result = .ok guard)
    (hserving : ∀ e ∈ serving, InstallsNothing e)
    (hrun : Lib.run (TracingEvent.step (queryTracingConfigFromEnv environment)) (.start none ι C)
      (launch main [] config luck serving) = some m)
    (ht : t ∈ m.told) (hinstrumented : t.2.Instrumented) :
    t.2.To { meter := guard.meterProvider.map .meter
             tracer := guard.tracerProvider.map .tracer } := by
  rw [launch, migrations, List.nil_append, installations_of_run hinit] at hrun
  have hto := told_to_installed installations_only hserving hrun ht hinstrumented
  rwa [lastMeter_installations, lastTracer_installations] at hto

end

def tracingOn : Environment
  | "MRP_DB_TRACING_ENABLED" => some "TRUE"
  | _ => none

def atTen : Ambient Unit := { now := fromMillis 10000, context := () }

def request : List (TracingEvent ℕ (Option Provider) Unit) :=
  .called 1 withSecret :: reported 1 (withSecret, atTen)

theorem migrations_tell_nobody_traced :
    RunConfig.tracedProvider ∈ (RunConfig.traced.run RunConfig.sdk).acts.flatMap Act.installs ∧
    ∃ m, Lib.run (TracingEvent.step (queryTracingConfigFromEnv tracingOn)) (.start none ℕ Unit)
      (launch 0 [(selectUsers, atTen)] .traced RunConfig.sdk request) = some m ∧
        ∀ t ∈ m.told, t.2.Instrumented → t.2.To { meter := none, tracer := none } := by
  obtain ⟨m, hrun⟩ : ∃ m, Lib.run (TracingEvent.step (queryTracingConfigFromEnv tracingOn))
      (.start none ℕ Unit) (launch 0 [(selectUsers, atTen)] .traced RunConfig.sdk request) =
        some m := Option.isSome_iff_exists.mp rfl
  exact ⟨List.mem_of_mem_head? rfl, m, hrun,
    fun t ht => migrations_tell_nobody (List.cons_ne_nil _ _) hrun ht⟩

theorem queries_told_traced :
    ∃ m, Lib.run (TracingEvent.step (queryTracingConfigFromEnv tracingOn)) (.start none ℕ Unit)
      (launch 0 [] .traced RunConfig.sdk (migrations 1 [(selectUsers, atTen)])) = some m ∧
        ∀ t ∈ m.told, t.2.Instrumented →
          t.2.To { meter := none, tracer := some RunConfig.tracedProvider } := by
  obtain ⟨m, hrun⟩ : ∃ m, Lib.run (TracingEvent.step (queryTracingConfigFromEnv tracingOn))
      (.start none ℕ Unit)
      (launch 0 [] .traced RunConfig.sdk (migrations 1 [(selectUsers, atTen)])) = some m :=
    Option.isSome_iff_exists.mp rfl
  let resource := Launcher.buildResource RunConfig.traced.observability
  have hinit : (Launcher.initObservability RunConfig.traced.observability RunConfig.sdk).result =
      .ok { tracerProvider := some { protocol := .grpc, resource }, meterProvider := none
            loggerProvider := some { protocol := .grpc, resource }, prometheusRegistry := false } :=
    rfl
  exact ⟨m, hrun, fun t ht => queries_told hinit migrations_installNothing hrun ht⟩

end Example
end StanoPlatform
