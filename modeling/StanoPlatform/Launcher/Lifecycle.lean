import Mathlib.Data.List.Count
import Mathlib.Data.List.Nodup
import StanoPlatform.Di.Environment
import StanoPlatform.Lib.Doing

/-!
# `Launcher/Lifecycle.lean` — `init_observability`, `OtelGuard`, and the ways out of `run`

Providers are installed for the whole process, and a guard holds those it has to shut down. `run`
has many ways out behind it: what it calls may fail or panic, and so may the guard's own
`shutdown`. On each of them the guard is dropped. The one way on which nobody shuts down what is
installed is the one on which there is no guard yet (`shut_down_iff`).

What is left out of a provider is how it samples and exports.

From `stano-launcher/src/observability.rs` and `run` in `server.rs`. A program of this kind does one
thing after the other and may stop (`Lib/Doing.lean`); what it does is on record as a list of
`Act`s. What `opentelemetry`, `prometheus`, `tokio` and axum do when they are called is luck: an
argument (`Luck`) says of each call whether it fails, panics or goes well, and the theorems are for
any.

Of Rust it is used that a value is dropped on every way out of its scope, when a panic unwinds too,
and that its fields are there until then. Of the SDK it is used that a provider can be told to shut
down twice and may refuse the second time. A warning is an event of `tracing`: it is emitted, and
whether somebody reads it is up to the log filter.
-/

set_option autoImplicit false

namespace StanoPlatform
namespace Launcher

open Lib (Doing)
open Di

/-! ## Settings -/

inductive OtlpProtocol where
  | grpc
  | httpProtobuf
  deriving DecidableEq, Repr

structure ObservabilityConfig where
  enabled : Bool
  protocol : OtlpProtocol
  serviceName : String
  serviceVersion : String
  resourceAttributes : List (String × String)
  logFilter : String
  metricsEnabled : Bool
  prometheusEnabled : Bool
  httpLoggingEnabled : Bool
  processMetricsEnabled : Bool
  deriving Repr

def observabilityConfigFromEnv (environment : Environment) : ObservabilityConfig :=
  let enabled key := eqIgnoreAsciiCase ((environment key).getD "") "true"
  let protocol := (environment "OTEL_EXPORTER_OTLP_PROTOCOL").getD ""
  { enabled := enabled "MRP_OTEL_ENABLED"
    protocol := if eqIgnoreAsciiCase protocol "http/protobuf" || eqIgnoreAsciiCase protocol "http"
      then .httpProtobuf else .grpc
    serviceName := (environment "OTEL_SERVICE_NAME").getD "stano-app"
    serviceVersion := (environment "OTEL_SERVICE_VERSION").getD "0.0.0"
    resourceAttributes := []
    logFilter := (environment "RUST_LOG").getD "info"
    metricsEnabled := enabled "MRP_OTEL_METRICS_ENABLED"
    prometheusEnabled := enabled "MRP_PROMETHEUS_ENABLED"
    httpLoggingEnabled := enabled "MRP_HTTP_LOGGING_ENABLED"
    processMetricsEnabled := enabled "MRP_PROCESS_METRICS_ENABLED" }

/-! ## Providers -/

abbrev Resource : Type := List (String × String)

def buildResource (config : ObservabilityConfig) : Resource :=
  ("service.name", config.serviceName) :: ("service.version", config.serviceVersion) ::
    config.resourceAttributes

inductive Reader where
  | prometheus
  | periodic (protocol : OtlpProtocol)
  deriving DecidableEq

structure SdkTracerProvider where
  protocol : OtlpProtocol
  resource : Resource
  deriving DecidableEq

structure SdkMeterProvider where
  readers : List Reader
  resource : Resource
  deriving DecidableEq

structure SdkLoggerProvider where
  protocol : OtlpProtocol
  resource : Resource
  deriving DecidableEq

inductive Provider where
  | tracer (provider : SdkTracerProvider)
  | meter (provider : SdkMeterProvider)
  | logger (provider : SdkLoggerProvider)
  deriving DecidableEq

structure OtelGuard where
  tracerProvider : Option SdkTracerProvider
  meterProvider : Option SdkMeterProvider
  loggerProvider : Option SdkLoggerProvider
  -- whether there is a registry
  prometheusRegistry : Bool

/-- In the order in which they are shut down. -/
def OtelGuard.providers (guard : OtelGuard) : List Provider :=
  (guard.tracerProvider.map .tracer).toList ++ (guard.meterProvider.map .meter).toList ++
    (guard.loggerProvider.map .logger).toList

theorem OtelGuard.providers_nodup (guard : OtelGuard) : guard.providers.Nodup := by
  obtain ⟨_ | _, _ | _, _ | _, _⟩ := guard <;> simp [providers]

inductive Act where
  | setMeterProvider (provider : SdkMeterProvider)
  | setTracerProvider (provider : SdkTracerProvider)
  -- `try_init`, with the layers of a tracer and a logger or without
  | subscribes (layers : Option (SdkTracerProvider × SdkLoggerProvider))
  | spawnsProcessObserver
  | registersMetrics
  | listens (port : Nat)
  -- `provider.shutdown()` is called
  | shutsDown (provider : Provider)
  -- `failed to shut down OTel .. provider on drop`
  | warns (provider : Provider)
  deriving DecidableEq

/-- What telemetry gets to from then on. -/
def Act.installs : Act → List Provider
  | .setMeterProvider provider => [.meter provider]
  | .setTracerProvider provider => [.tracer provider]
  | .subscribes (some (tracer, logger)) => [.tracer tracer, .logger logger]
  | _ => []

inductive Failure where
  | error (message : String)
  | panics
  deriving DecidableEq

/-- How what is called from here turns out. -/
structure Luck where
  prometheusExporter : Except String Unit
  metricExporter : OtlpProtocol → Except String Unit
  spanExporter : OtlpProtocol → Except String Unit
  logExporter : OtlpProtocol → Except String Unit
  registerMetricsPanics : Bool
  -- routes are collected, merged and layered
  assemblingPanics : Bool
  bind : Nat → Except String Unit
  serve : Except String Unit
  -- of a provider that has been told so often before
  shutdown : Provider → Nat → Except String Unit

/-- `.map_err(|e| anyhow!("{context}: {e}"))?` -/
def orFail (context : String) (r : Except String Unit) : Doing Act Failure Unit :=
  .ofExcept (r.mapError fun e => .error (context ++ ": " ++ e))

def orPanic (panics : Bool) : Doing Act Failure Unit :=
  .ofExcept (if panics then .error .panics else .ok ())

/-! ## `init_observability` -/

def prometheusReader (config : ObservabilityConfig) (luck : Luck) :
    Doing Act Failure (List Reader) :=
  if config.prometheusEnabled then do
    orFail "failed to build Prometheus exporter" luck.prometheusExporter
    pure [.prometheus]
  else pure []

def periodicReader (config : ObservabilityConfig) (luck : Luck) :
    Doing Act Failure (List Reader) :=
  if config.enabled && config.metricsEnabled then do
    orFail "failed to build OTLP metric exporter" (luck.metricExporter config.protocol)
    pure [.periodic config.protocol]
  else pure []

/-- Without a reader there is no provider. -/
def installMeter (resource : Resource) (readers : List Reader) :
    Doing Act Failure (Option SdkMeterProvider) :=
  if readers = [] then pure none
  else do
    .act (.setMeterProvider { readers, resource })
    pure (some { readers, resource })

def observeProcess (config : ObservabilityConfig) (readers : List Reader) :
    Doing Act Failure Unit :=
  if config.processMetricsEnabled ∧ readers ≠ [] then .act .spawnsProcessObserver else pure ()

def installExporters (config : ObservabilityConfig) (luck : Luck) (resource : Resource)
    (meterProvider : Option SdkMeterProvider) : Doing Act Failure OtelGuard :=
  if config.enabled then do
    orFail "failed to build OTLP span exporter" (luck.spanExporter config.protocol)
    let tracerProvider := { protocol := config.protocol, resource }
    .act (.setTracerProvider tracerProvider)
    orFail "failed to build OTLP log exporter" (luck.logExporter config.protocol)
    let loggerProvider := { protocol := config.protocol, resource }
    .act (.subscribes (some (tracerProvider, loggerProvider)))
    pure { tracerProvider := some tracerProvider, meterProvider
           loggerProvider := some loggerProvider, prometheusRegistry := config.prometheusEnabled }
  else do
    .act (.subscribes none)
    pure { tracerProvider := none, meterProvider, loggerProvider := none
           prometheusRegistry := config.prometheusEnabled }

def initObservability (config : ObservabilityConfig) (luck : Luck) :
    Doing Act Failure OtelGuard := do
  let prometheus ← prometheusReader config luck
  let periodic ← periodicReader config luck
  let meterProvider ← installMeter (buildResource config) (prometheus ++ periodic)
  observeProcess config (prometheus ++ periodic)
  installExporters config luck (buildResource config) meterProvider

/-! ## `OtelGuard` -/

def Provider.signal : Provider → String
  | .tracer .. => "tracer"
  | .meter .. => "meter"
  | .logger .. => "logger"

/-- One provider of `shutdown`; it is told for the first time. -/
def Provider.shutdown (luck : Luck) (provider : Provider) : Doing Act Failure Unit := do
  .act (.shutsDown provider)
  orFail ("failed to shut down " ++ provider.signal ++ " provider") (luck.shutdown provider 0)

def shutdownAll (luck : Luck) : List Provider → Doing Act Failure Unit
  | [] => pure ()
  | provider :: providers => do
    provider.shutdown luck
    shutdownAll luck providers

def OtelGuard.shutdown (guard : OtelGuard) (luck : Luck) : Doing Act Failure Unit :=
  shutdownAll luck guard.providers

/-- `Drop`, behind what was done. -/
def OtelGuard.drop (guard : OtelGuard) (luck : Luck) (done : List Act) : List Act :=
  guard.providers.flatMap fun provider =>
    match luck.shutdown provider (done.count (.shutsDown provider)) with
    | .ok () => [.shutsDown provider]
    | .error _ => [.shutsDown provider, .warns provider]

/-! ## `run` -/

structure RunConfig where
  port : Nat
  observability : ObservabilityConfig
  -- whether there is a `register_metrics`
  registerMetrics : Bool

namespace RunConfig

def registersMetrics (config : RunConfig) (luck : Luck) (guard : OtelGuard) :
    Doing Act Failure Unit :=
  if guard.prometheusRegistry && config.registerMetrics then do
    .act .registersMetrics
    orPanic luck.registerMetricsPanics
  else pure ()

/-- `run`, while it holds the guard. -/
def serve (config : RunConfig) (luck : Luck) (guard : OtelGuard) : Doing Act Failure Unit := do
  config.registersMetrics luck guard
  orPanic luck.assemblingPanics
  .ofExcept ((luck.bind config.port).mapError .error)
  .act (.listens config.port)
  .ofExcept (luck.serve.mapError .error)

def run (config : RunConfig) (luck : Luck) : Doing Act Failure Unit := do
  let guard ← initObservability config.observability luck
  .dropping (guard.drop luck) do
    config.serve luck guard
    guard.shutdown luck

end RunConfig

/-! ## What is installed -/

variable {config : ObservabilityConfig} {luck : Luck} {guard : OtelGuard}

/-- Nobody is told to shut down. -/
def Act.IsWork : Act → Prop
  | .shutsDown _ => False
  | .warns _ => False
  | _ => True

theorem orFail_only {P : Act → Prop} {context : String} {r : Except String Unit} :
    (orFail context r).Only P := Doing.only_ofExcept

theorem initObservability_only : (initObservability config luck).Only Act.IsWork := by
  refine .bind ?_ fun prometheus => .bind ?_ fun periodic => .bind ?_ fun meterProvider =>
    .bind ?_ fun _ => ?_
  · exact .ite (.bind orFail_only fun _ => Doing.only_pure) Doing.only_pure
  · exact .ite (.bind orFail_only fun _ => Doing.only_pure) Doing.only_pure
  · exact .ite Doing.only_pure (.bind (Doing.only_act trivial) fun _ => Doing.only_pure)
  · exact .ite (Doing.only_act trivial) Doing.only_pure
  · exact .ite (.bind orFail_only fun _ => .bind (Doing.only_act trivial) fun _ =>
      .bind orFail_only fun _ => .bind (Doing.only_act trivial) fun _ => Doing.only_pure)
      (.bind (Doing.only_act trivial) fun _ => Doing.only_pure)

theorem prometheusReader_acts : (prometheusReader config luck).acts = [] := by
  have honly : (prometheusReader config luck).Only fun _ => False :=
    .ite (.bind orFail_only fun _ => Doing.only_pure) Doing.only_pure
  exact List.eq_nil_iff_forall_not_mem.mpr honly

theorem periodicReader_acts : (periodicReader config luck).acts = [] := by
  have honly : (periodicReader config luck).Only fun _ => False :=
    .ite (.bind orFail_only fun _ => Doing.only_pure) Doing.only_pure
  exact List.eq_nil_iff_forall_not_mem.mpr honly

theorem installMeter_ok {resource : Resource} {readers : List Reader}
    {meterProvider : Option SdkMeterProvider}
    (h : (installMeter resource readers).result = .ok meterProvider) :
    (installMeter resource readers).acts = (meterProvider.map Act.setMeterProvider).toList := by
  rw [installMeter] at h ⊢
  split at h
  case isTrue hnone =>
    cases h
    rw [if_pos hnone]
    rfl
  case isFalse hsome =>
    cases h
    rw [if_neg hsome]
    rfl

theorem observeProcess_acts {readers : List Reader} :
    (observeProcess config readers).acts.flatMap Act.installs = [] := by
  rw [observeProcess]
  split <;> rfl

/-- What else is installed: for traces and logs, both or neither. -/
inductive Exporting (guard : OtelGuard) : List Act → Prop
  | off (htracer : guard.tracerProvider = none) (hlogger : guard.loggerProvider = none) :
    Exporting guard [.subscribes none]
  | on {tracer : SdkTracerProvider} {logger : SdkLoggerProvider}
    (htracer : guard.tracerProvider = some tracer) (hlogger : guard.loggerProvider = some logger) :
    Exporting guard [.setTracerProvider tracer, .subscribes (some (tracer, logger))]

theorem installExporters_ok {resource : Resource} {meterProvider : Option SdkMeterProvider}
    (h : (installExporters config luck resource meterProvider).result = .ok guard) :
    guard.meterProvider = meterProvider ∧
      Exporting guard (installExporters config luck resource meterProvider).acts := by
  rw [installExporters] at h ⊢
  split at h
  case isTrue henabled =>
    rw [if_pos henabled]
    -- the span exporter comes first, then the log exporter; each of them may fail
    cases hspan : luck.spanExporter config.protocol with
    | error e =>
      rw [hspan] at h
      cases h
    | ok =>
      cases hlog : luck.logExporter config.protocol with
      | error e =>
        rw [hspan, hlog] at h
        cases h
      | ok =>
        rw [hspan, hlog] at h
        cases h
        exact ⟨rfl, .on rfl rfl⟩
  case isFalse hdisabled =>
    rw [if_neg hdisabled]
    cases h
    exact ⟨rfl, .off rfl rfl⟩

theorem initObservability_ok (h : (initObservability config luck).result = .ok guard) :
    ∃ observing exporting, (initObservability config luck).acts =
        (guard.meterProvider.map Act.setMeterProvider).toList ++ observing ++ exporting ∧
      observing.flatMap Act.installs = [] ∧ Exporting guard exporting := by
  obtain ⟨prometheus, _, h, hacts₁⟩ := Doing.acts_bind_of_ok h
  obtain ⟨periodic, _, h, hacts₂⟩ := Doing.acts_bind_of_ok h
  obtain ⟨meterProvider, hmeter, h, hacts₃⟩ := Doing.acts_bind_of_ok h
  obtain ⟨_, _, h, hacts₄⟩ := Doing.acts_bind_of_ok h
  obtain ⟨rfl, hexporting⟩ := installExporters_ok h
  refine ⟨(observeProcess config (prometheus ++ periodic)).acts, _, ?_, observeProcess_acts,
    hexporting⟩
  rw [initObservability, hacts₁, hacts₂, hacts₃, hacts₄, prometheusReader_acts,
    periodicReader_acts, installMeter_ok hmeter, List.nil_append, List.nil_append,
    List.append_assoc]

/-- What is installed is what the guard holds. -/
theorem initObservability_installs (h : (initObservability config luck).result = .ok guard)
    (p : Provider) : p ∈ guard.providers ↔
      p ∈ (initObservability config luck).acts.flatMap Act.installs := by
  obtain ⟨observing, exporting, hacts, hobserving, hexporting⟩ := initObservability_ok h
  have hmeter : (guard.meterProvider.map Act.setMeterProvider).toList.flatMap Act.installs =
      (guard.meterProvider.map Provider.meter).toList := by
    cases guard.meterProvider <;> rfl
  rw [hacts, List.flatMap_append, List.flatMap_append, hmeter, hobserving, List.append_nil,
    OtelGuard.providers]
  cases hexporting with
  | off htracer hlogger => simp [htracer, hlogger, Act.installs]
  | on htracer hlogger =>
    simp only [htracer, hlogger, Option.map_some, Option.toList_some, List.mem_append,
      List.flatMap_cons, List.flatMap_nil, Act.installs, List.mem_cons, List.not_mem_nil, or_false]
    tauto

/-! ## What is shut down -/

/-- It is the end of a provider. -/
def Act.IsEnd : Act → Prop
  | .shutsDown _ => True
  | .warns _ => True
  | _ => False

theorem Act.IsEnd.installs {a : Act} (h : a.IsEnd) : a.installs = [] := by
  cases a <;> first | rfl | cases h

theorem shutdownAll_only {providers : List Provider} :
    (shutdownAll luck providers).Only fun a => ∃ p ∈ providers, a = .shutsDown p := by
  induction providers with
  | nil => exact Doing.only_pure
  | cons provider providers ih =>
    have hfirst : ∃ p ∈ provider :: providers, Act.shutsDown provider = .shutsDown p :=
      ⟨provider, List.mem_cons_self, rfl⟩
    refine .bind (.bind (Doing.only_act hfirst) fun _ => orFail_only) fun _ => ih.mono ?_
    rintro a ⟨p, hp, rfl⟩
    exact ⟨p, List.mem_cons_of_mem _ hp, rfl⟩

theorem mem_drop {done : List Act} {a : Act} (h : a ∈ guard.drop luck done) : a.IsEnd := by
  obtain ⟨provider, _, ha⟩ := List.mem_flatMap.mp h
  split at ha
  · cases List.mem_singleton.mp ha
    trivial
  · rcases List.mem_cons.mp ha with rfl | ha
    · trivial
    · cases List.mem_singleton.mp ha
      trivial

theorem shutsDown_mem_drop {done : List Act} {p : Provider} :
    .shutsDown p ∈ guard.drop luck done ↔ p ∈ guard.providers := by
  rw [OtelGuard.drop, List.mem_flatMap]
  constructor
  · rintro ⟨provider, hprovider, h⟩
    split at h <;> simp at h <;> exact h ▸ hprovider
  · intro hp
    refine ⟨p, hp, ?_⟩
    split <;> exact List.mem_cons_self

theorem warns_mem_drop {done : List Act} {p : Provider} :
    .warns p ∈ guard.drop luck done ↔
      p ∈ guard.providers ∧ ∃ e, luck.shutdown p (done.count (.shutsDown p)) = .error e := by
  rw [OtelGuard.drop, List.mem_flatMap]
  constructor
  · rintro ⟨provider, hprovider, h⟩
    split at h
    · simp at h
    · rename_i e he
      simp only [List.mem_cons, reduceCtorEq, Act.warns.injEq, List.not_mem_nil, or_false,
        false_or] at h
      subst h
      exact ⟨hprovider, e, he⟩
  · rintro ⟨hp, e, he⟩
    refine ⟨p, hp, ?_⟩
    rw [he]
    exact List.mem_cons_of_mem _ List.mem_cons_self

theorem count_drop {done : List Act} {p : Provider} (hp : p ∈ guard.providers) :
    (guard.drop luck done).count (.shutsDown p) = 1 := by
  have hone : ∀ providers : List Provider,
      (providers.flatMap fun provider =>
        match luck.shutdown provider (done.count (.shutsDown provider)) with
        | .ok () => [Act.shutsDown provider]
        | .error _ => [.shutsDown provider, .warns provider]).count (.shutsDown p) =
      providers.count p := by
    intro providers
    induction providers with
    | nil => rfl
    | cons provider providers ih =>
      rw [List.flatMap_cons, List.count_append, ih, List.count_cons, Nat.add_comm]
      congr 1
      split <;> simp [List.count_cons]
  rw [OtelGuard.drop, hone]
  exact List.count_eq_one_of_mem guard.providers_nodup hp

theorem shutdownAll_ok {providers : List Provider}
    (h : (shutdownAll luck providers).result = .ok ()) :
    (shutdownAll luck providers).acts = providers.map .shutsDown ∧
      ∀ p ∈ providers, luck.shutdown p 0 = .ok () := by
  induction providers with
  | nil => exact ⟨rfl, nofun⟩
  | cons provider providers ih =>
    obtain ⟨_, hfirst, hrest, hacts⟩ := Doing.acts_bind_of_ok h
    obtain ⟨_, _, hshutdown, hacts'⟩ := Doing.acts_bind_of_ok hfirst
    obtain ⟨ihacts, ihok⟩ := ih hrest
    refine ⟨?_, ?_⟩
    · rw [shutdownAll, hacts, ihacts, Provider.shutdown, hacts']
      rfl
    · refine List.forall_mem_cons.mpr ⟨?_, ihok⟩
      cases hone : luck.shutdown provider 0 with
      | ok => rfl
      | error e =>
        rw [orFail, hone] at hshutdown
        cases hshutdown

namespace RunConfig

variable {config : RunConfig}

theorem serve_only : (config.serve luck guard).Only fun a => a.IsWork ∧ a.installs = [] := by
  refine .bind (.ite (.bind (Doing.only_act ⟨trivial, rfl⟩) fun _ => Doing.only_ofExcept)
    Doing.only_pure) fun _ => ?_
  exact .bind Doing.only_ofExcept fun _ => .bind Doing.only_ofExcept fun _ =>
    .bind (Doing.only_act ⟨trivial, rfl⟩) fun _ => Doing.only_ofExcept

theorem run_eq (h : (initObservability config.observability luck).result = .ok guard) :
    config.run luck =
      let body := config.serve luck guard >>= fun _ => guard.shutdown luck
      { acts := (initObservability config.observability luck).acts ++
          (body.acts ++ guard.drop luck body.acts)
        result := body.result } :=
  Doing.bind_of_ok h

/-- Behind the work there is nothing but ends, and what the guard holds comes to one. -/
theorem run_of_ok (h : (initObservability config.observability luck).result = .ok guard) :
    ∃ work ending, (config.run luck).acts =
        (initObservability config.observability luck).acts ++ work ++ ending ∧
      (∀ a ∈ work, a.IsWork ∧ a.installs = []) ∧ (∀ a ∈ ending, a.IsEnd) ∧
      ∀ p, .shutsDown p ∈ ending ↔ p ∈ guard.providers := by
  rw [run_eq h]
  cases hserve : (config.serve luck guard).result with
  | error e =>
    rw [Doing.bind_of_error hserve]
    exact ⟨_, _, (List.append_assoc ..).symm, serve_only, fun _ => mem_drop,
      fun _ => shutsDown_mem_drop⟩
  | ok =>
    rw [Doing.bind_of_ok hserve]
    -- serving ended well: `shutdown` runs, and the guard is dropped behind it in any case
    refine ⟨(config.serve luck guard).acts, (guard.shutdown luck).acts ++ guard.drop luck
      ((config.serve luck guard).acts ++ (guard.shutdown luck).acts), ?_, serve_only, ?_,
      fun p => ?_⟩
    · simp only [List.append_assoc]
    · intro a ha
      rcases List.mem_append.mp ha with ha | ha
      · obtain ⟨p, _, rfl⟩ := shutdownAll_only a ha
        trivial
      · exact mem_drop ha
    · rw [List.mem_append, shutsDown_mem_drop]
      refine ⟨fun hp => hp.elim (fun ha => ?_) id, .inr⟩
      obtain ⟨p', hp', heq⟩ := shutdownAll_only _ ha
      cases heq
      exact hp'

/-- What is installed is installed at the beginning. -/
theorem installed_iff (h : (initObservability config.observability luck).result = .ok guard)
    {p : Provider} : p ∈ (config.run luck).acts.flatMap Act.installs ↔ p ∈ guard.providers := by
  obtain ⟨work, ending, hacts, hwork, hending, -⟩ := run_of_ok h
  have hnone : ∀ acts : List Act, (∀ a ∈ acts, a.installs = []) → acts.flatMap Act.installs = [] :=
    fun acts hacts => List.flatMap_eq_nil_iff.mpr hacts
  rw [hacts, List.flatMap_append, List.flatMap_append, hnone work fun a ha => (hwork a ha).2,
    hnone ending fun a ha => (hending a ha).installs, List.append_nil, List.append_nil,
    initObservability_installs h]

/-- **The guard is dropped on every way out.** What a run installs is told to shut down iff there
was a guard for it, and what a run does it does before that. -/
theorem shut_down_iff (config : RunConfig) (luck : Luck) :
    (∀ p ∈ (config.run luck).acts.flatMap Act.installs, .shutsDown p ∈ (config.run luck).acts ↔
      ∃ guard, (initObservability config.observability luck).result = .ok guard) ∧
    ∃ work ending, (config.run luck).acts = work ++ ending ∧ (∀ a ∈ work, a.IsWork) ∧
      ∀ a ∈ ending, a.IsEnd := by
  cases hinit : (initObservability config.observability luck).result with
  | error e =>
    have hrun : (config.run luck).acts = (initObservability config.observability luck).acts :=
      congrArg Doing.acts (Doing.bind_of_error hinit)
    rw [hrun]
    exact ⟨fun p _ => ⟨fun hp => (initObservability_only _ hp).elim, nofun⟩,
      _, [], (List.append_nil _).symm, initObservability_only, nofun⟩
  | ok guard =>
    obtain ⟨work, ending, hacts, hwork, hending, hends⟩ := run_of_ok hinit
    refine ⟨fun p hp => ⟨fun _ => ⟨guard, rfl⟩, fun _ => ?_⟩, _, ending, hacts, ?_, hending⟩
    · rw [hacts]
      exact List.mem_append_right _ ((hends p).mpr ((installed_iff hinit).mp hp))
    · intro a ha
      exact (List.mem_append.mp ha).elim (initObservability_only a) fun ha => (hwork a ha).1

/-- **A clean way out.** Whatever a run has installed has accepted to shut down, and is told so once
more when the guard is dropped; where it does not accept that, there is a warning. -/
theorem clean_exit {p : Provider} (h : (config.run luck).result = .ok ())
    (hp : p ∈ (config.run luck).acts.flatMap Act.installs) :
    luck.shutdown p 0 = .ok () ∧ (config.run luck).acts.count (.shutsDown p) = 2 ∧
      (.warns p ∈ (config.run luck).acts ↔ ∃ e, luck.shutdown p 1 = .error e) := by
  obtain ⟨guard, hinit, -⟩ := Doing.result_bind_eq_ok.mp h
  rw [installed_iff hinit] at hp
  rw [run_eq hinit] at h
  obtain ⟨_, hserve, hshutdown⟩ := Doing.result_bind_eq_ok.mp h
  obtain ⟨htold, haccepted⟩ := shutdownAll_ok hshutdown
  have hone : guard.providers.count p = 1 := List.count_eq_one_of_mem guard.providers_nodup hp
  have hnone : ∀ d : List Act, (∀ a ∈ d, a.IsWork) → d.count (.shutsDown p) = 0 := fun d hd =>
    List.count_eq_zero.mpr fun hmem => hd _ hmem
  -- what is done up to the guard's drop
  have hbody : (config.serve luck guard >>= fun _ => guard.shutdown luck).acts =
      (config.serve luck guard).acts ++ guard.providers.map .shutsDown := by
    rw [Doing.bind_of_ok hserve, OtelGuard.shutdown, htold]
  have hfirst : ((config.serve luck guard).acts ++ guard.providers.map Act.shutsDown).count
      (Act.shutsDown p) = 1 := by
    rw [List.count_append, hnone _ fun a ha => (serve_only a ha).1,
      List.count_map_of_injective _ _ fun _ _ heq => Act.shutsDown.inj heq, hone]
  refine ⟨haccepted p hp, ?_, ?_⟩
  · rw [run_eq hinit]
    simp only [hbody]
    rw [List.count_append, List.count_append, hfirst, count_drop hp, hnone _ initObservability_only]
  · rw [run_eq hinit]
    simp only [hbody]
    rw [List.mem_append, List.mem_append, warns_mem_drop, hfirst]
    refine ⟨?_, fun he => .inr (.inr ⟨hp, he⟩)⟩
    rintro (hinit' | hbody' | ⟨_, he⟩)
    · exact (initObservability_only _ hinit').elim
    · rcases List.mem_append.mp hbody' with hserve' | hmap
      · exact (serve_only _ hserve').1.elim
      · obtain ⟨_, _, heq⟩ := List.mem_map.mp hmap
        cases heq
    · exact he

/-- Providers are shut down once. -/
def sdk : Luck :=
  { prometheusExporter := .ok (), metricExporter := fun _ => .ok (), spanExporter := fun _ => .ok ()
    logExporter := fun _ => .ok (), registerMetricsPanics := false, assemblingPanics := false
    bind := fun _ => .ok (), serve := .ok ()
    shutdown := fun _ told => if told = 0 then .ok () else .error "already shut down" }

def traced : RunConfig :=
  { port := 8080, registerMetrics := false
    observability := { observabilityConfigFromEnv fun _ => none with enabled := true } }

def tracedProvider : Provider :=
  .tracer { protocol := .grpc, resource := buildResource traced.observability }

/-- Whoever exports is warned about it on every clean way out. -/
theorem clean_exit_traced : (traced.run sdk).result = .ok () ∧
    .warns tracedProvider ∈ (traced.run sdk).acts := by
  have hok : (traced.run sdk).result = .ok () := rfl
  have hinstalled : tracedProvider ∈ (traced.run sdk).acts.flatMap Act.installs :=
    List.mem_of_mem_head? rfl
  exact ⟨hok, (clean_exit hok hinstalled).2.2.mpr ⟨_, rfl⟩⟩

end RunConfig

end Launcher
end StanoPlatform
