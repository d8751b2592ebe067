import Mathlib.Data.List.Dedup
import Mathlib.Data.List.Perm.Subperm
import Mathlib.Logic.Function.Basic
import StanoPlatform.Di.Environment
import StanoPlatform.Lib.Run

/-!
# `Seaorm/QueryTracing.lean` — what is told about queries, and to whom

`query_tracing_callback` is called behind every query, by the task that made it. Its instruments are
made once, by the first callback to need them (`OnceLock::get_or_init`); the other callbacks wait
until they are there. So the providers that get the telemetry are the ones installed when the first
query is reported (`told_of_run`); an installation that comes later changes nothing.

What is assumed of code that is not here:
- `OnceLock::get_or_init` runs its closure in one task, and other callers block until it is done.
- A meter or a tracer that `opentelemetry::global` returns stays bound to the provider that is
  installed at that moment, as the callback's own comment says.
- SeaORM calls the callback once for a query, on the task that made it, when the query is over.

Numbers that are floats on the way out are the whole nanoseconds they are computed from.
-/

set_option autoImplicit false

namespace StanoPlatform
namespace Seaorm

open Lib Di

/-! ## Settings -/

structure QueryTracingConfig where
  enabled : Bool
  includeStatement : Bool
  -- in nanoseconds
  slowQueryThreshold : Nat
  deriving DecidableEq, Repr

/-- `Duration::from_millis` -/
def fromMillis (ms : Nat) : Nat := ms * 1000000

/-- `QueryTracingConfig::default()` -/
def QueryTracingConfig.default : QueryTracingConfig :=
  { enabled := false, includeStatement := true, slowQueryThreshold := fromMillis 200 }

/-- `str::parse::<u64>`: digits, behind a `+` or not, of a number there is a `u64` for. -/
def parseU64 (text : String) : Option Nat :=
  let digits := match text.toList with
    | '+' :: digits => digits
    | digits => digits
  if digits ≠ [] ∧ digits.all Char.isDigit then
    let value := digits.foldl (fun n c => 10 * n + (c.toNat - '0'.toNat)) 0
    if value < UInt64.size then some value else none
  else none

def queryTracingConfigFromEnv (environment : Environment) : QueryTracingConfig :=
  let defaults := QueryTracingConfig.default
  { enabled := ((environment "MRP_DB_TRACING_ENABLED").map fun v => eqIgnoreAsciiCase v "true").getD
      defaults.enabled
    includeStatement := ((environment "MRP_DB_TRACING_INCLUDE_STATEMENT").map fun v =>
      eqIgnoreAsciiCase v "true").getD defaults.includeStatement
    slowQueryThreshold := (((environment "MRP_DB_SLOW_QUERY_MS").bind parseU64).map
      fromMillis).getD defaults.slowQueryThreshold }

/-! ## One query -/

def knownOperations : List String :=
  ["SELECT", "INSERT", "UPDATE", "DELETE", "BEGIN", "COMMIT", "ROLLBACK"]

/-- `sql.split_whitespace().next()` -/
def firstToken (sql : String) : Option (List Char) :=
  match (sql.toList.dropWhile isWhitespace).takeWhile fun c => !isWhitespace c with
  | [] => none
  | token => some token

def parseOperation (sql : String) : Option String := do
  let token ← firstToken sql
  knownOperations.find? fun op => op.toList == token.map Char.toUpper

/-- `sea_orm::metric::Info` -/
structure Info where
  -- in nanoseconds
  elapsed : Nat
  sql : String
  failed : Bool
  deriving DecidableEq

inductive Level where
  | error
  | warn
  | debug
  deriving DecidableEq, Repr

abbrev Attributes : Type := List (String × String)

/-- What is told, and to whom: a provider is `P`, a span's parent `C`. -/
inductive Telemetry (P C : Type) where
  -- `db.client.connection.count` is registered
  | gauge (meter : P)
  -- `db.client.operation.duration`
  | duration (meter : P) (elapsed : Nat) (attributes : Attributes)
  | span (tracer : P) (name : String) (parent : C) (startTime endTime : Nat)
    (attributes : Attributes) (failed : Bool)
  | event (level : Level) (message : String) (elapsed : Nat) (fields : Attributes)

/-- `Instruments`, by the providers they are bound to. -/
structure Instruments (P : Type) where
  meter : P
  tracer : P

/-- What is around a callback: `SystemTime::now()`, since the earliest one there is, and the
context of the current span. -/
structure Ambient (C : Type) where
  now : Nat
  context : C

variable {P C : Type}

def operationLabel (sql : String) : String := (parseOperation sql).getD "UNKNOWN"

/-- The callback, from `get_or_init` on. -/
def report (config : QueryTracingConfig) (instruments : Instruments P) (info : Info)
    (ambient : Ambient C) : List (Telemetry P C) :=
  let operation := operationLabel info.sql
  let statement := if config.includeStatement then info.sql else ""
  let attributes := [("db.system", "postgresql"), ("db.operation", operation)]
  let endTime := ambient.now
  let startTime := if info.elapsed ≤ endTime then endTime - info.elapsed else endTime
  let fields := attributes ++ [("db.statement", statement)]
  [.duration instruments.meter info.elapsed attributes,
    .span instruments.tracer operation ambient.context startTime endTime
      (if config.includeStatement then fields else attributes) info.failed,
    if info.failed then .event .error "query failed" info.elapsed fields
    else if config.slowQueryThreshold ≤ info.elapsed then
      .event .warn "slow query" info.elapsed fields
    else .event .debug "query" info.elapsed fields]

/-! ## All of them -/

/-- The `OnceLock`. -/
inductive Slot (ι P : Type) where
  | empty
  -- the meter is there, the tracer is not
  | initializing (id : ι) (meter : P)
  | full (instruments : Instruments P)

/-- Where a callback is. -/
inductive Callback (P C : Type) where
  -- in `get_or_init`
  | waits (info : Info)
  -- behind it, with this yet to tell
  | tells (rest : List (Telemetry P C))

/-- It returns behind the last it tells. -/
def Callback.behind : List (Telemetry P C) → Option (Callback P C)
  | [] => none
  | rest => some (.tells rest)

structure Tracing (ι P C : Type) where
  meterProvider : P
  tracerProvider : P
  slot : Slot ι P
  running : ι → Option (Callback P C)
  told : List (ι × Telemetry P C)

inductive TracingEvent (ι P C : Type) where
  | setMeterProvider (provider : P)
  | setTracerProvider (provider : P)
  -- a query is over
  | called (id : ι) (info : Info)
  -- the callback is the first in `get_or_init`: its closure asks for a meter, and then a tracer
  | initializes (id : ι)
  | initialized (id : ι)
  -- it has the instruments, and looks around
  | reports (id : ι) (info : Info) (ambient : Ambient C)
  | tells (id : ι)

def Tracing.start (noop : P) (ι C : Type) : Tracing ι P C :=
  { meterProvider := noop, tracerProvider := noop, slot := .empty, running := fun _ => none
    told := [] }

variable {ι : Type}

def TracingEvent.step [DecidableEq ι] (config : QueryTracingConfig) (m : Tracing ι P C) :
    TracingEvent ι P C → Option (Tracing ι P C)
  | .setMeterProvider provider => some { m with meterProvider := provider }
  | .setTracerProvider provider => some { m with tracerProvider := provider }
  | .called id info =>
    -- `DbConfig::from_url` installs the callback only then
    if config.enabled ∧ (m.running id).isNone then
      some { m with running := Function.update m.running id (some (.waits info)) }
    else none
  | .initializes id =>
    match m.running id, m.slot with
    | some (.waits _), .empty =>
      some { m with slot := .initializing id m.meterProvider
                    told := m.told ++ [(id, .gauge m.meterProvider)] }
    | _, _ => none
  | .initialized id =>
    match m.slot with
    | .initializing owner meter =>
      if owner = id then
        some { m with slot := .full { meter, tracer := m.tracerProvider } }
      else none
    | _ => none
  | .reports id info ambient =>
    match m.running id, m.slot with
    | some (.waits info'), .full instruments =>
      if info' = info then
        some { m with
          running := Function.update m.running id
            (some (.tells (report config instruments info ambient))) }
      else none
    | _, _ => none
  | .tells id =>
    match m.running id with
    | some (.tells (t :: rest)) =>
      some { m with running := Function.update m.running id (Callback.behind rest)
                    told := m.told ++ [(id, t)] }
    | _ => none

def yetToTell : Option (Callback P C) → List (Telemetry P C)
  | some (.tells rest) => rest
  | _ => []

theorem yetToTell_behind (rest : List (Telemetry P C)) :
    yetToTell (Callback.behind rest) = rest := by
  cases rest <;> rfl

/-- What a task has told, and has yet to tell. -/
def Tracing.account [DecidableEq ι] (m : Tracing ι P C) (id : ι) : List (Telemetry P C) :=
  (m.told.filter fun t => t.1 = id).map Prod.snd ++ yetToTell (m.running id)

/-! ### To whom -/

namespace TracingEvent

def meterProvider? : TracingEvent ι P C → Option P
  | .setMeterProvider provider => some provider
  | _ => none

def tracerProvider? : TracingEvent ι P C → Option P
  | .setTracerProvider provider => some provider
  | _ => none

def reportedBy? [DecidableEq ι] (id : ι) : TracingEvent ι P C → Option (Info × Ambient C)
  | .reports owner info ambient => if owner = id then some (info, ambient) else none
  | _ => none

def calledBy? [DecidableEq ι] (id : ι) : TracingEvent ι P C → Option Info
  | .called owner info => if owner = id then some info else none
  | _ => none

/-- It makes the instruments. -/
def Initializes : TracingEvent ι P C → Prop
  | .initializes _ => True
  | .initialized _ => True
  | _ => False

/-- It neither makes the instruments nor uses them. -/
def Quiet [DecidableEq ι] (e : TracingEvent ι P C) : Prop :=
  ¬ e.Initializes ∧ ∀ id, e.reportedBy? id = none

end TracingEvent

variable (noop : P) (config : QueryTracingConfig)

/-- The provider that is installed after some events. -/
def lastMeter (events : List (TracingEvent ι P C)) : P :=
  (events.filterMap TracingEvent.meterProvider?).getLast?.getD noop

def lastTracer (events : List (TracingEvent ι P C)) : P :=
  (events.filterMap TracingEvent.tracerProvider?).getLast?.getD noop

/-- The reports of a task, in order. -/
def reportsOf [DecidableEq ι] (instruments : Instruments P) (id : ι)
    (events : List (TracingEvent ι P C)) : List (Telemetry P C) :=
  (events.filterMap (TracingEvent.reportedBy? id)).flatMap fun query =>
    report config instruments query.1 query.2

def gaugeOf [DecidableEq ι] (owner : ι) (meter : P) (id : ι) : List (Telemetry P C) :=
  if owner = id then [.gauge meter] else []

/-- What each task tells in a run, and what is in the `OnceLock` after it. -/
inductive Told [DecidableEq ι] :
    List (TracingEvent ι P C) → Slot ι P → (ι → List (Telemetry P C)) → Prop
  -- no query has been reported
  | nothing {events : List (TracingEvent ι P C)} {account : ι → List (Telemetry P C)}
    (hnone : ∀ e ∈ events, e.Quiet)
    (haccount : ∀ id, account id = []) :
    Told events .empty account
  | gauge {before after : List (TracingEvent ι P C)} {owner : ι}
    {account : ι → List (Telemetry P C)}
    (hbefore : ∀ e ∈ before, e.Quiet)
    (hafter : ∀ e ∈ after, e.Quiet)
    (haccount : ∀ id, account id = gaugeOf owner (lastMeter noop before) id) :
    Told (before ++ .initializes owner :: after) (.initializing owner (lastMeter noop before))
      account
  | reports {before between after : List (TracingEvent ι P C)} {owner : ι}
    {instruments : Instruments P} {account : ι → List (Telemetry P C)}
    (hbefore : ∀ e ∈ before, e.Quiet)
    (hbetween : ∀ e ∈ between, e.Quiet)
    (hafter : ∀ e ∈ after, ¬ e.Initializes)
    (hmeter : instruments.meter = lastMeter noop before)
    (htracer : instruments.tracer = lastTracer noop (before ++ .initializes owner :: between))
    (haccount : ∀ id,
      account id = gaugeOf owner instruments.meter id ++ reportsOf config instruments id after) :
    Told (before ++ .initializes owner :: (between ++ .initialized owner :: after))
      (.full instruments) account

variable {noop config}

section

variable {events : List (TracingEvent ι P C)} {e : TracingEvent ι P C}

theorem lastMeter_snoc : lastMeter noop (events ++ [e]) =
    e.meterProvider?.getD (lastMeter noop events) := by
  cases h : e.meterProvider? <;> simp [lastMeter, List.filterMap_append, h]

theorem lastTracer_snoc : lastTracer noop (events ++ [e]) =
    e.tracerProvider?.getD (lastTracer noop events) := by
  cases h : e.tracerProvider? <;> simp [lastTracer, List.filterMap_append, h]

theorem reportsOf_snoc [DecidableEq ι] {instruments : Instruments P} {id : ι} :
    reportsOf config instruments id (events ++ [e]) =
      reportsOf config instruments id events ++ reportsOf config instruments id [e] := by
  rw [reportsOf, List.filterMap_append, List.flatMap_append]
  rfl

theorem reportsOf_singleton [DecidableEq ι] {instruments : Instruments P} {owner id : ι}
    {info : Info} {ambient : Ambient C} :
    reportsOf config instruments id [.reports owner info ambient] =
      if owner = id then report config instruments info ambient else [] := by
  by_cases h : owner = id <;> simp [reportsOf, TracingEvent.reportedBy?, h]

theorem forall_mem_snoc {p : TracingEvent ι P C → Prop} (h : ∀ e ∈ events, p e) (he : p e) :
    ∀ e' ∈ events ++ [e], p e' := by
  intro e' he'
  rcases List.mem_append.mp he' with he' | he'
  · exact h e' he'
  · cases List.mem_singleton.mp he'
    exact he

end

section

variable [DecidableEq ι] {events : List (TracingEvent ι P C)} {slot : Slot ι P}
  {account account' : ι → List (Telemetry P C)} {e : TracingEvent ι P C}

/-- An event that neither makes nor uses the instruments tells nothing new. -/
theorem Told.quiet (h : Told noop config events slot account) (hquiet : e.Quiet)
    (hsame : ∀ id, account' id = account id) :
    Told noop config (events ++ [e]) slot account' := by
  cases h with
  | nothing hnone haccount =>
    exact .nothing (forall_mem_snoc hnone hquiet) fun id => (hsame id).trans (haccount id)
  | gauge hbefore hafter haccount =>
    rw [List.append_assoc, List.cons_append]
    exact .gauge hbefore (forall_mem_snoc hafter hquiet) fun id =>
      (hsame id).trans (haccount id)
  | @reports before between after owner instruments _ hbefore hbetween hafter hmeter htracer
      haccount =>
    have hnone : ∀ id, reportsOf config instruments id [e] = [] := by
      intro id
      rw [reportsOf, List.filterMap_cons, hquiet.2 id, List.filterMap_nil, List.flatMap_nil]
    rw [List.append_assoc, List.cons_append, List.append_assoc, List.cons_append]
    refine .reports hbefore hbetween (forall_mem_snoc hafter hquiet.1) hmeter htracer fun id => ?_
    rw [hsame id, haccount id, reportsOf_snoc, hnone id, List.append_nil]

/-- What is reported is told with the instruments that are there. -/
theorem Told.report {instruments : Instruments P} {id : ι} {info : Info} {ambient : Ambient C}
    (h : Told noop config events (.full instruments) account)
    (hsame : ∀ id', account' id' = account id' ++
      reportsOf config instruments id' [.reports id info ambient]) :
    Told noop config (events ++ [.reports id info ambient]) (.full instruments) account' := by
  cases h with
  | reports hbefore hbetween hafter hmeter htracer haccount =>
    rw [List.append_assoc, List.cons_append, List.append_assoc, List.cons_append]
    refine .reports hbefore hbetween (forall_mem_snoc hafter nofun) hmeter htracer fun id' => ?_
    rw [hsame id', haccount id', reportsOf_snoc, List.append_assoc]

end

/-! ### Steps -/

section

variable [DecidableEq ι]

/-- What the `OnceLock` and the tasks do at an event. -/
inductive TracingStep (config : QueryTracingConfig) (m : Tracing ι P C) :
    TracingEvent ι P C → Tracing ι P C → Prop
  | setMeterProvider (provider : P) :
    TracingStep config m (.setMeterProvider provider) { m with meterProvider := provider }
  | setTracerProvider (provider : P) :
    TracingStep config m (.setTracerProvider provider) { m with tracerProvider := provider }
  | called {id : ι} (info : Info) (henabled : config.enabled) (hidle : m.running id = none) :
    TracingStep config m (.called id info)
      { m with running := Function.update m.running id (some (.waits info)) }
  | initializes {id : ι} {info : Info} (hwaits : m.running id = some (.waits info))
    (hslot : m.slot = .empty) :
    TracingStep config m (.initializes id)
      { m with slot := .initializing id m.meterProvider
               told := m.told ++ [(id, .gauge m.meterProvider)] }
  | initialized {id : ι} {meter : P} (hslot : m.slot = .initializing id meter) :
    TracingStep config m (.initialized id)
      { m with slot := .full { meter, tracer := m.tracerProvider } }
  | reports {id : ι} {info : Info} {instruments : Instruments P} (ambient : Ambient C)
    (hwaits : m.running id = some (.waits info)) (hslot : m.slot = .full instruments) :
    TracingStep config m (.reports id info ambient)
      { m with
        running := Function.update m.running id
          (some (.tells (report config instruments info ambient))) }
  | tells {id : ι} {t : Telemetry P C} {rest : List (Telemetry P C)}
    (htells : m.running id = some (.tells (t :: rest))) :
    TracingStep config m (.tells id)
      { m with running := Function.update m.running id (Callback.behind rest)
               told := m.told ++ [(id, t)] }

variable {m m' : Tracing ι P C} {e : TracingEvent ι P C}

/-- What `step` checks for an event is what its constructor asks for. -/
theorem step_cases (hstep : TracingEvent.step config m e = some m') :
    TracingStep config m e m' := by
  cases e with
  | setMeterProvider provider =>
    cases hstep
    exact .setMeterProvider provider
  | setTracerProvider provider =>
    cases hstep
    exact .setTracerProvider provider
  | called id info =>
    rw [TracingEvent.step] at hstep
    split at hstep <;> cases hstep
    rename_i h
    exact .called info h.1 (Option.isNone_iff_eq_none.mp h.2)
  | initializes id =>
    rw [TracingEvent.step] at hstep
    split at hstep <;> cases hstep
    rename_i hwaits hslot
    exact .initializes hwaits hslot
  | initialized id =>
    rw [TracingEvent.step] at hstep
    split at hstep
    · rename_i hslot
      split at hstep <;> cases hstep
      rename_i h
      exact .initialized (h ▸ hslot)
    · cases hstep
  | reports id info ambient =>
    rw [TracingEvent.step] at hstep
    split at hstep
    · rename_i hwaits hslot
      split at hstep <;> cases hstep
      rename_i h
      exact .reports ambient (h ▸ hwaits) hslot
    · cases hstep
  | tells id =>
    rw [TracingEvent.step] at hstep
    split at hstep <;> cases hstep
    rename_i htells
    exact .tells htells

theorem TracingStep.step (h : TracingStep config m e m') :
    TracingEvent.step config m e = some m' := by
  cases h with
  | setMeterProvider provider => rfl
  | setTracerProvider provider => rfl
  | called info henabled hidle => simp [TracingEvent.step, henabled, hidle]
  | initializes hwaits hslot => simp [TracingEvent.step, hwaits, hslot]
  | initialized hslot => simp [TracingEvent.step, hslot]
  | reports ambient hwaits hslot => simp [TracingEvent.step, hwaits, hslot]
  | tells htells => simp [TracingEvent.step, htells]

/-- A task tells, or has more to tell, and the others do neither. -/
theorem account_eq {id : ι} (added extra : List (Telemetry P C)) (next : Option (Callback P C))
    (hrunning : m'.running = Function.update m.running id next)
    (htold : m'.told = m.told ++ added.map fun t => (id, t))
    (hnext : added ++ yetToTell next = yetToTell (m.running id) ++ extra) (id' : ι) :
    m'.account id' = m.account id' ++ if id = id' then extra else [] := by
  rw [Tracing.account, Tracing.account, htold, hrunning, List.filter_append, List.map_append,
    List.append_assoc]
  by_cases h : id = id'
  · subst h
    have hall : (added.map fun t => (id, t)).filter (fun t => t.1 = id) =
        added.map fun t => (id, t) :=
      List.filter_eq_self.mpr fun t ht => by
        obtain ⟨_, _, rfl⟩ := List.mem_map.mp ht
        exact decide_eq_true rfl
    have hmap : (added.map fun t => (id, t)).map Prod.snd = added := by
      simp [Function.comp_def]
    rw [if_pos rfl, Function.update_self, hall, hmap, List.append_assoc, ← hnext]
  · have hnone : (added.map fun t => (id, t)).filter (fun t => t.1 = id') = [] :=
      List.filter_eq_nil_iff.mpr fun t ht => by
        obtain ⟨_, _, rfl⟩ := List.mem_map.mp ht
        exact fun hid => h (of_decide_eq_true hid)
    rw [if_neg h, Function.update_of_ne (Ne.symm h), hnone, List.append_nil]
    rfl

variable {events : List (TracingEvent ι P C)}

variable (noop config) in
structure TracingOk (events : List (TracingEvent ι P C)) (m : Tracing ι P C) : Prop where
  meterProvider : m.meterProvider = lastMeter noop events
  tracerProvider : m.tracerProvider = lastTracer noop events
  told : Told noop config events m.slot m.account

theorem TracingOk.start : TracingOk noop config [] (Tracing.start noop ι C) :=
  ⟨rfl, rfl, .nothing nofun fun _ => rfl⟩

/-- Most events install nothing. -/
theorem TracingOk.same (h : TracingOk noop config events m) (hmeter : e.meterProvider? = none)
    (htracer : e.tracerProvider? = none) (hmeter' : m'.meterProvider = m.meterProvider)
    (htracer' : m'.tracerProvider = m.tracerProvider)
    (htold : Told noop config (events ++ [e]) m'.slot m'.account) :
    TracingOk noop config (events ++ [e]) m' := by
  refine ⟨?_, ?_, htold⟩
  · rw [hmeter', lastMeter_snoc, hmeter]
    exact h.meterProvider
  · rw [htracer', lastTracer_snoc, htracer]
    exact h.tracerProvider

theorem TracingOk.step (h : TracingOk noop config events m)
    (hstep : TracingEvent.step config m e = some m') :
    TracingOk noop config (events ++ [e]) m' := by
  have htold := h.told
  -- only a report makes an account longer, and by what is reported; telling moves it to `told`
  cases step_cases hstep with
  | setMeterProvider provider =>
    refine ⟨?_, ?_, htold.quiet ⟨id, fun _ => rfl⟩ fun _ => rfl⟩
    · rw [lastMeter_snoc]
      rfl
    · rw [lastTracer_snoc]
      exact h.tracerProvider
  | setTracerProvider provider =>
    refine ⟨?_, ?_, htold.quiet ⟨id, fun _ => rfl⟩ fun _ => rfl⟩
    · rw [lastMeter_snoc]
      exact h.meterProvider
    · rw [lastTracer_snoc]
      rfl
  | called info _ hidle =>
    refine h.same rfl rfl rfl rfl (htold.quiet ⟨fun h => h, fun _ => rfl⟩ fun id => ?_)
    refine Eq.trans (account_eq (m := m) [] [] (some (.waits info)) (by rfl)
      (by rw [List.map_nil, List.append_nil]) (by rw [hidle]; rfl) id) ?_
    rw [ite_self, List.append_nil]
  | @initializes owner info hwaits hslot =>
    refine h.same rfl rfl rfl rfl ?_
    rw [hslot] at htold
    cases htold with
    | nothing hnone haccount =>
      rw [h.meterProvider]
      refine .gauge hnone nofun fun id => ?_
      refine Eq.trans (account_eq (m := m) [.gauge _] [.gauge _] (m.running owner)
        (by rw [Function.update_eq_self]) (by rfl) (by rw [hwaits]; rfl) id) ?_
      exact congrArg (· ++ gaugeOf owner _ id) (haccount id)
  | @initialized owner meter hslot =>
    refine h.same rfl rfl rfl rfl ?_
    have htracer := h.tracerProvider
    rw [hslot] at htold
    cases htold with
    | @gauge before between _ _ hbefore hbetween haccount =>
      rw [List.append_assoc, List.cons_append]
      refine .reports hbefore hbetween nofun rfl htracer fun id => ?_
      exact (haccount id).trans (List.append_nil _).symm
  | @reports owner info instruments ambient hwaits hslot =>
    refine h.same rfl rfl rfl rfl ?_
    rw [hslot] at htold ⊢
    refine htold.report fun id => ?_
    refine Eq.trans (account_eq (m := m) [] (report config instruments info ambient)
      (some (.tells _)) (by rfl) (by rw [List.map_nil, List.append_nil]) (by rw [hwaits]; rfl)
      id) ?_
    rw [reportsOf_singleton]
  | @tells owner t rest htells =>
    refine h.same rfl rfl rfl rfl (htold.quiet ⟨fun h => h, fun _ => rfl⟩ fun id => ?_)
    have hnow : [t] ++ yetToTell (Callback.behind rest) = yetToTell (m.running owner) ++ [] := by
      rw [htells, yetToTell_behind]
      exact (List.append_nil _).symm
    refine Eq.trans (account_eq (m := m) [t] [] (Callback.behind rest) (by rfl) (by rfl) hnow id) ?_
    rw [ite_self, List.append_nil]

/-- **Each task tells what it reports, with the providers of the first query.** -/
theorem told_of_run
    (hrun : run (TracingEvent.step config) (.start noop ι C) events = some m) :
    Told noop config events m.slot m.account :=
  (run_invariant (TracingOk noop config) .start (fun _ _ _ _ hok hstep => hok.step hstep) hrun).told

end

/-! ### Each query once -/

section

variable [DecidableEq ι] {m m' : Tracing ι P C} {events : List (TracingEvent ι P C)}
  {e : TracingEvent ι P C}

def waitingFor : Option (Callback P C) → List Info
  | some (.waits info) => [info]
  | _ => []

/-- What a task was called for it has reported, except what it waits to report. -/
def Accounted (events : List (TracingEvent ι P C)) (m : Tracing ι P C) : Prop :=
  ∀ id, events.filterMap (TracingEvent.calledBy? id) =
    (events.filterMap (TracingEvent.reportedBy? id)).map Prod.fst ++ waitingFor (m.running id)

theorem waitingFor_behind (rest : List (Telemetry P C)) :
    waitingFor (Callback.behind rest) = [] := by
  cases rest <;> rfl

/-- A query waits from its callback to its report, and nothing else changes what waits. -/
theorem TracingStep.waitingFor_eq (h : TracingStep config m e m') (id : ι) :
    waitingFor (m.running id) ++ [e].filterMap (TracingEvent.calledBy? id) =
      ([e].filterMap (TracingEvent.reportedBy? id)).map Prod.fst ++ waitingFor (m'.running id) := by
  cases h with
  | setMeterProvider provider => exact List.append_nil _
  | setTracerProvider provider => exact List.append_nil _
  | initializes _ _ => exact List.append_nil _
  | initialized _ => exact List.append_nil _
  | @called owner info _ hidle =>
    by_cases h : owner = id
    · subst h
      simp [TracingEvent.calledBy?, TracingEvent.reportedBy?, hidle, waitingFor]
    · simp [TracingEvent.calledBy?, TracingEvent.reportedBy?, h, Function.update_of_ne (Ne.symm h)]
  | @reports owner info instruments ambient hwaits _ =>
    by_cases h : owner = id
    · subst h
      simp [TracingEvent.calledBy?, TracingEvent.reportedBy?, hwaits, waitingFor]
    · simp [TracingEvent.calledBy?, TracingEvent.reportedBy?, h, Function.update_of_ne (Ne.symm h)]
  | @tells owner t rest htells =>
    have hsame : waitingFor (Function.update m.running owner (Callback.behind rest) id) =
        waitingFor (m.running id) := by
      by_cases h : id = owner
      · subst h
        rw [Function.update_self, waitingFor_behind, htells]
        rfl
      · rw [Function.update_of_ne h]
    exact (List.append_nil _).trans hsame.symm

theorem Accounted.step (h : Accounted events m) (hstep : TracingStep config m e m') :
    Accounted (events ++ [e]) m' := by
  intro id
  rw [List.filterMap_append, List.filterMap_append, List.map_append, h id, List.append_assoc,
    hstep.waitingFor_eq id, List.append_assoc]

theorem accounted_of_run
    (hrun : run (TracingEvent.step config) (.start noop ι C) events = some m) :
    Accounted events m :=
  run_invariant Accounted (fun _ => rfl) (fun _ _ _ _ h hstep => h.step (step_cases hstep)) hrun

theorem reportsOf_append {instruments : Instruments P} {id : ι}
    {before after : List (TracingEvent ι P C)} :
    reportsOf config instruments id (before ++ after) =
      reportsOf config instruments id before ++ reportsOf config instruments id after := by
  rw [reportsOf, List.filterMap_append, List.flatMap_append]
  rfl

theorem reportsOf_quiet {instruments : Instruments P} {id : ι} (h : ∀ e ∈ events, e.Quiet) :
    reportsOf config instruments id events = [] := by
  rw [reportsOf, List.filterMap_eq_nil_iff.mpr fun e he => (h e he).2 id, List.flatMap_nil]

theorem reportsOf_cons {instruments : Instruments P} {id : ι} (h : e.reportedBy? id = none) :
    reportsOf config instruments id (e :: events) = reportsOf config instruments id events := by
  rw [reportsOf, List.filterMap_cons, h]
  rfl

/-- **Every query is told once.** When all callbacks are over, each task has told of the queries it
was called for, in their order, and all have told it to the same instruments; besides, at most one
of them has registered the gauge. -/
theorem queries_told_once
    (hrun : run (TracingEvent.step config) (.start noop ι C) events = some m)
    (hover : ∀ id, m.running id = none) :
    ∃ (instruments : Instruments P) (owner : Option ι), ∀ id,
      (m.told.filter fun t => t.1 = id).map Prod.snd =
        (if owner = some id then [.gauge instruments.meter] else []) ++
          reportsOf config instruments id events ∧
      (events.filterMap (TracingEvent.reportedBy? id)).map Prod.fst =
        events.filterMap (TracingEvent.calledBy? id) := by
  have hcalled : ∀ id, (events.filterMap (TracingEvent.reportedBy? id)).map Prod.fst =
      events.filterMap (TracingEvent.calledBy? id) := fun id => by
    rw [accounted_of_run hrun id, hover id]
    exact (List.append_nil _).symm
  have haccount : ∀ id, m.account id = (m.told.filter fun t => t.1 = id).map Prod.snd := by
    intro id
    rw [Tracing.account, hover id]
    exact List.append_nil _
  have htold := told_of_run hrun
  generalize m.slot = slot at htold
  suffices h : ∃ (instruments : Instruments P) (owner : Option ι), ∀ id, m.account id =
      (if owner = some id then [.gauge instruments.meter] else []) ++
        reportsOf config instruments id events by
    obtain ⟨instruments, owner, h⟩ := h
    exact ⟨instruments, owner, fun id => ⟨haccount id ▸ h id, hcalled id⟩⟩
  cases htold with
  | nothing hnone hnothing =>
    refine ⟨{ meter := noop, tracer := noop }, none, fun id => ?_⟩
    rw [hnothing id, reportsOf_quiet hnone]
    rfl
  | @gauge before after owner _ hbefore hafter hgauge =>
    refine ⟨{ meter := lastMeter noop before, tracer := noop }, some owner, fun id => ?_⟩
    rw [hgauge id, reportsOf_append, reportsOf_cons rfl, reportsOf_quiet hbefore,
      reportsOf_quiet hafter, gaugeOf]
    simp
  | @reports before between after owner instruments _ hbefore hbetween _ _ _ hreports =>
    refine ⟨instruments, some owner, fun id => ?_⟩
    rw [hreports id, reportsOf_append, reportsOf_cons rfl, reportsOf_append, reportsOf_cons rfl,
      reportsOf_quiet hbefore, reportsOf_quiet hbetween, gaugeOf]
    simp

end

inductive Sink where
  | noop
  | otlp

def verbose : QueryTracingConfig := { QueryTracingConfig.default with enabled := true }

def discreet : QueryTracingConfig := { verbose with includeStatement := false }

def selectUsers : Info := { elapsed := fromMillis 1, sql := "select * from users", failed := false }

def withSecret : Info :=
  { elapsed := fromMillis 1000, sql := "WITH s AS (SELECT 1)", failed := true }

def installation : List (TracingEvent (Fin 3) Sink Unit) :=
  [.setTracerProvider .otlp, .setMeterProvider .otlp]

/-- The second is the first in `get_or_init`, and the first to be done. -/
def twoQueries : List (TracingEvent (Fin 3) Sink Unit) :=
  [.called 1 selectUsers, .called 2 withSecret, .initializes 2, .initialized 2,
    .reports 1 selectUsers { now := fromMillis 10000, context := () }, .tells 1,
    .reports 2 withSecret { now := fromMillis 10000, context := () }, .tells 2, .tells 2, .tells 1,
    .tells 2, .tells 1]

/-- No callback is running. -/
def Tracing.isOver (m : Tracing (Fin 3) Sink Unit) : Bool :=
  [0, 1, 2].all fun id => (m.running id).isNone

theorem twoQueries_run (config : QueryTracingConfig) (henabled : config.enabled) :
    ∃ m, run (TracingEvent.step config) (.start .noop (Fin 3) Unit) (installation ++ twoQueries) =
      some m ∧ ∀ id, m.running id = none := by
  obtain ⟨enabled, includeStatement, threshold⟩ := config
  cases henabled
  have hany : (run (TracingEvent.step ⟨true, includeStatement, threshold⟩)
    (.start .noop (Fin 3) Unit) (installation ++ twoQueries)).any Tracing.isOver = true := rfl
  have hthree : ∀ id : Fin 3, id ∈ [0, 1, 2] := by decide
  obtain ⟨m, hrun, hidle⟩ := (Option.any_eq_true _ _).mp hany
  exact ⟨m, hrun, fun id => Option.isNone_iff_eq_none.mp
    (List.all_eq_true.mp hidle id (hthree id))⟩

theorem queries_told_once_two : ∃ m, run (TracingEvent.step verbose) (.start .noop (Fin 3) Unit)
    (installation ++ twoQueries) = some m ∧
      ∃ (instruments : Instruments Sink) (owner : Option (Fin 3)), ∀ id,
        (m.told.filter fun t => t.1 = id).map Prod.snd =
          (if owner = some id then [.gauge instruments.meter] else []) ++
            reportsOf verbose instruments id (installation ++ twoQueries) ∧
        ((installation ++ twoQueries).filterMap (TracingEvent.reportedBy? id)).map Prod.fst =
          (installation ++ twoQueries).filterMap (TracingEvent.calledBy? id) := by
  obtain ⟨m, hrun, hover⟩ := twoQueries_run verbose rfl
  exact ⟨m, hrun, queries_told_once hrun hover⟩

/-! ### With the providers that are there first -/

namespace Telemetry

/-- The gauge, a record of the histogram or a span: it goes through `Instruments`, to the provider
they are bound to. An event does not. It goes to the `tracing` subscriber, and from there to every
layer that `init_observability` has put into it, the exporting ones included. -/
def Instrumented : Telemetry P C → Prop
  | .event .. => False
  | _ => True

/-- It goes to one of these providers. -/
def To (instruments : Instruments P) : Telemetry P C → Prop
  | .gauge meter => meter = instruments.meter
  | .duration meter _ _ => meter = instruments.meter
  | .span tracer _ _ _ _ _ _ => tracer = instruments.tracer
  | .event .. => False

end Telemetry

theorem report_to {instruments : Instruments P} {info : Info} {ambient : Ambient C}
    {t : Telemetry P C} (ht : t ∈ report config instruments info ambient)
    (hinstrumented : t.Instrumented) : t.To instruments := by
  simp only [report, List.mem_cons, List.not_mem_nil, or_false] at ht
  obtain rfl | rfl | rfl := ht
  · exact rfl
  · exact rfl
  · split at hinstrumented
    · exact hinstrumented.elim
    · split at hinstrumented <;> exact hinstrumented.elim

section

variable [DecidableEq ι] {m : Tracing ι P C} {events : List (TracingEvent ι P C)}
  {t : ι × Telemetry P C}

theorem mem_account (ht : t ∈ m.told) : t.2 ∈ m.account t.1 :=
  List.mem_append_left _ (List.mem_map_of_mem (List.mem_filter.mpr ⟨ht, decide_eq_true rfl⟩))

theorem mem_gaugeOf {owner id : ι} {meter : P} {t : Telemetry P C}
    (ht : t ∈ gaugeOf owner meter id) : t = .gauge meter := by
  rw [gaugeOf] at ht
  split at ht
  · exact List.mem_singleton.mp ht
  · cases ht

theorem mem_reportsOf {instruments : Instruments P} {id : ι} {t : Telemetry P C}
    (ht : t ∈ reportsOf config instruments id events) :
    ∃ info ambient, t ∈ report config instruments info ambient := by
  obtain ⟨query, _, ht⟩ := List.mem_flatMap.mp ht
  exact ⟨query.1, query.2, ht⟩

theorem reportsOf_to {instruments : Instruments P} {owner id : ι} {t : Telemetry P C}
    (ht : t ∈ gaugeOf owner instruments.meter id ++ reportsOf config instruments id events)
    (hinstrumented : t.Instrumented) : t.To instruments := by
  rcases List.mem_append.mp ht with ht | ht
  · cases mem_gaugeOf ht
    exact rfl
  · obtain ⟨info, ambient, ht⟩ := mem_reportsOf ht
    exact report_to ht hinstrumented

variable {setup rest : List (TracingEvent ι P C)}

omit [DecidableEq ι] in
theorem lastMeter_append (hrest : ∀ e ∈ rest, e.meterProvider? = none) :
    lastMeter noop (setup ++ rest) = lastMeter noop setup := by
  rw [lastMeter, List.filterMap_append, List.filterMap_eq_nil_iff.mpr hrest, List.append_nil]
  rfl

omit [DecidableEq ι] in
theorem lastTracer_append (hrest : ∀ e ∈ rest, e.tracerProvider? = none) :
    lastTracer noop (setup ++ rest) = lastTracer noop setup := by
  rw [lastTracer, List.filterMap_append, List.filterMap_eq_nil_iff.mpr hrest, List.append_nil]
  rfl

omit [DecidableEq ι] in
/-- The instruments are not made before they can be. -/
theorem initializes_behind {before after : List (TracingEvent ι P C)} {owner : ι}
    (hsetup : ∀ e ∈ setup, ¬ e.Initializes)
    (heq : setup ++ rest = before ++ .initializes owner :: after) :
    ∃ waiting, before = setup ++ waiting ∧ rest = waiting ++ .initializes owner :: after := by
  rcases List.append_eq_append_iff.mp heq with ⟨waiting, hbefore, hrest⟩ | ⟨made, hmade, hafter⟩
  · exact ⟨waiting, hbefore, hrest⟩
  · cases made with
    | nil => exact ⟨[], by simpa using hmade.symm, hafter.symm⟩
    | cons e made =>
      cases hafter
      have hmem : TracingEvent.initializes owner ∈ setup :=
        hmade ▸ List.mem_append_right _ List.mem_cons_self
      exact absurd trivial (hsetup _ hmem)

/-- **Providers that are installed before the first query, and stay, get the gauge, all records and
all spans.** -/
theorem told_to_installed (hsetup : ∀ e ∈ setup, ¬ e.Initializes)
    (hrest : ∀ e ∈ rest, e.meterProvider? = none ∧ e.tracerProvider? = none)
    (hrun : run (TracingEvent.step config) (.start noop ι C) (setup ++ rest) = some m)
    (ht : t ∈ m.told) (hinstrumented : t.2.Instrumented) :
    t.2.To { meter := lastMeter noop setup, tracer := lastTracer noop setup } := by
  have htold := told_of_run hrun
  have hmem := mem_account ht
  generalize hevents : setup ++ rest = events at htold
  generalize m.slot = slot at htold
  generalize m.account = account at htold hmem
  -- the instruments were made after the setup, and nothing was installed in between
  cases htold with
  | nothing _ haccount =>
    rw [haccount] at hmem
    cases hmem
  | gauge _ _ haccount =>
    obtain ⟨waiting, rfl, rfl⟩ := initializes_behind hsetup hevents
    rw [haccount] at hmem
    rw [mem_gaugeOf hmem]
    exact lastMeter_append fun e he => (hrest e (List.mem_append_left _ he)).1
  | @reports before between after owner instruments _ _ _ _ hmeter htracer haccount =>
    obtain ⟨waiting, rfl, rfl⟩ := initializes_behind hsetup hevents
    rw [haccount] at hmem
    have hmeter' : instruments.meter = lastMeter noop setup := by
      rw [hmeter]
      exact lastMeter_append fun e he => (hrest e (List.mem_append_left _ he)).1
    have htracer' : instruments.tracer = lastTracer noop setup := by
      rw [htracer, List.append_assoc]
      refine lastTracer_append fun e he => (hrest e ?_).2
      rcases List.mem_append.mp he with he | he
      · exact List.mem_append_left _ he
      · refine List.mem_append_right _ ?_
        cases he with
        | head => exact List.mem_cons_self
        | tail _ he => exact List.mem_cons_of_mem _ (List.mem_append_left _ he)
    rw [← hmeter', ← htracer']
    exact reportsOf_to hmem hinstrumented

end

/-! ### With none there -/

section

variable [DecidableEq ι] {m m' : Tracing ι P C} {events early rest : List (TracingEvent ι P C)}
  {instruments : Instruments P} {t : ι × Telemetry P C}

/-- The `OnceLock` is set once. -/
theorem TracingStep.slot {e : TracingEvent ι P C} (h : TracingStep config m e m')
    (hslot : m.slot = .full instruments) : m'.slot = .full instruments := by
  cases h with
  | initializes _ hempty => cases hslot.symm.trans hempty
  | initialized hslot' => cases hslot.symm.trans hslot'
  | _ => exact hslot

theorem slot_of_run (hslot : m.slot = .full instruments)
    (hrun : run (TracingEvent.step config) m events = some m') : m'.slot = .full instruments :=
  run_invariant (fun _ m => m.slot = .full instruments) hslot
    (fun _ _ _ _ hslot hstep => (step_cases hstep).slot hslot) hrun

theorem told_to_slot (hslot : m.slot = .full instruments)
    (hrun : run (TracingEvent.step config) (.start noop ι C) events = some m) (ht : t ∈ m.told)
    (hinstrumented : t.2.Instrumented) : t.2.To instruments := by
  have htold := told_of_run hrun
  have hmem := mem_account ht
  rw [hslot] at htold
  generalize m.account = account at htold hmem
  cases htold with
  | reports _ _ _ _ _ haccount =>
    rw [haccount] at hmem
    exact reportsOf_to hmem hinstrumented

omit [DecidableEq ι] in
theorem lastMeter_eq_noop (h : ∀ e ∈ events, e.meterProvider? = none) :
    lastMeter noop events = noop := by
  rw [lastMeter, List.filterMap_eq_nil_iff.mpr h]
  rfl

omit [DecidableEq ι] in
theorem lastTracer_eq_noop (h : ∀ e ∈ events, e.tracerProvider? = none) :
    lastTracer noop events = noop := by
  rw [lastTracer, List.filterMap_eq_nil_iff.mpr h]
  rfl

/-- **One query that is reported before providers are installed decides for all.** Whatever is
installed later gets neither the gauge nor a record nor a span, of any query. -/
theorem told_to_nobody {id : ι}
    (hearly : ∀ e ∈ early, e.meterProvider? = none ∧ e.tracerProvider? = none)
    (hreported : ∃ e ∈ early, e.reportedBy? id ≠ none)
    (hrun : run (TracingEvent.step config) (.start noop ι C) (early ++ rest) = some m)
    (ht : t ∈ m.told) (hinstrumented : t.2.Instrumented) :
    t.2.To { meter := noop, tracer := noop } := by
  have hall := hrun
  rw [run_append, Option.bind_eq_some_iff] at hrun
  obtain ⟨m₁, hrun₁, hrest⟩ := hrun
  have htold := told_of_run hrun₁
  obtain ⟨e, he, hreport⟩ := hreported
  generalize hslot : m₁.slot = slot at htold
  generalize m₁.account = account at htold
  -- a query was reported early, so the instruments were made early, from what was there
  cases htold with
  | nothing hnone => exact absurd ((hnone e he).2 id) hreport
  | gauge hbefore hafter =>
    rcases List.mem_append.mp he with he | he
    · exact absurd ((hbefore e he).2 id) hreport
    · rcases List.mem_cons.mp he with rfl | he
      · exact absurd rfl hreport
      · exact absurd ((hafter e he).2 id) hreport
  | @reports before between after owner instruments _ _ _ _ hmeter htracer =>
    have hmeter' : instruments.meter = noop := by
      rw [hmeter]
      exact lastMeter_eq_noop fun e he => (hearly e (List.mem_append_left _ he)).1
    have htracer' : instruments.tracer = noop := by
      rw [htracer]
      refine lastTracer_eq_noop fun e he => (hearly e ?_).2
      simp only [List.mem_append, List.mem_cons] at he ⊢
      tauto
    have hnoop : instruments = { meter := noop, tracer := noop } :=
      congrArg₂ Instruments.mk hmeter' htracer'
    exact hnoop ▸ told_to_slot (slot_of_run hslot hrest) hall ht hinstrumented

end

/-! ### Few series -/

namespace Telemetry

/-- The series that a measurement is of. -/
def series? : Telemetry P C → Option Attributes
  | .duration _ _ attributes => some attributes
  | _ => none

end Telemetry

def knownSeries : List Attributes :=
  (knownOperations ++ ["UNKNOWN"]).map fun op => [("db.system", "postgresql"), ("db.operation", op)]

theorem operationLabel_mem (sql : String) :
    operationLabel sql ∈ knownOperations ++ ["UNKNOWN"] := by
  cases h : parseOperation sql with
  | none => simp [operationLabel, h]
  | some op =>
    obtain ⟨token, _, hfind⟩ := Option.bind_eq_some_iff.mp h
    rw [operationLabel, h]
    exact List.mem_append_left _ (List.mem_of_find?_eq_some hfind)

theorem series_of_report {instruments : Instruments P} {info : Info} {ambient : Ambient C}
    {t : Telemetry P C} {attributes : Attributes}
    (ht : t ∈ report config instruments info ambient) (hseries : t.series? = some attributes) :
    attributes ∈ knownSeries := by
  simp only [report, List.mem_cons, List.not_mem_nil, or_false] at ht
  obtain rfl | rfl | rfl := ht
  · cases hseries
    exact List.mem_map_of_mem (operationLabel_mem info.sql)
  · cases hseries
  · split at hseries
    · cases hseries
    · split at hseries <;> cases hseries

section

variable [DecidableEq ι] {m : Tracing ι P C} {events : List (TracingEvent ι P C)}
  {t : ι × Telemetry P C}

/-- Everything that is told is the gauge, or of a report. -/
theorem gauge_or_report (hrun : run (TracingEvent.step config) (.start noop ι C) events = some m)
    (ht : t ∈ m.told) : (∃ meter, t.2 = .gauge meter) ∨
      ∃ instruments info ambient, t.2 ∈ report config instruments info ambient := by
  have htold := told_of_run hrun
  have hmem := mem_account ht
  generalize m.slot = slot at htold
  generalize m.account = account at htold hmem
  cases htold with
  | nothing _ haccount =>
    rw [haccount] at hmem
    cases hmem
  | gauge _ _ haccount =>
    rw [haccount] at hmem
    exact .inl ⟨_, mem_gaugeOf hmem⟩
  | @reports _ _ after _ instruments _ _ _ _ _ _ haccount =>
    rw [haccount] at hmem
    rcases List.mem_append.mp hmem with hmem | hmem
    · exact .inl ⟨_, mem_gaugeOf hmem⟩
    · exact .inr ⟨instruments, mem_reportsOf hmem⟩

/-- **Whatever is queried, durations are of eight series.** -/
theorem series_bounded
    (hrun : run (TracingEvent.step config) (.start noop ι C) events = some m) :
    (m.told.filterMap fun t => t.2.series?).dedup.length ≤ 8 := by
  have hknown : ∀ attributes ∈ (m.told.filterMap fun t => t.2.series?).dedup,
      attributes ∈ knownSeries := by
    intro attributes hattributes
    obtain ⟨t, ht, hseries⟩ := List.mem_filterMap.mp (List.mem_dedup.mp hattributes)
    rcases gauge_or_report hrun ht with ⟨meter, hgauge⟩ | ⟨_, _, _, hreport⟩
    · rw [hgauge] at hseries
      cases hseries
    · exact series_of_report hreport hseries
  exact (List.subperm_of_subset (List.nodup_dedup _) hknown).length_le

end

theorem series_bounded_two : ∃ m, run (TracingEvent.step verbose) (.start .noop (Fin 3) Unit)
    (installation ++ twoQueries) = some m ∧
      (m.told.filterMap fun t => t.2.series?).dedup.length ≤ 8 := by
  obtain ⟨m, hrun, -⟩ := twoQueries_run verbose rfl
  exact ⟨m, hrun, series_bounded hrun⟩

/-! ### Statements stay where they are -/

/-- Two queries that differ in their text only, and not in the operation that it starts with. -/
structure Info.SameButText (info info' : Info) : Prop where
  elapsed : info.elapsed = info'.elapsed
  failed : info.failed = info'.failed
  label : operationLabel info.sql = operationLabel info'.sql

inductive Callback.SameButText : Callback P C → Callback P C → Prop
  | waits {info info' : Info} (hinfo : info.SameButText info') :
    SameButText (.waits info) (.waits info')
  | tells (rest : List (Telemetry P C)) : SameButText (.tells rest) (.tells rest)

/-- The same event, of queries that differ in their text only. -/
inductive TracingEvent.SameButText : TracingEvent ι P C → TracingEvent ι P C → Prop
  | setMeterProvider (provider : P) :
    SameButText (.setMeterProvider provider) (.setMeterProvider provider)
  | setTracerProvider (provider : P) :
    SameButText (.setTracerProvider provider) (.setTracerProvider provider)
  | called (id : ι) {info info' : Info} (hinfo : info.SameButText info') :
    SameButText (.called id info) (.called id info')
  | initializes (id : ι) : SameButText (.initializes id) (.initializes id)
  | initialized (id : ι) : SameButText (.initialized id) (.initialized id)
  | reports (id : ι) {info info' : Info} (hinfo : info.SameButText info') (ambient : Ambient C) :
    SameButText (.reports id info ambient) (.reports id info' ambient)
  | tells (id : ι) : SameButText (.tells id) (.tells id)

/-- The query that a callback is called for. -/
def TracingEvent.called? : TracingEvent ι P C → Option Info
  | .called _ info => some info
  | _ => none

/-- The same, but for the texts of the queries that wait to be reported. -/
structure Tracing.SameButText (m m' : Tracing ι P C) : Prop where
  meterProvider : m.meterProvider = m'.meterProvider
  tracerProvider : m.tracerProvider = m'.tracerProvider
  slot : m.slot = m'.slot
  running : ∀ id, Option.Rel Callback.SameButText (m.running id) (m'.running id)
  told : m.told = m'.told

theorem report_sameButText (hprivate : config.includeStatement = false)
    {info info' : Info} (hinfo : info.SameButText info') (instruments : Instruments P)
    (ambient : Ambient C) :
    report config instruments info ambient = report config instruments info' ambient := by
  rw [report, report, hinfo.label, hinfo.elapsed, hinfo.failed, hprivate]
  rfl

theorem behind_sameButText (rest : List (Telemetry P C)) :
    Option.Rel Callback.SameButText (Callback.behind rest) (Callback.behind rest) := by
  cases rest with
  | nil => exact .none
  | cons t rest => exact .some (.tells (t :: rest))

theorem Tracing.SameButText.start : (Tracing.start noop ι C).SameButText (.start noop ι C) :=
  ⟨rfl, rfl, rfl, fun _ => .none, rfl⟩

section

variable [DecidableEq ι] {m m' m₁ m₁' : Tracing ι P C} {e e' : TracingEvent ι P C}

theorem Tracing.SameButText.update (hm : m.SameButText m') (id : ι)
    {next next' : Option (Callback P C)} (hnext : Option.Rel Callback.SameButText next next')
    (told : List (ι × Telemetry P C)) :
    Tracing.SameButText { m with running := Function.update m.running id next, told }
      { m' with running := Function.update m'.running id next', told } := by
  refine ⟨hm.meterProvider, hm.tracerProvider, hm.slot, fun id' => ?_, rfl⟩
  rcases eq_or_ne id' id with rfl | h
  · simpa only [Function.update_self] using hnext
  · simpa only [Function.update_of_ne h] using hm.running id'

/-- **An event that differs in the text only leads to states that do.** A text goes no further than
the report, which leaves it out. -/
theorem TracingStep.sameButText (hprivate : config.includeStatement = false)
    (hm : m.SameButText m') (he : e.SameButText e') (h : TracingStep config m e m₁)
    (h' : TracingStep config m' e' m₁') : m₁.SameButText m₁' := by
  cases he with
  | setMeterProvider provider =>
    cases h
    cases h'
    exact ⟨rfl, hm.tracerProvider, hm.slot, hm.running, hm.told⟩
  | setTracerProvider provider =>
    cases h
    cases h'
    exact ⟨hm.meterProvider, rfl, hm.slot, hm.running, hm.told⟩
  | called id hinfo =>
    cases h
    cases h'
    rw [hm.told]
    exact hm.update id (.some (.waits hinfo)) m'.told
  | initializes id =>
    cases h
    cases h'
    refine ⟨hm.meterProvider, hm.tracerProvider, ?_, hm.running, ?_⟩
    · rw [hm.meterProvider]
    · rw [hm.meterProvider, hm.told]
  | initialized id =>
    cases h with
    | initialized hslot =>
      cases h' with
      | initialized hslot' =>
        cases hslot.symm.trans (hm.slot.trans hslot')
        refine ⟨hm.meterProvider, hm.tracerProvider, ?_, hm.running, hm.told⟩
        rw [hm.tracerProvider]
  | reports id hinfo ambient =>
    cases h with
    | reports _ _ hslot =>
      cases h' with
      | reports _ _ hslot' =>
        cases hslot.symm.trans (hm.slot.trans hslot')
        rw [report_sameButText hprivate hinfo, hm.told]
        exact hm.update id (.some (.tells _)) m'.told
  | tells id =>
    cases h with
    | tells htells =>
      cases h' with
      | tells htells' =>
        have hrunning := hm.running id
        rw [htells, htells'] at hrunning
        cases hrunning with
        | some htell =>
          cases htell
          rw [hm.told]
          exact hm.update id (behind_sameButText _) _

/-- **Whatever is done with some texts can be done with others.** What makes an event possible is
the same in both runs, and a new callback brings the other text. -/
theorem TracingStep.follow (hm : m.SameButText m') (h : TracingStep config m e m₁)
    {infos : List Info} (hinfos : List.Forall₂ Info.SameButText e.called?.toList infos) :
    ∃ e' m₁', TracingStep config m' e' m₁' ∧ e.SameButText e' ∧ e'.called?.toList = infos := by
  cases h with
  | setMeterProvider provider =>
    cases hinfos
    exact ⟨_, _, .setMeterProvider provider, .setMeterProvider provider, rfl⟩
  | setTracerProvider provider =>
    cases hinfos
    exact ⟨_, _, .setTracerProvider provider, .setTracerProvider provider, rfl⟩
  | @called id info henabled hidle =>
    obtain ⟨info', hinfo⟩ : ∃ info', info.SameButText info' ∧ infos = [info'] := by
      cases hinfos with
      | cons hinfo hnil =>
        cases hnil
        exact ⟨_, hinfo, rfl⟩
    have hrunning := hm.running id
    rw [hidle] at hrunning
    generalize hidle' : m'.running id = callback at hrunning
    cases hrunning
    exact ⟨_, _, .called info' henabled hidle', .called id hinfo.1, hinfo.2.symm⟩
  | @initializes id info hwaits hslot =>
    cases hinfos
    have hrunning := hm.running id
    rw [hwaits] at hrunning
    generalize hwaits' : m'.running id = callback at hrunning
    cases hrunning with
    | some hwait =>
      cases hwait
      exact ⟨_, _, .initializes hwaits' (hm.slot.symm.trans hslot), .initializes id, rfl⟩
  | @initialized id meter hslot =>
    cases hinfos
    exact ⟨_, _, .initialized (hm.slot.symm.trans hslot), .initialized id, rfl⟩
  | @reports id info instruments ambient hwaits hslot =>
    cases hinfos
    have hrunning := hm.running id
    rw [hwaits] at hrunning
    generalize hwaits' : m'.running id = callback at hrunning
    cases hrunning with
    | some hwait =>
      cases hwait with
      | waits hinfo =>
        exact ⟨_, _, .reports ambient hwaits' (hm.slot.symm.trans hslot),
          .reports id hinfo ambient, rfl⟩
  | @tells id t rest htells =>
    cases hinfos
    have hrunning := hm.running id
    rw [htells] at hrunning
    generalize htells' : m'.running id = callback at hrunning
    cases hrunning with
    | some htell =>
      cases htell
      exact ⟨_, _, .tells htells', .tells id, rfl⟩

variable {events events' : List (TracingEvent ι P C)}

theorem run_sameButText (hprivate : config.includeStatement = false) (hm : m.SameButText m')
    (hevents : List.Forall₂ TracingEvent.SameButText events events')
    (hrun : run (TracingEvent.step config) m events = some m₁)
    (hrun' : run (TracingEvent.step config) m' events' = some m₁') : m₁.SameButText m₁' := by
  induction hevents generalizing m m' with
  | nil =>
    cases hrun
    cases hrun'
    exact hm
  | cons he _ ih =>
    obtain ⟨n, hn, hrest⟩ := Option.bind_eq_some_iff.mp hrun
    obtain ⟨n', hn', hrest'⟩ := Option.bind_eq_some_iff.mp hrun'
    exact ih ((step_cases hn).sameButText hprivate hm he (step_cases hn')) hrest hrest'

theorem run_follow (hprivate : config.includeStatement = false) (hm : m.SameButText m')
    (hrun : run (TracingEvent.step config) m events = some m₁) {infos : List Info}
    (hinfos : List.Forall₂ Info.SameButText (events.filterMap TracingEvent.called?) infos) :
    ∃ events' m₁', List.Forall₂ TracingEvent.SameButText events events' ∧
      events'.filterMap TracingEvent.called? = infos ∧
      run (TracingEvent.step config) m' events' = some m₁' := by
  induction events generalizing m m' infos with
  | nil =>
    cases hinfos
    exact ⟨[], m', .nil, rfl, rfl⟩
  | cons e events ih =>
    obtain ⟨n, hn, hrest⟩ := Option.bind_eq_some_iff.mp hrun
    obtain ⟨now, later, rfl, hnow, hlater⟩ : ∃ now later, infos = now ++ later ∧
        List.Forall₂ Info.SameButText e.called?.toList now ∧
        List.Forall₂ Info.SameButText (events.filterMap TracingEvent.called?) later := by
      cases hcalled : e.called? with
      | none =>
        rw [List.filterMap_cons_none hcalled] at hinfos
        exact ⟨[], infos, rfl, .nil, hinfos⟩
      | some info =>
        rw [List.filterMap_cons_some hcalled] at hinfos
        cases hinfos with
        | cons hinfo hlater => exact ⟨[_], _, rfl, .cons hinfo .nil, hlater⟩
    obtain ⟨e', n', hn', he, hcalled⟩ := (step_cases hn).follow hm hnow
    have hnn := (step_cases hn).sameButText hprivate hm he hn'
    obtain ⟨events', m₁', hevents, hcalled', hrun'⟩ := ih hnn hrest hlater
    refine ⟨e' :: events', m₁', .cons he hevents, ?_, ?_⟩
    · rw [List.filterMap_cons, ← hcalled, ← hcalled']
      cases e'.called? <;> rfl
    · rw [run, hn'.step]
      exact hrun'

/-- **Where statements are not included, nothing but their operation is told of them.** Runs whose
queries agree one by one, in everything but the text, tell the same; and for any other texts, query
by query, there is such a run. -/
theorem statements_private (hprivate : config.includeStatement = false)
    (hrun : run (TracingEvent.step config) (.start noop ι C) events = some m) :
    (∀ events' m', List.Forall₂ TracingEvent.SameButText events events' →
      run (TracingEvent.step config) (.start noop ι C) events' = some m' → m'.told = m.told) ∧
    ∀ infos', List.Forall₂ Info.SameButText (events.filterMap TracingEvent.called?) infos' →
      ∃ events' m', List.Forall₂ TracingEvent.SameButText events events' ∧
        events'.filterMap TracingEvent.called? = infos' ∧
        run (TracingEvent.step config) (.start noop ι C) events' = some m' := by
  constructor
  · intro events' m' hevents hrun'
    exact (run_sameButText hprivate .start hevents hrun hrun').told.symm
  · intro infos' hinfos
    exact run_follow hprivate .start hrun hinfos

end

theorem statements_private_two : ∃ m,
    run (TracingEvent.step discreet) (.start .noop (Fin 3) Unit) (installation ++ twoQueries) =
      some m ∧
    (∀ events' m', List.Forall₂ TracingEvent.SameButText (installation ++ twoQueries) events' →
      run (TracingEvent.step discreet) (.start .noop (Fin 3) Unit) events' = some m' →
        m'.told = m.told) ∧
    ∀ infos', List.Forall₂ Info.SameButText [selectUsers, withSecret] infos' →
      ∃ events' m', List.Forall₂ TracingEvent.SameButText (installation ++ twoQueries) events' ∧
        events'.filterMap TracingEvent.called? = infos' ∧
        run (TracingEvent.step discreet) (.start .noop (Fin 3) Unit) events' = some m' := by
  obtain ⟨m, hrun, -⟩ := twoQueries_run discreet rfl
  exact ⟨m, hrun, statements_private rfl hrun⟩

end Seaorm
end StanoPlatform
