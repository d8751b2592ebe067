import StanoPlatform.Launcher.Mediation

/-!
# `Launcher/RequestId.lean` — who gets to see a request id

The stack of `run` once more, for the `x-request-id` header. A handler may respond, panic or hang.
What is on record is which id the handler and the error log saw; the client sees the one on the
response.

Four layers of `tower-http` have to do with that, and are a parameter (`TowerHttp`): what they
document of time-outs, panics and request ids is `TowerHttp.Documented`. The other layers that are
not the platform's, and the hook, are taken to leave the header alone (`Discreet`).

From `run` and `handle_panic` in `stano-launcher/src/server.rs`, and `error_logging_middleware`. A
layer that is added later is further out, so the list of layers is read from the inside.
-/

set_option autoImplicit false

namespace StanoPlatform
namespace Launcher

open Security Axum

variable {M : Matchit} {E S : Type}

def xRequestId : String := "x-request-id"

/-! ## Passages -/

inductive Result where
  | responds (response : Response)
  | panics
  -- nothing for 300 seconds
  | hangs

def Result.requestId : Result → Option HeaderValue
  | .responds response => response.headers.get xRequestId
  | .panics => none
  | .hangs => none

inductive Sight where
  -- the id on the request, and the one the handler put on its response
  | handler (id own : Option HeaderValue)
  -- the `request_id` of `error_logging_middleware`
  | errorLogging (id : Option (List Char))
  deriving DecidableEq

/-- What becomes of a request, and who saw which id. -/
structure Passage where
  result : Result
  seen : List Sight

def Passage.mapResponse (f : Response → Response) (passage : Passage) : Passage :=
  match passage.result with
  | .responds response => { passage with result := .responds (f response) }
  | .panics => passage
  | .hangs => passage

/-- A middleware around what may panic or hang: it does so, too. -/
def passCode (inner : Request E → Passage) : Code E S → Passage
  | .respond response => ⟨.responds response, []⟩
  | .next req k =>
    let passage := inner req
    match passage.result with
    | .responds response =>
      let rest := passCode inner (k response)
      { rest with seen := passage.seen ++ rest.seen }
    | .panics => passage
    | .hangs => passage
  | .authFailure _ _ k => passCode inner k

/-! ## The layers -/

/-- `handle_panic` -/
def handlePanic : Response :=
  { status := 500
    headers := []
    body := .json (.new 500 "INTERNAL_ERROR" "An internal error occurred")
    apiError := none }

def requestTimeout : Response :=
  { status := 408, headers := [], body := .bytes [], apiError := none }

def securityHeaders : HeaderMap :=
  [("x-content-type-options", .fromStatic "nosniff" (by decide)),
    ("x-frame-options", .fromStatic "DENY" (by decide)),
    ("strict-transport-security",
      .fromStatic "max-age=31536000; includeSubDomains" (by decide))]

def AddSecurityHeaders.onResponse (response : Response) : Response :=
  { response with headers :=
      securityHeaders.foldl (fun headers line => headers.insert line.1 line.2) response.headers }

/-- `SetRequestIdLayer`: `makeRequestId` is `MakeRequestUuid` at the time of one request. -/
def SetRequestId.onRequest (makeRequestId : HeaderValue) (req : Request E) : Request E :=
  match req.headers.get xRequestId with
  | some _ => req
  | none => { req with headers := req.headers.insert xRequestId makeRequestId }

/-- `PropagateRequestIdLayer`, with the id that was on the request. -/
def PropagateRequestId.onResponse (id : Option HeaderValue) (response : Response) : Response :=
  match response.headers.get xRequestId, id with
  | none, some id => { response with headers := response.headers.insert xRequestId id }
  | _, _ => response

/-- `TimeoutLayer`, around what has become of a request. -/
def Passage.inTime (passage : Passage) : Passage :=
  match passage.result with
  | .hangs => { passage with result := .responds requestTimeout }
  | _ => passage

/-- `CatchPanicLayer`, with what the panic is answered by. -/
def Passage.caught (answer : Response) (passage : Passage) : Passage :=
  match passage.result with
  | .panics => { passage with result := .responds answer }
  | _ => passage

/-- Four layers of `tower-http`, as what they make of a service. -/
structure TowerHttp (E : Type) where
  timeout : (Request E → Passage) → Request E → Passage
  catchPanic : Response → (Request E → Passage) → Request E → Passage
  setRequestId : HeaderValue → (Request E → Passage) → Request E → Passage
  propagateRequestId : (Request E → Passage) → Request E → Passage

/-- What is documented of them. -/
structure TowerHttp.Documented (tower : TowerHttp E) : Prop where
  timeout : ∀ inner req, tower.timeout inner req = (inner req).inTime
  catchPanic : ∀ answer inner req, tower.catchPanic answer inner req = (inner req).caught answer
  setRequestId : ∀ makeRequestId inner req, tower.setRequestId makeRequestId inner req =
    inner (SetRequestId.onRequest makeRequestId req)
  propagateRequestId : ∀ inner req, tower.propagateRequestId inner req =
    (inner req).mapResponse (PropagateRequestId.onResponse (req.headers.get xRequestId))

def Layer.pass (tower : TowerHttp E) (lib : Jsonwebtoken E) (others : Layer M E → Middleware E Site)
    (makeRequestId : HeaderValue) (inner : Request E → Passage) :
    Layer M E → Request E → Passage
  | .recordHttpMetrics, req => inner req
  | .timeout, req => tower.timeout inner req
  | .httpRequestLogging, req => inner req
  | .errorLogging, req =>
    let passage := inner req
    let id := (req.headers.get xRequestId).bind HeaderValue.toStr
    { passage with seen := .errorLogging id :: passage.seen }
  | .catchPanic, req => tower.catchPanic handlePanic inner req
  | .setRequestId, req => tower.setRequestId makeRequestId inner req
  | .propagateRequestId, req => tower.propagateRequestId inner req
  | .postAuthorization hook, req => passCode inner (hook req)
  | .authorization layer, req => passCode inner (layer.middleware (S := Site) lib req)
  | .addSecurityHeaders, req => (inner req).mapResponse AddSecurityHeaders.onResponse
  | layer, req => passCode inner (others layer req)

/-- The router, at the handler of the request. -/
def route (handler : Request E → Result) (req : Request E) : Passage :=
  let result := handler req
  ⟨result, [.handler (req.headers.get xRequestId) result.requestId]⟩

/-- Layers around a service, innermost first. -/
def passAll (tower : TowerHttp E) (lib : Jsonwebtoken E) (others : Layer M E → Middleware E Site)
    (makeRequestId : HeaderValue) (layers : List (Layer M E)) (inner : Request E → Passage) :
    Request E → Passage :=
  layers.foldl (fun inner layer => layer.pass tower lib others makeRequestId inner) inner

def RunArgs.pass (args : RunArgs M E) (tower : TowerHttp E) (lib : Jsonwebtoken E)
    (others : Layer M E → Middleware E Site) (makeRequestId : HeaderValue)
    (handler : Request E → Result) : Request E → Passage :=
  passAll tower lib others makeRequestId args.layers (route handler)

/-! ## Layers that leave the header alone -/

/-- The code responds by itself, or hands on once, and leaves the header alone both ways. -/
def Code.KeepsId (id : Option HeaderValue) : Code E S → Prop
  | .respond _ => True
  | .next req k => req.headers.get xRequestId = id ∧ ∀ response, ∃ response',
      k response = .respond response' ∧
      response'.headers.get xRequestId = response.headers.get xRequestId
  | .authFailure _ _ k => KeepsId id k

/-- The request did not get to a handler, or it got there with the id it had, and the response
came back with the id it had. -/
def KeepsId (layer : (Request E → Passage) → Request E → Passage) : Prop :=
  ∀ inner req, (layer inner req).seen = [] ∨
    ∃ handed : Request E, handed.headers.get xRequestId = req.headers.get xRequestId ∧
      (layer inner req).seen = (inner handed).seen ∧
      (layer inner req).result.requestId = (inner handed).result.requestId

theorem passCode_keepsId {middleware : Middleware E S}
    (h : ∀ req, Code.KeepsId (req.headers.get xRequestId) (middleware req)) :
    KeepsId fun inner req => passCode inner (middleware req) := by
  intro inner req
  have hcode := h req
  simp only
  generalize middleware req = code at hcode
  induction code with
  | respond response => exact .inl rfl
  | next handed k =>
    refine .inr ⟨handed, hcode.1, ?_⟩
    rw [passCode]
    cases hresult : (inner handed).result with
    | responds response =>
      obtain ⟨response', hk, hid⟩ := hcode.2 response
      simp [hk, passCode, Result.requestId, hid]
    | panics | hangs => simp [hresult]
  | authFailure method status k ih => exact ih hcode

theorem mapResponse_seen (f : Response → Response) (passage : Passage) :
    (passage.mapResponse f).seen = passage.seen := by
  rw [Passage.mapResponse]
  cases passage.result <;> rfl

theorem mapResponse_requestId (f : Response → Response) (passage : Passage)
    (h : ∀ response, passage.result = .responds response →
      (f response).headers.get xRequestId = response.headers.get xRequestId) :
    (passage.mapResponse f).seen = passage.seen ∧
      (passage.mapResponse f).result.requestId = passage.result.requestId := by
  rw [Passage.mapResponse]
  cases hresult : passage.result with
  | responds response => exact ⟨rfl, h response hresult⟩
  | panics | hangs => simp [hresult]

theorem authorization_keepsId (lib : Jsonwebtoken E) (layer : AuthorizationLayer M E)
    (req : Request E) :
    Code.KeepsId (req.headers.get xRequestId) (layer.middleware (S := S) lib req) := by
  rw [AuthorizationLayer.middleware]
  cases layer.checkRequest lib req with
  | mk outcome extensions =>
    cases outcome with
    | allow => exact ⟨rfl, fun response => ⟨response, rfl, rfl⟩⟩
    | unauthorized | forbidden => exact trivial

/-- What is assumed of the code that is not the platform's. -/
structure Discreet (others : Layer M E → Middleware E Site) (args : RunArgs M E) : Prop where
  others : ∀ layer req, Code.KeepsId (req.headers.get xRequestId) (others layer req)
  hook : ∀ hook, args.postAuthorization = some hook →
    ∀ req, Code.KeepsId (req.headers.get xRequestId) (hook req)

/-- The layers that have nothing to do with request ids. -/
def Layer.Unrelated : Layer M E → Prop
  | .errorLogging | .setRequestId | .propagateRequestId => False
  | _ => True

section

variable {tower : TowerHttp E} {lib : Jsonwebtoken E} {others : Layer M E → Middleware E Site}
  {args : RunArgs M E} {makeRequestId : HeaderValue}

theorem postAuthorization_of_mem {hook : Middleware E Site}
    (h : .postAuthorization hook ∈ args.layers) : args.postAuthorization = some hook := by
  have hinner : .postAuthorization hook ∉ args.inner := by
    simp only [RunArgs.inner, List.mem_append]
    split <;> split <;> simp
  simpa [RunArgs.layers, RunArgs.behind, hinner] using h

theorem addSecurityHeaders_requestId (response : Response) :
    (AddSecurityHeaders.onResponse response).headers.get xRequestId =
      response.headers.get xRequestId := by
  simp [AddSecurityHeaders.onResponse, securityHeaders, HeaderMap.get_insert, xRequestId]

theorem Passage.inTime_requestId (passage : Passage) :
    passage.inTime.seen = passage.seen ∧
      passage.inTime.result.requestId = passage.result.requestId := by
  obtain ⟨result, seen⟩ := passage
  cases result <;> exact ⟨rfl, rfl⟩

theorem Passage.caught_requestId (passage : Passage) :
    (passage.caught handlePanic).seen = passage.seen ∧
      (passage.caught handlePanic).result.requestId = passage.result.requestId := by
  obtain ⟨result, seen⟩ := passage
  cases result <;> exact ⟨rfl, rfl⟩

theorem Layer.pass_keepsId (htower : tower.Documented) (hdiscreet : Discreet others args)
    {layer : Layer M E} (hlayer : layer ∈ args.layers) (hunrelated : layer.Unrelated) :
    KeepsId fun inner => layer.pass tower lib others makeRequestId inner := by
  cases layer with
  | errorLogging | setRequestId | propagateRequestId => exact hunrelated.elim
  | recordHttpMetrics | httpRequestLogging => exact fun inner req => .inr ⟨req, rfl, rfl, rfl⟩
  | timeout =>
    -- the response it makes up has no id, nor has that of `catchPanic`
    refine fun inner req => .inr ⟨req, rfl, ?_⟩
    simp only [Layer.pass, htower.timeout]
    exact (inner req).inTime_requestId
  | catchPanic =>
    refine fun inner req => .inr ⟨req, rfl, ?_⟩
    simp only [Layer.pass, htower.catchPanic]
    exact (inner req).caught_requestId
  | postAuthorization hook =>
    exact passCode_keepsId (hdiscreet.hook hook (postAuthorization_of_mem hlayer))
  | authorization layer => exact passCode_keepsId (authorization_keepsId lib layer)
  | addSecurityHeaders =>
    refine fun inner req => .inr ⟨req, rfl, ?_⟩
    exact mapResponse_requestId _ _ fun response _ => addSecurityHeaders_requestId response
  | trace | compression | requestBodyLimit | cors =>
    exact passCode_keepsId (hdiscreet.others _)

theorem passAll_append (layers more : List (Layer M E)) (inner : Request E → Passage) :
    passAll tower lib others makeRequestId (layers ++ more) inner =
      passAll tower lib others makeRequestId more
        (passAll tower lib others makeRequestId layers inner) :=
  List.foldl_append

theorem passAll_keepsId {layers : List (Layer M E)}
    (h : ∀ layer ∈ layers, KeepsId fun inner => layer.pass tower lib others makeRequestId inner) :
    KeepsId (passAll tower lib others makeRequestId layers) := by
  induction layers using List.reverseRecOn with
  | nil => exact fun inner req => .inr ⟨req, rfl, rfl, rfl⟩
  | append_singleton layers layer ih =>
    intro inner req
    rw [passAll_append]
    rcases h layer (by simp) _ req with hnone | ⟨handed, hid, hseen, hresult⟩
    · exact .inl hnone
    · rcases ih (fun l hl => h l (by simp [hl])) inner handed with hnone | ⟨r, hr, hseen', hresult'⟩
      · exact .inl (hseen.trans hnone)
      · exact .inr ⟨r, hr.trans hid, hseen.trans hseen', hresult.trans hresult'⟩

/-! ### Every answer is a response -/

/-- A request that ends in `bad` behind some code ends so behind what the code hands on to. -/
theorem result_of_passCode {inner : Request E → Passage} {bad : Result}
    (hbad : ∀ response, bad ≠ .responds response) {code : Code E S}
    (h : (passCode inner code).result = bad) : ∃ req, (inner req).result = bad := by
  induction code with
  | respond response => exact absurd h.symm (hbad response)
  | next req k ih =>
    rw [passCode] at h
    cases hresult : (inner req).result with
    | responds response => exact ih response (by simpa [hresult] using h)
    | panics | hangs => exact ⟨req, by simpa [hresult] using h⟩
  | authFailure method status k ih => exact ih h

theorem result_of_mapResponse {f : Response → Response} {passage : Passage} {bad : Result}
    (hbad : ∀ response, bad ≠ .responds response) (h : (passage.mapResponse f).result = bad) :
    passage.result = bad := by
  rw [Passage.mapResponse] at h
  cases hresult : passage.result with
  | responds response => exact absurd (by simpa [hresult] using h.symm) (hbad (f response))
  | panics | hangs => simpa [hresult] using h

/-- No layer panics or hangs by itself. Only two layers answer for what is inside, each for one way
of not answering. -/
theorem result_of_pass (htower : tower.Documented) {layer : Layer M E}
    {inner : Request E → Passage} {bad : Result} (hbad : ∀ response, bad ≠ .responds response)
    {req : Request E} (h : (layer.pass tower lib others makeRequestId inner req).result = bad) :
    ∃ req, (inner req).result = bad := by
  cases layer with
  | recordHttpMetrics | httpRequestLogging | errorLogging => exact ⟨req, h⟩
  | setRequestId =>
    rw [Layer.pass, htower.setRequestId] at h
    exact ⟨_, h⟩
  | timeout =>
    rw [Layer.pass, htower.timeout, Passage.inTime] at h
    cases hresult : (inner req).result with
    | responds _ | panics => exact ⟨req, by simpa [hresult] using h⟩
    | hangs => exact absurd (by simpa [hresult] using h.symm) (hbad requestTimeout)
  | catchPanic =>
    rw [Layer.pass, htower.catchPanic, Passage.caught] at h
    cases hresult : (inner req).result with
    | responds _ | hangs => exact ⟨req, by simpa [hresult] using h⟩
    | panics => exact absurd (by simpa [hresult] using h.symm) (hbad handlePanic)
  | propagateRequestId =>
    rw [Layer.pass, htower.propagateRequestId] at h
    exact ⟨req, result_of_mapResponse hbad h⟩
  | addSecurityHeaders => exact ⟨req, result_of_mapResponse hbad h⟩
  | postAuthorization _ | authorization _ | trace | compression | requestBodyLimit | cors =>
    exact result_of_passCode hbad h

theorem setRequestId_get (makeRequestId : HeaderValue) (req : Request E) :
    (SetRequestId.onRequest makeRequestId req).headers.get xRequestId =
      some ((req.headers.get xRequestId).getD makeRequestId) := by
  rw [SetRequestId.onRequest]
  cases hid : req.headers.get xRequestId with
  | some id => exact hid
  | none => simp [HeaderMap.get_insert]

theorem propagateRequestId_get (id : Option HeaderValue) (passage : Passage)
    (h : ∃ response, passage.result = .responds response) :
    (passage.mapResponse (PropagateRequestId.onResponse id)).result.requestId =
      passage.result.requestId.or id := by
  obtain ⟨response, hresult⟩ := h
  simp only [Passage.mapResponse, hresult, Result.requestId, PropagateRequestId.onResponse]
  cases hown : response.headers.get xRequestId with
  | some own => simp [hown]
  | none => cases id <;> simp [hown, HeaderMap.get_insert]

/-- A list of layers that turns an ending into a response leaves none of it. -/
theorem passAll_result_ne (htower : tower.Documented) {layers : List (Layer M E)} {bad : Result}
    (hbad : ∀ response, bad ≠ .responds response) {turns : Layer M E} (hmem : turns ∈ layers)
    (hturns : ∀ inner req, (turns.pass tower lib others makeRequestId inner req).result ≠ bad)
    (inner : Request E → Passage) (req : Request E) :
    (passAll tower lib others makeRequestId layers inner req).result ≠ bad := by
  induction layers using List.reverseRecOn generalizing req with
  | nil => cases hmem
  | append_singleton layers layer ih =>
    rw [passAll_append]
    rcases List.mem_append.mp hmem with hmem | hmem
    · intro h
      obtain ⟨req', hreq'⟩ := result_of_pass htower hbad h
      exact ih hmem req' hreq'
    · cases List.mem_singleton.mp hmem
      exact hturns _ req

theorem timeout_result_ne (htower : tower.Documented) (inner : Request E → Passage)
    (req : Request E) :
    (Layer.timeout.pass tower lib others makeRequestId inner req).result ≠ .hangs := by
  rw [Layer.pass, htower.timeout, Passage.inTime]
  cases hresult : (inner req).result <;> simp [hresult]

theorem catchPanic_result_ne (htower : tower.Documented) (inner : Request E → Passage)
    (req : Request E) :
    (Layer.catchPanic.pass tower lib others makeRequestId inner req).result ≠ .panics := by
  rw [Layer.pass, htower.catchPanic, Passage.caught]
  cases hresult : (inner req).result <;> simp [hresult]

theorem responds_of_ne {result : Result} (hpanics : result ≠ .panics) (hhangs : result ≠ .hangs) :
    ∃ response, result = .responds response := by
  cases result with
  | responds response => exact ⟨response, rfl⟩
  | panics => exact absurd rfl hpanics
  | hangs => exact absurd rfl hhangs

/-! ## The whole stack -/

namespace RunArgs

/-- Up to and with `TraceLayer`. -/
def insideErrorLogging (args : RunArgs M E) : List (Layer M E) :=
  (if args.metrics then [.recordHttpMetrics] else []) ++ [.timeout] ++
    (if args.httpLoggingEnabled then [.httpRequestLogging] else []) ++ [.trace]

def insideSetRequestId (args : RunArgs M E) : List (Layer M E) :=
  args.insideErrorLogging ++ [.errorLogging, .catchPanic, .compression]

def outsidePropagateRequestId (args : RunArgs M E) : List (Layer M E) :=
  .requestBodyLimit :: args.postAuthorization.toList.map .postAuthorization ++
    args.authorization.toList.map .authorization ++ [.addSecurityHeaders, .cors]

theorem layers_eq (args : RunArgs M E) : args.layers =
    args.insideSetRequestId ++ [.setRequestId, .propagateRequestId] ++
      args.outsidePropagateRequestId := by
  simp [layers, behind, inner, insideSetRequestId, insideErrorLogging, outsidePropagateRequestId]

end RunArgs

/-- The request got to a handler. -/
def Passage.Reached (passage : Passage) : Prop := ∃ id own, .handler id own ∈ passage.seen

/-- The handler set the header itself. -/
def Passage.HandlerSets (passage : Passage) : Prop :=
  ∃ id own, .handler id (some own) ∈ passage.seen

def Sight.Of (id : HeaderValue) : Sight → Prop
  | .handler saw _ => saw = some id
  | .errorLogging saw => saw = id.toStr

/-- There is an id on the response, and it is the one everybody saw. -/
def Passage.SameId (passage : Passage) : Prop :=
  ∃ id, passage.result.requestId = some id ∧ ∀ sight ∈ passage.seen, sight.Of id

theorem passAll_keepsId_of_mem (htower : tower.Documented) (hdiscreet : Discreet others args)
    {layers : List (Layer M E)}
    (hlayers : ∀ layer ∈ layers, layer ∈ args.layers ∧ layer.Unrelated) :
    KeepsId (passAll tower lib others makeRequestId layers) :=
  passAll_keepsId fun layer hlayer =>
    Layer.pass_keepsId htower hdiscreet (hlayers layer hlayer).1 (hlayers layer hlayer).2

theorem insideErrorLogging_unrelated {layer : Layer M E} (h : layer ∈ args.insideErrorLogging) :
    layer ∈ args.layers ∧ layer.Unrelated := by
  refine ⟨by rw [RunArgs.layers_eq, RunArgs.insideSetRequestId]; simp [h], ?_⟩
  simp only [RunArgs.insideErrorLogging, List.mem_append, List.mem_singleton] at h
  rcases h with ((h | rfl) | h) | rfl
  · split at h <;> simp at h
    exact h ▸ trivial
  · exact trivial
  · split at h <;> simp at h
    exact h ▸ trivial
  · exact trivial

theorem outsidePropagateRequestId_unrelated {layer : Layer M E}
    (h : layer ∈ args.outsidePropagateRequestId) : layer ∈ args.layers ∧ layer.Unrelated := by
  refine ⟨by rw [RunArgs.layers_eq]; simp [h], ?_⟩
  simp only [RunArgs.outsidePropagateRequestId, List.mem_append, List.mem_cons, List.mem_map,
    List.not_mem_nil, or_false] at h
  rcases h with ((rfl | ⟨hook, -, rfl⟩) | ⟨layer, -, rfl⟩) | rfl | rfl <;> exact trivial

/-- Inside `SetRequestIdLayer` everybody sees the id of the request. Nothing between the layer that
sets the id and the one that logs it changes it. -/
theorem inside_seen (htower : tower.Documented) (hdiscreet : Discreet others args)
    (handler : Request E → Result) {req : Request E} {id : HeaderValue}
    (hid : req.headers.get xRequestId = some id) {passage : Passage}
    (hpassage : passage =
      passAll tower lib others makeRequestId args.insideSetRequestId (route handler) req)
    (hreached : passage.Reached) :
    ∃ own, passage.seen = [.errorLogging id.toStr, .handler (some id) own] ∧
      passage.result.requestId = own := by
  have hmiddle : ∀ layer ∈ [Layer.catchPanic, Layer.compression],
      layer ∈ args.layers ∧ layer.Unrelated := by
    intro layer hlayer
    simp only [List.mem_cons, List.not_mem_nil, or_false] at hlayer
    refine ⟨?_, by rcases hlayer with rfl | rfl <;> exact trivial⟩
    rw [RunArgs.layers_eq, RunArgs.insideSetRequestId]
    rcases hlayer with rfl | rfl <;> simp
  obtain ⟨saw, own, hreached⟩ := hreached
  rw [RunArgs.insideSetRequestId, List.append_cons, passAll_append, passAll_append] at hpassage
  rcases passAll_keepsId_of_mem htower hdiscreet hmiddle _ req with
    hnone | ⟨logged, hlogged, hseen, hresult⟩
  · rw [hpassage, hnone] at hreached
    cases hreached
  · rw [← hpassage] at hseen hresult
    change passage.seen = .errorLogging ((logged.headers.get xRequestId).bind HeaderValue.toStr) ::
      (passAll tower lib others makeRequestId args.insideErrorLogging (route handler) logged).seen
        at hseen
    rw [hlogged, hid, Option.bind_some] at hseen
    rcases passAll_keepsId_of_mem htower hdiscreet (fun _ => insideErrorLogging_unrelated)
      (route handler) logged with hnone | ⟨handed, hhanded, hseen', hresult'⟩
    · rw [hseen, hnone] at hreached
      simp at hreached
    · refine ⟨(handler handed).requestId, ?_, hresult.trans hresult'⟩
      rw [hseen, hseen', route, hhanded, hlogged, hid]

theorem inside_responds (htower : tower.Documented) (args : RunArgs M E) (lib : Jsonwebtoken E)
    (others : Layer M E → Middleware E Site) (makeRequestId : HeaderValue)
    (inner : Request E → Passage) (req : Request E) : ∃ response,
      (passAll tower lib others makeRequestId args.insideSetRequestId inner req).result =
        .responds response := by
  refine responds_of_ne ?_ ?_
  · exact passAll_result_ne htower (by simp) (by simp [RunArgs.insideSetRequestId])
      (catchPanic_result_ne htower) _ req
  · exact passAll_result_ne htower (by simp)
      (by simp [RunArgs.insideSetRequestId, RunArgs.insideErrorLogging])
      (timeout_result_ne htower) _ req

/-- **Who sees what.** The error log and the handler see the id the request arrived with, or else
a new one; the client sees the one the handler set, or else the one the request arrived with. -/
theorem pass_eq (htower : tower.Documented) (hdiscreet : Discreet others args)
    (handler : Request E → Result) (req : Request E) {passage : Passage}
    (hpassage : passage = args.pass tower lib others makeRequestId handler req)
    (hreached : passage.Reached) :
    ∃ id own, id = (req.headers.get xRequestId).getD makeRequestId ∧
      passage.seen = [.errorLogging id.toStr, .handler (some id) own] ∧
      passage.result.requestId = own.or (req.headers.get xRequestId) := by
  rw [RunArgs.pass, RunArgs.layers_eq, passAll_append, passAll_append] at hpassage
  rcases passAll_keepsId_of_mem htower hdiscreet (fun _ => outsidePropagateRequestId_unrelated) _
    req with hnone | ⟨handed, hhanded, hseen, hresult⟩
  · obtain ⟨_, _, hreached⟩ := hreached
    rw [hpassage, hnone] at hreached
    cases hreached
  · rw [← hpassage] at hseen hresult
    -- the id is set inside of where it is propagated, which reads the request as it came
    have hpair : ∀ inner (r : Request E),
        passAll tower lib others makeRequestId [.setRequestId, .propagateRequestId] inner r =
          (inner (SetRequestId.onRequest makeRequestId r)).mapResponse
            (PropagateRequestId.onResponse (r.headers.get xRequestId)) := by
      intro inner r
      refine (htower.propagateRequestId _ r).trans ?_
      exact congrArg (Passage.mapResponse _) (htower.setRequestId makeRequestId inner r)
    rw [hpair] at hseen hresult
    rw [mapResponse_seen] at hseen
    rw [propagateRequestId_get _ _ (inside_responds htower args lib others makeRequestId _ _),
      hhanded] at hresult
    obtain ⟨own, hseen', hresult'⟩ := inside_seen htower hdiscreet handler
      (setRequestId_get makeRequestId handed) rfl (by rwa [Passage.Reached, ← hseen])
    rw [hhanded] at hseen'
    exact ⟨_, own, rfl, hseen.trans hseen', by rw [hresult, hresult']⟩

end

/-- **When client, handler and log see the same request id.** Of a request that got to a handler
that leaves the header to the platform: iff it arrived with an id. -/
theorem same_id_iff (args : RunArgs M E) (tower : TowerHttp E) (htower : tower.Documented)
    (lib : Jsonwebtoken E) (others : Layer M E → Middleware E Site)
    (hdiscreet : Discreet others args) (makeRequestId : HeaderValue)
    (handler : Request E → Result) (req : Request E)
    (hreached : (args.pass tower lib others makeRequestId handler req).Reached)
    (hleaves : ¬ (args.pass tower lib others makeRequestId handler req).HandlerSets) :
    (args.pass tower lib others makeRequestId handler req).SameId ↔
      (req.headers.get xRequestId).isSome := by
  obtain ⟨id, own, hid, hseen, hresult⟩ := pass_eq htower hdiscreet handler req rfl hreached
  have hown : own = none := by
    cases own with
    | none => rfl
    | some own => exact absurd ⟨some id, own, by rw [hseen]; simp⟩ hleaves
  rw [Passage.SameId, hseen, hresult, hown, Option.none_or]
  constructor
  · rintro ⟨sent, hsent, -⟩
    rw [hsent]
    rfl
  · intro hsome
    obtain ⟨sent, hsent⟩ := Option.isSome_iff_exists.mp hsome
    rw [hsent, Option.getD_some] at hid
    refine ⟨sent, hsent, ?_⟩
    simp [Sight.Of, hid]

/-! ### One request, with an id and without -/

def bareStack : RunArgs .unasked Unit :=
  { metricsEnabled := false, prometheusEnabled := false, httpLoggingEnabled := false
    authorization := none, postAuthorization := none }

def uuid : HeaderValue := .fromStatic "67e55044-10b1-426f-9247-bb680e5fe0c8" (by decide)

def okHandler : Request Unit → Result :=
  fun _ => .responds { status := 200, headers := [], body := .bytes [], apiError := none }

/-- `tower-http`, as documented. -/
def plainTower : TowerHttp Unit where
  timeout inner req := (inner req).inTime
  catchPanic answer inner req := (inner req).caught answer
  setRequestId makeRequestId inner req := inner (SetRequestId.onRequest makeRequestId req)
  propagateRequestId inner req :=
    (inner req).mapResponse (PropagateRequestId.onResponse (req.headers.get xRequestId))

theorem plainTower_documented : plainTower.Documented where
  timeout _ _ := rfl
  catchPanic _ _ _ := rfl
  setRequestId _ _ _ := rfl
  propagateRequestId _ _ := rfl

def pass200 (headers : HeaderMap) : Passage :=
  bareStack.pass plainTower (.keyless Unit) (fun _ => transparent) uuid okHandler
    { Request.bare .get "/" with headers }

theorem transparent_discreet : Discreet (fun _ => transparent) bareStack where
  others _ _ := ⟨rfl, fun response => ⟨response, rfl, rfl⟩⟩
  hook _ h := nomatch h

def abc123 : HeaderValue := .fromStatic "abc-123" (by decide)

theorem same_id_iff_abc : (pass200 [(xRequestId, abc123)]).SameId := by
  have hseen : (pass200 [(xRequestId, abc123)]).seen =
      [.errorLogging (some "abc-123".toList), .handler (some abc123) none] := by
    decide +kernel
  refine (same_id_iff bareStack plainTower plainTower_documented _ _ transparent_discreet uuid
    okHandler _ ?_ ?_).mpr rfl
  · exact ⟨some abc123, none, by rw [← pass200, hseen]; simp⟩
  · rintro ⟨id, own, hmem⟩
    rw [← pass200, hseen] at hmem
    simp at hmem

/-- An id made by the server stays inside: the layer that would send it out has seen the request
before there was one. -/
theorem fresh_id_unsent : (pass200 []).Reached ∧ ¬ (pass200 []).HandlerSets ∧
    ¬ (pass200 []).SameId := by
  have hseen : (pass200 []).seen = [.errorLogging uuid.toStr, .handler (some uuid) none] := by
    decide +kernel
  have hunsent : (pass200 []).result.requestId = none := by decide +kernel
  refine ⟨⟨some uuid, none, by rw [hseen]; simp⟩, ?_, ?_⟩
  · rintro ⟨id, own, hmem⟩
    rw [hseen] at hmem
    simp at hmem
  · rintro ⟨id, hid, -⟩
    rw [hunsent] at hid
    cases hid

end Launcher
end StanoPlatform
