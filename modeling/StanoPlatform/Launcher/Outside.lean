import StanoPlatform.Axum.ErrorBody
import StanoPlatform.Launcher.RequestId

/-!
# `Launcher/Outside.lean` — what a client can count on

From outside, the stack of `run` is a function from requests to responses. Whatever the handler
does — it may panic or hang — there is a response, and it has the security headers
(`responses_secured`). And what is internal to an error does not come out: handlers that differ in
that alone cannot be told apart (`internals_private`).

This much is assumed of what is layered outside `TimeoutLayer` and, but for `TraceLayer`, outside
`CatchPanicLayer`: the post-authorization hook, the predicates and the validator of the
authorization layer, and the third-party layers return. They are `Code`, which does. A hook that
panics there takes the connection with it, and no header is set.

Of `CorsLayer` it is used that it answers every `OPTIONS` request by itself, and that it leaves all
headers but its own alone (`AnswersPreflights`). Four other layers of `tower-http` are `TowerHttp`,
as in `Launcher/RequestId.lean`. For the second result the third-party layers and the hook must not
look into the extensions of a response (`Blind`), where the error travels.
-/

set_option autoImplicit false

namespace StanoPlatform
namespace Launcher

open Security Axum

variable {M : Matchit} {E S : Type}

/-! ## Security headers -/

theorem getAll_insert (headers : HeaderMap) (name : String) (value : HeaderValue) (other : String) :
    (headers.insert name value).getAll other =
      if other = name then [value] else headers.getAll other := by
  rw [HeaderMap.insert, HeaderMap.getAll_append]
  split_ifs with hother
  · subst hother
    simp [HeaderMap.getAll]
  · have hkept : HeaderMap.getAll (headers.filter (·.1 ≠ name)) other = headers.getAll other := by
      rw [HeaderMap.getAll, HeaderMap.getAll, List.filter_filter]
      congr 1
      refine List.filter_congr fun line _ => ?_
      by_cases hline : line.1 = other <;> simp [hline, hother]
    rw [hkept]
    simp [HeaderMap.getAll, Ne.symm hother]

/-- The headers are set, each of them once. -/
def Secured (response : Response) : Prop :=
  ∀ line ∈ securityHeaders, response.headers.getAll line.1 = [line.2]

theorem secured_onResponse (response : Response) :
    Secured (AddSecurityHeaders.onResponse response) := by
  simp [Secured, AddSecurityHeaders.onResponse, securityHeaders, getAll_insert]

/-- The headers `tower_http::cors` writes. -/
def corsHeaders : List String :=
  ["vary", "access-control-allow-origin", "access-control-allow-credentials",
    "access-control-allow-methods", "access-control-allow-headers", "access-control-max-age",
    "access-control-expose-headers", "access-control-allow-private-network"]

theorem securityHeaders_not_cors : ∀ line ∈ securityHeaders, line.1 ∉ corsHeaders := by
  simp [securityHeaders, corsHeaders]

/-- What is used of `tower_http::cors`: it answers `OPTIONS` by itself, and writes its headers into
the responses to everything else. -/
structure AnswersPreflights (cors : Middleware E S) : Prop where
  preflight : ∀ req, req.method.name = "OPTIONS" → ∃ response, cors req = .respond response
  other : ∀ req, req.method.name ≠ "OPTIONS" → ∃ f : Response → Response,
    cors req = .next req (fun response => .respond (f response)) ∧
    ∀ response name, name ∉ corsHeaders →
      (f response).headers.getAll name = response.headers.getAll name

/-- The stack answers. -/
theorem pass_responds (args : RunArgs M E) (tower : TowerHttp E) (htower : tower.Documented)
    (lib : Jsonwebtoken E) (others : Layer M E → Middleware E Site) (makeRequestId : HeaderValue)
    (handler : Request E → Result) (req : Request E) : ∃ response,
      (args.pass tower lib others makeRequestId handler req).result = .responds response := by
  have hcatch : .catchPanic ∈ args.layers := by
    simp [RunArgs.layers_eq, RunArgs.insideSetRequestId]
  have htimeout : .timeout ∈ args.layers := by
    simp [RunArgs.layers_eq, RunArgs.insideSetRequestId, RunArgs.insideErrorLogging]
  refine responds_of_ne ?_ ?_
  · exact passAll_result_ne htower (by simp) hcatch (catchPanic_result_ne htower) _ req
  · exact passAll_result_ne htower (by simp) htimeout (timeout_result_ne htower) _ req

/-- What is inside the two layers that are always outermost. -/
def RunArgs.insideSecurityHeaders (args : RunArgs M E) : List (Layer M E) :=
  args.behind ++ args.authorization.toList.map .authorization

theorem pass_eq_outermost (args : RunArgs M E) (tower : TowerHttp E) (lib : Jsonwebtoken E)
    (others : Layer M E → Middleware E Site) (makeRequestId : HeaderValue)
    (handler : Request E → Result) (req : Request E) :
    args.pass tower lib others makeRequestId handler req =
      passCode (fun req => (passAll tower lib others makeRequestId args.insideSecurityHeaders
        (route handler) req).mapResponse AddSecurityHeaders.onResponse) (others .cors req) := by
  rw [RunArgs.pass, RunArgs.layers, passAll_append]
  rfl

theorem serve_eq_outermost (args : RunArgs M E) (lib : Jsonwebtoken E)
    (others : Layer M E → Middleware E Site) (router : Service E Site) (req : Request E) :
    serve lib others router args.layers req =
      (others .cors req).run ((others .addSecurityHeaders).layer
        (serve lib others router args.insideSecurityHeaders)) := by
  rw [RunArgs.layers, serve, List.foldl_append]
  rfl

/-- **Every response is secured.** Whatever the handler does, a request is answered, and unless it
is an `OPTIONS` request, with the security headers, each of them once and as the platform has it. An
`OPTIONS` request gets no further than the CORS layer: there is nothing behind it to be reached, no
check of its token, and no failure to be counted. -/
theorem responses_secured (args : RunArgs M E) (tower : TowerHttp E) (htower : tower.Documented)
    (lib : Jsonwebtoken E) (others : Layer M E → Middleware E Site)
    (hcors : AnswersPreflights (others .cors)) (makeRequestId : HeaderValue)
    (handler : Request E → Result) (router : Service E Site) (req : Request E) :
    (∃ response,
      (args.pass tower lib others makeRequestId handler req).result = .responds response ∧
      (req.method.name ≠ "OPTIONS" → Secured response)) ∧
    (req.method.name = "OPTIONS" →
      (args.pass tower lib others makeRequestId handler req).seen = [] ∧
      (serve lib others router args.layers req).events = []) := by
  refine ⟨?_, fun hoptions => ?_⟩
  · obtain ⟨response, hresponse⟩ :=
      pass_responds args tower htower lib others makeRequestId handler req
    refine ⟨response, hresponse, fun hmethod => ?_⟩
    -- the headers are set inside the CORS layer, which leaves them as they are
    obtain ⟨f, hf, hheaders⟩ := hcors.other req hmethod
    rw [pass_eq_outermost, hf, passCode] at hresponse
    generalize passAll tower lib others makeRequestId args.insideSecurityHeaders (route handler)
      req = passage at hresponse
    obtain ⟨result, seen⟩ := passage
    cases result with
    | panics | hangs => cases hresponse
    | responds inside =>
      cases hresponse
      intro line hline
      rw [hheaders _ _ (securityHeaders_not_cors line hline)]
      exact secured_onResponse inside line hline
  · obtain ⟨response, hresponse⟩ := hcors.preflight req hoptions
    refine ⟨?_, ?_⟩
    · rw [pass_eq_outermost, hresponse, passCode]
    · rw [serve_eq_outermost, hresponse, Code.run]

/-- A CORS layer for no origin at all, and nothing else that is not the platform's. -/
def noOrigins : Layer .unasked Unit → Middleware Unit Site
  | .cors => fun req =>
    if req.method.name = "OPTIONS" then
      .respond { status := 200, headers := [], body := .bytes [], apiError := none }
    else .next req .respond
  | _ => transparent

/-- What a handler cannot turn off. -/
def framed : Result :=
  .responds
    { status := 200
      headers := [("x-frame-options", .fromStatic "ALLOWALL" (by decide))]
      body := .bytes []
      apiError := none }

theorem responses_secured_framed : ∃ response,
    (bareStack.pass plainTower (.keyless Unit) noOrigins uuid (fun _ => framed)
      (.bare .get "/")).result = .responds response ∧ Secured response := by
  have hcors : AnswersPreflights (noOrigins .cors) :=
    { preflight := fun req h => ⟨_, if_pos h⟩
      other := fun req h => ⟨id, if_neg h, fun _ _ _ => rfl⟩ }
  obtain ⟨response, hresponse, hsecured⟩ := (responses_secured bareStack plainTower
    plainTower_documented (.keyless Unit) noOrigins hcors uuid (fun _ => framed) okRouter
    (.bare .get "/")).1
  exact ⟨response, hresponse, hsecured (by decide)⟩

/-! ## Internals -/

/-- Responses that are the same but for the error in their extensions. -/
structure SameOutside (response response' : Response) : Prop where
  status : response.status = response'.status
  headers : response.headers = response'.headers
  body : response.body = response'.body

inductive Result.Alike : Result → Result → Prop
  | responds {response response' : Response} (h : SameOutside response response') :
    Alike (.responds response) (.responds response')
  | panics : Alike .panics .panics
  | hangs : Alike .hangs .hangs

/-- Code that does the same, whatever error is in the extensions of the responses it gets. -/
inductive Code.Alike : Code E S → Code E S → Prop
  | respond {response response' : Response} (h : SameOutside response response') :
    Alike (.respond response) (.respond response')
  | next (req : Request E) {k k' : Response → Code E S}
    (h : ∀ response response', SameOutside response response' → Alike (k response) (k' response')) :
    Alike (.next req k) (.next req k')
  | authFailure (method : Method) (status : Nat) {k k' : Code E S} (h : Alike k k') :
    Alike (.authFailure method status k) (.authFailure method status k')

/-- A middleware that does not look for `ApiError`s. -/
def Blind (middleware : Middleware E S) : Prop :=
  ∀ req, Code.Alike (middleware req) (middleware req)

theorem SameOutside.refl (response : Response) : SameOutside response response := ⟨rfl, rfl, rfl⟩

theorem SameOutside.sent {response response' : Response} (h : SameOutside response response') :
    response.sent = response'.sent := by
  rw [Response.sent, Response.sent, h.status, h.headers, h.body]

theorem SameOutside.intoResponse {error error' : ApiError} (h : SameForClient error error') :
    SameOutside error.intoResponse error'.intoResponse where
  status := by
    have hsame := congrArg ErrorResponse.status h.errorResponse
    rw [ApiError.errorResponse_eq, ApiError.errorResponse_eq] at hsame
    exact hsame
  headers := rfl
  body := congrArg Body.json h.errorResponse

/-- Two services that answer alike. -/
def ServesAlike (inner inner' : Request E → Passage) : Prop :=
  ∀ req, (inner req).result.Alike (inner' req).result

theorem passCode_alike {inner inner' : Request E → Passage} (hinner : ServesAlike inner inner')
    {code code' : Code E S} (h : Code.Alike code code') :
    (passCode inner code).result.Alike (passCode inner' code').result := by
  induction h with
  | respond h => exact .responds h
  | next req h ih =>
    rw [passCode, passCode]
    have hreq := hinner req
    revert hreq
    generalize inner req = passage
    generalize inner' req = passage'
    obtain ⟨result, seen⟩ := passage
    obtain ⟨result', seen'⟩ := passage'
    intro hreq
    cases hreq with
    | responds hresponse => exact ih _ _ hresponse
    | panics => exact .panics
    | hangs => exact .hangs
  | authFailure method status h ih => exact ih

theorem mapResponse_alike {f : Response → Response}
    (hf : ∀ response response', SameOutside response response' →
      SameOutside (f response) (f response'))
    {passage passage' : Passage} (h : passage.result.Alike passage'.result) :
    (passage.mapResponse f).result.Alike (passage'.mapResponse f).result := by
  obtain ⟨result, seen⟩ := passage
  obtain ⟨result', seen'⟩ := passage'
  cases h with
  | responds h => exact .responds (hf _ _ h)
  | panics => exact .panics
  | hangs => exact .hangs

theorem inTime_alike {passage passage' : Passage} (h : passage.result.Alike passage'.result) :
    passage.inTime.result.Alike passage'.inTime.result := by
  obtain ⟨result, seen⟩ := passage
  obtain ⟨result', seen'⟩ := passage'
  cases h with
  | responds h => exact .responds h
  | panics => exact .panics
  | hangs => exact .responds (.refl requestTimeout)

theorem caught_alike (answer : Response) {passage passage' : Passage}
    (h : passage.result.Alike passage'.result) :
    (passage.caught answer).result.Alike (passage'.caught answer).result := by
  obtain ⟨result, seen⟩ := passage
  obtain ⟨result', seen'⟩ := passage'
  cases h with
  | responds h => exact .responds h
  | panics => exact .responds (.refl answer)
  | hangs => exact .hangs

theorem propagateRequestId_alike (id : Option HeaderValue) {response response' : Response}
    (h : SameOutside response response') :
    SameOutside (PropagateRequestId.onResponse id response)
      (PropagateRequestId.onResponse id response') := by
  obtain ⟨status, headers, body, error⟩ := response
  obtain ⟨_, _, _, error'⟩ := response'
  obtain ⟨rfl, rfl, rfl⟩ := h
  cases hown : headers.get xRequestId <;> cases id <;>
    simp only [PropagateRequestId.onResponse, hown] <;> exact ⟨rfl, rfl, rfl⟩

theorem addSecurityHeaders_alike {response response' : Response}
    (h : SameOutside response response') :
    SameOutside (AddSecurityHeaders.onResponse response)
      (AddSecurityHeaders.onResponse response') :=
  ⟨h.status, by rw [AddSecurityHeaders.onResponse, h.headers]; rfl, h.body⟩

theorem authorization_blind (lib : Jsonwebtoken E) (layer : AuthorizationLayer M E) :
    Blind (layer.middleware (S := S) lib) := by
  intro req
  rw [AuthorizationLayer.middleware]
  cases layer.checkRequest lib req with
  | mk outcome extensions =>
    cases outcome with
    | allow => exact .next _ fun _ _ h => .respond h
    | unauthorized | forbidden => exact .authFailure _ _ (.respond (.refl _))

section

variable {tower : TowerHttp E} {lib : Jsonwebtoken E} {others : Layer M E → Middleware E Site}
  {args : RunArgs M E} {makeRequestId : HeaderValue}

/-- **No layer makes a difference.** None does more with the error than log it. -/
theorem Layer.pass_alike (htower : tower.Documented) (hblind : ∀ layer, Blind (others layer))
    {layer : Layer M E} (hhook : ∀ hook, layer = .postAuthorization hook → Blind hook)
    {inner inner' : Request E → Passage} (hinner : ServesAlike inner inner') :
    ServesAlike (layer.pass tower lib others makeRequestId inner)
      (layer.pass tower lib others makeRequestId inner') := by
  intro req
  have hreq := hinner req
  cases layer with
  | recordHttpMetrics | httpRequestLogging => exact hreq
  | errorLogging => exact hreq
  | setRequestId =>
    rw [Layer.pass, Layer.pass, htower.setRequestId, htower.setRequestId]
    exact hinner _
  | timeout =>
    rw [Layer.pass, Layer.pass, htower.timeout, htower.timeout]
    exact inTime_alike hreq
  | catchPanic =>
    rw [Layer.pass, Layer.pass, htower.catchPanic, htower.catchPanic]
    exact caught_alike handlePanic hreq
  | propagateRequestId =>
    rw [Layer.pass, Layer.pass, htower.propagateRequestId, htower.propagateRequestId]
    exact mapResponse_alike (fun _ _ => propagateRequestId_alike _) hreq
  | addSecurityHeaders => exact mapResponse_alike (fun _ _ => addSecurityHeaders_alike) hreq
  | postAuthorization hook => exact passCode_alike hinner (hhook hook rfl req)
  | authorization layer => exact passCode_alike hinner (authorization_blind lib layer req)
  | trace | compression | requestBodyLimit | cors => exact passCode_alike hinner (hblind _ req)

theorem passAll_alike (htower : tower.Documented) (hblind : ∀ layer, Blind (others layer))
    {layers : List (Layer M E)} (hhook : ∀ hook, .postAuthorization hook ∈ layers → Blind hook)
    {inner inner' : Request E → Passage} (hinner : ServesAlike inner inner') :
    ServesAlike (passAll tower lib others makeRequestId layers inner)
      (passAll tower lib others makeRequestId layers inner') := by
  induction layers using List.reverseRecOn with
  | nil => exact hinner
  | append_singleton layers layer ih =>
    rw [passAll_append, passAll_append]
    have hinside := ih fun hook hmem => hhook hook (List.mem_append_left _ hmem)
    exact Layer.pass_alike htower hblind (fun hook h => hhook hook (by simp [h])) hinside

end

/-- What a handler may do instead, for the client to see no difference. -/
inductive SameHandling : Result → Result → Prop
  | same (result : Result) : SameHandling result result
  | failed {error error' : ApiError} (h : SameForClient error error') :
    SameHandling (.responds error.intoResponse) (.responds error'.intoResponse)

theorem SameHandling.alike {result result' : Result} (h : SameHandling result result') :
    result.Alike result' := by
  cases h with
  | failed h => exact .responds (.intoResponse h)
  | same =>
    cases result with
    | responds response => exact .responds (.refl _)
    | panics => exact .panics
    | hangs => exact .hangs

/-- **Internals are private.** Handlers that differ in what is internal to their errors are the same
to every client, behind the whole stack. -/
theorem internals_private (args : RunArgs M E) (tower : TowerHttp E) (htower : tower.Documented)
    (lib : Jsonwebtoken E) (others : Layer M E → Middleware E Site)
    (hblind : ∀ layer, Blind (others layer))
    (hhook : ∀ hook, args.postAuthorization = some hook → Blind hook)
    (makeRequestId : HeaderValue) (handler handler' : Request E → Result)
    (hhandler : ∀ req, SameHandling (handler req) (handler' req)) (req : Request E) :
    ∃ response response',
      (args.pass tower lib others makeRequestId handler req).result = .responds response ∧
      (args.pass tower lib others makeRequestId handler' req).result = .responds response' ∧
      response.sent = response'.sent := by
  obtain ⟨response, hresponse⟩ :=
    pass_responds args tower htower lib others makeRequestId handler req
  obtain ⟨response', hresponse'⟩ :=
    pass_responds args tower htower lib others makeRequestId handler' req
  have halike : ServesAlike (args.pass tower lib others makeRequestId handler)
      (args.pass tower lib others makeRequestId handler') :=
    passAll_alike htower hblind (fun hook h => hhook hook (postAuthorization_of_mem h))
      fun req => (hhandler req).alike
  have hreq := halike req
  rw [hresponse, hresponse'] at hreq
  cases hreq with
  | responds h => exact ⟨response, response', hresponse, hresponse', h.sent⟩

def failing (message : String) : Request Unit → Result :=
  fun _ => .responds (ApiError.internal message).intoResponse

theorem internals_private_failing : ∃ response response',
    (bareStack.pass plainTower (.keyless Unit) (fun _ => transparent) uuid
      (failing "no space left on device") (.bare .get "/")).result = .responds response ∧
    (bareStack.pass plainTower (.keyless Unit) (fun _ => transparent) uuid
      (failing "key not found: s3-secret") (.bare .get "/")).result = .responds response' ∧
    response.sent = response'.sent :=
  internals_private bareStack plainTower plainTower_documented (.keyless Unit)
    (fun _ => transparent) (fun _ _ => .next _ fun _ _ h => .respond h) nofun uuid _ _
    (fun _ => .failed .internal) _

end Launcher
end StanoPlatform
