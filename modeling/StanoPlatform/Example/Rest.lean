import StanoPlatform.Axum.Layer
import StanoPlatform.Example.Registry

/-!
# `Example/Rest.lean` — the handlers, the routes and the authorization chain

The REST adapter of the example app: five handlers behind four routes, and the chain of rules in
front of them. axum, tower-http, serde and the uuid crate are a parameter (`Crates`); what axum
documents of method routers and of `HEAD`, and tower-http of its time limit, is `Crates.Routing`.

What a request comes to can be said without running anything (`wants`): an answer there is already,
or one call of the service. The app does just that (`app_eq`).

From `stano-example-app/rest-api/src/lib.rs`, with `AppJson` and `AppPath` of `stano-axum`. Which
route a path belongs to, what a body decodes to and how a widget is written as JSON are fields of
`Crates`; none of the results of this file depends on what they are. What the handlers log is left
out.
-/

set_option autoImplicit false

namespace StanoPlatform
namespace Example

open Lib Axum Security

/-- The app's claims, beside the standard ones. -/
structure AppClaims where
  role : String

/-! ## What is not the app's -/

/-- A handler, for what its route captures. -/
abbrev Handler : Type := String → Request AppClaims → Db Response

/-- What is registered for a path. -/
structure MethodRouter where
  get? : Option Handler := none
  post? : Option Handler := none
  put? : Option Handler := none

/-- The methods that there is something for. -/
def MethodRouter.allow (methods : MethodRouter) : List String :=
  (if methods.get?.isSome then ["GET", "HEAD"] else []) ++
    (if methods.post?.isSome then ["POST"] else []) ++
    (if methods.put?.isSome then ["PUT"] else [])

/-- The rejection of an axum extractor. -/
structure Rejection where
  status : Nat
  bodyText : String
  rejectionType : String

structure WidgetResponse where
  id : String
  name : String
  deriving DecidableEq

/-- What is used of axum, tower-http, serde and the uuid crate. -/
structure Crates where
  -- `Uuid::parse_str`, and what `{}` writes
  parseStr : String → Option Uuid
  display : Uuid → String
  -- whether a route of the router matches a path, and what `{id}` stands for then
  captures : String → String → Option String
  -- `Path::<String>`, of that
  path : String → Except Rejection String
  -- `Json::<CreateWidgetRequest>` of the headers and the body, by its only field;
  -- `UpdateWidgetRequest` has the same
  json : HeaderMap → List UInt8 → Except Rejection String
  -- `serde_json::to_vec`
  widgetJson : WidgetResponse → List UInt8
  widgetsJson : List WidgetResponse → List UInt8
  -- a request at the method router of the route that matches it
  call : MethodRouter → String → Request AppClaims → Db Response
  -- what axum answers by itself: where no route matches, and where the one that does has only these
  -- methods
  notFound : Response
  methodNotAllowed : List String → Response
  -- what axum leaves of the response to a `HEAD`
  stripBody : Response → Response
  -- what `TimeoutLayer` answers
  timedOut : Response

/-- What axum and tower-http document. -/
structure Crates.Routing (crates : Crates) : Prop where
  get : ∀ methods captured req, req.method.name = "GET" → crates.call methods captured req =
    (methods.get?.map fun handler => handler captured req).getD
      (.done (crates.methodNotAllowed methods.allow))
  -- a `HEAD` is served by the handler for `GET`, without the body
  head : ∀ methods captured req, req.method.name = "HEAD" → crates.call methods captured req =
    (methods.get?.map fun handler => do return crates.stripBody (← handler captured req)).getD
      (.done (crates.methodNotAllowed methods.allow))
  post : ∀ methods captured req, req.method.name = "POST" → crates.call methods captured req =
    (methods.post?.map fun handler => handler captured req).getD
      (.done (crates.methodNotAllowed methods.allow))
  put : ∀ methods captured req, req.method.name = "PUT" → crates.call methods captured req =
    (methods.put?.map fun handler => handler captured req).getD
      (.done (crates.methodNotAllowed methods.allow))
  other : ∀ methods captured req, req.method.name ∉ ["GET", "HEAD", "POST", "PUT"] →
    crates.call methods captured req = .done (crates.methodNotAllowed methods.allow)
  stripBody : ∀ response, crates.stripBody response = { response with body := .bytes [] }
  timedOut : crates.timedOut.status = 408

/-! ## Extractors -/

variable (crates : Crates)

def AppPath.fromRequestParts (captured : String) : Except ApiError String :=
  match crates.path captured with
  | .ok value => .ok value
  | .error rejection =>
    .error (.pathExtraction rejection.status rejection.bodyText rejection.rejectionType)

def AppJson.fromRequest (req : Request AppClaims) : Except ApiError String :=
  match crates.json req.headers req.body with
  | .ok value => .ok value
  | .error rejection =>
    .error (.jsonExtraction rejection.status rejection.bodyText rejection.rejectionType)

theorem visible_json : (utf8 "application/json").all visibleByte = true := by decide

/-- `Json(..).into_response()`, for what it is written as. -/
def jsonResponse (bytes : List UInt8) : Response :=
  { status := 200
    headers := [("content-type", .fromStatic "application/json" visible_json)]
    body := .bytes bytes
    apiError := none }

/-! ## Handlers -/

namespace WidgetResponse

/-- `WidgetResponse::from` -/
def ofWidget (widget : Widget) : WidgetResponse :=
  { id := crates.display widget.id.uuid, name := widget.name }

end WidgetResponse

/-- `Ok(AppJson(..))`, or the service's error by way of `?`. -/
def widgetResponse : Except ServiceError Widget → Response
  | .ok widget => jsonResponse (crates.widgetJson (.ofWidget crates widget))
  | .error e => (ApiError.service e).intoResponse

def widgetsResponse : Except ServiceError (List Widget) → Response
  | .ok widgets => jsonResponse (crates.widgetsJson (widgets.map (.ofWidget crates)))
  | .error e => (ApiError.service e).intoResponse

/-- `WidgetId::from_str(&id).map_err(..)` -/
def widgetIdFromStr (id : String) : Except ApiError WidgetId :=
  match crates.parseStr id with
  | some uuid => .ok ⟨uuid⟩
  | none => .error (.service (.invalidInput "invalid widget id"))

/-- `"ok"` -/
def healthResponse : Response :=
  { status := 200
    headers := [("content-type", .fromStatic "text/plain; charset=utf-8" (by decide))]
    body := .bytes (utf8 "ok")
    apiError := none }

def healthHandler : Handler := fun _ _ => .done healthResponse

section

variable (service : WidgetService)

def createWidgetHandler (newId : Uuid) : Handler := fun _ req =>
  match AppJson.fromRequest crates req with
  | .error rejection => .done rejection.intoResponse
  | .ok name => do
    let widget ← service.create newId name
    return widgetResponse crates widget

def getWidgetHandler : Handler := fun captured _ =>
  match AppPath.fromRequestParts crates captured with
  | .error rejection => .done rejection.intoResponse
  | .ok id =>
    match widgetIdFromStr crates id with
    | .error e => .done e.intoResponse
    | .ok widgetId => do
      let widget ← service.get widgetId
      return widgetResponse crates widget

def updateWidgetHandler : Handler := fun captured req =>
  match AppPath.fromRequestParts crates captured with
  | .error rejection => .done rejection.intoResponse
  | .ok id =>
    match AppJson.fromRequest crates req with
    | .error rejection => .done rejection.intoResponse
    | .ok name =>
      match widgetIdFromStr crates id with
      | .error e => .done e.intoResponse
      | .ok widgetId => do
        let saved ← service.update { id := widgetId, name }
        return widgetResponse crates saved

def listWidgetsAdminHandler : Handler := fun _ req =>
  match AppSecurityContext.fromRequestParts req with
  | .error rejection => .done rejection.intoResponse
  | .ok _ => do
    let widgets ← service.list
    return widgetsResponse crates widgets

/-! ## Routes -/

/-- The paths with a handler. -/
inductive Endpoint where
  | health
  | widgets
  | widget
  | adminWidgets
  deriving DecidableEq, Repr

def Endpoint.path : Endpoint → String
  | .health => "/health"
  | .widgets => "/widgets"
  | .widget => "/widgets/{id}"
  | .adminWidgets => "/admin/widgets"

/-- What `collect_routes` makes of the submissions. -/
def Endpoint.methods (newId : Uuid) : Endpoint → MethodRouter
  | .health => { get? := some healthHandler }
  | .widgets => { post? := some (createWidgetHandler crates service newId) }
  | .widget =>
    { get? := some (getWidgetHandler crates service)
      put? := some (updateWidgetHandler crates service) }
  | .adminWidgets => { get? := some (listWidgetsAdminHandler crates service) }

/-- The route that matches a path; no path matches two. -/
def endpoint (path : String) : Option (Endpoint × String) :=
  [Endpoint.health, .widgets, .widget, .adminWidgets].findSome? fun e =>
    (crates.captures e.path path).map (e, ·)

def router (newId : Uuid) (req : Request AppClaims) : Db Response :=
  match endpoint crates req.path with
  | some (e, captured) => crates.call (e.methods crates service newId) captured req
  | none => .done crates.notFound

end

/-! ## The app -/

/-- Middleware around what waits for the database. -/
def awaitCode {E S : Type} (next : Request E → Db Response) : Code E S → Db Response
  | .respond response => .done response
  | .next req k => do
    let response ← next req
    awaitCode next (k response)
  | .authFailure _ _ k => awaitCode next k

/-- A request as it arrives: what `WidgetId::new()` draws for it, and when it is checked. -/
structure Incoming where
  req : Request AppClaims
  newId : Uuid
  now : Nat

variable {M : Matchit} (lib : Nat → Jsonwebtoken AppClaims) (layer : AuthorizationLayer M AppClaims)

/-- `authorization.layer(router.with_state(ctx))` -/
def app (service : WidgetService) (incoming : Incoming) : Db Response :=
  awaitCode (router crates service incoming.newId)
    (layer.middleware (S := Unit) (lib incoming.now) incoming.req)

def buildAuthorization (M : Matchit) (jwtConfig : JwtConfig) :
    Except (AuthorizationBuildError M) (AuthorizationLayer M AppClaims) :=
  (AuthorizationBuilder.new
    |>.requestMatcher "/health"
    |>.permitAll
    |>.requestMatcher "/swagger"
    |>.permitAll
    |>.requestMatcher "/swagger/"
    |>.permitAll
    |>.requestMatcher "/swagger/{*rest}"
    |>.permitAll
    |>.requestMatcher "/api-docs/{*rest}"
    |>.permitAll
    |>.requestMatcher "/admin/{*rest}"
    |>.hasRole (fun c => c.role = "ADMIN")
    |>.anyRequest
    |>.authenticated
    |>.build jwtConfig)

/-! ## What a request wants -/

inductive Wants where
  | answered (response : Response)
  -- `stripped` where the body of the answer is left out
  | asks (call : WidgetCall) (stripped : Bool)

def strip (stripped : Bool) (response : Response) : Response :=
  if stripped then crates.stripBody response else response

/-- What is answered of what the service says. -/
def render (stripped : Bool) : Except ServiceError WidgetAnswer → Response
  | .ok (.widget widget) => strip crates stripped (widgetResponse crates (.ok widget))
  | .ok (.widgets widgets) => strip crates stripped (widgetsResponse crates (.ok widgets))
  | .error e => strip crates stripped (ApiError.service e).intoResponse

def Wants.ofExcept (stripped : Bool) : Except ApiError WidgetCall → Wants
  | .ok call => .asks call stripped
  | .error e => .answered (strip crates stripped e.intoResponse)

/-- The methods of a route. -/
def Endpoint.allow : Endpoint → List String
  | .health | .adminWidgets => ["GET", "HEAD"]
  | .widgets => ["POST"]
  | .widget => ["GET", "HEAD", "PUT"]

/-- A `GET`, or a `HEAD` if `stripped`. -/
def wantsGet (captured : String) (req : Request AppClaims) (stripped : Bool) : Endpoint → Wants
  | .health => .answered (strip crates stripped healthResponse)
  | .widgets => .answered (crates.methodNotAllowed (Endpoint.allow .widgets))
  | .widget => .ofExcept crates stripped do
    let id ← AppPath.fromRequestParts crates captured
    return .get (← widgetIdFromStr crates id)
  | .adminWidgets => .ofExcept crates stripped do
    let _ ← AppSecurityContext.fromRequestParts req
    return .list

def wantsPost (newId : Uuid) (req : Request AppClaims) : Endpoint → Wants
  | .widgets => .ofExcept crates false do
    return .create newId (← AppJson.fromRequest crates req)
  | e => .answered (crates.methodNotAllowed e.allow)

def wantsPut (captured : String) (req : Request AppClaims) : Endpoint → Wants
  | .widget => .ofExcept crates false do
    let id ← AppPath.fromRequestParts crates captured
    let name ← AppJson.fromRequest crates req
    return .update { id := ← widgetIdFromStr crates id, name }
  | e => .answered (crates.methodNotAllowed e.allow)

def wants (newId : Uuid) (req : Request AppClaims) : Wants :=
  match endpoint crates req.path with
  | none => .answered crates.notFound
  | some (e, captured) =>
    match req.method.name with
    | "GET" => wantsGet crates captured req false e
    | "HEAD" => wantsGet crates captured req true e
    | "POST" => wantsPost crates newId req e
    | "PUT" => wantsPut crates captured req e
    | _ => .answered (crates.methodNotAllowed e.allow)

def Wants.task (service : WidgetService) : Wants → Db Response
  | .answered response => .done response
  | .asks call stripped => do return render crates stripped (← service.call call)

theorem render_widget (stripped : Bool) (widget : Except ServiceError Widget) :
    render crates stripped (widget.map .widget) =
      strip crates stripped (widgetResponse crates widget) := by
  cases widget <;> rfl

theorem render_widgets (stripped : Bool) (widgets : Except ServiceError (List Widget)) :
    render crates stripped (widgets.map .widgets) =
      strip crates stripped (widgetsResponse crates widgets) := by
  cases widgets <;> rfl

theorem map_map {α β γ : Type} (asked : Db α) (f : α → β) (g : β → γ) :
    ((asked >>= fun a => pure (f a)) >>= fun b => pure (g b)) = asked >>= fun a => pure (g (f a)) :=
  Task.bind_assoc _ _ _

section

variable (service : WidgetService) (newId : Uuid) (captured : String) (req : Request AppClaims)

theorem asks_get (stripped : Bool) (id : WidgetId) :
    (Wants.asks (.get id) stripped).task crates service =
      service.get id >>= fun widget =>
        pure (strip crates stripped (widgetResponse crates widget)) := by
  rw [Wants.task, WidgetService.call, map_map]
  simp only [render_widget]

theorem asks_create (stripped : Bool) (name : String) :
    (Wants.asks (.create newId name) stripped).task crates service =
      service.create newId name >>= fun widget =>
        pure (strip crates stripped (widgetResponse crates widget)) := by
  rw [Wants.task, WidgetService.call, map_map]
  simp only [render_widget]

theorem asks_update (stripped : Bool) (widget : Widget) :
    (Wants.asks (.update widget) stripped).task crates service =
      service.update widget >>= fun widget =>
        pure (strip crates stripped (widgetResponse crates widget)) := by
  rw [Wants.task, WidgetService.call, map_map]
  simp only [render_widget]

theorem asks_list (stripped : Bool) :
    (Wants.asks .list stripped).task crates service =
      service.list >>= fun widgets =>
        pure (strip crates stripped (widgetsResponse crates widgets)) := by
  rw [Wants.task, WidgetService.call, map_map]
  simp only [render_widgets]

/-- A `GET`, or a `HEAD` if `stripped`. -/
theorem wantsGet_task (stripped : Bool) (e : Endpoint) :
    (wantsGet crates captured req stripped e).task crates service =
      (((e.methods crates service newId).get?.map fun handler =>
        handler captured req >>= fun response => pure (strip crates stripped response)).getD
          (.done (crates.methodNotAllowed e.allow))) := by
  cases e with
  | health => rfl
  | widgets => rfl
  | widget =>
    simp only [wantsGet, Endpoint.methods, Option.map_some, Option.getD_some, getWidgetHandler]
    cases AppPath.fromRequestParts crates captured with
    | error rejection => rfl
    | ok id =>
      simp only [bind, Except.bind]
      -- everything up to here is an answer without a statement
      cases widgetIdFromStr crates id with
      | error e => rfl
      | ok widgetId => exact (asks_get crates service stripped widgetId).trans (map_map _ _ _).symm
  | adminWidgets =>
    simp only [wantsGet, Endpoint.methods, Option.map_some, Option.getD_some,
      listWidgetsAdminHandler]
    cases AppSecurityContext.fromRequestParts req with
    | error rejection => rfl
    | ok context => exact (asks_list crates service stripped).trans (map_map _ _ _).symm

theorem wantsPost_task (e : Endpoint) :
    (wantsPost crates newId req e).task crates service =
      (((e.methods crates service newId).post?.map fun handler => handler captured req).getD
        (.done (crates.methodNotAllowed e.allow))) := by
  cases e with
  | health | widget | adminWidgets => rfl
  | widgets =>
    simp only [wantsPost, Endpoint.methods, Option.map_some, Option.getD_some, createWidgetHandler]
    cases AppJson.fromRequest crates req with
    | error rejection => rfl
    | ok name => exact asks_create crates service newId false name

theorem wantsPut_task (e : Endpoint) :
    (wantsPut crates captured req e).task crates service =
      (((e.methods crates service newId).put?.map fun handler => handler captured req).getD
        (.done (crates.methodNotAllowed e.allow))) := by
  cases e with
  | health | widgets | adminWidgets => rfl
  | widget =>
    simp only [wantsPut, Endpoint.methods, Option.map_some, Option.getD_some, updateWidgetHandler]
    cases AppPath.fromRequestParts crates captured with
    | error rejection => rfl
    | ok id =>
      simp only [bind, Except.bind]
      cases AppJson.fromRequest crates req with
      | error rejection => rfl
      | ok name =>
        cases widgetIdFromStr crates id with
        | error e => rfl
        | ok widgetId => exact asks_update crates service false ⟨widgetId, name⟩

theorem bind_pure (asked : Db Response) : (asked >>= fun response => pure response) = asked := by
  induction asked with
  | done response => rfl
  | call statement k ih => exact congrArg (Task.call statement) (funext ih)

theorem allow_methods (e : Endpoint) : (e.methods crates service newId).allow = e.allow := by
  cases e <;> rfl

/-- **The router does what a request wants.** -/
theorem router_eq (hrouting : crates.Routing) :
    router crates service newId req = (wants crates newId req).task crates service := by
  rw [router, wants]
  cases endpoint crates req.path with
  | none => rfl
  | some found =>
    obtain ⟨e, captured⟩ := found
    dsimp only
    -- by method, as `Crates.Routing` has it
    split
    · rename_i hget
      rw [hrouting.get _ _ _ hget, allow_methods, wantsGet_task crates service newId]
      simp only [strip, Bool.false_eq_true, if_false, bind_pure]
    · rename_i hhead
      rw [hrouting.head _ _ _ hhead, allow_methods, wantsGet_task crates service newId]
      simp only [strip, if_true]
    · rename_i hpost
      rw [hrouting.post _ _ _ hpost, allow_methods]
      exact (wantsPost_task crates service newId captured req e).symm
    · rename_i hput
      rw [hrouting.put _ _ _ hput, allow_methods]
      exact (wantsPut_task crates service newId captured req e).symm
    · rename_i hget hhead hpost hput
      have hother : req.method.name ∉ ["GET", "HEAD", "POST", "PUT"] := by
        simp only [List.mem_cons, List.not_mem_nil, or_false, not_or]
        exact ⟨hget, hhead, hpost, hput⟩
      rw [hrouting.other _ _ _ hother, allow_methods]
      rfl

end

/-! ### Behind the authorization layer -/

def Incoming.wants (incoming : Incoming) : Wants :=
  match layer.checkRequest (lib incoming.now) incoming.req with
  | (.allow, extensions) =>
    Example.wants crates incoming.newId { incoming.req with extensions }
  | (.unauthorized, _) => .answered (ApiError.service .unauthorized).intoResponse
  | (.forbidden, _) => .answered (ApiError.service .forbidden).intoResponse

/-- **The app does what a request wants.** -/
theorem app_eq (hrouting : crates.Routing) (service : WidgetService) (incoming : Incoming) :
    app crates lib layer service incoming =
      (incoming.wants crates lib layer).task crates service := by
  rw [app, Incoming.wants, AuthorizationLayer.middleware]
  cases layer.checkRequest (lib incoming.now) incoming.req with
  | mk outcome extensions =>
    cases outcome with
    | allow =>
      have hnext : ∀ handed, awaitCode (router crates service incoming.newId)
          (Code.next (S := Unit) handed .respond) =
            router crates service incoming.newId handed := fun handed => bind_pure _
      exact (hnext _).trans (router_eq crates service incoming.newId _ hrouting)
    | unauthorized | forbidden => rfl

end Example
end StanoPlatform
