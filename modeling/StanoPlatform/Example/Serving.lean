import StanoPlatform.Example.Rest

/-!
# `Example/Serving.lean` — the app under load

Requests of any number of clients at once, each of them a task of its own, on one database. Each
request sends at most one statement, so what the clients see is what they would see were the
requests served one after another (`app_linearizable`), and a widget that was written is found as it
was written, or as somebody has written it since (`acknowledged_write_is_read`).

A 500 of a request that has sent a statement, and a 408, do not say what has become of the
statement: it may have taken effect, take effect later, or never (`Settles`).

Of the layers that `run` puts around the app there are two: the authorization layer, and the time
limit, as the event that a request's time is up. The others answer on their own account or change
headers, and send no statement. A request whose client goes away is dropped where it waits. It
arrives with its body: one that is still waiting for it has sent nothing, and a 408 that it gets is
not among the events unless the request, when read, has a statement to send.
-/

set_option autoImplicit false

namespace StanoPlatform
namespace Example

open Lib Axum Security

variable {M : Matchit} {crates : Crates} {lib : Nat → Jsonwebtoken AppClaims}
  {layer : AuthorizationLayer M AppClaims}

/-- **What a request owes.** -/
def AppServes (crates : Crates) (lib : Nat → Jsonwebtoken AppClaims)
    (layer : AuthorizationLayer M AppClaims) (registry : Registry) (incoming : Incoming)
    (response : Response) (registry' : Registry) : Prop :=
  match incoming.wants crates lib layer with
  | .answered answer => response = answer ∧ registry' = registry
  | .asks call stripped => ∃ answer, Serves registry call answer registry' ∧
      response = render crates stripped answer

/-- A response that says what has become of the request. -/
def Settles (crates : Crates) (lib : Nat → Jsonwebtoken AppClaims)
    (layer : AuthorizationLayer M AppClaims) (incoming : Incoming) (response : Response) : Prop :=
  match incoming.wants crates lib layer with
  | .answered _ => True
  | .asks _ _ => response.status ≠ 500 ∧ response.status ≠ 408

abbrev serviceImpl : WidgetService := widgetServiceImpl seaOrmWidgetRepository

variable {db : Database}

/-- The requests of clients, on a database. -/
abbrev App (db : Database) (ι : Type) : Type :=
  Clients db.State ι Incoming Response Statement Statement.Answer

abbrev AppEvent (db : Database) (ι : Type) : Type :=
  ClientEvent ι Incoming Statement db.Luck String

/-- `TimeoutLayer` is around the router, and the authorization layer around both. -/
def AppEvent.step {ι : Type} [DecidableEq ι] (db : Database) (crates : Crates)
    (lib : Nat → Jsonwebtoken AppClaims) (layer : AuthorizationLayer M AppClaims) :
    App db ι → AppEvent db ι → Option (App db ι) :=
  ClientEvent.step (app crates lib layer serviceImpl) (db.setting crates.timedOut)

theorem strip_status (hrouting : crates.Routing) (stripped : Bool) (response : Response) :
    (strip crates stripped response).status = response.status := by
  cases stripped with
  | false => rfl
  | true =>
    rw [strip, if_pos rfl, hrouting.stripBody]

theorem render_internal (hrouting : crates.Routing) (stripped : Bool) (text : String) :
    (render crates stripped (.error (.internal text))).status = 500 :=
  strip_status hrouting stripped _

theorem app_atMostOnce (hdb : db.Documented) (hrouting : crates.Routing) (incoming : Incoming) :
    AtMostOnce (Settles crates lib layer) (AppServes crates lib layer)
      (fun state => (db.table state).registry) (db.setting crates.timedOut) incoming
      (app crates lib layer serviceImpl incoming) := by
  rw [app_eq crates lib layer hrouting]
  cases hwants : incoming.wants crates lib layer with
  | answered response =>
    refine .done response fun registry => ?_
    rw [AppServes, hwants]
    exact ⟨rfl, rfl⟩
  | asks call stripped =>
    have hunsettled : ∀ response : Response, response.status = 500 ∨ response.status = 408 →
        ¬ Settles crates lib layer incoming response := by
      intro response hstatus
      rw [Settles, hwants]
      tauto
    rw [Wants.task, WidgetService.call_eq, Task.call_bind]
    refine .call _ _ (fun state state' ans luck hperform => ?_) (fun text => ?_)
      (hunsettled _ (.inr hrouting.timedOut))
    · refine ⟨render crates stripped (call.reply ans), rfl, ?_⟩
      -- the statement did its work, or was refused and the answer is a 500
      rcases (hdb.executes _ _ _ _ _ hperform).serves with hserves | ⟨hsame, text, hreply⟩
      · left
        rw [AppServes, hwants]
        exact ⟨_, hserves, rfl⟩
      · refine .inr ⟨congrArg Table.registry hsame, hunsettled _ (.inl ?_)⟩
        rw [hreply]
        exact render_internal hrouting stripped text
    · refine ⟨render crates stripped (.error (.internal text)), ?_,
        hunsettled _ (.inl (render_internal hrouting stripped text))⟩
      exact congrArg (fun reply => Task.done (render crates stripped reply)) (call.reply_lost text)

variable {ι : Type} [DecidableEq ι]

/-- **The app is linearizable.** Whatever the requests, however their statements interleave, fail or
outlive their requests: there is one row of requests, each served as `AppServes` has it on the names
the one before has left, that leads from the table at first to the table at last, explains every
response that settles its request, and never reverses two requests of which one was settled before
the other began. -/
theorem app_linearizable (db : Database) (hdb : db.Documented) (crates : Crates)
    (hrouting : crates.Routing) (lib : Nat → Jsonwebtoken AppClaims)
    (layer : AuthorizationLayer M AppClaims) (state : db.State) (events : List (AppEvent db ι))
    (m : App db ι)
    (hrun : run (AppEvent.step db crates lib layer) (Clients.start state) events = some m) :
    ∃ served, Linearization (Settles crates lib layer) (AppServes crates lib layer)
      (db.table state).registry m.history served (db.table m.shared).registry :=
  linearizable (app_atMostOnce hdb hrouting) hrun

/-! ### A run of it -/

def dropSuffix? (suffix s : String) : Option String :=
  (suffix.toList.isSuffixOf? s.toList).map String.ofList

def dropPrefix? (start s : String) : Option String :=
  (start.toList.isPrefixOf? s.toList).map String.ofList

def sprocketId : String := "00000000-0000-0000-0000-000000000001"

/-- axum's 405, with its `allow` header. -/
def someMethodNotAllowed (allow : List String) : Response :=
  let bytes := utf8 (",".intercalate allow)
  { status := 405
    headers := if legal : bytes.all legalByte = true then [("allow", ⟨bytes, legal⟩)] else []
    body := .bytes []
    apiError := none }

def someStripBody (response : Response) : Response := { response with body := .bytes [] }

def someCall (methods : MethodRouter) (captured : String) (req : Request AppClaims) : Db Response :=
  let notAllowed := .done (someMethodNotAllowed methods.allow)
  match req.method.name with
  | "GET" => (methods.get?.map fun handler => handler captured req).getD notAllowed
  | "HEAD" =>
    (methods.get?.map fun handler => do return someStripBody (← handler captured req)).getD
      notAllowed
  | "POST" => (methods.post?.map fun handler => handler captured req).getD notAllowed
  | "PUT" => (methods.put?.map fun handler => handler captured req).getD notAllowed
  | _ => notAllowed

/-- The crates, for one body and one id. -/
def someCrates : Crates where
  parseStr text := if text = sprocketId then some 1 else none
  display uuid := if uuid = 1 then sprocketId else "ffffffff-ffff-ffff-ffff-ffffffffffff"
  captures route path :=
    match dropSuffix? "/{id}" route with
    | some folder => (dropPrefix? (folder ++ "/") path).filter fun captured =>
        captured ≠ "" ∧ '/' ∉ captured.toList
    | none => if path = route then some "" else none
  path := .ok
  json headers body :=
    if headers.get "content-type" ≠ some (.fromStatic "application/json" visible_json) then
      .error ⟨415, "Expected request with application/json", "MissingJsonContentType"⟩
    else if body ≠ utf8 "\x7b\"name\":\"sprocket\"\x7d" then
      .error ⟨400, "Failed to parse the request body as JSON", "JsonSyntaxError"⟩
    else .ok "sprocket"
  widgetJson widget := utf8 widget.name
  widgetsJson widgets := widgets.flatMap fun widget => utf8 widget.name
  call := someCall
  notFound := { status := 404, headers := [], body := .bytes [], apiError := none }
  methodNotAllowed := someMethodNotAllowed
  stripBody := someStripBody
  timedOut := { status := 408, headers := [], body := .bytes [], apiError := none }

theorem someCrates_routing : someCrates.Routing where
  get methods captured req hmethod := by simp only [someCrates, someCall, hmethod]
  head methods captured req hmethod := by simp only [someCrates, someCall, hmethod]
  post methods captured req hmethod := by simp only [someCrates, someCall, hmethod]
  put methods captured req hmethod := by simp only [someCrates, someCall, hmethod]
  other methods captured req hmethod := by
    simp only [List.mem_cons, List.not_mem_nil, or_false, not_or] at hmethod
    obtain ⟨hget, hhead, hpost, hput⟩ := hmethod
    simp only [someCrates, someCall]
  stripBody _ := rfl
  timedOut := rfl

/-- A layer that lets everybody through. -/
def openLayer : AuthorizationLayer .unasked AppClaims :=
  buildLayer [] .permitAll ⟨"", "", 3600⟩ none none

def createSprocket : Incoming where
  req := { Request.bare .post "/widgets" with
    headers := [("content-type", .fromStatic "application/json" visible_json)]
    body := utf8 "\x7b\"name\":\"sprocket\"\x7d" }
  newId := 1
  now := 0

def getSprocket : Incoming :=
  { req := Request.bare .get ("/widgets/" ++ sprocketId), newId := 2, now := 0 }

def noLuck : tableDatabase.Luck := (⟨[], ""⟩ : Luck)

/-- A widget is created, and then asked for. -/
def sprocketEvents : List (AppEvent tableDatabase Nat) :=
  [.arrives 0 createSprocket, .performs 0 noLuck, .answers 0,
    .arrives 1 getSprocket, .performs 1 noLuck, .answers 1]

def sprocketResponse : Response := jsonResponse (utf8 "sprocket")

def sprocketHistory : List (Observed Nat Incoming Response) :=
  [.invoked 0 createSprocket, .responded 0 sprocketResponse,
    .invoked 1 getSprocket, .responded 1 sprocketResponse]

theorem sprocketEvents_run : ∃ m : App tableDatabase Nat,
    run (AppEvent.step tableDatabase someCrates (fun _ => .keyless AppClaims) openLayer)
      (Clients.start Table.empty) sprocketEvents = some m ∧ m.history = sprocketHistory :=
  ⟨_, rfl, rfl⟩

/-- The connection is lost and the request answered with a 500; the statement takes effect later,
between one that asks for the widget and the next. -/
def lateEvents : List (AppEvent tableDatabase Nat) :=
  [.arrives 0 createSprocket, .fails 0 "connection reset by peer", .answers 0,
    .arrives 1 getSprocket, .performs 1 noLuck, .answers 1,
    .lands 0 (.insert ⟨1, "sprocket"⟩) noLuck,
    .arrives 2 getSprocket, .performs 2 noLuck, .answers 2]

def lateHistory : List (Observed Nat Incoming Response) :=
  [.invoked 0 createSprocket,
    .responded 0 (ApiError.service (.internal "connection reset by peer")).intoResponse,
    .invoked 1 getSprocket, .responded 1 (ApiError.service .notFound).intoResponse,
    .invoked 2 getSprocket, .responded 2 sprocketResponse]

theorem app_linearizable_late : ∃ table served,
    Linearization (Settles someCrates (fun _ => .keyless AppClaims) openLayer)
      (AppServes someCrates (fun _ => .keyless AppClaims) openLayer)
      Table.empty.registry lateHistory served table := by
  obtain ⟨m, hrun, hhistory⟩ : ∃ m : App tableDatabase Nat,
      run (AppEvent.step tableDatabase someCrates (fun _ => .keyless AppClaims) openLayer)
        (Clients.start Table.empty) lateEvents = some m ∧ m.history = lateHistory := ⟨_, rfl, rfl⟩
  obtain ⟨served, h⟩ := app_linearizable tableDatabase tableDatabase_documented someCrates
    someCrates_routing (fun _ => .keyless AppClaims) openLayer Table.empty lateEvents m hrun
  exact ⟨_, served, hhistory ▸ h⟩

/-! ## Reading what was written -/

/-- The request asks to give the widget of an id a name. -/
def Incoming.Writes (crates : Crates) (lib : Nat → Jsonwebtoken AppClaims)
    (layer : AuthorizationLayer M AppClaims) (incoming : Incoming) (id : Uuid) (name : String) :
    Prop :=
  ∃ call stripped, incoming.wants crates lib layer = .asks call stripped ∧ call.Writes id name

theorem AppServes.writes {registry registry' : Registry} {incoming : Incoming}
    {response : Response} (h : AppServes crates lib layer registry incoming response registry')
    (id : Uuid) :
    registry' id = registry id ∨ ∃ name, incoming.Writes crates lib layer id name ∧
      registry' id = some name := by
  rw [AppServes] at h
  cases hwants : incoming.wants crates lib layer with
  | answered answer =>
    rw [hwants] at h
    exact .inl (congrFun h.2 id)
  | asks call stripped =>
    rw [hwants] at h
    obtain ⟨answer, hserves, -⟩ := h
    refine (hserves.writes id).imp_right ?_
    rintro ⟨name, hwrites, hname⟩
    exact ⟨name, ⟨call, stripped, hwants, hwrites⟩, hname⟩

theorem render_status (hrouting : crates.Routing) {stripped : Bool}
    {answer : Except ServiceError WidgetAnswer}
    (h : (render crates stripped answer).status = 200) : ∃ shown, answer = .ok shown := by
  cases answer with
  | ok shown => exact ⟨shown, rfl⟩
  | error e =>
    rw [render, strip_status hrouting] at h
    cases e <;> simp [ApiError.intoResponse, ApiError.parts] at h

/-- **An acknowledged write is read.** A request that looks at a widget (to get it, to list all or
to update it), which begins after a write of that widget was acknowledged with a 200, is answered
with a 500, a 408 or the widget, once, by the name it was given then, by the one that the request
gives it, or by a name that somebody else gives it: a request that was not settled before the write
began and began before the answer. -/
theorem acknowledged_write_is_read (db : Database) (hdb : db.Documented) (crates : Crates)
    (hrouting : crates.Routing) (lib : Nat → Jsonwebtoken AppClaims)
    (layer : AuthorizationLayer M AppClaims) (state : db.State) (events : List (AppEvent db ι))
    (m : App db ι)
    (hrun : run (AppEvent.step db crates lib layer) (Clients.start state) events = some m)
    (id : Uuid) (name : String) (i j : ι) (write read : Incoming) (call : WidgetCall)
    (stripped : Bool) (acknowledgement answer : Response)
    (hwrite : write.Writes crates lib layer id name)
    (hread : read.wants crates lib layer = .asks call stripped) (hreads : call.Reads id)
    (hinvoked : .invoked i write ∈ m.history) (hack : acknowledgement.status = 200)
    (hbefore : [.responded i acknowledgement, .invoked j read].Sublist m.history)
    (hanswer : .responded j answer ∈ m.history) :
    answer.status = 500 ∨ answer.status = 408 ∨
      ∃ shown found, answer = render crates stripped (.ok shown) ∧ shown.Shows id found ∧
        (found = name ∨ call.Writes id found ∨ ∃ k third, .invoked k third ∈ m.history ∧
          third.Writes crates lib layer id found ∧
          (∀ r, Settles crates lib layer third r →
            ¬ [.responded k r, .invoked i write].Sublist m.history) ∧
          ¬ [.responded j answer, .invoked k third].Sublist m.history) := by
  obtain ⟨served, hserved⟩ := linearizable (app_atMostOnce hdb hrouting) hrun
  have hwrites : ∀ registry incoming response registry',
      AppServes crates lib layer registry incoming response registry' →
      registry' id = registry id ∨
        ∃ v, (∃ n, incoming.Writes crates lib layer id n ∧ v = some n) ∧ registry' id = v := by
    intro registry incoming response registry' h
    refine (h.writes id).imp_right ?_
    rintro ⟨n, hn, hid⟩
    exact ⟨some n, ⟨n, hn, rfl⟩, hid⟩
  by_cases hsettles : answer.status = 500 ∨ answer.status = 408
  · exact hsettles.imp_right .inl
  obtain ⟨writeCall, writeStripped, hwants, hcall⟩ := hwrite
  have hsettlesWrite : Settles crates lib layer write acknowledgement := by
    rw [Settles, hwants]
    simp [hack]
  have hsettlesRead : Settles crates lib layer read answer := by
    rw [Settles, hread]
    exact not_or.mp hsettles
  obtain ⟨before, left, found, after, hfirst, hsecond, hfound⟩ :=
    hserved.fresh hwrites hinvoked hsettlesWrite hbefore hanswer hsettlesRead
  -- the write was done
  have hleft : left id = some name := by
    rw [AppServes, hwants] at hfirst
    obtain ⟨reply, hserves, rfl⟩ := hfirst
    obtain ⟨shown, rfl⟩ := render_status hrouting hack
    exact hserves.written hcall
  have hname : ∃ n, found id = some n ∧ (n = name ∨ ∃ k third, .invoked k third ∈ m.history ∧
      third.Writes crates lib layer id n ∧
      (∀ r, Settles crates lib layer third r →
        ¬ [.responded k r, .invoked i write].Sublist m.history) ∧
      ¬ [.responded j answer, .invoked k third].Sublist m.history) := by
    rcases hfound with hsame | ⟨k, third, v, hthird, ⟨n, hn, rfl⟩, hv, hlate, hearly⟩
    · exact ⟨name, hsame.trans hleft, .inl rfl⟩
    · exact ⟨n, hv, .inr ⟨k, third, hthird, hn, hlate, hearly⟩⟩
  obtain ⟨n, hn, hwho⟩ := hname
  rw [AppServes, hread] at hsecond
  obtain ⟨reply, hserves, rfl⟩ := hsecond
  obtain ⟨shown, shownName, rfl, hshows, rfl | hown⟩ := hserves.read hreads hn
  · exact .inr (.inr ⟨shown, shownName, rfl, hshows, hwho.imp_right .inr⟩)
  · exact .inr (.inr ⟨shown, shownName, rfl, hshows, .inr (.inl hown)⟩)

theorem acknowledged_sprocket_is_read :
    sprocketResponse.status = 500 ∨ sprocketResponse.status = 408 ∨ ∃ shown found,
      sprocketResponse = render someCrates false (.ok shown) ∧ shown.Shows 1 found ∧
      (found = "sprocket" ∨ WidgetCall.Writes (.get ⟨1⟩) 1 found ∨
        ∃ k third, .invoked k third ∈ sprocketHistory ∧
          third.Writes someCrates (fun _ => .keyless AppClaims) openLayer 1 found ∧
          (∀ r, Settles someCrates (fun _ => .keyless AppClaims) openLayer third r →
            ¬ [.responded k r, .invoked 0 createSprocket].Sublist sprocketHistory) ∧
          ¬ [.responded 1 sprocketResponse, .invoked k third].Sublist sprocketHistory) := by
  obtain ⟨m, hrun, hhistory⟩ := sprocketEvents_run
  rw [← hhistory]
  refine acknowledged_write_is_read tableDatabase tableDatabase_documented someCrates
    someCrates_routing (fun _ => .keyless AppClaims) openLayer Table.empty sprocketEvents m hrun 1
    "sprocket" 0 1 createSprocket getSprocket (.get ⟨1⟩) false sprocketResponse sprocketResponse
    ⟨.create 1 "sprocket", false, rfl, rfl, rfl⟩ rfl rfl ?_ rfl ?_ ?_
  all_goals simp [hhistory, sprocketHistory]

end Example
end StanoPlatform
