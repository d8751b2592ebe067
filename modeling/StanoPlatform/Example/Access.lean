import StanoPlatform.Axum.Methods
import StanoPlatform.Example.Serving

/-!
# `Example/Access.lean` — who gets at the widgets

The chain of `build_authorization` and the routes of the router are two tables, kept in two places
and matched by two instances of `matchit`. What a caller gets is what both make of the path
together: `Reaches` says it in one table, and `wants_asks_iff` that it is so.

Of the crates it takes what they document of patterns as the app has them: one without parameters
matches itself, `{id}` one segment, and `{*rest}` whatever goes on.

From `build_authorization` and the routes in `stano-example-app/rest-api/src/lib.rs`, and
`AppSecurityContext`. What is assumed of `matchit` is `Matchit.Documented`, of axum's router
`Crates.Documented` and `Crates.Routing`; `jsonwebtoken` is a parameter of which nothing is assumed.
The instances at the end meet all of it.
-/

set_option autoImplicit false

namespace StanoPlatform
namespace Example

open Lib Axum Security

/-! ## What the crates document -/

/-- A path without parameters. -/
def Plain (path : String) : Prop :=
  path.toList.head? = some '/' ∧ ∀ c ∈ path.toList, c ∉ ['{', '}', '*', ':']

instance (path : String) : Decidable (Plain path) :=
  @instDecidableAnd _ _ inferInstance (List.decidableBAll _ path.toList)

/-- A path that goes on where another ends. -/
def Under (path longer : String) : Prop := ∃ rest : String, rest ≠ "" ∧ longer = path ++ rest

theorem Under.starts {path longer other : String} (h : Under path longer)
    (hother : longer = other) : path.toList <+: other.toList := by
  obtain ⟨rest, -, rfl⟩ := h
  exact ⟨rest.toList, hother ▸ String.toList_append.symm⟩

theorem Under.comparable {path other longer : String} (h : Under path longer)
    (hother : Under other longer) : path.toList <+: other.toList ∨ other.toList <+: path.toList :=
  List.prefix_or_prefix_of_prefix (h.starts rfl) (hother.starts rfl)

/-- A path that goes on by one segment. -/
def Segmented (path segment longer : String) : Prop :=
  longer = path ++ segment ∧ segment ≠ "" ∧ '/' ∉ segment.toList

structure Matchit.Documented (M : Matchit) : Prop where
  static : ∀ route, Plain route → ∃ router, M.insert route = .ok router ∧
    ∀ path, M.isMatch router path = true ↔ path = route
  catchAll : ∀ route, Plain route → ∃ router, M.insert (route ++ "/{*rest}") = .ok router ∧
    ∀ path, M.isMatch router path = true ↔ Under (route ++ "/") path

/-- What the router matches by. -/
structure Crates.Documented (crates : Crates) : Prop where
  static : ∀ route path, Plain route →
    crates.captures route path = if path = route then some "" else none
  segment : ∀ route path captured, Plain route →
    (crates.captures (route ++ "/{id}") path = some captured ↔
      Segmented (route ++ "/") captured path)

theorem append_ne {path rest other : String} (h : ¬ path.toList <+: other.toList) :
    path ++ rest ≠ other := by
  rintro rfl
  exact h ⟨rest.toList, String.toList_append.symm⟩

/-! ## The routes -/

variable {crates : Crates}

/-- The paths of an endpoint. -/
def Endpoint.Matches (path captured : String) : Endpoint → Prop
  | .health => path = "/health" ∧ captured = ""
  | .widgets => path = "/widgets" ∧ captured = ""
  | .widget => Segmented "/widgets/" captured path
  | .adminWidgets => path = "/admin/widgets" ∧ captured = ""

theorem captures_eq_some (hcrates : crates.Documented) {path captured : String} {e : Endpoint} :
    crates.captures e.path path = some captured ↔ e.Matches path captured := by
  have hstatic : ∀ route, Plain route →
      (crates.captures route path = some captured ↔ path = route ∧ captured = "") := by
    intro route hplain
    rw [hcrates.static route path hplain]
    by_cases hpath : path = route
    · simp [hpath, eq_comm]
    · simp [hpath]
  cases e with
  | health => exact hstatic "/health" (by decide)
  | widgets => exact hstatic "/widgets" (by decide)
  | widget => exact hcrates.segment "/widgets" path captured (by decide)
  | adminWidgets => exact hstatic "/admin/widgets" (by decide)

/-- No path is of two endpoints. -/
theorem Endpoint.Matches.unique {path captured captured' : String} {e e' : Endpoint}
    (h : e.Matches path captured) (h' : e'.Matches path captured') : e = e' := by
  have hseg : ∀ {captured other : String}, Segmented "/widgets/" captured path → path = other →
      "/widgets/".toList <+: other.toList := by
    rintro captured other ⟨hpath, -, -⟩ rfl
    by_contra hno
    exact append_ne hno hpath.symm
  cases e <;> cases e' <;> try rfl
  all_goals
    simp only [Endpoint.Matches] at h h'
  case widget.health | widget.widgets | widget.adminWidgets =>
    exact absurd (hseg h h'.1) (by decide)
  case health.widget | widgets.widget | adminWidgets.widget =>
    exact absurd (hseg h' h.1) (by decide)
  all_goals exact absurd (h.1.symm.trans h'.1) (by decide)

theorem endpoint_eq_some (hcrates : crates.Documented) {path captured : String} {e : Endpoint} :
    endpoint crates path = some (e, captured) ↔ e.Matches path captured := by
  rw [endpoint]
  constructor
  · intro h
    obtain ⟨e', -, h⟩ := List.exists_of_findSome?_eq_some h
    obtain ⟨captured', hcaptured, heq⟩ := Option.map_eq_some_iff.mp h
    cases heq
    exact (captures_eq_some hcrates).mp hcaptured
  · intro h
    cases hfound : List.findSome? _ _ with
    | none =>
      have hall : ∀ e : Endpoint, e ∈ [Endpoint.health, .widgets, .widget, .adminWidgets] := by
        intro e
        cases e <;> decide
      have hnone := List.findSome?_eq_none_iff.mp hfound e (hall e)
      rw [(captures_eq_some hcrates).mpr h] at hnone
      cases hnone
    | some found =>
      obtain ⟨e', -, h'⟩ := List.exists_of_findSome?_eq_some hfound
      obtain ⟨captured', hcaptured, rfl⟩ := Option.map_eq_some_iff.mp h'
      -- no two endpoints have a path in common, so the order of the list does not matter
      have he : e' = e := ((captures_eq_some hcrates).mp hcaptured).unique h
      subst he
      rw [(captures_eq_some hcrates).mpr h] at hcaptured
      cases hcaptured
      rfl

/-! ## What reaches the service -/

/-- The requests that ask something of the service, where it `mayList` or not. -/
inductive Reaches (crates : Crates) (newId : Uuid) (req : Request AppClaims) (mayList : Prop) :
    WidgetCall → Bool → Prop where
  | create (name : String) (method : req.method.name = "POST") (path : req.path = "/widgets")
    (json : crates.json req.headers req.body = .ok name) :
    Reaches crates newId req mayList (.create newId name) false
  | get (captured text : String) (uuid : Uuid) (stripped : Bool)
    (method : req.method.name = if stripped then "HEAD" else "GET")
    (path : Segmented "/widgets/" captured req.path) (id : crates.path captured = .ok text)
    (parsed : crates.parseStr text = some uuid) :
    Reaches crates newId req mayList (.get ⟨uuid⟩) stripped
  | update (captured text : String) (uuid : Uuid) (name : String)
    (method : req.method.name = "PUT") (path : Segmented "/widgets/" captured req.path)
    (id : crates.path captured = .ok text) (parsed : crates.parseStr text = some uuid)
    (json : crates.json req.headers req.body = .ok name) :
    Reaches crates newId req mayList (.update { id := ⟨uuid⟩, name }) false
  | list (stripped : Bool) (method : req.method.name = if stripped then "HEAD" else "GET")
    (path : req.path = "/admin/widgets") (allowed : mayList) :
    Reaches crates newId req mayList .list stripped

theorem ofExcept_eq_asks {stripped stripped' : Bool} {call : WidgetCall}
    {asked : Except ApiError WidgetCall} :
    Wants.ofExcept crates stripped asked = .asks call stripped' ↔
      asked = .ok call ∧ stripped = stripped' := by
  cases asked <;> simp [Wants.ofExcept]

theorem appPath_eq_ok {captured text : String} :
    AppPath.fromRequestParts crates captured = .ok text ↔ crates.path captured = .ok text := by
  rw [AppPath.fromRequestParts]
  cases crates.path captured <;> simp

theorem appJson_eq_ok {req : Request AppClaims} {name : String} :
    AppJson.fromRequest crates req = .ok name ↔ crates.json req.headers req.body = .ok name := by
  rw [AppJson.fromRequest]
  cases crates.json req.headers req.body <;> simp

theorem widgetIdFromStr_eq_ok {text : String} {id : WidgetId} :
    widgetIdFromStr crates text = .ok id ↔ crates.parseStr text = some id.uuid := by
  rw [widgetIdFromStr]
  cases crates.parseStr text with
  | none => simp
  | some uuid =>
    obtain ⟨uuid'⟩ := id
    simp

theorem bind_eq_ok {ε α β : Type} {x : Except ε α} {f : α → Except ε β} {b : β} :
    x >>= f = .ok b ↔ ∃ a, x = .ok a ∧ f a = .ok b := by
  cases x <;> simp [bind, Except.bind]

section

variable {captured : String} {newId : Uuid} {req : Request AppClaims} {call : WidgetCall}
  {stripped : Bool}

/-- Whether the extractor of the admin's handler finds the context it wants. -/
def HasContext (req : Request AppClaims) : Prop :=
  ∃ context, AppSecurityContext.fromRequestParts req = .ok context

theorem Reaches.of_wantsGet {head : Bool} {e : Endpoint} (hpath : e.Matches req.path captured)
    (hmethod : req.method.name = if head then "HEAD" else "GET")
    (h : wantsGet crates captured req head e = .asks call stripped) :
    Reaches crates newId req (HasContext req) call stripped := by
  cases e with
  | health => cases h
  | widgets => cases h
  | widget =>
    rw [wantsGet, ofExcept_eq_asks, bind_eq_ok] at h
    obtain ⟨⟨text, htext, hcall⟩, rfl⟩ := h
    obtain ⟨id, hid, hcall⟩ := bind_eq_ok.mp hcall
    cases hcall
    exact .get captured text id.uuid head hmethod hpath (appPath_eq_ok.mp htext)
      (widgetIdFromStr_eq_ok.mp hid)
  | adminWidgets =>
    rw [wantsGet, ofExcept_eq_asks, bind_eq_ok] at h
    obtain ⟨⟨context, hcontext, hcall⟩, rfl⟩ := h
    cases hcall
    exact .list head hmethod hpath.1 ⟨context, hcontext⟩

theorem Reaches.of_wantsPost {e : Endpoint} (hpath : e.Matches req.path captured)
    (hmethod : req.method.name = "POST")
    (h : wantsPost crates newId req e = .asks call stripped) :
    Reaches crates newId req (HasContext req) call stripped := by
  cases e with
  | health | widget | adminWidgets => cases h
  | widgets =>
    rw [wantsPost, ofExcept_eq_asks, bind_eq_ok] at h
    obtain ⟨⟨name, hname, hcall⟩, rfl⟩ := h
    cases hcall
    exact .create name hmethod hpath.1 (appJson_eq_ok.mp hname)

theorem Reaches.of_wantsPut {e : Endpoint} (hpath : e.Matches req.path captured)
    (hmethod : req.method.name = "PUT")
    (h : wantsPut crates captured req e = .asks call stripped) :
    Reaches crates newId req (HasContext req) call stripped := by
  cases e with
  | health | widgets | adminWidgets => cases h
  | widget =>
    rw [wantsPut, ofExcept_eq_asks, bind_eq_ok] at h
    obtain ⟨⟨text, htext, hcall⟩, rfl⟩ := h
    obtain ⟨name, hname, hcall⟩ := bind_eq_ok.mp hcall
    obtain ⟨id, hid, hcall⟩ := bind_eq_ok.mp hcall
    cases hcall
    exact .update captured text id.uuid name hmethod hpath (appPath_eq_ok.mp htext)
      (widgetIdFromStr_eq_ok.mp hid) (appJson_eq_ok.mp hname)

theorem Reaches.wants (hcrates : crates.Documented)
    (h : Reaches crates newId req (HasContext req) call stripped) :
    Example.wants crates newId req = .asks call stripped := by
  have hendpoint : ∀ {e : Endpoint} {captured}, e.Matches req.path captured →
      endpoint crates req.path = some (e, captured) := (endpoint_eq_some hcrates).mpr
  cases h with
  | create name hmethod hpath hjson =>
    rw [Example.wants, hendpoint (e := .widgets) ⟨hpath, rfl⟩]
    simp only [hmethod, wantsPost, appJson_eq_ok.mpr hjson]
    rfl
  | get captured text uuid _ hmethod hpath hid hparsed =>
    -- the handler is the same for both methods, and a `HEAD` only strips the body
    have hwants : ∀ head, wantsGet crates captured req head .widget = .asks (.get ⟨uuid⟩) head := by
      intro head
      refine ofExcept_eq_asks.mpr ⟨bind_eq_ok.mpr ⟨text, appPath_eq_ok.mpr hid, ?_⟩, rfl⟩
      exact bind_eq_ok.mpr ⟨⟨uuid⟩, widgetIdFromStr_eq_ok.mpr hparsed, rfl⟩
    rw [Example.wants, hendpoint (e := .widget) hpath]
    cases stripped <;> simpa [hmethod] using hwants _
  | update captured text uuid name hmethod hpath hid hparsed hjson =>
    rw [Example.wants, hendpoint (e := .widget) hpath]
    simp only [hmethod]
    refine ofExcept_eq_asks.mpr ⟨bind_eq_ok.mpr ⟨text, appPath_eq_ok.mpr hid, ?_⟩, rfl⟩
    refine bind_eq_ok.mpr ⟨name, appJson_eq_ok.mpr hjson, ?_⟩
    exact bind_eq_ok.mpr ⟨⟨uuid⟩, widgetIdFromStr_eq_ok.mpr hparsed, rfl⟩
  | list _ hmethod hpath hallowed =>
    obtain ⟨context, hcontext⟩ := hallowed
    have hwants : ∀ head, wantsGet crates "" req head .adminWidgets = .asks .list head := by
      intro head
      exact ofExcept_eq_asks.mpr ⟨bind_eq_ok.mpr ⟨context, hcontext, rfl⟩, rfl⟩
    rw [Example.wants, hendpoint (e := .adminWidgets) ⟨hpath, rfl⟩]
    cases stripped <;> simpa [hmethod] using hwants _

/-- **What the router asks of the service**, in one table. -/
theorem wants_eq_asks (hcrates : crates.Documented) :
    wants crates newId req = .asks call stripped ↔
      Reaches crates newId req (HasContext req) call stripped := by
  refine ⟨fun h => ?_, Reaches.wants hcrates⟩
  rw [wants] at h
  cases hendpoint : endpoint crates req.path with
  | none =>
    rw [hendpoint] at h
    cases h
  | some found =>
    obtain ⟨e, captured⟩ := found
    have hpath := (endpoint_eq_some hcrates).mp hendpoint
    rw [hendpoint] at h
    dsimp only at h
    split at h
    next hmethod => refine .of_wantsGet hpath ?_ h; exact hmethod
    next hmethod => refine .of_wantsGet hpath ?_ h; exact hmethod
    next hmethod => exact .of_wantsPost hpath hmethod h
    next hmethod => exact .of_wantsPut hpath hmethod h
    next => cases h

end

/-! ## The rules -/

theorem under_iff {path longer : String} :
    Under path longer ↔ path.toList <+: longer.toList ∧ longer ≠ path := by
  constructor
  · rintro ⟨rest, hrest, rfl⟩
    refine ⟨⟨rest.toList, String.toList_append.symm⟩, fun heq => hrest ?_⟩
    have hlists := congrArg String.toList heq
    rw [String.toList_append] at hlists
    exact String.toList_injective (List.append_right_eq_self.mp hlists)
  · rintro ⟨⟨rest, hrest⟩, hne⟩
    have hlonger : longer = path ++ String.ofList rest := by
      apply String.toList_injective
      rw [String.toList_append, String.toList_ofList, hrest]
    refine ⟨String.ofList rest, fun hempty => hne ?_, hlonger⟩
    rw [hlonger, hempty, String.append_empty]

instance (path longer : String) : Decidable (Under path longer) := decidable_of_iff' _ under_iff

/-- The paths that are open to everybody. -/
def Public (path : String) : Prop :=
  path = "/health" ∨ path = "/swagger" ∨ path = "/swagger/" ∨ Under "/swagger/" path ∨
    Under "/api-docs/" path

instance (path : String) : Decidable (Public path) := inferInstanceAs (Decidable (_ ∨ _))

def isAdmin (claims : AppClaims) : Bool := claims.role = "ADMIN"

def accessRules : List (Segment AppClaims) :=
  [.requestMatcher "/health" [] .permitAll,
    .requestMatcher "/swagger" [] .permitAll,
    .requestMatcher "/swagger/" [] .permitAll,
    .requestMatcher "/swagger/{*rest}" [] .permitAll,
    .requestMatcher "/api-docs/{*rest}" [] .permitAll,
    .requestMatcher "/admin/{*rest}" [] (.hasRole isAdmin),
    .anyRequest [] .authenticated]

variable {M : Matchit} {lib : Nat → Jsonwebtoken AppClaims} {layer : AuthorizationLayer M AppClaims}
  {jwtConfig : JwtConfig}

theorem buildAuthorization_eq :
    buildAuthorization M jwtConfig = (AuthorizationBuilder.chain accessRules).build jwtConfig :=
  rfl

section

variable {method : Method} {path : String} {closing : Closing AppClaims}

theorem decides_static (hM : Matchit.Documented M) (route : String) (hplain : Plain route) :
    (Segment.requestMatcher route [] closing).decides M method path =
      if path = route then some closing.effect else none := by
  obtain ⟨router, hinsert, hmatch⟩ := hM.static route hplain
  simp [Segment.decides, hinsert, hmatch]

theorem decides_catchAll (hM : Matchit.Documented M) (route pattern folder : String)
    (hplain : Plain route) (hpattern : pattern = route ++ "/{*rest}")
    (hfolder : folder = route ++ "/") :
    (Segment.requestMatcher pattern [] closing).decides M method path =
      if Under folder path then some closing.effect else none := by
  subst hpattern hfolder
  obtain ⟨router, hinsert, hmatch⟩ := hM.catchAll route hplain
  simp [Segment.decides, hinsert, hmatch]

end

/-- The patterns of the chain are plain routes and catch-alls, and both are documented. -/
theorem buildAuthorization_ok (hM : Matchit.Documented M) :
    ∃ layer, buildAuthorization M jwtConfig = .ok layer := by
  have hstatic : ∀ route closing, Plain route →
      (Segment.requestMatcher route [] closing : Segment AppClaims).invalid M = none := by
    intro route closing hplain
    obtain ⟨router, hinsert, -⟩ := hM.static route hplain
    simp [Segment.invalid, hinsert]
  have hcatchAll : ∀ route closing, Plain route →
      (Segment.requestMatcher (route ++ "/{*rest}") [] closing : Segment AppClaims).invalid M =
        none := by
    intro route closing hplain
    obtain ⟨router, hinsert, -⟩ := hM.catchAll route hplain
    simp [Segment.invalid, hinsert]
  rw [buildAuthorization_eq]
  refine ⟨_, build_eq_ok.mpr ⟨List.findSome?_eq_none_iff.mpr ?_, .authenticated, rfl, rfl⟩⟩
  simp only [accessRules, List.forall_mem_cons]
  refine ⟨hstatic _ _ (by decide), hstatic _ _ (by decide), hstatic _ _ (by decide),
    hcatchAll "/swagger" _ (by decide), hcatchAll "/api-docs" _ (by decide),
    hcatchAll "/admin" _ (by decide), rfl, ?_⟩
  simp

theorem findSome?_cons_ite {α β : Type} {f : α → Option β} {a : α} {l : List α} {x : β}
    {c : Prop} [Decidable c] (h : f a = if c then some x else none) :
    (a :: l).findSome? f = if c then some x else l.findSome? f := by
  rw [List.findSome?_cons, h]
  split_ifs <;> rfl

/-- **The rules, by the path alone.** -/
theorem effect_eq (hM : Matchit.Documented M)
    (hbuild : buildAuthorization M jwtConfig = .ok layer) (req : Request AppClaims) :
    layer.effect req =
      if Public req.path then .permitAll
      else if Under "/admin/" req.path then .hasRole isAdmin
      else .authenticated := by
  have heffect : some (layer.effect req) = _ :=
    effect_of_chain (buildAuthorization_eq.symm.trans hbuild) req.method req.path
  have hcatchAll := fun closing => @decides_catchAll M req.method req.path closing hM
  rw [accessRules, findSome?_cons_ite (decides_static hM "/health" (by decide)),
    findSome?_cons_ite (decides_static hM "/swagger" (by decide)),
    findSome?_cons_ite (decides_static hM "/swagger/" (by decide)),
    findSome?_cons_ite (hcatchAll _ "/swagger" "/swagger/{*rest}" "/swagger/" (by decide) rfl rfl),
    findSome?_cons_ite (hcatchAll _ "/api-docs" "/api-docs/{*rest}" "/api-docs/" (by decide)
      rfl rfl),
    findSome?_cons_ite (hcatchAll _ "/admin" "/admin/{*rest}" "/admin/" (by decide) rfl rfl)]
    at heffect
  apply Option.some_inj.mp
  rw [heffect]
  -- the first five rules are the public paths, and the sixth is the folder of the admins
  by_cases hpublic : Public req.path
  · rw [if_pos hpublic]
    rcases hpublic with h | h | h | h | h <;> split_ifs <;> rfl
  · obtain ⟨hhealth, hswagger, hroot, hfiles, hdocs⟩ : _ ∧ _ ∧ _ ∧ _ ∧ _ := by
      simpa only [Public, not_or] using hpublic
    rw [if_neg hpublic, if_neg hhealth, if_neg hswagger, if_neg hroot, if_neg hfiles, if_neg hdocs]
    split_ifs <;> rfl

section

variable (hM : Matchit.Documented M) (hbuild : buildAuthorization M jwtConfig = .ok layer)
  (now : Jsonwebtoken AppClaims) (req : Request AppClaims)

include hM hbuild

theorem allowed_iff :
    layer.Allowed now req ↔ Public req.path ∨ ∃ claims, layer.Identifies now req claims ∧
      (Under "/admin/" req.path → claims.ext.role = "ADMIN") := by
  rw [AuthorizationLayer.Allowed, effect_eq hM hbuild]
  split_ifs with hpublic hadmin
  · simp [Effect.Admits, hpublic]
  · simp [Effect.Admits, hpublic, hadmin, isAdmin]
  · simp [Effect.Admits, hpublic, hadmin]

theorem forbidden_iff :
    layer.Forbidden now req ↔ ¬ Public req.path ∧ Under "/admin/" req.path ∧
      ∃ claims, layer.Identifies now req claims ∧ claims.ext.role ≠ "ADMIN" := by
  rw [AuthorizationLayer.Forbidden, effect_eq hM hbuild]
  split_ifs with hpublic hadmin
  · simp [Effect.Refuses, hpublic]
  · simp [Effect.Refuses, hpublic, hadmin, isAdmin]
  · simp [Effect.Refuses, hadmin]

end

/-! ## Both tables -/

section

variable {newId : Uuid} {req : Request AppClaims} {call : WidgetCall} {stripped : Bool}
  {mayList : Prop}

/-- The three kinds of path that something is asked at. -/
theorem Reaches.path (h : Reaches crates newId req mayList call stripped) :
    req.path = "/widgets" ∨ Under "/widgets/" req.path ∨
      req.path = "/admin/widgets" ∧ call = .list ∧ mayList := by
  cases h with
  | create name _ hpath _ => exact .inl hpath
  | get captured text uuid _ _ hpath _ _ | update captured text uuid name _ hpath _ _ _ =>
    exact .inr (.inl ⟨captured, hpath.2.1, hpath.1⟩)
  | list _ _ hpath hallowed => exact .inr (.inr ⟨hpath, rfl, hallowed⟩)

theorem Reaches.not_public (h : Reaches crates newId req mayList call stripped) :
    ¬ Public req.path := by
  rcases h.path with hpath | hpath | ⟨hpath, -⟩
  · rw [hpath]
    decide
  · rintro (h | h | h | h | h)
    · exact absurd (hpath.starts h) (by decide)
    · exact absurd (hpath.starts h) (by decide)
    · exact absurd (hpath.starts h) (by decide)
    · exact absurd (hpath.comparable h) (by decide)
    · exact absurd (hpath.comparable h) (by decide)
  · rw [hpath]
    decide

/-- Only who may list gets at what is under `/admin/`. -/
theorem Reaches.admin (h : Reaches crates newId req mayList call stripped)
    (hadmin : Under "/admin/" req.path) : mayList := by
  rcases h.path with hpath | hpath | ⟨-, -, hallowed⟩
  · rw [hpath] at hadmin
    exact absurd hadmin (by decide)
  · exact absurd (hpath.comparable hadmin) (by decide)
  · exact hallowed

/-- The table does not look at the extensions, and at `mayList` for the list only. -/
theorem Reaches.congr {mayList' : Prop} (h : Reaches crates newId req mayList call stripped)
    (extensions : Extensions AppClaims)
    (hlist : req.path = "/admin/widgets" → mayList → mayList') :
    Reaches crates newId { req with extensions } mayList' call stripped := by
  cases h with
  | create name hmethod hpath hjson => exact .create name hmethod hpath hjson
  | get captured text uuid _ hmethod hpath hid hparsed =>
    exact .get captured text uuid _ hmethod hpath hid hparsed
  | update captured text uuid name hmethod hpath hid hparsed hjson =>
    exact .update captured text uuid name hmethod hpath hid hparsed hjson
  | list _ hmethod hpath hallowed => exact .list _ hmethod hpath (hlist hpath hallowed)

end

theorem hasContext_grant {req : Request AppClaims} {claims : Claims AppClaims} :
    HasContext { req with extensions := req.extensions.grant (some claims) } :=
  ⟨_, rfl⟩

/-- Whom the table has something for is let through. -/
theorem Reaches.allowed (hM : Matchit.Documented M)
    (hbuild : buildAuthorization M jwtConfig = .ok layer) {now : Jsonwebtoken AppClaims}
    {newId : Uuid} {req : Request AppClaims} {call : WidgetCall} {stripped : Bool}
    {claims : Claims AppClaims} (hclaims : layer.Identifies now req claims)
    (h : Reaches crates newId req (claims.ext.role = "ADMIN") call stripped) :
    layer.Allowed now req :=
  (allowed_iff hM hbuild now req).mpr (.inr ⟨claims, hclaims, h.admin⟩)

/-- **Who gets at the widgets.** The app asks something of its service for a request iff the token
names somebody, and the table has it for them. -/
theorem wants_asks_iff (hM : Matchit.Documented M) (hcrates : crates.Documented)
    (hbuild : buildAuthorization M jwtConfig = .ok layer) (incoming : Incoming) (call : WidgetCall)
    (stripped : Bool) :
    incoming.wants crates lib layer = .asks call stripped ↔
      ∃ claims, layer.Identifies (lib incoming.now) incoming.req claims ∧
        Reaches crates incoming.newId incoming.req (claims.ext.role = "ADMIN") call stripped := by
  have hchecked := layer.checked (lib incoming.now) incoming.req
  rw [Incoming.wants]
  generalize layer.checkRequest (lib incoming.now) incoming.req = checked at hchecked
  cases hchecked with
  | allow hallowed =>
    dsimp only
    rw [wants_eq_asks hcrates]
    constructor
    · intro h
      -- a route that calls the service has no public path, so there is somebody
      rcases (allowed_iff hM hbuild _ _).mp hallowed with hpublic | ⟨claims, hclaims, hadmin⟩
      · exact absurd hpublic h.not_public
      · refine ⟨claims, hclaims, h.congr incoming.req.extensions ?_⟩
        intro hpath _
        exact hadmin (by rw [show incoming.req.path = "/admin/widgets" from hpath]; decide)
    · rintro ⟨claims, hclaims, h⟩
      rw [AuthorizationLayer.identity_eq_some.mpr hclaims]
      exact h.congr _ fun _ _ => hasContext_grant
  | unauthorized hdenied _ | forbidden hdenied _ =>
    constructor
    · intro h
      cases h
    · rintro ⟨claims, hclaims, h⟩
      exact absurd (h.allowed hM hbuild hclaims) hdenied

theorem Identifies.unique {now : Jsonwebtoken AppClaims} {req : Request AppClaims}
    {claims claims' : Claims AppClaims} (h : layer.Identifies now req claims)
    (h' : layer.Identifies now req claims') : claims = claims' :=
  Option.some_inj.mp ((AuthorizationLayer.identity_eq_some.mpr h).symm.trans
    (AuthorizationLayer.identity_eq_some.mpr h'))

theorem Under.not_public {path : String} (h : Under "/admin/" path) : ¬ Public path := by
  rintro (h' | h' | h' | h' | h')
  · exact absurd (h.starts h') (by decide)
  · exact absurd (h.starts h') (by decide)
  · exact absurd (h.starts h') (by decide)
  · exact absurd (h.comparable h') (by decide)
  · exact absurd (h.comparable h') (by decide)

theorem wants_of_unauthorized {incoming : Incoming}
    (hallowed : ¬ layer.Allowed (lib incoming.now) incoming.req)
    (hforbidden : ¬ layer.Forbidden (lib incoming.now) incoming.req) :
    incoming.wants crates lib layer = .answered (ApiError.service .unauthorized).intoResponse := by
  have hchecked := layer.checked (lib incoming.now) incoming.req
  rw [Incoming.wants]
  generalize layer.checkRequest (lib incoming.now) incoming.req = checked at hchecked
  cases hchecked with
  | allow h => exact absurd h hallowed
  | unauthorized _ _ => rfl
  | forbidden _ h => exact absurd h hforbidden

theorem wants_of_forbidden {incoming : Incoming}
    (hallowed : ¬ layer.Allowed (lib incoming.now) incoming.req)
    (hforbidden : layer.Forbidden (lib incoming.now) incoming.req) :
    incoming.wants crates lib layer = .answered (ApiError.service .forbidden).intoResponse := by
  have hchecked := layer.checked (lib incoming.now) incoming.req
  rw [Incoming.wants]
  generalize layer.checkRequest (lib incoming.now) incoming.req = checked at hchecked
  cases hchecked with
  | allow h => exact absurd h hallowed
  | unauthorized _ h => exact absurd hforbidden h
  | forbidden _ _ => rfl

/-- **Who may pass.** The chain builds. What it lets a request ask of the service is what the table
has for whom its token names; a caller without a name gets a 401 wherever it is not public, and one
who is no admin a 403 under `/admin/`. -/
theorem access_control (M : Matchit) (hM : Matchit.Documented M) (crates : Crates)
    (hcrates : crates.Documented) (lib : Nat → Jsonwebtoken AppClaims) (jwtConfig : JwtConfig) :
    ∃ layer, buildAuthorization M jwtConfig = .ok layer ∧ ∀ incoming : Incoming,
      (∀ call stripped, incoming.wants crates lib layer = .asks call stripped ↔
        ∃ claims, layer.Identifies (lib incoming.now) incoming.req claims ∧
          Reaches crates incoming.newId incoming.req (claims.ext.role = "ADMIN") call stripped) ∧
      (¬ Public incoming.req.path →
        (∀ claims, ¬ layer.Identifies (lib incoming.now) incoming.req claims) →
        incoming.wants crates lib layer =
          .answered (ApiError.service .unauthorized).intoResponse) ∧
      (∀ claims, layer.Identifies (lib incoming.now) incoming.req claims →
        Under "/admin/" incoming.req.path → claims.ext.role ≠ "ADMIN" →
        incoming.wants crates lib layer =
          .answered (ApiError.service .forbidden).intoResponse) := by
  obtain ⟨layer, hbuild⟩ : ∃ layer, buildAuthorization M jwtConfig = .ok layer :=
    buildAuthorization_ok hM
  refine ⟨layer, hbuild, fun incoming => ⟨wants_asks_iff hM hcrates hbuild incoming, ?_, ?_⟩⟩
  · intro hpublic hunknown
    apply wants_of_unauthorized
    · rw [allowed_iff hM hbuild]
      rintro (h | ⟨claims, hclaims, -⟩)
      · exact hpublic h
      · exact hunknown claims hclaims
    · rw [forbidden_iff hM hbuild]
      rintro ⟨-, -, claims, hclaims, -⟩
      exact hunknown claims hclaims
  · intro claims hclaims hadmin hrole
    have hpublic := hadmin.not_public
    apply wants_of_forbidden
    · rw [allowed_iff hM hbuild]
      rintro (h | ⟨claims', hclaims', hrole'⟩)
      · exact hpublic h
      -- whoever else might be named by the token, it is the same caller
      · rw [Identifies.unique hclaims hclaims'] at hrole
        exact hrole (hrole' hadmin)
    · exact (forbidden_iff hM hbuild _ _).mpr ⟨hpublic, hadmin, claims, hclaims, hrole⟩

/-! ### One of each -/

theorem dropSuffix?_eq_some {suffix s rest : String} :
    dropSuffix? suffix s = some rest ↔ s = rest ++ suffix := by
  rw [dropSuffix?, Option.map_eq_some_iff]
  constructor
  · rintro ⟨l, hl, rfl⟩
    apply String.toList_injective
    rw [String.toList_append, String.toList_ofList]
    exact (List.isSuffixOf?_eq_some_iff_append_eq.mp hl).symm
  · rintro rfl
    refine ⟨rest.toList, List.isSuffixOf?_eq_some_iff_append_eq.mpr ?_, String.ofList_toList⟩
    exact String.toList_append.symm

theorem dropPrefix?_eq_some {start s rest : String} :
    dropPrefix? start s = some rest ↔ s = start ++ rest := by
  rw [dropPrefix?, Option.map_eq_some_iff]
  constructor
  · rintro ⟨l, hl, rfl⟩
    apply String.toList_injective
    rw [String.toList_append, String.toList_ofList]
    exact (List.isPrefixOf?_eq_some_iff_append_eq.mp hl).symm
  · rintro rfl
    refine ⟨rest.toList, List.isPrefixOf?_eq_some_iff_append_eq.mpr ?_, String.ofList_toList⟩
    exact String.toList_append.symm

/-- A route without parameters does not end in one. -/
theorem Plain.dropSuffix? {route : String} (hplain : Plain route) (suffix : String)
    (hsuffix : '{' ∈ suffix.toList) : Example.dropSuffix? suffix route = none := by
  by_contra h
  obtain ⟨rest, hrest⟩ := Option.ne_none_iff_exists'.mp h
  rw [dropSuffix?_eq_some] at hrest
  subst hrest
  exact hplain.2 '{' (by simp [hsuffix]) (by simp)

/-- `matchit`, for the patterns it documents here. -/
def someMatchit : Matchit where
  Router := String → Bool
  InsertError := Unit
  insert pattern :=
    match dropSuffix? "/{*rest}" pattern with
    | some route => .ok fun path => decide (Under (route ++ "/") path)
    | none => .ok fun path => decide (path = pattern)
  isMatch router path := router path

theorem someMatchit_documented : Matchit.Documented someMatchit where
  static route hplain := by
    refine ⟨fun path => decide (path = route), ?_, fun path => decide_eq_true_iff⟩
    simp only [someMatchit, hplain.dropSuffix? "/{*rest}" (by decide)]
  catchAll route _ := by
    refine ⟨fun path => decide (Under (route ++ "/") path), ?_, fun path => decide_eq_true_iff⟩
    simp only [someMatchit, dropSuffix?_eq_some.mpr (Eq.refl (route ++ "/{*rest}"))]

theorem someCrates_documented : someCrates.Documented where
  static route path hplain := by
    simp only [someCrates, hplain.dropSuffix? "/{id}" (by decide)]
  segment route path captured _ := by
    simp only [someCrates, dropSuffix?_eq_some.mpr (Eq.refl (route ++ "/{id}"))]
    simp [Option.filter_eq_some_iff, dropPrefix?_eq_some, Segmented]

/-- `jsonwebtoken`, for one token. -/
def someJsonwebtoken : Jsonwebtoken AppClaims where
  DecodingKey := Unit
  fromEcPem _ := .ok ()
  decode token _ _ :=
    if token = "header.payload.signature" then
      .ok ⟨"demo-user", "demo-session", 4600, ⟨"ADMIN"⟩⟩
    else .error ⟨false, "InvalidToken"⟩

def bearer : HeaderMap :=
  [("authorization", .fromStatic "Bearer header.payload.signature" (by decide))]

def listWidgets : Incoming :=
  { req := { Request.bare .get "/admin/widgets" with headers := bearer }, newId := 1, now := 1000 }

theorem access_control_admin : ∃ layer,
    buildAuthorization someMatchit ⟨"", "", 3600⟩ = .ok layer ∧
    listWidgets.wants someCrates (fun _ => someJsonwebtoken) layer = .asks .list false ∧
    createSprocket.wants someCrates (fun _ => someJsonwebtoken) layer =
      .answered (ApiError.service .unauthorized).intoResponse := by
  obtain ⟨layer, hbuild, h⟩ := access_control someMatchit someMatchit_documented someCrates
    someCrates_documented (fun _ => someJsonwebtoken) ⟨"", "", 3600⟩
  have hlayer : layer.check.claimsValidator = none ∧ layer.cookieName = none := by
    cases hbuild
    exact ⟨rfl, rfl⟩
  refine ⟨layer, hbuild, ((h listWidgets).1 .list false).mpr ⟨_, ⟨⟨_, rfl, rfl⟩, ?_⟩, ?_⟩, ?_⟩
  · rw [hlayer.1]
    nofun
  · exact .list false rfl rfl rfl
  · refine (h createSprocket).2.1 (by decide) ?_
    rintro claims ⟨⟨token, htoken, -⟩, -⟩
    rw [hlayer.2] at htoken
    cases htoken

/-- **Strangers are neither seen nor served.** Leave any of the requests whose token names nobody
out of a run: it is still a run, to the same state, and all the others are where they were. What a
stranger is answered is said by the stranger's request alone. -/
theorem strangers_invisible {ι : Type} [DecidableEq ι] (db : Database) (M : Matchit)
    (hM : Matchit.Documented M) (crates : Crates) (hcrates : crates.Documented)
    (hrouting : crates.Routing) (lib : Nat → Jsonwebtoken AppClaims) (jwtConfig : JwtConfig)
    (layer : AuthorizationLayer M AppClaims) (hbuild : buildAuthorization M jwtConfig = .ok layer)
    (state : db.State) (events : List (AppEvent db ι)) (m : App db ι)
    (hrun : run (AppEvent.step db crates lib layer) (Clients.start state) events = some m)
    (keep : ι → Bool)
    (hstrangers : ∀ id incoming, .arrives id incoming ∈ events → keep id = false →
      ∀ claims, ¬ layer.Identifies (lib incoming.now) incoming.req claims) :
    run (AppEvent.step db crates lib layer) (Clients.start state)
      (events.filter fun event => keep event.id) = some (m.restrict keep) ∧
    ∀ id response, .responded id response ∈ m.history → keep id = false →
      ∃ incoming, .arrives id incoming ∈ events ∧
        incoming.wants crates lib layer = .answered response := by
  have hanswered : ∀ id incoming, .arrives id incoming ∈ events → keep id = false →
      ∃ response, incoming.wants crates lib layer = .answered response := by
    intro id incoming harrives hkeep
    cases hwants : incoming.wants crates lib layer with
    | answered response => exact ⟨response, rfl⟩
    | asks call stripped =>
      obtain ⟨claims, hclaims, -⟩ := (wants_asks_iff hM hcrates hbuild _ _ _).mp hwants
      exact absurd hclaims (hstrangers id incoming harrives hkeep claims)
  refine ⟨run_restrict (fun id incoming harrives hkeep => ?_) hrun, fun id response hr hkeep => ?_⟩
  · obtain ⟨response, hwants⟩ := hanswered id incoming harrives hkeep
    exact ⟨response, by rw [app_eq crates lib layer hrouting, hwants]; rfl⟩
  · obtain ⟨incoming, harrives, hdone⟩ := responded_of_run hrun hr
    obtain ⟨response', hwants⟩ := hanswered id incoming harrives hkeep
    rw [app_eq crates lib layer hrouting, hwants] at hdone
    exact ⟨incoming, harrives, hwants.trans (congrArg _ (hdone _ rfl).symm)⟩

/-- A caller without a token, between the steps of the admin. -/
def strangerEvents : List (AppEvent tableDatabase Bool) :=
  [.arrives true listWidgets, .arrives false createSprocket, .performs true noLuck,
    .answers false, .answers true]

theorem stranger_invisible :
    ∃ (layer : AuthorizationLayer someMatchit AppClaims) (m : App tableDatabase Bool),
    buildAuthorization someMatchit ⟨"", "", 3600⟩ = .ok layer ∧
    run (AppEvent.step tableDatabase someCrates (fun _ => someJsonwebtoken) layer)
      (Clients.start Table.empty) strangerEvents = some m ∧
    run (AppEvent.step tableDatabase someCrates (fun _ => someJsonwebtoken) layer)
      (Clients.start Table.empty) (strangerEvents.filter fun event => event.id) =
        some (m.restrict id) := by
  refine ⟨_, _, rfl, rfl, (strangers_invisible tableDatabase someMatchit someMatchit_documented
    someCrates someCrates_documented someCrates_routing (fun _ => someJsonwebtoken) ⟨"", "", 3600⟩ _
    rfl Table.empty strangerEvents _ rfl id ?_).1⟩
  intro call incoming harrives hkeep claims hclaims
  cases hkeep
  have hincoming : incoming = createSprocket := by simpa [strangerEvents] using harrives
  subst hincoming
  obtain ⟨⟨token, htoken, -⟩, -⟩ := hclaims
  cases htoken

end Example
end StanoPlatform
