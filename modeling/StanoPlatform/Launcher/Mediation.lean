import StanoPlatform.Launcher.Server

/-!
# `Launcher/Mediation.lean` — nothing gets past the authorization layer

Three outcomes of a check (`AuthorizationLayer.checked`) make three replies, and everything a
reference monitor owes is read off them: who is let through, with what identity, and what the
others are told (`Mediates`). In the stack of `run`, being let through is not the same as arriving:
the hook, and every layer behind it, may answer in the router's place.

The `jsonwebtoken` crate, the layers that are not the platform's and the hook are parameters. Of the
last two nothing is assumed, except where it says that a layer hands on (`Layer.HandsOn`).

From `run` in `stano-launcher/src/server.rs` and the middleware of `AuthorizationLayer`. `Reached`
speaks of what the request came to on its way, not of what the client was told.
-/

set_option autoImplicit false

namespace StanoPlatform
namespace Launcher

open Security Axum

variable {M : Matchit} {E S : Type}

/-! ## One layer around one service -/

section

variable (lib : Jsonwebtoken E) (layer : AuthorizationLayer M E) (inner : Service E S)
  (req : Request E)

def refusal (error : ServiceError) (status : Nat) : Reply E S :=
  { response := (ApiError.service error).intoResponse
    events := [.authFailure req.method status] }

inductive Answers : Reply E S → Prop where
  | passed (allowed : layer.Allowed lib req) :
    Answers (inner { req with extensions := req.extensions.grant (layer.identity lib req) })
  | unauthorized (denied : ¬ layer.Allowed lib req) (unknown : ¬ layer.Forbidden lib req)
    (kept : (layer.checkRequest lib req).2 = req.extensions) :
    Answers (refusal req .unauthorized 401)
  | forbidden (denied : ¬ layer.Allowed lib req) (known : layer.Forbidden lib req)
    (kept : (layer.checkRequest lib req).2 = req.extensions) :
    Answers (refusal req .forbidden 403)

/-- **Every reply of a layer is one of three.** -/
theorem answers : Answers lib layer inner req ((layer.middleware lib).layer inner req) := by
  have hchecked := layer.checked lib req
  rw [Middleware.layer, AuthorizationLayer.middleware]
  cases hcheck : layer.checkRequest lib req with
  | mk outcome extensions =>
    rw [hcheck] at hchecked
    cases hchecked with
    | allow allowed =>
      -- handing on and answering with what comes back adds nothing to the reply
      have hrun : ∀ handed, (Code.next handed .respond).run inner = inner handed := by
        intro handed
        simp [Code.run]
      change Answers lib layer inner req ((Code.next _ .respond).run inner)
      rw [hrun]
      exact .passed allowed
    | unauthorized denied unknown =>
      exact .unauthorized denied unknown (by rw [hcheck])
    | forbidden denied known =>
      exact .forbidden denied known (by rw [hcheck])

theorem passes {lib : Jsonwebtoken E} {layer : AuthorizationLayer M E} {req : Request E}
    (allowed : layer.Allowed lib req) (inner : Service E S) :
    (layer.middleware lib).layer inner req =
      inner { req with extensions := req.extensions.grant (layer.identity lib req) } := by
  have hanswers := answers lib layer inner req
  generalize (layer.middleware lib).layer inner req = reply at hanswers
  cases hanswers with
  | passed => rfl
  | unauthorized denied | forbidden denied => exact absurd allowed denied

end

/-- **What a layer around a service owes a request**: the service is reached iff the request may
pass, once, with nothing changed but for the identity; otherwise no identity is left behind, and
the answer says whether it would have helped to have one. -/
structure Mediates (lib : Jsonwebtoken E) (layer : AuthorizationLayer M E) (inner : Service E S)
    (site : S) (req : Request E) : Prop where
  reached_iff : ((layer.middleware lib).layer (inner.at site) req).Reached site ↔
    layer.Allowed lib req
  passed : layer.Allowed lib req → ∃ extensions : Extensions E,
    (layer.middleware lib).layer (inner.at site) req = inner.at site { req with extensions } ∧
    extensions.others = req.extensions.others ∧
    (∀ context, extensions.securityContext = some context ↔
      ∃ claims, layer.Identifies lib req claims ∧ context = SecurityContext.new claims) ∧
    (∀ context, AppSecurityContext.fromRequestParts { req with extensions } = .ok context ↔
      ∃ claims, layer.Identifies lib req claims ∧ context = SecurityContext.new claims) ∧
    ((¬ ∃ claims, layer.Identifies lib req claims) →
      AppSecurityContext.fromRequestParts { req with extensions } =
        .error (.service .unauthorized))
  refused : ¬ layer.Allowed lib req → ∃ error status,
    (layer.middleware lib).layer (inner.at site) req = refusal req error status ∧
    (ApiError.service error).intoResponse.status = status ∧
    (status = 403 ↔ layer.Forbidden lib req) ∧ (status = 401 ↔ ¬ layer.Forbidden lib req)
  untouched : ¬ layer.Allowed lib req → (layer.checkRequest lib req).2 = req.extensions

theorem securityContext_grant (lib : Jsonwebtoken E) (layer : AuthorizationLayer M E)
    {req : Request E} (hreq : req.extensions.securityContext = none)
    (context : SecurityContext E) :
    (req.extensions.grant (layer.identity lib req)).securityContext = some context ↔
      ∃ claims, layer.Identifies lib req claims ∧ context = SecurityContext.new claims := by
  simp only [← AuthorizationLayer.identity_eq_some]
  cases layer.identity lib req with
  | none => simp [Extensions.grant, hreq]
  | some claims => simp [Extensions.grant, Extensions.insert, eq_comm]

theorem others_grant (extensions : Extensions E) (identity : Option (Claims E)) :
    (extensions.grant identity).others = extensions.others := by
  cases identity <;> rfl

theorem fromRequestParts_eq_ok {parts : Request E} {context : SecurityContext E} :
    AppSecurityContext.fromRequestParts parts = .ok context ↔
      parts.extensions.securityContext = some context := by
  rw [AppSecurityContext.fromRequestParts]
  cases parts.extensions.securityContext <;> simp

theorem fromRequestParts_eq_error {parts : Request E} :
    AppSecurityContext.fromRequestParts parts = .error (.service .unauthorized) ↔
      ∀ context, parts.extensions.securityContext ≠ some context := by
  rw [AppSecurityContext.fromRequestParts]
  cases parts.extensions.securityContext <;> simp

theorem refusal_not_reached (req : Request E) (error : ServiceError) (status : Nat) (site : S) :
    ¬ (refusal req error status : Reply E S).Reached site := by
  rintro ⟨r, hr⟩
  simp [refusal] at hr

theorem mediates (lib : Jsonwebtoken E) (layer : AuthorizationLayer M E) (inner : Service E S)
    (site : S) (req : Request E) (hreq : req.extensions.securityContext = none) :
    Mediates lib layer inner site req := by
  have hgrant := securityContext_grant lib layer hreq
  have hanswers := answers lib layer (inner.at site) req
  generalize hreply : (layer.middleware lib).layer (inner.at site) req = reply at hanswers
  -- let through, nobody known, or somebody known who may not
  cases hanswers with
  | passed allowed =>
    refine ⟨?_, fun _ => ⟨req.extensions.grant (layer.identity lib req), hreply, ?_, hgrant, ?_,
      ?_⟩, fun denied => absurd allowed denied, fun denied => absurd allowed denied⟩
    · rw [hreply]
      exact ⟨fun _ => allowed, fun _ => inner.reached_at site _⟩
    · exact others_grant _ _
    · exact fun context => fromRequestParts_eq_ok.trans (hgrant context)
    · intro hnobody
      refine fromRequestParts_eq_error.mpr fun context hcontext => hnobody ?_
      obtain ⟨claims, hclaims, -⟩ := (hgrant context).mp hcontext
      exact ⟨claims, hclaims⟩
  | unauthorized denied unknown kept =>
    refine ⟨?_, fun allowed => absurd allowed denied, fun _ => ⟨_, _, hreply, rfl, ?_, ?_⟩,
      fun _ => kept⟩
    · rw [hreply]
      exact ⟨fun h => absurd h (refusal_not_reached _ _ _ _), fun h => absurd h denied⟩
    · exact ⟨fun h => by simp at h, fun h => absurd h unknown⟩
    · exact ⟨fun _ => unknown, fun _ => rfl⟩
  | forbidden denied known kept =>
    refine ⟨?_, fun allowed => absurd allowed denied, fun _ => ⟨_, _, hreply, rfl, ?_, ?_⟩,
      fun _ => kept⟩
    · rw [hreply]
      exact ⟨fun h => absurd h (refusal_not_reached _ _ _ _), fun h => absurd h denied⟩
    · exact ⟨fun _ => known, fun _ => rfl⟩
    · exact ⟨fun h => by simp at h, fun h => absurd known h⟩

/-! ## The stack of `run` -/

variable {lib : Jsonwebtoken E} {others : Layer M E → Middleware E Site}
  {router : Service E Site}

def Layer.HandsOn (others : Layer M E → Middleware E Site) : Layer M E → Prop
  | .postAuthorization hook => ∀ req, (hook req).HandsOn
  | .authorization _ => False
  | layer => ∀ req, (others layer req).HandsOn

theorem Layer.HandsOn.serve {layer : Layer M E} (h : layer.HandsOn others)
    (lib : Jsonwebtoken E) (app : Service E Site) (req : Request E) :
    ∃ handed, ∀ event ∈ (app handed).events, event ∈ (layer.serve lib others app req).events := by
  cases layer with
  | postAuthorization hook =>
    obtain ⟨handed, hmem⟩ := (h req).run app
    exact ⟨handed, fun event he => List.mem_cons_of_mem _ (hmem event he)⟩
  | authorization layer => exact h.elim
  | _ => exact Code.HandsOn.run (h req) app

theorem router_reached (layers : List (Layer M E)) (h : ∀ layer ∈ layers, layer.HandsOn others)
    (req : Request E) : (serve lib others router layers req).Reached .router := by
  induction layers using List.reverseRecOn generalizing req with
  | nil => exact router.reached_at .router req
  | append_singleton layers layer ih =>
    have hlast : layer.HandsOn others := h layer (by simp)
    rw [serve, List.foldl_append]
    obtain ⟨handed, hmem⟩ := hlast.serve lib (serve lib others router layers) req
    obtain ⟨r, hr⟩ := ih (fun l hl => h l (by simp [hl])) handed
    exact ⟨r, hmem _ hr⟩

theorem allowed_of_reached {layer : AuthorizationLayer M E} {app : Service E Site}
    {req : Request E} {site : Site}
    (h : ((layer.middleware lib).layer app req).Reached site) : layer.Allowed lib req := by
  have hanswers := answers lib layer app req
  generalize (layer.middleware lib).layer app req = reply at h hanswers
  cases hanswers with
  | passed allowed => exact allowed
  | unauthorized | forbidden => exact absurd h (refusal_not_reached _ _ _ _)

/-- **Complete mediation, and where identities come from.** Of every request that arrives without
an identity: a service in the layer is reached iff the request may pass, as `Mediates` has it; in
the stack of `run` the hook is reached iff the request may pass, and the router only if it may —
and then too, unless a layer behind the authorization layer answers in its place. -/
theorem authorization_mediates (lib : Jsonwebtoken E) (layer : AuthorizationLayer M E)
    (req : Request E) (hreq : req.extensions.securityContext = none) :
    (∀ (S : Type) (inner : Service E S) (site : S), Mediates lib layer inner site req) ∧
    ∀ (args : RunArgs M E) (others : Layer M E → Middleware E Site) (router : Service E Site)
      (reply : Reply E Site),
      reply = (layer.middleware lib).layer (serve lib others router args.behind) req →
      (args.postAuthorization.isSome →
        (reply.Reached .postAuthorization ↔ layer.Allowed lib req)) ∧
      (reply.Reached .router → layer.Allowed lib req) ∧
      ((∀ l ∈ args.behind, l.HandsOn others) →
        (reply.Reached .router ↔ layer.Allowed lib req)) := by
  refine ⟨fun S inner site => mediates lib layer inner site req hreq, ?_⟩
  rintro args others router reply rfl
  have honly : ∀ site, ((layer.middleware lib).layer (serve lib others router args.behind)
      req).Reached site → layer.Allowed lib req := fun _ => allowed_of_reached
  refine ⟨fun hhook => ⟨honly _, fun allowed => ?_⟩, honly _,
    fun hhandsOn => ⟨honly _, fun allowed => ?_⟩⟩
  · obtain ⟨hook, hhook⟩ := Option.isSome_iff_exists.mp hhook
    rw [passes allowed, RunArgs.behind, hhook, serve, List.foldl_append]
    exact Service.reached_at _ _ _
  · rw [passes allowed]
    exact router_reached _ hhandsOn _

/-! ### A hook that answers -/

def keyless : Jsonwebtoken Unit where
  DecodingKey := Unit
  fromEcPem _ := .error "InvalidKeyFormat"
  decode _ _ _ := .error ⟨false, "InvalidToken"⟩

def onlyAnyRequest (effect : Effect Unit) : AuthorizationLayer .unasked Unit :=
  buildLayer [] effect ⟨"", "", 3600⟩ none none

def getRoot : Request Unit :=
  { method := .get, path := "/", headers := [], extensions := ⟨none, ∅⟩, body := [] }

/-- `async fn(Request, Next) -> StatusCode`, for maintenance. -/
def unavailable : Middleware Unit Site :=
  fun _ => .respond { status := 503, headers := [], body := .bytes [], apiError := none }

def hooked (hook : Middleware Unit Site) : RunArgs .unasked Unit :=
  { metricsEnabled := false, prometheusEnabled := false, httpLoggingEnabled := false
    authorization := some (onlyAnyRequest .permitAll), postAuthorization := some hook }

/-- `async fn(req: Request, next: Next) -> Response { next.run(req).await }` -/
def transparent : Middleware Unit Site := fun req => .next req .respond

def okRouter : Service Unit Site := fun _ => ⟨⟨200, [], .bytes [], none⟩, []⟩

def hookedReply (hook : Middleware Unit Site) : Reply Unit Site :=
  ((onlyAnyRequest .permitAll).middleware keyless).layer
    (serve keyless (fun _ => transparent) okRouter (hooked hook).behind) getRoot

/-- A request that may pass gets to a hook that answers it, and not to the router. -/
theorem hook_answers : ¬ ((hookedReply unavailable).Reached .router ↔
    (onlyAnyRequest .permitAll).Allowed keyless getRoot) := by
  have allowed : (onlyAnyRequest .permitAll).Allowed keyless getRoot := trivial
  rw [hookedReply, passes allowed]
  intro h
  obtain ⟨req, hreq⟩ := h.mpr allowed
  simp [hooked, RunArgs.behind, serve, Layer.serve, Service.at, Middleware.layer, unavailable,
    Code.run] at hreq

theorem transparent_handsOn :
    ∀ l ∈ (hooked transparent).behind, l.HandsOn (fun _ => transparent) := by
  simp [hooked, RunArgs.behind, RunArgs.inner, RunArgs.metrics, Layer.HandsOn, transparent,
    Code.HandsOn]

theorem authorization_mediates_get_root :
    Mediates keyless (onlyAnyRequest .authenticated) okRouter Site.router getRoot ∧
    (hookedReply transparent).Reached .postAuthorization ∧
    (hookedReply transparent).Reached .router := by
  have h := authorization_mediates keyless (onlyAnyRequest .permitAll) getRoot rfl
  obtain ⟨hhook, -, hrouter⟩ := h.2 (hooked transparent) (fun _ => transparent) okRouter _ rfl
  exact ⟨(authorization_mediates keyless (onlyAnyRequest .authenticated) getRoot rfl).1 Site _ _,
    (hhook rfl).mpr trivial, (hrouter transparent_handsOn).mpr trivial⟩

end Launcher
end StanoPlatform
