import StanoPlatform.Axum.Authorization

/-!
# `Axum/Layer.lean` — what an authorization layer does with a request

`security/layer.rs` and the extractor that reads what it leaves: find the token, find the effect,
apply it, and hand the request on or answer in its place.

Who the token names is the same question under each of the three effects, although each asks it
in a `match` of its own. It is asked once here (`AuthorizationLayer.Identifies`), and one equation
(`applyEffect_eq`) says what each effect makes of the answer.

The `debug!` lines are left out. `decode_jwt` is the one of `Security/Jwt.lean`, over a
`jsonwebtoken` library that is a parameter. The middleware counts a refused request and hands on all
others with the extensions it has written (`AuthorizationLayer.middleware`).
-/

set_option autoImplicit false

namespace StanoPlatform
namespace Axum

open Security

variable {M : Matchit} {E S : Type}

inductive Outcome where
  | allow
  | unauthorized
  | forbidden
  deriving DecidableEq, Repr

/-! ## The token -/

def trim (s : List Char) : List Char :=
  ((s.dropWhile Char.isWhitespace).reverse.dropWhile Char.isWhitespace).reverse

/-- `s.split_once('=')`, for any separator. -/
def splitOnce (separator : Char) (s : List Char) : Option (List Char × List Char) :=
  match s.span (· ≠ separator) with
  | (before, _ :: after) => some (before, after)
  | (_, []) => none

/-- The value of a `name=value` pair of a cookie header, if it has that name. -/
def cookiePair (cookieName : String) (pair : List Char) : Option String :=
  match splitOnce '=' (trim pair) with
  | some (name, value) => if name = cookieName.toList then some (String.ofList value) else none
  | none => none

def extractToken (headers : HeaderMap) (cookieName : Option String) : Option String :=
  let bearer := ((headers.get "authorization").bind HeaderValue.toStr).bind
    fun s => "Bearer ".toList.isPrefixOf? s
  match bearer with
  | some token => some (String.ofList token)
  | none => do
    let cookieName ← cookieName
    let cookieHeader ← (← headers.get "cookie").toStr
    (cookieHeader.splitOn ';').findSome? (cookiePair cookieName)

/-! ## The effect -/

/-- `token.as_deref().and_then(|t| decode_jwt::<E>(t, jwt_config).ok())`. -/
def decodeToken (lib : Jsonwebtoken E) (token : Option String) (jwtConfig : JwtConfig) :
    Option (Claims E) :=
  token.bind fun t => (decodeJwt lib t jwtConfig).toOption

/-- `validator(&claims).await.is_ok()`, where one is set. -/
def validated (claimsValidator : Option (ClaimsValidator E)) (claims : Claims E) : Bool :=
  match claimsValidator with
  | some validator => (validator claims).isOk
  | none => true

/-- `apply_effect`: the outcome, and the extensions as it leaves them. -/
def applyEffect (lib : Jsonwebtoken E) (effect : Effect E) (token : Option String)
    (jwtConfig : JwtConfig) (claimsValidator : Option (ClaimsValidator E))
    (extensions : Extensions E) : Outcome × Extensions E :=
  match effect with
  | .permitAll =>
    match decodeToken lib token jwtConfig with
    | some claims =>
      if validated claimsValidator claims then
        (.allow, extensions.insert (SecurityContext.new claims))
      else (.allow, extensions)
    | none => (.allow, extensions)
  | .authenticated =>
    match decodeToken lib token jwtConfig with
    | some claims =>
      if !validated claimsValidator claims then (.unauthorized, extensions)
      else (.allow, extensions.insert (SecurityContext.new claims))
    | none => (.unauthorized, extensions)
  | .hasRole predicate =>
    match decodeToken lib token jwtConfig with
    | some claims =>
      if !validated claimsValidator claims then (.unauthorized, extensions)
      else if predicate claims.ext then
        (.allow, extensions.insert (SecurityContext.new claims))
      else (.forbidden, extensions)
    | none => (.unauthorized, extensions)

def CheckState.check (lib : Jsonwebtoken E) (state : CheckState M E) (method : Method)
    (path : String) (token : Option String) (extensions : Extensions E) :
    Outcome × Extensions E :=
  applyEffect lib (state.effect method path) token state.jwtConfig state.claimsValidator
    extensions

/-! ## The layer -/

def Outcome.failureStatus : Outcome → Option Nat
  | .allow => none
  | .unauthorized => some 401
  | .forbidden => some 403

namespace AuthorizationLayer

def checkRequest (lib : Jsonwebtoken E) (layer : AuthorizationLayer M E) (req : Request E) :
    Outcome × Extensions E :=
  layer.check.check lib req.method req.path (extractToken req.headers layer.cookieName)
    req.extensions

/-- `<AuthorizationLayer as Layer<S>>::layer`. -/
def middleware (lib : Jsonwebtoken E) (layer : AuthorizationLayer M E) : Middleware E S :=
  fun req =>
    let (outcome, extensions) := layer.checkRequest lib req
    let answer : Code E S :=
      match outcome with
      | .allow => .next { req with extensions } .respond
      | .unauthorized => .respond (ApiError.service .unauthorized).intoResponse
      | .forbidden => .respond (ApiError.service .forbidden).intoResponse
    match outcome.failureStatus with
    | some status => .authFailure req.method status answer
    | none => answer

end AuthorizationLayer

def AppSecurityContext.fromRequestParts (parts : Request E) :
    Except ApiError (SecurityContext E) :=
  match parts.extensions.securityContext with
  | some context => .ok context
  | none => .error (.service .unauthorized)

/-! ## Who is asking -/

namespace Effect

/-- The requests an effect lets through, by whom they may come from. -/
def Admits (who : Claims E → Prop) : Effect E → Prop
  | .permitAll => True
  | .authenticated => ∃ claims, who claims
  | .hasRole predicate => ∃ claims, who claims ∧ predicate claims.ext = true

/-- The requests of someone we know that an effect does not let through. -/
def Refuses (who : Claims E → Prop) : Effect E → Prop
  | .permitAll | .authenticated => False
  | .hasRole predicate => ∃ claims, who claims ∧ predicate claims.ext = false

def outcome (identity : Option (Claims E)) : Effect E → Outcome
  | .permitAll => .allow
  | .authenticated => if identity.isSome then .allow else .unauthorized
  | .hasRole predicate =>
    match identity with
    | some claims => if predicate claims.ext then .allow else .forbidden
    | none => .unauthorized

theorem outcome_eq_allow {identity : Option (Claims E)} {effect : Effect E} :
    effect.outcome identity = .allow ↔ effect.Admits (identity = some ·) := by
  cases effect with
  | permitAll => simp [outcome, Admits]
  | authenticated => cases identity <;> simp [outcome, Admits]
  | hasRole predicate => cases identity <;> simp [outcome, Admits]

theorem outcome_eq_forbidden {identity : Option (Claims E)} {effect : Effect E} :
    effect.outcome identity = .forbidden ↔ effect.Refuses (identity = some ·) := by
  cases effect with
  | permitAll => simp [outcome, Refuses]
  | authenticated => cases identity <;> simp [outcome, Refuses]
  | hasRole predicate => cases identity <;> simp [outcome, Refuses]

end Effect

def Extensions.grant (extensions : Extensions E) (identity : Option (Claims E)) :
    Extensions E :=
  match identity with
  | some claims => extensions.insert (SecurityContext.new claims)
  | none => extensions

/-- **The three effects, in terms of who is asking**: only a request that is let through has its
extensions touched. -/
theorem applyEffect_eq (lib : Jsonwebtoken E) (effect : Effect E) (token : Option String)
    (jwtConfig : JwtConfig) (claimsValidator : Option (ClaimsValidator E))
    (extensions : Extensions E) (identity : Option (Claims E))
    (hidentity : identity =
      (decodeToken lib token jwtConfig).filter (validated claimsValidator)) :
    applyEffect lib effect token jwtConfig claimsValidator extensions =
      (effect.outcome identity,
        if effect.outcome identity = .allow then extensions.grant identity else extensions) := by
  subst hidentity
  unfold applyEffect
  cases decodeToken lib token jwtConfig with
  | none => cases effect <;> rfl
  | some claims =>
    rw [Option.filter_some]
    by_cases hvalid : validated claimsValidator claims = true
    · cases effect with
      | permitAll | authenticated => simp [hvalid, Effect.outcome, Extensions.grant]
      | hasRole predicate =>
        cases h : predicate claims.ext <;> simp [hvalid, h, Effect.outcome, Extensions.grant]
    · cases effect <;> simp [hvalid, Effect.outcome, Extensions.grant]

namespace AuthorizationLayer

variable (lib : Jsonwebtoken E) (layer : AuthorizationLayer M E) (req : Request E)

/-- The request's token names someone: it is there, it decodes, and the validator, if one is set,
accepts its claims. -/
structure Identifies (claims : Claims E) : Prop where
  decodes : ∃ token, extractToken req.headers layer.cookieName = some token ∧
    decodeJwt lib token layer.check.jwtConfig = .ok claims
  accepted : ∀ validator, layer.check.claimsValidator = some validator →
    validator claims = .ok ()

def effect : Effect E := layer.check.effect req.method req.path

def Allowed : Prop := (layer.effect req).Admits (layer.Identifies lib req)

/-- The request comes from someone we know, who may not pass. -/
def Forbidden : Prop := (layer.effect req).Refuses (layer.Identifies lib req)

/-- Who the token names, as `apply_effect` goes about it. -/
def identity : Option (Claims E) :=
  (decodeToken lib (extractToken req.headers layer.cookieName) layer.check.jwtConfig).filter
    (validated layer.check.claimsValidator)

variable {lib layer req}

theorem validated_eq_true {claimsValidator : Option (ClaimsValidator E)} {claims : Claims E} :
    validated claimsValidator claims = true ↔
      ∀ validator, claimsValidator = some validator → validator claims = .ok () := by
  cases claimsValidator with
  | none => simp [validated]
  | some validator =>
    cases h : validator claims <;> simp [validated, h, Except.isOk, Except.toBool]

theorem decodeToken_eq_some {token : Option String} {jwtConfig : JwtConfig} {claims : Claims E} :
    decodeToken lib token jwtConfig = some claims ↔
      ∃ t, token = some t ∧ decodeJwt lib t jwtConfig = .ok claims := by
  rw [decodeToken, Option.bind_eq_some_iff]
  refine exists_congr fun t => and_congr_right fun _ => ?_
  cases decodeJwt lib t jwtConfig <;> simp [Except.toOption]

theorem identity_eq_some {claims : Claims E} :
    layer.identity lib req = some claims ↔ layer.Identifies lib req claims := by
  rw [identity, Option.filter_eq_some_iff, decodeToken_eq_some, validated_eq_true]
  exact ⟨fun h => ⟨h.1, h.2⟩, fun h => ⟨h.decodes, h.accepted⟩⟩

theorem outcome_eq_allow :
    (layer.effect req).outcome (layer.identity lib req) = .allow ↔ layer.Allowed lib req := by
  rw [Effect.outcome_eq_allow, Allowed]
  exact Iff.of_eq (congrArg (Effect.Admits · _) (funext fun _ => propext identity_eq_some))

theorem outcome_eq_forbidden :
    (layer.effect req).outcome (layer.identity lib req) = .forbidden ↔
      layer.Forbidden lib req := by
  rw [Effect.outcome_eq_forbidden, Forbidden]
  exact Iff.of_eq (congrArg (Effect.Refuses · _) (funext fun _ => propext identity_eq_some))

variable (lib layer req)

theorem checkRequest_fst :
    (layer.checkRequest lib req).1 = (layer.effect req).outcome (layer.identity lib req) :=
  congrArg Prod.fst (applyEffect_eq lib (layer.effect req)
    (extractToken req.headers layer.cookieName) layer.check.jwtConfig
    layer.check.claimsValidator req.extensions (layer.identity lib req) rfl)

theorem checkRequest_eq_allow :
    (layer.checkRequest lib req).1 = .allow ↔ layer.Allowed lib req := by
  rw [checkRequest_fst, outcome_eq_allow]

inductive Checked : Outcome × Extensions E → Prop where
  | allow (allowed : layer.Allowed lib req) :
    Checked (.allow, req.extensions.grant (layer.identity lib req))
  | unauthorized (denied : ¬ layer.Allowed lib req) (unknown : ¬ layer.Forbidden lib req) :
    Checked (.unauthorized, req.extensions)
  | forbidden (denied : ¬ layer.Allowed lib req) (known : layer.Forbidden lib req) :
    Checked (.forbidden, req.extensions)

/-- **Every check is one of three**: the request may pass, and then its extensions say whom it
comes from; or it may not, and then they are left alone. -/
theorem checked : layer.Checked lib req (layer.checkRequest lib req) := by
  have hcheck : layer.checkRequest lib req = _ := applyEffect_eq lib (layer.effect req)
    (extractToken req.headers layer.cookieName) layer.check.jwtConfig
    layer.check.claimsValidator req.extensions (layer.identity lib req) rfl
  rw [hcheck]
  cases houtcome : (layer.effect req).outcome (layer.identity lib req) with
  | allow =>
    rw [if_pos rfl]
    exact .allow (outcome_eq_allow.mp houtcome)
  | unauthorized =>
    refine .unauthorized (fun h => ?_) fun h => ?_
    · exact absurd (houtcome.symm.trans (outcome_eq_allow.mpr h)) (by simp)
    · exact absurd (houtcome.symm.trans (outcome_eq_forbidden.mpr h)) (by simp)
  | forbidden =>
    refine .forbidden (fun h => ?_) (outcome_eq_forbidden.mp houtcome)
    exact absurd (houtcome.symm.trans (outcome_eq_allow.mpr h)) (by simp)

end AuthorizationLayer

end Axum
end StanoPlatform
