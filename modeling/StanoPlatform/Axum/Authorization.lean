import StanoPlatform.Axum.Http

/-!
# `Axum/Authorization.lean` — building an authorization layer

Two builders hand one chain back and forth: `request_matcher` and `any_request` take an
`AuthorizationBuilder` and give a `RequestMatcherBuilder`, and the four effects give it back.
A pattern is compiled when its rule is closed; a bad one leaves no rule but is remembered, the
first of them only, until `build`.

`matchit` is a parameter: what it accepts as a pattern, and what a pattern matches.

From `stano-axum/src/security/authorization.rs` and `pattern.rs`. Nothing is assumed of `matchit`
here: `Matchit` is a type of routers, an `insert` that may fail and a test. A claims validator is a
function; the future it returns in the source is taken to be ready when it is asked.
-/

set_option autoImplicit false

namespace StanoPlatform
namespace Axum

open Security

/-- What is used of the `matchit` crate: a router with one route. -/
structure Matchit where
  Router : Type
  InsertError : Type
  -- `insert(pattern, ())` into an empty router
  insert : String → Except InsertError Router
  -- `at(path).is_ok()`
  isMatch : Router → String → Bool

def Matchit.unasked : Matchit :=
  { Router := Unit, InsertError := Unit, insert := fun _ => .error (), isMatch := fun _ _ => false }

section

variable (M : Matchit)

structure CompiledPattern where
  router : M.Router

variable {M}

def CompiledPattern.new (pattern : String) : Except M.InsertError (CompiledPattern M) :=
  match M.insert pattern with
  | .ok router => .ok ⟨router⟩
  | .error err => .error err

def CompiledPattern.isMatch (pattern : CompiledPattern M) (path : String) : Bool :=
  M.isMatch pattern.router path

end

variable {E : Type}

/-- A `ClaimsValidator<E>`: what its future resolves to, at the time of one request. -/
abbrev ClaimsValidator (E : Type) : Type := Claims E → Except String Unit

inductive Effect (E : Type) where
  | permitAll
  | authenticated
  | hasRole (predicate : E → Bool)

structure Rule (M : Matchit) (E : Type) where
  methods : Option (List Method)
  pattern : CompiledPattern M
  effect : Effect E

inductive AuthorizationBuildError (M : Matchit) where
  | missingAnyRequest
  | invalidPattern (err : M.InsertError)

structure CheckState (M : Matchit) (E : Type) where
  rules : List (Rule M E)
  anyRequest : Effect E
  jwtConfig : JwtConfig
  claimsValidator : Option (ClaimsValidator E)

/-- `AuthorizationLayer`, with the type erasure undone. Its counter is in the history of the
requests (`Event.authFailure`). -/
structure AuthorizationLayer (M : Matchit) (E : Type) where
  check : CheckState M E
  cookieName : Option String

def buildLayer {M : Matchit} (rules : List (Rule M E)) (anyRequest : Effect E)
    (jwtConfig : JwtConfig) (claimsValidator : Option (ClaimsValidator E))
    (cookieName : Option String) : AuthorizationLayer M E :=
  { check := { rules, anyRequest, jwtConfig, claimsValidator }, cookieName }

/-- The fields end in `?` because the methods that set them have their names. -/
structure AuthorizationBuilder (M : Matchit) (E : Type) where
  rules : List (Rule M E)
  anyRequest? : Option (Effect E)
  claimsValidator? : Option (ClaimsValidator E)
  cookieName? : Option String
  poisoned? : Option M.InsertError

inductive PatternSpec where
  | pattern (pattern : String)
  | anyRequest
  deriving DecidableEq, Repr

structure RequestMatcherBuilder (M : Matchit) (E : Type) where
  parent : AuthorizationBuilder M E
  methods? : Option (List Method)
  pattern : PatternSpec

variable {M : Matchit}

namespace AuthorizationBuilder

def new : AuthorizationBuilder M E :=
  { rules := [], anyRequest? := none, claimsValidator? := none, cookieName? := none
    poisoned? := none }

def requestMatcher (builder : AuthorizationBuilder M E) (pattern : String) :
    RequestMatcherBuilder M E :=
  { parent := builder, methods? := none, pattern := .pattern pattern }

def anyRequest (builder : AuthorizationBuilder M E) : RequestMatcherBuilder M E :=
  { parent := builder, methods? := none, pattern := .anyRequest }

def withClaimsValidator (builder : AuthorizationBuilder M E) (validator : ClaimsValidator E) :
    AuthorizationBuilder M E :=
  { builder with claimsValidator? := some validator }

def cookieName (builder : AuthorizationBuilder M E) (name : String) : AuthorizationBuilder M E :=
  { builder with cookieName? := some name }

def poison (builder : AuthorizationBuilder M E) (err : M.InsertError) :
    AuthorizationBuilder M E :=
  { builder with poisoned? := some (builder.poisoned?.getD err) }

def build (builder : AuthorizationBuilder M E) (jwtConfig : JwtConfig) :
    Except (AuthorizationBuildError M) (AuthorizationLayer M E) :=
  match builder.poisoned? with
  | some err => .error (.invalidPattern err)
  | none =>
    match builder.anyRequest? with
    | none => .error .missingAnyRequest
    | some anyRequest => .ok (buildLayer builder.rules anyRequest jwtConfig
        builder.claimsValidator? builder.cookieName?)

end AuthorizationBuilder

namespace RequestMatcherBuilder

def methods (builder : RequestMatcherBuilder M E) (methods : List Method) :
    RequestMatcherBuilder M E :=
  { builder with methods? := some methods }

def finish (builder : RequestMatcherBuilder M E) (effect : Effect E) : AuthorizationBuilder M E :=
  let parent := builder.parent
  match builder.pattern with
  | .anyRequest => { parent with anyRequest? := some effect }
  | .pattern pattern =>
    match CompiledPattern.new pattern with
    | .ok compiled =>
      { parent with
        rules := parent.rules ++ [{ methods := builder.methods?, pattern := compiled, effect }] }
    | .error err => parent.poison err

def permitAll (builder : RequestMatcherBuilder M E) : AuthorizationBuilder M E :=
  builder.finish .permitAll

def authenticated (builder : RequestMatcherBuilder M E) : AuthorizationBuilder M E :=
  builder.finish .authenticated

def hasRole (builder : RequestMatcherBuilder M E) (predicate : E → Bool) :
    AuthorizationBuilder M E :=
  builder.finish (.hasRole predicate)

def hasAnyRole (builder : RequestMatcherBuilder M E) (predicates : List (E → Bool)) :
    AuthorizationBuilder M E :=
  builder.finish (.hasRole fun ext => predicates.any fun p => p ext)

end RequestMatcherBuilder

/-! ## Checking -/

namespace CheckState

/-- `methods.contains(method)`, or no restriction; and the pattern matches. -/
def applies (method : Method) (path : String) (rule : Rule M E) : Bool :=
  (rule.methods.map fun methods => methods.contains method).getD true && rule.pattern.isMatch path

def effect (state : CheckState M E) (method : Method) (path : String) : Effect E :=
  ((state.rules.find? (applies method path)).map (·.effect)).getD state.anyRequest

end CheckState

end Axum
end StanoPlatform
