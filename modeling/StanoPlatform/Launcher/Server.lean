import StanoPlatform.Axum.Layer

/-!
# `Launcher/Server.lean` — the stack of `run`

`run` wraps the router in layers, one `app.layer(..)` after another, so the list below reads as
the source does: what is added later is further out. The layers that are somebody else's code, or
whose code does not matter to what is proved, are a parameter (`others`).

From `run` in `stano-launcher/src/server.rs`. `app.layer(..)` wraps what is there already, as axum
documents, so what is added last sees a request first and its response last.
-/

set_option autoImplicit false

namespace StanoPlatform
namespace Launcher

open Security Axum

/-- The places of the stack where arrivals are on record. -/
inductive Site where
  | postAuthorization
  | router
  deriving DecidableEq, Repr

variable {M : Matchit} {E : Type}

inductive Layer (M : Matchit) (E : Type) where
  | recordHttpMetrics
  | timeout
  | httpRequestLogging
  | trace
  | errorLogging
  | catchPanic
  | compression
  | setRequestId
  | propagateRequestId
  | requestBodyLimit
  | postAuthorization (hook : Middleware E Site)
  | authorization (layer : AuthorizationLayer M E)
  | addSecurityHeaders
  | cors

/-- The arguments of `run` that the stack depends on. -/
structure RunArgs (M : Matchit) (E : Type) where
  metricsEnabled : Bool
  prometheusEnabled : Bool
  httpLoggingEnabled : Bool
  authorization : Option (AuthorizationLayer M E)
  postAuthorization : Option (Middleware E Site)

namespace RunArgs

variable (args : RunArgs M E)

def metrics : Bool := args.metricsEnabled || args.prometheusEnabled

/-- The layers between the router and the hook, innermost first. -/
def inner : List (Layer M E) :=
  (if args.metrics then [.recordHttpMetrics] else []) ++
  [.timeout] ++
  (if args.httpLoggingEnabled then [.httpRequestLogging] else []) ++
  [.trace, .errorLogging, .catchPanic, .compression, .setRequestId, .propagateRequestId,
    .requestBodyLimit]

/-- The layers the authorization layer is around. -/
def behind : List (Layer M E) :=
  args.inner ++ args.postAuthorization.toList.map .postAuthorization

/-- The layers of the stack, innermost first. -/
def layers : List (Layer M E) :=
  args.behind ++ args.authorization.toList.map .authorization ++ [.addSecurityHeaders, .cors]

end RunArgs

def Layer.serve (lib : Jsonwebtoken E) (others : Layer M E → Middleware E Site)
    (app : Service E Site) : Layer M E → Service E Site
  | .postAuthorization hook => (hook.layer app).at .postAuthorization
  | .authorization layer => (layer.middleware lib).layer app
  | layer => (others layer).layer app

def serve (lib : Jsonwebtoken E) (others : Layer M E → Middleware E Site)
    (router : Service E Site) (layers : List (Layer M E)) : Service E Site :=
  layers.foldl (Layer.serve lib others) (router.at .router)

end Launcher
end StanoPlatform
