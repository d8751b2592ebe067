import StanoPlatform.Axum.Layer
import StanoPlatform.Security.Token

/-!
# `Axum/Expiry.lean` — tokens that are past their time

`decode_jwt` asks what `Validation::new` asks, and that forgives 60 seconds. What is past even
that is an expired token to `decode_jwt`, and to the layer it is as good as no token.

From `decode_jwt`, `apply_effect` and the middleware of `AuthorizationLayer`. That `jsonwebtoken`
checks `exp` with the leeway of its `Validation`, against the time it is asked at, is what its
documentation says, and a hypothesis here (`Jsonwebtoken.Suite.Documented`).
-/

set_option autoImplicit false

namespace StanoPlatform
namespace Axum

open Security

variable {M : Matchit} {E : Type}

/-- A token that does not decode names nobody. -/
theorem identity_of_error {lib : Jsonwebtoken E} {layer : AuthorizationLayer M E}
    {req : Request E} {token : String} {e : JwtError}
    (htoken : extractToken req.headers layer.cookieName = some token)
    (hdecode : decodeJwt lib token layer.check.jwtConfig = .error e) :
    layer.identity lib req = none := by
  rw [AuthorizationLayer.identity, htoken, decodeToken, Option.bind_some, hdecode]
  rfl

/-- What the layer does with a request of nobody. -/
theorem middleware_of_nobody {S : Type} {lib : Jsonwebtoken E} {layer : AuthorizationLayer M E}
    {req : Request E} (hidentity : layer.identity lib req = none) (inner : Service E S) :
    (layer.effect req = .permitAll → (layer.middleware lib).layer inner req = inner req) ∧
    (layer.effect req ≠ .permitAll → (layer.middleware lib).layer inner req =
      ⟨(ApiError.service .unauthorized).intoResponse, [.authFailure req.method 401]⟩) := by
  have hcheck := applyEffect_eq lib (layer.effect req)
    (extractToken req.headers layer.cookieName) layer.check.jwtConfig
    layer.check.claimsValidator req.extensions none hidentity.symm
  change layer.checkRequest lib req = _ at hcheck
  rw [Middleware.layer, AuthorizationLayer.middleware, hcheck]
  cases layer.effect req with
  | permitAll => simp [Effect.outcome, Outcome.failureStatus, Code.run, Extensions.grant]
  | authenticated | hasRole predicate =>
    simp [Effect.outcome, Outcome.failureStatus, Code.run]

/-- **When a token is expired.** A token that carries claims is `TokenExpired` iff its expiration
is more than 60 seconds past; one that carries something else is never decoded at all. Once the 60
seconds are over a rule that asks for a token answers 401, and `permit_all` inserts no context. -/
theorem expired_iff (lib : Jsonwebtoken E) (de : Payload → Except String E)
    (isAudience : Json → Bool) (now : Nat) (Signed : String → lib.DecodingKey → Payload → Prop)
    (hlib : lib.Documented de isAudience now Signed) (config : JwtConfig) (key : lib.DecodingKey)
    (hkey : lib.fromEcPem config.publicKeyPem = .ok key) (token : String) (payload : Payload)
    (hsigned : Signed token key payload) :
    (∀ claims, Claims.deserialize de payload = .ok claims →
      (decodeJwt lib token config = .error .tokenExpired ↔ claims.exp + 60 < now)) ∧
    (∀ message, Claims.deserialize de payload = .error message →
      ∃ m, decodeJwt lib token config = .error (.decodingFailed m)) ∧
    ((∀ claims, Claims.deserialize de payload = .ok claims → claims.exp + 60 < now) →
      ∀ (S : Type) (layer : AuthorizationLayer M E) (inner : Service E S) (req : Request E),
        layer.check.jwtConfig = config →
        extractToken req.headers layer.cookieName = some token →
        (layer.effect req = .permitAll → (layer.middleware lib).layer inner req = inner req) ∧
        (layer.effect req ≠ .permitAll → (layer.middleware lib).layer inner req =
          ⟨(ApiError.service .unauthorized).intoResponse, [.authFailure req.method 401]⟩)) := by
  refine ⟨fun claims => decodeJwt_tokenExpired hlib hkey hsigned,
    fun message => decodeJwt_of_unreadable hlib hkey hsigned, fun hpast S layer inner req hconfig
      htoken => ?_⟩
  have hdecode : ∃ e, decodeJwt lib token layer.check.jwtConfig = .error e := by
    rw [hconfig]
    cases hread : Claims.deserialize de payload with
    | ok claims =>
      exact ⟨_, (decodeJwt_tokenExpired hlib hkey hsigned hread).mpr (hpast claims hread)⟩
    | error message =>
      obtain ⟨m, hm⟩ := decodeJwt_of_unreadable hlib hkey hsigned hread
      exact ⟨_, hm⟩
  obtain ⟨e, he⟩ := hdecode
  exact middleware_of_nobody (identity_of_error htoken he) inner

/-! ### A minute either way -/

/-- A token in the clear, for an administrator. -/
def adminToken (exp : Nat) : String :=
  .ofList (.replicate (Encodable.encode ((adminUntil exp).serialize (memberSer "role"))) 'x')

theorem adminToken_signed (exp : Nat) :
    ClearlySigned (adminToken exp) () ((adminUntil exp).serialize (memberSer "role")) :=
  clearlySigned_encode _

theorem expired_iff_past_leeway :
    decodeJwt (Jsonwebtoken.Suite.clear memberDe isText 400).toJsonwebtoken (adminToken 339)
      ⟨"", "", 3600⟩ = .error .tokenExpired := by
  have h := @expired_iff .unasked String
    (Jsonwebtoken.Suite.clear memberDe isText 400).toJsonwebtoken memberDe isText 400
    ClearlySigned (clear_documented memberDe isText 400) ⟨"", "", 3600⟩ () rfl (adminToken 339)
    _ (adminToken_signed 339)
  exact (h.1 (adminUntil 339) rfl).mpr (by decide)

/-- Expired by a second, and honoured. -/
theorem expired_within_leeway : ¬ (399 < 400 →
    decodeJwt (Jsonwebtoken.Suite.clear memberDe isText 400).toJsonwebtoken (adminToken 399)
      ⟨"", "", 3600⟩ = .error .tokenExpired) := by
  have hread : Claims.deserialize memberDe ((adminUntil 399).serialize (memberSer "role")) =
    .ok (adminUntil 399) := rfl
  have hdecode : decodeJwt (Jsonwebtoken.Suite.clear memberDe isText 400).toJsonwebtoken
      (adminToken 399) ⟨"", "", 3600⟩ = .ok (adminUntil 399) :=
    decodeJwt_of_accepted (clear_documented memberDe isText 400) rfl (adminToken_signed 399) hread
      (by decide) (by simp [Claims.serialize, memberSer]) (by decide)
  intro h
  exact absurd ((h (by decide)).symm.trans hdecode) (by simp)

end Axum
end StanoPlatform
