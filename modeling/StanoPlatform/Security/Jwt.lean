/-!
# `Security/Jwt.lean` — tokens and what they decode to

`stano-security`: the claims of a token, the context a handler gets, and `decode_jwt`. The
signature and the JSON are `jsonwebtoken`'s business, so that crate is a parameter; what is ours
is which `Validation` it is called with and what becomes of its errors.

From `stano-security/src/jwt.rs` and `security_context.rs`. `Validation::new(ES256)` has its
documented defaults: a leeway of 60 seconds, `exp` required and checked, an audience refused if none
is configured. Nothing is assumed yet of what the library makes of them.
-/

set_option autoImplicit false

namespace StanoPlatform
namespace Security

structure Claims (E : Type) where
  sub : String
  sessionId : String
  exp : Nat
  ext : E

/-- `SecurityContext<E>`: the field is private, so a value is `SecurityContext::new` of some
claims. -/
structure SecurityContext (E : Type) where
  new ::
  claims : Claims E

structure JwtConfig where
  privateKeyPem : String
  publicKeyPem : String
  expirationSeconds : Nat

inductive JwtError where
  | encodingFailed (message : String)
  | decodingFailed (message : String)
  | invalidKey (message : String)
  | tokenExpired
  | invalidToken (message : String)
  deriving DecidableEq, Repr

/-- The algorithms a `Header` or a `Validation` can name, as far as this crate uses them. -/
inductive Algorithm where
  | es256
  deriving DecidableEq, Repr

structure Validation where
  requiredSpecClaims : List String
  leeway : Nat
  rejectTokensExpiringInLessThan : Nat
  validateExp : Bool
  validateNbf : Bool
  validateAud : Bool
  aud : Option (List String)
  iss : Option (List String)
  sub : Option String
  algorithms : List Algorithm

def Validation.new (alg : Algorithm) : Validation :=
  { requiredSpecClaims := ["exp"], leeway := 60, rejectTokensExpiringInLessThan := 0
    validateExp := true, validateNbf := false, validateAud := true
    aud := none, iss := none, sub := none, algorithms := [alg] }

/-- `jsonwebtoken::errors::Error`, by its kind and its text. -/
structure DecodeError where
  expiredSignature : Bool
  message : String

/-- What is used of the `jsonwebtoken` crate, as it behaves at the time of one request. -/
structure Jsonwebtoken (E : Type) where
  DecodingKey : Type
  -- `DecodingKey::from_ec_pem`
  fromEcPem : String → Except String DecodingKey
  -- `decode::<Claims<E>>`, the claims of the `TokenData`
  decode : String → DecodingKey → Validation → Except DecodeError (Claims E)

/-- A configuration without keys. -/
def Jsonwebtoken.keyless (E : Type) : Jsonwebtoken E where
  DecodingKey := Unit
  fromEcPem _ := .error "InvalidKeyFormat"
  decode _ _ _ := .error ⟨false, "InvalidToken"⟩

def decodeJwt {E : Type} (lib : Jsonwebtoken E) (token : String) (config : JwtConfig) :
    Except JwtError (Claims E) :=
  match lib.fromEcPem config.publicKeyPem with
  | .error e => .error (.invalidKey e)
  | .ok decodingKey =>
    match lib.decode token decodingKey (Validation.new .es256) with
    | .ok claims => .ok claims
    | .error e =>
      if e.expiredSignature then .error .tokenExpired else .error (.decodingFailed e.message)

end Security
end StanoPlatform
