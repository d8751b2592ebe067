import Mathlib.Logic.Equiv.List
import StanoPlatform.Security.Jwt

/-!
# `Security/Token.lean` — what is signed, and what comes back

A token carries one JSON object: the claims of the platform and, flattened into it, the members of
the app's extension. What serde derives for `Claims` is here. Two things are not.

* Signing is `jsonwebtoken`'s. `Documented` says what its documentation does: that a payload is
  first read as the claims, and what a `Validation` then asks of it.
* How the extension is read is the app's `Deserialize`, a parameter `de`. It never sees the token's
  JSON. The derived code for a flattened field collects the members that are no field of `Claims`
  in a buffer of serde's own, and the extension is read out of that buffer. The buffer is not the
  JSON: it holds no `u128`, and a map key in it is a string, never a number. So a type that
  comes back from its own JSON need not come back from a token, and whether it does is a
  condition of its own in `encode_decode_iff`.

The tokens at the end are not signed: a library that writes its payload in the clear meets the same
documentation (`clear_documented`), and there every condition can be looked at on its own.
-/

set_option autoImplicit false

namespace StanoPlatform
namespace Security

variable {E : Type}

inductive Json where
  | string (text : String)
  -- a number that is a `usize`
  | number (value : Nat)
  -- anything else, by its text
  | other (text : String)
  deriving DecidableEq, Repr

/-- A JSON object: its members, in order. -/
abbrev Payload : Type := List (String × Json)

/-! ## `#[derive(Serialize, Deserialize)]` on `Claims` -/

/-- `ser` is what the extension serialises to. -/
def Claims.serialize (ser : E → Payload) (claims : Claims E) : Payload :=
  ("sub", .string claims.sub) :: ("session_id", .string claims.sessionId) ::
    ("exp", .number claims.exp) :: ser claims.ext

/-- The fields read so far, and the members collected for `#[serde(flatten)]`. -/
structure ClaimsVisitor where
  sub : Option String
  sessionId : Option String
  exp : Option Nat
  collect : Payload

namespace ClaimsVisitor

def asString : Json → Option String
  | .string text => some text
  | _ => none

def asUsize : Json → Option Nat
  | .number value => some value
  | _ => none

/-- A named field, unless it was there already. -/
def field {α : Type} (name : String) (read : Json → Option α) (seen : Option α) (value : Json) :
    Except String α :=
  match seen, read value with
  | some _, _ => .error ("duplicate field " ++ name)
  | none, some a => .ok a
  | none, none => .error ("invalid type for " ++ name)

def visit (visitor : ClaimsVisitor) (member : String × Json) : Except String ClaimsVisitor :=
  if member.1 = "sub" then
    (field "sub" asString visitor.sub member.2).map fun sub => { visitor with sub := some sub }
  else if member.1 = "session_id" then
    (field "session_id" asString visitor.sessionId member.2).map fun sessionId =>
      { visitor with sessionId := some sessionId }
  else if member.1 = "exp" then
    (field "exp" asUsize visitor.exp member.2).map fun exp => { visitor with exp := some exp }
  else .ok { visitor with collect := visitor.collect ++ [member] }

def required {α : Type} (name : String) : Option α → Except String α
  | some a => .ok a
  | none => .error ("missing field " ++ name)

/-- `de` is the extension's `Deserialize`, run on the buffer of the members that were collected. -/
def finish (de : Payload → Except String E) (visitor : ClaimsVisitor) :
    Except String (Claims E) := do
  let sub ← required "sub" visitor.sub
  let sessionId ← required "session_id" visitor.sessionId
  let exp ← required "exp" visitor.exp
  let ext ← de visitor.collect
  return { sub, sessionId, exp, ext }

end ClaimsVisitor

def Claims.deserialize (de : Payload → Except String E) (payload : Payload) :
    Except String (Claims E) := do
  let visitor ← payload.foldlM ClaimsVisitor.visit ⟨none, none, none, []⟩
  visitor.finish de

/-! ### There and back -/

/-- The members `Claims` has of its own. -/
def ownMembers : List String := ["sub", "session_id", "exp"]

namespace ClaimsVisitor

theorem visit_of_not_own {visitor : ClaimsVisitor} {member : String × Json}
    (h : member.1 ∉ ownMembers) :
    visitor.visit member = .ok { visitor with collect := visitor.collect ++ [member] } := by
  simp only [ownMembers, List.mem_cons, List.not_mem_nil, or_false, not_or] at h
  rw [visit, if_neg h.1, if_neg h.2.1, if_neg h.2.2]

theorem foldlM_visit {members : Payload} (h : ∀ m ∈ members, m.1 ∉ ownMembers)
    (visitor : ClaimsVisitor) :
    members.foldlM visit visitor = .ok { visitor with collect := visitor.collect ++ members } := by
  induction members generalizing visitor with
  | nil => simp [pure, Except.pure]
  | cons m members ih =>
    rw [List.foldlM_cons, visit_of_not_own (h m List.mem_cons_self)]
    exact (ih (fun m' hm' => h m' (List.mem_cons_of_mem _ hm')) _).trans (by simp)

/-- Once the fields are read, none may come again. -/
theorem visit_full (sub sessionId : String) (exp : Nat) (collect : Payload)
    {member : String × Json} (h : member.1 ∈ ownMembers) :
    ∃ message, visit ⟨some sub, some sessionId, some exp, collect⟩ member = .error message := by
  simp only [ownMembers, List.mem_cons, List.not_mem_nil, or_false] at h
  rw [visit]
  rcases h with h | h | h
  · exact ⟨_, by rw [if_pos h]; rfl⟩
  · exact ⟨_, by rw [h, if_neg (by decide), if_pos rfl]; rfl⟩
  · exact ⟨_, by rw [h, if_neg (by decide), if_neg (by decide), if_pos rfl]; rfl⟩

theorem foldlM_visit_full (sub sessionId : String) (exp : Nat) {collect members : Payload}
    (h : ∃ m ∈ members, m.1 ∈ ownMembers) :
    ∃ message, members.foldlM visit ⟨some sub, some sessionId, some exp, collect⟩ =
      .error message := by
  induction members generalizing collect with
  | nil => simp at h
  | cons m members ih =>
    rw [List.foldlM_cons]
    by_cases hm : m.1 ∈ ownMembers
    · obtain ⟨message, hmessage⟩ := visit_full sub sessionId exp collect hm
      exact ⟨message, by rw [hmessage]; rfl⟩
    · rw [visit_of_not_own hm]
      obtain ⟨m', hm', hown⟩ := h
      rcases List.mem_cons.mp hm' with rfl | hm'
      · exact absurd hown hm
      · exact ih ⟨m', hm', hown⟩

end ClaimsVisitor

/-- The three fields come first, and are read. -/
theorem deserialize_serialize (ser : E → Payload) (de : Payload → Except String E)
    (claims : Claims E) :
    Claims.deserialize de (claims.serialize ser) = (do
      let visitor ← (ser claims.ext).foldlM ClaimsVisitor.visit
        ⟨some claims.sub, some claims.sessionId, some claims.exp, []⟩
      visitor.finish de) := rfl

/-- With no name taken twice, all that is left to chance is the extension. -/
theorem deserialize_of_foreign {ser : E → Payload} (de : Payload → Except String E)
    {claims : Claims E} (h : ∀ m ∈ ser claims.ext, m.1 ∉ ownMembers) :
    Claims.deserialize de (claims.serialize ser) =
      (de (ser claims.ext)).map fun ext => { claims with ext } := by
  rw [deserialize_serialize, ClaimsVisitor.foldlM_visit h]
  change ClaimsVisitor.finish de
    ⟨some claims.sub, some claims.sessionId, some claims.exp, [] ++ ser claims.ext⟩ = _
  rw [List.nil_append, ClaimsVisitor.finish]
  cases de (ser claims.ext) <;> rfl

theorem deserialize_of_own {ser : E → Payload} (de : Payload → Except String E)
    {claims : Claims E} (h : ∃ m ∈ ser claims.ext, m.1 ∈ ownMembers) :
    ∃ message, Claims.deserialize de (claims.serialize ser) = .error message := by
  obtain ⟨message, hmessage⟩ :=
    ClaimsVisitor.foldlM_visit_full claims.sub claims.sessionId claims.exp h
  exact ⟨message, by rw [deserialize_serialize, hmessage]; rfl⟩

/-! ## `jsonwebtoken` -/

/-- The half of the crate that signs. -/
structure Jsonwebtoken.Suite (E : Type) extends Jsonwebtoken E where
  EncodingKey : Type
  -- `EncodingKey::from_ec_pem`
  encodingKeyFromEcPem : String → Except String EncodingKey
  -- `encode(&Header::new(algorithm), ..)`, with the claims serialised
  encode : Algorithm → Payload → EncodingKey → Except String String

def encodeJwt (lib : Jsonwebtoken.Suite E) (ser : E → Payload) (claims : Claims E)
    (config : JwtConfig) : Except JwtError String :=
  match lib.encodingKeyFromEcPem config.privateKeyPem with
  | .error e => .error (.invalidKey e)
  | .ok encodingKey =>
    match lib.encode .es256 (claims.serialize ser) encodingKey with
    | .ok token => .ok token
    | .error e => .error (.encodingFailed e)

namespace Validation

/-- Nothing is asked but the signature, the expiration and the audience. -/
def Plain (v : Validation) : Prop :=
  v.requiredSpecClaims = ["exp"] ∧ v.validateNbf = false ∧ v.iss = none ∧ v.sub = none ∧
    .es256 ∈ v.algorithms

/-- `exp - reject_tokens_expiring_in_less_than < now - leeway` -/
def expired (v : Validation) (now exp : Nat) : Bool :=
  v.validateExp && exp + v.leeway < now + v.rejectTokensExpiringInLessThan

/-- There is an audience, and none is accepted. -/
def rejectsAudience (v : Validation) (isAudience : Json → Bool) (payload : Payload) : Bool :=
  v.validateAud && v.aud.isNone && payload.any fun m => m.1 = "aud" && isAudience m.2

end Validation

/-- What the documentation says of `decode`, at the time `now`, about the tokens that carry a
signature good for a key (`Signed`). `isAudience` is what the crate takes for an audience. -/
structure Jsonwebtoken.Documented (lib : Jsonwebtoken E) (de : Payload → Except String E)
    (isAudience : Json → Bool) (now : Nat)
    (Signed : String → lib.DecodingKey → Payload → Prop) : Prop where
  unreadable : ∀ token key payload v, Signed token key payload → v.Plain →
    ∀ message, Claims.deserialize de payload = .error message →
    ∃ e, lib.decode token key v = .error e ∧ e.expiredSignature = false
  expired : ∀ token key payload v, Signed token key payload → v.Plain →
    ∀ claims, Claims.deserialize de payload = .ok claims →
    ((∃ e, lib.decode token key v = .error e ∧ e.expiredSignature = true) ↔
      v.expired now claims.exp = true)
  audience : ∀ token key payload v, Signed token key payload → v.Plain →
    ∀ claims, Claims.deserialize de payload = .ok claims → v.expired now claims.exp = false →
    v.rejectsAudience isAudience payload = true →
    ∃ e, lib.decode token key v = .error e ∧ e.expiredSignature = false
  accepted : ∀ token key payload v, Signed token key payload → v.Plain →
    ∀ claims, Claims.deserialize de payload = .ok claims → v.expired now claims.exp = false →
    v.rejectsAudience isAudience payload = false → (payload.map (·.1)).Nodup →
    lib.decode token key v = .ok claims

/-- The keys of a pair: what the one signs is good for the other. -/
def Jsonwebtoken.Suite.Matching (lib : Jsonwebtoken.Suite E)
    (Signed : String → lib.DecodingKey → Payload → Prop) (encodingKey : lib.EncodingKey)
    (decodingKey : lib.DecodingKey) : Prop :=
  ∀ payload, ∃ token, lib.encode .es256 payload encodingKey = .ok token ∧
    Signed token decodingKey payload

/-! ## What `decode_jwt` makes of a token that is signed -/

theorem plain_new : (Validation.new .es256).Plain :=
  ⟨rfl, rfl, rfl, rfl, List.mem_singleton.mpr rfl⟩

theorem expired_new {now exp : Nat} :
    (Validation.new .es256).expired now exp = true ↔ exp + 60 < now := by
  exact decide_eq_true_iff

theorem rejectsAudience_new {isAudience : Json → Bool} {payload : Payload} :
    (Validation.new .es256).rejectsAudience isAudience payload = true ↔
      ∃ value, ("aud", value) ∈ payload ∧ isAudience value = true := by
  simp [Validation.new, Validation.rejectsAudience]

section

variable {lib : Jsonwebtoken E} {de : Payload → Except String E} {isAudience : Json → Bool}
  {now : Nat} {Signed : String → lib.DecodingKey → Payload → Prop}
  (hlib : lib.Documented de isAudience now Signed) {config : JwtConfig} {key : lib.DecodingKey}
  (hkey : lib.fromEcPem config.publicKeyPem = .ok key) {token : String} {payload : Payload}
  (hsigned : Signed token key payload)

include hlib hkey hsigned

theorem decodeJwt_of_unreadable {message : String}
    (h : Claims.deserialize de payload = .error message) :
    ∃ m, decodeJwt lib token config = .error (.decodingFailed m) := by
  obtain ⟨e, he, hkind⟩ := hlib.unreadable token key payload _ hsigned plain_new message h
  exact ⟨e.message, by simp [decodeJwt, hkey, he, hkind]⟩

theorem decodeJwt_tokenExpired {claims : Claims E}
    (h : Claims.deserialize de payload = .ok claims) :
    decodeJwt lib token config = .error .tokenExpired ↔ claims.exp + 60 < now := by
  rw [← expired_new, ← hlib.expired token key payload _ hsigned plain_new claims h, decodeJwt,
    hkey]
  simp only
  cases lib.decode token key (Validation.new .es256) with
  | ok claims => simp
  | error e => cases hkind : e.expiredSignature <;> simp [hkind]

theorem decodeJwt_of_audience {claims : Claims E}
    (h : Claims.deserialize de payload = .ok claims) (hexp : ¬ claims.exp + 60 < now)
    (haud : ∃ value, ("aud", value) ∈ payload ∧ isAudience value = true) :
    ∃ m, decodeJwt lib token config = .error (.decodingFailed m) := by
  obtain ⟨e, he, hkind⟩ := hlib.audience token key payload _ hsigned plain_new claims h
    (Bool.eq_false_iff.mpr (mt expired_new.mp hexp)) (rejectsAudience_new.mpr haud)
  exact ⟨e.message, by simp [decodeJwt, hkey, he, hkind]⟩

theorem decodeJwt_of_accepted {claims : Claims E}
    (h : Claims.deserialize de payload = .ok claims) (hexp : ¬ claims.exp + 60 < now)
    (haud : ¬ ∃ value, ("aud", value) ∈ payload ∧ isAudience value = true)
    (hnodup : (payload.map (·.1)).Nodup) : decodeJwt lib token config = .ok claims := by
  have hdecode := hlib.accepted token key payload _ hsigned plain_new claims h
    (Bool.eq_false_iff.mpr (mt expired_new.mp hexp))
    (Bool.eq_false_iff.mpr (mt rejectsAudience_new.mp haud)) hnodup
  simp [decodeJwt, hkey, hdecode]

end

theorem aud_mem_serialize (ser : E → Payload) (claims : Claims E) {value : Json} :
    ("aud", value) ∈ claims.serialize ser ↔ ("aud", value) ∈ ser claims.ext := by
  simp [Claims.serialize]

theorem nodup_serialize {ser : E → Payload} {claims : Claims E}
    (hdistinct : ((ser claims.ext).map (·.1)).Nodup)
    (h : ∀ m ∈ ser claims.ext, m.1 ∉ ownMembers) :
    ((claims.serialize ser).map (·.1)).Nodup := by
  have hdisjoint : ownMembers.Disjoint ((ser claims.ext).map (·.1)) := by
    intro name hown hmem
    obtain ⟨m, hm, rfl⟩ := List.mem_map.mp hmem
    exact h m hm hown
  exact List.Nodup.append (by decide : ownMembers.Nodup) hdistinct hdisjoint

theorem decodeJwt_of_foreign {lib : Jsonwebtoken E} {de : Payload → Except String E}
    {isAudience : Json → Bool} {now : Nat} {Signed : String → lib.DecodingKey → Payload → Prop}
    (hlib : lib.Documented de isAudience now Signed) {config : JwtConfig} {key : lib.DecodingKey}
    (hkey : lib.fromEcPem config.publicKeyPem = .ok key) {token : String} {ser : E → Payload}
    {claims : Claims E} (hsigned : Signed token key (claims.serialize ser))
    (hdistinct : ((ser claims.ext).map (·.1)).Nodup)
    (hown : ∀ m ∈ ser claims.ext, m.1 ∉ ownMembers) (hexp : ¬ claims.exp + 60 < now) :
    decodeJwt lib token config = .ok claims ↔
      (¬ ∃ value, ("aud", value) ∈ ser claims.ext ∧ isAudience value = true) ∧
        de (ser claims.ext) = .ok claims.ext := by
  have hread := deserialize_of_foreign de hown
  simp only [← aud_mem_serialize ser claims]
  cases hde : de (ser claims.ext) with
  | error message =>
    rw [hde] at hread
    obtain ⟨m, hm⟩ := decodeJwt_of_unreadable hlib hkey hsigned hread
    simp [hm]
  | ok ext =>
    rw [hde] at hread
    by_cases haud : ∃ value, ("aud", value) ∈ claims.serialize ser ∧ isAudience value = true
    · obtain ⟨m, hm⟩ := decodeJwt_of_audience hlib hkey hsigned hread hexp haud
      simp [hm, haud]
    · rw [decodeJwt_of_accepted hlib hkey hsigned hread hexp haud (nodup_serialize hdistinct hown)]
      obtain ⟨sub, sessionId, exp, own⟩ := claims
      simp [haud]

/-- **Which claims survive the round trip.** With a key pair that matches and an expiration that is
not past, `decode_jwt` gives back what `encode_jwt` was given iff no member of the extension has
the name of a field of `Claims`, none is an audience, and the extension can be read back out of the
buffer its members are collected in. -/
theorem encode_decode_iff (lib : Jsonwebtoken.Suite E) (ser : E → Payload)
    (de : Payload → Except String E) (hdistinct : ∀ ext, ((ser ext).map (·.1)).Nodup)
    (isAudience : Json → Bool) (now : Nat) (Signed : String → lib.DecodingKey → Payload → Prop)
    (hlib : lib.Documented de isAudience now Signed) (config : JwtConfig)
    (encodingKey : lib.EncodingKey) (decodingKey : lib.DecodingKey)
    (hprivate : lib.encodingKeyFromEcPem config.privateKeyPem = .ok encodingKey)
    (hpublic : lib.fromEcPem config.publicKeyPem = .ok decodingKey)
    (hmatching : lib.Matching Signed encodingKey decodingKey) (claims : Claims E)
    (hexp : now ≤ claims.exp) :
    (∃ token, encodeJwt lib ser claims config = .ok token ∧
      decodeJwt lib.toJsonwebtoken token config = .ok claims) ↔
    (∀ m ∈ ser claims.ext, m.1 ∉ ownMembers) ∧
      (¬ ∃ value, ("aud", value) ∈ ser claims.ext ∧ isAudience value = true) ∧
      de (ser claims.ext) = .ok claims.ext := by
  obtain ⟨token, htoken, hsigned⟩ := hmatching (claims.serialize ser)
  have hencode : encodeJwt lib ser claims config = .ok token := by
    simp [encodeJwt, hprivate, htoken]
  have hdecodes : (∃ t, encodeJwt lib ser claims config = .ok t ∧
      decodeJwt lib.toJsonwebtoken t config = .ok claims) ↔
      decodeJwt lib.toJsonwebtoken token config = .ok claims := by
    simp [hencode]
  have hlater : ¬ claims.exp + 60 < now := by omega
  rw [hdecodes]
  by_cases hown : ∀ m ∈ ser claims.ext, m.1 ∉ ownMembers
  · rw [and_iff_right hown]
    exact decodeJwt_of_foreign hlib hpublic hsigned (hdistinct _) hown hlater
  · push Not at hown
    obtain ⟨message, hmessage⟩ := deserialize_of_own de hown
    obtain ⟨m, hm⟩ := decodeJwt_of_unreadable hlib hpublic hsigned hmessage
    rw [hm]
    refine iff_of_false (by simp) fun h => ?_
    obtain ⟨m, hm, hmem⟩ := hown
    exact h.1 m hm hmem

/-! ### Tokens in the clear -/

def Json.equiv : Json ≃ String ⊕ Nat ⊕ String where
  toFun
    | .string text => .inl text
    | .number value => .inr (.inl value)
    | .other text => .inr (.inr text)
  invFun
    | .inl text => .string text
    | .inr (.inl value) => .number value
    | .inr (.inr text) => .other text
  left_inv json := by cases json <;> rfl
  right_inv sum := by rcases sum with _ | _ | _ <;> rfl

instance encodableString : Encodable String :=
  Encodable.ofLeftInverse (fun s => s.toList.map Char.toNat) (fun l => .ofList (l.map Char.ofNat))
    fun s => by simp [Function.comp_def]

instance encodableJson : Encodable Json := Encodable.ofEquiv _ Json.equiv

def Validation.check (v : Validation) (de : Payload → Except String E)
    (isAudience : Json → Bool) (now : Nat) (payload : Payload) : Except DecodeError (Claims E) :=
  match Claims.deserialize de payload with
  | .error message => .error ⟨false, message⟩
  | .ok claims =>
    if v.expired now claims.exp then .error ⟨true, "ExpiredSignature"⟩
    else if v.rejectsAudience isAudience payload then .error ⟨false, "InvalidAudience"⟩
    else .ok claims

/-- Tokens that are the number of their payload. -/
def Jsonwebtoken.Suite.clear (de : Payload → Except String E) (isAudience : Json → Bool)
    (now : Nat) : Jsonwebtoken.Suite E where
  DecodingKey := Unit
  fromEcPem _ := .ok ()
  decode token _ v :=
    match (Encodable.decode token.length : Option Payload) with
    | none => .error ⟨false, "InvalidToken"⟩
    | some payload => v.check de isAudience now payload
  EncodingKey := Unit
  encodingKeyFromEcPem _ := .ok ()
  encode _ payload _ := .ok (.ofList (.replicate (Encodable.encode payload) 'x'))

def ClearlySigned (token : String) (_ : Unit) (payload : Payload) : Prop :=
  Encodable.decode token.length = some payload

section

variable (de : Payload → Except String E) (isAudience : Json → Bool) (now : Nat)

theorem clear_decode {token : String} {payload : Payload}
    {key : (Jsonwebtoken.Suite.clear de isAudience now).DecodingKey}
    (h : ClearlySigned token key payload) (v : Validation) :
    (Jsonwebtoken.Suite.clear de isAudience now).decode token key v =
      v.check de isAudience now payload := by
  have hdecode : Encodable.decode token.length = some payload := h
  simp only [Jsonwebtoken.Suite.clear, hdecode]

theorem clear_documented :
    (Jsonwebtoken.Suite.clear de isAudience now).Documented de isAudience now ClearlySigned where
  unreadable token key payload v hsigned _ message h :=
    ⟨⟨false, message⟩, by rw [clear_decode de isAudience now hsigned, Validation.check, h], rfl⟩
  expired token key payload v hsigned _ claims h := by
    rw [clear_decode de isAudience now hsigned, Validation.check, h]
    cases hexp : v.expired now claims.exp with
    | true => simp [hexp]
    | false => cases v.rejectsAudience isAudience payload <;> simp [hexp]
  audience token key payload v hsigned _ claims h hexp haud :=
    ⟨⟨false, "InvalidAudience"⟩,
      by simp [clear_decode de isAudience now hsigned, Validation.check, h, hexp, haud], rfl⟩
  accepted token key payload v hsigned _ claims h hexp haud _ := by
    simp [clear_decode de isAudience now hsigned, Validation.check, h, hexp, haud]

theorem clearlySigned_encode (payload : Payload) :
    ClearlySigned (.ofList (.replicate (Encodable.encode payload) 'x')) () payload := by
  rw [ClearlySigned, String.length_ofList, List.length_replicate, Encodable.encodek]

theorem clear_matching :
    (Jsonwebtoken.Suite.clear de isAudience now).Matching ClearlySigned () () :=
  fun payload => ⟨_, rfl, clearlySigned_encode payload⟩

theorem clear_encoded {ser : E → Payload} {claims : Claims E} {config : JwtConfig}
    {token : String} (h : encodeJwt (.clear de isAudience now) ser claims config = .ok token) :
    ClearlySigned token () (claims.serialize ser) := by
  have hencode : encodeJwt (.clear de isAudience now) ser claims config =
    .ok (.ofList (.replicate (Encodable.encode (claims.serialize ser)) 'x')) := rfl
  rw [← Except.ok.inj (hencode.symm.trans h)]
  exact clearlySigned_encode _

end

/-- `struct Ext { name: String }` -/
def memberSer (name : String) (value : String) : Payload := [(name, .string value)]

def memberDe : Payload → Except String String
  | [(_, .string value)] => .ok value
  | _ => .error "invalid type"

def isText : Json → Bool
  | .string _ => true
  | _ => false

def adminUntil (exp : Nat) : Claims String :=
  { sub := "user-1", sessionId := "session-1", exp, ext := "admin" }

theorem encode_decode_iff_role : ∃ token,
    encodeJwt (.clear memberDe isText 400) (memberSer "role") (adminUntil 1000) ⟨"", "", 3600⟩ =
      .ok token ∧
    decodeJwt (Jsonwebtoken.Suite.clear memberDe isText 400).toJsonwebtoken token
      ⟨"", "", 3600⟩ = .ok (adminUntil 1000) := by
  refine (encode_decode_iff (.clear memberDe isText 400) (memberSer "role") memberDe
    (fun _ => List.nodup_singleton _) isText 400 ClearlySigned
    (clear_documented memberDe isText 400) ⟨"", "", 3600⟩ () () rfl rfl
    (clear_matching memberDe isText 400) (adminUntil 1000) (by decide)).mpr ⟨by decide, ?_, rfl⟩
  simp [memberSer]

/-- `struct Ext { count: u128 }` -/
def countSer (count : Nat) : Payload := [("count", .number count)]

/-- The buffer of a flattened field refuses to be read as a `u128`, whatever it holds. -/
def countDe : Payload → Except String Nat := fun _ => .error "u128 is not supported"

def countUntil (exp : Nat) : Claims Nat :=
  { sub := "user-1", sessionId := "session-1", exp, ext := 7 }

/-- An extension with a member `aud`, or `sub`, or one with a `u128` in it: the token is minted, and
never decodes. -/
theorem reserved_member_lost :
    (¬ ∃ token,
      encodeJwt (.clear memberDe isText 400) (memberSer "aud") (adminUntil 1000) ⟨"", "", 3600⟩ =
        .ok token ∧
      decodeJwt (Jsonwebtoken.Suite.clear memberDe isText 400).toJsonwebtoken token
        ⟨"", "", 3600⟩ = .ok (adminUntil 1000)) ∧
    (¬ ∃ token,
      encodeJwt (.clear memberDe isText 400) (memberSer "sub") (adminUntil 1000) ⟨"", "", 3600⟩ =
        .ok token ∧
      decodeJwt (Jsonwebtoken.Suite.clear memberDe isText 400).toJsonwebtoken token
        ⟨"", "", 3600⟩ = .ok (adminUntil 1000)) ∧
    ¬ ∃ token,
      encodeJwt (.clear countDe isText 400) countSer (countUntil 1000) ⟨"", "", 3600⟩ =
        .ok token ∧
      decodeJwt (Jsonwebtoken.Suite.clear countDe isText 400).toJsonwebtoken token
        ⟨"", "", 3600⟩ = .ok (countUntil 1000) := by
  refine ⟨?_, ?_, ?_⟩
  -- `aud` is read, and rejected
  · rintro ⟨token, hencode, hdecode⟩
    have hread : Claims.deserialize memberDe ((adminUntil 1000).serialize (memberSer "aud")) =
      .ok (adminUntil 1000) := rfl
    obtain ⟨m, hm⟩ := decodeJwt_of_audience (clear_documented memberDe isText 400) rfl
      (clear_encoded memberDe isText 400 hencode) hread (by decide)
      ⟨.string "admin", by decide, rfl⟩
    rw [hm] at hdecode
    cases hdecode
  -- `sub` comes twice
  · rintro ⟨token, hencode, hdecode⟩
    have hread : Claims.deserialize memberDe ((adminUntil 1000).serialize (memberSer "sub")) =
      .error "duplicate field sub" := rfl
    obtain ⟨m, hm⟩ := decodeJwt_of_unreadable (clear_documented memberDe isText 400) rfl
      (clear_encoded memberDe isText 400 hencode) hread
    rw [hm] at hdecode
    cases hdecode
  -- the buffer has no `u128`
  · rintro ⟨token, hencode, hdecode⟩
    have hread : Claims.deserialize countDe ((countUntil 1000).serialize countSer) =
      .error "u128 is not supported" := rfl
    obtain ⟨m, hm⟩ := decodeJwt_of_unreadable (clear_documented countDe isText 400) rfl
      (clear_encoded countDe isText 400 hencode) hread
    rw [hm] at hdecode
    cases hdecode

end Security
end StanoPlatform
