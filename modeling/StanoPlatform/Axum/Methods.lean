import StanoPlatform.Axum.Chain
import StanoPlatform.Axum.Cookie

/-!
# `Axum/Methods.lean` — rules narrowed to some methods

`methods(..)` can be called on any rule under construction. Which rule of a chain decides a
request is asked of the built layer, not of the builder: it is the rule whose effect, whatever it
is closed with, is the effect applied (`Segment.Decides`). The closing is the only thing that can
be varied without touching what the rule fits.

The second half of the file is about `HEAD`. Whether a rule for `GET` protects the `HEAD` request
of the same path depends on who can be behind a request at all. With no usable key nobody can
present claims, and then a rule that asks for a role is as good as any. So the comparison is made
for one `jsonwebtoken` library, one configuration and one validator, and over the callers that
some headers can present to them (`AuthorizationLayer.Presents`).

From `RequestMatcherBuilder::methods` and `finish`, and `CheckState::check`. A method is compared by
its name and nothing else. That axum serves a `HEAD` request by the handler of `GET` is not part of
the file: it is about what the rules make of the two requests.
-/

set_option autoImplicit false

namespace StanoPlatform
namespace Axum

open Lib Security

variable {M : Matchit} {E S : Type}

namespace Segment

/-- The method set a rule is narrowed to: a second `methods(..)` replaces the first. -/
def narrowed : Segment E → Option (List Method)
  | .requestMatcher _ methods _ => methods.getLast?
  | .anyRequest methods _ => methods.getLast?
  | _ => none

/-- A `request_matcher` fits a request: by its method, if it is narrowed, and by its path. -/
def Fits (M : Matchit) (method : Method) (path : String) : Segment E → Prop
  | .requestMatcher pattern methods _ =>
    (∀ ms, methods.getLast? = some ms → method ∈ ms) ∧
      ∃ router, M.insert pattern = .ok router ∧ M.isMatch router path = true
  | _ => False

/-- The same rule, closed another way. -/
def reclose (closing : Closing E) : Segment E → Segment E
  | .requestMatcher pattern methods _ => .requestMatcher pattern methods closing
  | .anyRequest methods _ => .anyRequest methods closing
  | segment => segment

/-- The rule between `before` and `after` decides a request. -/
def Decides (M : Matchit) (jwtConfig : JwtConfig) (before : List (Segment E)) (rule : Segment E)
    (after : List (Segment E)) (method : Method) (path : String) : Prop :=
  ∀ closing layer, (AuthorizationBuilder.chain (before ++ rule.reclose closing :: after) :
      AuthorizationBuilder M E).build jwtConfig = .ok layer →
    layer.check.effect method path = closing.effect

theorem decides_eq_none {method : Method} {path : String} {segment : Segment E} :
    segment.decides M method path = none ↔ ¬ segment.Fits M method path := by
  cases segment with
  | requestMatcher pattern methods closing =>
    rw [decides, Fits]
    cases M.insert pattern with
    | ok router => simp
    | error err => simp
  | anyRequest _ _ | withClaimsValidator _ | cookieName _ => simp [decides, Fits]

theorem findSome_decides_eq_none {method : Method} {path : String} {segments : List (Segment E)} :
    segments.findSome? (decides M method path) = none ↔
      ∀ s ∈ segments, ¬ s.Fits M method path := by
  rw [List.findSome?_eq_none_iff]
  exact forall₂_congr fun _ _ => decides_eq_none

theorem lastSome_terminal_eq_none {segments : List (Segment E)} :
    lastSome terminal segments = none ↔ ∀ s ∈ segments, s.terminal = none := by
  rw [lastSome, List.findSome?_eq_none_iff]
  simp

/-! ### What the closing is good for -/

theorem reclose_decides (method : Method) (path : String) (closing : Closing E)
    (segment : Segment E) :
    (segment.reclose closing).decides M method path =
      (segment.decides M method path).map fun _ => closing.effect := by
  cases segment with
  | requestMatcher pattern methods _ =>
    rw [reclose, decides, decides]
    cases M.insert pattern with
    | ok router => simp only [apply_ite (Option.map _), Option.map_some, Option.map_none]
    | error err => rfl
  | anyRequest _ _ | withClaimsValidator _ | cookieName _ => rfl

theorem reclose_terminal (closing : Closing E) (segment : Segment E) :
    (segment.reclose closing).terminal = segment.terminal.map fun _ => closing.effect := by
  cases segment <;> rfl

theorem reclose_invalid (closing : Closing E) (segment : Segment E) :
    (segment.reclose closing).invalid M = segment.invalid M := by
  cases segment <;> rfl

end Segment

theorem build_eq_ok {segments : List (Segment E)} {jwtConfig : JwtConfig}
    {layer : AuthorizationLayer M E} :
    (AuthorizationBuilder.chain segments : AuthorizationBuilder M E).build jwtConfig = .ok layer ↔
      segments.findSome? (Segment.invalid M) = none ∧
      ∃ last, lastSome Segment.terminal segments = some last ∧
        buildLayer (segments.filterMap (Segment.rule M)) last jwtConfig
          (lastSome Segment.validator segments) (lastSome Segment.cookie segments) = layer := by
  rw [chain_eq, AuthorizationBuilder.build]
  cases segments.findSome? (Segment.invalid M) <;>
    cases lastSome Segment.terminal segments <;> simp

/-- The effect a chain gives a request: of its first rule that fits, or else of its last
terminal. -/
theorem effect_of_chain {segments : List (Segment E)} {jwtConfig : JwtConfig}
    {layer : AuthorizationLayer M E}
    (hbuild : (AuthorizationBuilder.chain segments : AuthorizationBuilder M E).build jwtConfig =
      .ok layer) (method : Method) (path : String) :
    some (layer.check.effect method path) =
      (segments.findSome? (Segment.decides M method path)).or
        (lastSome Segment.terminal segments) := by
  obtain ⟨-, last, hlast, rfl⟩ := build_eq_ok.mp hbuild
  rw [hlast, ← find_rule, Option.or_some]
  rfl

theorem lastSome_append {α β : Type} (f : α → Option β) (before after : List α) :
    lastSome f (before ++ after) = (lastSome f after).or (lastSome f before) := by
  rw [lastSome, List.reverse_append, List.findSome?_append]
  rfl

theorem lastSome_cons {α β : Type} (f : α → Option β) (x : α) (l : List α) :
    lastSome f (x :: l) = (lastSome f l).or (f x) := by
  rw [← List.singleton_append, lastSome_append]
  congr 1
  rw [lastSome, List.reverse_singleton, List.findSome?_cons, List.findSome?_nil]
  cases f x <;> rfl

/-- What is built of a chain is built of it with a rule closed another way. -/
theorem build_reclose {before after : List (Segment E)} {rule : Segment E}
    {jwtConfig : JwtConfig} {layer : AuthorizationLayer M E}
    (hbuild : (AuthorizationBuilder.chain (before ++ rule :: after) :
      AuthorizationBuilder M E).build jwtConfig = .ok layer) (closing : Closing E) :
    ∃ reclosed, (AuthorizationBuilder.chain (before ++ rule.reclose closing :: after) :
      AuthorizationBuilder M E).build jwtConfig = .ok reclosed := by
  obtain ⟨hvalid, last, hlast, -⟩ := build_eq_ok.mp hbuild
  rw [List.findSome?_append, List.findSome?_cons] at hvalid
  rw [lastSome_append, lastSome_cons] at hlast
  have hterminal : ∃ last, lastSome Segment.terminal (before ++ rule.reclose closing :: after) =
      some last := by
    rw [lastSome_append, lastSome_cons, Segment.reclose_terminal]
    cases hafter : lastSome Segment.terminal after <;> cases hrule : rule.terminal <;>
      simp_all
  obtain ⟨last, hlast⟩ := hterminal
  refine ⟨_, build_eq_ok.mpr ⟨?_, last, hlast, rfl⟩⟩
  rwa [List.findSome?_append, List.findSome?_cons, Segment.reclose_invalid]

/-- No effect is what a rule is closed with, whatever that is. -/
theorem not_every_closing (effect : Option (Effect E)) :
    ¬ ∀ closing : Closing E, effect = some closing.effect :=
  fun h => absurd ((h .permitAll).symm.trans (h .authenticated)) (by simp [Closing.effect])

section

variable {before after : List (Segment E)} {rule : Segment E} {jwtConfig : JwtConfig}

/-- The effect of a chain, as a function of what one of its rules is closed with. -/
theorem effect_of_reclosed {closing : Closing E} {reclosed : AuthorizationLayer M E}
    (hreclosed : (AuthorizationBuilder.chain (before ++ rule.reclose closing :: after) :
      AuthorizationBuilder M E).build jwtConfig = .ok reclosed) (method : Method) (path : String) :
    some (reclosed.check.effect method path) =
      (before.findSome? (Segment.decides M method path)).or
        (((rule.decides M method path).map fun _ => closing.effect).or
          ((after.findSome? (Segment.decides M method path)).or
            ((lastSome Segment.terminal after).or
              ((rule.terminal.map fun _ => closing.effect).or
                (lastSome Segment.terminal before))))) := by
  rw [effect_of_chain hreclosed, List.findSome?_append, List.findSome?_cons, lastSome_append,
    lastSome_cons, Segment.reclose_decides, Segment.reclose_terminal]
  cases rule.decides M method path <;> simp [Option.or_assoc]

/-- An effect that is there already leaves the closing no say. -/
theorem not_decides_of_const {layer : AuthorizationLayer M E}
    (hbuild : (AuthorizationBuilder.chain (before ++ rule :: after) :
      AuthorizationBuilder M E).build jwtConfig = .ok layer) {method : Method} {path : String}
    (effect : Option (Effect E))
    (heffect : ∀ closing reclosed,
      (AuthorizationBuilder.chain (before ++ rule.reclose closing :: after) :
        AuthorizationBuilder M E).build jwtConfig = .ok reclosed →
      some (reclosed.check.effect method path) = effect) :
    ¬ rule.Decides M jwtConfig before after method path := by
  intro hdecides
  refine not_every_closing effect fun closing => ?_
  obtain ⟨reclosed, hreclosed⟩ := build_reclose hbuild closing
  rw [← heffect closing reclosed hreclosed, hdecides closing reclosed hreclosed]

/-- **Which rule decides**: a `request_matcher` that fits, behind none that does; or, where none
fits, the last `any_request`. -/
theorem Segment.decides_iff {layer : AuthorizationLayer M E}
    (hbuild : (AuthorizationBuilder.chain (before ++ rule :: after) :
      AuthorizationBuilder M E).build jwtConfig = .ok layer) (method : Method) (path : String) :
    Decides M jwtConfig before rule after method path ↔
      (∀ s ∈ before, ¬ s.Fits M method path) ∧
      (rule.Fits M method path ∨
        (∀ s ∈ after, ¬ s.Fits M method path) ∧ (∀ s ∈ after, s.terminal = none) ∧
          rule.terminal ≠ none) := by
  rw [← findSome_decides_eq_none, ← findSome_decides_eq_none, ← lastSome_terminal_eq_none]
  -- the calls in the order in which the chain asks them: those before the rule, the rule itself,
  -- those after it, and then the terminals
  cases hbefore : before.findSome? (Segment.decides M method path) with
  | some effect =>
    refine iff_of_false (not_decides_of_const hbuild (some effect) fun closing reclosed h => ?_)
      (by simp)
    simp [effect_of_reclosed h, hbefore]
  | none =>
    cases hdecides : rule.decides M method path with
    | some effect =>
      have hfits : rule.Fits M method path := by
        by_contra hno
        rw [decides_eq_none.mpr hno] at hdecides
        cases hdecides
      refine iff_of_true (fun closing reclosed h => ?_) ⟨rfl, .inl hfits⟩
      simpa [hbefore, hdecides] using effect_of_reclosed h method path
    | none =>
      have hfits := decides_eq_none.mp hdecides
      cases hafter : after.findSome? (Segment.decides M method path) with
      | some effect =>
        refine iff_of_false (not_decides_of_const hbuild (some effect)
          fun closing reclosed h => ?_) (by simp [hfits])
        simp [effect_of_reclosed h, hbefore, hdecides, hafter]
      | none =>
        cases hlast : lastSome Segment.terminal after with
        | some effect =>
          refine iff_of_false (not_decides_of_const hbuild (some effect)
            fun closing reclosed h => ?_) (by simp [hfits])
          simp [effect_of_reclosed h, hbefore, hdecides, hafter, hlast]
        | none =>
          cases hterminal : rule.terminal with
          | some effect =>
            -- no rule fits, and no later terminal overwrites the one of this rule
            refine iff_of_true (fun closing reclosed h => ?_) ⟨rfl, .inr ⟨rfl, rfl, by simp⟩⟩
            simpa [hbefore, hdecides, hafter, hlast, hterminal]
              using effect_of_reclosed h method path
          | none =>
            refine iff_of_false (not_decides_of_const hbuild (lastSome Segment.terminal before)
              fun closing reclosed h => ?_) (by simp [hfits])
            simp [effect_of_reclosed h, hbefore, hdecides, hafter, hlast, hterminal]

end

theorem Segment.Fits.narrowed {method : Method} {path : String} {rule : Segment E}
    (hfits : rule.Fits M method path) {ms : List Method} (hms : rule.narrowed = some ms) :
    method ∈ ms := by
  cases rule with
  | requestMatcher pattern methods closing => exact hfits.1 ms hms
  | anyRequest _ _ | withClaimsValidator _ | cookieName _ => exact hfits.elim

/-- **When the narrowed rules of a chain stay narrow**: no rule that was narrowed to other methods
decides a request iff a `request_matcher` fits it, or the last `any_request` was not narrowed to
other methods. -/
theorem narrowed_rules_decide_iff (segments : List (Segment E)) (jwtConfig : JwtConfig)
    (layer : AuthorizationLayer M E)
    (hbuild : (AuthorizationBuilder.chain segments : AuthorizationBuilder M E).build jwtConfig =
      .ok layer) (method : Method) (path : String) :
    (∀ before rule after, segments = before ++ rule :: after →
      ∀ ms, rule.narrowed = some ms → method ∉ ms →
        ¬ rule.Decides M jwtConfig before after method path) ↔
    (∃ s ∈ segments, s.Fits M method path) ∨
      ∀ before methods closing after, segments = before ++ .anyRequest methods closing :: after →
        (∀ s ∈ after, s.terminal = none) → ∀ ms, methods.getLast? = some ms → method ∈ ms := by
  constructor
  · intro hnarrow
    -- the request falls through to a terminal that was narrowed, which decides it all the same
    by_contra hno
    push Not at hno
    obtain ⟨hfits, before, methods, closing, after, rfl, hlast, ms, hms, hmethod⟩ := hno
    refine hnarrow before _ after rfl ms hms hmethod ((Segment.decides_iff hbuild _ _).mpr ?_)
    exact ⟨fun s hs => hfits s (by simp [hs]),
      .inr ⟨fun s hs => hfits s (by simp [hs]), hlast, by simp [Segment.terminal]⟩⟩
  · rintro hcond before rule after rfl ms hms hmethod hdecides
    obtain ⟨hbefore, hrule | ⟨hafter, hlast, hterminal⟩⟩ :=
      (Segment.decides_iff hbuild _ _).mp hdecides
    · exact hmethod (hrule.narrowed hms)
    · rcases hcond with ⟨s, hs, hfits⟩ | hcond
      · rcases List.mem_append.mp hs with hs | hs
        · exact hbefore s hs hfits
        · rcases List.mem_cons.mp hs with rfl | hs
          · exact hmethod (hfits.narrowed hms)
          · exact hafter s hs hfits
      · cases rule with
        | anyRequest methods closing => exact hmethod (hcond before _ _ after rfl hlast ms hms)
        | requestMatcher _ _ _ | withClaimsValidator _ | cookieName _ => exact hterminal rfl

/-- `any_request().methods([GET]).permit_all()` -/
def getOnly : List (Segment Unit) := [.anyRequest [[.get]] .permitAll]

theorem getOnly_build (jwtConfig : JwtConfig) :
    (AuthorizationBuilder.chain getOnly : AuthorizationBuilder .unasked Unit).build jwtConfig =
      .ok (buildLayer [] .permitAll jwtConfig none none) := rfl

/-- `finish` keeps the methods of a `request_matcher` only: the rule for `GET` decides a `POST`,
and lets it through. -/
theorem getOnly_decides_post :
    ¬ (∀ before rule after, getOnly = before ++ rule :: after →
      ∀ ms, rule.narrowed = some ms → Method.post ∉ ms →
        ¬ rule.Decides .unasked ⟨"", "", 3600⟩ before after .post "/") ∧
    (buildLayer (M := .unasked) [] (.permitAll : Effect Unit) ⟨"", "", 3600⟩ none none).check.effect
      .post "/" = .permitAll := by
  refine ⟨fun hnarrow => ?_, rfl⟩
  refine hnarrow [] _ [] rfl [.get] rfl (by decide)
    ((@Segment.decides_iff .unasked Unit [] [] _ _ _ (getOnly_build _) _ _).mpr ?_)
  simp [Segment.terminal]

/-- `matchit` on patterns without parameters. -/
def Matchit.static : Matchit :=
  { Router := String, InsertError := Unit, insert := .ok,
    isMatch := fun route path => route = path }

/-- `request_matcher("/users").methods([GET]).permit_all().any_request().authenticated()` -/
def getUsers : List (Segment Unit) :=
  [.requestMatcher "/users" [[.get]] .permitAll, .anyRequest [] .authenticated]

theorem narrowed_rules_decide_iff_post_users :
    ¬ (Segment.requestMatcher "/users" [[.get]] .permitAll : Segment Unit).Decides .static
      ⟨"", "", 3600⟩ [] [.anyRequest [] .authenticated] .post "/users" := by
  refine (narrowed_rules_decide_iff getUsers ⟨"", "", 3600⟩ _ rfl .post "/users").mpr (.inr ?_)
    [] _ _ rfl [.get] rfl (by decide)
  intro before methods closing after hsplit hlast ms hms
  rcases before with _ | ⟨_, _ | ⟨_, _ | ⟨_, _⟩⟩⟩ <;> simp [getUsers] at hsplit
  rw [hsplit.2.1.1] at hms
  cases hms

/-! ## `HEAD` and `GET`

axum's `get(..)` serves `HEAD` as well, but a rule narrowed to `GET` is not a rule for `HEAD`: the
engine compares methods as they are. -/

namespace AuthorizationLayer

def Rejects (lib : Jsonwebtoken E) (layer : AuthorizationLayer M E) (req : Request E) : Prop :=
  (layer.checkRequest lib req).1 ≠ .allow

/-- Whom a request can come from. Anyone may come without a token. To come with claims takes a token
that can stand in a header, that decodes to them, and a validator that accepts them. -/
def Presents (lib : Jsonwebtoken E) (layer : AuthorizationLayer M E) : Option (Claims E) → Prop
  | none => True
  | some claims => ∃ token : List UInt8, token.all visibleByte = true ∧
      decodeJwt lib (.ofList (token.map asChar)) layer.check.jwtConfig = .ok claims ∧
      ∀ validator, layer.check.claimsValidator = some validator → validator claims = .ok ()

end AuthorizationLayer

/-- Rules that do not tell two methods apart give both the same effect. -/
theorem CheckState.effect_congr (state : CheckState M E) (path : String) (m₁ m₂ : Method)
    (h : ∀ rule, state.rules.find? (fun rule => applies m₁ path rule || applies m₂ path rule) =
      some rule → applies m₁ path rule = true ∧ applies m₂ path rule = true) :
    state.effect m₁ path = state.effect m₂ path := by
  suffices hfind : state.rules.find? (applies m₁ path) = state.rules.find? (applies m₂ path) by
    rw [effect, effect, hfind]
  generalize state.rules = rules at h
  induction rules with
  | nil => rfl
  | cons rule rules ih =>
    rw [List.find?_cons] at h
    cases heither : applies m₁ path rule || applies m₂ path rule with
    | true =>
      obtain ⟨h₁, h₂⟩ := h rule (by simp [heither])
      rw [List.find?_cons, List.find?_cons, h₁, h₂]
    | false =>
      obtain ⟨h₁, h₂⟩ := Bool.or_eq_false_iff.mp heither
      rw [List.find?_cons, List.find?_cons, h₁, h₂]
      exact ih (by simpa [heither] using h)

/-- Whatever is taken for a token is visible ASCII: a header that is not is not read at all. -/
theorem visible_of_extractToken {headers : HeaderMap} {cookieName : Option String} {token : String}
    (h : extractToken headers cookieName = some token) :
    ∃ bytes : List UInt8, bytes.all visibleByte = true ∧ token = .ofList (bytes.map asChar) := by
  cases hbearer : (headers.getAll "authorization").head?.bind bearerToken with
  | some text =>
    rw [extractToken_bearer cookieName hbearer] at h
    obtain ⟨value, -, hvalue⟩ := Option.bind_eq_some_iff.mp hbearer
    obtain ⟨line, hline, hprefix⟩ := Option.bind_eq_some_iff.mp hvalue
    obtain ⟨hvisible, htext⟩ := Option.ite_none_right_eq_some.mp hline
    obtain rfl := Option.some.inj htext
    obtain ⟨scheme, rest, hbytes, -, rfl⟩ :=
      List.map_eq_append_iff.mp (List.isPrefixOf?_eq_some_iff_append_eq.mp hprefix).symm
    rw [hbytes, List.all_append, Bool.and_eq_true] at hvisible
    exact ⟨rest, hvisible.2, (Option.some.inj h).symm⟩
  | none =>
    cases cookieName with
    | none =>
      rw [extractToken_nobody hbearer] at h
      cases h
    | some name =>
      -- a cookie is cut out of a line that was text as a whole
      rw [extractToken_fallback hbearer] at h
      obtain ⟨line, -, hline⟩ := Option.bind_eq_some_iff.mp h
      obtain ⟨hvisible, hfound⟩ := Option.ite_none_right_eq_some.mp hline
      obtain ⟨segment, hsegment, hpair⟩ := List.exists_of_findSome?_eq_some hfound
      rw [cookiePair_eq (cookiePair_eq_some.mp hpair).1 fun b hb =>
        List.all_eq_true.mp hvisible b (mem_segments hsegment hb).1] at hpair
      obtain ⟨value, -, hvalue, rfl⟩ := cookieValue_eq_some.mp hpair
      exact ⟨value, hvalue, rfl⟩

/-- A header that carries a token. -/
def bearerLine (token : List UInt8) (visible : token.all visibleByte = true) : HeaderValue :=
  ⟨utf8 "Bearer " ++ token, legal_of_visible (by rw [List.all_append, visible]; decide)⟩

theorem extractToken_bearerLine (token : List UInt8) (visible : token.all visibleByte = true)
    (cookieName : Option String) :
    extractToken [("authorization", bearerLine token visible)] cookieName =
      some (.ofList (token.map asChar)) := by
  have hbearer : "Bearer ".toList = (utf8 "Bearer ").map asChar := by decide
  have hline : (bearerLine token visible).bytes.all visibleByte = true := by
    rw [bearerLine, List.all_append, visible]
    decide
  refine extractToken_bearer cookieName ?_
  change bearerToken (bearerLine token visible) = some (token.map asChar)
  rw [bearerToken, HeaderValue.toStr, if_pos hline, Option.bind_some,
    List.isPrefixOf?_eq_some_iff_append_eq, hbearer]
  exact (List.map_append ..).symm

/-- **The callers there can be** are those some request comes from. Only the headers matter. -/
theorem AuthorizationLayer.presents_iff (lib : Jsonwebtoken E) (layer : AuthorizationLayer M E)
    (identity : Option (Claims E)) :
    layer.Presents lib identity ↔
      ∃ headers, ∀ req : Request E, req.headers = headers → layer.identity lib req = identity := by
  constructor
  · intro hpresents
    cases identity with
    | none =>
      -- without headers there is no token, and so nobody
      refine ⟨[], fun req hreq => ?_⟩
      have htoken : extractToken [] layer.cookieName = none := by cases layer.cookieName <;> rfl
      rw [AuthorizationLayer.identity, hreq, htoken]
      rfl
    | some claims =>
      obtain ⟨token, hvisible, hdecode, hvalid⟩ := hpresents
      refine ⟨[("authorization", bearerLine token hvisible)], fun req hreq => ?_⟩
      exact identity_eq_some.mpr
        ⟨⟨_, hreq ▸ extractToken_bearerLine token hvisible _, hdecode⟩, hvalid⟩
  · rintro ⟨headers, hheaders⟩
    -- the identity is read off the headers, so any request with them will do
    have hidentity := hheaders { Request.bare .get "" with headers } rfl
    cases identity with
    | none => trivial
    | some claims =>
      obtain ⟨⟨token, htoken, hdecode⟩, hvalid⟩ := identity_eq_some.mp hidentity
      obtain ⟨bytes, hbytes, rfl⟩ := visible_of_extractToken htoken
      exact ⟨bytes, hbytes, hdecode, hvalid⟩

/-- **How far `HEAD` is as protected as `GET`.** Where the first rule on the path to take either
method takes both, the two requests are treated alike. In general every `HEAD` is rejected whose
`GET` is, iff the effect for `HEAD` lets nobody through, of all the callers there can be, whom the
effect for `GET` does not. -/
theorem head_like_get (lib : Jsonwebtoken E) (layer : AuthorizationLayer M E) (path : String) :
    ((∀ rule, layer.check.rules.find? (fun rule =>
        CheckState.applies .get path rule || CheckState.applies .head path rule) = some rule →
        CheckState.applies .get path rule = true ∧ CheckState.applies .head path rule = true) →
      ∀ req : Request E, req.path = path →
        layer.checkRequest lib { req with method := .head } =
          layer.checkRequest lib { req with method := .get }) ∧
    ((∀ req : Request E, req.path = path →
        layer.Rejects lib { req with method := .get } →
        layer.Rejects lib { req with method := .head }) ↔
      ∀ identity, layer.Presents lib identity →
        (layer.check.effect .head path).outcome identity = .allow →
        (layer.check.effect .get path).outcome identity = .allow) := by
  refine ⟨fun hrules req hpath => ?_, fun hreject identity hpresents hhead => ?_,
    fun heffect req hpath hget hhead => hget ?_⟩
  · subst hpath
    have heffect := layer.check.effect_congr req.path .get .head hrules
    rw [AuthorizationLayer.checkRequest, AuthorizationLayer.checkRequest, CheckState.check,
      CheckState.check, heffect]
  · obtain ⟨headers, hidentity⟩ := (layer.presents_iff lib identity).mp hpresents
    let req : Request E := { Request.bare .get path with headers }
    by_contra hget
    refine hreject req rfl ?_ ?_
    · rwa [AuthorizationLayer.Rejects, AuthorizationLayer.checkRequest_fst, hidentity _ rfl]
    · rwa [AuthorizationLayer.checkRequest_fst, hidentity _ rfl]
  · subst hpath
    rw [AuthorizationLayer.checkRequest_fst] at hhead ⊢
    refine heffect _ ((layer.presents_iff lib _).mpr ⟨req.headers, fun other hother => ?_⟩) hhead
    rw [AuthorizationLayer.identity, AuthorizationLayer.identity, hother]

/-- `request_matcher("/users").methods([GET]).authenticated().any_request().permit_all()` -/
def guardedUsers : List (Segment Unit) :=
  [.requestMatcher "/users" [[.get]] .authenticated, .anyRequest [] .permitAll]

theorem guardedUsers_head : ∃ layer : AuthorizationLayer .static Unit,
    (AuthorizationBuilder.chain guardedUsers : AuthorizationBuilder .static Unit).build
      ⟨"", "", 3600⟩ = .ok layer ∧
    ¬ (layer.Rejects (.keyless Unit) (.bare .get "/users") →
      layer.Rejects (.keyless Unit) (.bare .head "/users")) := by
  refine ⟨_, rfl, fun h => h ?_ rfl⟩
  rw [AuthorizationLayer.Rejects, AuthorizationLayer.checkRequest_fst]
  decide

end Axum
end StanoPlatform
