import StanoPlatform.Axum.Layer

/-!
# `Axum/Chain.lean` — a chain of calls means its first match

What a chain of builder calls is *for* is a table: read the calls in order, and the first
`request_matcher` that fits the request decides it, or else the last `any_request`
(`Segment.decides`, `Segment.terminal`). The builder gets there by mutation — rules are appended,
terminals overwritten, bad patterns dropped and remembered. One equation says what each of its
fields is after any chain, as a function of the chain (`chain_eq`); everything about `build` and
about the layer it returns is read off it.

The chain is a list of `Segment`s, one for each call that takes a builder to the next. A segment is
applied by the definitions of `Axum/Authorization.lean`, so nothing is said twice: the table below
is the statement, and the builder is what it is proved of. Where a pattern does not compile the
whole chain fails, and with the first bad pattern's error, whatever comes behind it.
-/

set_option autoImplicit false

namespace StanoPlatform
namespace Axum

open Security

variable {M : Matchit} {E : Type}

/-- How a rule under construction is closed. -/
inductive Closing (E : Type) where
  | permitAll
  | authenticated
  | hasRole (predicate : E → Bool)
  | hasAnyRole (predicates : List (E → Bool))

namespace Closing

def apply (closing : Closing E) (builder : RequestMatcherBuilder M E) : AuthorizationBuilder M E :=
  match closing with
  | .permitAll => builder.permitAll
  | .authenticated => builder.authenticated
  | .hasRole predicate => builder.hasRole predicate
  | .hasAnyRole predicates => builder.hasAnyRole predicates

/-- The effect it stands for: any one of several roles is a role. -/
def effect : Closing E → Effect E
  | .permitAll => .permitAll
  | .authenticated => .authenticated
  | .hasRole predicate => .hasRole predicate
  | .hasAnyRole predicates => .hasRole fun ext => predicates.any fun p => p ext

theorem apply_eq_finish (closing : Closing E) (builder : RequestMatcherBuilder M E) :
    closing.apply builder = builder.finish closing.effect := by
  cases closing <;> rfl

end Closing

/-- A stretch of a chain, from one `AuthorizationBuilder` to the next. `methods(..)` may be
called on a rule under construction any number of times. -/
inductive Segment (E : Type) where
  | requestMatcher (pattern : String) (methods : List (List Method)) (closing : Closing E)
  | anyRequest (methods : List (List Method)) (closing : Closing E)
  | withClaimsValidator (validator : ClaimsValidator E)
  | cookieName (name : String)

namespace Segment

def apply (builder : AuthorizationBuilder M E) : Segment E → AuthorizationBuilder M E
  | .requestMatcher pattern methods closing =>
    closing.apply (methods.foldl RequestMatcherBuilder.methods (builder.requestMatcher pattern))
  | .anyRequest methods closing =>
    closing.apply (methods.foldl RequestMatcherBuilder.methods builder.anyRequest)
  | .withClaimsValidator validator => builder.withClaimsValidator validator
  | .cookieName name => builder.cookieName name

/-! ### What the calls are for -/

/-- The error of a `request_matcher` whose pattern is invalid. -/
def invalid (M : Matchit) : Segment E → Option M.InsertError
  | .requestMatcher pattern _ _ =>
    match M.insert pattern with
    | .ok _ => none
    | .error err => some err
  | _ => none

/-- The effect of a `request_matcher` that fits: its method set, if it has one, contains the
method, and its pattern matches the path. -/
def decides (M : Matchit) (method : Method) (path : String) : Segment E → Option (Effect E)
  | .requestMatcher pattern methods closing =>
    match M.insert pattern with
    | .ok router =>
      if (∀ ms, methods.getLast? = some ms → method ∈ ms) ∧ M.isMatch router path = true then
        some closing.effect
      else none
    | .error _ => none
  | _ => none

def terminal : Segment E → Option (Effect E)
  | .anyRequest _ closing => some closing.effect
  | _ => none

def validator : Segment E → Option (ClaimsValidator E)
  | .withClaimsValidator validator => some validator
  | _ => none

def cookie : Segment E → Option String
  | .cookieName name => some name
  | _ => none

/-- The rule a `request_matcher` leaves behind. -/
def rule (M : Matchit) : Segment E → Option (Rule M E)
  | .requestMatcher pattern methods closing =>
    match M.insert pattern with
    | .ok router =>
      some { methods := methods.getLast?, pattern := ⟨router⟩, effect := closing.effect }
    | .error _ => none
  | _ => none

end Segment

def AuthorizationBuilder.chain (segments : List (Segment E)) : AuthorizationBuilder M E :=
  segments.foldl Segment.apply .new

/-! ## The invariant -/

/-- The last of a list to have an `f`. -/
def lastSome {α β : Type} (f : α → Option β) (l : List α) : Option β := l.reverse.findSome? f

theorem lastSome_snoc {α β : Type} (f : α → Option β) (l : List α) (x : α) :
    lastSome f (l ++ [x]) = (f x).or (lastSome f l) := by
  rw [lastSome, List.reverse_append, List.reverse_singleton, List.singleton_append,
    List.findSome?_cons, lastSome]
  cases f x <;> rfl

theorem findSome?_snoc {α β : Type} (f : α → Option β) (l : List α) (x : α) :
    (l ++ [x]).findSome? f = (l.findSome? f).or (f x) := by
  rw [List.findSome?_append, List.findSome?_cons, List.findSome?_nil]
  cases f x <;> rfl

theorem filterMap_snoc {α β : Type} (f : α → Option β) (l : List α) (x : α) :
    (l ++ [x]).filterMap f = l.filterMap f ++ (f x).toList := by
  rw [List.filterMap_append, List.filterMap_cons, List.filterMap_nil]
  cases f x <;> rfl

theorem foldl_methods (methods : List (List Method)) (builder : RequestMatcherBuilder M E) :
    methods.foldl RequestMatcherBuilder.methods builder =
      { builder with methods? := methods.getLast?.or builder.methods? } := by
  induction methods generalizing builder with
  | nil => rfl
  | cons ms methods ih =>
    rw [List.foldl_cons, ih, List.getLast?_cons]
    cases methods.getLast? <;> rfl

/-- **What one call can do**: append its rule, or remember its error behind any earlier one;
overwrite the terminal, the validator or the cookie. -/
theorem Segment.apply_eq (builder : AuthorizationBuilder M E) (segment : Segment E) :
    segment.apply builder =
      { rules := builder.rules ++ (segment.rule M).toList
        anyRequest? := segment.terminal.or builder.anyRequest?
        claimsValidator? := segment.validator.or builder.claimsValidator?
        cookieName? := segment.cookie.or builder.cookieName?
        poisoned? := builder.poisoned?.or (segment.invalid M) } := by
  cases segment with
  | requestMatcher pattern methods closing =>
    rw [apply, Closing.apply_eq_finish, foldl_methods]
    simp only [RequestMatcherBuilder.finish, AuthorizationBuilder.requestMatcher,
      CompiledPattern.new, rule, terminal, validator, cookie, invalid, Option.or_none,
      Option.none_or]
    -- only here can a pattern fail, and only the first that does is remembered
    cases M.insert pattern with
    | ok router => simp
    | error err => cases hp : builder.poisoned? <;> simp [AuthorizationBuilder.poison, hp]
  | anyRequest methods closing =>
    rw [apply, Closing.apply_eq_finish, foldl_methods]
    simp [RequestMatcherBuilder.finish, AuthorizationBuilder.anyRequest, rule, terminal,
      validator, cookie, invalid]
  | withClaimsValidator v =>
    simp [apply, AuthorizationBuilder.withClaimsValidator, rule, terminal, validator, cookie,
      invalid]
  | cookieName name =>
    simp [apply, AuthorizationBuilder.cookieName, rule, terminal, validator, cookie, invalid]

/-- **What the builder holds after any chain**, as a function of the chain. -/
theorem chain_eq (segments : List (Segment E)) :
    (AuthorizationBuilder.chain segments : AuthorizationBuilder M E) =
      { rules := segments.filterMap (Segment.rule M)
        anyRequest? := lastSome Segment.terminal segments
        claimsValidator? := lastSome Segment.validator segments
        cookieName? := lastSome Segment.cookie segments
        poisoned? := segments.findSome? (Segment.invalid M) } := by
  induction segments using List.reverseRecOn with
  | nil => rfl
  | append_singleton segments segment ih =>
    have hstep : (AuthorizationBuilder.chain (segments ++ [segment]) : AuthorizationBuilder M E) =
        segment.apply (AuthorizationBuilder.chain segments) := by
      rw [AuthorizationBuilder.chain, List.foldl_append]
      rfl
    rw [hstep, Segment.apply_eq, ih, lastSome_snoc, lastSome_snoc, lastSome_snoc, findSome?_snoc,
      filterMap_snoc]

theorem Segment.decides_eq (method : Method) (path : String) (segment : Segment E) :
    segment.decides M method path =
      ((segment.rule M).filter (CheckState.applies method path)).map (·.effect) := by
  cases segment with
  | requestMatcher pattern methods closing =>
    rw [decides, rule]
    cases M.insert pattern with
    | error err => rfl
    | ok router =>
      simp only [Option.filter_some, CheckState.applies, CompiledPattern.isMatch]
      -- without a method set every method will do
      by_cases hpath : M.isMatch router path = true
      · cases methods.getLast? with
        | none => simp [hpath]
        | some ms => by_cases hmethod : method ∈ ms <;> simp [hpath, hmethod]
      · simp [hpath]
  | anyRequest _ _ | withClaimsValidator _ | cookieName _ => rfl

/-- The first rule that applies is the one left by the first call that fits. -/
theorem find_rule (method : Method) (path : String) (segments : List (Segment E)) :
    ((segments.filterMap (Segment.rule M)).find? (CheckState.applies method path)).map (·.effect) =
      segments.findSome? (Segment.decides M method path) := by
  induction segments with
  | nil => rfl
  | cons segment segments ih =>
    rw [List.findSome?_cons, Segment.decides_eq, List.filterMap_cons]
    cases segment.rule M with
    | none => exact ih
    | some rule =>
      rw [List.find?_cons, Option.filter_some]
      cases CheckState.applies method path rule with
      | true => rfl
      | false => exact ih

/-- **The builder refines first-match-wins.** Over any chain of calls: `build` fails with the
first invalid pattern if there is one, else with `MissingAnyRequest` if no terminal was closed,
and else gives a layer that decides every request by the first call that fits it, or by the last
terminal, with the validator and the cookie set last. That is what it does with a request, too: it
applies this effect to the token it finds there. -/
theorem chain_refines (segments : List (Segment E)) (jwtConfig : JwtConfig) :
    (∀ err, (AuthorizationBuilder.chain segments : AuthorizationBuilder M E).build jwtConfig =
        .error (.invalidPattern err) ↔ segments.findSome? (Segment.invalid M) = some err) ∧
    ((AuthorizationBuilder.chain segments : AuthorizationBuilder M E).build jwtConfig =
        .error .missingAnyRequest ↔
      segments.findSome? (Segment.invalid M) = none ∧ ∀ s ∈ segments, s.terminal = none) ∧
    ((∃ layer, (AuthorizationBuilder.chain segments : AuthorizationBuilder M E).build jwtConfig =
        .ok layer) ↔
      segments.findSome? (Segment.invalid M) = none ∧ ∃ s ∈ segments, s.terminal ≠ none) ∧
    ∀ layer, (AuthorizationBuilder.chain segments : AuthorizationBuilder M E).build jwtConfig =
        .ok layer → ∃ last, lastSome Segment.terminal segments = some last ∧
      (∀ method path, layer.check.effect method path =
        (segments.findSome? (Segment.decides M method path)).getD last) ∧
      layer.check.claimsValidator = lastSome Segment.validator segments ∧
      layer.cookieName = lastSome Segment.cookie segments ∧
      layer.check.jwtConfig = jwtConfig ∧
      ∀ (lib : Jsonwebtoken E) (req : Request E), layer.checkRequest lib req =
        applyEffect lib ((segments.findSome? (Segment.decides M req.method req.path)).getD last)
          (extractToken req.headers (lastSome Segment.cookie segments)) jwtConfig
          (lastSome Segment.validator segments) req.extensions := by
  have hterminal : lastSome Segment.terminal segments = none ↔
      ∀ s ∈ segments, Segment.terminal s = none := by
    rw [lastSome, List.findSome?_eq_none_iff]
    simp
  -- `build` looks at the bad patterns first, and at the terminal after that
  rw [chain_eq, AuthorizationBuilder.build]
  cases hinvalid : segments.findSome? (Segment.invalid M) with
  | some err => simp
  | none =>
    cases hlast : lastSome Segment.terminal segments with
    | none =>
      have hnone := hterminal.mp hlast
      refine ⟨by simp, ?_, ?_, by simp⟩
      · exact ⟨fun _ => ⟨rfl, hnone⟩, fun _ => rfl⟩
      · simp only [reduceCtorEq, exists_false, true_and, false_iff]
        exact fun ⟨s, hs, hne⟩ => hne (hnone s hs)
    | some last =>
      have hsome : ∃ s ∈ segments, Segment.terminal s ≠ none := by
        by_contra hno
        push Not at hno
        rw [hterminal.mpr hno] at hlast
        cases hlast
      refine ⟨by simp, ?_, ?_, ?_⟩
      · obtain ⟨s, hs, hne⟩ := hsome
        simp only [reduceCtorEq, true_and, false_iff]
        exact fun hall => hne (hall s hs)
      · exact ⟨fun _ => ⟨rfl, hsome⟩, fun _ => ⟨_, rfl⟩⟩
      · intro layer hlayer
        cases hlayer
        -- the layer is known by now: the table it was built with, and what it does with a request
        have heffect : ∀ method path, (buildLayer (segments.filterMap (Segment.rule M)) last
            jwtConfig (lastSome Segment.validator segments)
            (lastSome Segment.cookie segments)).check.effect method path =
              (segments.findSome? (Segment.decides M method path)).getD last := by
          intro method path
          rw [CheckState.effect, ← find_rule]
          rfl
        refine ⟨last, rfl, heffect, rfl, rfl, rfl, fun lib req => ?_⟩
        rw [← heffect]
        rfl

end Axum
end StanoPlatform
