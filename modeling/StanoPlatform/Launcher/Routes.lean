import Mathlib.Data.List.Lex
import Mathlib.Data.List.MinMax
import StanoPlatform.Axum.Http
import StanoPlatform.Lib.Collect

/-!
# `Launcher/Routes.lean` — `collect_routes`

Every annotated handler submits a registration, and the linker decides in which order they are
collected; `collect_routes` hands them to the router one by one. Neither whether that panics nor
whom a request goes to afterwards depends on the order (`collect_routes_perm`).

The router is `axum`'s, over `matchit`, and is not here. It is a parameter, `RouterLib`; what is
used of its documentation is `RouterLib.Documented`, which speaks of one call each. The OpenAPI
document is left out.

From `collect_routes` in `stano-launcher/src/routes.rs`, and the one of `stano-axum` of the same
shape. At the end there is a router that is known to meet `RouterLib.Documented`: it keeps what is
registered in a list, and its captures are whole segments.
-/

set_option autoImplicit false

namespace StanoPlatform
namespace Launcher

open Axum
open Lib (Collects)

variable {H : Type}

/-- What `#[route(...)]` submits: one handler, of one method. -/
structure RouteRegistration (H : Type) where
  path : String
  method : Method
  handler : H

/-- `axum::Router`, as far as `collect_routes` and the requests after it have to do with it. A
pattern is a path as it is registered, a path is one of a request. -/
structure RouterLib (H : Type) where
  Router : Type
  new : Router
  -- `router.routes(..)`; a panic is `none`
  route : Router → RouteRegistration H → Option Router
  -- a pattern that `Router::route` does not refuse by itself
  Valid : String → Prop
  -- two different patterns of which a router takes only one
  Overlaps : String → String → Prop
  Matches : String → String → Prop
  -- the first is preferred where both match, as static segments are to captures
  Before : String → String → Prop
  -- what is registered for a pattern and a method
  endpoint : Router → String → Method → Option H
  -- `MatchedPath`
  matched : Router → String → Option String
  -- the handler that a request is answered by
  answers : Router → String → Method → Option H

/-- Two registrations that can both be there. -/
def RouterLib.Fit (lib : RouterLib H) (reg reg' : RouteRegistration H) : Prop :=
  if reg.path = reg'.path then reg.method ≠ reg'.method else ¬ lib.Overlaps reg.path reg'.path

def RouterLib.Routed (lib : RouterLib H) (router : lib.Router) (reg : RouteRegistration H) : Prop :=
  lib.endpoint router reg.path reg.method = some reg.handler

/-- Of what is registered, this pattern takes the path: it matches, and goes before every other that
does. -/
def RouterLib.Takes (lib : RouterLib H) (routed : RouteRegistration H → Prop)
    (pattern path : String) : Prop :=
  (∃ reg, routed reg ∧ reg.path = pattern) ∧ lib.Matches pattern path ∧
    ∀ reg, routed reg → lib.Matches reg.path path →
      reg.path = pattern ∨ lib.Before pattern reg.path

/-- What `axum` and `matchit` document. -/
structure RouterLib.Documented (lib : RouterLib H) : Prop where
  new_endpoint : ∀ pattern method, lib.endpoint lib.new pattern method = none
  -- `route` panics where a route overlaps with one that is there, and only there
  route_iff : ∀ router reg, (∃ router', lib.route router reg = some router') ↔
    lib.Valid reg.path ∧ ∀ reg', lib.Routed router reg' → lib.Fit reg' reg
  -- and it adds that route, to the others of its path if there are any
  route_endpoint : ∀ router reg router', lib.route router reg = some router' →
    ∀ pattern method, lib.endpoint router' pattern method =
      if pattern = reg.path ∧ method = reg.method then some reg.handler
      else lib.endpoint router pattern method
  overlaps_comm : ∀ pattern pattern', lib.Overlaps pattern pattern' → lib.Overlaps pattern' pattern
  matched_iff : ∀ router path pattern, lib.matched router path = some pattern ↔
    lib.Takes (lib.Routed router) pattern path
  -- a HEAD request goes to `get(..)`, where there is nothing else for it
  answers_eq : ∀ router path method, lib.answers router path method =
    (lib.matched router path).bind fun pattern => (lib.endpoint router pattern method).or
      (if method = .head then lib.endpoint router pattern .get else none)

def collectRoutes (lib : RouterLib H) (registrations : List (RouteRegistration H)) :
    Option lib.Router :=
  Lib.run lib.route lib.new registrations

/-- Whom a request goes to, by what is registered. -/
def RouterLib.GoesTo (lib : RouterLib H) (routed : RouteRegistration H → Prop) (path : String)
    (method : Method) (handler : H) : Prop :=
  ∃ pattern, lib.Takes routed pattern path ∧
    (routed ⟨pattern, method, handler⟩ ∨ method = .head ∧
      (∀ handler', ¬ routed ⟨pattern, .head, handler'⟩) ∧ routed ⟨pattern, .get, handler⟩)

section

variable {lib : RouterLib H} {router router' : lib.Router} {reg reg' : RouteRegistration H}

namespace RouterLib.Documented

theorem fit_symm (h : lib.Documented) (hfit : lib.Fit reg reg') : lib.Fit reg' reg := by
  rw [Fit] at hfit ⊢
  split at hfit
  · rename_i hpath
    rw [if_pos hpath.symm]
    exact hfit.symm
  · rename_i hpath
    rw [if_neg (Ne.symm hpath)]
    exact fun hoverlaps => hfit (h.overlaps_comm _ _ hoverlaps)

/-- What is routed is what was, and what was added. -/
theorem routed_iff (h : lib.Documented) (hroute : lib.route router reg = some router') :
    lib.Routed router' reg' ↔ lib.Routed router reg' ∨ reg' = reg := by
  have hfits := ((h.route_iff router reg).mp ⟨router', hroute⟩).2
  obtain ⟨path, method, handler⟩ := reg
  obtain ⟨path', method', handler'⟩ := reg'
  rw [Routed, h.route_endpoint _ _ _ hroute]
  split
  · rename_i hsame
    obtain ⟨rfl, rfl⟩ := hsame
    constructor
    · rintro ⟨⟩
      exact .inr rfl
    · rintro (hrouted | hsame)
      -- the place was free, or `route` would have panicked
      · have hfit := hfits _ hrouted
        rw [Fit, if_pos rfl] at hfit
        exact absurd rfl hfit
      · cases hsame
        rfl
  · rename_i hother
    constructor
    · exact .inl
    · rintro (hrouted | hsame)
      · exact hrouted
      · cases hsame
        exact absurd ⟨rfl, rfl⟩ hother

/-- `collect_routes` collects registrations. -/
theorem collects (h : lib.Documented) : Collects lib.route lib.new (fun _ => True) lib.Routed
    (fun reg => lib.Valid reg.path) lib.Fit where
  ok := trivial
  empty := fun reg hrouted => by
    rw [Routed, h.new_endpoint] at hrouted
    cases hrouted
  keeps := fun _ _ _ _ _ => trivial
  takes := fun router reg _ => h.route_iff router reg
  adds := fun _ _ _ _ hroute _ => h.routed_iff hroute

theorem answers_iff (h : lib.Documented) {path : String} {method : Method} {handler : H} :
    lib.answers router path method = some handler ↔
      lib.GoesTo (lib.Routed router) path method handler := by
  rw [h.answers_eq, Option.bind_eq_some_iff, GoesTo]
  refine exists_congr fun pattern => and_congr (h.matched_iff router path pattern) ?_
  rw [Option.or_eq_some_iff]
  refine or_congr_right ?_
  by_cases hhead : method = .head
  · subst hhead
    rw [if_pos rfl, Option.eq_none_iff_forall_ne_some]
    simp only [Routed, ne_eq, true_and]
  · simp [hhead]

end RouterLib.Documented

/-! ## Whatever the order -/

/-- **What is registered is dispatched.** `collect_routes` panics iff a pattern is not valid, or two
registrations are of one pattern and one method or of patterns that overlap. If it does not, a
request goes to the registration of its method and of the pattern that takes its path, a HEAD
request that has none to that of GET, and to nobody if there is none. -/
theorem collectRoutes_iff (h : lib.Documented) (registrations : List (RouteRegistration H)) :
    ((∃ router, collectRoutes lib registrations = some router) ↔
      (∀ reg ∈ registrations, lib.Valid reg.path) ∧ registrations.Pairwise lib.Fit) ∧
    ∀ router ∈ collectRoutes lib registrations, ∀ path method handler,
      lib.answers router path method = some handler ↔
        lib.GoesTo (· ∈ registrations) path method handler := by
  refine ⟨h.collects.run_iff, fun router hrun path method handler => ?_⟩
  rw [h.answers_iff]
  simp only [RouterLib.GoesTo, RouterLib.Takes, (h.collects.run_contents hrun).2]

/-- **The linker's order does not matter.** -/
theorem collect_routes_perm (h : lib.Documented)
    {registrations registrations' : List (RouteRegistration H)}
    (hperm : registrations.Perm registrations')
    (hrun : collectRoutes lib registrations = some router) :
    ∃ router', collectRoutes lib registrations' = some router' ∧
      ∀ path method, lib.answers router' path method = lib.answers router path method := by
  obtain ⟨router', hrun', hsame⟩ := h.collects.perm (fun _ _ => h.fit_symm) hperm hrun
  refine ⟨router', hrun', fun path method => Option.ext fun handler => ?_⟩
  rw [h.answers_iff, h.answers_iff]
  simp only [RouterLib.GoesTo, RouterLib.Takes, hsame]

end

/-! ## One such router -/

/-- The segments of a pattern; one with a `{` first is a capture, `none`. -/
def patternSegments (pattern : String) : List (Option (List Char)) :=
  (pattern.toList.splitOn '/').map fun segment =>
    if segment.head? = some '{' then none else some segment

def matchesSegments : List (Option (List Char)) → List (List Char) → Bool
  | [], [] => true
  | none :: patterns, segment :: segments => !segment.isEmpty && matchesSegments patterns segments
  | some fixed :: patterns, segment :: segments =>
    fixed == segment && matchesSegments patterns segments
  | _, _ => false

/-- Where there are captures; a static segment comes before one. -/
def captures (pattern : String) : List Bool := (patternSegments pattern).map Option.isNone

theorem eq_of_matchesSegments : ∀ {patterns patterns' : List (Option (List Char))}
    {segments : List (List Char)}, matchesSegments patterns segments = true →
      matchesSegments patterns' segments = true →
      patterns.map Option.isNone = patterns'.map Option.isNone → patterns = patterns'
  | [], [], _, _, _, _ => rfl
  | none :: patterns, none :: patterns', segment :: segments, h, h', hsame => by
    simp only [matchesSegments, Bool.and_eq_true] at h h'
    rw [eq_of_matchesSegments h.2 h'.2 (List.cons.inj hsame).2]
  | some fixed :: patterns, some fixed' :: patterns', segment :: segments, h, h', hsame => by
    simp only [matchesSegments, Bool.and_eq_true, beq_iff_eq] at h h'
    rw [eq_of_matchesSegments h.2 h'.2 (List.cons.inj hsame).2, h.1, h'.1]

/-- Two registrations that can both be there, where captures are whole segments. -/
def FitSegments (reg reg' : RouteRegistration H) : Prop :=
  if reg.path = reg'.path then reg.method ≠ reg'.method
  else ¬ patternSegments reg.path = patternSegments reg'.path

instance (reg reg' : RouteRegistration H) : Decidable (FitSegments reg reg') :=
  inferInstanceAs (Decidable (if reg.path = reg'.path then reg.method ≠ reg'.method
    else ¬ patternSegments reg.path = patternSegments reg'.path))

theorem FitSegments.symm {reg reg' : RouteRegistration H} (h : FitSegments reg reg') :
    FitSegments reg' reg := by
  rw [FitSegments] at h ⊢
  split at h
  · rename_i hpath
    rw [if_pos hpath.symm]
    exact h.symm
  · rename_i hpath
    rw [if_neg (Ne.symm hpath)]
    exact fun hsame => h hsame.symm

/-- A router that keeps what is registered, and looks through it. -/
structure SegmentRouter (H : Type) where
  registered : List (RouteRegistration H)
  fit : registered.Pairwise FitSegments

namespace SegmentRouter

def route (router : SegmentRouter H) (reg : RouteRegistration H) : Option (SegmentRouter H) :=
  if h : reg.path.toList.head? = some '/' ∧ ∀ reg' ∈ router.registered, FitSegments reg' reg then
    some { registered := router.registered ++ [reg]
           fit := List.pairwise_append.mpr ⟨router.fit, List.pairwise_singleton _ _,
             fun reg' hreg' _ hreg => List.mem_singleton.mp hreg ▸ h.2 reg' hreg'⟩ }
  else none

def endpoint (router : SegmentRouter H) (pattern : String) (method : Method) : Option H :=
  (router.registered.find? fun reg => reg.path = pattern ∧ reg.method = method).map
    RouteRegistration.handler

def matched (router : SegmentRouter H) (path : String) : Option String :=
  ((router.registered.map RouteRegistration.path).filter fun pattern =>
    matchesSegments (patternSegments pattern) (path.toList.splitOn '/')).argmin captures

end SegmentRouter

variable (H) in
def segmentRouterLib : RouterLib H where
  Router := SegmentRouter H
  new := ⟨[], .nil⟩
  route := SegmentRouter.route
  Valid pattern := pattern.toList.head? = some '/'
  Overlaps pattern pattern' := patternSegments pattern = patternSegments pattern'
  Matches pattern path := matchesSegments (patternSegments pattern) (path.toList.splitOn '/')
  Before pattern pattern' := captures pattern < captures pattern'
  endpoint := SegmentRouter.endpoint
  matched := SegmentRouter.matched
  answers router path method := (router.matched path).bind fun pattern =>
    (router.endpoint pattern method).or
      (if method = .head then router.endpoint pattern .get else none)

namespace SegmentRouter

variable {router router' : SegmentRouter H} {reg reg' : RouteRegistration H}

theorem fit_of_mem (hreg : reg ∈ router.registered) (hreg' : reg' ∈ router.registered)
    (hne : reg ≠ reg') : FitSegments reg reg' :=
  have : Std.Symm (FitSegments (H := H)) := ⟨fun _ _ => FitSegments.symm⟩
  router.fit.forall hreg hreg' hne

theorem endpoint_eq_some {pattern : String} {method : Method} {handler : H} :
    router.endpoint pattern method = some handler ↔
      ⟨pattern, method, handler⟩ ∈ router.registered := by
  rw [endpoint, Option.map_eq_some_iff]
  constructor
  · rintro ⟨reg, hfind, rfl⟩
    obtain ⟨rfl, rfl⟩ : reg.path = pattern ∧ reg.method = method := by
      simpa using List.find?_some hfind
    exact List.mem_of_find?_eq_some hfind
  · intro hmem
    cases hfind : router.registered.find? fun reg => reg.path = pattern ∧ reg.method = method with
    | none => exact absurd (decide_eq_true ⟨rfl, rfl⟩) (List.find?_eq_none.mp hfind _ hmem)
    | some reg =>
      obtain ⟨hpath, hmethod⟩ : reg.path = pattern ∧ reg.method = method := by
        simpa using List.find?_some hfind
      refine ⟨reg, rfl, ?_⟩
      -- two of one pattern and one method would not fit
      by_contra hne
      have hfit := fit_of_mem (List.mem_of_find?_eq_some hfind) hmem
        fun hsame => hne (congrArg RouteRegistration.handler hsame)
      rw [FitSegments, if_pos hpath] at hfit
      exact hfit hmethod

theorem route_eq_some : router.route reg = some router' ↔
    reg.path.toList.head? = some '/' ∧ (∀ reg' ∈ router.registered, FitSegments reg' reg) ∧
      router'.registered = router.registered ++ [reg] := by
  obtain ⟨registered', fit'⟩ := router'
  rw [route]
  split
  · rename_i h
    rw [Option.some.injEq, SegmentRouter.mk.injEq]
    exact ⟨fun hroute => ⟨h.1, h.2, hroute.symm⟩, fun hroute => hroute.2.2.symm⟩
  · rename_i h
    exact ⟨nofun, fun hroute => absurd ⟨hroute.1, hroute.2.1⟩ h⟩

/-- Of what is registered and matches, the first in the order of the captures. -/
theorem matched_eq_some {path pattern : String} : router.matched path = some pattern ↔
    (segmentRouterLib H).Takes (· ∈ router.registered) pattern path := by
  have hmem : ∀ pattern', pattern' ∈ ((router.registered.map RouteRegistration.path).filter
      fun pattern => matchesSegments (patternSegments pattern) (path.toList.splitOn '/')) ↔
        (∃ reg ∈ router.registered, reg.path = pattern') ∧
          (segmentRouterLib H).Matches pattern' path := fun pattern' => by
    rw [List.mem_filter, List.mem_map]
    rfl
  rw [matched, RouterLib.Takes]
  constructor
  · intro hfirst
    obtain ⟨⟨reg, hreg, rfl⟩, hmatches⟩ := (hmem _).mp (List.argmin_mem hfirst)
    refine ⟨⟨reg, hreg, rfl⟩, hmatches, fun reg' hreg' hmatches' => ?_⟩
    have hnot := List.not_lt_of_mem_argmin ((hmem _).mpr ⟨⟨reg', hreg', rfl⟩, hmatches'⟩)
      (Option.mem_def.mpr hfirst)
    rcases (not_lt.mp hnot).lt_or_eq with hlt | hsame
    · exact .inr hlt
    · left
      by_contra hpath
      have hfit := fit_of_mem hreg' hreg fun heq => hpath (congrArg RouteRegistration.path heq)
      rw [FitSegments, if_neg hpath] at hfit
      exact hfit (eq_of_matchesSegments hmatches' hmatches hsame.symm)
  · rintro ⟨⟨reg, hreg, rfl⟩, hmatches, hbefore⟩
    have hthere := (hmem _).mpr ⟨⟨reg, hreg, rfl⟩, hmatches⟩
    cases hfirst : List.argmin captures _ with
    | none =>
      rw [List.argmin_eq_none.mp hfirst] at hthere
      cases hthere
    | some first =>
      obtain ⟨⟨reg', hreg', rfl⟩, hmatches'⟩ := (hmem _).mp (List.argmin_mem hfirst)
      rcases hbefore reg' hreg' hmatches' with hsame | hlt
      · rw [hsame]
      · exact absurd hlt (List.not_lt_of_mem_argmin hthere (Option.mem_def.mpr hfirst))

end SegmentRouter

theorem segmentRouterLib_documented : (segmentRouterLib H).Documented where
  new_endpoint := fun _ _ => rfl
  route_iff := fun router reg => by
    constructor
    · rintro ⟨router', hroute⟩
      obtain ⟨hvalid, hfits, -⟩ := SegmentRouter.route_eq_some.mp hroute
      exact ⟨hvalid, fun reg' hrouted => hfits reg' (SegmentRouter.endpoint_eq_some.mp hrouted)⟩
    · rintro ⟨hvalid, hfits⟩
      have h : reg.path.toList.head? = some '/' ∧
          ∀ reg' ∈ router.registered, FitSegments reg' reg :=
        ⟨hvalid, fun reg' hreg' => hfits reg' (SegmentRouter.endpoint_eq_some.mpr hreg')⟩
      exact ⟨_, dif_pos h⟩
  route_endpoint := fun router reg router' hroute pattern method => by
    obtain ⟨-, hfits, hregistered⟩ := SegmentRouter.route_eq_some.mp hroute
    obtain ⟨path, method', handler'⟩ := reg
    refine Option.ext fun handler => ?_
    refine SegmentRouter.endpoint_eq_some.trans ?_
    rw [hregistered, List.mem_append, List.mem_singleton]
    split
    · rename_i hsame
      obtain ⟨rfl, rfl⟩ := hsame
      constructor
      · rintro (hmem | hsame)
        · have hfit := hfits _ hmem
          rw [FitSegments, if_pos rfl] at hfit
          exact absurd rfl hfit
        · cases hsame
          rfl
      · intro hsame
        cases hsame
        exact .inr rfl
    · rename_i hother
      constructor
      · rintro (hmem | hsame)
        · exact SegmentRouter.endpoint_eq_some.mpr hmem
        · cases hsame
          exact absurd ⟨rfl, rfl⟩ hother
      · exact fun hrouted => .inl (SegmentRouter.endpoint_eq_some.mp hrouted)
  overlaps_comm := fun _ _ => Eq.symm
  matched_iff := fun router path pattern => by
    refine SegmentRouter.matched_eq_some.trans ?_
    have hrouted : (segmentRouterLib H).Routed router = (· ∈ router.registered) :=
      funext fun reg => propext SegmentRouter.endpoint_eq_some
    rw [hrouted]
  answers_eq := fun _ _ _ => rfl

def widgetRoutes : List (RouteRegistration String) :=
  [⟨"/widgets", .post, "create"⟩, ⟨"/widgets/{id}", .get, "get"⟩,
    ⟨"/widgets/{id}", ⟨"PUT"⟩, "update"⟩, ⟨"/widgets/recent", .get, "recent"⟩]

theorem collectRoutes_iff_widgets :
    ((∃ router, collectRoutes (segmentRouterLib String) widgetRoutes = some router) ↔
      (∀ reg ∈ widgetRoutes, (segmentRouterLib String).Valid reg.path) ∧
        widgetRoutes.Pairwise (segmentRouterLib String).Fit) ∧
    ∀ router ∈ collectRoutes (segmentRouterLib String) widgetRoutes, ∀ path method handler,
      (segmentRouterLib String).answers router path method = some handler ↔
        (segmentRouterLib String).GoesTo (· ∈ widgetRoutes) path method handler :=
  collectRoutes_iff segmentRouterLib_documented widgetRoutes

-- two patterns match the second path
example : (collectRoutes (segmentRouterLib String) widgetRoutes).map (fun router =>
    [(segmentRouterLib String).answers router "/widgets/5" .head,
      (segmentRouterLib String).answers router "/widgets/recent" .get]) =
    some [some "get", some "recent"] := by
  decide

theorem collect_routes_perm_widgets : ∃ router router',
    collectRoutes (segmentRouterLib String) widgetRoutes = some router ∧
    collectRoutes (segmentRouterLib String) widgetRoutes.reverse = some router' ∧
      (∀ path method, (segmentRouterLib String).answers router' path method =
        (segmentRouterLib String).answers router path method) := by
  obtain ⟨router, hrun⟩ : ∃ router,
      collectRoutes (segmentRouterLib String) widgetRoutes = some router :=
    Option.isSome_iff_exists.mp (by decide)
  obtain ⟨router', hrun', hsame⟩ := collect_routes_perm segmentRouterLib_documented
    (List.reverse_perm widgetRoutes).symm hrun
  exact ⟨router, router', hrun, hrun', hsame⟩

end Launcher
end StanoPlatform
