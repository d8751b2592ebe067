import StanoPlatform.Lib.Labels
import StanoPlatform.Axum.Http

/-!
# `Launcher/Cors.lean` — which origins may send credentials

`cors_layer` asks of an origin whether it ends with one of the configured suffixes, letter by
letter, all of `scheme://host:port` at once. What an operator means is a domain and its
subdomains. The two agree for the suffixes that are a dot and a domain (`IsDomainSuffix`), and for
no others.

Of `tower_http::cors` the file has what its documentation says of the three ways to allow an origin
that are used here. One of them can fail: `AllowOrigin::list` panics on a list with `*` in it. That
panic takes `run()` down before it listens, so `corsLayer` gives a layer or nothing.

From `cors_layer` in `stano-launcher/src/server.rs`. An origin is what a browser sends: a scheme, a
host, and a port unless it is the default one. A host is a name or an address, an IPv6 address in
brackets. That a browser sends its origin as it is, and heeds the answer, is its part of the
bargain.
-/

set_option autoImplicit false

namespace StanoPlatform
namespace Launcher

open Lib Axum

/-- The part of the settings that `cors_layer` reads. -/
structure BootstrapConfig where
  corsOrigins : List String
  corsOriginSuffixes : List String
  corsDevOrigins : List String
  isDev : Bool

/-- `str::parse::<HeaderValue>` -/
def parseHeaderValue (text : String) : Option HeaderValue :=
  if legal : (utf8 text).all legalByte = true then some ⟨utf8 text, legal⟩ else none

/-! ## `tower_http::cors` -/

inductive AllowOrigin where
  | any
  | list (origins : List HeaderValue)
  | predicate (allows : HeaderValue → Bool)

theorem star_visible : (utf8 "*").all visibleByte = true := by decide

/-- `WILDCARD` -/
def wildcard : HeaderValue := .fromStatic "*" star_visible

/-- `AllowOrigin::list`, which panics on a list that has the wildcard in it. -/
def AllowOrigin.ofList (origins : List HeaderValue) : Option AllowOrigin :=
  if wildcard ∈ origins then none else some (.list origins)

def AllowOrigin.allows : AllowOrigin → HeaderValue → Bool
  | any, _ => true
  | list origins, origin => decide (origin ∈ origins)
  | predicate allows, origin => allows origin

/-- `AllowMethods` and `AllowHeaders`. -/
inductive AllowRequested where
  | any
  | mirrorRequest
  deriving DecidableEq, Repr

structure CorsLayer where
  allowOrigin : AllowOrigin
  allowMethods : AllowRequested
  allowHeaders : AllowRequested
  allowCredentials : Bool

def CorsLayer.permissive : CorsLayer :=
  { allowOrigin := .any, allowMethods := .any, allowHeaders := .any, allowCredentials := false }

/-- The origin is answered with its own name and `access-control-allow-credentials: true`. -/
def CorsLayer.AllowsCredentials (layer : CorsLayer) (origin : HeaderValue) : Prop :=
  layer.allowOrigin.allows origin = true ∧ layer.allowCredentials = true

/-! ## `cors_layer` -/

/-- The closure: `origin.to_str()`, then the two lists. -/
def originMatches (exactOrigins suffixes : List String) (origin : HeaderValue) : Bool :=
  match origin.toStr with
  | some s =>
    exactOrigins.any (fun o => o.toList = s) || suffixes.any (fun suf => suf.toList.isSuffixOf s)
  | none => false

/-- `none` is the panic. -/
def corsLayer (config : BootstrapConfig) : Option CorsLayer :=
  if config.isDev && !config.corsDevOrigins.isEmpty then
    (AllowOrigin.ofList (config.corsDevOrigins.filterMap parseHeaderValue)).map fun allowOrigin =>
      { allowOrigin
        allowMethods := .mirrorRequest
        allowHeaders := .mirrorRequest
        allowCredentials := true }
  else if config.corsOrigins.isEmpty && config.corsOriginSuffixes.isEmpty then some .permissive
  else some
    { allowOrigin := .predicate (originMatches config.corsOrigins config.corsOriginSuffixes)
      allowMethods := .mirrorRequest
      allowHeaders := .mirrorRequest
      allowCredentials := true }

theorem originMatches_iff {exactOrigins suffixes : List String} {origin : HeaderValue}
    {text : List Char} (htext : origin.toStr = some text) :
    originMatches exactOrigins suffixes origin = true ↔
      (∃ o ∈ exactOrigins, o.toList = text) ∨ ∃ suf ∈ suffixes, suf.toList <:+ text := by
  simp only [originMatches, htext, Bool.or_eq_true, List.any_eq_true, decide_eq_true_eq,
    List.isSuffixOf_iff_suffix]

/-! ## Origins -/

/-- What a scheme or a host is written in: visible ASCII, and no `/`. -/
def nameChar (c : Char) : Bool := 33 ≤ c.toNat && c.toNat < 127 && c != '/'

/-- `scheme://host` or `scheme://host:port`. A host with a colon in it is an IPv6 address, which
stands in brackets. -/
structure Origin where
  scheme : List Char
  host : List Char
  port : Option (List Char)
  scheme_ne : scheme ≠ []
  scheme_chars : ∀ c ∈ scheme, nameChar c = true ∧ c ≠ ':'
  host_ne : host ≠ []
  host_chars : ∀ c ∈ host, nameChar c = true
  bracketed : ':' ∈ host → ∃ address, host = '[' :: address ++ [']']
  port_ne : ∀ p ∈ port, p ≠ []
  port_digits : ∀ p ∈ port, ∀ c ∈ p, c.isDigit = true

namespace Origin

variable (origin : Origin)

/-- `host` or `host:port` -/
def authority : List Char := origin.host ++ origin.port.elim [] (':' :: ·)

def text : List Char := origin.scheme ++ [':', '/', '/'] ++ origin.authority

end Origin

/-- Visible, and no blank. -/
def Graphic (c : Char) : Prop := 33 ≤ c.toNat ∧ c.toNat < 127

theorem Graphic.toNat_ofNat {c : Char} (h : Graphic c) :
    (UInt8.ofNat c.toNat).toNat = c.toNat :=
  UInt8.toNat_ofNat_of_lt (h.2.trans (by decide))

theorem Graphic.visibleByte {c : Char} (h : Graphic c) :
    visibleByte (UInt8.ofNat c.toNat) = true := by
  have hle : (32 : UInt8) ≤ UInt8.ofNat c.toNat := by
    rw [UInt8.le_iff_toNat_le, h.toNat_ofNat]
    exact le_trans (by decide) h.1
  have hlt : UInt8.ofNat c.toNat < 127 := by
    rw [UInt8.lt_iff_toNat_lt, h.toNat_ofNat]
    exact h.2
  simp [Axum.visibleByte, hle, hlt]

theorem Graphic.asChar {c : Char} (h : Graphic c) : asChar (UInt8.ofNat c.toNat) = c := by
  rw [Lib.asChar, h.toNat_ofNat, Char.ofNat_toNat]

theorem all_visibleByte {text : List Char} (h : ∀ c ∈ text, Graphic c) :
    (text.map fun c => UInt8.ofNat c.toNat).all visibleByte = true := by
  rw [List.all_map, List.all_eq_true]
  exact fun c hc => (h c hc).visibleByte

namespace Origin

theorem text_graphic (origin : Origin) : ∀ c ∈ origin.text, Graphic c := by
  have hname : ∀ c, nameChar c = true → Graphic c := by
    intro c hc
    simp only [nameChar, Bool.and_eq_true, decide_eq_true_eq] at hc
    exact hc.1
  have hdigit : ∀ c : Char, c.isDigit = true → Graphic c := by
    intro c hc
    simp only [Char.isDigit, Bool.and_eq_true, decide_eq_true_eq] at hc
    exact ⟨le_trans (by decide) hc.1, lt_of_le_of_lt hc.2 (by decide)⟩
  intro c hc
  -- the scheme, the `://`, the host, and the port if there is one
  simp only [text, authority, List.mem_append] at hc
  rcases hc with (hc | hc) | hc | hc
  · exact hname c (origin.scheme_chars c hc).1
  · simp only [List.mem_cons, List.not_mem_nil, or_false, or_self] at hc
    rcases hc with rfl | rfl <;> exact ⟨by decide, by decide⟩
  · exact hname c (origin.host_chars c hc)
  · cases hport : origin.port with
    | none => simp [hport] at hc
    | some port =>
      rw [hport] at hc
      rcases List.mem_cons.mp hc with rfl | hc
      · exact ⟨by decide, by decide⟩
      · exact hdigit c (origin.port_digits port hport c hc)

/-- The value of the `origin` header. -/
def value (origin : Origin) : HeaderValue :=
  ⟨origin.text.map fun c => UInt8.ofNat c.toNat,
    legal_of_visible (all_visibleByte origin.text_graphic)⟩

theorem toStr_value (origin : Origin) : origin.value.toStr = some origin.text := by
  have htext : (origin.text.map fun c => UInt8.ofNat c.toNat).map asChar = origin.text := by
    rw [List.map_map]
    exact (List.map_congr_left fun c hc => (origin.text_graphic c hc).asChar).trans (List.map_id _)
  rw [HeaderValue.toStr, value, if_pos (all_visibleByte origin.text_graphic)]
  exact congrArg some htext

end Origin

/-! ## What a suffix admits -/

/-- The suffix without its leading dot. -/
def domain : List Char → List Char
  | '.' :: name => name
  | suffix => suffix

/-- The host is the domain, or a subdomain of it. -/
def Origin.Within (origin : Origin) (name : List Char) : Prop :=
  name ≠ [] ∧ Under '.' name origin.host

def EndsInPort (name : List Char) : Prop :=
  ∃ host port, name = host ++ ':' :: port ∧ port ≠ [] ∧ ∀ c ∈ port, c.isDigit = true

/-- A dot and a domain. -/
def IsDomainSuffix (suffix : List Char) : Prop :=
  ∃ name, suffix = '.' :: name ∧ name ≠ [] ∧ '/' ∉ name ∧ ¬ EndsInPort name

theorem Origin.suffix_authority {origin : Origin} {suffix : List Char}
    (h : suffix <:+ origin.text) (hslash : '/' ∉ suffix) : suffix <:+ origin.authority := by
  have htext : origin.text = (origin.scheme ++ [':', '/']) ++ '/' :: origin.authority := by
    simp [text]
  exact suffix_of_not_mem (htext ▸ h) hslash

/-- An origin that ends with a dot and a domain has a host that does. -/
theorem Origin.suffix_host {origin : Origin} {name : List Char} (h : '.' :: name <:+ origin.text)
    (hslash : '/' ∉ name) (hport : ¬ EndsInPort name) : '.' :: name <:+ origin.host := by
  have hauthority := origin.suffix_authority h (by simpa using hslash)
  rw [authority] at hauthority
  cases hp : origin.port with
  | none => simpa [hp] using hauthority
  | some port =>
    rw [hp, Option.elim_some] at hauthority
    have hdigits := origin.port_digits port hp
    rcases suffix_append_cases hauthority with hinside | ⟨t, ht, -⟩
    · -- not in the port, where there are no dots
      rcases List.suffix_cons_iff.mp hinside with heq | hinside
      · exact absurd (List.cons.inj heq).1 (by decide)
      · have hdot := hdigits '.' (hinside.subset List.mem_cons_self)
        exact absurd hdot (by decide)
    · cases t with
      | nil => exact absurd (List.cons.inj ht).1 (by decide)
      | cons c t =>
        exact absurd ⟨t, port, (List.cons.inj ht).2, origin.port_ne port hp, hdigits⟩ hport

theorem Origin.within_of_isDomainSuffix {origin : Origin} {suffix : List Char}
    (h : suffix <:+ origin.text) (hsuffix : IsDomainSuffix suffix) :
    origin.Within (domain suffix) := by
  obtain ⟨name, rfl, hne, hslash, hport⟩ := hsuffix
  exact ⟨hne, under_iff.mpr (.inr (origin.suffix_host h hslash hport))⟩

theorem Origin.Within.suffix {origin : Origin} {name : List Char} (h : origin.Within name) :
    name <:+ origin.host := by
  rcases under_iff.mp h.2 with heq | hsuffix
  · exact heq ▸ List.suffix_rfl
  · exact (List.suffix_cons '.' name).trans hsuffix

/-- A host does not end in a port, not even an IPv6 address. -/
theorem Origin.not_endsInPort {origin : Origin} {name : List Char} (h : name <:+ origin.host) :
    ¬ EndsInPort name := by
  rintro ⟨before, port, rfl, hne, hdigits⟩
  have hcolon : ':' ∈ origin.host := h.subset (by simp)
  obtain ⟨address, hhost⟩ := origin.bracketed hcolon
  have hport : port <:+ ('[' :: address) ++ [']'] := by
    rw [← hhost]
    exact (List.suffix_append_of_suffix (List.suffix_cons _ _)).trans h
  rcases List.suffix_concat_iff.mp hport with rfl | ⟨digits, rfl, -⟩
  · exact hne rfl
  · exact absurd (hdigits ']' (by simp)) (by decide)

/-- An origin whose host ends with the letters of a name, and is not under it. -/
def Origin.lookalike (origin : Origin) (name : List Char) (hname : name <:+ origin.host)
    (hne : name ≠ []) : Origin where
  scheme := origin.scheme
  host := (if ':' ∈ name then ['[', 'a'] else ['a']) ++ name
  port := none
  scheme_ne := origin.scheme_ne
  scheme_chars := origin.scheme_chars
  host_ne := by simp [hne]
  host_chars c hc := by
    rcases List.mem_append.mp hc with hc | hc
    · have hletter : c = '[' ∨ c = 'a' := by
        split at hc
        · simpa using hc
        · exact .inr (by simpa using hc)
      rcases hletter with rfl | rfl <;> decide
    · exact origin.host_chars c (hname.subset hc)
  bracketed hcolon := by
    have hmem : ':' ∈ name := by
      rcases List.mem_append.mp hcolon with h | h
      · split at h <;> simp at h
      · exact h
    obtain ⟨address, hhost⟩ := origin.bracketed (hname.subset hmem)
    rw [hhost] at hname
    rcases List.suffix_concat_iff.mp hname with rfl | ⟨before, rfl, -⟩
    · exact absurd rfl hne
    · exact ⟨'a' :: before, by simp [hmem]⟩
  port_ne := by simp
  port_digits := by simp

section

variable {origin : Origin} {name : List Char} (hname : name <:+ origin.host) (hne : name ≠ [])

theorem Origin.suffix_lookalike : name <:+ (origin.lookalike name hname hne).text := by
  simp only [text, authority, lookalike, Option.elim_none, List.append_nil]
  exact List.suffix_append_of_suffix (List.suffix_append _ _)

theorem Origin.not_within_lookalike : ¬ (origin.lookalike name hname hne).Within name := by
  rintro ⟨-, hunder⟩
  refine not_under_append ?_ ?_ name hunder
  · split <;> simp
  · split <;> simp

end

/-- **Which suffixes keep to their domain.** Of those that some origin ends with: a dot and a
domain, and no others. -/
theorem isDomainSuffix_iff {suffix : List Char} (h : ∃ origin : Origin, suffix <:+ origin.text) :
    (∀ origin : Origin, suffix <:+ origin.text → origin.Within (domain suffix)) ↔
      IsDomainSuffix suffix := by
  constructor
  · intro hwithin
    obtain ⟨origin, horigin⟩ := h
    have hhost := (hwithin origin horigin).suffix
    have hslash : '/' ∉ domain suffix := fun hmem =>
      absurd (origin.host_chars '/' (hhost.subset hmem)) (by decide)
    cases suffix with
    | nil => exact absurd rfl (hwithin origin horigin).1
    | cons c name =>
      by_cases hdot : c = '.'
      · subst hdot
        exact ⟨name, rfl, (hwithin origin horigin).1, hslash, origin.not_endsInPort hhost⟩
      · have hdomain : domain (c :: name) = c :: name := by
          rw [domain]
          exact fun _ heq => hdot (List.cons.inj heq).1
        rw [hdomain] at hhost hwithin
        -- a host that merely ends with the same letters is let through as well
        have hne : c :: name ≠ [] := List.cons_ne_nil c name
        exact absurd (hwithin _ (origin.suffix_lookalike hhost hne))
          (origin.not_within_lookalike hhost hne)
  · exact fun hsuffix origin horigin => origin.within_of_isDomainSuffix horigin hsuffix

/-! ## What `cors_layer` admits -/

/-- **Which origins may send credentials.** Outside dev mode, and unless everything is permitted:
those that are listed, and those that end with a configured suffix. A suffix keeps to its domain
iff it is a dot and a domain. -/
theorem credentials_iff (config : BootstrapConfig) (hdev : config.isDev = false)
    (hlists : ¬ (config.corsOrigins = [] ∧ config.corsOriginSuffixes = [])) :
    ∃ layer, corsLayer config = some layer ∧
    (∀ origin : Origin, layer.AllowsCredentials origin.value ↔
      (∃ o ∈ config.corsOrigins, o.toList = origin.text) ∨
        ∃ suf ∈ config.corsOriginSuffixes, suf.toList <:+ origin.text) ∧
    (∀ suf ∈ config.corsOriginSuffixes, (∃ origin : Origin, suf.toList <:+ origin.text) →
      ((∀ origin : Origin, suf.toList <:+ origin.text → origin.Within (domain suf.toList)) ↔
        IsDomainSuffix suf.toList)) ∧
    ((∀ suf ∈ config.corsOriginSuffixes, IsDomainSuffix suf.toList) →
      ∀ origin : Origin, layer.AllowsCredentials origin.value →
        (∃ o ∈ config.corsOrigins, o.toList = origin.text) ∨
          ∃ suf ∈ config.corsOriginSuffixes, origin.Within (domain suf.toList)) := by
  have hempty : (config.corsOrigins.isEmpty && config.corsOriginSuffixes.isEmpty) = false := by
    rw [Bool.eq_false_iff, ne_eq, Bool.and_eq_true, List.isEmpty_iff, List.isEmpty_iff]
    exact hlists
  rw [corsLayer, hdev, hempty]
  refine ⟨_, rfl, ?_⟩
  have hlayer : ∀ origin : Origin, CorsLayer.AllowsCredentials
      ⟨.predicate (originMatches config.corsOrigins config.corsOriginSuffixes), .mirrorRequest,
        .mirrorRequest, true⟩ origin.value ↔
      (∃ o ∈ config.corsOrigins, o.toList = origin.text) ∨
        ∃ suf ∈ config.corsOriginSuffixes, suf.toList <:+ origin.text := by
    intro origin
    rw [← originMatches_iff origin.toStr_value, CorsLayer.AllowsCredentials]
    simp [AllowOrigin.allows]
  refine ⟨hlayer, fun suf _ h => isDomainSuffix_iff h, fun hsuffixes origin hallowed => ?_⟩
  refine ((hlayer origin).mp hallowed).imp_right ?_
  rintro ⟨suf, hsuf, hends⟩
  exact ⟨suf, hsuf, origin.within_of_isDomainSuffix hends (hsuffixes suf hsuf)⟩

/-! ### With the dot and without -/

def isName (text : List Char) : Bool := text.all fun c => nameChar c && c != ':'

theorem nameChar_of_isName {text : List Char} (h : isName text = true) :
    ∀ c ∈ text, nameChar c = true ∧ c ≠ ':' := by
  intro c hc
  have hchar := List.all_eq_true.mp h c hc
  rwa [Bool.and_eq_true, bne_iff_ne] at hchar

def https (host : String) (host_ne : host.toList ≠ []) (chars : isName host.toList = true) :
    Origin where
  scheme := ['h', 't', 't', 'p', 's']
  host := host.toList
  port := none
  scheme_ne := by decide
  scheme_chars := nameChar_of_isName (by decide)
  host_ne := host_ne
  host_chars c hc := (nameChar_of_isName chars c hc).1
  bracketed h := absurd rfl (nameChar_of_isName chars ':' h).2
  port_ne := by simp
  port_digits := by simp

def suffixOnly (suffix : String) : BootstrapConfig :=
  { corsOrigins := [], corsOriginSuffixes := [suffix], corsDevOrigins := [], isDev := false }

def fooExample : Origin := https "foo.example.com" (by decide) (by decide)

def evilExample : Origin := https "evilexample.com" (by decide) (by decide)

theorem credentials_iff_example : ∃ layer,
    corsLayer (suffixOnly ".example.com") = some layer ∧
      layer.AllowsCredentials fooExample.value ∧ ¬ layer.AllowsCredentials evilExample.value := by
  obtain ⟨layer, hlayer, hallows, -⟩ :=
    credentials_iff (suffixOnly ".example.com") rfl (by simp [suffixOnly])
  refine ⟨layer, hlayer, ?_⟩
  rw [hallows, hallows]
  decide +kernel

/-- A host of somebody else's that ends with the letters of a suffix without a dot. -/
theorem evilExample_allowed : ∃ layer,
    corsLayer (suffixOnly "example.com") = some layer ∧
      layer.AllowsCredentials evilExample.value ∧
      ¬ ((∃ o ∈ (suffixOnly "example.com").corsOrigins, o.toList = evilExample.text) ∨
        ∃ suf ∈ (suffixOnly "example.com").corsOriginSuffixes,
          evilExample.Within (domain suf.toList)) := by
  have hunder : ¬ Under '.' (domain "example.com".toList) evilExample.host := by
    decide +kernel
  refine ⟨_, rfl, ⟨?_, rfl⟩, ?_⟩
  · decide +kernel
  · rintro (⟨o, ho, -⟩ | ⟨suf, hsuf, hwithin⟩)
    · cases ho
    · rw [List.mem_singleton.mp hsuf] at hwithin
      exact hunder hwithin.2

end Launcher
end StanoPlatform
