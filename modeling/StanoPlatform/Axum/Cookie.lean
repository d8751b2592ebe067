import StanoPlatform.Axum.Layer

/-!
# `Axum/Cookie.lean` — what the cookie fallback reads

`extract_token` reads the first line of a header, and only if the whole of it is text. What a
cookie *is* does not depend on either: cookies are segments of bytes, in all the lines there are
(`cookieToken`). One equation says what the fallback makes of a line (`cookiePair_eq`); where it
falls short of the cookies, and when it is taken at all, are read off it.

From `extract_token` in `stano-axum/src/security/layer.rs`. `HeaderMap::get` gives the first line of
a header, and `to_str` refuses a line with a byte in it that is not visible ASCII or a blank: both
are documented of the `http` crate and are definitions in `Axum/Http.lean`. The rest, `split(';')`,
`trim` and `split_once('=')`, is the standard library's, on characters. A cookie is specified on
bytes, so one half of the file is the way from the one to the other (`Lib/Ascii.lean`).
-/

set_option autoImplicit false

namespace StanoPlatform
namespace Axum

open Lib Security

variable {M : Matchit} {E : Type}

def blankByte (b : UInt8) : Bool := b == 9 || b == 32

/-- `;`-separated -/
def HeaderValue.segments (line : HeaderValue) : List (List UInt8) := line.bytes.splitOn 59

/-- The value of a segment `name=value`, where it is visible ASCII. -/
def cookieValue (name : String) (segment : List UInt8) : Option String :=
  match (utf8 name ++ [61]).isPrefixOf? (trimBlank blankByte segment) with
  | some value => if value.all visibleByte then some (.ofList (value.map asChar)) else none
  | none => none

/-- The cookie of a name: of all the lines, and the segments of each, the first to be one. -/
def cookieToken (headers : HeaderMap) (name : String) : Option String :=
  ((headers.getAll "cookie").flatMap HeaderValue.segments).findSome? (cookieValue name)

/-- A segment has the form `name=value`. -/
def Carries (name : String) (segment : List UInt8) : Prop :=
  ∃ value, trimBlank blankByte segment = utf8 name ++ 61 :: value ∧ value.all visibleByte = true

theorem cookieValue_eq_some {name v : String} {segment : List UInt8} :
    cookieValue name segment = some v ↔
      ∃ value, trimBlank blankByte segment = utf8 name ++ 61 :: value ∧
        value.all visibleByte = true ∧ v = .ofList (value.map asChar) := by
  have hpre : ∀ value, (utf8 name ++ [61]).isPrefixOf? (trimBlank blankByte segment) = some value ↔
      trimBlank blankByte segment = utf8 name ++ 61 :: value := fun value => by
    rw [List.isPrefixOf?_eq_some_iff_append_eq, List.append_assoc, List.singleton_append, eq_comm]
  rw [cookieValue]
  constructor
  · intro h
    split at h
    case h_1 value hvalue =>
      split at h
      case isTrue hvisible => exact ⟨value, (hpre value).mp hvalue, hvisible, by simpa using h.symm⟩
      case isFalse => cases h
    case h_2 => cases h
  · rintro ⟨value, hvalue, hvisible, rfl⟩
    rw [(hpre value).mpr hvalue]
    exact if_pos hvisible

theorem cookieValue_ne_none {name : String} {segment : List UInt8} :
    cookieValue name segment ≠ none ↔ Carries name segment := by
  rw [Option.ne_none_iff_exists']
  constructor
  · rintro ⟨v, h⟩
    obtain ⟨value, hvalue, hvisible, -⟩ := cookieValue_eq_some.mp h
    exact ⟨value, hvalue, hvisible⟩
  · rintro ⟨value, hvalue, hvisible⟩
    exact ⟨_, cookieValue_eq_some.mpr ⟨value, hvalue, hvisible, rfl⟩⟩

/-! ## The fallback, on a line that is text -/

theorem lt_of_visible {b : UInt8} (h : visibleByte b = true) : b < 128 :=
  byte_forall (P := fun b => visibleByte b = true → b < 128) (by decide +kernel) b h

theorem isWhitespace_asChar {b : UInt8} (h : visibleByte b = true) :
    (asChar b).isWhitespace = blankByte b :=
  byte_forall (P := fun b => visibleByte b = true → (asChar b).isWhitespace = blankByte b)
    (by decide +kernel) b h

theorem splitOnce_eq_some {separator : Char} {s before after : List Char} :
    splitOnce separator s = some (before, after) ↔
      separator ∉ before ∧ s = before ++ separator :: after := by
  rw [splitOnce, List.span_eq_takeWhile_dropWhile]
  constructor
  · intro h
    split at h
    case h_1 _ c rest hspan =>
      cases h
      obtain ⟨rfl, hdrop⟩ := Prod.mk.inj hspan
      refine ⟨fun hmem => by simpa using List.mem_takeWhile_imp hmem, ?_⟩
      -- the span ends at the first character that fails its test
      have hc : c = separator := by
        have hhead := List.head?_dropWhile_not (· ≠ separator) s
        rw [hdrop] at hhead
        simpa using hhead
      rw [hc] at hdrop
      rw [← hdrop, List.takeWhile_append_dropWhile]
    case h_2 => cases h
  · rintro ⟨hbefore, rfl⟩
    have hne : ∀ c ∈ before, decide (c ≠ separator) = true := fun c hc => by
      simpa using fun heq : c = separator => hbefore (heq ▸ hc)
    rw [List.takeWhile_append_of_pos hne, List.dropWhile_append_of_pos hne,
      List.takeWhile_cons_of_neg (by simp), List.dropWhile_cons_of_neg (by simp), List.append_nil]

theorem cookiePair_eq_some {name v : String} {pair : List Char} :
    cookiePair name pair = some v ↔
      '=' ∉ name.toList ∧ trim pair = name.toList ++ '=' :: v.toList := by
  rw [← splitOnce_eq_some, cookiePair]
  constructor
  · intro h
    split at h
    case h_1 before after hsplit =>
      split at h
      case isTrue hname =>
        cases h
        rw [hsplit, hname, String.toList_ofList]
      case isFalse => cases h
    case h_2 => cases h
  · intro h
    rw [h]
    simp

/-- A segment of a line that is text. -/
theorem cookiePair_eq {name : String} (hname : '=' ∉ name.toList) {segment : List UInt8}
    (hvisible : ∀ b ∈ segment, visibleByte b = true) :
    cookiePair name (segment.map asChar) = cookieValue name segment := by
  have htrim : trim (segment.map asChar) = (trimBlank blankByte segment).map asChar :=
    trimBlank_map fun b hb => isWhitespace_asChar (hvisible b hb)
  have hkept : ∀ b ∈ trimBlank blankByte segment, visibleByte b = true :=
    fun b hb => hvisible b (mem_of_mem_trimBlank hb)
  ext v
  rw [cookiePair_eq_some, cookieValue_eq_some, htrim]
  -- both sides have trimmed the same bytes; what they were does not matter any more
  generalize trimBlank blankByte segment = kept at hkept
  constructor
  · rintro ⟨-, hkeptEq⟩
    obtain ⟨key, rest, rfl, hkey, hrest⟩ := List.map_eq_append_iff.mp hkeptEq
    obtain ⟨b, value, rfl, hb, hvalue⟩ := List.map_eq_cons_iff.mp hrest
    have hb61 : b = 61 := asChar_injective hb
    have hascii : ∀ b ∈ key, b < 128 := fun b hb => lt_of_visible (hkept b (by simp [hb]))
    refine ⟨value, ?_, ?_, ?_⟩
    · rw [hb61, (map_asChar_eq_toList hascii).mp hkey]
    · exact List.all_eq_true.mpr fun b hb => hkept b (by simp [hb])
    · rw [hvalue, String.ofList_toList]
  · rintro ⟨value, rfl, hvalue, rfl⟩
    have hascii : ∀ b ∈ utf8 name, b < 128 := fun b hb => lt_of_visible (hkept b (by simp [hb]))
    refine ⟨hname, ?_⟩
    rw [List.map_append, List.map_cons, (map_asChar_eq_toList hascii).mpr rfl, String.toList_ofList]
    rfl

theorem findSome_congr {α β : Type} {f g : α → Option β} {l : List α} (h : ∀ x ∈ l, f x = g x) :
    l.findSome? f = l.findSome? g := by
  induction l with
  | nil => rfl
  | cons x l ih =>
    rw [List.findSome?_cons, List.findSome?_cons, h x List.mem_cons_self,
      ih fun y hy => h y (List.mem_cons_of_mem _ hy)]

theorem mem_segments {line : HeaderValue} {segment : List UInt8} {b : UInt8}
    (hsegment : segment ∈ line.segments) (hb : b ∈ segment) : b ∈ line.bytes ∧ b ≠ 59 :=
  mem_of_mem_splitOn hsegment hb

/-- The token in the value of an `Authorization` header. -/
def bearerToken (value : HeaderValue) : Option (List Char) :=
  value.toStr.bind fun s => "Bearer ".toList.isPrefixOf? s

theorem bearerToken_eq (headers : HeaderMap) :
    ((headers.get "authorization").bind HeaderValue.toStr).bind
      (fun s => "Bearer ".toList.isPrefixOf? s) =
        (headers.getAll "authorization").head?.bind bearerToken := by
  rw [Option.bind_assoc, HeaderMap.get_eq_head?]
  rfl

theorem extractToken_bearer {headers : HeaderMap} {token : List Char} (cookieName : Option String)
    (h : (headers.getAll "authorization").head?.bind bearerToken = some token) :
    extractToken headers cookieName = some (.ofList token) := by
  rw [extractToken, bearerToken_eq, h]

/-- With no cookie to look at there is no fallback. -/
theorem extractToken_nobody {headers : HeaderMap}
    (h : (headers.getAll "authorization").head?.bind bearerToken = none) :
    extractToken headers none = none := by
  rw [extractToken, bearerToken_eq, h]
  rfl

/-- **The fallback**: the pairs of the first line, if the line is text. -/
theorem extractToken_fallback {headers : HeaderMap}
    (h : (headers.getAll "authorization").head?.bind bearerToken = none) (name : String) :
    extractToken headers (some name) = (headers.getAll "cookie").head?.bind fun line =>
      if line.bytes.all visibleByte then
        line.segments.findSome? fun segment => cookiePair name (segment.map asChar)
      else none := by
  rw [extractToken, bearerToken_eq, h, HeaderMap.get_eq_head?]
  cases (headers.getAll "cookie").head? with
  | none => rfl
  | some line =>
    simp only [Option.bind_eq_bind, Option.bind_some, HeaderValue.toStr]
    split
    case isTrue hvisible =>
      have hsplit : (line.bytes.map asChar).splitOn ';' = line.segments.map (List.map asChar) :=
        splitOn_map asChar_injective 59 line.bytes
      change ((line.bytes.map asChar).splitOn ';').findSome? (cookiePair name) = _
      rw [hsplit, List.findSome?_map]
      rfl
    case isFalse => rfl

/-! ## How far the fallback finds the cookie -/

theorem findSome_cookieValue_eq_none {name : String} {segments : List (List UInt8)} :
    segments.findSome? (cookieValue name) = none ↔ ∀ s ∈ segments, ¬ Carries name s := by
  rw [List.findSome?_eq_none_iff]
  exact forall₂_congr fun s _ => not_iff_not.mp (by rw [← Ne, cookieValue_ne_none, not_not])

theorem cookieToken_eq_none {headers : HeaderMap} {name : String} :
    cookieToken headers name = none ↔
      ∀ line ∈ headers.getAll "cookie", ∀ s ∈ line.segments, ¬ Carries name s := by
  rw [cookieToken, findSome_cookieValue_eq_none]
  simp only [List.mem_flatMap, forall_exists_index, and_imp]
  exact ⟨fun h line hline s hs => h s line hline hs, fun h s line hline hs => h line hline s hs⟩

/-- **When the fallback is exact.** Without an `Authorization` header it gives the cookie of the
name iff there is none, or it is in the first line and all of that line is text. -/
theorem cookie_exact_iff (headers : HeaderMap) (hauth : headers.getAll "authorization" = [])
    (name : String) (hname : '=' ∉ name.toList) :
    extractToken headers (some name) = cookieToken headers name ↔
      (∀ line ∈ headers.getAll "cookie", ∀ s ∈ line.segments, ¬ Carries name s) ∨
      ∃ first, (headers.getAll "cookie").head? = some first ∧
        first.bytes.all visibleByte = true ∧ ∃ s ∈ first.segments, Carries name s := by
  rw [extractToken_fallback (by rw [hauth]; rfl), ← cookieToken_eq_none]
  cases hlines : headers.getAll "cookie" with
  | nil => simp [cookieToken, hlines]
  | cons first rest =>
    -- the cookies of all lines, with those of the first line first
    have htoken : cookieToken headers name = (first.segments.findSome? (cookieValue name)).or
        ((rest.flatMap HeaderValue.segments).findSome? (cookieValue name)) := by
      rw [cookieToken, hlines, List.flatMap_cons, List.findSome?_append]
    rw [List.head?_cons, Option.bind_some]
    by_cases hvisible : first.bytes.all visibleByte = true
    · have hpairs : (first.segments.findSome? fun s => cookiePair name (s.map asChar)) =
          first.segments.findSome? (cookieValue name) :=
        findSome_congr fun s hs => cookiePair_eq hname fun b hb =>
          List.all_eq_true.mp hvisible b (mem_segments hs hb).1
      rw [if_pos hvisible, hpairs]
      cases hfirst : first.segments.findSome? (cookieValue name) with
      | some v =>
        -- found on the first line, where the fallback looks as well
        have hcarries : ∃ s ∈ first.segments, Carries name s := by
          by_contra hno
          push Not at hno
          rw [findSome_cookieValue_eq_none.mpr hno] at hfirst
          cases hfirst
        refine iff_of_true ?_ (.inr ⟨first, rfl, hvisible, hcarries⟩)
        rw [htoken, hfirst, Option.some_or]
      | none =>
        have hnone := findSome_cookieValue_eq_none.mp hfirst
        constructor
        · exact fun h => .inl h.symm
        · rintro (h | ⟨_, ⟨⟩, -, s, hs, hcarries⟩)
          · exact h.symm
          · exact absurd hcarries (hnone s hs)
    -- a line that is not text is not looked at: no token, whatever the other lines have
    · rw [if_neg hvisible]
      constructor
      · exact fun h => .inl h.symm
      · rintro (h | ⟨_, ⟨⟩, hvisible', -⟩)
        · exact h.symm
        · exact absurd hvisible' hvisible

def cookieLine (text : String) (visible : (utf8 text).all visibleByte = true) :
    String × HeaderValue := ("cookie", .fromStatic text visible)

theorem cookie_exact_iff_theme :
    extractToken [cookieLine "theme=dark; xjwt=1; jwt=a=b" (by decide)] (some "jwt") =
      cookieToken [cookieLine "theme=dark; xjwt=1; jwt=a=b" (by decide)] "jwt" := by
  refine (cookie_exact_iff _ rfl "jwt" (by decide)).mpr
    (.inr ⟨_, rfl, by decide, utf8 " jwt=a=b", by decide, utf8 "a=b", by decide, by decide⟩)

/-- A line of its own for an unrelated cookie, or a byte of one that is not ASCII, hides the
cookie. -/
theorem cookie_hidden :
    ¬ extractToken [cookieLine "theme=dark" (by decide), cookieLine "jwt=t" (by decide)]
        (some "jwt") =
      cookieToken [cookieLine "theme=dark" (by decide), cookieLine "jwt=t" (by decide)] "jwt" ∧
    ¬ extractToken [("cookie", ⟨utf8 "city=Zürich; jwt=t", by decide⟩)] (some "jwt") =
      cookieToken [("cookie", ⟨utf8 "city=Zürich; jwt=t", by decide⟩)] "jwt" := by
  decide

/-! ## When there is an `Authorization` header -/

/-- The value is text and starts with `Bearer `. -/
def HeaderValue.IsBearer (value : HeaderValue) : Prop :=
  value.bytes.all visibleByte = true ∧ utf8 "Bearer " <+: value.bytes

/-- There can be a cookie of this name in a header that is text. -/
structure Carriable (name : String) : Prop where
  noEquals : '=' ∉ name.toList
  noSemicolon : 59 ∉ utf8 name
  visible : ∀ b ∈ utf8 name, visibleByte b = true
  unblank : ∀ b, (utf8 name).head? = some b → blankByte b = false

theorem bearerToken_ne_none {value : HeaderValue} :
    bearerToken value ≠ none ↔ value.IsBearer := by
  have hbearer : "Bearer ".toList = (utf8 "Bearer ").map asChar := by decide
  rw [HeaderValue.IsBearer, bearerToken, HeaderValue.toStr, Option.ne_none_iff_exists']
  by_cases hvisible : value.bytes.all visibleByte = true
  · rw [if_pos hvisible, Option.bind_some]
    change (∃ token, "Bearer ".toList.isPrefixOf? (value.bytes.map asChar) = some token) ↔ _
    rw [hbearer, and_iff_right hvisible, ← List.prefix_map_iff_of_injective asChar_injective]
    exact exists_congr fun token => List.isPrefixOf?_eq_some_iff_append_eq
  · rw [if_neg hvisible, Option.bind_none]
    exact iff_of_false (fun ⟨_, h⟩ => nomatch h) fun h => hvisible h.1

/-- Who reads a cookie of a name has read one that can be. -/
theorem carriable_of_cookiePair {name v : String} {line : HeaderValue} {segment : List UInt8}
    (hvisible : line.bytes.all visibleByte = true) (hsegment : segment ∈ line.segments)
    (hpair : cookiePair name (segment.map asChar) = some v) : Carriable name := by
  have hname := (cookiePair_eq_some.mp hpair).1
  have hbytes : ∀ b ∈ segment, visibleByte b = true ∧ b ≠ 59 := fun b hb =>
    (mem_segments hsegment hb).imp_left (List.all_eq_true.mp hvisible b)
  rw [cookiePair_eq hname fun b hb => (hbytes b hb).1] at hpair
  obtain ⟨value, htrim, -, -⟩ := cookieValue_eq_some.mp hpair
  have hmem : ∀ b ∈ utf8 name, b ∈ segment := fun b hb =>
    mem_of_mem_trimBlank (htrim ▸ List.mem_append_left _ hb : b ∈ trimBlank blankByte segment)
  refine ⟨hname, fun h59 => (hbytes 59 (hmem 59 h59)).2 rfl, fun b hb => (hbytes b (hmem b hb)).1,
    fun b hb => ?_⟩
  obtain ⟨rest, hrest⟩ := List.head?_eq_some_iff.mp hb
  exact not_blank_of_trimBlank (htrim.trans (congrArg (· ++ 61 :: value) hrest))

/-- A cookie header for the name. -/
def Carriable.line {name : String} (h : Carriable name) : HeaderValue :=
  -- `name=x`
  ⟨utf8 name ++ [61, 120], legal_of_visible (List.all_eq_true.mpr fun b hb =>
    (List.mem_append.mp hb).elim (h.visible b) (List.all_eq_true.mp (by decide) b))⟩

theorem Carriable.extractToken_line {name : String} (h : Carriable name) (headers : HeaderMap)
    (hbearer : (headers.getAll "authorization").head?.bind bearerToken = none)
    (hcookie : headers.getAll "cookie" = [h.line]) :
    extractToken headers (some name) = some "x" := by
  have hvisible : ∀ b ∈ h.line.bytes, visibleByte b = true := fun b hb =>
    (List.mem_append.mp hb).elim (h.visible b) (List.all_eq_true.mp (by decide) b)
  -- one segment, with nothing to trim: the line is its only pair
  have hsegments : h.line.segments = [h.line.bytes] := by
    refine List.splitOn_eq_singleton fun h59 => ?_
    exact (List.mem_append.mp h59).elim h.noSemicolon (by decide)
  have htrim : trimBlank blankByte h.line.bytes = h.line.bytes := by
    refine trimBlank_eq_self (fun b hb => ?_) fun b hb => ?_
    · rw [line, List.head?_append] at hb
      cases hname : (utf8 name).head? with
      | some b' =>
        rw [hname, Option.some_or] at hb
        exact h.unblank b (hname.trans hb)
      | none =>
        rw [hname, Option.none_or] at hb
        cases hb
        decide
    · rw [line, List.getLast?_append] at hb
      cases hb
      decide
  rw [extractToken_fallback hbearer, hcookie, List.head?_cons, Option.bind_some,
    if_pos (List.all_eq_true.mpr hvisible), hsegments, List.findSome?_cons,
    cookiePair_eq h.noEquals hvisible,
    cookieValue_eq_some.mpr ⟨[120], htrim, by decide, rfl⟩]
  rfl

/-- No request with these `Authorization` lines has its token from a cookie of the name: the first
of the lines is a bearer token, or there can be no such cookie. -/
def CookieOff (values : List HeaderValue) (name : String) : Prop :=
  (∃ first, values.head? = some first ∧ first.IsBearer) ∨ ¬ Carriable name

theorem CookieOff.extractToken_eq {values : List HeaderValue} {name : String}
    (hoff : CookieOff values name) {headers₁ headers₂ : HeaderMap}
    (h₁ : headers₁.getAll "authorization" = values)
    (h₂ : headers₂.getAll "authorization" = values) :
    extractToken headers₁ (some name) = extractToken headers₂ (some name) := by
  cases hbearer : values.head?.bind bearerToken with
  | some token =>
    rw [extractToken_bearer _ (h₁ ▸ hbearer), extractToken_bearer _ (h₂ ▸ hbearer)]
  | none =>
    -- there is no bearer token, so the name is the one no pair can carry
    have hnot : ¬ Carriable name := by
      rcases hoff with ⟨first, hfirst, hisBearer⟩ | hnot
      · rw [hfirst, Option.bind_some] at hbearer
        exact absurd hbearer (bearerToken_ne_none.mpr hisBearer)
      · exact hnot
    have hnone : ∀ headers : HeaderMap, headers.getAll "authorization" = values →
        extractToken headers (some name) = none := by
      intro headers h
      rw [extractToken_fallback (h ▸ hbearer), Option.bind_eq_none_iff]
      intro line _
      split
      case isTrue hvisible =>
        refine List.findSome?_eq_none_iff.mpr fun segment hsegment => ?_
        cases hpair : cookiePair name (segment.map asChar) with
        | none => rfl
        | some v => exact absurd (carriable_of_cookiePair hvisible hsegment hpair) hnot
      case isFalse => rfl
    rw [hnone headers₁ h₁, hnone headers₂ h₂]

/-- **When an `Authorization` header switches the cookie off.** All header maps with these
`Authorization` lines give the same token iff the first of the lines is a bearer token, or there
can be no cookie of the name. The outcome is then the same, too. -/
theorem authorization_decides_iff (values : List HeaderValue) (name : String) :
    ((∀ headers₁ headers₂ : HeaderMap, headers₁.getAll "authorization" = values →
        headers₂.getAll "authorization" = values →
        extractToken headers₁ (some name) = extractToken headers₂ (some name)) ↔
      CookieOff values name) ∧
    (CookieOff values name → ∀ (lib : Jsonwebtoken E) (layer : AuthorizationLayer M E)
      (req : Request E) (headers : HeaderMap), layer.cookieName = some name →
      req.headers.getAll "authorization" = values → headers.getAll "authorization" = values →
      layer.checkRequest lib { req with headers } = layer.checkRequest lib req) := by
  refine ⟨⟨fun hsame => ?_, fun hoff _ _ => hoff.extractToken_eq⟩,
    fun hoff lib layer req headers hname h₁ h₂ => ?_⟩
  · by_contra hoff
    rw [CookieOff, not_or, not_not] at hoff
    obtain ⟨hnot, hcarriable⟩ := hoff
    have hbearer : values.head?.bind bearerToken = none := by
      rw [Option.bind_eq_none_iff]
      intro first hfirst
      by_contra hne
      exact hnot ⟨first, hfirst, bearerToken_ne_none.mp hne⟩
    let lines : HeaderMap := values.map fun value => ("authorization", value)
    have hlines : lines.getAll "authorization" = values := by
      simp [lines, HeaderMap.getAll, List.filter_map, Function.comp_def]
    have hcookie : HeaderMap.getAll lines "cookie" = [] := by
      simp [lines, HeaderMap.getAll, List.filter_map, Function.comp_def]
    -- the same lines with a cookie, and without one
    let more : HeaderMap := lines ++ [("cookie", hcarriable.line)]
    have hmore : more.getAll "authorization" = values := by
      rw [HeaderMap.getAll_append, hlines]
      exact List.append_nil values
    have hmoreCookie : more.getAll "cookie" = [hcarriable.line] := by
      rw [HeaderMap.getAll_append, hcookie]
      rfl
    have hwith := hcarriable.extractToken_line more (hmore ▸ hbearer) hmoreCookie
    have hwithout : extractToken lines (some name) = none := by
      rw [extractToken_fallback (hlines ▸ hbearer), hcookie]
      rfl
    rw [hsame more lines hmore hlines, hwithout] at hwith
    cases hwith
  · rw [AuthorizationLayer.checkRequest, AuthorizationLayer.checkRequest, hname,
      hoff.extractToken_eq h₁ h₂]

def authorizationLine (text : String) (visible : (utf8 text).all visibleByte = true) :
    String × HeaderValue := ("authorization", .fromStatic text visible)

/-- Other credentials leave the cookie in charge. -/
theorem cookie_under_basic :
    ¬ extractToken [authorizationLine "Basic dTpw" (by decide), cookieLine "jwt=s" (by decide)]
        (some "jwt") =
      extractToken [authorizationLine "Basic dTpw" (by decide)] (some "jwt") := by
  decide

end Axum
end StanoPlatform
