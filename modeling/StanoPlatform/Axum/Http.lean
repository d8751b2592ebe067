import StanoPlatform.Lib.Ascii
import StanoPlatform.Lib.HashMap
import StanoPlatform.Axum.ApiError
import StanoPlatform.Security.Jwt

/-!
# `Axum/Http.lean` — requests, responses, and the services between them

What `stano-axum` reads of a request and writes of a response. Header values are bytes, because
whether a value is text is one of the questions asked of it; the extensions are the type-keyed
map, of which one entry — the `SecurityContext` — has a type the platform knows.

A middleware is code that may answer by itself or hand a request on, as often as it likes, and go
on with the response (`Code`). A service answers a request; what reached whom on the way is part
of the `Reply`, because mediation is a statement about that and not about the response.

Code always returns. What a middleware runs that is not the platform's (a hook, the predicate of
`has_role`, a claims validator, a third-party layer) is taken not to panic and not to hang by
itself. A handler may do both, and then the code around it does (`Launcher/RequestId.lean`).

Nothing of this file is the platform's own. It has of the `http`, `tower` and `axum` crates what the
code under `stano-axum` and `stano-launcher` calls: header maps with their order and their repeated
names, `get` and `insert`, `HeaderValue::to_str`, and `middleware::from_fn`.
-/

set_option autoImplicit false

namespace StanoPlatform
namespace Axum

open Lib Security

structure Method where
  name : String
  deriving DecidableEq, Repr

namespace Method

def get : Method := ⟨"GET"⟩

def head : Method := ⟨"HEAD"⟩

def post : Method := ⟨"POST"⟩

end Method

/-- The bytes `HeaderValue` admits: tab, and everything from the space up but DEL. -/
def legalByte (b : UInt8) : Bool := b == 9 || (32 ≤ b && b != 127)

/-- The bytes `to_str` admits: tab and visible ASCII. -/
def visibleByte (b : UInt8) : Bool := b == 9 || (32 ≤ b && b < 127)

structure HeaderValue where
  bytes : List UInt8
  legal : bytes.all legalByte = true
  deriving DecidableEq

def HeaderValue.toStr (value : HeaderValue) : Option (List Char) :=
  if value.bytes.all visibleByte then some (value.bytes.map fun b => Char.ofNat b.toNat) else none

theorem legal_of_visible {bytes : List UInt8} (h : bytes.all visibleByte = true) :
    bytes.all legalByte = true := by
  rw [List.all_eq_true] at h ⊢
  intro b hb
  have hvisible := h b hb
  simp only [visibleByte, legalByte, Bool.or_eq_true, beq_iff_eq, Bool.and_eq_true,
    decide_eq_true_eq, bne_iff_ne] at hvisible ⊢
  exact hvisible.imp_right fun ⟨hle, hlt⟩ => ⟨hle, UInt8.ne_of_lt hlt⟩

/-- `HeaderValue::from_static`, which panics where the text is not visible ASCII. -/
def HeaderValue.fromStatic (text : String)
    (visible : (utf8 text).all visibleByte = true) : HeaderValue :=
  ⟨utf8 text, legal_of_visible visible⟩

/-- `http::HeaderMap`: the lines, in order, by lower-case name. -/
abbrev HeaderMap : Type := List (String × HeaderValue)

/-- `headers.get(name)`: the first line of that name. -/
def HeaderMap.get (headers : HeaderMap) (name : String) : Option HeaderValue :=
  (headers.find? (·.1 = name)).map (·.2)

/-- `headers.get_all(name)` -/
def HeaderMap.getAll (headers : HeaderMap) (name : String) : List HeaderValue :=
  (headers.filter (·.1 = name)).map (·.2)

theorem HeaderMap.get_eq_head? (headers : HeaderMap) (name : String) :
    headers.get name = (headers.getAll name).head? := by
  rw [get, getAll, List.head?_map, List.head?_filter]

theorem HeaderMap.getAll_append (headers more : HeaderMap) (name : String) :
    HeaderMap.getAll (headers ++ more) name = headers.getAll name ++ more.getAll name := by
  rw [getAll, List.filter_append, List.map_append]
  rfl

/-- `headers.insert(name, value)`, in the place of what was there -/
def HeaderMap.insert (headers : HeaderMap) (name : String) (value : HeaderValue) : HeaderMap :=
  headers.filter (·.1 ≠ name) ++ [(name, value)]

theorem HeaderMap.get_insert (headers : HeaderMap) (name : String) (value : HeaderValue)
    (other : String) :
    (headers.insert name value).get other = if other = name then some value
      else headers.get other := by
  rw [get_eq_head?, get_eq_head?, insert, getAll_append]
  by_cases hother : other = name
  · subst hother
    simp [getAll]
  · have hkept : (List.filter (fun line => decide (line.1 ≠ name)) headers).filter
        (fun line => decide (line.1 = other)) =
        headers.filter fun line => decide (line.1 = other) := by
      rw [List.filter_filter]
      refine List.filter_congr fun line _ => ?_
      by_cases hline : line.1 = other <;> simp [hline, hother]
    rw [if_neg hother, getAll, getAll, getAll, hkept]
    simp [Ne.symm hother]

/-- `http::Extensions`: the `SecurityContext<E>`, and the values of every other type by that
type's name. -/
structure Extensions (E : Type) where
  securityContext : Option (SecurityContext E)
  others : HashMap String Nat

def Extensions.insert {E : Type} (extensions : Extensions E) (context : SecurityContext E) :
    Extensions E :=
  { extensions with securityContext := some context }

structure Request (E : Type) where
  method : Method
  path : String
  headers : HeaderMap
  extensions : Extensions E
  body : List UInt8

/-- A request that carries nothing. -/
def Request.bare {E : Type} (method : Method) (path : String) : Request E :=
  { method, path, headers := [], extensions := ⟨none, ∅⟩, body := [] }

inductive Body where
  | bytes (content : List UInt8)
  -- `Json(error_response)`, with its content type
  | json (error : ErrorResponse)

/-- A response. `apiError` is the `Arc<ApiError>` its extensions may carry for the middleware. -/
structure Response where
  status : Nat
  headers : HeaderMap
  body : Body
  apiError : Option ApiError

def ApiError.intoResponse (error : ApiError) : Response :=
  { status := error.parts.status
    headers := []
    body := .json error.errorResponse
    apiError := some error }

/-! ## Services -/

variable {E : Type} {S : Type}

/-- What a request ran into on its way: a site of the stack, and the request as it got there; or
a count of the layer's failure counter. -/
inductive Event (E S : Type) where
  | reached (site : S) (req : Request E)
  | authFailure (method : Method) (status : Nat)

structure Reply (E S : Type) where
  response : Response
  events : List (Event E S)

abbrev Service (E S : Type) : Type := Request E → Reply E S

/-- A service at a site: every request that reaches it is on record. -/
def Service.at (site : S) (service : Service E S) : Service E S := fun req =>
  let reply := service req
  { reply with events := .reached site req :: reply.events }

/-- What a middleware does with a request: it comes to an end, with a response. -/
inductive Code (E S : Type) where
  | respond (response : Response)
  -- `next.run(req).await`, and on
  | next (req : Request E) (k : Response → Code E S)
  | authFailure (method : Method) (status : Nat) (k : Code E S)

def Code.run (next : Service E S) : Code E S → Reply E S
  | .respond response => ⟨response, []⟩
  | .next req k =>
    let inner := next req
    let rest := (k inner.response).run next
    { rest with events := inner.events ++ rest.events }
  | .authFailure method status k =>
    let rest := k.run next
    { rest with events := .authFailure method status :: rest.events }

/-- A `tower::Layer`, by the code it runs for each request. -/
abbrev Middleware (E S : Type) : Type := Request E → Code E S

def Middleware.layer (middleware : Middleware E S) (inner : Service E S) : Service E S :=
  fun req => (middleware req).run inner

/-! ### What reaches what -/

def Reply.Reached (reply : Reply E S) (site : S) : Prop := ∃ req, .reached site req ∈ reply.events

theorem Service.reached_at (service : Service E S) (site : S) (req : Request E) :
    (service.at site req).Reached site := ⟨req, List.mem_cons_self⟩

/-- The code hands its request on, before it answers. -/
def Code.HandsOn : Code E S → Prop
  | .respond _ => False
  | .next _ _ => True
  | .authFailure _ _ k => k.HandsOn

theorem Code.HandsOn.run {code : Code E S} (h : code.HandsOn) (next : Service E S) :
    ∃ handed, ∀ event ∈ (next handed).events, event ∈ (code.run next).events := by
  induction code with
  | respond response => exact h.elim
  | next handed k => exact ⟨handed, fun _ hmem => List.mem_append_left _ hmem⟩
  | authFailure method status k ih =>
    obtain ⟨handed, hmem⟩ := ih h
    exact ⟨handed, fun event he => List.mem_cons_of_mem _ (hmem event he)⟩

end Axum
end StanoPlatform
