import StanoPlatform.Axum.Http
import StanoPlatform.Security.Token

/-!
# `Axum/ErrorBody.lean` — what of an error goes over the wire

`into_response` guards against leaking in two places: the table of `ApiError.parts` says which
variants have details at all, and a test of the status afterwards says whether those go out. The
extraction variants bring their status with them, so neither place is enough alone.

What the client sees is the status, the headers and the serialised body. The error itself stays
in the response's extensions, which are not sent (`Response.sent`).

From `ApiError::into_response`. The body is what `serde_json` writes of an `ErrorResponse`; a field
that is `None` is left out of it, as its attribute says. Nothing is assumed of the texts.
-/

set_option autoImplicit false

namespace StanoPlatform
namespace Axum

open Security

/-- `#[derive(Serialize)]` on `ErrorResponse`: a `None` is skipped. -/
def ErrorResponse.serialize (error : ErrorResponse) : Payload :=
  [("status", .number error.status), ("code", .string error.code),
    ("message", .string error.message)] ++
  (error.details.map fun d => ("details", Json.string d)).toList ++
  (error.requestId.map fun id => ("request_id", Json.string id)).toList

inductive SentBody where
  | bytes (content : List UInt8)
  | object (members : Payload)
  deriving DecidableEq

/-- What hyper writes of a response. -/
structure Sent where
  status : Nat
  headers : HeaderMap
  body : SentBody

def Response.sent (response : Response) : Sent :=
  match response.body with
  | .bytes content => ⟨response.status, response.headers, .bytes content⟩
  | .json error =>
    { status := response.status
      -- `Json::into_response`
      headers := response.headers.insert "content-type" (.fromStatic "application/json" (by decide))
      body := .object error.serialize }

/-- A member of the JSON body, if there is one of that name. -/
def Sent.member (sent : Sent) (name : String) : Option Json :=
  match sent.body with
  | .bytes _ => none
  | .object members => members.lookup name

/-! ## What a variant says to the client -/

/-- The text a variant carries for the client. -/
def ApiError.clientText : ApiError → Option String
  | .jsonExtraction _ bodyText _ => some bodyText
  | .pathExtraction _ bodyText _ => some bodyText
  | .queryExtraction _ bodyText _ => some bodyText
  | .service (.invalidInput msg) => some msg
  | .service (.conflict msg) => some msg
  | _ => none

theorem ApiError.details_parts (error : ApiError) : error.parts.details = error.clientText := by
  cases error with
  | jsonExtraction | pathExtraction | queryExtraction | internal => rfl
  | service error => cases error <;> rfl

/-- The two guards together. -/
theorem ApiError.errorResponse_eq (error : ApiError) :
    error.errorResponse =
      { status := error.parts.status, code := error.parts.code, message := error.parts.message
        details := if isClientError error.parts.status then error.clientText else none
        requestId := none } := by
  rw [errorResponse, ← details_parts]
  generalize error.parts = parts
  obtain ⟨status, code, message, details, shouldLog⟩ := parts
  cases details with
  | none => simp [ErrorResponse.new]
  | some d =>
    by_cases hclient : isClientError status = true
    · simp [hclient, ErrorResponse.new, ErrorResponse.withDetails]
    · simp [hclient, ErrorResponse.new]

theorem ErrorResponse.lookup_status (error : ErrorResponse) :
    error.serialize.lookup "status" = some (.number error.status) := rfl

theorem ErrorResponse.lookup_details (error : ErrorResponse) :
    error.serialize.lookup "details" = error.details.map .string := by
  obtain ⟨status, code, message, details, requestId⟩ := error
  cases details <;> cases requestId <;> rfl

/-! ## Two errors a client is not to tell apart -/

/-- Two errors that differ in what is internal only: the message of an internal error, the source
of a service's, a rejection's type, and the text of a rejection that is not the client's fault. -/
inductive SameForClient : ApiError → ApiError → Prop
  | jsonExtraction {status : Nat} {text text' rejection rejection' : String}
      (h : isClientError status = true → text = text') :
      SameForClient (.jsonExtraction status text rejection)
        (.jsonExtraction status text' rejection')
  | pathExtraction {status : Nat} {text text' rejection rejection' : String}
      (h : isClientError status = true → text = text') :
      SameForClient (.pathExtraction status text rejection)
        (.pathExtraction status text' rejection')
  | queryExtraction {status : Nat} {text text' rejection rejection' : String}
      (h : isClientError status = true → text = text') :
      SameForClient (.queryExtraction status text rejection)
        (.queryExtraction status text' rejection')
  | service {error : ServiceError} : SameForClient (.service error) (.service error)
  | serviceInternal {source source' : String} :
      SameForClient (.service (.internal source)) (.service (.internal source'))
  | internal {message message' : String} : SameForClient (.internal message) (.internal message')

/-- The details are all a body takes from an error's texts. -/
theorem ApiError.errorResponse_congr {error other : ApiError}
    (hstatus : error.parts.status = other.parts.status)
    (hcode : error.parts.code = other.parts.code)
    (hmessage : error.parts.message = other.parts.message)
    (htext : isClientError error.parts.status = true → error.clientText = other.clientText) :
    error.errorResponse = other.errorResponse := by
  rw [error.errorResponse_eq, other.errorResponse_eq, ← hstatus, ← hcode, ← hmessage]
  by_cases hclient : isClientError error.parts.status = true
  · rw [htext hclient]
  · simp [hclient]

theorem SameForClient.errorResponse {error other : ApiError} (h : SameForClient error other) :
    error.errorResponse = other.errorResponse := by
  cases h with
  | jsonExtraction h | pathExtraction h | queryExtraction h =>
    exact ApiError.errorResponse_congr rfl rfl rfl fun hclient => congrArg some (h hclient)
  | service => rfl
  | serviceInternal => rfl
  | internal => rfl

/-- **An error response says one thing, and nothing internal.** The status line is the status of
the body; the details are there for a client error whose variant carries a text for the client,
and are that text; and errors that differ in what is internal only are answered alike. -/
theorem sent_intoResponse (error : ApiError) :
    error.intoResponse.sent.member "status" = some (.number error.intoResponse.sent.status) ∧
    (∀ details, error.intoResponse.sent.member "details" = some details ↔
      (400 ≤ error.intoResponse.sent.status ∧ error.intoResponse.sent.status < 500) ∧
        ∃ text, error.clientText = some text ∧ details = .string text) ∧
    ∀ other, SameForClient error other → error.intoResponse.sent = other.intoResponse.sent := by
  refine ⟨?_, fun details => ?_, fun other h => ?_⟩
  · show error.errorResponse.serialize.lookup "status" = some (.number error.parts.status)
    rw [ErrorResponse.lookup_status, error.errorResponse_eq]
  · show error.errorResponse.serialize.lookup "details" = some details ↔
      (400 ≤ error.parts.status ∧ error.parts.status < 500) ∧ _
    rw [ErrorResponse.lookup_details, error.errorResponse_eq]
    dsimp only
    -- the second guard: details go out with a status from 400 to 499 only
    by_cases hclient : isClientError error.parts.status = true
    · have hrange : 400 ≤ error.parts.status ∧ error.parts.status < 500 := by
        simpa [isClientError] using hclient
      rw [if_pos hclient, Option.map_eq_some_iff, and_iff_right hrange]
      exact exists_congr fun text => and_congr_right fun _ => eq_comm
    · have hrange : ¬ (400 ≤ error.parts.status ∧ error.parts.status < 500) := by
        simpa [isClientError] using hclient
      rw [if_neg hclient]
      simp [hrange]
  · have hsame := h.errorResponse
    have hstatus : error.parts.status = other.parts.status := by
      simpa [ApiError.errorResponse_eq] using congrArg ErrorResponse.status hsame
    rw [Response.sent, Response.sent, ApiError.intoResponse, ApiError.intoResponse]
    simp only [hstatus, hsame]

theorem sent_intoResponse_internal :
    (ApiError.jsonExtraction 500 "key missing" "JsonDataError").intoResponse.sent =
      (ApiError.jsonExtraction 500 "disk full" "BytesRejection").intoResponse.sent :=
  (sent_intoResponse _).2.2 _ (.jsonExtraction (by decide))

end Axum
end StanoPlatform
