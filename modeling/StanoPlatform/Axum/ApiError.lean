/-!
# `Axum/ApiError.lean` — errors, and what a client is told of them

`ApiError` and the table behind `ApiError::into_response`: from the error to a status, a code, a
message and details. `Axum/Http.lean` makes a response of it.

From `stano-axum/src/error/api_error.rs`, `error_response.rs` and `stano-common`'s `ServiceError`.
A variant that wraps a rejection of axum keeps the status, the body text and the kind of it, which
is what the `From` instances read. The log line that goes with a rejection is left out.
-/

set_option autoImplicit false

namespace StanoPlatform
namespace Axum

/-- `stano_common::ServiceError`. An `anyhow::Error` is its text. -/
inductive ServiceError where
  | notFound
  | invalidInput (msg : String)
  | conflict (msg : String)
  | unauthorized
  | forbidden
  | internal (source : String)
  deriving DecidableEq, Repr

inductive ApiError where
  | jsonExtraction (status : Nat) (bodyText rejectionType : String)
  | pathExtraction (status : Nat) (bodyText rejectionType : String)
  | queryExtraction (status : Nat) (bodyText rejectionType : String)
  | service (error : ServiceError)
  | internal (message : String)
  deriving DecidableEq, Repr

structure ErrorResponse where
  status : Nat
  code : String
  message : String
  details : Option String
  requestId : Option String
  deriving DecidableEq, Repr

namespace ErrorResponse

def new (status : Nat) (code message : String) : ErrorResponse :=
  { status, code, message, details := none, requestId := none }

def withDetails (error : ErrorResponse) (details : String) : ErrorResponse :=
  { error with details := some details }

end ErrorResponse

/-- What `into_response` matches out of an error. -/
structure ErrorParts where
  status : Nat
  code : String
  message : String
  details : Option String
  shouldLog : Bool

def ApiError.parts : ApiError → ErrorParts
  | .jsonExtraction status bodyText _ =>
    ⟨status, "INVALID_JSON", "Failed to parse JSON request body", some bodyText, true⟩
  | .pathExtraction status bodyText _ =>
    ⟨status, "INVALID_PATH", "Invalid path parameter", some bodyText, true⟩
  | .queryExtraction status bodyText _ =>
    ⟨status, "INVALID_QUERY", "Invalid query parameter", some bodyText, true⟩
  | .service .notFound => ⟨404, "NOT_FOUND", "Resource not found", none, false⟩
  | .service (.invalidInput msg) => ⟨400, "INVALID_INPUT", "Invalid request", some msg, true⟩
  | .service (.conflict msg) => ⟨409, "CONFLICT", "Resource conflict", some msg, true⟩
  | .service .unauthorized => ⟨401, "UNAUTHORIZED", "Authentication required", none, false⟩
  | .service .forbidden => ⟨403, "FORBIDDEN", "Insufficient permissions", none, false⟩
  | .service (.internal _) => ⟨500, "INTERNAL_ERROR", "An internal error occurred", none, true⟩
  | .internal _ => ⟨500, "INTERNAL_ERROR", "An internal error occurred", none, true⟩

def isClientError (status : Nat) : Bool := 400 ≤ status && status < 500

/-- The body of the response: details go out with client errors only. -/
def ApiError.errorResponse (error : ApiError) : ErrorResponse :=
  let parts := error.parts
  let errorResponse := ErrorResponse.new parts.status parts.code parts.message
  match parts.details with
  | some d => if isClientError parts.status then errorResponse.withDetails d else errorResponse
  | none => errorResponse

end Axum
end StanoPlatform
