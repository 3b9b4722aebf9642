import LumidPlatform.Crates

/-!
# Errors and responses

`ApiError` with the status and body each variant answers with. The random request
id of an internal error is an argument.
-/

namespace LumidPlatform

inductive ApiError where
  | badRequest (message : Str)
  | unauthorized (message : Str)
  | rateLimited (retryAfterS : Nat) (limit : Str)
  | notFound (message : Str)
  | validation (detail : Json)
  | forbidden (message : Str)
  | unavailable (message : Str)
  | notImplemented (message : Str)
  | internal (cause : Str)

/-- `ApiResult`. -/
abbrev ApiResult (T : Type) := Except ApiError T

namespace ApiResult

variable {S T : Type}

theorem map_eq_ok {result : ApiResult S} {f : S → T} {value : T} :
    result.map f = .ok value ↔ ∃ found, result = .ok found ∧ f found = value := by
  cases result with
  | error e => simp [Except.map]
  | ok found => simp [Except.map]

theorem bind_eq_ok {result : ApiResult S} {next : S → ApiResult T} {value : T} :
    (result >>= next) = .ok value ↔ ∃ found, result = .ok found ∧ next found = .ok value := by
  cases result with
  | error e => simp [bind, Except.bind]
  | ok found => simp [bind, Except.bind]

/-- A result that is there is that of a success. -/
theorem ok_of_toOption {result : ApiResult T} {value : T}
    (there : result.toOption = some value) : result = .ok value := by
  cases result with
  | error e => cases there
  | ok found => exact congrArg Except.ok (Option.some.inj there)

end ApiResult

/-- An HTTP response: status, headers in the order set, body. -/
structure Response where
  status : Nat
  headers : List (Str × Str)
  body : Bytes
  deriving DecidableEq

namespace Response

/-- The value of a header. -/
def header (response : Response) (name : Str) : Option Str := List.lookup name response.headers

end Response

namespace ApiError

def status : ApiError → Nat
  | badRequest _ => 400
  | unauthorized _ => 401
  | rateLimited _ _ => 429
  | notFound _ => 404
  | validation _ => 422
  | forbidden _ => 403
  | unavailable _ => 503
  | notImplemented _ => 501
  | internal _ => 500

/-- `Display`: what a client may see of the error. -/
def toText : ApiError → Str
  | badRequest m => "bad request: ".str ++ m
  | unauthorized m => "unauthorized: ".str ++ m
  | rateLimited _ _ => "rate limited".str
  | notFound m => "not found: ".str ++ m
  | validation _ => "validation failed".str
  | forbidden m => "forbidden: ".str ++ m
  | unavailable m => "service unavailable: ".str ++ m
  | notImplemented m => "not implemented on this deployment: ".str ++ m
  | internal _ => "internal error".str

/-- The JSON body an error answers with. -/
def detail (error : ApiError) (rid : Str) : Json :=
  match error with
  | rateLimited _ limit =>
    .object [("detail".str, .string ("Rate limit exceeded: ".str ++ limit))]
  | validation value => .object [("detail".str, value)]
  | internal _ =>
    .object [("detail".str, .string "internal server error".str),
      ("request_id".str, .string rid)]
  | other => .object [("detail".str, .string other.toText)]

/-- `IntoResponse`. -/
def intoResponse (crates : Crates) (rid : Str) (error : ApiError) : Response :=
  let contentType := ("content-type".str, "application/json".str)
  let extra := match error with
    | rateLimited retryAfterS limit =>
      [("Retry-After".str, Text.showNat retryAfterS), ("X-RateLimit-Limit".str, limit)]
    | internal _ => [("x-request-id".str, rid)]
    | _ => []
  ⟨error.status, contentType :: extra, crates.toVec (error.detail rid)⟩

/-- No error answers with a success status. -/
theorem status_not_success (error : ApiError) : 400 ≤ error.status := by
  cases error <;> simp [status]

end ApiError

end LumidPlatform
