import ApiGateway.Json.Value

/-!
# Problem details

A problem is the machine-readable account of a failed request: a type, a title, a
status, and optionally a detail, an instance and extension members.

Main definitions:

- `Problem.ofStatus` and its four named forms: problems without type or instance.
- `Problem.value`, `Problem.text`: the JSON form of a problem.
- `Problem.summary`: the detail, or the title where there is no detail.
-/

namespace ApiGateway

/-- The title of a common problem status, `Error` for any other. -/
def statusTitle (status : Int) : Bytes :=
  match status with
  | 400 => Bytes.ofString "Bad Request"
  | 401 => Bytes.ofString "Unauthorized"
  | 403 => Bytes.ofString "Forbidden"
  | 404 => Bytes.ofString "Not Found"
  | 405 => Bytes.ofString "Method Not Allowed"
  | 406 => Bytes.ofString "Not Acceptable"
  | 409 => Bytes.ofString "Conflict"
  | 415 => Bytes.ofString "Unsupported Media Type"
  | 422 => Bytes.ofString "Unprocessable Entity"
  | 500 => Bytes.ofString "Internal Server Error"
  | 501 => Bytes.ofString "Not Implemented"
  | 503 => Bytes.ofString "Service Unavailable"
  | _ => Bytes.ofString "Error"

/-- What is told about a failed request. -/
structure Problem where
  type : Bytes := Bytes.ofString "about:blank"
  title : Bytes := []
  status : Int := 500
  detail : Option Bytes := none
  instanceRef : Option Bytes := none
  extensions : List (Bytes × Bytes) := []
deriving DecidableEq, Repr

namespace Problem

/-- A problem with that status and title; an empty detail counts as none. -/
def make (status : Int) (title detail : Bytes) : Problem where
  status := status
  title := title
  detail := if detail.isEmpty then none else some detail

/-- A problem with that status under its common title. -/
def ofStatus (status : Int) (detail : Bytes) : Problem :=
  make status (statusTitle status) detail

/-- The request is malformed. -/
def badRequest (detail : Bytes) : Problem :=
  ofStatus 400 detail

/-- The requested resource does not exist. -/
def notFound (detail : Bytes) : Problem :=
  ofStatus 404 detail

/-- The resource exists but not for this method. -/
def methodNotAllowed (detail : Bytes) : Problem :=
  ofStatus 405 detail

/-- The gateway failed. -/
def internalServerError (detail : Bytes) : Problem :=
  ofStatus 500 detail

/-- The detail, or the title where there is no detail. -/
def summary (p : Problem) : Bytes :=
  p.detail.getD p.title

/-- Sets a string member. -/
def setText (v : Json.Value) (key : String) (text : Bytes) : Json.Value :=
  v.set (Bytes.ofString key) (Json.Value.ofText text)

/--
The JSON form: type, title and status, then detail and instance where there are any, then the
extensions.  Each member is set by its key, so an extension may replace an earlier member.
-/
def value (p : Problem) : Json.Value :=
  let standard := Json.Value.ofMembers [
    (Bytes.ofString "type", Json.Value.ofText p.type),
    (Bytes.ofString "title", Json.Value.ofText p.title),
    (Bytes.ofString "status", Json.Value.ofInt (Int64.ofInt p.status))]
  let detailed := p.detail.elim standard (setText standard "detail")
  let located := p.instanceRef.elim detailed (setText detailed "instance")
  p.extensions.foldl (fun v e => v.set e.1 (Json.Value.ofText e.2)) located

/-- The text of the JSON form. -/
def text (p : Problem) : Bytes :=
  p.value.dump

@[simp]
theorem make_status (status : Int) (title detail : Bytes) :
    (make status title detail).status = status :=
  rfl

@[simp]
theorem make_title (status : Int) (title detail : Bytes) :
    (make status title detail).title = title :=
  rfl

end Problem
end ApiGateway
