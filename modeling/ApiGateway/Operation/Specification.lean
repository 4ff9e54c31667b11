import ApiGateway.Http.Method
import ApiGateway.Response.MediaType

/-!
# Specifications

The description of an API: its title, its base path and its operations, each with
its parameters and the media types that it produces.

Main definitions:

- `OperationSpec.mediaType`: the media type declared for responses.
- `Specification.find?`: the first operation declared for a path and a method.
-/

namespace ApiGateway

/-- Where a parameter is found in a request. -/
inductive Location where
  | path
  | query
  | header
  | cookie
deriving DecidableEq, Repr

namespace Location

/-- The name of a location. -/
def name : Location → Bytes
  | .path => Bytes.ofString "path"
  | .query => Bytes.ofString "query"
  | .header => Bytes.ofString "header"
  | .cookie => Bytes.ofString "cookie"

/-- The location of that name. -/
def ofName? (name : Bytes) : Option Location :=
  [.path, .query, .header, .cookie].find? fun location => location.name == name

/-- Reading back a written location gives the location. -/
@[simp]
theorem ofName?_name (location : Location) : ofName? location.name = some location := by
  cases location <;> decide

end Location

/-- A declared parameter. -/
structure Parameter where
  name : Bytes
  location : Location := .query
  required : Bool := false
deriving DecidableEq, Repr

/-- A declared operation. -/
structure OperationSpec where
  path : Bytes := []
  method : Http.Method := .get
  operationId : Bytes := []
  parameters : List Parameter := []
  hasRequestBody : Bool := false
  produces : List Bytes := []
deriving DecidableEq, Repr

namespace OperationSpec

/--
The media type declared for responses: the first of the produced ones if all of them are JSON,
the only one if there is one, and JSON otherwise.
-/
def mediaType (op : OperationSpec) : Bytes :=
  match op.produces with
  | [] => MediaType.json
  | [type] => type
  | type :: _ => if op.produces.all MediaType.isJson then type else MediaType.json

end OperationSpec

/-- A described API. -/
structure Specification where
  title : Bytes := []
  basePath : Bytes := []
  operations : List OperationSpec := []
deriving DecidableEq, Repr

namespace Specification

/-- The first operation declared for that path text and method. -/
def find? (spec : Specification) (path : Bytes) (method : Http.Method) : Option OperationSpec :=
  spec.operations.find? fun op => op.path == path && op.method == method

end Specification
end ApiGateway
