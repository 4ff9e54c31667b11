import ApiGateway.Http.Headers
import ApiGateway.Http.Method
import ApiGateway.Http.Target

/-!
# Requests and their scopes

A scope is a request together with what the gateway has found out about it so far:
the prefix of the path that mounts have consumed, and the routing context.

Main definitions:

- `Request`, `Scope`, `Routing`.
- `Scope.relativePath`: the path after the consumed prefix.
- `Scope.enter`: the scope inside a mount.
-/

namespace ApiGateway

/-- Names and values of path parameters, in the order of their capture. -/
abbrev Params := List (Bytes × Bytes)

namespace Params

/-- The first value of a name. -/
def get? (params : Params) (name : Bytes) : Option Bytes :=
  params.lookup name

end Params

/-- A request without its body. -/
structure Request where
  method : Http.Method := .unknown
  target : Bytes := []
  headers : Http.Headers := []
deriving DecidableEq, Repr

namespace Request

/-- The path of the request. -/
def path (r : Request) : Bytes :=
  Http.Target.path r.target

/-- The raw query of the request. -/
def query (r : Request) : Bytes :=
  Http.Target.query r.target

/-- The first value of a header. -/
def header? (r : Request) (name : Bytes) : Option Bytes :=
  r.headers.get? name

end Request

/-- What the routing middleware has found out about a request. -/
structure Routing where
  apiBasePath : Option Bytes := none
  operationId : Option Bytes := none
  params : Params := []
deriving DecidableEq, Repr

/-- A request with the consumed prefix of its path and its routing context. -/
structure Scope where
  request : Request
  rootPath : Bytes := []
  routing : Option Routing := none
deriving DecidableEq, Repr

namespace Scope

/-- The path after the consumed prefix; a path without that prefix is kept whole. -/
def relativePath (sc : Scope) : Bytes :=
  if sc.rootPath.isPrefixOf sc.request.path then
    sc.request.path.drop sc.rootPath.length
  else
    sc.request.path

/-- The scope with a routing context, whose base path counts as consumed. -/
def enter (sc : Scope) (routing : Routing) : Scope :=
  { sc with
    rootPath := sc.rootPath ++ routing.apiBasePath.getD []
    routing := some routing }

@[simp]
theorem enter_request (sc : Scope) (routing : Routing) :
    (sc.enter routing).request = sc.request :=
  rfl

/-- Without consumed prefix the relative path is the path. -/
theorem relativePath_of_rootPath_nil {sc : Scope} (h : sc.rootPath = []) :
    sc.relativePath = sc.request.path := by
  simp [relativePath, h]

/-- A consumed prefix is cut off. -/
theorem relativePath_of_path_eq_append {sc : Scope} {rest : Bytes}
    (h : sc.request.path = sc.rootPath ++ rest) : sc.relativePath = rest := by
  simp [relativePath, h]

/-- A path that starts with the consumed prefix goes on with the relative path. -/
theorem path_eq_append_relativePath {sc : Scope} (h : sc.rootPath <+: sc.request.path) :
    sc.request.path = sc.rootPath ++ sc.relativePath := by
  rcases h with ⟨rest, hpath⟩
  rw [relativePath_of_path_eq_append hpath.symm, hpath]

/-- Inside a mount the base path is cut off as well. -/
theorem relativePath_enter {sc : Scope} {routing : Routing} {rest : Bytes}
    (h : sc.request.path = sc.rootPath ++ (routing.apiBasePath.getD [] ++ rest)) :
    (sc.enter routing).relativePath = rest := by
  apply relativePath_of_path_eq_append
  rw [enter_request, h, enter, List.append_assoc]

end Scope
end ApiGateway
