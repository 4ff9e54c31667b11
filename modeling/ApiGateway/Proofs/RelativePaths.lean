import ApiGateway.Proofs.RoutingLists
import ApiGateway.Routing.RouteTable

/-!
# Relative paths behind the routing middleware

The middleware cuts a base path off the text that it matches operations against, and
extends the consumed prefix of the scope.  Whoever comes later starts from the scope and
cuts off the consumed prefix.  Both arrive at the same text, also below the mount of a
host, and also if nothing is left of it.

Main definitions:

- `RouteTable.answerAt`: what a table of manual routes answers at a path.

Main results:

- `Routing.Routed.exists_rest`: a context is found on the path without its base path.
- `Routing.middleware_keeps_to_rest`: operations, manual routes and the next endpoint work on
  the same relative path.
-/

namespace ApiGateway

variable {E : Signature}

/-- The answer of a table of manual routes to a request at a path. -/
def RouteTable.answerAt (table : RouteTable E) (request : Request) (path : Bytes) :
    Prog (Exchange E) Unit :=
  match table.lookup request.method path with
  | .found route params _ =>
    (RouteContext.serve none (route.handler ⟨request, params⟩)).bind Native.send
  | failed => (lookupProblem failed.code failed.allowed).send

/-- A table of manual routes answers at the relative path of the scope. -/
theorem RouteTable.serve_eq_answerAt (table : RouteTable E) (sc : Scope) :
    table.serve sc = table.answerAt sc.request sc.relativePath :=
  rfl

namespace Routing

/--
A context is found on the path without its base path: it is that of a listed API for the rest, or
it is empty because no API without base path has an operation for the path.
-/
theorem Routed.exists_rest {apis : List ApiRoutes} {method : Http.Method} {path : Bytes}
    {routing : Routing} (h : Routed apis method path routing) :
    ∃ rest, path = routing.apiBasePath.getD [] ++ rest ∧
      match routing.apiBasePath with
      | some base => ∃ api ∈ apis, api.basePath = base ∧ routing = api.contextAt method rest
      | none => routing = {} ∧
        ∀ api ∈ apis, api.basePath = [] → api.match? method rest = none := by
  cases h with
  | @owned api rest howner hpath =>
      rw [ApiRoutes.apiBasePath_contextAt]
      exact ⟨rest, hpath, api, howner.listed, rfl, rfl⟩
  | @root api hfree hlisted hroot hmatch =>
      rw [ApiRoutes.apiBasePath_contextAt, hroot]
      exact ⟨path, rfl, api, hlisted, hroot, rfl⟩
  | unclaimed hfree hnone => exact ⟨path, rfl, rfl, hnone⟩

/--
Behind the middleware all work on the same relative path.  With a base path in its context the
request goes on below it, with the rest of the path on which the operations of that API have been
matched; without one it goes on with the path as it was, on which no operation has matched.  The
consumed prefix remains a prefix of the path, manual routes are looked up for the same text, and
the request stays as it is.
-/
theorem middleware_keeps_to_rest (apis : List ApiRoutes) (next : Endpoint E) {sc : Scope}
    (hconsumed : sc.rootPath <+: sc.request.path) :
    ∃ inside : Scope,
      middleware apis next sc = .call (.enter inside) (fun _ => next inside) ∧
      inside.request = sc.request ∧ inside.routing = some (resolve apis sc) ∧
      inside.rootPath <+: inside.request.path ∧
      (match (resolve apis sc).apiBasePath with
        | some base =>
          inside.rootPath = sc.rootPath ++ base ∧ sc.relativePath = base ++ inside.relativePath ∧
            ∃ api ∈ apis, api.basePath = base ∧
              resolve apis sc = api.contextAt sc.request.method inside.relativePath
        | none =>
          inside.rootPath = sc.rootPath ∧ inside.relativePath = sc.relativePath ∧
            resolve apis sc = {} ∧ ∀ api ∈ apis, api.basePath = [] →
              api.match? sc.request.method inside.relativePath = none) ∧
      ∀ table : RouteTable E,
        table.serve inside = table.answerAt sc.request inside.relativePath := by
  obtain ⟨rest, hrest, hfound⟩ := (routed_resolve apis sc).exists_rest
  have hpath : sc.request.path =
      sc.rootPath ++ ((resolve apis sc).apiBasePath.getD [] ++ rest) := by
    rw [← hrest]
    exact Scope.path_eq_append_relativePath hconsumed
  have hinside : (sc.enter (resolve apis sc)).relativePath = rest := Scope.relativePath_enter hpath
  refine ⟨sc.enter (resolve apis sc), rfl, rfl, rfl, ⟨rest, ?_⟩, ?_,
    fun table => table.serve_eq_answerAt _⟩
  · rw [Scope.enter_request, hpath, Scope.enter, List.append_assoc]
  · rw [hinside]
    cases hbase : (resolve apis sc).apiBasePath with
    | some base =>
        rw [hbase] at hrest hfound
        refine ⟨?_, hrest, hfound⟩
        rw [Scope.enter, hbase, Option.getD_some]
    | none =>
        rw [hbase] at hrest hfound
        refine ⟨?_, hrest.symm, hfound⟩
        rw [Scope.enter, hbase, Option.getD_none, List.append_nil]

end Routing

/-! ## A sample -/

namespace Sample

/-- A request for `GET /h/v/w/x` below the mount `/h` of a host. -/
def hostedScope : Scope where
  request := { method := .get, target := [47, 104, 47, 118, 47, 119, 47, 120] }
  rootPath := [47, 104]

/-- The API at `/v/w` owns the request, whose manual routes are looked up for `/x`. -/
theorem hostedScope_goes_on :
    hostedScope.rootPath <+: hostedScope.request.path ∧ ∃ inside : Scope,
      Routing.middleware nestedLists (RouteTable.empty (E := Signature.empty)).serve hostedScope =
          .call (.enter inside) (fun _ => RouteTable.empty.serve inside) ∧
        inside.rootPath = [47, 104, 47, 118, 47, 119] ∧ inside.relativePath = [47, 120] ∧
        RouteTable.empty.serve inside =
          (RouteTable.empty (E := Signature.empty)).answerAt hostedScope.request [47, 120] := by
  have hconsumed : hostedScope.rootPath <+: hostedScope.request.path :=
    ⟨[47, 118, 47, 119, 47, 120], rfl⟩
  obtain ⟨inside, hrun, -, -, -, hbase, htable⟩ :=
    Routing.middleware_keeps_to_rest nestedLists (E := Signature.empty) RouteTable.empty.serve
      hconsumed
  have hresolve : Routing.resolve nestedLists hostedScope =
      { apiBasePath := some [47, 118, 47, 119] } := rfl
  rw [hresolve] at hbase
  obtain ⟨hroot, hrest, -⟩ := hbase
  have hsplit : ([47, 118, 47, 119] ++ [47, 120] : Bytes) =
      [47, 118, 47, 119] ++ inside.relativePath := hrest
  have hrelative : inside.relativePath = [47, 120] := (List.append_cancel_left hsplit).symm
  exact ⟨hconsumed, inside, hrun, hroot, hrelative, hrelative ▸ htable RouteTable.empty⟩

end Sample
end ApiGateway
