import ApiGateway.Proofs.Dispatch
import ApiGateway.Proofs.Handling
import ApiGateway.Proofs.RoutingRule

/-!
# Applications follow the routing rule

The middleware attaches the routing context of the destination that the rule names.
From there two dispatchers lead to the destination, because registration has kept
their tables in step with the routing lists.  The description covers the watched
application as well, so it also tells which handlers are called in a run.

Main definitions:

- `App.Consults`: the dispatchers that see a request.
- `App.ServesBy`: a run in which the handler of a destination is called.

Main results:

- `App.dispatch_operation`, `App.dispatch_routes`, `App.dispatch_own_routes`: what a routing
  context leads to.
- `App.follows_rule`: in every run the handler that the rule names is called, and no other.
-/

namespace ApiGateway

variable {E : Signature} {σ : Type}

/-! ## Dispatching by a routing context -/

namespace App

variable {app : App E}

/-- A mounted API is found by its base path. -/
theorem find?_subApps (hdistinct : (app.apis.map Api.basePath).Nodup) {api : Api E}
    (hapi : api ∈ app.apis) :
    app.subApps.find? api.basePath = some (api.serve app.observed) := by
  refine Registry.find?_ofList_of_nodup ?_ (List.mem_map_of_mem hapi)
  rw [List.map_map]
  exact hdistinct

/-- A request of a mounted API is delegated to it. -/
theorem delegates (hdistinct : (app.apis.map Api.basePath).Nodup) {api : Api E}
    (hapi : api ∈ app.apis) {routing : Routing} (hbase : routing.apiBasePath = some api.basePath) :
    app.dispatcher.Delegates routing api.basePath (api.serve app.observed) :=
  ⟨hbase, fun hown => (nomatch hown), find?_subApps hdistinct hapi⟩

/-- A request without base path is delegated to no API. -/
theorem not_delegates {routing : Routing} (hbase : routing.apiBasePath = none) :
    ∀ base subApp, ¬app.dispatcher.Delegates routing base subApp := by
  rintro base subApp ⟨hsome, -, -⟩
  rw [hbase] at hsome
  cases hsome

end App

/-- An API keeps its own requests. -/
theorem Api.not_delegates (api : Api E) (observed : Bool) (routing : Routing) :
    ∀ base subApp, ¬(api.dispatcher observed).Delegates routing base subApp := by
  rintro base subApp ⟨-, -, hfind⟩
  cases hfind

namespace App

variable {app : App E}

/-- The context of a registered operation leads to its invoker. -/
theorem dispatch_operation (hdistinct : (app.apis.map Api.basePath).Nodup) {api : Api E}
    (hapi : api ∈ app.apis) {id : Bytes} {inv : Invoker E}
    (hfind : api.operations.find? id = some inv) (params : Params) (sc : Scope) :
    let inside := sc.enter { apiBasePath := some api.basePath, operationId := some id, params }
    app.dispatch inside =
      (inv.invoke inside).bind (Dispatcher.respond app.observed inv.mediaType) := by
  intro inside
  have hdelegated : app.dispatch inside = api.serve app.observed inside :=
    Dispatcher.serve_of_delegates rfl (delegates hdistinct hapi rfl)
  rw [hdelegated]
  exact Dispatcher.serve_of_operation (d := api.dispatcher app.observed) rfl
    (api.not_delegates _ _) rfl hfind

/-- The context of an API without operation leads to its manual routes. -/
theorem dispatch_routes (hdistinct : (app.apis.map Api.basePath).Nodup) {api : Api E}
    (hapi : api ∈ app.apis) (sc : Scope) :
    let inside := sc.enter { apiBasePath := some api.basePath }
    app.dispatch inside = api.routes.serve inside := by
  intro inside
  have hdelegated : app.dispatch inside = api.serve app.observed inside :=
    Dispatcher.serve_of_delegates rfl (delegates hdistinct hapi rfl)
  rw [hdelegated]
  exact Dispatcher.serve_of_no_operation (d := api.dispatcher app.observed) rfl
    (api.not_delegates _ _) rfl

/-- The empty context leads to the manual routes of the application. -/
theorem dispatch_own_routes (app : App E) (sc : Scope) :
    app.dispatch (sc.enter {}) = app.routes.serve (sc.enter {}) :=
  Dispatcher.serve_of_no_operation rfl (not_delegates rfl) rfl

/-! ## Watched dispatching -/

/-- The base paths of a watched application differ as well. -/
theorem nodup_basePaths_watched (hdistinct : (app.apis.map Api.basePath).Nodup) :
    (app.watched.apis.map Api.basePath).Nodup := by
  rw [basePaths_watched]
  exact hdistinct

/-- The context of a registered operation leads to its announcing invoker. -/
theorem dispatch_watched_operation (hdistinct : (app.apis.map Api.basePath).Nodup) {api : Api E}
    (hapi : api ∈ app.apis) {id : Bytes} {inv : Invoker E}
    (hfind : api.operations.find? id = some inv) (params : Params) (sc : Scope) :
    let inside := sc.enter { apiBasePath := some api.basePath, operationId := some id, params }
    app.watched.dispatch inside =
      ((inv.announcing (.operation api.basePath id)).invoke inside).bind
        (Dispatcher.respond app.observed inv.mediaType) := by
  have hwatched : api.watched.operations.find? id =
      some (inv.announcing (.operation api.basePath id)) := by
    refine (Registry.find?_map _ _ id).trans ?_
    rw [hfind]
    rfl
  exact dispatch_operation (nodup_basePaths_watched hdistinct) (List.mem_map_of_mem hapi)
    hwatched params sc

/-- The context of an API without operation leads to its announcing manual routes. -/
theorem dispatch_watched_routes (hdistinct : (app.apis.map Api.basePath).Nodup) {api : Api E}
    (hapi : api ∈ app.apis) (sc : Scope) :
    let inside := sc.enter { apiBasePath := some api.basePath }
    app.watched.dispatch inside =
      (api.routes.announcing (Handling.ofRoute (some api.basePath))).serve inside :=
  dispatch_routes (nodup_basePaths_watched hdistinct) (List.mem_map_of_mem hapi) sc

/-- The empty context leads to the announcing manual routes of the application. -/
theorem dispatch_watched_own_routes (app : App E) (sc : Scope) :
    app.watched.dispatch (sc.enter {}) =
      (app.routes.announcing (Handling.ofRoute none)).serve (sc.enter {}) :=
  dispatch_own_routes app.watched sc

/-- The application renders errors around the dispatch of the resolved request. -/
theorem serve_of_resolve {sc : Scope} {routing : Routing}
    (h : Routing.resolve (app.apis.map Api.routing) sc = routing) :
    app.serve sc =
      Rendering.guarded false (.call (.enter (sc.enter routing)) fun _ =>
        app.dispatch (sc.enter routing)) := by
  rw [← h]
  rfl

/-- The watched application resolves requests as the application does. -/
theorem resolve_watched {sc : Scope} {routing : Routing}
    (h : Routing.resolve (app.apis.map Api.routing) sc = routing) :
    Routing.resolve (app.watched.apis.map Api.routing) sc = routing := by
  rw [routing_watched]
  exact h

/-- Erasing announcements under error rendering and routing. -/
theorem unwatch_serve_of_resolve {sc : Scope} {routing : Routing}
    (h : Routing.resolve (app.apis.map Api.routing) sc = routing)
    (hdispatch : (app.watched.dispatch (sc.enter routing)).unwatch =
      app.dispatch (sc.enter routing)) :
    (app.watched.serve sc).unwatch = app.serve sc := by
  rw [serve_of_resolve (resolve_watched h), serve_of_resolve h, Rendering.unwatch_guarded,
    ← hdispatch]
  rfl

/-- The calls of a run are those of the dispatch. -/
theorem callees_serve_of_resolve {sc : Scope} {routing : Routing}
    (h : Routing.resolve (app.apis.map Api.routing) sc = routing)
    (host : Host (Exchange (Watched Handling E)) σ) (s : σ) :
    Event.callees ((app.watched.serve sc).transcript host s) =
      Event.callees ((app.watched.dispatch (sc.enter routing)).transcript host
        (host.answer (.enter (sc.enter routing)) s).2) := by
  rw [serve_of_resolve (resolve_watched h), Rendering.callees_guarded]
  rfl

/-! ## Destinations -/

/--
A request is served at a destination.  Inside its routing context the program is that of the
invoker registered under the id, with the handler of the destination, or that of its table of
manual routes.  The handlers called in the run are this one, unless binding or reading the body
fails, or the one of the route that the table finds, if it finds one.
-/
def ServesBy (app : App E) (record : Bytes → List OperationSpec) (sc : Scope)
    (host : Host (Exchange (Watched Handling E)) σ) (s : σ) (dest : Destination E) : Prop :=
  let inside := sc.enter dest.routing
  let entered := (host.answer (.enter inside) s).2
  let calls := Event.callees ((app.watched.serve sc).transcript host s)
  match dest with
  | .operation base id _ handler =>
    ∃ api ∈ app.apis, api.basePath = base ∧ ∃ op ∈ record base, op.operationId = id ∧
      let inv := api.invokerFor op handler
      api.operations.find? id = some inv ∧
        app.serve sc = Rendering.guarded false (.call (.enter inside) fun _ =>
          (inv.invoke inside).bind (Dispatcher.respond app.observed inv.mediaType)) ∧
        calls =
          match ((inv.arguments inside).watch.run host entered).outcome with
          | .ok args => [.operation base id args]
          | .error _ => []
  | .routes base table =>
    app.serve sc =
        Rendering.guarded false (.call (.enter inside) fun _ => table.serve inside) ∧
      calls =
        match table.lookup sc.request.method inside.relativePath with
        | .found route params _ => [.ofRoute base route params]
        | _ => []

namespace InStep

variable {record : Bytes → List OperationSpec}

/-- Under the id of a registered operation an invoker with its handler is found. -/
theorem find_handler (h : app.InStep record) {api : Api E} (hapi : api ∈ app.apis)
    {op : OperationSpec} (hop : op ∈ record api.basePath) {handler : OperationHandler E}
    {log : List LogEntry} (hhandler : api.handlerFor op = .ok (handler, log)) :
    ∃ last ∈ record api.basePath, last.operationId = op.operationId ∧
      api.operations.find? op.operationId = some (api.invokerFor last handler) := by
  -- The id may have been registered several times: the last invoker stands in the table, and it
  -- has the same handler because that depends on the id alone.
  rcases (h.each api hapi).exists_last hop with
    ⟨before, last, after, found, log', hsplit, hid, -, hlast, hfind⟩
  have hmem : last ∈ record api.basePath := by
    rw [hsplit]
    exact List.mem_append_right before List.mem_cons_self
  rw [api.handlerFor_congr hid, hhandler] at hlast
  cases hlast
  exact ⟨last, hmem, hid, hfind⟩

/-- The watched application differs from the application only by announcements. -/
theorem unwatch_serve (h : app.InStep record) {sc : Scope} {dest : Destination E}
    (hoffers : app.Offers record dest)
    (hresolve : Routing.resolve (app.apis.map Api.routing) sc = dest.routing) :
    (app.watched.serve sc).unwatch = app.serve sc := by
  apply unwatch_serve_of_resolve hresolve
  cases dest with
  | operation base id params handler =>
      rcases hoffers with ⟨api, hapi, rfl, op, hop, rfl, log, hhandler⟩
      rcases h.find_handler hapi hop hhandler with ⟨last, -, -, hfind⟩
      rw [Destination.routing, dispatch_operation h.distinct hapi hfind,
        dispatch_watched_operation h.distinct hapi hfind]
      exact Invoker.unwatch_respond_announcing _ _ _ _ _
  | routes base table =>
      cases base with
      | none =>
          obtain rfl : table = app.routes := hoffers
          rw [Destination.routing, dispatch_watched_own_routes, dispatch_own_routes]
          exact RouteTable.unwatch_serve_announcing _ _ _
      | some base =>
          rcases hoffers with ⟨api, hapi, rfl, rfl⟩
          rw [Destination.routing, dispatch_routes h.distinct hapi,
            dispatch_watched_routes h.distinct hapi]
          exact RouteTable.unwatch_serve_announcing _ _ _

/-- A request is served at the destination to which it is routed. -/
theorem servesBy (h : app.InStep record) {sc : Scope} {dest : Destination E}
    (hoffers : app.Offers record dest)
    (hresolve : Routing.resolve (app.apis.map Api.routing) sc = dest.routing)
    (host : Host (Exchange (Watched Handling E)) σ) (s : σ) :
    app.ServesBy record sc host s dest := by
  unfold ServesBy
  dsimp only
  rw [serve_of_resolve hresolve, callees_serve_of_resolve hresolve]
  cases dest with
  | operation base id params handler =>
      rcases hoffers with ⟨api, hapi, rfl, op, hop, rfl, log, hhandler⟩
      rcases h.find_handler hapi hop hhandler with ⟨last, hlast, hid, hfind⟩
      refine ⟨api, hapi, rfl, last, hlast, hid, hfind, ?_, ?_⟩
      · rw [Destination.routing, dispatch_operation h.distinct hapi hfind]
      · rw [Destination.routing, dispatch_watched_operation h.distinct hapi hfind]
        exact Invoker.callees_respond_announcing _ _ _ _ _ host _
  | routes base table =>
      cases base with
      | none =>
          obtain rfl : table = app.routes := hoffers
          constructor
          · rw [Destination.routing, dispatch_own_routes]
          · rw [Destination.routing, dispatch_watched_own_routes]
            exact RouteTable.callees_serve_announcing _ _ _ host _
      | some base =>
          rcases hoffers with ⟨api, hapi, rfl, rfl⟩
          constructor
          · rw [Destination.routing, dispatch_routes h.distinct hapi]
          · rw [Destination.routing, dispatch_watched_routes h.distinct hapi]
            exact RouteTable.callees_serve_announcing _ _ _ host _

end InStep

end App

/-! ## A sample -/

namespace Sample

/-- One operation, `GET /a` with the id `a`, under the base path `/v`. -/
def spec : Specification where
  basePath := [47, 118]
  operations := [{ path := [47, 97], method := .get, operationId := [97] }]

/-- The API of that specification, with a stub for its operation. -/
def api : Api Signature.empty :=
  (Api.create spec Registry.empty { basePath := some [47, 118], stubStatus := some 501 }).value

/-- An application with that API. -/
def app : App Signature.empty :=
  (({} : App Signature.empty).addApi spec Registry.empty { stubStatus := some 501 }).value

/-- What has been registered. -/
def record : Bytes → List OperationSpec :=
  Function.update (fun _ => []) [47, 118] spec.declared

/-- A request for `/v/a`. -/
def scope : Scope :=
  { request := { method := .get, target := [47, 118, 47, 97] } }

/-- A host that accepts every message and delivers an empty body. -/
def host : Host (Exchange (Watched Handling Signature.empty)) Unit where
  answer op s :=
    match op with
    | .send _ => (.ok (), s)
    | .receiveBody => (.ok [], s)
    | .log _ => ((), s)
    | .observe _ => (.ok (), s)
    | .readFile _ => (none, s)
    | .enter _ => ((), s)
    | .effect (.announce _) => ((), s)

end Sample
end ApiGateway
