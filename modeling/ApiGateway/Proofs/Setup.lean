import Mathlib.Data.List.DropRight
import ApiGateway.Gateway.App

/-!
# Setting up APIs

Registration writes every operation into two places, the routing list of its API and
the table by operation id.  Each registration preserves that both places tell the same
as the list of what has been registered.

Main definitions:

- `Api.invoker?`: what is registered for an operation.
- `Api.InStep`: the tables agree with the operations that have been registered.
- `Api.Ready`: whatever is declared can be registered.

Main results:

- `Api.addOperation_cases`: what a registration does.
- `Api.addOperations_preserves`: what a registration preserves is preserved by several.
- `Api.inStep_addOperation`, `Api.inStep_create`: registering and setting up keep the tables in
  step.
- `Api.ready_create`: after a successful setup everything declared can be registered again.
- `Api.InStep.exists_last`: an id belongs to the operation registered last under it.
-/

namespace ApiGateway

variable {E : Signature}

/-! ## Base paths -/

/-- A normalized base path is not changed by normalizing it again. -/
@[simp]
theorem normalizeBasePath_idem (path : Bytes) :
    normalizeBasePath (normalizeBasePath path) = normalizeBasePath path := by
  simp only [normalizeBasePath, Bytes.trimEnd, List.reverse_reverse, List.dropWhile_idempotent]

/-- A normalized base path does not end with a slash. -/
theorem getLast?_normalizeBasePath (path : Bytes) :
    (normalizeBasePath path).getLast? ≠ some 47 := by
  have hkept := List.head?_dropWhile_not (· == 47) path.reverse
  rw [normalizeBasePath, Bytes.trimEnd, List.getLast?_reverse]
  intro hlast
  rw [hlast] at hkept
  cases hkept

/-! ## Operations of one API -/

/-- The entry of an operation in a routing list, if its template is well formed. -/
def OperationSpec.route? (op : OperationSpec) : Option OperationRoute :=
  (Routing.Pattern.parse op.path).toOption.map fun pattern => ⟨op.method, pattern, op.operationId⟩

namespace Specification

/-- The operations that setting up an API registers, in order. -/
def declared (spec : Specification) : List OperationSpec :=
  spec.operations.filterMap fun op => spec.find? op.path op.method

variable {spec : Specification} {op : OperationSpec}

/-- What is found is declared. -/
theorem mem_of_find? {path : Bytes} {method : Http.Method} (h : spec.find? path method = some op) :
    op ∈ spec.operations :=
  List.mem_of_find?_eq_some h

/-- What is found has the path and the method. -/
theorem path_method_of_find? {path : Bytes} {method : Http.Method}
    (h : spec.find? path method = some op) : op.path = path ∧ op.method = method := by
  simpa using List.find?_some (p := fun other : OperationSpec =>
    other.path == path && other.method == method) h

end Specification

namespace Api

/-- The invoker registered for an operation, if the operation has a handler or a stub. -/
def invoker? (api : Api E) (op : OperationSpec) : Option (Invoker E) :=
  (api.handlerFor op).toOption.map fun found => api.invokerFor op found.1

/-- The tables of an API agree with the operations that have been registered, in order. -/
structure InStep (api : Api E) (registered : List OperationSpec) : Prop where
  routing_base : api.routing.basePath = api.basePath
  /-- The routing list has the registered operations in their order. -/
  routing_operations : api.routing.operations = registered.filterMap OperationSpec.route?
  /-- Every registered operation has a handler or a stub. -/
  resolved : ∀ op ∈ registered, (api.invoker? op).isSome
  /-- Under an id the operation registered last is found. -/
  find_operation : ∀ id, api.operations.find? id =
    (registered.reverse.find? fun op => op.operationId == id).bind api.invoker?

/-- An API without operations is in step. -/
theorem inStep_blank (spec : Specification) (handlers : Resolver E) (options : ApiOptions) :
    (blank spec handlers options).InStep [] where
  routing_base := rfl
  routing_operations := rfl
  resolved := by simp
  find_operation := fun _ => rfl

/--
A registration fails before it changes anything, or it registers the invoker of an operation, and
then adds the operation to the routing list or fails on its template.
-/
theorem addOperation_cases (api : Api E) (path : Bytes) (method : Http.Method) :
    ((api.addOperation path method).value = api ∧
        (api.addOperation path method).failure ≠ none) ∨
      ∃ op handler log, api.spec.find? path method = some op ∧
        api.handlerFor op = .ok (handler, log) ∧
        let operations := api.operations.insert op.operationId (api.invokerFor op handler)
        ((api.addOperation path method).value = { api with operations := operations } ∧
            (api.addOperation path method).failure ≠ none) ∨
          ∃ pattern, Routing.Pattern.parse op.path = .ok pattern ∧
            (api.addOperation path method).value =
              { api with
                operations := operations
                routing := { api.routing with
                  operations := api.routing.operations ++
                    [⟨op.method, pattern, op.operationId⟩] } } := by
  unfold addOperation
  cases hfind : api.spec.find? path method with
  | none => exact .inl ⟨rfl, nofun⟩
  | some op =>
      dsimp only
      by_cases hid : op.operationId.isEmpty
      · rw [if_pos hid]
        exact .inl ⟨rfl, nofun⟩
      · rw [if_neg hid]
        cases hhandler : api.handlerFor op with
        | error e => exact .inl ⟨rfl, nofun⟩
        | ok found =>
            rcases found with ⟨handler, log⟩
            refine .inr ⟨op, handler, log, rfl, hhandler, ?_⟩
            cases hpattern : Routing.Pattern.parse op.path with
            | error e =>
                rw [ApiRoutes.add, hpattern]
                exact .inl ⟨rfl, nofun⟩
            | ok pattern =>
                rw [ApiRoutes.add, hpattern]
                exact .inr ⟨pattern, rfl, rfl⟩

/-- A successful registration has found an operation, a handler or a stub, and a template. -/
theorem addOperation_inversion {api : Api E} {path : Bytes} {method : Http.Method}
    (h : (api.addOperation path method).failure = none) :
    ∃ op handler log pattern, api.spec.find? path method = some op ∧
      api.handlerFor op = .ok (handler, log) ∧ Routing.Pattern.parse op.path = .ok pattern ∧
      (api.addOperation path method).value =
        { api with
          operations := api.operations.insert op.operationId (api.invokerFor op handler)
          routing := { api.routing with
            operations := api.routing.operations ++ [⟨op.method, pattern, op.operationId⟩] } } := by
  rcases addOperation_cases api path method with
    ⟨-, hfailed⟩ | ⟨op, handler, log, hfind, hhandler, ⟨-, hfailed⟩ | ⟨pattern, hpattern, hvalue⟩⟩
  · exact absurd h hfailed
  · exact absurd h hfailed
  · exact ⟨op, handler, log, pattern, hfind, hhandler, hpattern, hvalue⟩

/-- A successful registration keeps the tables in step. -/
theorem inStep_addOperation {api : Api E} {registered : List OperationSpec} {path : Bytes}
    {method : Http.Method} {op : OperationSpec} (h : api.InStep registered)
    (hok : (api.addOperation path method).failure = none)
    (hop : api.spec.find? path method = some op) :
    (api.addOperation path method).value.InStep (registered ++ [op]) := by
  obtain ⟨found, handler, log, pattern, hfind, hhandler, hpattern, hvalue⟩ :=
    addOperation_inversion hok
  obtain rfl : found = op := Option.some.inj (hfind.symm.trans hop)
  have hinvoker : api.invoker? found = some (api.invokerFor found handler) := by
    rw [invoker?, hhandler]
    rfl
  have hroute : found.route? = some ⟨found.method, pattern, found.operationId⟩ := by
    rw [OperationSpec.route?, hpattern]
    rfl
  rw [hvalue]
  refine ⟨h.routing_base, ?_, ?_, ?_⟩
  · rw [List.filterMap_append, ← h.routing_operations, List.filterMap_cons_some hroute,
      List.filterMap_nil]
  · intro other hmem
    rcases List.mem_append.1 hmem with hold | hnew
    · exact h.resolved other hold
    · rw [List.mem_singleton.1 hnew]
      exact Option.isSome_iff_exists.2 ⟨_, hinvoker⟩
  · intro id
    rw [Registry.find?_insert, h.find_operation, List.reverse_append, List.reverse_singleton,
      List.singleton_append, List.find?_cons]
    by_cases hid : id = found.operationId
    · rw [if_pos hid, hid, beq_self_eq_true]
      exact hinvoker.symm
    · rw [if_neg hid, beq_false_of_ne (Ne.symm hid)]
      rfl

/-- Under the id of a registered operation the invoker of the last one with that id is found. -/
theorem InStep.exists_last {api : Api E} {registered : List OperationSpec}
    (h : api.InStep registered) {op : OperationSpec} (hop : op ∈ registered) :
    ∃ before last after handler log, registered = before ++ last :: after ∧
      last.operationId = op.operationId ∧
      (∀ other ∈ after, other.operationId ≠ op.operationId) ∧
      api.handlerFor last = .ok (handler, log) ∧
      api.operations.find? op.operationId = some (api.invokerFor last handler) := by
  have hfind := h.find_operation op.operationId
  cases hlast : registered.reverse.find? fun other => other.operationId == op.operationId with
  | none =>
      have hne := List.find?_eq_none.1 hlast op (List.mem_reverse.2 hop)
      exact absurd (beq_self_eq_true _) hne
  | some last =>
      obtain ⟨hid, after, before, hsplit, hafter⟩ := List.find?_eq_some_iff_append.1 hlast
      have hregistered : registered = before.reverse ++ last :: after.reverse := by
        rw [← List.reverse_reverse registered, hsplit]
        simp
      have hmem : last ∈ registered := by
        rw [hregistered]
        exact List.mem_append_right _ List.mem_cons_self
      rcases Option.isSome_iff_exists.1 (h.resolved last hmem) with ⟨inv, hinv⟩
      rw [hlast, Option.bind_some, hinv] at hfind
      unfold invoker? at hinv
      cases hhandler : api.handlerFor last with
      | error e =>
          rw [hhandler] at hinv
          cases hinv
      | ok found =>
          rw [hhandler] at hinv
          cases hinv
          refine ⟨before.reverse, last, after.reverse, found.1, found.2, hregistered,
            beq_iff_eq.1 hid, ?_, hhandler, hfind⟩
          intro other hother
          simpa using hafter other (List.mem_reverse.1 hother)

/-- What the routing list leads to has an invoker, with the handler of its id. -/
theorem InStep.exists_invoker {api : Api E} {registered : List OperationSpec}
    (h : api.InStep registered) {route : OperationRoute} (hroute : route ∈ api.routing.operations) :
    ∃ op handler log, op.operationId = route.operationId ∧
      api.handlerFor op = .ok (handler, log) ∧
      api.operations.find? route.operationId = some (api.invokerFor op handler) := by
  rw [h.routing_operations] at hroute
  rcases List.mem_filterMap.1 hroute with ⟨op, hop, hentry⟩
  obtain ⟨pattern, -, rfl⟩ := Option.map_eq_some_iff.1 hentry
  rcases h.exists_last hop with ⟨-, last, -, handler, log, -, hid, -, hhandler, hfind⟩
  exact ⟨last, handler, log, hid, hhandler, hfind⟩

/-- A registration changes nothing that the API has been set up with. -/
theorem addOperation_frame (api : Api E) (path : Bytes) (method : Http.Method) :
    (api.addOperation path method).value.spec = api.spec ∧
      (api.addOperation path method).value.handlers = api.handlers ∧
      (api.addOperation path method).value.options = api.options ∧
      (api.addOperation path method).value.basePath = api.basePath := by
  rcases addOperation_cases api path method with
    ⟨hvalue, -⟩ | ⟨op, handler, log, -, -, ⟨hvalue, -⟩ | ⟨pattern, -, hvalue⟩⟩
  all_goals
    rw [hvalue]
    exact ⟨rfl, rfl, rfl, rfl⟩

/-- What registering an operation preserves is preserved by registering several in order. -/
theorem addOperations_preserves {P : Api E → Prop}
    (hoperation : ∀ api path method, P api → P (api.addOperation path method).value) {api : Api E}
    (h : P api) (ops : List OperationSpec) : P (api.addOperations ops).value := by
  induction ops generalizing api with
  | nil => exact h
  | cons op rest ih =>
      have hfirst := hoperation api op.path op.method h
      rw [addOperations]
      cases hfailure : (api.addOperation op.path op.method).failure with
      | some e => simpa only [hfailure] using hfirst
      | none => simpa only [hfailure] using ih hfirst

/-- Setting up an API registers all operations, and adds nothing to that but a log entry. -/
theorem create_eq (spec : Specification) (handlers : Resolver E) (options : ApiOptions) :
    (create spec handlers options).value =
        ((blank spec handlers options).addOperations spec.operations).value ∧
      (create spec handlers options).failure =
        ((blank spec handlers options).addOperations spec.operations).failure := by
  unfold create
  cases hfailure : ((blank spec handlers options).addOperations spec.operations).failure with
  | some e => simp only [hfailure, and_self]
  | none => simp only [hfailure, and_self]

/-- Setting up an API keeps what it has been given. -/
theorem create_frame (spec : Specification) (handlers : Resolver E) (options : ApiOptions) :
    (create spec handlers options).value.spec = spec ∧
      (create spec handlers options).value.handlers = handlers ∧
      (create spec handlers options).value.options = options ∧
      (create spec handlers options).value.basePath = options.basePathFor spec := by
  rw [(create_eq spec handlers options).1]
  refine addOperations_preserves (P := fun api => api.spec = spec ∧ api.handlers = handlers ∧
    api.options = options ∧ api.basePath = options.basePathFor spec) ?_ ⟨rfl, rfl, rfl, rfl⟩ _
  rintro api path method ⟨hspec, hhandlers, hoptions, hbase⟩
  rcases addOperation_frame api path method with ⟨hspec', hhandlers', hoptions', hbase'⟩
  exact ⟨hspec'.trans hspec, hhandlers'.trans hhandlers, hoptions'.trans hoptions,
    hbase'.trans hbase⟩

/-- Registering operations in order keeps the tables in step. -/
theorem inStep_addOperations {api : Api E} {registered ops : List OperationSpec}
    (h : api.InStep registered) (hok : (api.addOperations ops).failure = none) :
    (api.addOperations ops).value.InStep
      (registered ++ ops.filterMap fun op => api.spec.find? op.path op.method) := by
  induction ops generalizing api registered with
  | nil =>
      rw [List.filterMap_nil, List.append_nil]
      exact h
  | cons op rest ih =>
      cases hfirst : (api.addOperation op.path op.method).failure with
      | some e =>
          simp only [addOperations, hfirst] at hok
          cases hok
      | none =>
          rcases addOperation_inversion hfirst with ⟨found, -, -, -, hfind, -, -, -⟩
          simp only [addOperations, hfirst] at hok ⊢
          have hstep := ih (inStep_addOperation h hfirst hfind) hok
          rw [(addOperation_frame api op.path op.method).1, List.append_assoc,
            List.singleton_append, ← List.filterMap_cons_some (l := rest)
              (f := fun op => api.spec.find? op.path op.method) hfind] at hstep
          exact hstep

/-- A successful setup registers what the specification declares. -/
theorem inStep_create {spec : Specification} {handlers : Resolver E} {options : ApiOptions}
    (hok : (create spec handlers options).failure = none) :
    (create spec handlers options).value.InStep spec.declared := by
  rw [(create_eq spec handlers options).2] at hok
  rw [(create_eq spec handlers options).1]
  exact inStep_addOperations (inStep_blank spec handlers options) hok

/-! ## Operations that can be registered -/

/-- Whether a registration succeeds depends only on what the API has been set up with. -/
theorem failure_addOperation_congr {api api' : Api E} (hspec : api'.spec = api.spec)
    (hhandlers : api'.handlers = api.handlers) (hoptions : api'.options = api.options)
    (path : Bytes) (method : Http.Method) :
    (api'.addOperation path method).failure = (api.addOperation path method).failure := by
  have hhandler (op : OperationSpec) : api'.handlerFor op = api.handlerFor op := by
    simp only [handlerFor, hhandlers, hoptions]
  unfold addOperation
  rw [hspec]
  cases api.spec.find? path method with
  | none => rfl
  | some op =>
      dsimp only
      split
      · rfl
      · rw [hhandler]
        cases api.handlerFor op with
        | error e => rfl
        | ok found =>
            cases hpattern : Routing.Pattern.parse op.path with
            | error e => simp only [ApiRoutes.add, hpattern]
            | ok pattern => simp only [ApiRoutes.add, hpattern]

/-- Whatever the specification of an API declares can be registered. -/
def Ready (api : Api E) : Prop :=
  ∀ path method op, api.spec.find? path method = some op →
    (api.addOperation path method).failure = none

/-- An API that has been set up with the same stays ready. -/
theorem Ready.congr {api api' : Api E} (h : api.Ready) (hspec : api'.spec = api.spec)
    (hhandlers : api'.handlers = api.handlers) (hoptions : api'.options = api.options) :
    api'.Ready := by
  intro path method op hfind
  rw [failure_addOperation_congr hspec hhandlers hoptions]
  rw [hspec] at hfind
  exact h path method op hfind

/-- If several registrations succeed in order, each of them succeeds from the beginning. -/
theorem failure_addOperation_of_addOperations {api : Api E} {ops : List OperationSpec}
    (hok : (api.addOperations ops).failure = none) :
    ∀ op ∈ ops, (api.addOperation op.path op.method).failure = none := by
  induction ops generalizing api with
  | nil => exact fun _ hmem => nomatch hmem
  | cons op rest ih =>
      cases hfirst : (api.addOperation op.path op.method).failure with
      | some e =>
          simp only [addOperations, hfirst] at hok
          cases hok
      | none =>
          simp only [addOperations, hfirst] at hok
          rcases addOperation_frame api op.path op.method with ⟨hspec, hhandlers, hoptions, -⟩
          intro other hmem
          rcases List.mem_cons.1 hmem with rfl | hmem
          · exact hfirst
          · rw [← failure_addOperation_congr hspec hhandlers hoptions]
            exact ih hok other hmem

/-- After a successful setup everything declared can be registered once more. -/
theorem ready_create {spec : Specification} {handlers : Resolver E} {options : ApiOptions}
    (hok : (create spec handlers options).failure = none) :
    (create spec handlers options).value.Ready := by
  rcases create_frame spec handlers options with ⟨hspec, hhandlers, hoptions, -⟩
  have hblank : (blank spec handlers options).Ready := by
    intro path method op hfind
    rcases Specification.path_method_of_find? hfind with ⟨rfl, rfl⟩
    exact failure_addOperation_of_addOperations ((create_eq spec handlers options).2.symm.trans hok)
      op (Specification.mem_of_find? hfind)
  exact hblank.congr hspec hhandlers hoptions

/-- In an API that is ready only unknown operations fail to be registered, changing nothing. -/
theorem Ready.value_addOperation {api : Api E} (h : api.Ready) {path : Bytes}
    {method : Http.Method} (hfailed : (api.addOperation path method).failure ≠ none) :
    (api.addOperation path method).value = api := by
  cases hfind : api.spec.find? path method with
  | some op => exact absurd (h path method op hfind) hfailed
  | none =>
      unfold addOperation
      rw [hfind]

/-! ## Manual routes -/

/-- A manual route is appended for every method, and nothing else changes. -/
theorem addRoute_inversion {api api' : Api E} {methods : List Http.Method} {path : Bytes}
    {handler : RouteHandler E} (hok : api.addRoute methods path handler = .ok api') :
    ∃ pattern, Routing.Pattern.parse path = .ok pattern ∧
      api' = { api with routes :=
        ⟨api.routes.routes ++ methods.map fun method => ⟨method, pattern, handler, []⟩⟩ } := by
  unfold addRoute RouteTable.add at hok
  cases hparse : Routing.Pattern.parse path with
  | error e =>
      rw [hparse] at hok
      cases hok
  | ok pattern =>
      rw [hparse] at hok
      cases hok
      exact ⟨pattern, rfl, rfl⟩

/-- Manual routes leave the operations as they are. -/
theorem inStep_routes {api : Api E} {registered : List OperationSpec} (h : api.InStep registered)
    (routes : RouteTable E) : ({ api with routes := routes } : Api E).InStep registered :=
  ⟨h.routing_base, h.routing_operations, h.resolved, h.find_operation⟩

end Api

end ApiGateway
