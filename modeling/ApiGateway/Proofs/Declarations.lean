import ApiGateway.Proofs.RuleFollowed

/-!
# Declarations in service

Setting up an API looks every operation of the specification up by its path and its
method, writes it into the routing list and registers it under its id.  An id that is
used again belongs to the operation registered last.  Requests for an id are bound and
answered by the declaration that the id belongs to.

Main definitions:

- `Api.Lists`: an operation is in the routing list with a well-formed template.
- `Api.AnswersBy`: the declaration by which requests for an id are answered.

Main results:

- `Specification.declared_eq_operations`: with different paths or methods everything
  declared is registered.
- `Api.InStep.exists_answersBy`: an id belongs to the operation registered last under it.
- `Api.create_answers_by_declaration`: what a successful setup answers by.
- `App.registers_of_assembled`: only declared operations are registered in mounted APIs.
-/

namespace ApiGateway

variable {E : Signature}

/-! ## Declared operations -/

namespace Specification

variable {spec : Specification} {op : OperationSpec}

/-- Only declared operations are registered. -/
theorem mem_operations_of_mem_declared (h : op ∈ spec.declared) : op ∈ spec.operations := by
  rcases List.mem_filterMap.1 h with ⟨other, -, hfind⟩
  exact mem_of_find? hfind

/-- The first operation declared for its path and its method is registered. -/
theorem mem_declared (hop : op ∈ spec.operations)
    (hfirst : spec.find? op.path op.method = some op) : op ∈ spec.declared :=
  List.mem_filterMap.2 ⟨op, hop, hfirst⟩

/-- Among operations with different paths or methods each one is found. -/
theorem find?_of_nodup
    (hdistinct : (spec.operations.map fun other => (other.path, other.method)).Nodup)
    (hop : op ∈ spec.operations) : spec.find? op.path op.method = some op := by
  cases hfind : spec.find? op.path op.method with
  | none =>
      have hne := List.find?_eq_none.1 hfind op hop
      simp at hne
  | some found =>
      have hsame := path_method_of_find? hfind
      have hpair : (found.path, found.method) = (op.path, op.method) := by
        rw [hsame.1, hsame.2]
      rw [List.inj_on_of_nodup_map hdistinct (mem_of_find? hfind) hop hpair]

/-- With different paths or methods everything declared is registered, in its order. -/
theorem declared_eq_operations
    (hdistinct : (spec.operations.map fun other => (other.path, other.method)).Nodup) :
    spec.declared = spec.operations := by
  have hsome : ∀ op ∈ spec.operations, spec.find? op.path op.method = some (id op) :=
    fun _ hop => find?_of_nodup hdistinct hop
  rw [declared, List.filterMap_congr hsome]
  exact List.filterMap_some

end Specification

namespace Api

/-! ## Templates of registered operations -/

/-- The templates of all operations that a successful setup registers are well formed. -/
theorem parse_of_create {spec : Specification} {handlers : Resolver E} {options : ApiOptions}
    (hok : (create spec handlers options).failure = none) {op : OperationSpec}
    (hop : op ∈ spec.declared) : ∃ pattern, Routing.Pattern.parse op.path = .ok pattern := by
  rcases List.mem_filterMap.1 hop with ⟨other, -, hfind⟩
  have hspec := (create_frame spec handlers options).1
  have hagain := ready_create hok other.path other.method op (hspec.symm ▸ hfind)
  rcases addOperation_inversion hagain with ⟨found, -, -, pattern, hfound, -, hpattern, -⟩
  rw [hspec, hfind] at hfound
  obtain rfl := Option.some.inj hfound
  exact ⟨pattern, hpattern⟩

/-! ## Answering by a declaration -/

/-- The routing list has an operation with its method, its template and its id. -/
def Lists (api : Api E) (op : OperationSpec) : Prop :=
  ∃ pattern, Routing.Pattern.parse op.path = .ok pattern ∧
    (⟨op.method, pattern, op.operationId⟩ : OperationRoute) ∈ api.routing.operations

/--
Requests for an id are answered by a declaration and a handler.  The invoker of both is registered
under the id, and every request routed to the id is bound and answered by that invoker, with the
media type of the declaration.
-/
structure AnswersBy (api : Api E) (id : Bytes) (op : OperationSpec)
    (handler : OperationHandler E) : Prop where
  /-- The handler is the one of the resolver, or the stub. -/
  resolved : ∃ log, api.handlerFor op = .ok (handler, log)
  registered : api.operations.find? id = some (api.invokerFor op handler)
  serves : ∀ observed sc routing, sc.routing = some routing → routing.operationId = some id →
    api.serve observed sc =
      ((api.invokerFor op handler).invoke sc).bind
        (Dispatcher.respond observed (some op.mediaType))

/-- What is registered under an id answers the requests routed to it. -/
theorem answersBy_of_find? {api : Api E} {id : Bytes} {op : OperationSpec}
    {handler : OperationHandler E} {log : List LogEntry}
    (hhandler : api.handlerFor op = .ok (handler, log))
    (hfind : api.operations.find? id = some (api.invokerFor op handler)) :
    api.AnswersBy id op handler where
  resolved := ⟨log, hhandler⟩
  registered := hfind
  serves := fun observed _ routing hrouting hid =>
    Dispatcher.serve_of_operation hrouting (api.not_delegates observed routing) hid hfind

/-- Requests for an id are answered by the operation registered last under it. -/
theorem InStep.exists_answersBy {api : Api E} {registered : List OperationSpec}
    (h : api.InStep registered) {op : OperationSpec} (hop : op ∈ registered) :
    ∃ before owner after handler, registered = before ++ owner :: after ∧
      owner.operationId = op.operationId ∧
      (∀ other ∈ after, other.operationId ≠ op.operationId) ∧
      api.AnswersBy op.operationId owner handler := by
  rcases h.exists_last hop with
    ⟨before, owner, after, handler, log, hsplit, hid, hafter, hhandler, hfind⟩
  exact ⟨before, owner, after, handler, hsplit, hid, hafter, answersBy_of_find? hhandler hfind⟩

/-- Every registered operation with a well-formed template is in the routing list. -/
theorem InStep.lists {api : Api E} {registered : List OperationSpec} (h : api.InStep registered)
    {op : OperationSpec} (hop : op ∈ registered) {pattern : Routing.Pattern}
    (hpattern : Routing.Pattern.parse op.path = .ok pattern) : api.Lists op := by
  refine ⟨pattern, hpattern, ?_⟩
  rw [h.routing_operations, List.mem_filterMap]
  refine ⟨op, hop, ?_⟩
  rw [OperationSpec.route?, hpattern]
  rfl

/--
After a successful setup every operation that is declared first for its path and its method is in
the routing list, and the requests for its id are answered by a declared operation with that id:
by itself if no other operation has the id, and otherwise, where paths or methods are different,
by the operation declared last with it.
-/
theorem create_answers_by_declaration {spec : Specification} {handlers : Resolver E}
    {options : ApiOptions} (hok : (create spec handlers options).failure = none)
    {op : OperationSpec} (hop : op ∈ spec.operations)
    (hfirst : spec.find? op.path op.method = some op) :
    let api := (create spec handlers options).value
    (api.handlers = handlers ∧ api.options = options ∧
        api.basePath = options.basePathFor spec) ∧
      api.Lists op ∧
      ∃ owner ∈ spec.operations, ∃ handler, owner.operationId = op.operationId ∧
        api.AnswersBy op.operationId owner handler ∧
        ((∀ other ∈ spec.operations, other.operationId = op.operationId → other = op) →
          owner = op) ∧
        ((spec.operations.map fun other => (other.path, other.method)).Nodup →
          ∃ before after, spec.operations = before ++ owner :: after ∧
            ∀ other ∈ after, other.operationId ≠ op.operationId) := by
  intro api
  rcases create_frame spec handlers options with ⟨-, hhandlers, hoptions, hbase⟩
  have hdeclared := Specification.mem_declared hop hfirst
  rcases parse_of_create hok hdeclared with ⟨pattern, hpattern⟩
  have hstep := inStep_create hok
  rcases hstep.exists_answersBy hdeclared with
    ⟨before, owner, after, handler, hsplit, hid, hafter, hanswers⟩
  have howner : owner ∈ spec.operations := by
    apply Specification.mem_operations_of_mem_declared
    rw [hsplit]
    exact List.mem_append_right before List.mem_cons_self
  refine ⟨⟨hhandlers, hoptions, hbase⟩, hstep.lists hdeclared hpattern, owner, howner, handler, hid,
    hanswers, ?_, ?_⟩
  · intro hown
    exact hown owner howner hid
  · intro hdistinct
    rw [Specification.declared_eq_operations hdistinct] at hsplit
    exact ⟨before, after, hsplit, hafter⟩

end Api

/-- Only declared operations are registered, and those of the setup stay. -/
structure Api.Registers (api : Api E) (registered : List OperationSpec) : Prop where
  declared : ∀ op ∈ registered, op ∈ api.spec.operations
  kept : ∀ op ∈ api.spec.declared, op ∈ registered

/-- In every mounted API only declared operations are registered. -/
theorem App.registers_of_assembled {app : App E} {record : Bytes → List OperationSpec}
    (h : app.Assembled record) : ∀ api ∈ app.apis, api.Registers (record api.basePath) := by
  refine h.each (P := Api.Registers) ?_ ?_ ?_
  · intro spec handlers options hok
    constructor
    · rw [(Api.create_frame _ _ _).1]
      exact fun op hop => Specification.mem_operations_of_mem_declared hop
    · rw [(Api.create_frame _ _ _).1]
      exact fun op hop => hop
  · intro api registered path method op hregisters hok hfind
    constructor
    · rw [(Api.addOperation_frame _ _ _).1]
      intro other hother
      rcases List.mem_append.1 hother with hold | hnew
      · exact hregisters.declared other hold
      · rw [List.mem_singleton.1 hnew]
        exact Specification.mem_of_find? hfind
    · rw [(Api.addOperation_frame _ _ _).1]
      intro other hother
      exact List.mem_append_left [op] (hregisters.kept other hother)
  · intro api registered routes hregisters
    exact ⟨hregisters.declared, hregisters.kept⟩

/-! ## A shared id -/

namespace Sample

/-- `GET /a` and `POST /b` with the same id, `GET /b` with an id of its own. -/
def sharing : Specification where
  operations := [
    { path := [47, 97], method := .get, operationId := [120], parameters := [{ name := [112] }] },
    { path := [47, 98], method := .post, operationId := [120], hasRequestBody := true },
    { path := [47, 98], method := .get, operationId := [121] }]

/-- The setup of that specification, with stubs for its operations. -/
def sharingSetup : Registration (Api Signature.empty) :=
  Api.create sharing Registry.empty { stubStatus := some 501 }

/-- Requests for `GET /b` are answered by its own declaration. -/
theorem answers_own_id :
    sharingSetup.failure = none ∧
      ∃ handler, sharingSetup.value.AnswersBy [121]
        { path := [47, 98], method := .get, operationId := [121] } handler := by
  have hok : sharingSetup.failure = none := rfl
  have hop : sharing.operations[2] ∈ sharing.operations := by decide
  rcases Api.create_answers_by_declaration hok hop (by decide) with
    ⟨-, -, owner, -, handler, -, hanswers, hown, -⟩
  rw [hown (by decide)] at hanswers
  exact ⟨hok, handler, hanswers⟩

/-- Requests for `GET /a` are not answered by its declaration: a later one has its id. -/
theorem shared_id_belongs_to_other :
    sharingSetup.failure = none ∧
      ∃ op ∈ sharing.operations, op.path = [47, 97] ∧
        ∀ handler, ¬sharingSetup.value.AnswersBy op.operationId op handler := by
  refine ⟨rfl, sharing.operations[0], by decide, rfl, ?_⟩
  intro handler hanswers
  have hoperation := congrArg (Option.map Invoker.operation) hanswers.registered
  have hother : sharing.operations[1] = sharing.operations[0] := Option.some.inj hoperation
  exact absurd hother (by decide)

end Sample
end ApiGateway
