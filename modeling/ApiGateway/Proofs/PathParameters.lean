import ApiGateway.Proofs.BoundParameters
import ApiGateway.Proofs.Declarations
import ApiGateway.Proofs.Templates

/-!
# Path parameters

A value takes five steps from the target of a request to the handler: the path is cut
off the target, the base path off the path, the rest is split at its slashes, the
template captures the pieces as they are, and binding decodes them once.  An escaped
value passes the first four unchanged, and the last one gives it back.

Main definitions:

- `Api.Addresses`: a request whose target is the base path and a filled template.
- `App.Selects`: routing selects an operation of a mounted API.

Main results:

- `App.InStep.selects_of_addresses`: an addressed operation is selected if nothing else
  fits.
- `App.path_parameters_survive`: the handler receives the values that have been filled in.
-/

namespace ApiGateway

variable {E : Signature} {σ : Type}

/-! ## Targets -/

/-- A query is empty, or it follows its question mark. -/
def Http.Target.IsQuery (query : Bytes) : Prop :=
  query = [] ∨ ∃ text, query = 63 :: text

/-- A query is not part of the path. -/
theorem Http.Target.path_eq_nil {query : Bytes} (h : IsQuery query) : path query = [] := by
  rcases h with rfl | ⟨text, rfl⟩
  · rfl
  · rfl

/-! ## Addressed operations -/

/--
A request addresses an operation with values for the parameters of its template: its target is the
base path and the filled template, possibly with a query, and nothing of it has been consumed.
-/
structure Api.Addresses (api : Api E) (op : OperationSpec) (pattern : Routing.Pattern)
    (values : Bytes → Bytes) (sc : Scope) : Prop where
  parsed : Routing.Pattern.parse op.path = .ok pattern
  nonempty : ∀ name ∈ pattern.names, values name ≠ []
  /-- Neither the base path nor a literal segment has a byte that ends a path. -/
  base : ∀ c ∈ api.basePath, Http.Target.endsPath c = false
  literals : ∀ text, .literal text ∈ pattern.segments →
    ∀ c ∈ text, Http.Target.endsPath c = false
  method : sc.request.method = op.method
  unconsumed : sc.rootPath = []
  target : ∃ query, Http.Target.IsQuery query ∧
    sc.request.target = api.basePath ++ (Routing.fill values op.path ++ query)

namespace Api.Addresses

variable {api : Api E} {op : OperationSpec} {pattern : Routing.Pattern} {values : Bytes → Bytes}
  {sc : Scope}

/-- The path of the request is the base path and the filled template. -/
theorem relativePath_eq (h : api.Addresses op pattern values sc) :
    sc.relativePath = api.basePath ++ Routing.fill values op.path := by
  rcases h.target with ⟨query, hquery, htarget⟩
  have hfill : ∀ c ∈ Routing.fill values op.path, Http.Target.endsPath c = false :=
    fun _ hc => Routing.Pattern.endsPath_of_mem_fill h.parsed h.literals hc
  rw [Scope.relativePath_of_rootPath_nil h.unconsumed, Request.path, htarget,
    Http.Target.path_append h.base, Http.Target.path_append hfill, Http.Target.path_eq_nil hquery,
    List.append_nil]

/-- The operation fits the request, with the escaped values. -/
theorem fits (h : api.Addresses op pattern values sc) :
    op.Fits sc.request.method (Routing.fill values op.path)
      (Routing.captures values pattern.segments) :=
  ⟨h.method.symm, pattern, h.parsed, Routing.Pattern.match?_fill h.parsed h.nonempty⟩

/-- The operation fits the request with nothing else. -/
theorem eq_captures (h : api.Addresses op pattern values sc) {params : Params}
    (hfits : op.Fits sc.request.method (Routing.fill values op.path) params) :
    params = Routing.captures values pattern.segments := by
  rcases hfits with ⟨-, pattern', hparsed, hmatch⟩
  rw [h.parsed] at hparsed
  cases hparsed
  rw [Routing.Pattern.match?_fill h.parsed h.nonempty] at hmatch
  exact (Option.some.inj hmatch).symm

/-- The base path owns the path of the request. -/
theorem owns (h : api.Addresses op pattern values sc) :
    Routing.Owns api.basePath sc.relativePath := by
  rcases Routing.Pattern.fill_eq_cons values h.parsed with ⟨rest, hfill⟩
  rw [h.relativePath_eq, hfill]
  exact .inr ⟨rest, rfl⟩

end Api.Addresses

/-! ## Selected operations -/

/-- What is selected fits. -/
theorem Selected.fits {registered : List OperationSpec} {method : Http.Method} {path : Bytes}
    {op : OperationSpec} {params : Params} (h : Selected registered method path op params) :
    op.Fits method path params := by
  rcases h with ⟨before, after, -, hfits, -⟩
  exact hfits

namespace App

/-- Routing selects an operation of a mounted API. -/
def Selects (app : App E) (sc : Scope) (api : Api E) (op : OperationSpec) : Prop :=
  (Routing.resolve (app.apis.map Api.routing) sc).apiBasePath = some api.basePath ∧
    (Routing.resolve (app.apis.map Api.routing) sc).operationId = some op.operationId

variable {app : App E} {record : Bytes → List OperationSpec} {api : Api E} {op : OperationSpec}
  {pattern : Routing.Pattern} {values : Bytes → Bytes} {sc : Scope}

/-- What the rule says about an operation to which it leads. -/
theorem Leads.selected {method : Http.Method} {path base id : Bytes} {params : Params}
    {handler : OperationHandler E}
    (h : app.Leads record method path (.operation base id params handler)) :
    ∃ rest op, path = base ++ rest ∧ Selected (record base) method rest op params ∧
      op.operationId = id := by
  cases h with
  | owned howner hpath hselected hhandler => exact ⟨_, _, hpath, hselected, rfl⟩
  | root hfree hmounted hroot hselected hhandler => exact ⟨path, _, rfl, hselected, rfl⟩

/-- An addressed operation is registered if no other declared one fits the request. -/
theorem mem_record_of_addresses (hregisters : api.Registers (record api.basePath))
    (hop : op ∈ api.spec.operations) (haddresses : api.Addresses op pattern values sc)
    (honly : ∀ other ∈ api.spec.operations, ∀ params,
      other.Fits sc.request.method (Routing.fill values op.path) params → other = op) :
    op ∈ record api.basePath := by
  apply hregisters.kept
  apply Specification.mem_declared hop
  cases hfind : api.spec.find? op.path op.method with
  | none =>
      have hne := List.find?_eq_none.1 hfind op hop
      simp at hne
  | some first =>
      rcases Specification.path_method_of_find? hfind with ⟨hpath, hmethod⟩
      rcases haddresses.fits with ⟨hfitsMethod, pattern', hparsed, hmatch⟩
      rw [← hpath] at hparsed
      have hfits : first.Fits sc.request.method (Routing.fill values op.path)
          (Routing.captures values pattern.segments) :=
        ⟨hmethod.trans hfitsMethod, pattern', hparsed, hmatch⟩
      rw [honly first (Specification.mem_of_find? hfind) _ hfits]

/-- An API that owns a path is its owner if no longer base path does. -/
theorem InStep.owner_eq_of_longest (h : app.InStep record) (hapi : api ∈ app.apis) {path : Bytes}
    (howns : Routing.Owns api.basePath path)
    (hlongest : ∀ other ∈ app.apis, Routing.Owns other.basePath path →
      other.basePath.length ≤ api.basePath.length)
    {owner : Api E} (howner : app.Owner path owner) : owner = api := by
  have hle := hlongest owner howner.mounted howner.owns
  have hge : api.basePath.length ≤ owner.basePath.length := by
    by_cases hbased : api.basePath = []
    · simp [hbased]
    · exact howner.longest api hapi hbased howns
  have hbase := howner.owns.base_eq howns (Nat.le_antisymm hle hge)
  exact h.eq_of_basePath_eq howner.mounted hapi hbase

/--
An addressed operation is selected if no mounted API with a longer base path owns the path and no
other declared operation fits the request.
-/
theorem InStep.selects_of_addresses (h : app.InStep record) (hapi : api ∈ app.apis)
    (hregisters : api.Registers (record api.basePath)) (hop : op ∈ api.spec.operations)
    (haddresses : api.Addresses op pattern values sc)
    (hlongest : ∀ other ∈ app.apis, Routing.Owns other.basePath sc.relativePath →
      other.basePath.length ≤ api.basePath.length)
    (honly : ∀ other ∈ api.spec.operations, ∀ params,
      other.Fits sc.request.method (Routing.fill values op.path) params → other = op) :
    app.Selects sc api op := by
  have hmem := mem_record_of_addresses hregisters hop haddresses honly
  have hrelative := haddresses.relativePath_eq
  have hselected : ∀ {other params},
      Selected (record api.basePath) sc.request.method (Routing.fill values op.path) other params →
        other = op := by
    intro other params hselected
    exact honly other (hregisters.declared other hselected.mem) params hselected.fits
  rcases h.exists_leads sc.request.method sc.relativePath with ⟨dest, hleads⟩
  have hresolve := h.resolve_of_leads hleads
  unfold Selects
  rw [hresolve]
  cases hleads with
  | @owned owner rest other params handler log howner hpath hother hhandler =>
      obtain rfl := h.owner_eq_of_longest hapi haddresses.owns hlongest howner
      rw [hrelative, List.append_cancel_left_eq] at hpath
      subst hpath
      rw [hselected hother]
      exact ⟨rfl, rfl⟩
  | @ownedRoutes owner rest howner hpath hnone =>
      obtain rfl := h.owner_eq_of_longest hapi haddresses.owns hlongest howner
      rw [hrelative, List.append_cancel_left_eq] at hpath
      subst hpath
      exact absurd haddresses.fits (hnone op hmem _)
  | @root owner other params handler log hfree hmounted hroot hother hhandler =>
      have hbase : api.basePath = [] := by
        by_contra hbased
        exact hfree api hapi hbased haddresses.owns
      rw [hrelative, hbase, List.nil_append, ← hbase] at hother
      rw [hselected hother, hbase]
      exact ⟨rfl, rfl⟩
  | ownRoutes hfree hnone =>
      have hbase : api.basePath = [] := by
        by_contra hbased
        exact hfree api hapi hbased haddresses.owns
      rw [hrelative, hbase, List.nil_append] at hnone
      exact absurd haddresses.fits (hnone api hapi hbase op (hbase ▸ hmem) _)

/-- A selected operation that is addressed gets the values that have been filled in. -/
theorem InStep.exists_leads_of_selects (h : app.InStep record)
    (hregisters : api.Registers (record api.basePath))
    (hids : (api.spec.operations.map OperationSpec.operationId).Nodup)
    (hop : op ∈ api.spec.operations) (haddresses : api.Addresses op pattern values sc)
    (hselects : app.Selects sc api op) :
    ∃ handler, app.Leads record sc.request.method sc.relativePath
      (.operation api.basePath op.operationId (Routing.captures values pattern.segments)
        handler) := by
  rcases h.exists_leads sc.request.method sc.relativePath with ⟨dest, hleads⟩
  have hrouting := hselects
  rw [Selects, h.resolve_of_leads hleads] at hrouting
  cases dest with
  | routes base table => cases hrouting.2
  | operation base id params handler =>
      obtain rfl := Option.some.inj hrouting.1
      obtain rfl := Option.some.inj hrouting.2
      rcases hleads.selected with ⟨rest, other, hpath, hselected, hid⟩
      rw [haddresses.relativePath_eq, List.append_cancel_left_eq] at hpath
      subst hpath
      have hother := hregisters.declared other hselected.mem
      obtain rfl := List.inj_on_of_nodup_map hids hother hop hid
      obtain rfl := haddresses.eq_captures hselected.fits
      exact ⟨handler, hleads⟩

end App

/-! ## Arguments of addressed operations -/

/-- Gathered arguments have the values of a binding that has succeeded. -/
theorem Invoker.values_of_arguments {inv : Invoker E} {sc : Scope} {host : Host (Exchange E) σ}
    {s : σ} {args : Arguments} (h : ((inv.arguments sc).run host s).outcome = .ok args) :
    (inv.bindParameters sc).failure = none ∧
      args.values = (inv.bindParameters sc).arguments.values := by
  cases hfail : (inv.bindParameters sc).failure with
  | some e =>
      rw [arguments_of_failure hfail] at h
      cases h
  | none =>
      refine ⟨rfl, ?_⟩
      cases hbody : inv.operation.hasRequestBody with
      | false =>
          rw [arguments_of_no_requestBody hfail hbody] at h
          cases h
          rfl
      | true =>
          rw [arguments_of_hasRequestBody hfail hbody] at h
          cases hread : ((Exchange.receiveBody : Prog (Exchange E) Bytes).run host s).outcome with
          | error e =>
              rw [Prog.outcome_bind_of_error _ hread] at h
              cases h
          | ok body =>
              rw [Prog.outcome_bind_of_ok _ hread] at h
              cases h
              rfl

/-- Path parameters that have been captured are bound to their values and not missing. -/
theorem Api.all_bindParameters_captures {api : Api E} {op : OperationSpec}
    (handler : OperationHandler E) (hidentifiers : api.options.identifiers = false)
    (hbinder : api.options.binder = Binder.standard)
    (hnames : (op.parameters.map Parameter.name).Nodup) {pattern : Routing.Pattern}
    (values : Bytes → Bytes) {inside : Scope} {routing : Routing}
    (hrouting : inside.routing = some routing)
    (hparams : routing.params = Routing.captures values pattern.segments) {p : Parameter}
    (hp : p ∈ op.parameters) (hlocation : p.location = .path) (hname : p.name ∈ pattern.names) :
    let binding := (api.invokerFor op handler).bindParameters inside
    binding.failure ≠ some (Binder.missing p) ∧
      (binding.failure = none → binding.arguments.all p.name = [values p.name]) := by
  have hget : routing.params.get? p.name = some (Http.Percent.encode (values p.name)) := by
    rw [hparams]
    exact Routing.Pattern.get?_captures hname
  have hvalues : Binder.valuesOf inside p = [values p.name] := by
    rw [Binder.valuesOf_path hlocation hrouting hget, Http.Percent.decode_encode]
  have hbinding : (api.invokerFor op handler).bindParameters inside =
      Binder.bindParameters inside false ⟨inside, [], none⟩ op.parameters := by
    simp only [Invoker.bindParameters, invokerFor, hbinder, hidentifiers, Binder.standard]
  dsimp only
  rw [hbinding]
  constructor
  · intro hfailure
    rcases Binder.missing_of_failure hfailure with ⟨q, hq, -, hempty, hmissing⟩
    have hsame := List.inj_on_of_nodup_map hnames hp hq (Binder.missing_inj hmissing).2
    rw [← hsame, hvalues] at hempty
    cases hempty
  · intro hok
    rw [Binder.all_bindParameters hok, Binder.filter_name_of_nodup hnames hp,
      List.flatMap_singleton, hvalues]
    rfl

/-! ## From the target to the handler -/

/--
A request is handed over to an operation with the values of its path parameters.  The program is
that of the invoker registered for the operation, and the handler is called once its arguments are
gathered; a path parameter is never reported as missing and has its value as the only one.
-/
def App.HandsOver (app : App E) (api : Api E) (op : OperationSpec) (pattern : Routing.Pattern)
    (values : Bytes → Bytes) (sc : Scope) (host : Host (Exchange (Watched Handling E)) σ)
    (s : σ) : Prop :=
  let inside := sc.enter (Routing.resolve (app.apis.map Api.routing) sc)
  let calls := Event.callees ((app.watched.serve sc).transcript host s)
  ∃ handler,
    let inv := api.invokerFor op handler
    app.serve sc = Rendering.guarded false (.call (.enter inside) fun _ =>
      (inv.invoke inside).bind (Dispatcher.respond app.observed inv.mediaType)) ∧
    (calls =
      match ((inv.arguments inside).watch.run host (host.answer (.enter inside) s).2).outcome with
      | .ok args => [.operation api.basePath op.operationId args]
      | .error _ => []) ∧
    ∀ p ∈ op.parameters, p.location = .path → p.name ∈ pattern.names →
      (inv.bindParameters inside).failure ≠ some (Binder.missing p) ∧
        ∀ args, .operation api.basePath op.operationId args ∈ calls →
          args.all p.name = [values p.name]

/--
Path parameters survive the way from the target to the handler, whatever calls have set up the
application.  A request that addresses an operation is routed to it if nothing else fits; and
whenever it is routed to it, in every run the handler receives each declared path parameter with
the value that has been filled in and no other, and the parameter is not reported as missing.
-/
theorem App.path_parameters_survive (calls : List (SetupCall E)) {api : Api E}
    (hapi : api ∈ (setUp calls).apis)
    (hids : (api.spec.operations.map OperationSpec.operationId).Nodup)
    (hidentifiers : api.options.identifiers = false)
    (hbinder : api.options.binder = Binder.standard)
    {op : OperationSpec} (hop : op ∈ api.spec.operations)
    (hnames : (op.parameters.map Parameter.name).Nodup) {pattern : Routing.Pattern}
    {values : Bytes → Bytes} {sc : Scope} (haddresses : api.Addresses op pattern values sc) :
    ((∀ other ∈ (setUp calls).apis, Routing.Owns other.basePath sc.relativePath →
          other.basePath.length ≤ api.basePath.length) →
        (∀ other ∈ api.spec.operations, ∀ params,
          other.Fits sc.request.method (Routing.fill values op.path) params → other = op) →
        (setUp calls).Selects sc api op) ∧
      ((setUp calls).Selects sc api op →
        ∀ {σ : Type} (host : Host (Exchange (Watched Handling E)) σ) (s : σ),
          (setUp calls).HandsOver api op pattern values sc host s) := by
  rcases exists_assembled_setUp calls with ⟨record, h⟩
  have hstep := inStep_of_assembled h
  have hregisters := registers_of_assembled h api hapi
  refine ⟨hstep.selects_of_addresses hapi hregisters hop haddresses, ?_⟩
  intro hselects σ host s
  rcases hstep.exists_leads_of_selects hregisters hids hop haddresses hselects with
    ⟨handler, hleads⟩
  have hresolve := hstep.resolve_of_leads hleads
  have hserves := hstep.servesBy hleads.offers hresolve host s
  rcases hserves with ⟨api', hapi', hbase, op', hop', hid, hfind, hserve, hcalls⟩
  obtain rfl := hstep.eq_of_basePath_eq hapi' hapi hbase
  obtain rfl := List.inj_on_of_nodup_map hids (hregisters.declared op' hop') hop hid
  refine ⟨handler, ?_, ?_, ?_⟩
  · rw [hresolve]
    exact hserve
  · rw [hresolve]
    exact hcalls
  · intro p hp hlocation hname
    rw [hresolve]
    have hrouting (routing : Routing) : (sc.enter routing).routing = some routing := rfl
    have hbound := Api.all_bindParameters_captures handler hidentifiers hbinder hnames values
      (hrouting (Destination.operation api'.basePath op'.operationId
        (Routing.captures values pattern.segments) handler).routing) rfl hp hlocation hname
    refine ⟨hbound.1, ?_⟩
    intro args hargs
    rw [hcalls, ← Invoker.arguments_announcing _ (.operation api'.basePath op'.operationId)]
      at hargs
    split at hargs
    · next args' houtcome =>
        rcases Invoker.values_of_arguments houtcome with ⟨hok, hvalues⟩
        cases List.mem_singleton.1 hargs
        have hall := hbound.2 hok
        unfold Arguments.all at hall ⊢
        rw [hvalues]
        exact hall
    · cases hargs

/-! ## A sample -/

namespace Sample

/-- One operation, `GET /p/{n}` with the id `p`, under the base path `/v`. -/
def templated : Specification where
  basePath := [47, 118]
  operations := [{
    path := [47, 112, 47, 123, 110, 125]
    method := .get
    operationId := [112]
    parameters := [{ name := [110], location := .path, required := true }] }]

/-- The API of that specification, with a stub for its operation. -/
def templatedApi : Api Signature.empty :=
  (Api.create templated Registry.empty { basePath := some [47, 118], stubStatus := some 501 }).value

/-- An application with that API. -/
def templatedApp : App Signature.empty :=
  .setUp [.addApi templated Registry.empty { stubStatus := some 501 }]

/-- A request for `/v/p/` and the escaped value `/%+?`, followed by `?q`. -/
def templatedScope : Scope :=
  { request := { method := .get, target := [47, 118, 47, 112, 47, 37, 50, 70, 37, 50, 53, 37, 50,
      66, 37, 51, 70, 63, 113] } }

/-- A text whose bytes are tested one by one has none that ends a path. -/
theorem endsPath_of_all {text : Bytes} (h : text.all (fun c => !Http.Target.endsPath c) = true) :
    ∀ c ∈ text, Http.Target.endsPath c = false := by
  intro c hc
  simpa using List.all_eq_true.1 h c hc

/-- The request addresses the operation with that value. -/
theorem templatedScope_addresses :
    templatedApi.Addresses templated.operations[0]
      ⟨[47, 112, 47, 123, 110, 125], [.literal [112], .parameter [110]]⟩
      (fun _ => [47, 37, 43, 63]) templatedScope where
  parsed := rfl
  nonempty := fun _ _ => by decide
  base := endsPath_of_all rfl
  literals := by
    intro text htext
    have hliteral : text = [112] := by simpa using htext
    rw [hliteral]
    exact endsPath_of_all rfl
  method := rfl
  unconsumed := rfl
  target := ⟨[63, 113], .inr ⟨[113], rfl⟩, rfl⟩

/-- The handler is called with the value as it was before it was escaped. -/
theorem hands_over_slash :
    ∃ args, Event.callees ((templatedApp.watched.serve templatedScope).transcript host ()) =
        [.operation [47, 118] [112] args] ∧
      args.all [110] = [[47, 37, 43, 63]] := by
  have hapi : templatedApi ∈ templatedApp.apis := List.mem_singleton_self _
  have hop : templated.operations[0] ∈ templatedApi.spec.operations := List.mem_singleton_self _
  rcases App.path_parameters_survive _ hapi (by decide) rfl rfl hop
    (by decide) templatedScope_addresses with ⟨hselects, hhands⟩
  have hselected := hselects
    (fun other hother _ => by rw [List.mem_singleton.1 hother]; exact Nat.le_refl _)
    (fun other hother _ _ => List.mem_singleton.1 hother)
  rcases hhands hselected host () with ⟨handler, -, hcalls, hvalues⟩
  have hname : [110] ∈ Routing.Pattern.names
      ⟨[47, 112, 47, 123, 110, 125], [.literal [112], .parameter [110]]⟩ := by
    decide
  refine ⟨_, hcalls, ?_⟩
  refine (hvalues _ (List.mem_singleton_self _) rfl hname).2 _ ?_
  rw [hcalls]
  exact List.mem_singleton_self _

end Sample
end ApiGateway
