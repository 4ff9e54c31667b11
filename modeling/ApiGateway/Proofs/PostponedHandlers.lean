import ApiGateway.Proofs.Counterparts
import ApiGateway.Proofs.RuleFollowed
import ApiGateway.Proofs.Suspension

/-!
# Postponed handlers

An action may be registered to be run at once, or to be run after a number of
suspensions.  Two setups that differ only in this route requests alike, and a request
of the operation is answered in the same way, by the same events and with the same end.
The one difference is that the second run is resumed that many times, after the
arguments have been gathered and before anything can be seen.

Main definitions:

- `OperationHandler.postponed`: an action behind a number of suspensions.
- `App.invoker?`: the invoker that is registered at a base path under an id.

Main results:

- `App.invoker_of_registered`: requests of an operation lead to the handler that has been
  registered under its id.
- `Invoker.postpones_respond`: postponing an action postpones the response.
- `App.postponing_only_suspends`: postponing an action adds suspensions and nothing else.
-/

namespace ApiGateway

variable {E : Signature} {σ : Type}

/-- The handler that runs an action in the last step of a chain of suspensions. -/
def OperationHandler.postponed (n : Nat) (action : Arguments → Immediate E HandlerResult) :
    OperationHandler E :=
  .async fun args => .delayed n (action args).toProg

/-! ## One invoker -/

namespace Invoker

variable {inv inv' : Invoker E} {n : Nat} {action : Arguments → Immediate E HandlerResult}

/-- Postponing an action postpones the response, if the arguments can be gathered. -/
theorem postpones_respond (hsync : inv.handler = .sync action)
    (hpostponed : inv' = { inv with handler := .postponed n action }) (observed : Bool)
    (sc : Scope) (host : Host (Exchange E) σ) (s : σ) :
    Prog.Postpones host s (((inv.arguments sc).run host s).ifOk n)
      ((inv.invoke sc).bind (Dispatcher.respond observed inv.mediaType))
      ((inv'.invoke sc).bind (Dispatcher.respond observed inv'.mediaType)) := by
  have hinvoke : Prog.Postpones host s (((inv.arguments sc).run host s).ifOk n) (inv.invoke sc)
      (inv'.invoke sc) := by
    rw [hpostponed]
    refine Prog.Postpones.bind_right (inv.performs_arguments sc) fun args t => ?_
    rw [hsync]
    dsimp only [OperationHandler.program, OperationHandler.postponed]
    rw [Prog.embed_delayed]
    exact Prog.Postpones.delayed n _
  have hmediaType : inv'.mediaType = inv.mediaType := by
    rw [hpostponed]
    rfl
  rw [hmediaType]
  exact hinvoke.bind _

end Invoker

/-! ## Applications -/

namespace App

/-- The invoker that is registered at a base path under an id. -/
def invoker? (app : App E) (base id : Bytes) : Option (Invoker E) :=
  (app.findApi? base).bind fun api => api.operations.find? id

/-- Counterparts have counterparts registered. -/
theorem Counterpart.invoker? {app app' : App E} (h : app.Counterpart app') (base id : Bytes) :
    Option.Rel Invoker.Counterpart (app.invoker? base id) (app'.invoker? base id) := by
  have hfound := h.findApi? base
  unfold App.invoker?
  generalize app.findApi? base = found at hfound ⊢
  generalize app'.findApi? base = found' at hfound ⊢
  cases hfound with
  | none => exact .none
  | some hapi =>
      cases hapi with
      | mk _ hoperations => exact hoperations id

section Routed

variable {sc : Scope} {base id : Bytes} {params : Params}

/-- A request that is routed to an operation is answered by the invoker registered for it. -/
theorem serve_of_invoker {app : App E} (hdistinct : (app.apis.map Api.basePath).Nodup)
    {inv : Invoker E} (hinv : app.invoker? base id = some inv)
    (hroute : Routing.resolve (app.apis.map Api.routing) sc =
      { apiBasePath := some base, operationId := some id, params }) :
    let inside := sc.enter { apiBasePath := some base, operationId := some id, params }
    app.serve sc =
      Rendering.guarded false (.call (.enter inside) fun _ =>
        (inv.invoke inside).bind (Dispatcher.respond app.observed inv.mediaType)) := by
  intro inside
  rcases Option.bind_eq_some_iff.1 hinv with ⟨api, hfound, hfind⟩
  rcases mem_of_findApi? hfound with ⟨hapi, rfl⟩
  rw [serve_of_resolve hroute, dispatch_operation hdistinct hapi hfind]

/-- Requests of an operation whose action is run at once are answered without suspending. -/
theorem atOnce_serve {app : App E} (hdistinct : (app.apis.map Api.basePath).Nodup)
    {inv : Invoker E} (hinv : app.invoker? base id = some inv)
    {action : Arguments → Immediate E HandlerResult} (hsync : inv.handler = .sync action)
    (hroute : Routing.resolve (app.apis.map Api.routing) sc =
      { apiBasePath := some base, operationId := some id, params }) : (app.serve sc).AtOnce := by
  rw [serve_of_invoker hdistinct hinv hroute]
  apply Prog.AtOnce.guarded
  refine ⟨trivial, fun _ => Prog.Performs.bind (Prog.AtOnce.invoke hsync _) ?_⟩
  exact Prog.AtOnce.respond app.observed inv.mediaType

/-- Postponing the action of an operation postpones the answer to its requests. -/
theorem postpones_serve {app app' : App E} (h : app.Counterpart app')
    (hdistinct : (app.apis.map Api.basePath).Nodup)
    (hdistinct' : (app'.apis.map Api.basePath).Nodup) {inv inv' : Invoker E}
    (hinv : app.invoker? base id = some inv) (hinv' : app'.invoker? base id = some inv')
    {action : Arguments → Immediate E HandlerResult} {n : Nat} (hsync : inv.handler = .sync action)
    (hpostponed : inv' = { inv with handler := .postponed n action })
    (hroute : Routing.resolve (app.apis.map Api.routing) sc =
      { apiBasePath := some base, operationId := some id, params })
    (host : Host (Exchange E) σ) (s : σ) :
    let inside := sc.enter { apiBasePath := some base, operationId := some id, params }
    Prog.Postpones host s
      (((inv.arguments inside).run host (host.answer (.enter inside) s).2).ifOk n)
      (app.serve sc) (app'.serve sc) := by
  intro inside
  have hroute' : Routing.resolve (app'.apis.map Api.routing) sc =
      { apiBasePath := some base, operationId := some id, params } := by
    rw [h.routing]
    exact hroute
  rw [serve_of_invoker hdistinct hinv hroute, serve_of_invoker hdistinct' hinv' hroute',
    h.observed]
  apply Prog.Postpones.guarded
  have henter : Exchange.IsQuiet (E := E) (.enter inside) := trivial
  exact Prog.Postpones.call henter
    (Invoker.postpones_respond hsync hpostponed app.observed inside host _)

/--
Requests of an operation lead to the handler that has been registered under its id when its API was
mounted.
-/
theorem invoker_of_registered {before after : List (SetupCall E)} {spec : Specification}
    {handlers : Resolver E} {options : ApiOptions} {handler : OperationHandler E}
    (hok : ((setUp before).addApi spec (handlers.insert id handler) options).failure = none)
    (hroute : Routing.resolve ((setUp (before ++
        .addApi spec (handlers.insert id handler) options :: after)).apis.map Api.routing) sc =
      { apiBasePath := some (options.basePathFor spec), operationId := some id, params }) :
    ∃ inv, (setUp (before ++
        .addApi spec (handlers.insert id handler) options :: after)).invoker?
          (options.basePathFor spec) id = some inv ∧ inv.handler = handler := by
  have hmounts := mounts_setUp hok after
  have hdistinct := nodup_basePaths_setUp (before ++
    .addApi spec (handlers.insert id handler) options :: after)
  rcases exists_assembled_setUp (before ++
    .addApi spec (handlers.insert id handler) options :: after) with ⟨record, hassembled⟩
  generalize setUp (before ++ _ :: after) = app at hroute hmounts hdistinct hassembled ⊢
  rcases Routing.exists_of_resolve hroute with ⟨routes, hroutes, hbase, route, hlisted, rfl⟩
  rcases List.mem_map.1 hroutes with ⟨api, hapi, rfl⟩
  have hstep := (inStep_of_assembled hassembled).each api hapi
  rw [hstep.routing_base] at hbase
  rcases hstep.exists_invoker hlisted with ⟨op, found, log, hid, hfound, hfind⟩
  refine ⟨api.invokerFor op found, ?_, ?_⟩
  · rw [← hbase, invoker?, findApi?_of_nodup hdistinct hapi]
    exact hfind
  · have hhandler : api.handlerFor op = .ok (handler, []) := by
      rw [Api.handlerFor, hmounts.2 api hapi hbase, Registry.find?_insert, if_pos hid]
    rw [hfound] at hhandler
    exact congrArg Prod.fst (Except.ok.inj hhandler)

end Routed

/--
Postponing an action adds suspensions and nothing else.  Let an API be mounted with an action under
an id, once to be run at once and once after a number of suspensions.  The calls before and after
are the same, and so are the known ids, while other handlers may differ.  Then a request of the
operation leads to the action in both applications, and the runs have the same events, the same end
and leave the host in the same state.  The first run is not resumed.  If the arguments can be
gathered, the second is resumed once for every suspension, and until the last resumption no message
is handed over and nothing is shown to the observer; otherwise it is not resumed either.
-/
theorem postponing_only_suspends {before before' after after' : List (SetupCall E)}
    (hbefore : List.Forall₂ SetupCall.Counterpart before before')
    (hafter : List.Forall₂ SetupCall.Counterpart after after') {spec : Specification}
    {handlers handlers' : Resolver E} (hhandlers : Resolver.SameIds handlers handlers')
    {options : ApiOptions} {id : Bytes} {action : Arguments → Immediate E HandlerResult} (n : Nat)
    (hmounted : ((setUp before).addApi spec (handlers.insert id (.sync action)) options).failure =
      none) {sc : Scope} {params : Params} (host : Host (Exchange E) σ) (s : σ) :
    let base := options.basePathFor spec
    let app := setUp (before ++ .addApi spec (handlers.insert id (.sync action)) options :: after)
    let app' := setUp (before' ++
      .addApi spec (handlers'.insert id (.postponed n action)) options :: after')
    let routing : Routing := { apiBasePath := some base, operationId := some id, params }
    Routing.resolve (app.apis.map Api.routing) sc = routing →
      ∃ inv, app.invoker? base id = some inv ∧ inv.handler = .sync action ∧
        app'.invoker? base id = some { inv with handler := .postponed n action } ∧
        let inside := sc.enter routing
        let gathering := (inv.arguments inside).run host (host.answer (.enter inside) s).2
        Prog.Postpones host s (gathering.ifOk n) (app.serve sc) (app'.serve sc) ∧
          ((app'.serve sc).transcript host s).filter (fun event => !event.isResumed) =
            (app.serve sc).transcript host s ∧
          ((app.serve sc).run host s).resumptions = 0 ∧
          ((app'.serve sc).run host s).resumptions = gathering.ifOk n := by
  intro base app app' routing hroute
  have hshape : app.Counterpart app' :=
    counterpart_setUp (List.rel_append hbefore
      (.cons (.addApi spec options (hhandlers.insert id _ _)) hafter))
  have hroute' : Routing.resolve (app'.apis.map Api.routing) sc = routing := by
    rw [hshape.routing]
    exact hroute
  have hmounted' : ((setUp before').addApi spec
      (handlers'.insert id (.postponed n action)) options).failure = none := by
    rw [((counterpart_setUp hbefore).addApi (hhandlers.insert id _ _) spec options).2]
    exact hmounted
  rcases invoker_of_registered hmounted hroute with ⟨inv, hinv, hsync⟩
  rcases invoker_of_registered hmounted' hroute' with ⟨inv', hinv', hpostponed⟩
  have hpair := hshape.invoker? base id
  rw [hinv, hinv'] at hpair
  have hother : inv' = { inv with handler := .postponed n action } := by
    cases hpair with
    | some hinvoker =>
        rcases hinvoker with ⟨handler, rfl⟩
        rw [← hpostponed]
  refine ⟨inv, hinv, hsync, hother ▸ hinv', ?_⟩
  intro inside gathering
  have hdirect := atOnce_serve (nodup_basePaths_setUp _) hinv hsync hroute
  have hpostpones : Prog.Postpones host s (gathering.ifOk n) (app.serve sc) (app'.serve sc) :=
    postpones_serve hshape (nodup_basePaths_setUp _) (nodup_basePaths_setUp _) hinv hinv' hsync
      hother hroute host s
  refine ⟨hpostpones, hpostpones.filter_transcript hdirect, hdirect.resumptions host s, ?_⟩
  rw [hpostpones.resumptions, hdirect.resumptions host s, Nat.zero_add]

end App

/-! ## A sample -/

namespace Sample

/-- An action that answers without a body. -/
def acknowledge (_ : Arguments) : Immediate Signature.empty HandlerResult :=
  .done (.reply {})

/-- The call that mounts the specification with a handler under the id of its operation. -/
def mounting (handler : OperationHandler Signature.empty) : SetupCall Signature.empty :=
  .addApi spec (Registry.empty.insert [97] handler) {}

/-- A host that accepts every message and delivers an empty body. -/
def accepting : Host (Exchange Signature.empty) Unit where
  answer op s :=
    match op with
    | .send _ => (.ok (), s)
    | .receiveBody => (.ok [], s)
    | .log _ => ((), s)
    | .observe _ => (.ok (), s)
    | .readFile _ => (none, s)
    | .enter _ => ((), s)

/-- Behind three suspensions the action answers at the third resumption. -/
theorem resumptions_acknowledge :
    ((App.setUp []).addApi spec (Registry.empty.insert [97] (.sync acknowledge)) {}).failure =
        none ∧
      Routing.resolve ((App.setUp [mounting (.sync acknowledge)]).apis.map Api.routing) scope =
        { apiBasePath := some [47, 118], operationId := some [97] } ∧
      (((App.setUp [mounting (.postponed 3 acknowledge)]).serve scope).run accepting
        ()).resumptions = 3 := by
  have hmounted : ((App.setUp []).addApi spec (Registry.empty.insert [97] (.sync acknowledge))
      {}).failure = none := rfl
  have hroute : Routing.resolve
      ((App.setUp [mounting (.sync acknowledge)]).apis.map Api.routing) scope =
        { apiBasePath := some [47, 118], operationId := some [97] } := rfl
  have hids : Resolver.SameIds (E := Signature.empty) Registry.empty Registry.empty :=
    Registry.Rel.refl (fun _ => trivial) _
  rcases App.postponing_only_suspends .nil .nil hids 3 hmounted accepting () hroute with
    ⟨inv, hinv, -, -, -, -, -, hresumed⟩
  cases hinv
  exact ⟨hmounted, hroute, hresumed⟩

end Sample
end ApiGateway
