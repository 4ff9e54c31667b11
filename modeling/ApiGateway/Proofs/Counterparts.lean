import ApiGateway.Proofs.RelatedTables
import ApiGateway.Proofs.SetupCalls

/-!
# Applications with other handlers

Which handlers an application is given makes no difference to how it is set up, as long
as the same ids are known: the same calls succeed, the same operations are registered
under the same ids, and requests are routed alike.

Main definitions:

- `Resolver.SameIds`: resolvers that know the same ids.
- `Invoker.Counterpart`, `Api.Counterpart`, `App.Counterpart`: what differs only in handlers.
- `SetupCall.Counterpart`: calls that differ only in handlers.

Main results:

- `Api.Counterpart.addOperation`, `App.Counterpart.addApi`: registering and mounting succeed
  alike and leave counterparts.
- `App.counterpart_setUp`: counterparts of calls set up counterparts.
- `App.Counterpart.routing`: counterparts route requests alike.
-/

namespace ApiGateway

variable {E : Signature}

/-! ## Handlers and tables -/

/-- Both resolvers have a handler for the same ids. -/
def Resolver.SameIds (handlers handlers' : Resolver E) : Prop :=
  Registry.Rel (fun _ _ => True) handlers handlers'

/-- Registering any two handlers under one id keeps the known ids the same. -/
theorem Resolver.SameIds.insert {handlers handlers' : Resolver E}
    (h : Resolver.SameIds handlers handlers') (id : Bytes) (handler handler' : OperationHandler E) :
    Resolver.SameIds (handlers.insert id handler) (handlers'.insert id handler') :=
  Registry.Rel.insert h id trivial

/-- The same operation, bound in the same way, with any handler. -/
def Invoker.Counterpart (inv inv' : Invoker E) : Prop :=
  ∃ handler, inv' = { inv with handler := handler }

/-- The same API with other handlers for the same ids. -/
inductive Api.Counterpart (api : Api E) : Api E → Prop where
  | mk {handlers : Resolver E} {operations : Registry (Invoker E)}
      (hhandlers : Resolver.SameIds api.handlers handlers)
      (hoperations : Registry.Rel Invoker.Counterpart api.operations operations) :
      Counterpart api { api with handlers := handlers, operations := operations }

/-- The same application with other handlers for the same ids. -/
inductive App.Counterpart (app : App E) : App E → Prop where
  | mk {apis : List (Api E)} (h : List.Forall₂ Api.Counterpart app.apis apis) :
      Counterpart app { app with apis := apis }

/-- The same call, possibly with other handlers for the same ids. -/
inductive SetupCall.Counterpart : SetupCall E → SetupCall E → Prop where
  | same (call : SetupCall E) : Counterpart call call
  | addApi (spec : Specification) {handlers handlers' : Resolver E} (options : ApiOptions)
      (h : Resolver.SameIds handlers handlers') :
      Counterpart (.addApi spec handlers options) (.addApi spec handlers' options)

/-! ## Registering operations -/

namespace Api.Counterpart

variable {api api' : Api E}

/-- Both APIs have a handler for an operation, or neither has. -/
theorem handlerFor (h : api.Counterpart api') (op : OperationSpec) :
    (∃ e, api.handlerFor op = .error e ∧ api'.handlerFor op = .error e) ∨
      ∃ handler handler' log, api.handlerFor op = .ok (handler, log) ∧
        api'.handlerFor op = .ok (handler', log) := by
  cases h with
  | @mk handlers operations hhandlers hoperations =>
      have hid := hhandlers op.operationId
      unfold Api.handlerFor
      dsimp only
      generalize api.handlers.find? op.operationId = found at hid ⊢
      generalize handlers.find? op.operationId = found' at hid ⊢
      cases hid with
      | some => exact .inr ⟨_, _, _, rfl, rfl⟩
      | none =>
          cases api.options.stubStatus with
          | none => exact .inl ⟨_, rfl, rfl⟩
          | some status => exact .inr ⟨_, _, _, rfl, rfl⟩

/-- Registering an operation succeeds or fails alike, and leaves counterparts. -/
theorem addOperation (h : api.Counterpart api') (path : Bytes) (method : Http.Method) :
    (api.addOperation path method).value.Counterpart (api'.addOperation path method).value ∧
      (api'.addOperation path method).failure = (api.addOperation path method).failure := by
  have hhandler := h.handlerFor
  cases h with
  | @mk handlers operations hhandlers hoperations =>
      unfold Api.addOperation
      dsimp only at hhandler ⊢
      cases api.spec.find? path method with
      | none => exact ⟨.mk hhandlers hoperations, rfl⟩
      | some op =>
          dsimp only
          by_cases hid : op.operationId.isEmpty
          · rw [if_pos hid, if_pos hid]
            exact ⟨.mk hhandlers hoperations, rfl⟩
          · rw [if_neg hid, if_neg hid]
            rcases hhandler op with ⟨e, he, he'⟩ | ⟨handler, handler', log, hfound, hfound'⟩
            · rw [he, he']
              exact ⟨.mk hhandlers hoperations, rfl⟩
            · have hinserted : Registry.Rel Invoker.Counterpart
                  (api.operations.insert op.operationId (api.invokerFor op handler))
                  (operations.insert op.operationId (api.invokerFor op handler')) :=
                hoperations.insert op.operationId ⟨handler', rfl⟩
              rw [hfound, hfound']
              dsimp only
              cases api.routing.add op.method op.path op.operationId with
              | error e => exact ⟨.mk hhandlers hinserted, rfl⟩
              | ok routing => exact ⟨.mk hhandlers hinserted, rfl⟩

/-- Registering operations succeeds or fails alike, and leaves counterparts. -/
theorem addOperations (h : api.Counterpart api') (ops : List OperationSpec) :
    (api.addOperations ops).value.Counterpart (api'.addOperations ops).value ∧
      (api'.addOperations ops).failure = (api.addOperations ops).failure := by
  induction ops generalizing api api' with
  | nil => exact ⟨h, rfl⟩
  | cons op rest ih =>
      rcases h.addOperation op.path op.method with ⟨hvalue, hfailure⟩
      rw [Api.addOperations, Api.addOperations]
      dsimp only
      rw [hfailure]
      cases hfirst : (api.addOperation op.path op.method).failure with
      | some e => exact ⟨hvalue, hfailure⟩
      | none => exact ih hvalue

end Api.Counterpart

/-- Setting up an API with other handlers succeeds or fails alike, and leaves counterparts. -/
theorem Api.counterpart_create {handlers handlers' : Resolver E}
    (h : Resolver.SameIds handlers handlers') (spec : Specification) (options : ApiOptions) :
    (create spec handlers options).value.Counterpart (create spec handlers' options).value ∧
      (create spec handlers' options).failure = (create spec handlers options).failure := by
  have hblank : (blank spec handlers options).Counterpart (blank spec handlers' options) :=
    .mk h fun _ => .none
  rcases create_eq spec handlers options with ⟨hvalue, hfailure⟩
  rcases create_eq spec handlers' options with ⟨hvalue', hfailure'⟩
  rw [hvalue, hvalue', hfailure, hfailure']
  exact hblank.addOperations spec.operations

/-- A manual route is added to both counterparts, or to neither. -/
theorem Api.Counterpart.addRoute {api api' : Api E} (h : api.Counterpart api')
    (methods : List Http.Method) (path : Bytes) (handler : RouteHandler E) :
    ((api.addRoute methods path handler).toOption.getD api).Counterpart
      ((api'.addRoute methods path handler).toOption.getD api') := by
  cases h with
  | @mk handlers operations hhandlers hoperations =>
      unfold Api.addRoute
      dsimp only
      cases api.routes.add methods path handler [] with
      | error e => exact .mk hhandlers hoperations
      | ok routes => exact .mk hhandlers hoperations

/-! ## Setting up applications -/

/-- Counterparts have the same base path. -/
theorem Api.Counterpart.basePath {api api' : Api E} (h : api.Counterpart api') :
    api'.basePath = api.basePath := by
  cases h
  rfl

namespace App.Counterpart

variable {app app' : App E}

/-- The APIs of counterparts are counterparts one by one. -/
theorem apis (h : app.Counterpart app') : List.Forall₂ Api.Counterpart app.apis app'.apis := by
  cases h with
  | mk h => exact h

/-- At a base path both applications have an API, and these are counterparts, or neither has. -/
theorem findApi? (h : app.Counterpart app') (base : Bytes) :
    Option.Rel Api.Counterpart (app.findApi? base) (app'.findApi? base) := by
  have hapis := h.apis
  unfold App.findApi?
  generalize app.apis = apis at hapis ⊢
  generalize app'.apis = apis' at hapis ⊢
  induction hapis with
  | nil => exact .none
  | @cons api api' _ _ hapi _ ih =>
      rw [List.find?_cons, List.find?_cons, hapi.basePath]
      cases api.basePath == base with
      | true => exact .some hapi
      | false => exact ih

/-- Replacing APIs by counterparts leaves counterparts. -/
theorem updateApi (h : app.Counterpart app') {api api' : Api E} (hapi : api.Counterpart api') :
    (app.updateApi api).Counterpart (app'.updateApi api') := by
  cases h with
  | mk h =>
      refine .mk (List.rel_map ?_ h)
      intro other other' hother
      dsimp only
      rw [hother.basePath, hapi.basePath]
      split
      · exact hapi
      · exact hother

/-- Mounting an API with other handlers succeeds or fails alike, and leaves counterparts. -/
theorem addApi (h : app.Counterpart app') {handlers handlers' : Resolver E}
    (hhandlers : Resolver.SameIds handlers handlers') (spec : Specification)
    (options : ApiOptions) :
    (app.addApi spec handlers options).value.Counterpart
        (app'.addApi spec handlers' options).value ∧
      (app'.addApi spec handlers' options).failure =
        (app.addApi spec handlers options).failure := by
  have hfound := h.findApi? (options.basePathFor spec)
  rcases Api.counterpart_create hhandlers spec
    { options with basePath := some (options.basePathFor spec) } with ⟨hcreate, hfailure⟩
  unfold App.addApi
  dsimp only
  rw [hfailure]
  generalize app.findApi? (options.basePathFor spec) = found at hfound ⊢
  generalize app'.findApi? (options.basePathFor spec) = found' at hfound ⊢
  cases hfound with
  | some => exact ⟨h, rfl⟩
  | none =>
      rw [Option.isSome_none, if_neg Bool.false_ne_true, if_neg Bool.false_ne_true]
      cases (Api.create spec handlers
          { options with basePath := some (options.basePathFor spec) }).failure with
      | some e => exact ⟨h, rfl⟩
      | none =>
          cases h with
          | mk h => exact ⟨.mk (List.rel_append h (.cons hcreate .nil)), rfl⟩

/-- A manual route of the application is added to both counterparts, or to neither. -/
theorem addRoute (h : app.Counterpart app') (methods : List Http.Method) (path : Bytes)
    (handler : RouteHandler E) :
    ((app.addRoute methods path handler).toOption.getD app).Counterpart
      ((app'.addRoute methods path handler).toOption.getD app') := by
  cases h with
  | mk h =>
      unfold App.addRoute
      dsimp only
      cases app.routes.add methods path handler [] with
      | error e => exact .mk h
      | ok routes => exact .mk h

/-- Counterparts of a call leave counterparts. -/
theorem perform (h : app.Counterpart app') {call call' : SetupCall E}
    (hcall : call.Counterpart call') : (app.perform call).Counterpart (app'.perform call') := by
  cases hcall with
  | addApi spec options hhandlers => exact (h.addApi hhandlers spec options).1
  | same =>
      cases call with
      | addApi spec handlers options =>
          exact (h.addApi (Registry.Rel.refl (fun _ => trivial) handlers) spec options).1
      | addRoute methods path handler => exact h.addRoute methods path handler
      | observe observed =>
          cases h with
          | mk h => exact .mk h
      | addApiOperation base path method =>
          have hfound := h.findApi? base
          unfold App.perform
          dsimp only
          generalize app.findApi? base = found at hfound ⊢
          generalize app'.findApi? base = found' at hfound ⊢
          cases hfound with
          | none => exact h
          | some hapi => exact h.updateApi (hapi.addOperation path method).1
      | addApiRoute base methods path handler =>
          have hfound := h.findApi? base
          unfold App.perform
          dsimp only
          generalize app.findApi? base = found at hfound ⊢
          generalize app'.findApi? base = found' at hfound ⊢
          cases hfound with
          | none => exact h
          | some hapi => exact h.updateApi (hapi.addRoute methods path handler)

/-- Both applications have an observer, or neither has. -/
theorem observed (h : app.Counterpart app') : app'.observed = app.observed := by
  cases h
  rfl

/-- Requests are routed alike. -/
theorem routing (h : app.Counterpart app') :
    app'.apis.map Api.routing = app.apis.map Api.routing := by
  rw [← List.forall₂_eq_eq_eq]
  refine List.Forall₂.flip (List.rel_map ?_ h.apis)
  intro api api' hapi
  cases hapi
  rfl

end App.Counterpart

/-- Counterparts of calls set up counterparts. -/
theorem App.counterpart_setUp {calls calls' : List (SetupCall E)}
    (h : List.Forall₂ SetupCall.Counterpart calls calls') :
    (App.setUp calls).Counterpart (App.setUp calls') := by
  refine List.rel_foldl ?_ (.mk .nil) h
  intro app app' happ call call' hcall
  exact happ.perform hcall

end ApiGateway
