import ApiGateway.Proofs.AlikeRuns
import ApiGateway.Proofs.RelatedTables

/-!
# Fault details stay inside

Applications are alike if their tables agree and their handlers and binders differ only
in faults that are alike.  Every layer of the gateway keeps programs alike: binding,
reading the body, the handler, responding, both dispatchers and routing.  Under hosts
that are alike two such applications hand over the same messages, so nothing that a
fault says beyond its code reaches a client.

Main definitions:

- `Invoker.Alike`, `Route.Alike`, `Api.Alike`, `App.Alike`: what differs only in faults.

Main results:

- `Dispatcher.Alike.serve`: dispatchers over alike tables are alike.
- `App.Alike.dispatch`: so are applications before their faults are rendered.
- `App.alike_self`: one application under two hosts is a case of this.
- `App.fault_details_stay_inside`: alike applications hand over the same messages.
-/

namespace ApiGateway

variable {E : Signature} {σ τ : Type}

/-! ## Operations -/

/-- Both binders bind the same, or fail with faults that are alike. -/
inductive Binding.Alike : Binding → Binding → Prop where
  | bound (args : Arguments) : Binding.Alike ⟨args, none⟩ ⟨args, none⟩
  | failed (args args' : Arguments) {e e' : Fault} (h : e.Alike e') :
      Binding.Alike ⟨args, some e⟩ ⟨args', some e'⟩

/-- Every binding is alike to itself. -/
theorem Binding.Alike.refl (binding : Binding) : binding.Alike binding := by
  rcases binding with ⟨args, failure⟩
  cases failure with
  | none => exact .bound args
  | some e => exact .failed args args (.same e)

/-- Binders that differ only in faults that are alike. -/
def Binder.Alike (binder binder' : Binder) : Prop :=
  ∀ op sc identifiers args,
    (binder op sc identifiers args).Alike (binder' op sc identifiers args)

/-- Handlers that differ only in faults that are alike. -/
def OperationHandler.Alike (handler handler' : OperationHandler E) : Prop :=
  ∀ args, (handler.program args).Alike E.sameAnswers HandlerResult.Alike (handler'.program args)

/-- Invokers of the same operation that differ only in faults that are alike. -/
structure Invoker.Alike (inv inv' : Invoker E) : Prop where
  operation : inv.operation = inv'.operation
  identifiers : inv.identifiers = inv'.identifiers
  binder : Option.Rel Binder.Alike inv.binder inv'.binder
  handler : inv.handler.Alike inv'.handler

namespace Invoker.Alike

variable {inv inv' : Invoker E}

/-- Every invoker is alike to itself. -/
theorem refl (inv : Invoker E) : inv.Alike inv where
  operation := rfl
  identifiers := rfl
  binder := by
    cases inv.binder with
    | none => exact .none
    | some binder => exact .some fun op sc identifiers args => Binding.Alike.refl _
  handler := fun _ => Prog.Alike.refl HandlerResult.Alike.same _

/-- The bindings of a request are alike. -/
theorem bindParameters (h : inv.Alike inv') (sc : Scope) :
    (inv.bindParameters sc).Alike (inv'.bindParameters sc) := by
  have hbinder := h.binder
  unfold Invoker.bindParameters
  rw [h.operation, h.identifiers]
  generalize inv.binder = binder at hbinder ⊢
  generalize inv'.binder = binder' at hbinder ⊢
  cases hbinder with
  | none => exact .bound _
  | some hbinder => exact hbinder _ _ _ _

/-- The arguments of a call are gathered alike. -/
theorem arguments (h : inv.Alike inv') (sc : Scope) :
    (inv.arguments sc).Alike (Exchange.answersAlike E) Eq (inv'.arguments sc) := by
  have hbinding := h.bindParameters sc
  unfold Invoker.arguments
  rw [h.operation]
  generalize inv.bindParameters sc = binding at hbinding ⊢
  generalize inv'.bindParameters sc = binding' at hbinding ⊢
  cases hbinding with
  | failed args args' h => exact .fault h
  | bound args =>
      dsimp only
      split
      · apply Prog.Alike.bind Prog.Alike.receiveBody
        rintro body _ rfl
        exact .done rfl
      · exact .done rfl

/-- Invocations are alike. -/
theorem invoke (h : inv.Alike inv') (sc : Scope) :
    (inv.invoke sc).Alike (Exchange.answersAlike E) HandlerResult.Alike (inv'.invoke sc) := by
  apply Prog.Alike.bind (h.arguments sc)
  rintro args _ rfl
  exact (h.handler args).embed_effects

end Invoker.Alike

/-- Responses that are alike have the same canonical form. -/
theorem Native.Alike.toCanonical {res res' : Native} (h : res.Alike res')
    (mediaType : Option Bytes) : res.toCanonical mediaType = res'.toCanonical mediaType := by
  cases h with
  | same => rfl
  | stream head h => rfl

/-- Responding to a native response, after observing it where there is an observer. -/
theorem Native.Alike.respond {res res' : Native} (h : res.Alike res') (observed : Bool)
    (mediaType : Option Bytes) :
    (if observed then
        (Exchange.observe (res.toCanonical mediaType)).bind fun _ => res.send
      else res.send : Prog (Exchange E) Unit).Alike (Exchange.answersAlike E) Eq
      (if observed then
        (Exchange.observe (res'.toCanonical mediaType)).bind fun _ => res'.send
      else res'.send) := by
  by_cases hobserved : observed
  · rw [if_pos hobserved, if_pos hobserved, h.toCanonical]
    exact Prog.Alike.bind (Prog.Alike.observe _) fun _ _ _ => h.send
  · rw [if_neg hobserved, if_neg hobserved]
    exact h.send

/-- Responding to results that are alike. -/
theorem HandlerResult.Alike.respond {result result' : HandlerResult} (h : result.Alike result')
    (observed : Bool) (mediaType : Option Bytes) :
    (Dispatcher.respond observed mediaType result : Prog (Exchange E) Unit).Alike
      (Exchange.answersAlike E) Eq (Dispatcher.respond observed mediaType result') := by
  cases h with
  | native h =>
      exact Prog.Alike.bind (Prog.Alike.logAll _) fun _ _ _ => h.respond observed mediaType
  | same =>
      refine Prog.Alike.bind (Prog.Alike.logAll _) fun _ _ _ => ?_
      cases result.toNative mediaType with
      | error e => exact .fault (.same e)
      | ok res => exact (Native.Alike.same res).respond observed mediaType

/-! ## Manual routes -/

/--
Routes with the same method and template whose handlers differ only in alike faults.  A handler
that catches a fault of the body goes on alike after faults that are alike.
-/
structure Route.Alike (route route' : Route E) : Prop where
  method : route.method = route'.method
  pattern : route.pattern = route'.pattern
  handler : ∀ ctx, (route.handler ctx).Alike (RouteEffects.answersAlike E) Native.Alike
    (route'.handler ctx)

/-- Endpoints whose programs are alike. -/
def Endpoint.Alike (endpoint endpoint' : Endpoint E) : Prop :=
  ∀ sc, (endpoint sc).Alike (Exchange.answersAlike E) Eq (endpoint' sc)

/-- Tables of routes that are alike one by one. -/
def RouteTable.Alike (table table' : RouteTable E) : Prop :=
  List.Forall₂ Route.Alike table.routes table'.routes

/-- Tables of alike routes answer alike. -/
theorem RouteTable.Alike.serve {table table' : RouteTable E} (h : table.Alike table') :
    Endpoint.Alike table.serve table'.serve := by
  intro sc
  have hlookup := RouteTable.lookup_rel (fun _ _ hroute => ⟨hroute.method, hroute.pattern⟩) h
    sc.request.method sc.relativePath
  unfold RouteTable.serve
  generalize table.lookup sc.request.method sc.relativePath = found at hlookup ⊢
  generalize table'.lookup sc.request.method sc.relativePath = found' at hlookup ⊢
  cases hlookup with
  | found hroute params allowed =>
      exact Prog.Alike.bind ((hroute.handler _).serve_route none) fun _ _ hres => hres.send
  | methodNotAllowed allowed => exact (Native.Alike.same _).send
  | notFound => exact (Native.Alike.same _).send

/-! ## Dispatchers -/

/-- Dispatchers over tables that are alike. -/
structure Dispatcher.Alike (d d' : Dispatcher E) : Prop where
  ownBasePath : d.ownBasePath = d'.ownBasePath
  operations : Registry.Rel Invoker.Alike d.operations d'.operations
  fallback : Endpoint.Alike d.fallback d'.fallback
  subApps : Registry.Rel Endpoint.Alike d.subApps d'.subApps
  observed : d.observed = d'.observed

namespace Dispatcher.Alike

variable {d d' : Dispatcher E}

/-- Requests are delegated to APIs that are alike, or by neither dispatcher. -/
theorem subApp? (h : d.Alike d') (routing : Routing) :
    Option.Rel Endpoint.Alike (d.subApp? routing) (d'.subApp? routing) := by
  unfold Dispatcher.subApp?
  cases routing.apiBasePath with
  | none => exact .none
  | some base =>
      dsimp only
      rw [h.ownBasePath]
      by_cases hown : d'.ownBasePath = some base
      · rw [if_pos hown, if_pos hown]
        exact .none
      · rw [if_neg hown, if_neg hown]
        exact h.subApps base

/-- Dispatchers over tables that are alike answer alike. -/
theorem serve (h : d.Alike d') : Endpoint.Alike d.serve d'.serve := by
  intro sc
  unfold Dispatcher.serve Dispatcher.branch
  cases sc.routing with
  | none => exact .fault (.same _)
  | some routing =>
      have hsub := h.subApp? routing
      dsimp only
      generalize d.subApp? routing = subApp at hsub ⊢
      generalize d'.subApp? routing = subApp' at hsub ⊢
      cases hsub with
      | some hsub => exact hsub sc
      | none =>
          cases routing.operationId with
          | none => exact h.fallback sc
          | some id =>
              have hoperation := h.operations id
              dsimp only
              generalize d.operations.find? id = inv at hoperation ⊢
              generalize d'.operations.find? id = inv' at hoperation ⊢
              cases hoperation with
              | none => exact .fault (.same _)
              | @some inv inv' hinv =>
                  have hmediaType : inv.mediaType = inv'.mediaType := by
                    rw [Invoker.mediaType, Invoker.mediaType, hinv.operation]
                  dsimp only
                  rw [h.observed, hmediaType]
                  exact Prog.Alike.bind (hinv.invoke sc) fun _ _ hresult => hresult.respond _ _

end Dispatcher.Alike

/-! ## Applications -/

/-- APIs with the same routing list whose handlers differ only in alike faults. -/
structure Api.Alike (api api' : Api E) : Prop where
  basePath : api.basePath = api'.basePath
  routing : api.routing = api'.routing
  operations : Registry.Rel Invoker.Alike api.operations api'.operations
  routes : api.routes.Alike api'.routes

/-- Applications whose handlers differ only in alike faults. -/
structure App.Alike (app app' : App E) : Prop where
  observed : app.observed = app'.observed
  routes : app.routes.Alike app'.routes
  apis : List.Forall₂ Api.Alike app.apis app'.apis

/-- APIs that are alike answer alike. -/
theorem Api.Alike.serve {api api' : Api E} (h : api.Alike api') (observed : Bool) :
    Endpoint.Alike (api.serve observed) (api'.serve observed) :=
  Dispatcher.Alike.serve
    { ownBasePath := congrArg some h.basePath
      operations := h.operations
      fallback := h.routes.serve
      subApps := fun _ => .none
      observed := rfl }

namespace App

/-- The routing lists of alike applications are equal. -/
theorem Alike.routing {app app' : App E} (h : app.Alike app') :
    app.apis.map Api.routing = app'.apis.map Api.routing := by
  rw [← List.forall₂_eq_eq_eq]
  exact List.rel_map (fun _ _ hapi => hapi.routing) h.apis

/-- Applications that are alike answer alike before their faults are rendered. -/
theorem Alike.dispatch {app app' : App E} (h : app.Alike app') :
    Endpoint.Alike app.dispatch app'.dispatch := by
  refine Dispatcher.Alike.serve ⟨rfl, fun _ => .none, h.routes.serve, ?_, h.observed⟩
  refine Registry.rel_ofList (List.rel_map ?_ h.apis)
  intro api api' hapi
  rw [h.observed]
  exact ⟨hapi.basePath, hapi.serve _⟩

/-- An application is alike to itself if the handlers of its manual routes are. -/
theorem alike_self {app : App E}
    (hown : ∀ route ∈ app.routes.routes, route.Alike route)
    (hroutes : ∀ api ∈ app.apis, ∀ route ∈ api.routes.routes, route.Alike route) :
    app.Alike app where
  observed := rfl
  routes := List.forall₂_same.2 hown
  apis := by
    apply List.forall₂_same.2
    intro api hapi
    exact ⟨rfl, rfl, Registry.Rel.refl Invoker.Alike.refl _,
      List.forall₂_same.2 (hroutes api hapi)⟩

/--
In two runs that differ only in faults that are alike the same messages are handed over.  The
faults may come from handlers, binders, observers, bodies and streams, at once or in a later step.
-/
theorem fault_details_stay_inside {app app' : App E} (happ : app.Alike app')
    {R : σ → τ → Prop} {host : Host (Exchange E) σ} {host' : Host (Exchange E) τ}
    (hhost : Host.Alike R host host') (sc : Scope) {s : σ} {t : τ} (hstate : R s t) :
    Event.messages ((app.serve sc).transcript host s) =
      Event.messages ((app'.serve sc).transcript host' t) := by
  refine Rendering.messages_guarded ?_ hhost hstate
  unfold Routing.middleware
  rw [happ.routing]
  exact .call _ fun _ _ _ => happ.dispatch _

end App

/-! ## Samples -/

namespace Sample

/-- An application with one manual route, whose handler fails in a later step. -/
def failing (e : Fault) : App Signature.empty where
  routes := ⟨[⟨.get, ⟨[47], []⟩, fun _ => .suspend (.fault e), []⟩]⟩

/-- An operation that reads the body of `POST /`. -/
def upload : OperationSpec :=
  { path := [47], method := .post, operationId := [97], hasRequestBody := true }

/-- An application with that operation. -/
def reading : App Signature.empty :=
  (({} : App Signature.empty).addApi { operations := [upload] } Registry.empty
    { stubStatus := some 501 }).value

/-- A host that accepts every message and fails to deliver the body. -/
def bodyless (e : Fault) : Host (Exchange Signature.empty) Unit where
  answer op s :=
    match op with
    | .send _ => (.ok (), s)
    | .receiveBody => (.error e, s)
    | .log _ => ((), s)
    | .observe _ => (.ok (), s)
    | .readFile _ => (none, s)
    | .enter _ => ((), s)

theorem alike_failing {e e' : Fault} (h : e.Alike e') : (failing e).Alike (failing e') where
  observed := rfl
  routes := .cons ⟨rfl, rfl, fun _ => .suspend (.fault h)⟩ .nil
  apis := .nil

theorem alike_bodyless {e e' : Fault} (h : e.Alike e') :
    Host.Alike (fun _ _ => True) (bodyless e) (bodyless e') where
  answer op _ _ _ := by
    cases op with
    | send message => exact ⟨.ok rfl, trivial⟩
    | receiveBody => exact ⟨.error h, trivial⟩
    | observe response => exact ⟨.ok rfl, trivial⟩
    | effect op => exact nomatch op
    | _ => exact ⟨rfl, trivial⟩
  log _ _ _ _ _ := trivial

/-- A handler that fails and a body that cannot be read, each in two ways. -/
theorem messages_failing_reading :
    let get : Scope := { request := { method := .get, target := [47] } }
    let post : Scope := { request := { method := .post, target := [47] } }
    let internal : Fault := .runtime [115, 101, 99, 114, 101, 116]
    let system : Fault := .coded .system ⟨5⟩ none
    let missing : Fault := .coded .gateway .fileNotFound (some [47, 101, 116, 99])
    Event.messages (((failing internal).serve get).transcript (bodyless missing) ()) =
        Event.messages (((failing system).serve get).transcript (bodyless missing) ()) ∧
      Event.messages ((reading.serve post).transcript (bodyless missing) ()) =
        Event.messages
          ((reading.serve post).transcript (bodyless (.coded .gateway .fileNotFound none)) ()) := by
  intro get post internal system missing
  have hinternal : internal.Alike system := .internal trivial trivial
  have hmissing : missing.Alike (.coded .gateway .fileNotFound none) := .coded _ _ _
  have hself : reading.Alike reading := by
    refine App.alike_self nofun ?_
    intro api hapi route hroute
    rw [List.mem_singleton.1 hapi] at hroute
    cases hroute
  constructor
  · exact App.fault_details_stay_inside (alike_failing hinternal) (alike_bodyless (.same missing))
      get trivial
  · exact App.fault_details_stay_inside hself (alike_bodyless hmissing) post trivial

end Sample
end ApiGateway
