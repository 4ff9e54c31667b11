import ApiGateway.Gateway.App
import ApiGateway.Proofs.RelatedTables
import ApiGateway.Proofs.Rendering
import ApiGateway.Proofs.Watching

/-!
# Watched applications

In a watched application every handler announces itself before it starts, the handlers
of operations by base path and id, those of manual routes by base path and template.
Announcements pass error rendering and the body of a request as any other operation of
a handler does.

Main definitions:

- `Handling`: who handles a request.
- `RouteTable.announcing`, `Api.watched`, `App.watched`: handlers that announce themselves.

Main results:

- `Rendering.unwatch_guarded`, `Rendering.callees_guarded`: announcements under error
  rendering.
- `RouteTable.unwatch_serve_announcing`, `RouteTable.callees_serve_announcing`: who is called
  by a table of manual routes.
-/

namespace ApiGateway

variable {E F : Signature} {C σ α : Type}

/-! ## Error rendering -/

namespace Rendering

/-- Answering a fault calls nobody. -/
theorem answer_eq_watch (e : Fault) :
    (answer e : Prog (Exchange (Watched C E)) Unit) = (answer e).watch := by
  unfold answer
  cases of? e with
  | none => rfl
  | some r => exact congrArg (Prog.call _) (funext fun _ => (Exchange.embed_native _ _).symm)

/-- Faults are answered the same before and after the announcements are erased. -/
theorem unwatch_guarded (started : Bool) (p : Prog (Exchange (Watched C E)) Unit) :
    (guarded started p).unwatch = guarded started p.unwatch := by
  induction p generalizing started with
  | done a => rfl
  | fault e =>
      cases started with
      | true => rfl
      | false =>
          change (answer e).unwatch = answer e
          rw [answer_eq_watch, Prog.unwatch_watch]
  | suspend rest ih => exact congrArg Prog.suspend (ih started)
  | call op next ih =>
      cases op with
      | effect op =>
          cases op with
          | announce callee =>
              change (guarded (started || false) (next ())).unwatch = guarded started _
              rw [Bool.or_false]
              exact ih () started
          | own op => exact congrArg (Prog.call _) (funext fun a => ih a _)
      | _ => exact congrArg (Prog.call _) (funext fun a => ih a _)

/-- Error rendering adds no calls. -/
theorem callees_guarded (started : Bool) (p : Prog (Exchange (Watched C E)) Unit)
    (host : Host (Exchange (Watched C E)) σ) (s : σ) :
    Event.callees ((guarded started p).transcript host s) =
      Event.callees (p.transcript host s) := by
  rw [transcript_guarded, Event.callees_append]
  by_cases hrendered : isRendered started p host s
  · rw [if_pos hrendered]
    cases (p.run host s).outcome with
    | ok _ => exact List.append_nil _
    | error e =>
        dsimp only
        rw [answer_eq_watch, Prog.callees_watch, List.append_nil]
  · rw [if_neg hrendered, Event.callees_nil, List.append_nil]

end Rendering

/-! ## Manual routes -/

/-- The operations of a route handler over `E` are among those over `F`. -/
def Embedding.routeEffects (e : Embedding E F) : Embedding (RouteEffects E) (RouteEffects F) where
  op
    | .body => .body
    | .effect op => .effect (e.op op)
  answer
    | .body, a => a
    | .effect op, a => e.answer op a

/-- The operations of a route handler are carried over before or after it is served. -/
theorem RouteContext.serve_embed (e : Embedding E F) (kept : Option Bytes)
    (p : Prog (RouteEffects E) α) :
    serve kept (p.embed e.routeEffects) = (serve kept p).embed e.exchange := by
  induction p generalizing kept with
  | done a => rfl
  | fault fault => rfl
  | suspend rest ih => exact congrArg Prog.suspend (ih kept)
  | call op next ih =>
      cases op with
      | effect op => exact congrArg (Prog.call _) (funext fun a => ih _ kept)
      | body =>
          cases kept with
          | some bytes => exact ih _ _
          | none => exact congrArg (Prog.call _) (funext fun received => ih received _)

namespace Route

/-- The route whose handler announces itself with the parameters of the request. -/
def announcing (route : Route E) (callee : Params → C) : Route (Watched C E) where
  method := route.method
  pattern := route.pattern
  handler := fun ctx =>
    .call (.effect (.announce (callee ctx.params))) fun _ =>
      (route.handler ctx).embed (Embedding.own C E).routeEffects
  name := route.name

/-- A served route announces its handler first. -/
theorem serve_announcing (route : Route E) (callee : Params → C) (ctx : RouteContext) :
    RouteContext.serve none ((route.announcing callee).handler ctx) =
      (RouteContext.serve none (route.handler ctx)).announce (callee ctx.params) :=
  congrArg (Prog.call _) (funext fun _ => RouteContext.serve_embed _ none _)

end Route

namespace RouteTable

/-- The table whose handlers announce themselves. -/
def announcing (table : RouteTable E) (callee : Route E → Params → C) :
    RouteTable (Watched C E) :=
  ⟨table.routes.map fun route => route.announcing (callee route)⟩

variable (table : RouteTable E) (callee : Route E → Params → C)

/-- A request leads to the same route as before, which announces its handler now. -/
theorem lookup_announcing (method : Http.Method) (path : Bytes) :
    Lookup.Rel (fun route route' => route' = route.announcing (callee route))
      (table.lookup method path) ((table.announcing callee).lookup method path) := by
  refine lookup_rel ?_ ?_ method path
  · rintro route _ rfl
    exact ⟨rfl, rfl⟩
  · unfold announcing
    rw [List.forall₂_map_right_iff]
    exact List.forall₂_same.2 fun route _ => rfl

/-- A table announces the handler of the route that is found, and nothing else. -/
theorem serve_announcing (sc : Scope) :
    (table.announcing callee).serve sc =
      match table.lookup sc.request.method sc.relativePath with
      | .found route params _ => (table.serve sc).announce (callee route params)
      | _ => (table.serve sc).watch := by
  have hlookup := lookup_announcing table callee sc.request.method sc.relativePath
  unfold serve
  generalize table.lookup sc.request.method sc.relativePath = found at hlookup ⊢
  generalize (table.announcing callee).lookup sc.request.method sc.relativePath = found'
    at hlookup ⊢
  cases hlookup with
  | @found route route' h params allowed =>
      have hsend : (Native.send : Native → Prog (Exchange (Watched C E)) Unit) =
          fun res => (res.send : Prog (Exchange E) Unit).watch :=
        funext fun res => (Exchange.embed_native _ res).symm
      dsimp only
      rw [h, Route.serve_announcing, hsend, Prog.announce_bind]
  | methodNotAllowed allowed => exact (Exchange.embed_native _ _).symm
  | notFound => exact (Exchange.embed_native _ _).symm

/-- Erasing the announcements gives back the table. -/
theorem unwatch_serve_announcing (sc : Scope) :
    ((table.announcing callee).serve sc).unwatch = table.serve sc := by
  rw [serve_announcing]
  split
  · exact Prog.unwatch_watch _
  · exact Prog.unwatch_watch _

/-- Exactly the handler of the route that is found is called. -/
theorem callees_serve_announcing (sc : Scope) (host : Host (Exchange (Watched C E)) σ) (s : σ) :
    Event.callees (((table.announcing callee).serve sc).transcript host s) =
      match table.lookup sc.request.method sc.relativePath with
      | .found route params _ => [callee route params]
      | _ => [] := by
  rw [serve_announcing]
  cases table.lookup sc.request.method sc.relativePath with
  | found route params allowed => exact Prog.callees_announce _ _ host s
  | methodNotAllowed allowed => exact Prog.callees_watch _ host s
  | notFound => exact Prog.callees_watch _ host s

end RouteTable

/-! ## Applications -/

/-- Who handles a request. -/
inductive Handling where
  /-- The handler of an operation of the API at a base path. -/
  | operation (base operationId : Bytes) (args : Arguments)
  /-- The handler of a manual route of the API at a base path, or of the application. -/
  | route (base : Option Bytes) (method : Http.Method) (template : Bytes) (params : Params)
deriving DecidableEq

namespace Handling

/-- The handler of a manual route. -/
def ofRoute (base : Option Bytes) (r : Route E) (params : Params) : Handling :=
  .route base r.method r.pattern.text params

end Handling

/-- The API whose handlers announce themselves. -/
def Api.watched (api : Api E) : Api (Watched Handling E) where
  spec := api.spec
  handlers := api.handlers.map fun id handler => handler.announcing (.operation api.basePath id)
  options := api.options
  basePath := api.basePath
  operations := api.operations.map fun id inv => inv.announcing (.operation api.basePath id)
  routes := api.routes.announcing (Handling.ofRoute (some api.basePath))
  routing := api.routing

namespace App

/-- The application whose handlers announce themselves. -/
def watched (app : App E) : App (Watched Handling E) where
  observed := app.observed
  routes := app.routes.announcing (Handling.ofRoute none)
  apis := app.apis.map Api.watched

/-- The APIs of a watched application are routed to as before. -/
theorem routing_watched (app : App E) :
    app.watched.apis.map Api.routing = app.apis.map Api.routing :=
  List.map_map

/-- The APIs of a watched application are mounted where they were. -/
theorem basePaths_watched (app : App E) :
    app.watched.apis.map Api.basePath = app.apis.map Api.basePath :=
  List.map_map

end App
end ApiGateway
