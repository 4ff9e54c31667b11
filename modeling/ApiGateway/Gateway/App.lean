import ApiGateway.Gateway.Api
import ApiGateway.Gateway.ErrorRendering

/-!
# The gateway application

An application mounts APIs, registers manual routes of its own and may have an
observer.  A request passes error rendering, routing and dispatch in this order.

Main definitions:

- `App.addApi`, `App.addRoute`, `App.observe`: setting up an application.
- `App.serve`: the whole application as an endpoint.
- `App.dispatch`: its dispatcher alone, for requests that are routed already.
-/

namespace ApiGateway

/-- A gateway application. -/
structure App (E : Signature) where
  /-- Whether there is an observer of operation responses. -/
  observed : Bool := false
  routes : RouteTable E := RouteTable.empty
  /-- The mounted APIs in the order of mounting; their base paths differ. -/
  apis : List (Api E) := []

namespace App

variable {E : Signature}

/-- The mounted API with exactly that base path. -/
def findApi? (app : App E) (basePath : Bytes) : Option (Api E) :=
  app.apis.find? fun api => api.basePath == basePath

/-- There is an API at that base path. -/
def alreadyMounted (basePath : Bytes) : Fault :=
  .invalidArgument <|
    Bytes.ofString "an API is already mounted at '" ++ basePath ++ Bytes.ofString "'"

/-- Sets up an API and mounts it; after a fault nothing is mounted. -/
def addApi (app : App E) (spec : Specification) (handlers : Resolver E) (options : ApiOptions) :
    Registration (App E) :=
  let basePath := options.basePathFor spec
  if (app.findApi? basePath).isSome then
    { value := app, failure := some (alreadyMounted basePath) }
  else
    let registration := Api.create spec handlers { options with basePath := some basePath }
    match registration.failure with
    | some e => { value := app, log := registration.log, failure := some e }
    | none =>
      { value := { app with apis := app.apis ++ [registration.value] }, log := registration.log }

/-- Replaces a mounted API, found by its base path. -/
def updateApi (app : App E) (api : Api E) : App E :=
  { app with
    apis := app.apis.map fun other => if other.basePath = api.basePath then api else other }

/-- Registers a manual route. -/
def addRoute (app : App E) (methods : List Http.Method) (path : Bytes)
    (handler : RouteHandler E) : Except Fault (App E) :=
  (app.routes.add methods path handler []).map fun routes => { app with routes }

/-- Installs or removes the observer. -/
def observe (app : App E) (observed : Bool) : App E :=
  { app with observed }

/-- The mounted APIs as endpoints by base path. -/
def subApps (app : App E) : Registry (Endpoint E) :=
  Registry.ofList (app.apis.map fun api => (api.basePath, api.serve app.observed))

/-- The dispatcher over the mounted APIs and the routes of the application. -/
def dispatcher (app : App E) : Dispatcher E where
  ownBasePath := none
  operations := Registry.empty
  fallback := app.routes.serve
  subApps := app.subApps
  observed := app.observed

/-- Dispatches a request that is routed already. -/
def dispatch (app : App E) : Endpoint E :=
  app.dispatcher.serve

/-- Answers a request. -/
def serve (app : App E) : Endpoint E :=
  Rendering.middleware (Routing.middleware (app.apis.map Api.routing) app.dispatch)

end App
end ApiGateway
