import ApiGateway.Proofs.PathParameters
import ApiGateway.Proofs.PostponedHandlers

/-!
# Manual routes of mounted APIs

A manual route that has been registered with a mounted API is there to stay, whatever is
called afterwards.  A request for its method and for an instance of its template finds it,
or a more specific route of the same table, if the request gets to that table at all.  It
does so if the API owns the path and has no operation for it.  An API without base path
owns nothing: there the request goes on to the routes of the application.

Main definitions:

- `Routing.Instantiates`: a path that is a template with text for its parameters.
- `App.HasRoute`: the API at a base path has a manual route.

Main results:

- `Routing.Pattern.exists_match?_of_instantiates`: a template matches its instances.
- `RouteTable.exists_lookup`: a table with a matching route finds one.
- `App.hasRoute_setUp`: a registered route stays.
- `App.manual_routes_are_reached`: requests for a manual route of a mounted API.
-/

namespace ApiGateway

variable {E : Signature} {σ : Type}

/-! ## Instances of templates -/

namespace Routing

/-- A text that stands where a template has the piece: any but the empty one for a parameter. -/
def Replaces (piece text : Bytes) : Prop :=
  match Segment.parse piece with
  | .ok (.parameter _) => text ≠ []
  | _ => text = piece

/-- The path is the template with text for its parameters, which has no slash between slashes. -/
def Instantiates (template path : Bytes) : Prop :=
  List.Forall₂ Replaces (Bytes.splitOn 47 template) (Bytes.splitOn 47 path)

/-- Nothing but a parameter is replaced. -/
theorem Replaces.eq_of_literal {piece text literal : Bytes} (h : Replaces piece text)
    (hpiece : Segment.parse piece = .ok (.literal literal)) : text = literal := by
  rw [Replaces, hpiece] at h
  rw [← Segment.eq_of_parse_literal hpiece]
  exact h

namespace Pattern

/-- What replaces a piece that has been read is not empty. -/
theorem ne_nil_of_replaces {piece text : Bytes} {segment : Segment} (hreads : Reads piece segment)
    (h : Replaces piece text) : text ≠ [] := by
  rcases hreads with ⟨hne, hsegment⟩
  cases segment with
  | literal literal =>
      rw [h.eq_of_literal hsegment, ← Segment.eq_of_parse_literal hsegment]
      exact hne
  | parameter name =>
      rw [Replaces, hsegment] at h
      exact h

/-- Segments match what replaces the pieces from which they have been read. -/
theorem exists_matchSegments {pieces texts : List Bytes} {segments : List Segment}
    (h : List.Forall₂ Replaces pieces texts)
    (hreads : List.Forall₂ Reads (pieces.filter fun piece => !piece.isEmpty) segments) :
    ∃ params, matchSegments segments (texts.filter fun text => !text.isEmpty) = some params := by
  induction h generalizing segments with
  | nil =>
      cases hreads
      exact ⟨[], rfl⟩
  | @cons piece text pieces texts hfirst _ ih =>
      cases piece with
      | nil =>
          rw [List.filter_cons_of_neg (by simp)] at hreads
          rw [hfirst.eq_of_literal rfl, List.filter_cons_of_neg (by simp)]
          exact ih hreads
      | cons c rest =>
          rw [List.filter_cons_of_pos rfl] at hreads
          cases hreads with
          | @cons _ segment _ segments hread hothers =>
              rcases ih hothers with ⟨params, hmatch⟩
              have hne := ne_nil_of_replaces hread hfirst
              rw [List.filter_cons_of_pos (by simpa using hne)]
              cases segment with
              | literal literal =>
                  refine ⟨params, ?_⟩
                  rw [hfirst.eq_of_literal hread.2, matchSegments, if_pos rfl, hmatch]
              | parameter name =>
                  refine ⟨(name, text) :: params, ?_⟩
                  rw [matchSegments, hmatch]
                  rfl

/-- A template matches its instances. -/
theorem exists_match?_of_instantiates {template path : Bytes} {p : Pattern}
    (hparse : parse template = .ok p) (h : Instantiates template path) :
    ∃ params, p.match? path = some params := by
  rcases parse_inversion hparse with ⟨-, -, hreads⟩
  exact exists_matchSegments h hreads

/-- An instance starts with a slash, as its template does. -/
theorem eq_cons_of_instantiates {template path : Bytes} {p : Pattern}
    (hparse : parse template = .ok p) (h : Instantiates template path) :
    ∃ rest, path = 47 :: rest := by
  rcases parse_inversion hparse with ⟨-, ⟨rest, rfl⟩, -⟩
  have hpieces : Bytes.splitOn 47 (47 :: rest) = [] :: Bytes.splitOn 47 rest := by
    rw [Bytes.splitOn, if_pos rfl]
  rw [Instantiates, hpieces] at h
  -- The first piece of the template is empty and not the only one, so the path is alike.
  rcases List.forall₂_cons_left_iff.1 h with ⟨text, texts, hfirst, hothers, hpath⟩
  rw [hfirst.eq_of_literal rfl] at hpath
  have hfront : Bytes.splitOn 47 [] <+: Bytes.splitOn 47 path := ⟨texts, hpath.symm⟩
  rcases Bytes.splitOn_isPrefix_iff.1 hfront with rfl | hslash
  · obtain rfl : [] = texts := (List.cons.inj hpath).2
    have hnil := List.forall₂_nil_right_iff.1 hothers
    rw [Bytes.splitOn_eq] at hnil
    exact absurd hnil (List.splitOn_ne_nil 47 rest)
  · exact hslash

end Pattern
end Routing

/-! ## Looking up routes -/

namespace RouteTable

variable {table : RouteTable E}

/-- A route of the table becomes a candidate for the paths that its template matches. -/
theorem mem_matching_iff {path : Bytes} {c : Routing.Candidate (Route E)} :
    c ∈ table.matching path ↔
      c.entry ∈ table.routes ∧ c.entry.pattern.match? path = some c.params ∧
        c.score = c.entry.pattern.score := by
  rw [matching, List.mem_filterMap]
  constructor
  · rintro ⟨route, hroute, hcandidate⟩
    rcases Option.map_eq_some_iff.1 hcandidate with ⟨params, hmatch, rfl⟩
    exact ⟨hroute, hmatch, rfl⟩
  · rintro ⟨hroute, hmatch, hscore⟩
    refine ⟨c.entry, hroute, ?_⟩
    rw [Routing.Candidate.of?, hmatch, ← hscore]
    rfl

/-- A table in which a route matches finds one for the same method that matches. -/
theorem exists_lookup {route : Route E} (hroute : route ∈ table.routes) {path : Bytes}
    {params : Params} (hmatch : route.pattern.match? path = some params) :
    ∃ found ∈ table.routes, ∃ ps, found.method = route.method ∧
      found.pattern.match? path = some ps ∧
      table.lookup route.method path = .found found ps (table.allowed path) := by
  let candidates := (table.matching path).filter fun c => c.entry.method = route.method
  have hcandidate : ⟨route, params, route.pattern.score⟩ ∈ candidates :=
    List.mem_filter.2 ⟨mem_matching_iff.2 ⟨hroute, hmatch, rfl⟩, by simp⟩
  cases hselected : Routing.mostSpecific candidates with
  | none =>
      rw [Routing.mostSpecific_eq_foldl_pick, Routing.foldl_pick_eq_none_iff] at hselected
      rw [hselected] at hcandidate
      cases hcandidate
  | some c =>
      have hmem : c ∈ candidates := by
        rw [Routing.mostSpecific_eq_foldl_pick] at hselected
        exact Routing.mem_of_foldl_pick_none _ hselected
      rcases List.mem_filter.1 hmem with ⟨hlisted, hmethod⟩
      rcases mem_matching_iff.1 hlisted with ⟨hfound, hparams, -⟩
      refine ⟨c.entry, hfound, c.params, of_decide_eq_true hmethod, hparams, ?_⟩
      simp only [lookup, candidates] at hselected ⊢
      rw [hselected]

/-- A route that is found answers with its handler. -/
theorem serve_of_lookup {sc : Scope} {route : Route E} {params : Params}
    {allowed : Http.MethodSet}
    (h : table.lookup sc.request.method sc.relativePath = .found route params allowed) :
    table.serve sc =
      (RouteContext.serve none (route.handler ⟨sc.request, params⟩)).bind Native.send := by
  rw [serve, h]

end RouteTable

/-! ## Routes stay registered -/

/-- Registering an operation leaves the manual routes as they are. -/
theorem Api.routes_addOperation (api : Api E) (path : Bytes) (method : Http.Method) :
    (api.addOperation path method).value.routes = api.routes := by
  rcases addOperation_cases api path method with
    ⟨hvalue, -⟩ | ⟨op, handler, log, -, -, ⟨hvalue, -⟩ | ⟨pattern, -, hvalue⟩⟩
  · rw [hvalue]
  · rw [hvalue]
  · rw [hvalue]

namespace App

/-- The API that is mounted at the base path has the manual route. -/
def HasRoute (app : App E) (base : Bytes) (route : Route E) : Prop :=
  base ∈ app.apis.map Api.basePath ∧
    ∀ api ∈ app.apis, api.basePath = base → route ∈ api.routes.routes

/-- Every call leaves the manual routes where they are. -/
theorem HasRoute.perform {app : App E} {base : Bytes} {route : Route E}
    (h : app.HasRoute base route) (call : SetupCall E) :
    (app.perform call).HasRoute base route := by
  refine at_perform (P := fun api => route ∈ api.routes.routes) ?_ ?_ h.1 h.2 call
  · intro api path method hroute
    rw [Api.routes_addOperation]
    exact hroute
  · exact fun _ _ hmore hroute => hmore.subset hroute

/-- Registering a manual route with a mounted API registers it for every method. -/
theorem hasRoute_addApiRoute {app : App E} {base template : Bytes} {methods : List Http.Method}
    {handler : RouteHandler E} {mounted registered : Api E}
    (hmounted : app.findApi? base = some mounted)
    (hregistered : mounted.addRoute methods template handler = .ok registered) :
    ∃ pattern, Routing.Pattern.parse template = .ok pattern ∧ ∀ method ∈ methods,
      (app.perform (.addApiRoute base methods template handler)).HasRoute base
        ⟨method, pattern, handler, []⟩ := by
  rcases mem_of_findApi? hmounted with ⟨hmem, hbase⟩
  rcases Api.addRoute_inversion hregistered with ⟨pattern, hparse, hadded⟩
  have hsame : registered.basePath = base := by
    rw [hadded]
    exact hbase
  have hperform : app.perform (.addApiRoute base methods template handler) =
      app.updateApi registered := by
    rw [perform, hmounted]
    dsimp only
    rw [hregistered]
    rfl
  refine ⟨pattern, hparse, fun method hmethod => ?_⟩
  rw [hperform]
  constructor
  · rw [basePaths_updateApi, ← hbase]
    exact List.mem_map_of_mem hmem
  · intro api hapi hapiBase
    rcases List.mem_map.1 hapi with ⟨original, -, rfl⟩
    split at hapiBase
    · rename_i hreplaced
      rw [if_pos hreplaced, hadded]
      exact List.mem_append_right _ (List.mem_map_of_mem hmethod)
    · rename_i hkept
      exact absurd (hapiBase.trans hsame.symm) hkept

/-- A manual route that has been registered with a mounted API stays, whatever is called after. -/
theorem hasRoute_setUp {before : List (SetupCall E)} {base template : Bytes}
    {methods : List Http.Method} {handler : RouteHandler E} {mounted registered : Api E}
    (hmounted : (setUp before).findApi? base = some mounted)
    (hregistered : mounted.addRoute methods template handler = .ok registered)
    (after : List (SetupCall E)) :
    ∃ pattern, Routing.Pattern.parse template = .ok pattern ∧ ∀ method ∈ methods,
      (setUp (before ++ .addApiRoute base methods template handler :: after)).HasRoute base
        ⟨method, pattern, handler, []⟩ := by
  rcases hasRoute_addApiRoute hmounted hregistered with ⟨pattern, hparse, hroutes⟩
  refine ⟨pattern, hparse, fun method hmethod => ?_⟩
  rw [setUp_append_cons]
  exact foldl_perform (I := fun app => app.HasRoute base ⟨method, pattern, handler, []⟩)
    (fun _ call h => h.perform call) _ (hroutes method hmethod) after

/-! ## Requests for manual routes -/

/--
The request is answered by a manual route of the API that matches the rest of its path.  The program
is that of its handler under the base path of the API, and in every run this handler is called and
no other.
-/
def AnswersByRoute (app : App E) (api : Api E) (sc : Scope) (rest : Bytes) : Prop :=
  let inside := sc.enter { apiBasePath := some api.basePath }
  ∃ route ∈ api.routes.routes, ∃ params, route.method = sc.request.method ∧
    route.pattern.match? rest = some params ∧
    app.serve sc = Rendering.guarded false (.call (.enter inside) fun _ =>
      (RouteContext.serve none (route.handler ⟨sc.request, params⟩)).bind Native.send) ∧
    ∀ {σ : Type} (host : Host (Exchange (Watched Handling E)) σ) (s : σ),
      Event.callees ((app.watched.serve sc).transcript host s) =
        [.ofRoute (some api.basePath) route params]

namespace InStep

variable {app : App E} {record : Bytes → List OperationSpec} {api : Api E} {sc : Scope}

/-- The owner of a path answers with a manual route that matches the rest, if no operation fits. -/
theorem answersByRoute (h : app.InStep record) {rest : Bytes} (hroot : sc.rootPath = [])
    (hpath : sc.request.path = api.basePath ++ rest) (howner : app.Owner sc.request.path api)
    (hnone : ∀ op ∈ record api.basePath, ∀ params, ¬op.Fits sc.request.method rest params)
    {route : Route E} (hroute : route ∈ api.routes.routes)
    (hmethod : route.method = sc.request.method) {params : Params}
    (hmatch : route.pattern.match? rest = some params) : app.AnswersByRoute api sc rest := by
  have hrelative := Scope.relativePath_of_rootPath_nil hroot
  have hleads : app.Leads record sc.request.method sc.relativePath
      (.routes (some api.basePath) api.routes) := by
    rw [hrelative]
    exact .ownedRoutes howner hpath hnone
  have hresolve := h.resolve_of_leads hleads
  have hinside : (sc.enter { apiBasePath := some api.basePath }).relativePath = rest := by
    apply Scope.relativePath_enter
    rw [hroot, hpath]
    rfl
  rcases RouteTable.exists_lookup hroute hmatch with ⟨found, hfound, ps, hsame, hps, hlookup⟩
  rw [hmethod] at hsame hlookup
  rw [← hinside] at hlookup
  refine ⟨found, hfound, ps, hsame, hps, ?_, fun host s => ?_⟩
  · rw [serve_of_resolve hresolve, Destination.routing, dispatch_routes h.distinct howner.mounted,
      RouteTable.serve_of_lookup hlookup]
    rfl
  · rw [(h.servesBy hleads.offers hresolve host s).2, Destination.routing, hlookup]

/-- Without owner and without a fitting operation the routes of the application are asked. -/
theorem serve_of_unowned (h : app.InStep record) (hroot : sc.rootPath = [])
    (hfree : app.Unowned sc.request.path)
    (hnone : ∀ op ∈ record [], ∀ params, ¬op.Fits sc.request.method sc.request.path params) :
    app.serve sc = Rendering.guarded false (.call (.enter (sc.enter {})) fun _ =>
      app.routes.serve (sc.enter {})) := by
  have hrelative := Scope.relativePath_of_rootPath_nil hroot
  have hleads : app.Leads record sc.request.method sc.relativePath (.routes none app.routes) := by
    rw [hrelative]
    exact .ownRoutes hfree fun _ _ _ => hnone
  rw [serve_of_resolve (h.resolve_of_leads hleads), Destination.routing, dispatch_own_routes]

end InStep

/--
Manual routes of mounted APIs are reached.  Let a manual route be registered with the API at a base
path, among any calls that set up the application.  A request for one of its methods whose path is
the base path and an instance of its template, which no API with a longer base path owns and no
operation of the API fits, is answered by a manual route of the API, if the base path is not empty.
An API at the root claims requests only through its operations, so there the routes of the
application are asked.
-/
theorem manual_routes_are_reached {calls before after : List (SetupCall E)} {base template : Bytes}
    {methods : List Http.Method} {handler : RouteHandler E} {mounted registered : Api E}
    (hcalls : calls = before ++ .addApiRoute base methods template handler :: after)
    (hmounted : (setUp before).findApi? base = some mounted)
    (hregistered : mounted.addRoute methods template handler = .ok registered) {sc : Scope}
    {rest : Bytes} (hroot : sc.rootPath = []) (hmethod : sc.request.method ∈ methods)
    (hpath : sc.request.path = base ++ rest) (hrest : Routing.Instantiates template rest)
    (hlongest : ∀ other ∈ (setUp calls).apis, Routing.Owns other.basePath sc.request.path →
      other.basePath.length ≤ base.length)
    (hnone : ∀ api ∈ (setUp calls).apis, api.basePath = base → ∀ op ∈ api.spec.operations,
      ∀ params, ¬op.Fits sc.request.method rest params) :
    (base ≠ [] → ∃ api ∈ (setUp calls).apis, api.basePath = base ∧
        (setUp calls).AnswersByRoute api sc rest) ∧
      (base = [] → (setUp calls).serve sc =
        Rendering.guarded false (.call (.enter (sc.enter {})) fun _ =>
          (setUp calls).routes.serve (sc.enter {}))) := by
  rcases hasRoute_setUp hmounted hregistered after with ⟨pattern, hparse, hroutes⟩
  rw [← hcalls] at hroutes
  rcases exists_assembled_setUp calls with ⟨record, hassembled⟩
  have hstep := inStep_of_assembled hassembled
  rcases hroutes _ hmethod with ⟨hbase, hroute⟩
  rcases List.mem_map.1 hbase with ⟨api, hapi, rfl⟩
  have hdeclared := (registers_of_assembled hassembled api hapi).declared
  have hfits : ∀ op ∈ record api.basePath, ∀ params, ¬op.Fits sc.request.method rest params :=
    fun op hop => hnone api hapi rfl op (hdeclared op hop)
  rcases Routing.Pattern.exists_match?_of_instantiates hparse hrest with ⟨params, hmatch⟩
  constructor
  · intro hbased
    rcases Routing.Pattern.eq_cons_of_instantiates hparse hrest with ⟨others, hslash⟩
    have howns : Routing.Owns api.basePath sc.request.path := by
      rw [hpath, hslash]
      exact .inr ⟨others, rfl⟩
    have howner : (setUp calls).Owner sc.request.path api :=
      ⟨hapi, hbased, howns, fun other hother _ => hlongest other hother⟩
    exact ⟨api, hapi, rfl, hstep.answersByRoute hroot hpath howner hfits (hroute api hapi rfl) rfl
      hmatch⟩
  · intro hempty
    rw [hempty] at hlongest hfits
    rw [hempty, List.nil_append] at hpath
    subst hpath
    refine hstep.serve_of_unowned hroot ?_ hfits
    intro other hother hbased howns
    exact hbased (List.eq_nil_of_length_eq_zero (Nat.le_zero.1 (hlongest other hother howns)))

end App

/-! ## Samples -/

namespace Sample

/-- A manual route handler that answers without body. -/
def okHandler : RouteHandler Signature.empty :=
  fun _ => .done (.plain {} none)

/-- The call that mounts the API with one operation at `/v`. -/
def mountingStub : SetupCall Signature.empty :=
  .addApi spec Registry.empty { stubStatus := some 501 }

/-- The call that registers `GET /m/{x}` with it. -/
def addingRoute : SetupCall Signature.empty :=
  .addApiRoute [47, 118] [.get] [47, 109, 47, 123, 120, 125] okHandler

/-- A request for `/v/m/5`. -/
def routeScope : Scope :=
  { request := { method := .get, target := [47, 118, 47, 109, 47, 53] } }

/-- The request is answered by the manual route. -/
theorem routeScope_reaches_route :
    (App.setUp [mountingStub]).findApi? [47, 118] = some api ∧
      routeScope.request.path = [47, 118] ++ [47, 109, 47, 53] ∧
      Routing.Instantiates [47, 109, 47, 123, 120, 125] [47, 109, 47, 53] ∧
      ∃ other ∈ (App.setUp [mountingStub, addingRoute]).apis, other.basePath = [47, 118] ∧
        (App.setUp [mountingStub, addingRoute]).AnswersByRoute other routeScope
          [47, 109, 47, 53] := by
  have hcalls : [mountingStub, addingRoute] = [mountingStub] ++ addingRoute :: [] := rfl
  have hmounted : (App.setUp [mountingStub]).findApi? [47, 118] = some api := rfl
  have hregistered : api.addRoute [.get] [47, 109, 47, 123, 120, 125] okHandler =
      .ok { api with routes := ⟨[⟨.get, ⟨[47, 109, 47, 123, 120, 125],
        [.literal [109], .parameter [120]]⟩, okHandler, []⟩]⟩ } := rfl
  have hpath : routeScope.request.path = [47, 118] ++ [47, 109, 47, 53] := rfl
  have hrest : Routing.Instantiates [47, 109, 47, 123, 120, 125] [47, 109, 47, 53] :=
    .cons rfl (.cons rfl (.cons (List.cons_ne_nil _ _) .nil))
  have hlongest : ∀ other ∈ (App.setUp [mountingStub, addingRoute]).apis,
      Routing.Owns other.basePath routeScope.request.path → other.basePath.length ≤ 2 := by
    intro other hother _
    rw [List.mem_singleton.1 hother]
    exact Nat.le_refl _
  have hnone : ∀ other ∈ (App.setUp [mountingStub, addingRoute]).apis,
      other.basePath = [47, 118] → ∀ op ∈ other.spec.operations, ∀ params,
        ¬op.Fits routeScope.request.method [47, 109, 47, 53] params := by
    intro other hother _ op hop params hfits
    rw [List.mem_singleton.1 hother] at hop
    obtain rfl := List.mem_singleton.1 hop
    rcases hfits with ⟨-, pattern, hparse, hmatch⟩
    cases hparse
    cases hmatch
  have hreached := (App.manual_routes_are_reached hcalls hmounted hregistered rfl
    (List.mem_singleton_self _) hpath hrest hlongest hnone).1 (List.cons_ne_nil _ _)
  exact ⟨hmounted, hpath, hrest, hreached⟩

/-- The call that mounts an API without operations at the root. -/
def mountingRoot : SetupCall Signature.empty :=
  .addApi {} Registry.empty {}

/-- The call that registers `GET /s` with it. -/
def addingRootRoute : SetupCall Signature.empty :=
  .addApiRoute [] [.get] [47, 115] okHandler

/-- The application with that API and its route. -/
def rootApp : App Signature.empty :=
  App.setUp [mountingRoot, addingRootRoute]

/-- A request for `/s`. -/
def rootScope : Scope :=
  { request := { method := .get, target := [47, 115] } }

/--
A manual route of an API at the root is not reached: no handler is called, and the request is
answered with a 404.
-/
theorem root_route_is_not_reached :
    ∃ mounted registered, (App.setUp [mountingRoot]).findApi? [] = some mounted ∧
      mounted.addRoute [.get] [47, 115] okHandler = .ok registered ∧
      rootApp.apis = [registered] ∧ registered.basePath = [] ∧
      registered.spec.operations = [] ∧ rootScope.rootPath = [] ∧
      rootScope.request.method = .get ∧ rootScope.request.path = [] ++ [47, 115] ∧
      Routing.Instantiates [47, 115] [47, 115] ∧
      Event.callees ((rootApp.watched.serve rootScope).transcript host ()) = [] ∧
      ∃ headers rest, Event.messages ((rootApp.serve rootScope).transcript accepting ()) =
        .start 404 headers :: rest :=
  ⟨_, _, rfl, rfl, rfl, rfl, rfl, rfl, rfl, rfl, .cons rfl (.cons rfl .nil), rfl, _, _, rfl⟩

end Sample
end ApiGateway
