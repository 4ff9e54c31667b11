import Mathlib.Data.List.Nodup
import ApiGateway.Proofs.Setup

/-!
# Sequences of setup calls

An application is set up by any sequence of calls.  A call that fails ends with what it
has done by then, and the next call goes on from there.  Whatever the calls are, mounted
APIs have different base paths, and each keeps the handlers it has been mounted with.

Main definitions:

- `SetupCall`, `App.perform`, `App.setUp`: the calls and what they leave.
- `App.Mounts`: at a base path an API is mounted with certain handlers.

Main results:

- `App.perform_cases`: what a call does to the mounted APIs.
- `App.foldl_perform`: what every call preserves holds after any calls.
- `App.each_perform`, `App.at_perform`: what a call preserves of every mounted API, and of the one
  at a base path.
- `App.nodup_basePaths_setUp`: mounted APIs have different base paths.
- `App.mounts_setUp`: an API keeps its handlers.
-/

namespace ApiGateway

variable {E : Signature}

/-! ## Mounted APIs -/

namespace App

/-- What is found by its base path is mounted there. -/
theorem mem_of_findApi? {app : App E} {base : Bytes} {api : Api E}
    (h : app.findApi? base = some api) : api ∈ app.apis ∧ api.basePath = base := by
  have hsame := List.find?_some (p := fun other : Api E => other.basePath == base) h
  exact ⟨List.mem_of_find?_eq_some h, beq_iff_eq.1 hsame⟩

/-- A base path at which nothing is found is not the one of a mounted API. -/
theorem not_mem_of_findApi?_eq_none {app : App E} {base : Bytes}
    (h : app.findApi? base = none) : base ∉ app.apis.map Api.basePath := by
  intro hmem
  rcases List.mem_map.1 hmem with ⟨api, hapi, rfl⟩
  have hne := List.find?_eq_none.1 h api hapi
  exact hne (beq_self_eq_true _)

/-- A mounted API is the one that is found at its base path. -/
theorem findApi?_of_nodup {app : App E} (hdistinct : (app.apis.map Api.basePath).Nodup)
    {api : Api E} (hapi : api ∈ app.apis) : app.findApi? api.basePath = some api := by
  cases hfound : app.findApi? api.basePath with
  | none => exact absurd (List.mem_map_of_mem hapi) (not_mem_of_findApi?_eq_none hfound)
  | some other =>
      rcases mem_of_findApi? hfound with ⟨hother, hbase⟩
      rw [List.inj_on_of_nodup_map hdistinct hother hapi hbase]

/-- Replacing an API changes no base path. -/
theorem basePaths_updateApi (app : App E) (api : Api E) :
    (app.updateApi api).apis.map Api.basePath = app.apis.map Api.basePath := by
  rw [updateApi, List.map_map]
  apply List.map_congr_left
  intro other _
  by_cases hsame : other.basePath = api.basePath
  · simp [hsame]
  · simp [hsame]

/-- Mounting an API sets it up and appends it; nothing has been mounted at its base path. -/
theorem addApi_inversion {app : App E} {spec : Specification} {handlers : Resolver E}
    {options : ApiOptions} (hok : (app.addApi spec handlers options).failure = none) :
    ∃ options', (Api.create spec handlers options').failure = none ∧
      (app.addApi spec handlers options).value =
        { app with apis := app.apis ++ [(Api.create spec handlers options').value] } ∧
      options'.basePathFor spec = options.basePathFor spec ∧
      app.findApi? (options.basePathFor spec) = none := by
  unfold addApi at hok ⊢
  dsimp only at hok ⊢
  by_cases hmounted : (app.findApi? (options.basePathFor spec)).isSome
  · rw [if_pos hmounted] at hok
    cases hok
  · rw [if_neg hmounted] at hok ⊢
    have hfree := Option.not_isSome_iff_eq_none.1 hmounted
    cases hfailure : (Api.create spec handlers
        { options with basePath := some (options.basePathFor spec) }).failure with
    | some e =>
        simp only [hfailure] at hok
        cases hok
    | none =>
        exact ⟨_, hfailure, rfl, normalizeBasePath_idem _, hfree⟩

/-- Adding a manual route to an application leaves the mounted APIs as they are. -/
theorem apis_addRoute {app app' : App E} {methods : List Http.Method} {path : Bytes}
    {handler : RouteHandler E} (hok : app.addRoute methods path handler = .ok app') :
    app'.apis = app.apis := by
  unfold App.addRoute at hok
  cases hadd : app.routes.add methods path handler [] with
  | error e =>
      rw [hadd] at hok
      cases hok
  | ok routes =>
      rw [hadd] at hok
      cases hok
      rfl

end App

/-! ## Calls -/

/-- A call that sets up an application or an API that is mounted at a base path. -/
inductive SetupCall (E : Signature) where
  | addApi (spec : Specification) (handlers : Resolver E) (options : ApiOptions)
  | addRoute (methods : List Http.Method) (path : Bytes) (handler : RouteHandler E)
  | observe (observed : Bool)
  | addApiOperation (base path : Bytes) (method : Http.Method)
  | addApiRoute (base : Bytes) (methods : List Http.Method) (path : Bytes)
      (handler : RouteHandler E)

namespace App

/-- What a call leaves, whether or not it succeeds. -/
def perform (app : App E) : SetupCall E → App E
  | .addApi spec handlers options => (app.addApi spec handlers options).value
  | .addRoute methods path handler => (app.addRoute methods path handler).toOption.getD app
  | .observe observed => app.observe observed
  | .addApiOperation base path method =>
    match app.findApi? base with
    | none => app
    | some api => app.updateApi (api.addOperation path method).value
  | .addApiRoute base methods path handler =>
    match app.findApi? base with
    | none => app
    | some api => app.updateApi ((api.addRoute methods path handler).toOption.getD api)

/-- The application that calls set up one after another. -/
def setUp (calls : List (SetupCall E)) : App E :=
  calls.foldl perform {}

/-- What every call preserves is preserved by calls one after another. -/
theorem foldl_perform {I : App E → Prop} (hstep : ∀ app call, I app → I (app.perform call))
    (app : App E) (h : I app) (calls : List (SetupCall E)) : I (calls.foldl perform app) := by
  induction calls generalizing app with
  | nil => exact h
  | cons call rest ih => exact ih _ (hstep app call h)

/-- After a call the others go on from what it has left. -/
theorem setUp_append_cons (before after : List (SetupCall E)) (call : SetupCall E) :
    setUp (before ++ call :: after) = after.foldl perform ((setUp before).perform call) := by
  rw [setUp, List.foldl_append]
  rfl

/-- Mounting an API fails before anything is changed. -/
theorem addApi_of_failure {app : App E} {spec : Specification} {handlers : Resolver E}
    {options : ApiOptions} (h : (app.addApi spec handlers options).failure ≠ none) :
    (app.addApi spec handlers options).value = app := by
  unfold addApi at h ⊢
  dsimp only at h ⊢
  by_cases hmounted : (app.findApi? (options.basePathFor spec)).isSome
  · rw [if_pos hmounted]
  · rw [if_neg hmounted] at h ⊢
    cases hcreate : (Api.create spec handlers
        { options with basePath := some (options.basePathFor spec) }).failure with
    | some e => rfl
    | none =>
        rw [hcreate] at h
        exact absurd rfl h

/--
What a call does to the mounted APIs: nothing, or it mounts one more under a new base path, or
registers an operation with one of them, or appends manual routes to those of one of them.
-/
theorem perform_cases (app : App E) (call : SetupCall E) :
    (app.perform call).apis = app.apis ∨
      (∃ spec handlers options, (Api.create spec handlers options).failure = none ∧
        (Api.create spec handlers options).value.basePath ∉ app.apis.map Api.basePath ∧
        (app.perform call).apis = app.apis ++ [(Api.create spec handlers options).value]) ∨
      (∃ api ∈ app.apis, ∃ path method,
        (app.perform call).apis = (app.updateApi (api.addOperation path method).value).apis) ∨
      ∃ api ∈ app.apis, ∃ routes, api.routes.routes <+: routes.routes ∧
        (app.perform call).apis = (app.updateApi { api with routes := routes }).apis := by
  cases call with
  | addApi spec handlers options =>
      by_cases hok : (app.addApi spec handlers options).failure = none
      · rcases addApi_inversion hok with ⟨options', hcreate, hvalue, hbase, hfree⟩
        refine .inr (.inl ⟨spec, handlers, options', hcreate, ?_, congrArg App.apis hvalue⟩)
        rw [(Api.create_frame _ _ _).2.2.2, hbase]
        exact not_mem_of_findApi?_eq_none hfree
      · exact .inl (congrArg App.apis (addApi_of_failure hok))
  | addRoute methods path handler =>
      rw [perform]
      cases hadd : app.addRoute methods path handler with
      | error e => exact .inl rfl
      | ok app' => exact .inl (apis_addRoute hadd)
  | observe observed => exact .inl rfl
  | addApiOperation base path method =>
      rw [perform]
      cases hfind : app.findApi? base with
      | none => exact .inl rfl
      | some api => exact .inr (.inr (.inl ⟨api, (mem_of_findApi? hfind).1, path, method, rfl⟩))
  | addApiRoute base methods path handler =>
      rw [perform]
      cases hfind : app.findApi? base with
      | none => exact .inl rfl
      | some api =>
          dsimp only
          refine .inr (.inr (.inr ⟨api, (mem_of_findApi? hfind).1, ?_⟩))
          cases hadd : api.addRoute methods path handler with
          | error e => exact ⟨api.routes, List.prefix_rfl, rfl⟩
          | ok api' =>
              rcases Api.addRoute_inversion hadd with ⟨pattern, -, rfl⟩
              exact ⟨_, List.prefix_append _ _, rfl⟩

/-- A call keeps the base paths of the mounted APIs, and may add one that is new. -/
theorem basePaths_perform (app : App E) (call : SetupCall E) :
    (app.perform call).apis.map Api.basePath = app.apis.map Api.basePath ∨
      ∃ base, base ∉ app.apis.map Api.basePath ∧
        (app.perform call).apis.map Api.basePath = app.apis.map Api.basePath ++ [base] := by
  rcases app.perform_cases call with
    hsame | ⟨spec, handlers, options, -, hfree, hadded⟩ | ⟨api, -, path, method, hupdated⟩ |
      ⟨api, -, routes, -, hupdated⟩
  · rw [hsame]
    exact .inl rfl
  · refine .inr ⟨_, hfree, ?_⟩
    rw [hadded, List.map_append, List.map_singleton]
  · rw [hupdated]
    exact .inl (basePaths_updateApi app _)
  · rw [hupdated]
    exact .inl (basePaths_updateApi app _)

/-- What holds of all mounted APIs and of the replacement of one holds after replacing it. -/
theorem forall_updateApi {P : Api E → Prop} {app : App E} {api : Api E}
    (h : ∀ other ∈ app.apis, P other) (hapi : P api) :
    ∀ other ∈ (app.updateApi api).apis, P other := by
  intro other hmem
  rcases List.mem_map.1 hmem with ⟨original, horiginal, rfl⟩
  split
  · exact hapi
  · exact h original horiginal

/--
A call preserves what holds of all mounted APIs, if it holds of APIs that are set up under a new
base path, and if registering operations and further manual routes preserves it.
-/
theorem each_perform {P : Api E → Prop} {app : App E}
    (hcreate : ∀ spec handlers options, (Api.create spec handlers options).failure = none →
      (Api.create spec handlers options).value.basePath ∉ app.apis.map Api.basePath →
      P (Api.create spec handlers options).value)
    (hoperation : ∀ api path method, P api → P (api.addOperation path method).value)
    (hroute : ∀ api routes, api.routes.routes <+: routes.routes → P api →
      P { api with routes := routes })
    (h : ∀ api ∈ app.apis, P api) (call : SetupCall E) :
    ∀ api ∈ (app.perform call).apis, P api := by
  rcases app.perform_cases call with
    hsame | ⟨spec, handlers, options, hok, hfree, hadded⟩ | ⟨api, hapi, path, method, hupdated⟩ |
      ⟨api, hapi, routes, hmore, hupdated⟩
  · rw [hsame]
    exact h
  · rw [hadded]
    intro api hmem
    rcases List.mem_append.1 hmem with hold | hnew
    · exact h api hold
    · rw [List.mem_singleton.1 hnew]
      exact hcreate spec handlers options hok hfree
  · rw [hupdated]
    exact forall_updateApi h (hoperation api path method (h api hapi))
  · rw [hupdated]
    exact forall_updateApi h (hroute api routes hmore (h api hapi))

/--
A call preserves what holds of the API that is mounted at a base path, if registering operations and
further manual routes preserves it: nothing else is ever mounted there.
-/
theorem at_perform {P : Api E → Prop} {app : App E} {base : Bytes}
    (hoperation : ∀ api path method, P api → P (api.addOperation path method).value)
    (hroute : ∀ api routes, api.routes.routes <+: routes.routes → P api →
      P { api with routes := routes })
    (hbase : base ∈ app.apis.map Api.basePath) (h : ∀ api ∈ app.apis, api.basePath = base → P api)
    (call : SetupCall E) :
    base ∈ (app.perform call).apis.map Api.basePath ∧
      ∀ api ∈ (app.perform call).apis, api.basePath = base → P api := by
  constructor
  · rcases app.basePaths_perform call with hsame | ⟨other, -, hadded⟩
    · rw [hsame]
      exact hbase
    · rw [hadded]
      exact List.mem_append_left [other] hbase
  · refine each_perform (P := fun api => api.basePath = base → P api) ?_ ?_ ?_ h call
    · intro spec handlers options _ hfree hsame
      rw [hsame] at hfree
      exact absurd hbase hfree
    · intro api path method hapi hsame
      rw [(Api.addOperation_frame api path method).2.2.2] at hsame
      exact hoperation api path method (hapi hsame)
    · exact fun api routes hmore hapi hsame => hroute api routes hmore (hapi hsame)

/-! ## Base paths and handlers -/

/-- The base paths of mounted APIs differ. -/
theorem nodup_basePaths_setUp (calls : List (SetupCall E)) :
    ((setUp calls).apis.map Api.basePath).Nodup := by
  refine foldl_perform (I := fun app => (app.apis.map Api.basePath).Nodup) ?_ {} List.nodup_nil
    calls
  intro app call h
  rcases app.basePaths_perform call with hsame | ⟨base, hfree, hadded⟩
  · rw [hsame]
    exact h
  · rw [hadded, ← List.concat_eq_append]
    exact h.concat hfree

/-- At a base path an API is mounted, with certain handlers. -/
def Mounts (app : App E) (base : Bytes) (handlers : Resolver E) : Prop :=
  base ∈ app.apis.map Api.basePath ∧
    ∀ api ∈ app.apis, api.basePath = base → api.handlers = handlers

/-- An API stays mounted with its handlers. -/
theorem Mounts.perform {app : App E} {base : Bytes} {handlers : Resolver E}
    (h : app.Mounts base handlers) (call : SetupCall E) :
    (app.perform call).Mounts base handlers := by
  refine at_perform (P := fun api => api.handlers = handlers) ?_ ?_ h.1 h.2 call
  · intro api path method hapi
    exact (Api.addOperation_frame api path method).2.1.trans hapi
  · exact fun api routes _ hapi => hapi

/-- A successful call mounts an API with the handlers that it is given. -/
theorem mounts_addApi {app : App E} {spec : Specification} {handlers : Resolver E}
    {options : ApiOptions} (hok : (app.addApi spec handlers options).failure = none) :
    (app.addApi spec handlers options).value.Mounts (options.basePathFor spec) handlers := by
  rcases addApi_inversion hok with ⟨options', hcreate, hvalue, hbase, hfree⟩
  rcases Api.create_frame spec handlers options' with ⟨-, hhandlers, -, hcreated⟩
  rw [hvalue]
  constructor
  · rw [List.map_append, List.map_singleton, hcreated, hbase]
    exact List.mem_append_right _ (List.mem_singleton_self _)
  · intro api hmem hsame
    rcases List.mem_append.1 hmem with hold | hnew
    · have hused := List.mem_map_of_mem (f := Api.basePath) hold
      rw [hsame] at hused
      exact absurd hused (not_mem_of_findApi?_eq_none hfree)
    · rw [List.mem_singleton.1 hnew]
      exact hhandlers

/-- Whatever is called after an API has been mounted, it keeps its handlers. -/
theorem mounts_setUp {before : List (SetupCall E)} {spec : Specification} {handlers : Resolver E}
    {options : ApiOptions} (hok : ((setUp before).addApi spec handlers options).failure = none)
    (after : List (SetupCall E)) :
    (setUp (before ++ .addApi spec handlers options :: after)).Mounts (options.basePathFor spec)
      handlers := by
  rw [setUp_append_cons]
  exact foldl_perform (I := fun app => app.Mounts (options.basePathFor spec) handlers)
    (fun _ call h => h.perform call) _ (mounts_addApi hok) after

end App

end ApiGateway
