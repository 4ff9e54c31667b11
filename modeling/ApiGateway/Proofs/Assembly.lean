import ApiGateway.Proofs.SetupCalls

/-!
# Assembled applications

Where all calls succeed, the record of what has been registered where is kept beside the
application.  Each call preserves that all tables tell the same as the record.  A call
that fails leaves the application as it is, so calls that fail set up nothing else.

Main definitions:

- `App.InStep`: the tables of the mounted APIs agree with the record.
- `App.Assembled`: the applications that successful calls build.

Main results:

- `App.exists_setUp_of_assembled`: assembled applications are set up by calls.
- `App.Assembled.each`: what all calls preserve holds of every mounted API and its record.
- `App.exists_assembled_setUp`: failing calls make no difference to what can be set up.
- `App.inStep_of_assembled`: all tables of an application are in step with the record.
-/

namespace ApiGateway

variable {E : Signature}

namespace App

/-- The mounted APIs have different base paths, and each is in step with its record. -/
structure InStep (app : App E) (record : Bytes → List OperationSpec) : Prop where
  distinct : (app.apis.map Api.basePath).Nodup
  each : ∀ api ∈ app.apis, api.InStep (record api.basePath)

/--
The applications that successful calls build, with the record of the operations registered at
each base path, in order.
-/
inductive Assembled : App E → (Bytes → List OperationSpec) → Prop where
  | empty : Assembled {} fun _ => []
  | addApi {app : App E} {record : Bytes → List OperationSpec} {spec : Specification}
      {handlers : Resolver E} {options : ApiOptions} (h : Assembled app record)
      (hok : (app.addApi spec handlers options).failure = none) :
      Assembled (app.addApi spec handlers options).value
        (Function.update record (options.basePathFor spec) spec.declared)
  | addRoute {app app' : App E} {record : Bytes → List OperationSpec}
      {methods : List Http.Method} {path : Bytes} {handler : RouteHandler E}
      (h : Assembled app record) (hok : app.addRoute methods path handler = .ok app') :
      Assembled app' record
  | observe {app : App E} {record : Bytes → List OperationSpec} (h : Assembled app record)
      (observed : Bool) : Assembled (app.observe observed) record
  | addApiOperation {app : App E} {record : Bytes → List OperationSpec} {api : Api E}
      {base path : Bytes} {method : Http.Method} {op : OperationSpec} (h : Assembled app record)
      (hfind : app.findApi? base = some api) (hop : api.spec.find? path method = some op)
      (hok : (api.addOperation path method).failure = none) :
      Assembled (app.updateApi (api.addOperation path method).value)
        (Function.update record base (record base ++ [op]))
  | addApiRoute {app : App E} {record : Bytes → List OperationSpec} {api api' : Api E}
      {base path : Bytes} {methods : List Http.Method} {handler : RouteHandler E}
      (h : Assembled app record) (hfind : app.findApi? base = some api)
      (hok : api.addRoute methods path handler = .ok api') :
      Assembled (app.updateApi api') record

/-- Applications that successful calls build are set up by these calls. -/
theorem exists_setUp_of_assembled {app : App E} {record : Bytes → List OperationSpec}
    (h : app.Assembled record) : ∃ calls, setUp calls = app := by
  induction h with
  | empty => exact ⟨[], rfl⟩
  | @addApi app record spec handlers options _ _ ih =>
      rcases ih with ⟨calls, rfl⟩
      exact ⟨calls ++ [.addApi spec handlers options], setUp_append_cons calls [] _⟩
  | @addRoute app app' record methods path handler _ hok ih =>
      rcases ih with ⟨calls, rfl⟩
      refine ⟨calls ++ [.addRoute methods path handler], ?_⟩
      rw [setUp_append_cons, List.foldl_nil, perform, hok]
      rfl
  | @observe app record _ observed ih =>
      rcases ih with ⟨calls, rfl⟩
      exact ⟨calls ++ [.observe observed], setUp_append_cons calls [] _⟩
  | @addApiOperation app record api base path method op _ hfind _ _ ih =>
      rcases ih with ⟨calls, rfl⟩
      refine ⟨calls ++ [.addApiOperation base path method], ?_⟩
      rw [setUp_append_cons, List.foldl_nil, perform, hfind]
  | @addApiRoute app record api api' base path methods handler _ hfind hok ih =>
      rcases ih with ⟨calls, rfl⟩
      refine ⟨calls ++ [.addApiRoute base methods path handler], ?_⟩
      rw [setUp_append_cons, List.foldl_nil, perform, hfind]
      dsimp only
      rw [hok]
      rfl

/-- The mounted APIs of an application that successful calls build have different base paths. -/
theorem distinct_of_assembled {app : App E} {record : Bytes → List OperationSpec}
    (h : app.Assembled record) : (app.apis.map Api.basePath).Nodup := by
  rcases exists_setUp_of_assembled h with ⟨calls, rfl⟩
  exact nodup_basePaths_setUp calls

section Each

variable {P : Api E → List OperationSpec → Prop}

/-- Replacing an API, where a property holds of the new one with a new record. -/
theorem each_updateApi {app : App E} {record : Bytes → List OperationSpec} {api : Api E}
    {ops : List OperationSpec} (h : ∀ other ∈ app.apis, P other (record other.basePath))
    (hapi : P api ops) :
    ∀ other ∈ (app.updateApi api).apis,
      P other (Function.update record api.basePath ops other.basePath) := by
  intro other hmem
  rcases List.mem_map.1 hmem with ⟨original, horiginal, hother⟩
  by_cases hsame : original.basePath = api.basePath
  · rw [if_pos hsame] at hother
    rw [← hother, Function.update_self]
    exact hapi
  · rw [if_neg hsame] at hother
    rw [← hother, Function.update_of_ne hsame]
    exact h original horiginal

/--
What setting up an API establishes and registering operations and routes preserves holds of every
mounted API and its record.
-/
theorem Assembled.each
    (hcreate : ∀ spec handlers options, (Api.create spec handlers options).failure = none →
      P (Api.create spec handlers options).value spec.declared)
    (hoperation : ∀ api registered path method op, P api registered →
      (api.addOperation path method).failure = none → api.spec.find? path method = some op →
      P (api.addOperation path method).value (registered ++ [op]))
    (hroute : ∀ api registered routes, P api registered →
      P { api with routes := routes } registered)
    {app : App E} {record : Bytes → List OperationSpec} (h : app.Assembled record) :
    ∀ api ∈ app.apis, P api (record api.basePath) := by
  induction h with
  | empty => exact fun _ hmem => nomatch hmem
  | addApi _ hok ih =>
      rcases addApi_inversion hok with ⟨options', hsetup, hvalue, hbase, hfree⟩
      rw [hvalue]
      intro other hmem
      rcases List.mem_append.1 hmem with hold | hnew
      · have hused := List.mem_map_of_mem (f := Api.basePath) hold
        have hne := ne_of_mem_of_not_mem hused (not_mem_of_findApi?_eq_none hfree)
        rw [Function.update_of_ne hne]
        exact ih other hold
      · rw [List.mem_singleton.1 hnew, (Api.create_frame _ _ _).2.2.2, hbase,
          Function.update_self]
        exact hcreate _ _ _ hsetup
  | addRoute _ hok ih =>
      rw [apis_addRoute hok]
      exact ih
  | observe _ _ ih => exact ih
  | addApiOperation _ hfind hop hok ih =>
      rcases mem_of_findApi? hfind with ⟨hmem, hbase⟩
      have hupdate := each_updateApi ih (hoperation _ _ _ _ _ (ih _ hmem) hok hop)
      rw [(Api.addOperation_frame _ _ _).2.2.2, hbase] at hupdate
      exact hupdate
  | @addApiRoute app record api api' base path methods handler _ hfind hok ih =>
      rcases mem_of_findApi? hfind with ⟨hmem, -⟩
      rcases Api.addRoute_inversion hok with ⟨pattern, -, hadded⟩
      have hbase : api'.basePath = api.basePath := by rw [hadded]
      have hapi' : P api' (record api.basePath) := by
        rw [hadded]
        exact hroute _ _ _ (ih _ hmem)
      have hupdate := each_updateApi ih hapi'
      rw [hbase, Function.update_eq_self] at hupdate
      exact hupdate

end Each

/-! ## Calls that fail -/

/-- In every mounted API whatever is declared can be registered again. -/
theorem ready_of_assembled {app : App E} {record : Bytes → List OperationSpec}
    (h : app.Assembled record) : ∀ api ∈ app.apis, api.Ready := by
  refine h.each (P := fun api _ => api.Ready) (fun _ _ _ hok => Api.ready_create hok) ?_ ?_
  · intro api _ path method _ hready _ _
    rcases Api.addOperation_frame api path method with ⟨hspec, hhandlers, hoptions, -⟩
    exact hready.congr hspec hhandlers hoptions
  · exact fun _ _ _ hready => hready.congr rfl rfl rfl

/-- Among different base paths replacing a mounted API by itself changes nothing. -/
theorem updateApi_self {app : App E} (hdistinct : (app.apis.map Api.basePath).Nodup) {api : Api E}
    (hapi : api ∈ app.apis) : app.updateApi api = app := by
  have hsame : ∀ other ∈ app.apis,
      (if other.basePath = api.basePath then api else other) = other := by
    intro other hother
    split
    · next hbase => exact (List.inj_on_of_nodup_map hdistinct hother hapi hbase).symm
    · rfl
  unfold updateApi
  rw [List.map_congr_left hsame, List.map_id']

/-- Every call leaves an assembled application: one that fails leaves it as it is. -/
theorem Assembled.exists_perform {app : App E} {record : Bytes → List OperationSpec}
    (h : app.Assembled record) (call : SetupCall E) :
    ∃ record', (app.perform call).Assembled record' := by
  cases call with
  | addApi spec handlers options =>
      by_cases hok : (app.addApi spec handlers options).failure = none
      · exact ⟨_, h.addApi hok⟩
      · rw [perform, addApi_of_failure hok]
        exact ⟨record, h⟩
  | addRoute methods path handler =>
      rw [perform]
      cases hadd : app.addRoute methods path handler with
      | error e => exact ⟨record, h⟩
      | ok app' => exact ⟨record, h.addRoute hadd⟩
  | observe observed => exact ⟨record, h.observe observed⟩
  | addApiOperation base path method =>
      rw [perform]
      cases hfind : app.findApi? base with
      | none => exact ⟨record, h⟩
      | some api =>
          dsimp only
          have hapi := (mem_of_findApi? hfind).1
          by_cases hok : (api.addOperation path method).failure = none
          · rcases Api.addOperation_inversion hok with ⟨op, -, -, -, hop, -, -, -⟩
            exact ⟨_, h.addApiOperation hfind hop hok⟩
          · rw [(ready_of_assembled h api hapi).value_addOperation hok,
              updateApi_self (distinct_of_assembled h) hapi]
            exact ⟨record, h⟩
  | addApiRoute base methods path handler =>
      rw [perform]
      cases hfind : app.findApi? base with
      | none => exact ⟨record, h⟩
      | some api =>
          dsimp only
          cases hadd : api.addRoute methods path handler with
          | ok api' => exact ⟨record, h.addApiRoute hfind hadd⟩
          | error e =>
              have hself := updateApi_self (distinct_of_assembled h) (mem_of_findApi? hfind).1
              refine ⟨record, ?_⟩
              dsimp only [Except.toOption, Option.getD]
              rw [hself]
              exact h

/-- Whatever the calls are, the application that they set up is one that successful calls build. -/
theorem exists_assembled_setUp (calls : List (SetupCall E)) :
    ∃ record, (setUp calls).Assembled record := by
  refine foldl_perform (I := fun app => ∃ record, app.Assembled record) ?_ {} ⟨_, .empty⟩ calls
  rintro app call ⟨record, h⟩
  exact h.exists_perform call

/-! ## Agreement with the record -/

/-- Every application that successful calls build is in step with its record. -/
theorem inStep_of_assembled {app : App E} {record : Bytes → List OperationSpec}
    (h : app.Assembled record) : app.InStep record where
  distinct := distinct_of_assembled h
  each := h.each (fun _ _ _ hok => Api.inStep_create hok)
    (fun _ _ _ _ _ hstep hok hop => Api.inStep_addOperation hstep hok hop)
    (fun _ _ routes hstep => Api.inStep_routes hstep routes)

end App
end ApiGateway
