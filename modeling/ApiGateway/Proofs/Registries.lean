import Mathlib.Data.List.Nodup
import ApiGateway.Proofs.Assembly
import ApiGateway.Proofs.RuleFollowed

/-!
# The registries of mounted APIs

An application keeps its APIs in three registries: a list owns them, a table leads from base
paths to them, and the routing middleware has a list of mounts.  A setup call may fail at
any of its parts.  The registries are kept here as they are written, one after the other;
a call that fails leaves all of them as they were, and they always agree, so that one list
of APIs tells all that they tell.

Main definitions:

- `Registries`: the three registries, which refer to APIs by their places in the owning list.
- `Registries.perform`: what a setup call does to each of them, and whether it fails.
- `Registries.InStep`: the three registries agree.
- `Registries.mounted`: the APIs that the successful ones among the calls mount.

Main results:

- `Registries.inStep_perform`: every call keeps the registries in step.
- `Registries.app_perform`: the application with the owned APIs is the one that the calls set up.
- `Registries.setup_is_atomic`: failing calls change nothing, and the registries hold exactly
  what successful calls have mounted.
-/

namespace ApiGateway

variable {E : Signature}

/-- Puts an entry under a name that is free; an earlier entry stays. -/
def Registry.insertNew {α : Type} (r : Registry α) (name : Bytes) (entry : α) : Registry α :=
  if (r.find? name).isSome then r else r.insert name entry

/-- Under a free name the entry is put as by any insertion. -/
theorem Registry.insertNew_of_find?_eq_none {α : Type} {r : Registry α} {name : Bytes}
    (h : r.find? name = none) (entry : α) : r.insertNew name entry = r.insert name entry := by
  rw [insertNew, h]
  exact if_neg Bool.false_ne_true

/--
The registries of an application.  The table by base path and the mounts of the routing middleware
refer to APIs by their places in the list that owns them.
-/
structure Registries (E : Signature) where
  observed : Bool := false
  routes : RouteTable E := RouteTable.empty
  owned : List (Api E) := []
  places : Registry Nat := Registry.empty
  mounts : List Nat := []

namespace Registries

/-! ## Calls -/

/-- Owns one more API, enters its base path, and mounts its operations. -/
def mount (r : Registries E) (api : Api E) : Registries E :=
  { r with
    owned := r.owned ++ [api]
    places := r.places.insertNew api.basePath r.owned.length
    mounts := r.mounts ++ [r.owned.length] }

/-- Sets up an API and mounts it, unless there is one at its base path. -/
def addApi (r : Registries E) (spec : Specification) (handlers : Resolver E)
    (options : ApiOptions) : Registration (Registries E) :=
  let basePath := options.basePathFor spec
  if (r.places.find? basePath).isSome then
    { value := r, failure := some (App.alreadyMounted basePath) }
  else
    let registration := Api.create spec handlers { options with basePath := some basePath }
    match registration.failure with
    | some e => { value := r, log := registration.log, failure := some e }
    | none => { value := r.mount registration.value, log := registration.log }

/-- The API that the table has at a base path, with its place. -/
def find? (r : Registries E) (base : Bytes) : Option (Nat × Api E) :=
  (r.places.find? base).bind fun place => r.owned[place]?.map fun api => (place, api)

/-- Changes the API at a base path in its place, whether or not the change fails. -/
def change (r : Registries E) (base : Bytes) (f : Api E → Registration (Api E)) :
    Registration (Registries E) :=
  match r.find? base with
  | none => { value := r }
  | some (place, api) =>
    let registration := f api
    { value := { r with owned := r.owned.set place registration.value }
      log := registration.log
      failure := registration.failure }

/-- The outcome of an attempt that changes nothing when it fails. -/
def attempt {α : Type} (before : α) : Except Fault α → Registration α
  | .ok after => { value := after }
  | .error e => { value := before, failure := some e }

/-- What a call leaves, and its fault if it fails. -/
def perform (r : Registries E) : SetupCall E → Registration (Registries E)
  | .addApi spec handlers options => r.addApi spec handlers options
  | .addRoute methods path handler =>
    attempt r ((r.routes.add methods path handler []).map fun routes => { r with routes })
  | .observe observed => { value := { r with observed } }
  | .addApiOperation base path method => r.change base fun api => api.addOperation path method
  | .addApiRoute base methods path handler =>
    r.change base fun api => attempt api (api.addRoute methods path handler)

/-- The registries that calls leave one after another. -/
def setUp (calls : List (SetupCall E)) : Registries E :=
  calls.foldl (fun r call => (r.perform call).value) {}

/-! ## The application behind the registries -/

/-- The application with the owned APIs. -/
def app (r : Registries E) : App E where
  observed := r.observed
  routes := r.routes
  apis := r.owned

/-- The base paths of the owned APIs. -/
def basePaths (r : Registries E) : List Bytes :=
  r.owned.map Api.basePath

/-- The routing lists that the middleware goes through, in the order of its mounts. -/
def mountedRoutes (r : Registries E) : List ApiRoutes :=
  r.mounts.filterMap fun place => r.owned[place]?.map Api.routing

/-- The registries agree. -/
structure InStep (r : Registries E) : Prop where
  /-- The table leads from a base path to the place of the API that has it. -/
  places : ∀ base place, r.places.find? base = some place ↔ r.basePaths[place]? = some base
  /-- Every owned API is mounted once, in the order of mounting. -/
  mounts : r.mounts = List.range r.owned.length

/-- What stands at a place of a list with one more member. -/
theorem getElem?_append_singleton_eq_some_iff {α : Type} {l : List α} {a b : α} {i : Nat} :
    (l ++ [b])[i]? = some a ↔ l[i]? = some a ∨ i = l.length ∧ a = b := by
  rw [List.getElem?_append]
  split
  · next hlt => simp [Nat.ne_of_lt hlt]
  · next hge =>
    have hnone : l[i]? = none := List.getElem?_eq_none (Nat.le_of_not_lt hge)
    rw [hnone, List.getElem?_singleton]
    grind

namespace InStep

variable {r : Registries E}

/-- No registry has anything at the beginning. -/
theorem empty : ({} : Registries E).InStep where
  places base place := by
    rw [Registry.find?_empty]
    exact ⟨nofun, nofun⟩
  mounts := rfl

/-- What the table leads to is the API with that base path, in its place. -/
theorem find?_eq_some_iff (h : r.InStep) {base : Bytes} {place : Nat} {api : Api E} :
    r.find? base = some (place, api) ↔ r.owned[place]? = some api ∧ api.basePath = base := by
  simp only [find?, Option.bind_eq_some_iff, Option.map_eq_some_iff, Prod.mk.injEq]
  constructor
  · rintro ⟨found, hplace, other, hother, rfl, rfl⟩
    refine ⟨hother, ?_⟩
    rw [h.places, basePaths, List.getElem?_map, hother] at hplace
    exact Option.some.inj hplace
  · rintro ⟨hother, rfl⟩
    refine ⟨place, ?_, api, hother, rfl, rfl⟩
    rw [h.places, basePaths, List.getElem?_map, hother]
    rfl

/-- The base paths of owned APIs differ. -/
theorem nodup (h : r.InStep) : r.basePaths.Nodup := by
  rw [List.nodup_iff_getElem?_ne_getElem?]
  intro i j hij hj heq
  have hi := List.getElem?_eq_getElem hj
  have hfirst := (h.places _ _).2 (heq.trans hi)
  rw [(h.places _ _).2 hi] at hfirst
  exact Nat.ne_of_gt hij (Option.some.inj hfirst)

/-- The table leads to a mounted API of that base path, or there is none. -/
theorem find?_cases (h : r.InStep) (base : Bytes) :
    (∃ place api, r.find? base = some (place, api) ∧ api ∈ r.app.apis ∧ api.basePath = base) ∨
      (r.find? base = none ∧ ∀ api ∈ r.app.apis, api.basePath ≠ base) := by
  cases hfound : r.find? base with
  | some found =>
      rcases found with ⟨place, api⟩
      rcases h.find?_eq_some_iff.1 hfound with ⟨hplace, hbase⟩
      exact .inl ⟨place, api, rfl, List.mem_of_getElem? hplace, hbase⟩
  | none =>
      refine .inr ⟨rfl, fun api hmem hbase => ?_⟩
      rcases List.mem_iff_getElem?.1 hmem with ⟨place, hplace⟩
      rw [h.find?_eq_some_iff.2 ⟨hplace, hbase⟩] at hfound
      cases hfound

/-- The table leads to the API that the application finds. -/
theorem findApi?_app (h : r.InStep) (base : Bytes) :
    r.app.findApi? base = (r.find? base).map Prod.snd := by
  rcases h.find?_cases base with ⟨place, api, hfound, hmem, rfl⟩ | ⟨hfound, hfree⟩
  · have hdistinct : (r.app.apis.map Api.basePath).Nodup := h.nodup
    rw [hfound]
    exact App.findApi?_of_nodup hdistinct hmem
  · rw [hfound, Option.map_none, Option.eq_none_iff_forall_ne_some]
    intro api hmounted
    rcases App.mem_of_findApi? hmounted with ⟨hmem, hbase⟩
    exact hfree api hmem hbase

/-- A base path is free in the table if the application finds nothing there. -/
theorem find?_places_eq_none (h : r.InStep) {base : Bytes} :
    r.places.find? base = none ↔ r.app.findApi? base = none := by
  rw [h.findApi?_app, Option.map_eq_none_iff]
  cases hplace : r.places.find? base with
  | none => simp [find?, hplace]
  | some place =>
      have hbase := (h.places base place).1 hplace
      rw [basePaths, List.getElem?_map, Option.map_eq_some_iff] at hbase
      rcases hbase with ⟨api, hapi, hbase⟩
      rw [h.find?_eq_some_iff.2 ⟨hapi, hbase⟩]
      simp

/-- Changing APIs without their base paths keeps the registries in step. -/
theorem of_basePaths_eq (h : r.InStep) {owned : List (Api E)}
    (hbases : owned.map Api.basePath = r.basePaths) :
    ({ r with owned := owned } : Registries E).InStep where
  places base place := by
    rw [basePaths, hbases]
    exact h.places base place
  mounts := by
    have hlength := congrArg List.length hbases
    rw [basePaths, List.length_map, List.length_map] at hlength
    rw [hlength]
    exact h.mounts

/-- Mounting an API with a new base path keeps the registries in step. -/
theorem mount (h : r.InStep) {api : Api E} (hfree : r.places.find? api.basePath = none) :
    (r.mount api).InStep where
  places base place := by
    have hplaces : (r.mount api).places.find? base =
        if base = api.basePath then some r.owned.length else r.places.find? base := by
      rw [← Registry.find?_insert, ← Registry.insertNew_of_find?_eq_none hfree]
      rfl
    have hbases : (r.mount api).basePaths[place]? = some base ↔
        r.basePaths[place]? = some base ∨ place = r.owned.length ∧ base = api.basePath := by
      have hsplit : (r.mount api).basePaths = r.basePaths ++ [api.basePath] := List.map_append
      have hlength : r.basePaths.length = r.owned.length := List.length_map _
      rw [hsplit, getElem?_append_singleton_eq_some_iff, hlength]
    rw [hplaces, hbases, ← h.places]
    by_cases hbase : base = api.basePath
    · rw [if_pos hbase, hbase, hfree, Option.some_inj]
      simp [eq_comm]
    · rw [if_neg hbase]
      simp [hbase]
  mounts := by
    have hmounts : (r.mount api).mounts = r.mounts ++ [r.owned.length] := rfl
    have hlength : (r.mount api).owned.length = r.owned.length + 1 := List.length_append
    rw [hmounts, hlength, h.mounts, List.range_succ]

end InStep

/-! ## Calls keep the registries in step -/

section Calls

variable {r : Registries E}

/-- Replacing an API in its place leaves what it has in common with its replacement. -/
theorem map_set_of_getElem? {α β : Type} {l : List α} {i : Nat} {a b : α} {f : α → β}
    (ha : l[i]? = some a) (hf : f b = f a) : (l.set i b).map f = l.map f := by
  rcases List.getElem?_eq_some_iff.1 ha with ⟨hi, rfl⟩
  have hlength : i < (l.map f).length := by
    rw [List.length_map]
    exact hi
  have hsame : (l.map f)[i] = f b := (List.getElem_map f).trans hf.symm
  rw [List.map_set, ← hsame, List.set_getElem_self]

/-- A base path at which nothing is owned has no API to change. -/
theorem change_of_find?_eq_none {base : Bytes} (h : r.find? base = none)
    (f : Api E → Registration (Api E)) : r.change base f = { value := r } := by
  rw [change, h]

/-- Changing an API replaces it in its place. -/
theorem change_of_find?_eq_some {base : Bytes} {place : Nat} {api : Api E}
    (h : r.find? base = some (place, api)) (f : Api E → Registration (Api E)) :
    r.change base f =
      { value := { r with owned := r.owned.set place (f api).value }
        log := (f api).log
        failure := (f api).failure } := by
  rw [change, h]

/-- Mounting an API either fails before anything is changed, or sets one up with a new base path. -/
theorem addApi_cases (r : Registries E) (spec : Specification) (handlers : Resolver E)
    (options : ApiOptions) :
    let basePath := options.basePathFor spec
    let registration := Api.create spec handlers { options with basePath := some basePath }
    ((r.addApi spec handlers options).value = r ∧
        (r.addApi spec handlers options).failure ≠ none ∧
        (r.places.find? basePath ≠ none ∨ registration.failure ≠ none)) ∨
      ((r.addApi spec handlers options).value = r.mount registration.value ∧
        (r.addApi spec handlers options).failure = none ∧
        r.places.find? basePath = none ∧ registration.failure = none) := by
  intro basePath registration
  unfold addApi
  dsimp only
  by_cases hmounted : (r.places.find? basePath).isSome
  · rw [if_pos hmounted]
    exact .inl ⟨rfl, nofun, .inl (Option.isSome_iff_ne_none.1 hmounted)⟩
  · rw [if_neg hmounted]
    have hfree := Option.not_isSome_iff_eq_none.1 hmounted
    cases hfailure : registration.failure with
    | some e => exact .inl ⟨rfl, nofun, .inr nofun⟩
    | none => exact .inr ⟨rfl, rfl, hfree, rfl⟩

/-- The API that is set up for mounting has the base path that was looked up. -/
theorem basePath_create (spec : Specification) (handlers : Resolver E) (options : ApiOptions) :
    (Api.create spec handlers
      { options with basePath := some (options.basePathFor spec) }).value.basePath =
        options.basePathFor spec := by
  rw [(Api.create_frame _ _ _).2.2.2]
  exact normalizeBasePath_idem _

/-- Every call keeps the registries in step. -/
theorem inStep_perform (h : r.InStep) (call : SetupCall E) : (r.perform call).value.InStep := by
  have hchange (base : Bytes) (f : Api E → Registration (Api E))
      (hf : ∀ api, (f api).value.basePath = api.basePath) : (r.change base f).value.InStep := by
    cases hfound : r.find? base with
    | none =>
        rw [change_of_find?_eq_none hfound]
        exact h
    | some found =>
        rcases found with ⟨place, api⟩
        rw [change_of_find?_eq_some hfound]
        exact h.of_basePaths_eq
          (map_set_of_getElem? (h.find?_eq_some_iff.1 hfound).1 (hf api))
  cases call with
  | addApi spec handlers options =>
      rw [perform]
      rcases r.addApi_cases spec handlers options with ⟨hvalue, -⟩ | ⟨hvalue, -, hfree, -⟩
      · rw [hvalue]
        exact h
      · rw [hvalue]
        apply h.mount
        rw [basePath_create]
        exact hfree
  | addRoute methods path handler =>
      rw [perform]
      cases r.routes.add methods path handler [] with
      | error e => exact h
      | ok routes => exact ⟨h.places, h.mounts⟩
  | observe observed => exact ⟨h.places, h.mounts⟩
  | addApiOperation base path method =>
      exact hchange base _ fun api => (Api.addOperation_frame api path method).2.2.2
  | addApiRoute base methods path handler =>
      refine hchange base _ fun api => ?_
      cases hadd : api.addRoute methods path handler with
      | error e => rfl
      | ok api' =>
          rcases Api.addRoute_inversion hadd with ⟨pattern, -, rfl⟩
          rfl

/-- Replacing an owned API in its place replaces it in the application. -/
theorem app_set (h : r.InStep) {place : Nat} {api api' : Api E}
    (hplace : r.owned[place]? = some api) (hbase : api'.basePath = api.basePath) :
    ({ r with owned := r.owned.set place api' } : Registries E).app = r.app.updateApi api' := by
  have howned : r.owned.set place api' =
      r.owned.map fun other => if other.basePath = api'.basePath then api' else other := by
    apply List.ext_getElem?
    intro i
    rw [List.getElem?_set, List.getElem?_map]
    rcases List.getElem?_eq_some_iff.1 hplace with ⟨hlt, rfl⟩
    by_cases hi : place = i
    · subst hi
      rw [if_pos rfl, if_pos hlt, hplace, Option.map_some, if_pos hbase.symm]
    · rw [if_neg hi]
      cases hother : r.owned[i]? with
      | none => rfl
      | some other =>
          have hne : other.basePath ≠ api'.basePath := by
            intro hsame
            have hbases : r.basePaths[i]? = r.basePaths[place]? := by
              rw [basePaths, List.getElem?_map, List.getElem?_map, hother, hplace,
                Option.map_some, Option.map_some, hsame, hbase]
            have hbound : place < r.basePaths.length := by
              rw [basePaths, List.length_map]
              exact hlt
            exact hi ((List.getElem?_inj hbound h.nodup).1 hbases.symm)
          rw [Option.map_some, if_neg hne]
  rw [app, howned]
  rfl

/-- What a call leaves of the registries is what it leaves of the application. -/
theorem app_perform (h : r.InStep) (call : SetupCall E) :
    (r.perform call).value.app = r.app.perform call := by
  cases call with
  | addApi spec handlers options =>
      rw [perform, App.perform, App.addApi]
      dsimp only
      rcases r.addApi_cases spec handlers options with
        ⟨hvalue, -, hfailed⟩ | ⟨hvalue, -, hfree, hok⟩
      · rw [hvalue]
        by_cases hmounted : (r.app.findApi? (options.basePathFor spec)).isSome
        · rw [if_pos hmounted]
        · rw [if_neg hmounted]
          have hfree := h.find?_places_eq_none.2 (Option.not_isSome_iff_eq_none.1 hmounted)
          rcases hfailed with hused | hfailed
          · exact absurd hfree hused
          · rcases Option.ne_none_iff_exists'.1 hfailed with ⟨e, he⟩
            rw [he]
      · have hmounted : ¬(r.app.findApi? (options.basePathFor spec)).isSome := by
          rw [h.find?_places_eq_none.1 hfree]
          exact Bool.false_ne_true
        rw [hvalue, if_neg hmounted, hok]
        rfl
  | addRoute methods path handler =>
      rw [perform, App.perform, App.addRoute]
      have hroutes : r.app.routes = r.routes := rfl
      rw [hroutes]
      cases r.routes.add methods path handler [] with
      | error e => rfl
      | ok routes => rfl
  | observe observed => rfl
  | addApiOperation base path method =>
      rw [perform, App.perform, h.findApi?_app]
      cases hfound : r.find? base with
      | none =>
          rw [change_of_find?_eq_none hfound]
          rfl
      | some found =>
          rcases found with ⟨place, api⟩
          rw [change_of_find?_eq_some hfound]
          exact app_set h (h.find?_eq_some_iff.1 hfound).1
            (Api.addOperation_frame api path method).2.2.2
  | addApiRoute base methods path handler =>
      rw [perform, App.perform, h.findApi?_app]
      cases hfound : r.find? base with
      | none =>
          rw [change_of_find?_eq_none hfound]
          rfl
      | some found =>
          rcases found with ⟨place, api⟩
          have hplace := (h.find?_eq_some_iff.1 hfound).1
          rw [change_of_find?_eq_some hfound, Option.map_some]
          dsimp only
          cases hadd : api.addRoute methods path handler with
          | error e => exact app_set h hplace rfl
          | ok api' =>
              rcases Api.addRoute_inversion hadd with ⟨pattern, -, rfl⟩
              exact app_set h hplace rfl

/-! ## Failing calls -/

/-- Where everything declared can be registered, a call that fails leaves all registries alone. -/
theorem perform_of_failure (h : r.InStep) (hready : ∀ api ∈ r.owned, api.Ready)
    {call : SetupCall E} (hfailed : (r.perform call).failure ≠ none) :
    (r.perform call).value = r := by
  have hchange {base : Bytes} {f : Api E → Registration (Api E)}
      (hf : ∀ api ∈ r.owned, (f api).failure ≠ none → (f api).value = api)
      (hfailed : (r.change base f).failure ≠ none) : (r.change base f).value = r := by
    cases hfound : r.find? base with
    | none => rw [change_of_find?_eq_none hfound]
    | some found =>
        rcases found with ⟨place, api⟩
        rw [change_of_find?_eq_some hfound] at hfailed ⊢
        have hplace := (h.find?_eq_some_iff.1 hfound).1
        dsimp only at hfailed ⊢
        rw [hf api (List.mem_of_getElem? hplace) hfailed]
        rcases List.getElem?_eq_some_iff.1 hplace with ⟨hlt, rfl⟩
        rw [List.set_getElem_self]
  cases call with
  | addApi spec handlers options =>
      rcases r.addApi_cases spec handlers options with ⟨hvalue, -⟩ | ⟨-, hok, -⟩
      · exact hvalue
      · exact absurd hok hfailed
  | addRoute methods path handler =>
      rw [perform] at hfailed ⊢
      cases hadd : r.routes.add methods path handler [] with
      | error e => rfl
      | ok routes =>
          rw [hadd] at hfailed
          exact absurd rfl hfailed
  | observe observed => exact absurd rfl hfailed
  | addApiOperation base path method =>
      exact hchange (fun api hapi hfails => (hready api hapi).value_addOperation hfails) hfailed
  | addApiRoute base methods path handler =>
      refine hchange (fun api _ hfails => ?_) hfailed
      cases hadd : api.addRoute methods path handler with
      | error e => rfl
      | ok api' =>
          rw [hadd] at hfails
          exact absurd rfl hfails

end Calls

/-! ## What successful calls have mounted -/

/-- What an API has been mounted with, and where. -/
structure Mounting (E : Signature) where
  spec : Specification
  handlers : Resolver E
  options : ApiOptions
  basePath : Bytes

/-- What an owned API has been mounted with. -/
def mountingOf (api : Api E) : Mounting E :=
  ⟨api.spec, api.handlers, api.options, api.basePath⟩

/-- What a call mounts, if it is one that mounts an API and succeeds. -/
def mounting? (r : Registries E) : SetupCall E → Option (Mounting E)
  | .addApi spec handlers options =>
    let basePath := options.basePathFor spec
    match (r.addApi spec handlers options).failure with
    | some _ => none
    | none => some ⟨spec, handlers, { options with basePath := some basePath }, basePath⟩
  | _ => none

/-- What calls mount one after another. -/
def mounted (r : Registries E) : List (SetupCall E) → List (Mounting E)
  | [] => []
  | call :: rest => (r.mounting? call).toList ++ mounted (r.perform call).value rest

/-- A call adds to the owned APIs what it mounts, and keeps what the others were mounted with. -/
theorem mountings_perform {r : Registries E} (h : r.InStep) (call : SetupCall E) :
    (r.perform call).value.owned.map mountingOf =
      r.owned.map mountingOf ++ (r.mounting? call).toList := by
  have hchange (base : Bytes) (f : Api E → Registration (Api E))
      (hf : ∀ api, mountingOf (f api).value = mountingOf api) :
      (r.change base f).value.owned.map mountingOf = r.owned.map mountingOf := by
    cases hfound : r.find? base with
    | none => rw [change_of_find?_eq_none hfound]
    | some found =>
        rcases found with ⟨place, api⟩
        rw [change_of_find?_eq_some hfound]
        exact map_set_of_getElem? (h.find?_eq_some_iff.1 hfound).1 (hf api)
  cases call with
  | addApi spec handlers options =>
      rw [perform, mounting?]
      rcases r.addApi_cases spec handlers options with ⟨hvalue, hfailed, -⟩ | ⟨hvalue, hok, -⟩
      · rcases Option.ne_none_iff_exists'.1 hfailed with ⟨e, he⟩
        rw [hvalue, he]
        exact (List.append_nil _).symm
      · have hgiven := Api.create_frame spec handlers
          { options with basePath := some (options.basePathFor spec) }
        rw [hvalue, hok, mount, List.map_append, List.map_singleton, mountingOf, hgiven.1,
          hgiven.2.1, hgiven.2.2.1, basePath_create]
        rfl
  | addRoute methods path handler =>
      rw [perform]
      cases r.routes.add methods path handler [] with
      | error e => exact (List.append_nil _).symm
      | ok routes => exact (List.append_nil _).symm
  | observe observed => exact (List.append_nil _).symm
  | addApiOperation base path method =>
      refine (hchange base _ fun api => ?_).trans (List.append_nil _).symm
      rcases Api.addOperation_frame api path method with ⟨hspec, hhandlers, hoptions, hbase⟩
      rw [mountingOf, hspec, hhandlers, hoptions, hbase]
      rfl
  | addApiRoute base methods path handler =>
      refine (hchange base _ fun api => ?_).trans (List.append_nil _).symm
      cases hadd : api.addRoute methods path handler with
      | error e => rfl
      | ok api' =>
          rcases Api.addRoute_inversion hadd with ⟨pattern, -, rfl⟩
          rfl

/-! ## Sequences of calls -/

/-- After any calls the registries are in step, and the application is the one that is set up. -/
theorem inStep_foldl {r : Registries E} (h : r.InStep) (calls : List (SetupCall E)) :
    let final := calls.foldl (fun r call => (r.perform call).value) r
    final.InStep ∧ final.app = calls.foldl App.perform r.app ∧
      final.owned.map mountingOf = r.owned.map mountingOf ++ r.mounted calls := by
  induction calls generalizing r with
  | nil => exact ⟨h, rfl, (List.append_nil _).symm⟩
  | cons call rest ih =>
      rcases ih (inStep_perform h call) with ⟨hstep, happ, hmounted⟩
      refine ⟨hstep, ?_, ?_⟩
      · rw [List.foldl_cons, List.foldl_cons, happ, app_perform h]
      · rw [List.foldl_cons, hmounted, mountings_perform h, mounted, List.append_assoc]

/-- Going through the places of a list goes through its members. -/
theorem filterMap_range {α β : Type} (f : α → β) (l : List α) :
    (List.range l.length).filterMap (fun i => l[i]?.map f) = l.map f := by
  induction l using List.reverseRecOn with
  | nil => rfl
  | append_singleton rest last ih =>
      have hbefore : ∀ i ∈ List.range rest.length,
          (rest ++ [last])[i]?.map f = rest[i]?.map f := by
        intro i hi
        rw [List.getElem?_append_left (List.mem_range.1 hi)]
      have hlast : [rest.length].filterMap (fun i => (rest ++ [last])[i]?.map f) = [f last] := by
        rw [List.filterMap_cons, List.getElem?_concat_length]
        rfl
      rw [List.length_append, List.length_singleton, List.range_succ, List.filterMap_append,
        List.filterMap_congr hbefore, ih, hlast, List.map_append, List.map_singleton]

/-- The routing lists of the mounts are those of the owned APIs. -/
theorem InStep.mountedRoutes_eq {r : Registries E} (h : r.InStep) :
    r.mountedRoutes = r.app.apis.map Api.routing := by
  rw [mountedRoutes, h.mounts]
  exact filterMap_range Api.routing r.owned

/-- The dispatcher reaches at a base path the API to which the table leads. -/
theorem InStep.find?_subApps {r : Registries E} (h : r.InStep) (base : Bytes) :
    r.app.subApps.find? base = (r.find? base).map fun found => found.2.serve r.observed := by
  rcases h.find?_cases base with ⟨place, api, hfound, hmem, rfl⟩ | ⟨hfound, hfree⟩
  · have hdistinct : (r.app.apis.map Api.basePath).Nodup := h.nodup
    rw [hfound]
    exact App.find?_subApps hdistinct hmem
  · rw [hfound, Option.map_none, Option.eq_none_iff_forall_ne_some]
    intro subApp hmounted
    rcases List.mem_map.1 (Registry.mem_of_find?_ofList hmounted) with ⟨api, hmem, hentry⟩
    exact hfree api hmem (congrArg Prod.fst hentry)

/-- The base paths that calls leave do not end with a slash. -/
theorem getLast?_basePaths_setUp (calls : List (SetupCall E)) :
    ∀ api ∈ (App.setUp calls).apis, api.basePath.getLast? ≠ some 47 := by
  refine App.foldl_perform (I := fun app => ∀ api ∈ app.apis, api.basePath.getLast? ≠ some 47)
    (fun app call h => ?_) {} nofun calls
  refine App.each_perform (P := fun api => api.basePath.getLast? ≠ some 47) ?_ ?_ ?_ h call
  · intro spec handlers options _ _
    rw [(Api.create_frame spec handlers options).2.2.2]
    exact getLast?_normalizeBasePath _
  · intro api path method hapi
    rw [(Api.addOperation_frame api path method).2.2.2]
    exact hapi
  · exact fun _ _ _ hapi => hapi

/--
Setting up is atomic, and the registries stay in step.  After any calls, of which any may have
failed, a further call that fails leaves the owned APIs with all their tables, the table by base
path, the mounts and the manual routes exactly as they were.  The owned APIs are those that the
successful calls have mounted, in order; the table leads from every base path to the place of the
API that has it and from nowhere else, and every owned API is mounted once.  The base paths differ,
and none ends with a slash.  The application that serves requests is the one with these APIs: its
routing goes through the mounts, and its dispatcher reaches what the table leads to.
-/
theorem setup_is_atomic (calls : List (SetupCall E)) :
    let r := setUp calls
    (∀ call, (r.perform call).failure ≠ none → (r.perform call).value = r) ∧
      r.owned.map mountingOf = mounted {} calls ∧
      (∀ base place, r.places.find? base = some place ↔ r.basePaths[place]? = some base) ∧
      r.mounts = List.range r.owned.length ∧
      r.basePaths.Nodup ∧ (∀ base ∈ r.basePaths, base.getLast? ≠ some 47) ∧
      r.app = App.setUp calls ∧
      r.mountedRoutes = (App.setUp calls).apis.map Api.routing ∧
      ∀ base, (App.setUp calls).subApps.find? base =
        (r.find? base).map fun found => found.2.serve r.observed := by
  intro r
  rcases inStep_foldl InStep.empty calls with ⟨hstep, happ, hmounted⟩
  change r.InStep at hstep
  change r.app = App.setUp calls at happ
  have hready : ∀ api ∈ r.owned, api.Ready := by
    rcases App.exists_assembled_setUp calls with ⟨record, hassembled⟩
    rw [← happ] at hassembled
    exact App.ready_of_assembled hassembled
  have hslash : ∀ base ∈ r.basePaths, base.getLast? ≠ some 47 := by
    intro base hbase
    rcases List.mem_map.1 hbase with ⟨api, hapi, rfl⟩
    have hend := getLast?_basePaths_setUp calls
    rw [← happ] at hend
    exact hend api hapi
  refine ⟨fun call hfailed => perform_of_failure hstep hready hfailed, hmounted, hstep.places,
    hstep.mounts, hstep.nodup, hslash, happ, ?_, ?_⟩
  · rw [← happ]
    exact hstep.mountedRoutes_eq
  · rw [← happ]
    exact hstep.find?_subApps

end Registries
end ApiGateway
