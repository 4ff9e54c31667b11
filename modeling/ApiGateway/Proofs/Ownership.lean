import ApiGateway.Proofs.Assembly
import ApiGateway.Proofs.RoutingLists

/-!
# Owners and selected operations

The routing middleware looks for the owner of a path and for an operation among the
routing lists of the mounted APIs.  Both are described here by what has been
registered, without the lists.

Main definitions:

- `OperationSpec.Fits`, `Selected`: the earliest fitting operation with the most literal
  segments.
- `App.Owner`: the API with the longest of the base paths that own a path.

Main results:

- `ApiRoutes.match?_eq_some_iff`, `ApiRoutes.match?_eq_none_iff`: a routing list selects what
  the description says.
- `App.InStep.longestOwner_iff`, `App.InStep.unowned_iff`: so does the search for an owner.
-/

namespace ApiGateway

variable {E : Signature}

/-! ## Operations -/

/-- The operation answers requests of the method whose path matches its template. -/
def OperationSpec.Fits (op : OperationSpec) (method : Http.Method) (path : Bytes)
    (params : Params) : Prop :=
  op.method = method ∧
    ∃ pattern, Routing.Pattern.parse op.path = .ok pattern ∧ pattern.match? path = some params

/-- The number of literal segments of the template, none if it is malformed. -/
def OperationSpec.literals (op : OperationSpec) : Nat :=
  match Routing.Pattern.parse op.path with
  | .ok pattern => pattern.literalCount
  | .error _ => 0

/--
Of the operations that fit a request, this one has the most literal segments and is the earliest
of those.
-/
def Selected (registered : List OperationSpec) (method : Http.Method) (path : Bytes)
    (op : OperationSpec) (params : Params) : Prop :=
  ∃ before after, registered = before ++ op :: after ∧ op.Fits method path params ∧
    (∀ other ∈ before, ∀ ps, other.Fits method path ps → other.literals < op.literals) ∧
    ∀ other ∈ after, ∀ ps, other.Fits method path ps → other.literals ≤ op.literals

namespace OperationSpec

/-- The candidate that an operation becomes if it fits a request. -/
def candidate? (method : Http.Method) (path : Bytes) (op : OperationSpec) :
    Option (Routing.Candidate OperationRoute) :=
  op.route?.bind fun route =>
    if route.method = method then Routing.Candidate.of? OperationRoute.pattern path route else none

/-- An operation becomes a candidate exactly if it fits. -/
theorem candidate?_eq_some_iff {op : OperationSpec} {method : Http.Method} {path : Bytes}
    {c : Routing.Candidate OperationRoute} :
    op.candidate? method path = some c ↔
      ∃ pattern, Routing.Pattern.parse op.path = .ok pattern ∧ op.method = method ∧
        pattern.match? path = some c.params ∧
        c = ⟨⟨op.method, pattern, op.operationId⟩, c.params, pattern.score⟩ := by
  unfold candidate? route?
  cases hparse : Routing.Pattern.parse op.path with
  | error e => simp [Except.toOption]
  | ok pattern =>
      simp only [Except.toOption, Option.map_some, Option.bind_some, Except.ok.injEq,
        exists_eq_left']
      by_cases hmethod : op.method = method
      · rw [if_pos hmethod, Routing.Candidate.of?, Option.map_eq_some_iff]
        constructor
        · rintro ⟨params, hmatch, rfl⟩
          exact ⟨hmethod, hmatch, rfl⟩
        · rintro ⟨-, hmatch, hc⟩
          exact ⟨c.params, hmatch, hc.symm⟩
      · rw [if_neg hmethod]
        simp [hmethod]

/-- The parameters of a candidate are those with which its operation fits. -/
theorem fits_iff {op : OperationSpec} {method : Http.Method} {path : Bytes} {params : Params} :
    op.Fits method path params ↔
      ∃ c, op.candidate? method path = some c ∧ c.params = params := by
  constructor
  · rintro ⟨hmethod, pattern, hparse, hmatch⟩
    refine ⟨⟨⟨op.method, pattern, op.operationId⟩, params, pattern.score⟩, ?_, rfl⟩
    exact candidate?_eq_some_iff.2 ⟨pattern, hparse, hmethod, hmatch, rfl⟩
  · rintro ⟨c, hc, rfl⟩
    rcases candidate?_eq_some_iff.1 hc with ⟨pattern, hparse, hmethod, hmatch, -⟩
    exact ⟨hmethod, pattern, hparse, hmatch⟩

/-- Candidates for the same request score by the literal segments of their operations. -/
theorem score_lt_iff {op other : OperationSpec} {method : Http.Method} {path : Bytes}
    {c d : Routing.Candidate OperationRoute} (hc : op.candidate? method path = some c)
    (hd : other.candidate? method path = some d) :
    d.score < c.score ↔ other.literals < op.literals := by
  rcases candidate?_eq_some_iff.1 hc with ⟨pattern, hparse, -, hmatch, hcandidate⟩
  rcases candidate?_eq_some_iff.1 hd with ⟨pattern', hparse', -, hmatch', hcandidate'⟩
  rw [hcandidate, hcandidate', literals, literals, hparse, hparse']
  exact Routing.score_lt_iff hmatch' hmatch

end OperationSpec

/-- The selected operation is the first greatest of the candidates by score. -/
theorem selected_iff {registered : List OperationSpec} {method : Http.Method} {path : Bytes}
    {op : OperationSpec} {params : Params} :
    Selected registered method path op params ↔
      ∃ before after c, registered = before ++ op :: after ∧
        op.candidate? method path = some c ∧ c.params = params ∧
        (∀ other ∈ before, ∀ d, other.candidate? method path = some d → d.score < c.score) ∧
        ∀ other ∈ after, ∀ d, other.candidate? method path = some d → d.score ≤ c.score := by
  constructor
  · rintro ⟨before, after, hsplit, hfits, hbefore, hafter⟩
    rcases OperationSpec.fits_iff.1 hfits with ⟨c, hc, hparams⟩
    refine ⟨before, after, c, hsplit, hc, hparams, ?_, ?_⟩
    · intro other hmem d hd
      rw [OperationSpec.score_lt_iff hc hd]
      exact hbefore other hmem d.params (OperationSpec.fits_iff.2 ⟨d, hd, rfl⟩)
    · intro other hmem d hd
      rw [← Nat.not_lt, OperationSpec.score_lt_iff hd hc, Nat.not_lt]
      exact hafter other hmem d.params (OperationSpec.fits_iff.2 ⟨d, hd, rfl⟩)
  · rintro ⟨before, after, c, hsplit, hc, hparams, hbefore, hafter⟩
    refine ⟨before, after, hsplit, OperationSpec.fits_iff.2 ⟨c, hc, hparams⟩, ?_, ?_⟩
    · intro other hmem ps hfits
      rcases OperationSpec.fits_iff.1 hfits with ⟨d, hd, -⟩
      rw [← OperationSpec.score_lt_iff hc hd]
      exact hbefore other hmem d hd
    · intro other hmem ps hfits
      rcases OperationSpec.fits_iff.1 hfits with ⟨d, hd, -⟩
      rw [← Nat.not_lt, ← OperationSpec.score_lt_iff hd hc, Nat.not_lt]
      exact hafter other hmem d hd

namespace ApiRoutes

/-- The candidates of a routing list are those of the operations that it was built from. -/
theorem match?_eq_foldl_pick {routes : ApiRoutes} {registered : List OperationSpec}
    (h : routes.operations = registered.filterMap OperationSpec.route?) (method : Http.Method)
    (path : Bytes) :
    routes.match? method path =
      ((registered.filterMap (OperationSpec.candidate? method path)).foldl
        (Routing.pick Routing.Candidate.score) none).map fun c => (c.entry, c.params) := by
  have hcandidates : (routes.operations.filter fun op => op.method = method).filterMap
      (Routing.Candidate.of? OperationRoute.pattern path) =
      registered.filterMap (OperationSpec.candidate? method path) := by
    rw [h, List.filterMap_filter, List.filterMap_filterMap]
    congr 1
    funext op
    simp only [OperationSpec.candidate?, decide_eq_true_eq]
  unfold match?
  dsimp only
  rw [hcandidates, Routing.mostSpecific_eq_foldl_pick]

/-- A routing list selects the operation that the rule names. -/
theorem match?_eq_some_iff {routes : ApiRoutes} {registered : List OperationSpec}
    (h : routes.operations = registered.filterMap OperationSpec.route?) {method : Http.Method}
    {path : Bytes} {id : Bytes} {params : Params} :
    (∃ entry, routes.match? method path = some (entry, params) ∧ entry.operationId = id) ↔
      ∃ op, Selected registered method path op params ∧ op.operationId = id := by
  rw [match?_eq_foldl_pick h]
  constructor
  · rintro ⟨entry, hmatch, hid⟩
    rcases Option.map_eq_some_iff.1 hmatch with ⟨c, hpick, hc⟩
    cases hc
    obtain ⟨before, op, after, hsplit, hcandidate, hbefore, hafter⟩ :=
      (Routing.firstGreatest_filterMap_iff _).1 ((Routing.foldl_pick_iff _).1 hpick)
    refine ⟨op, selected_iff.2 ⟨before, after, c, hsplit, hcandidate, rfl, hbefore, hafter⟩, ?_⟩
    rcases OperationSpec.candidate?_eq_some_iff.1 hcandidate with ⟨pattern, -, -, -, hentry⟩
    rw [← hid, hentry]
  · rintro ⟨op, hselected, hid⟩
    obtain ⟨before, after, c, hsplit, hcandidate, hparams, hbefore, hafter⟩ :=
      selected_iff.1 hselected
    have hpick := (Routing.foldl_pick_iff _).2 ((Routing.firstGreatest_filterMap_iff _).2
      ⟨before, op, after, hsplit, hcandidate, hbefore, hafter⟩)
    refine ⟨c.entry, ?_, ?_⟩
    · rw [hpick, Option.map_some, hparams]
    · rcases OperationSpec.candidate?_eq_some_iff.1 hcandidate with ⟨pattern, -, -, -, hentry⟩
      rw [hentry, ← hid]

/-- A routing list selects nothing exactly if no operation fits. -/
theorem match?_eq_none_iff {routes : ApiRoutes} {registered : List OperationSpec}
    (h : routes.operations = registered.filterMap OperationSpec.route?) {method : Http.Method}
    {path : Bytes} :
    routes.match? method path = none ↔
      ∀ op ∈ registered, ∀ params, ¬op.Fits method path params := by
  rw [match?_eq_foldl_pick h, Option.map_eq_none_iff, Routing.foldl_pick_eq_none_iff,
    List.filterMap_eq_nil_iff]
  constructor
  · intro hnone op hop params hfits
    rcases OperationSpec.fits_iff.1 hfits with ⟨c, hc, -⟩
    rw [hnone op hop] at hc
    cases hc
  · intro hnone op hop
    cases hc : op.candidate? method path with
    | none => rfl
    | some c => exact absurd (OperationSpec.fits_iff.2 ⟨c, hc, rfl⟩) (hnone op hop c.params)

end ApiRoutes

/-! ## Owners -/

namespace App

/-- The mounted API with the longest of the base paths that own a path. -/
structure Owner (app : App E) (path : Bytes) (api : Api E) : Prop where
  mounted : api ∈ app.apis
  based : api.basePath ≠ []
  owns : Routing.Owns api.basePath path
  longest : ∀ other ∈ app.apis, other.basePath ≠ [] → Routing.Owns other.basePath path →
    other.basePath.length ≤ api.basePath.length

/-- No mounted API with a base path owns a path. -/
def Unowned (app : App E) (path : Bytes) : Prop :=
  ∀ api ∈ app.apis, api.basePath ≠ [] → ¬Routing.Owns api.basePath path

namespace InStep

variable {app : App E} {record : Bytes → List OperationSpec} {path : Bytes}

/-- A mounted API is determined by its base path. -/
theorem eq_of_basePath_eq (h : app.InStep record) {api other : Api E} (hapi : api ∈ app.apis)
    (hother : other ∈ app.apis) (hbase : api.basePath = other.basePath) : api = other :=
  List.inj_on_of_nodup_map h.distinct hapi hother hbase

/-- The routing lists of the mounted APIs have their base paths. -/
theorem basePaths_routing (h : app.InStep record) :
    (app.apis.map Api.routing).map ApiRoutes.basePath = app.apis.map Api.basePath := by
  rw [List.map_map]
  exact List.map_congr_left fun api hapi => (h.each api hapi).routing_base

/-- The base paths of the routing lists differ. -/
theorem nodup_routing (h : app.InStep record) :
    ((app.apis.map Api.routing).map ApiRoutes.basePath).Nodup := by
  rw [h.basePaths_routing]
  exact h.distinct

/-- The owner of a path is the API whose routing list is the longest owner. -/
theorem longestOwner_iff (h : app.InStep record) {api : Api E} (hapi : api ∈ app.apis) :
    Routing.LongestOwner (app.apis.map Api.routing) path api.routing ↔ app.Owner path api := by
  have hbase := (h.each api hapi).routing_base
  constructor
  · intro howner
    refine ⟨hapi, hbase ▸ howner.based, hbase ▸ howner.owns, ?_⟩
    intro other hother
    have hlongest := howner.longest other.routing (List.mem_map_of_mem hother)
    rw [(h.each other hother).routing_base, hbase] at hlongest
    exact hlongest
  · intro howner
    refine ⟨List.mem_map_of_mem hapi, hbase ▸ howner.based, hbase ▸ howner.owns, ?_⟩
    intro routes hroutes
    rcases List.mem_map.1 hroutes with ⟨other, hother, rfl⟩
    rw [(h.each other hother).routing_base, hbase]
    exact howner.longest other hother

/-- A path without owner is one without owner among the routing lists. -/
theorem unowned_iff (h : app.InStep record) :
    Routing.Unowned (app.apis.map Api.routing) path ↔ app.Unowned path := by
  unfold Routing.Unowned App.Unowned
  rw [List.forall_mem_map]
  refine forall₂_congr fun api hapi => ?_
  rw [(h.each api hapi).routing_base]

/-- A path has an owner or none. -/
theorem exists_owner_or_unowned (h : app.InStep record) (path : Bytes) :
    (∃ api, app.Owner path api) ∨ app.Unowned path := by
  cases hfind : Routing.owner? (app.apis.map Api.routing) path with
  | none => exact .inr (h.unowned_iff.1 (Routing.owner?_eq_none_iff.1 hfind))
  | some routes =>
      have howner := Routing.longestOwner_of_owner? hfind
      rcases List.mem_map.1 howner.listed with ⟨api, hapi, rfl⟩
      exact .inl ⟨api, (h.longestOwner_iff hapi).1 howner⟩

end InStep
end App
end ApiGateway
