import Mathlib.Data.List.Nodup
import ApiGateway.Proofs.Selection
import ApiGateway.Proofs.Templates

/-!
# Routing lists

The routing middleware scans the routing lists of the mounted APIs twice: for the
longest base path that owns a path and, if there is none, for an API without base path
that has an operation.  The rule below says what comes out without scanning anything.
It names lists by what they are and not by where they stand, and as long as the base
paths differ it leaves one context only.

Main definitions:

- `Routing.Owns`: a base path owns a path.
- `Routing.LongestOwner`, `Routing.Unowned`: the list with the longest owning base path, and
  paths without one.
- `ApiRoutes.contextAt`: the context of one API for the rest of a path.
- `Routing.Routed`: the rule.

Main results:

- `Routing.owns_iff_isPrefix`: base paths own paths by whole segments.
- `Routing.routed_resolve`, `Routing.Routed.eq_resolve`: requests are routed by the rule.
- `Routing.resolve_ignores_order`: the order of mounting does not matter.
-/

namespace ApiGateway

/-! ## Base paths -/

/-- A base path owns a path if it is the path itself or ends before a slash of it. -/
def Routing.Owns (base path : Bytes) : Prop :=
  path = base ∨ ∃ rest, path = base ++ 47 :: rest

namespace Routing

/-- A base path is a prefix of what it owns. -/
theorem Owns.append {base path : Bytes} (h : Owns base path) : ∃ rest, path = base ++ rest := by
  rcases h with rfl | ⟨rest, rfl⟩
  · exact ⟨[], (List.append_nil _).symm⟩
  · exact ⟨47 :: rest, rfl⟩

/-- Two base paths of the same length that own a path are equal. -/
theorem Owns.base_eq {base other path : Bytes} (h : Owns base path) (hother : Owns other path)
    (hlength : base.length = other.length) : base = other := by
  rcases h.append with ⟨rest, hrest⟩
  rcases hother.append with ⟨rest', hrest'⟩
  exact (List.append_inj (hrest.symm.trans hrest') hlength).1

/-- A base path owns a path by whole segments: those of the path start with its own. -/
theorem owns_iff_isPrefix {base path : Bytes} :
    Owns base path ↔ Bytes.splitOn 47 base <+: Bytes.splitOn 47 path :=
  Bytes.splitOn_isPrefix_iff.symm

end Routing

/-- Ownership is computed by cutting off the base path. -/
theorem ApiRoutes.owns_iff (routes : ApiRoutes) (path : Bytes) :
    routes.owns path = true ↔ Routing.Owns routes.basePath path := by
  unfold owns
  cases hcut : routes.basePath.isPrefixOf? path with
  | none =>
      constructor
      · intro h
        cases h
      · intro howns
        rcases howns.append with ⟨rest, hrest⟩
        rw [List.isPrefixOf?_eq_some_iff_append_eq.2 hrest.symm] at hcut
        cases hcut
  | some rest =>
      have hpath := List.isPrefixOf?_eq_some_iff_append_eq.1 hcut
      rw [← hpath, Routing.Owns]
      cases rest with
      | nil => simp
      | cons c tail => simp

namespace Routing

/-! ## Owners -/

/-- The routing list with the longest of the base paths that own a path; it must not be empty. -/
structure LongestOwner (apis : List ApiRoutes) (path : Bytes) (api : ApiRoutes) : Prop where
  listed : api ∈ apis
  based : api.basePath ≠ []
  owns : Owns api.basePath path
  longest : ∀ other ∈ apis, other.basePath ≠ [] → Owns other.basePath path →
    other.basePath.length ≤ api.basePath.length

/-- No routing list with a base path owns the path. -/
def Unowned (apis : List ApiRoutes) (path : Bytes) : Prop :=
  ∀ api ∈ apis, api.basePath ≠ [] → ¬Owns api.basePath path

variable {apis others : List ApiRoutes} {method : Http.Method} {path : Bytes}

/-- A path with an owner is not unowned. -/
theorem LongestOwner.not_unowned {api : ApiRoutes} (h : LongestOwner apis path api) :
    ¬Unowned apis path :=
  fun hfree => hfree api h.listed h.based h.owns

/-- If the base paths differ, a path has at most one longest owner. -/
theorem LongestOwner.unique (hdistinct : (apis.map ApiRoutes.basePath).Nodup)
    {api other : ApiRoutes} (h : LongestOwner apis path api)
    (hother : LongestOwner apis path other) : api = other := by
  have hle := h.longest other hother.listed hother.based hother.owns
  have hge := hother.longest api h.listed h.based h.owns
  have hbase := h.owns.base_eq hother.owns (Nat.le_antisymm hge hle)
  exact List.inj_on_of_nodup_map hdistinct h.listed hother.listed hbase

/-- The routing lists among which the owner is searched. -/
theorem mem_owning_iff {api : ApiRoutes} :
    api ∈ apis.filter (fun api => !api.basePath.isEmpty && api.owns path) ↔
      api ∈ apis ∧ api.basePath ≠ [] ∧ Owns api.basePath path := by
  rw [List.mem_filter, Bool.and_eq_true, ApiRoutes.owns_iff, Bool.not_eq_true',
    List.isEmpty_eq_false_iff]

/-- What is found as the owner has the longest base path. -/
theorem longestOwner_of_owner? {api : ApiRoutes} (h : owner? apis path = some api) :
    LongestOwner apis path api := by
  rw [owner?_eq_foldl_pick, foldl_pick_iff] at h
  rcases mem_owning_iff.1 h.mem with ⟨hlisted, hbased, howns⟩
  refine ⟨hlisted, hbased, howns, ?_⟩
  intro other hother hotherBased hotherOwns
  exact h.le (mem_owning_iff.2 ⟨hother, hotherBased, hotherOwns⟩)

/-- No owner is found exactly if there is none. -/
theorem owner?_eq_none_iff : owner? apis path = none ↔ Unowned apis path := by
  rw [owner?_eq_foldl_pick, foldl_pick_eq_none_iff, List.eq_nil_iff_forall_not_mem]
  constructor
  · intro hnone api hlisted hbased howns
    exact hnone api (mem_owning_iff.2 ⟨hlisted, hbased, howns⟩)
  · intro hfree api hmem
    rcases mem_owning_iff.1 hmem with ⟨hlisted, hbased, howns⟩
    exact hfree api hlisted hbased howns

/-- If the base paths differ, the owner that is found is the longest one. -/
theorem owner?_eq_some_iff (hdistinct : (apis.map ApiRoutes.basePath).Nodup) {api : ApiRoutes} :
    owner? apis path = some api ↔ LongestOwner apis path api := by
  refine ⟨longestOwner_of_owner?, fun howner => ?_⟩
  cases hfind : owner? apis path with
  | none => exact absurd (owner?_eq_none_iff.1 hfind) howner.not_unowned
  | some found => rw [(longestOwner_of_owner? hfind).unique hdistinct howner]

end Routing

/-! ## Contexts -/

namespace ApiRoutes

/-- The context with which a request goes on to this API, by the rest of its path. -/
def contextAt (routes : ApiRoutes) (method : Http.Method) (rest : Bytes) : Routing :=
  match routes.match? method rest with
  | some (op, params) =>
    { apiBasePath := some routes.basePath, operationId := some op.operationId, params }
  | none => { apiBasePath := some routes.basePath }

theorem contextAt_of_match? {routes : ApiRoutes} {method : Http.Method} {rest : Bytes}
    {op : OperationRoute} {params : Params} (h : routes.match? method rest = some (op, params)) :
    routes.contextAt method rest =
      { apiBasePath := some routes.basePath, operationId := some op.operationId, params } := by
  rw [contextAt, h]

theorem contextAt_of_match?_eq_none {routes : ApiRoutes} {method : Http.Method} {rest : Bytes}
    (h : routes.match? method rest = none) :
    routes.contextAt method rest = { apiBasePath := some routes.basePath } := by
  rw [contextAt, h]

/-- The context names the base path, with or without an operation. -/
@[simp]
theorem apiBasePath_contextAt (routes : ApiRoutes) (method : Http.Method) (rest : Bytes) :
    (routes.contextAt method rest).apiBasePath = some routes.basePath := by
  unfold contextAt
  split <;> rfl

/-- The context of an owned path is that of the rest after the base path. -/
theorem contextFor_append (routes : ApiRoutes) (method : Http.Method) (rest : Bytes) :
    routes.contextFor method (routes.basePath ++ rest) = routes.contextAt method rest := by
  cases hmatch : routes.match? method rest with
  | some found => rw [contextAt_of_match? hmatch, contextFor, List.drop_left, hmatch]
  | none => rw [contextAt_of_match?_eq_none hmatch, contextFor, List.drop_left, hmatch]

end ApiRoutes

namespace Routing

/--
The rule.  The owner of a path answers for the rest of it, with or without an operation.  A path
without owner goes to an API without base path that has an operation for it, or else to none.
-/
inductive Routed (apis : List ApiRoutes) (method : Http.Method) (path : Bytes) :
    Routing → Prop where
  | owned {api : ApiRoutes} {rest : Bytes} (howner : LongestOwner apis path api)
      (hpath : path = api.basePath ++ rest) :
      Routed apis method path (api.contextAt method rest)
  | root {api : ApiRoutes} (hfree : Unowned apis path) (hlisted : api ∈ apis)
      (hroot : api.basePath = []) (hmatch : (api.match? method path).isSome) :
      Routed apis method path (api.contextAt method path)
  | unclaimed (hfree : Unowned apis path)
      (hnone : ∀ api ∈ apis, api.basePath = [] → api.match? method path = none) :
      Routed apis method path {}

variable {apis others : List ApiRoutes} {method : Http.Method} {path : Bytes}

/-- A path without owner gets its context by the rule. -/
theorem routed_rootContext (hfree : Unowned apis path) (method : Http.Method) :
    Routed apis method path (rootContext apis method path) := by
  unfold rootContext
  dsimp only
  split
  · rename_i api op params hfound
    rcases List.exists_of_findSome?_eq_some hfound with ⟨listed, hmem, hlisted⟩
    rcases Option.map_eq_some_iff.1 hlisted with ⟨found, hmatch, hpair⟩
    cases hpair
    rcases List.mem_filter.1 hmem with ⟨hlisted, hroot⟩
    rw [← ApiRoutes.contextAt_of_match? hmatch]
    exact .root hfree hlisted (List.isEmpty_iff.1 hroot) (Option.isSome_of_eq_some hmatch)
  · rename_i hnone
    refine .unclaimed hfree ?_
    intro api hlisted hroot
    have hmem : api ∈ apis.filter fun api => api.basePath.isEmpty :=
      List.mem_filter.2 ⟨hlisted, List.isEmpty_iff.2 hroot⟩
    exact Option.map_eq_none_iff.1 (List.findSome?_eq_none_iff.1 hnone api hmem)

/-- Requests are routed by the rule. -/
theorem routed_resolve (apis : List ApiRoutes) (sc : Scope) :
    Routed apis sc.request.method sc.relativePath (resolve apis sc) := by
  unfold resolve
  cases hfind : owner? apis sc.relativePath with
  | some api =>
      have howner := longestOwner_of_owner? hfind
      rcases howner.owns.append with ⟨rest, hpath⟩
      have hcontext := api.contextFor_append sc.request.method rest
      rw [← hpath] at hcontext
      dsimp only
      rw [hcontext]
      exact .owned howner hpath
  | none => exact routed_rootContext (owner?_eq_none_iff.1 hfind) _

/-- If the base paths differ, the rule leaves one context only. -/
theorem Routed.unique (hdistinct : (apis.map ApiRoutes.basePath).Nodup) {routing other : Routing}
    (h : Routed apis method path routing) (hother : Routed apis method path other) :
    routing = other := by
  cases h with
  | @owned api rest howner hpath =>
      cases hother with
      | @owned api' rest' howner' hpath' =>
          obtain rfl := howner.unique hdistinct howner'
          rw [List.append_cancel_left (hpath.symm.trans hpath')]
      | root hfree | unclaimed hfree => exact absurd hfree howner.not_unowned
  | @root api hfree hlisted hroot hmatch =>
      cases hother with
      | owned howner => exact absurd hfree howner.not_unowned
      | @root api' _ hlisted' hroot' =>
          rw [List.inj_on_of_nodup_map hdistinct hlisted hlisted' (hroot.trans hroot'.symm)]
      | unclaimed _ hnone =>
          rw [hnone api hlisted hroot] at hmatch
          cases hmatch
  | unclaimed hfree hnone =>
      cases hother with
      | owned howner => exact absurd hfree howner.not_unowned
      | @root api _ hlisted hroot hmatch =>
          rw [hnone api hlisted hroot] at hmatch
          cases hmatch
      | unclaimed => rfl

/-- If the base paths differ, a request gets the context that the rule names. -/
theorem Routed.eq_resolve (hdistinct : (apis.map ApiRoutes.basePath).Nodup) {sc : Scope}
    {routing : Routing} (h : Routed apis sc.request.method sc.relativePath routing) :
    resolve apis sc = routing :=
  (routed_resolve apis sc).unique hdistinct h

/-! ## The order of mounting -/

/-- The longest owner does not depend on the order of the lists. -/
theorem LongestOwner.of_perm (hperm : others.Perm apis) {api : ApiRoutes}
    (h : LongestOwner others path api) : LongestOwner apis path api where
  listed := hperm.mem_iff.1 h.listed
  based := h.based
  owns := h.owns
  longest := fun other hother => h.longest other (hperm.mem_iff.2 hother)

/-- Whether a path has an owner does not depend on the order of the lists. -/
theorem Unowned.of_perm (hperm : others.Perm apis) (h : Unowned others path) :
    Unowned apis path :=
  fun api hlisted => h api (hperm.mem_iff.2 hlisted)

/-- The rule does not depend on the order of the lists. -/
theorem Routed.of_perm (hperm : others.Perm apis) {routing : Routing}
    (h : Routed others method path routing) : Routed apis method path routing := by
  cases h with
  | owned howner hpath => exact .owned (howner.of_perm hperm) hpath
  | root hfree hlisted hroot hmatch =>
      exact .root (hfree.of_perm hperm) (hperm.mem_iff.1 hlisted) hroot hmatch
  | unclaimed hfree hnone =>
      exact .unclaimed (hfree.of_perm hperm) fun api hlisted =>
        hnone api (hperm.mem_iff.2 hlisted)

/--
If the base paths differ, the order of mounting does not matter.  The owner of a path is the list
with the longest base path that owns it, and base paths own paths by whole segments.  Once there
is an owner the context is its own: no other list has any part in it, whether or not the owner has
an operation for the rest of the path.
-/
theorem resolve_ignores_order (hdistinct : (apis.map ApiRoutes.basePath).Nodup)
    (hperm : others.Perm apis) (sc : Scope) :
    resolve others sc = resolve apis sc ∧
      (∀ api, owner? apis sc.relativePath = some api ↔ LongestOwner apis sc.relativePath api) ∧
      (∀ base, Owns base sc.relativePath ↔
        Bytes.splitOn 47 base <+: Bytes.splitOn 47 sc.relativePath) ∧
      ∀ api, LongestOwner apis sc.relativePath api → ∃ rest,
        sc.relativePath = api.basePath ++ rest ∧
          resolve apis sc = api.contextAt sc.request.method rest := by
  refine ⟨?_, fun api => owner?_eq_some_iff hdistinct, fun base => owns_iff_isPrefix, ?_⟩
  · have hrouted := (routed_resolve others sc).of_perm hperm
    exact (hrouted.eq_resolve hdistinct).symm
  · intro api howner
    rcases howner.owns.append with ⟨rest, hpath⟩
    exact ⟨rest, hpath, (Routed.owned howner hpath).eq_resolve hdistinct⟩

end Routing

/-! ## A sample -/

namespace Sample

/--
Routing lists under `/v`, `/v/w`, `/v/ww` and without base path.  The second has no operation,
but the first one has `GET /w/x`.
-/
def nestedLists : List ApiRoutes := [
  { basePath := [47, 118]
    operations := [{
      method := .get
      pattern := ⟨[47, 119, 47, 120], [.literal [119], .literal [120]]⟩
      operationId := [97] }] },
  { basePath := [47, 118, 47, 119] },
  { basePath := [47, 118, 47, 119, 119] },
  { basePath := [] }]

/-- A request for `GET /v/w/x`. -/
def nestedScope : Scope where
  request := { method := .get, target := [47, 118, 47, 119, 47, 120] }

/-- The request belongs to `/v/w` in either order, although only `/v` has an operation for it. -/
theorem resolve_nestedLists_reverse :
    (nestedLists.map ApiRoutes.basePath).Nodup ∧ nestedLists.reverse.Perm nestedLists ∧
      Routing.resolve nestedLists.reverse nestedScope = Routing.resolve nestedLists nestedScope ∧
      Routing.resolve nestedLists nestedScope = { apiBasePath := some [47, 118, 47, 119] } := by
  have hdistinct : (nestedLists.map ApiRoutes.basePath).Nodup := by decide
  have hperm : nestedLists.reverse.Perm nestedLists := List.reverse_perm nestedLists
  rcases Routing.resolve_ignores_order hdistinct hperm nestedScope with
    ⟨hsame, howner, -, hcontext⟩
  obtain ⟨rest, -, hresolve⟩ := hcontext { basePath := [47, 118, 47, 119] } ((howner _).1 rfl)
  exact ⟨hdistinct, hperm, hsame, hresolve⟩

end Sample
end ApiGateway
