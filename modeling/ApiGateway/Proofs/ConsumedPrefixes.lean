import ApiGateway.Proofs.RelativePaths
import ApiGateway.Proofs.TemplateMatching

/-!
# Consumed prefixes

A consumed prefix is cut off a path byte by byte.  As long as it ends where a segment of the path
ends, the relative path is a path of its own, and what the routing middleware consumes always ends
there.  A host may begin with a prefix that ends inside a segment.  Then the rest of that segment
is left as the relative path, and since templates do not care for a slash in front, it is matched
like a path below the prefix.

Main definitions:

- `Scope.ConsumesSegments`: the consumed prefix consists of whole segments of the path.

Main results:

- `Scope.consumesSegments_iff`: then, and only then, the relative path is a path of its own.
- `Routing.consumesSegments_enter`: the routing middleware consumes whole segments.
- `RouteTable.answerAt_congr`, `Routing.rootContext_congr`: only the segments of a path matter.
- `Scope.prefix_is_cut_by_bytes`: what becomes of a request whose prefix ends inside a segment.
-/

namespace ApiGateway

/-! ## Whole segments -/

namespace Scope

/--
The consumed prefix consists of whole segments of the path.  A prefix that the path does not start
with has consumed nothing of it.
-/
def ConsumesSegments (sc : Scope) : Prop :=
  sc.rootPath <+: sc.request.path → Routing.Owns sc.rootPath sc.request.path

/-- A path without the prefix is kept whole. -/
theorem relativePath_of_not_isPrefix {sc : Scope} (h : ¬sc.rootPath <+: sc.request.path) :
    sc.relativePath = sc.request.path := by
  rw [relativePath, if_neg (mt List.isPrefixOf_iff_prefix.1 h)]

/--
Whole segments have been consumed if the relative path is the path, is empty or begins with a
slash, and only then.
-/
theorem consumesSegments_iff {sc : Scope} {tail : Bytes} (hpath : sc.request.path = 47 :: tail) :
    sc.ConsumesSegments ↔ sc.relativePath = sc.request.path ∨ sc.relativePath = [] ∨
      ∃ rest, sc.relativePath = 47 :: rest := by
  constructor
  · intro h
    by_cases hconsumed : sc.rootPath <+: sc.request.path
    · rcases h hconsumed with hall | ⟨rest, hrest⟩
      · exact .inr (.inl (relativePath_of_path_eq_append (hall.trans (List.append_nil _).symm)))
      · exact .inr (.inr ⟨rest, relativePath_of_path_eq_append hrest⟩)
    · exact .inl (relativePath_of_not_isPrefix hconsumed)
  · intro h hconsumed
    have hcut := path_eq_append_relativePath hconsumed
    rcases h with hwhole | hnone | ⟨rest, hrest⟩
    · rw [hwhole] at hcut
      have hroot : sc.rootPath = [] := List.self_eq_append_left.1 hcut
      exact .inr ⟨tail, by rw [hroot, hpath]; rfl⟩
    · rw [hnone, List.append_nil] at hcut
      exact .inl hcut
    · rw [hrest] at hcut
      exact .inr ⟨rest, hcut⟩

/-- A prefix that ends inside a segment leaves the rest of that segment. -/
theorem exists_rest_of_not_consumesSegments {sc : Scope} {tail : Bytes}
    (hpath : sc.request.path = 47 :: tail) (h : ¬sc.ConsumesSegments) :
    ∃ c rest, c ≠ 47 ∧ sc.relativePath = c :: rest ∧
      sc.request.path = sc.rootPath ++ c :: rest := by
  have hconsumed : sc.rootPath <+: sc.request.path := (Classical.not_imp.1 h).1
  rw [consumesSegments_iff hpath, not_or, not_or] at h
  obtain ⟨-, hne, hslash⟩ := h
  obtain ⟨c, rest, hrest⟩ := List.exists_cons_of_ne_nil hne
  refine ⟨c, rest, ?_, hrest, hrest ▸ path_eq_append_relativePath hconsumed⟩
  rintro rfl
  exact hslash ⟨rest, hrest⟩

end Scope

namespace Routing

/-- Behind whole segments, a base path that owns the rest ends with whole segments again. -/
theorem Owns.append_left {base path : Bytes} (h : Owns base path) (root : Bytes) :
    Owns (root ++ base) (root ++ path) := by
  rcases h with rfl | ⟨rest, rfl⟩
  · exact .inl rfl
  · exact .inr ⟨rest, (List.append_assoc root base (47 :: rest)).symm⟩

/-- The base path of a context is empty or owns the path. -/
theorem Routed.owns {apis : List ApiRoutes} {method : Http.Method} {path : Bytes}
    {routing : Routing} (h : Routed apis method path routing) :
    routing.apiBasePath.getD [] = [] ∨ Owns (routing.apiBasePath.getD []) path := by
  cases h with
  | owned howner hpath =>
      rw [ApiRoutes.apiBasePath_contextAt]
      exact .inr howner.owns
  | root hfree hlisted hroot hmatch =>
      rw [ApiRoutes.apiBasePath_contextAt]
      exact .inl hroot
  | unclaimed hfree hnone => exact .inl rfl

/-- What the routing middleware consumes are whole segments. -/
theorem consumesSegments_enter {sc : Scope} (h : sc.ConsumesSegments) (apis : List ApiRoutes) :
    (sc.enter (resolve apis sc)).ConsumesSegments := by
  intro hinside
  rw [Scope.enter_request] at hinside ⊢
  have hconsumed : sc.rootPath <+: sc.request.path := (List.prefix_append _ _).trans hinside
  rcases (routed_resolve apis sc).owns with hbase | howns
  · rw [Scope.enter, hbase, List.append_nil]
    exact h hconsumed
  · rw [Scope.path_eq_append_relativePath hconsumed]
    exact howns.append_left sc.rootPath

end Routing

/-! ## Paths with the same segments -/

namespace Routing

variable {path other : Bytes}

/-- Entries match paths with the same segments alike. -/
theorem Candidate.of?_congr {α : Type} (h : Pattern.pathSegments path = Pattern.pathSegments other)
    (pattern : α → Pattern) : Candidate.of? pattern path = Candidate.of? pattern other := by
  funext entry
  rw [of?, of?, Pattern.match?, Pattern.match?, h]

/-- The operations of an API match them alike. -/
theorem match?_congr (h : Pattern.pathSegments path = Pattern.pathSegments other)
    (api : ApiRoutes) (method : Http.Method) :
    api.match? method path = api.match? method other := by
  rw [ApiRoutes.match?, ApiRoutes.match?, Candidate.of?_congr h]

/-- The APIs without base path claim them alike. -/
theorem rootContext_congr (h : Pattern.pathSegments path = Pattern.pathSegments other)
    (apis : List ApiRoutes) (method : Http.Method) :
    rootContext apis method path = rootContext apis method other := by
  unfold rootContext
  simp only [match?_congr h]

end Routing

namespace RouteTable

variable {E : Signature} {path other : Bytes}

/-- Manual routes match them alike. -/
theorem matching_congr (h : Routing.Pattern.pathSegments path = Routing.Pattern.pathSegments other)
    (table : RouteTable E) : table.matching path = table.matching other := by
  rw [matching, matching, Routing.Candidate.of?_congr h]

/-- Manual routes answer them alike. -/
theorem answerAt_congr (h : Routing.Pattern.pathSegments path = Routing.Pattern.pathSegments other)
    (table : RouteTable E) (request : Request) :
    table.answerAt request path = table.answerAt request other := by
  rw [answerAt, answerAt, lookup, lookup, allowed, allowed, matching_congr h]

end RouteTable

/-! ## Prefixes that end inside a segment -/

namespace Routing

/-- A path that does not begin with a slash belongs to no base path. -/
theorem unowned_of_ne_slash {c : UInt8} (hc : c ≠ 47) (rest : Bytes) {apis : List ApiRoutes}
    (hbases : ∀ api ∈ apis, api.basePath = [] ∨ ∃ base, api.basePath = 47 :: base) :
    Unowned apis (c :: rest) := by
  intro api hapi hbased howns
  rcases hbases api hapi with hnil | ⟨base, hbase⟩
  · exact hbased hnil
  · rcases howns.append with ⟨tail, htail⟩
    rw [hbase] at htail
    exact hc (List.cons.inj htail).1

/-- It is claimed like the same path behind a slash, by APIs without base path only. -/
theorem resolve_of_ne_slash {sc : Scope} {c : UInt8} {rest : Bytes} (hc : c ≠ 47)
    (hrest : sc.relativePath = c :: rest) {apis : List ApiRoutes}
    (hbases : ∀ api ∈ apis, api.basePath = [] ∨ ∃ base, api.basePath = 47 :: base) :
    resolve apis sc = rootContext apis sc.request.method (47 :: c :: rest) := by
  rw [resolve, hrest, owner?_eq_none_iff.2 (unowned_of_ne_slash hc rest hbases)]
  exact rootContext_congr (Pattern.pathSegments_slash (c :: rest)).symm apis sc.request.method

end Routing

/--
Prefixes are cut off byte by byte.  The relative path is the path, is empty or begins with a slash
exactly if whole segments have been consumed, and the routing middleware consumes nothing else.  A
prefix that ends inside a segment leaves the rest of the segment, and the request is then taken for
one below the prefix: manual routes and APIs without base path match it as if a slash stood there.
-/
theorem Scope.prefix_is_cut_by_bytes {sc : Scope} {tail : Bytes}
    (hpath : sc.request.path = 47 :: tail) :
    (sc.ConsumesSegments ↔ sc.relativePath = sc.request.path ∨ sc.relativePath = [] ∨
        ∃ rest, sc.relativePath = 47 :: rest) ∧
      (sc.ConsumesSegments → ∀ apis, (sc.enter (Routing.resolve apis sc)).ConsumesSegments) ∧
      (¬sc.ConsumesSegments → ∃ c rest, c ≠ 47 ∧ sc.request.path = sc.rootPath ++ c :: rest ∧
        sc.relativePath = c :: rest ∧
        (∀ (E : Signature) (table : RouteTable E),
          table.serve sc = table.answerAt sc.request (47 :: c :: rest)) ∧
        ∀ apis : List ApiRoutes,
          (∀ api ∈ apis, api.basePath = [] ∨ ∃ base, api.basePath = 47 :: base) →
          Routing.resolve apis sc =
            Routing.rootContext apis sc.request.method (47 :: c :: rest)) := by
  refine ⟨consumesSegments_iff hpath, Routing.consumesSegments_enter, fun hinside => ?_⟩
  obtain ⟨c, rest, hc, hrest, hcut⟩ := exists_rest_of_not_consumesSegments hpath hinside
  refine ⟨c, rest, hc, hcut, hrest, fun E table => ?_, fun apis hbases =>
    Routing.resolve_of_ne_slash hc hrest hbases⟩
  rw [table.serve_eq_answerAt, hrest]
  exact table.answerAt_congr (Routing.Pattern.pathSegments_slash (c :: rest)).symm sc.request

/-! ## A sample -/

namespace Sample

/-- A request for `GET /v1admin` below the prefix `/v1`. -/
def longerSegment : Scope where
  request := { method := .get, target := [47, 118, 49, 97, 100, 109, 105, 110] }
  rootPath := [47, 118, 49]

/-- The manual route `GET /admin`. -/
def adminTable : RouteTable Signature.empty where
  routes := [{
    method := .get
    pattern := ⟨[47, 97, 100, 109, 105, 110], [.literal [97, 100, 109, 105, 110]]⟩
    handler := fun _ => .done (Native.ofProblem (Problem.notFound []))
    name := [] }]

/-- The request is answered as one for `/admin`. -/
theorem longerSegment_is_cut :
    longerSegment.request.path = 47 :: [118, 49, 97, 100, 109, 105, 110] ∧
      ¬longerSegment.ConsumesSegments ∧
      adminTable.serve longerSegment =
        adminTable.answerAt longerSegment.request [47, 97, 100, 109, 105, 110] := by
  have hpath : longerSegment.request.path = 47 :: [118, 49, 97, 100, 109, 105, 110] := rfl
  have hrest : longerSegment.relativePath = [97, 100, 109, 105, 110] := rfl
  obtain ⟨hwhole, -, hinside⟩ := Scope.prefix_is_cut_by_bytes hpath
  have hcut : ¬longerSegment.ConsumesSegments := by
    rw [hwhole, hrest, hpath]
    simp
  obtain ⟨c, rest, -, -, hsplit, htables, -⟩ := hinside hcut
  obtain ⟨rfl, rfl⟩ := List.cons.inj (hrest.symm.trans hsplit)
  exact ⟨hpath, hcut, htables Signature.empty adminTable⟩

/--
The prefix is not stripped by whole segments: the relative path is neither the path nor empty and
begins without slash, so the request is matched by the route `/admin`.
-/
theorem longerSegment_is_matched :
    longerSegment.request.path.head? = some 47 ∧ longerSegment.rootPath ≠ [] ∧
      longerSegment.rootPath.head? = some 47 ∧ longerSegment.rootPath.getLast? ≠ some 47 ∧
      ¬(longerSegment.relativePath = longerSegment.request.path ∨
        longerSegment.relativePath = [] ∨ longerSegment.relativePath.head? = some 47) ∧
      ¬Routing.Owns longerSegment.rootPath longerSegment.request.path ∧
      (adminTable.lookup longerSegment.request.method longerSegment.relativePath).code = .ok := by
  refine ⟨rfl, by decide, rfl, by decide, by decide, ?_, rfl⟩
  rw [Routing.owns_iff_isPrefix]
  decide

end Sample
end ApiGateway
