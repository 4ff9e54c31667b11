import ApiGateway.Proofs.Deliveries
import ApiGateway.Proofs.Handling
import ApiGateway.Proofs.ManualRoutes
import ApiGateway.Routing.Scan

/-!
# Requests that no manual route answers

A table of manual routes tells apart a path that no template matches and a path that is
registered for other methods only.  In the second case it answers with the methods that
are registered, which it has gathered in a mask while it was looking for a route.  The
mask knows nothing of the unknown method, and repeated registrations leave no trace in it.

Main definitions:

- `RouteTable.methodsFor`: the known methods for which a path is registered, in order.
- `RouteTable.refusalHeaders`: the headers of the answer to another method.
- `TableScan.Knows`: what a scan knows of the routes that it has come upon.

Main results:

- `TableScan.Knows.scanStep`, `RouteTable.knows_scan`: a step of a scan, and the whole scan.
- `RouteTable.mem_methodsFor_iff`, `RouteTable.toList_allowed`: the methods in the mask.
- `RouteTable.serve_of_methodNotAllowed`: the answer to another method.
- `RouteTable.failures_are_exact`: which requests fail, why, and how they are answered.
-/

namespace ApiGateway

variable {E : Signature} {σ : Type}

/-! ## Methods of matching routes -/

/-- The template of the route matches the path. -/
def Route.Matches (route : Route E) (path : Bytes) : Prop :=
  (route.pattern.match? path).isSome = true

namespace RouteTable

/-- A route that matches is a candidate. -/
theorem exists_candidate {table : RouteTable E} {route : Route E} (hroute : route ∈ table.routes)
    {path : Bytes} (h : route.Matches path) : ∃ c ∈ table.matching path, c.entry = route := by
  rcases Option.isSome_iff_exists.1 h with ⟨params, hmatch⟩
  have hcandidate : ⟨route, params, route.pattern.score⟩ ∈ table.matching path :=
    mem_matching_iff.2 ⟨hroute, hmatch, rfl⟩
  exact ⟨_, hcandidate, rfl⟩

/-- The mask has the known methods for which a template matches the path. -/
theorem contains_allowed (table : RouteTable E) (path : Bytes) (m : Http.Method) :
    (table.allowed path).contains m = true ↔
      m ≠ .unknown ∧ ∃ route ∈ table.routes, route.method = m ∧ route.Matches path := by
  have hfold (candidates : List (Routing.Candidate (Route E))) (set : Http.MethodSet) :
      (candidates.foldl (fun methods c => methods.union (.singleton c.entry.method))
          set).contains m = true ↔
        set.contains m = true ∨ m ≠ .unknown ∧ ∃ c ∈ candidates, c.entry.method = m := by
    induction candidates generalizing set with
    | nil => simp
    | cons c rest ih =>
        have hunion : (set.union (.singleton c.entry.method)).contains m = true ↔
            set.contains m = true ∨ c.entry.method = m ∧ m ≠ .unknown := by
          rw [Http.MethodSet.contains_union, Http.MethodSet.contains_singleton,
            Bool.or_eq_true_iff, Bool.and_eq_true_iff, beq_iff_eq, bne_iff_ne]
          refine or_congr_right (and_congr_right fun hsame => ?_)
          rw [hsame]
        rw [List.foldl_cons, ih, hunion, List.exists_mem_cons_iff]
        tauto
  rw [allowed, hfold, Http.MethodSet.contains_empty]
  simp only [Bool.false_eq_true, false_or]
  refine and_congr_right fun _ => ⟨?_, ?_⟩
  · rintro ⟨c, hc, hmethod⟩
    rcases mem_matching_iff.1 hc with ⟨hroute, hmatch, -⟩
    exact ⟨c.entry, hroute, hmethod, Option.isSome_iff_exists.2 ⟨_, hmatch⟩⟩
  · rintro ⟨route, hroute, hmethod, hmatches⟩
    rcases exists_candidate hroute hmatches with ⟨c, hc, rfl⟩
    exact ⟨c, hc, hmethod⟩

/-- The known methods for which a path is registered, in the order of an `Allow` header. -/
def methodsFor (table : RouteTable E) (path : Bytes) : List Http.Method :=
  Http.MethodSet.allowOrder.filter fun m =>
    table.routes.any fun route => route.method == m && (route.pattern.match? path).isSome

/-- The known methods are in the order of an `Allow` header. -/
theorem mem_allowOrder_iff (m : Http.Method) :
    m ∈ Http.MethodSet.allowOrder ↔ m ≠ .unknown := by
  cases m <;> decide

/-- The methods for which a path is registered are those of the routes that match it. -/
theorem mem_methodsFor_iff (table : RouteTable E) (path : Bytes) (m : Http.Method) :
    m ∈ table.methodsFor path ↔
      m ≠ .unknown ∧ ∃ route ∈ table.routes, route.method = m ∧ route.Matches path := by
  rw [methodsFor, List.mem_filter, mem_allowOrder_iff, List.any_eq_true]
  simp only [Bool.and_eq_true, beq_iff_eq, Route.Matches]

/-- The members of the mask are the methods for which the path is registered. -/
theorem toList_allowed (table : RouteTable E) (path : Bytes) :
    (table.allowed path).toList = table.methodsFor path := by
  refine List.filter_congr fun m hm => Bool.eq_iff_iff.2 ?_
  have hlisted : m ∈ table.methodsFor path ↔ _ := List.mem_filter.trans (and_iff_right hm)
  rw [contains_allowed, ← mem_methodsFor_iff, hlisted]

end RouteTable

/-- A method has a token that is not empty. -/
theorem Http.Method.token_ne_nil (m : Method) : m.token ≠ [] := by
  cases m <;> decide

/-- Tokens are joined to an empty text only if there are none. -/
theorem Http.Method.isEmpty_intercalate_token (sep : Bytes) (methods : List Method) :
    (sep.intercalate (methods.map token)).isEmpty = methods.isEmpty := by
  cases methods with
  | nil => rfl
  | cons first rest =>
      rcases List.exists_cons_of_ne_nil first.token_ne_nil with ⟨c, others, htoken⟩
      cases rest with
      | nil => simp [List.intercalate, htoken]
      | cons second rest => simp [List.intercalate, htoken]

/-! ## The scan -/

/-- An offer is taken, or there is a better entry already. -/
theorem Routing.Best.offer_cases (best : Best) (place : Nat) (params : Params) (score : Int32) :
    best.offer place params score = ⟨some place, params, score⟩ ∨
      best.place.isSome = true ∧ best.offer place params score = best := by
  rw [offer]
  split
  · exact .inl rfl
  · rename_i hkept
    rw [Bool.or_eq_true, not_or, Option.isNone_iff_eq_none] at hkept
    exact .inr ⟨Option.isSome_iff_ne_none.2 hkept.1, rfl⟩

/-- What a scan knows of the routes that it has come upon. -/
structure TableScan.Knows (scan : TableScan) (method : Http.Method) (path : Bytes)
    (routes : List (Route E)) : Prop where
  pathMatched : scan.pathMatched = true ↔ ∃ route ∈ routes, route.Matches path
  allowed : scan.allowed = RouteTable.allowed ⟨routes⟩ path
  place : ∀ place, scan.best.place = some place → ∃ route, routes[place]? = some route ∧
    route.method = method ∧ route.pattern.match? path = some scan.best.params
  found : ∀ route ∈ routes, route.method = method → route.Matches path →
    scan.best.place.isSome = true

namespace TableScan.Knows

variable {scan : TableScan} {method : Http.Method} {path : Bytes} {routes : List (Route E)}
  {route : Route E}

/-- The mask after one more route. -/
theorem allowed_append (routes : List (Route E)) (route : Route E) (path : Bytes) :
    RouteTable.allowed ⟨routes ++ [route]⟩ path =
      if (route.pattern.match? path).isSome then
        (RouteTable.allowed ⟨routes⟩ path).union (.singleton route.method)
      else
        RouteTable.allowed ⟨routes⟩ path := by
  unfold RouteTable.allowed RouteTable.matching
  rw [List.filterMap_append, List.foldl_append]
  cases hmatch : route.pattern.match? path with
  | none => simp [Routing.Candidate.of?, hmatch]
  | some params => simp [Routing.Candidate.of?, hmatch]

/-- The routes that a scan has come upon keep their places. -/
theorem getElem?_append {place : Nat} {other : Route E} (h : routes[place]? = some other)
    (route : Route E) : (routes ++ [route])[place]? = some other := by
  rw [List.getElem?_append_left (List.getElem?_eq_some_iff.1 h).1, h]

/-- A route that does not match adds nothing to what a scan knows. -/
theorem pass (h : scan.Knows method path routes) (hmatch : route.pattern.match? path = none) :
    scan.Knows method path (routes ++ [route]) := by
  have hnot : ¬route.Matches path := by
    rw [Route.Matches, hmatch]
    exact Bool.false_ne_true
  refine ⟨?_, ?_, ?_, ?_⟩
  · rw [h.pathMatched]
    simp [or_and_right, exists_or, hnot]
  · rw [allowed_append, hmatch]
    exact h.allowed
  · intro place hplace
    rcases h.place place hplace with ⟨other, hother, hfits⟩
    exact ⟨other, getElem?_append hother route, hfits⟩
  · intro other hother hmethod hmatches
    rcases List.mem_append.1 hother with hother | hlast
    · exact h.found other hother hmethod hmatches
    · rw [List.mem_singleton.1 hlast] at hmatches
      exact absurd hmatches hnot

/-- A route that matches is noted, and with it a best entry that suits the method. -/
theorem note (h : scan.Knows method path routes) {params : Params}
    (hmatch : route.pattern.match? path = some params) {best : Routing.Best}
    (hbest : best = scan.best ∨
      route.method = method ∧ best.place = some routes.length ∧ best.params = params)
    (hfound : scan.best.place.isSome = true ∨ route.method = method →
      best.place.isSome = true) :
    Knows ⟨best, true, scan.allowed.union (.singleton route.method)⟩ method path
      (routes ++ [route]) := by
  have hmatches : route.Matches path := Option.isSome_iff_exists.2 ⟨params, hmatch⟩
  refine ⟨?_, ?_, ?_, ?_⟩
  · exact iff_of_true rfl ⟨route, List.mem_append_right _ (List.mem_singleton_self _), hmatches⟩
  · rw [allowed_append, hmatch, ← h.allowed]
    rfl
  · intro place hplace
    rcases hbest with rfl | ⟨hmethod, hlast, hparams⟩
    · rcases h.place place hplace with ⟨other, hother, hfits⟩
      exact ⟨other, getElem?_append hother route, hfits⟩
    · obtain rfl : routes.length = place := Option.some.inj (hlast.symm.trans hplace)
      refine ⟨route, List.getElem?_concat_length, hmethod, ?_⟩
      rw [hmatch, ← hparams]
  · intro other hother hmethod hother_matches
    rcases List.mem_append.1 hother with hother | hlast
    · exact hfound (.inl (h.found other hother hmethod hother_matches))
    · rw [List.mem_singleton.1 hlast] at hmethod
      exact hfound (.inr hmethod)

/-- What a scan knows after one more route. -/
theorem scanStep (h : scan.Knows method path routes) (route : Route E) :
    (RouteTable.scanStep method path scan (route, routes.length)).Knows method path
      (routes ++ [route]) := by
  unfold RouteTable.scanStep
  cases hmatch : route.pattern.match? path with
  | none => simpa only [hmatch] using h.pass hmatch
  | some params =>
      dsimp only
      by_cases hmethod : route.method = method
      · rw [if_neg (not_not_intro hmethod)]
        rcases scan.best.offer_cases routes.length params route.pattern.wordScore with
          htaken | ⟨hsome, hkept⟩
        · rw [htaken]
          exact h.note hmatch (.inr ⟨hmethod, rfl, rfl⟩) fun _ => rfl
        · rw [hkept]
          exact h.note hmatch (.inl rfl) fun _ => hsome
      · rw [if_pos hmethod]
        exact h.note hmatch (.inl rfl) (Or.elim · id fun hsame => absurd hsame hmethod)

end TableScan.Knows

namespace RouteTable

/-- A scan knows all routes of the table. -/
theorem knows_scan (table : RouteTable E) (method : Http.Method) (path : Bytes) :
    (table.scan method path).Knows method path table.routes := by
  rcases table with ⟨routes⟩
  induction routes using List.reverseRecOn with
  | nil =>
      refine ⟨?_, rfl, nofun, nofun⟩
      exact iff_of_false Bool.false_ne_true fun ⟨_, hmem, _⟩ => nomatch hmem
  | append_singleton routes route ih =>
      have hscan : scan ⟨routes ++ [route]⟩ method path =
          scanStep method path (scan ⟨routes⟩ method path) (route, routes.length) := by
        rw [scan, List.zipIdx_append, List.foldl_append, Nat.zero_add]
        rfl
      rw [hscan]
      exact ih.scanStep route

end RouteTable

/-! ## Reports and look-ups -/

/-- The code of a report, that of success where there is a route. -/
def DispatchReport.code (report : DispatchReport) : ErrorCode :=
  match report.route with
  | .ok _ => .ok
  | .error code => code

namespace RouteTable

section Outcomes

variable {table : RouteTable E} {method : Http.Method} {path : Bytes}

/-- A route that matches and has the method is reported with its place and its parameters. -/
theorem report_of_fits {route : Route E} (hroute : route ∈ table.routes)
    (hmethod : route.method = method) (hmatches : route.Matches path) :
    ∃ place params found, table.report method path =
        ⟨.ok (place, params), true, table.allowed path⟩ ∧ table.routes[place]? = some found ∧
      found.method = method ∧ found.pattern.match? path = some params := by
  have hknows := table.knows_scan method path
  rcases Option.isSome_iff_exists.1 (hknows.found route hroute hmethod hmatches) with
    ⟨place, hplace⟩
  rcases hknows.place place hplace with ⟨found, hfound, hfits⟩
  refine ⟨place, _, found, ?_, hfound, hfits⟩
  rw [report, hplace, ← hknows.allowed]

/-- A scan finds no place if no route that matches has the method. -/
theorem place_scan_eq_none
    (h : ∀ route ∈ table.routes, route.Matches path → route.method ≠ method) :
    (table.scan method path).best.place = none := by
  refine Option.eq_none_iff_forall_ne_some.2 fun place hplace => ?_
  rcases (table.knows_scan method path).place place hplace with ⟨found, hfound, hmethod, hmatch⟩
  have hmatches : found.Matches path := Option.isSome_iff_exists.2 ⟨_, hmatch⟩
  exact h found (List.mem_of_getElem? hfound) hmatches hmethod

/-- A path that is registered for other methods only is reported as such. -/
theorem report_of_other_methods {route : Route E} (hroute : route ∈ table.routes)
    (hmatches : route.Matches path)
    (hother : ∀ other ∈ table.routes, other.Matches path → other.method ≠ method) :
    table.report method path = ⟨.error .methodNotAllowed, true, table.allowed path⟩ := by
  have hknows := table.knows_scan method path
  rw [report, place_scan_eq_none hother, ← hknows.allowed]
  exact if_pos (hknows.pathMatched.2 ⟨route, hroute, hmatches⟩)

/-- A path that no template matches is reported as not found. -/
theorem report_of_no_match (h : ∀ route ∈ table.routes, ¬route.Matches path) :
    table.report method path = ⟨.error .notFound, false, .empty⟩ := by
  rw [report, place_scan_eq_none fun route hroute hmatches => absurd hmatches (h route hroute)]
  refine if_neg fun hmatched => ?_
  rcases (table.knows_scan method path).pathMatched.1 hmatched with ⟨route, hroute, hmatches⟩
  exact h route hroute hmatches

/-- No candidate has a method for which no template matches. -/
theorem filter_matching_eq_nil
    (h : ∀ route ∈ table.routes, route.Matches path → route.method ≠ method) :
    ((table.matching path).filter fun c => c.entry.method = method) = [] := by
  refine List.filter_eq_nil_iff.2 fun c hc hmethod => ?_
  rcases mem_matching_iff.1 hc with ⟨hroute, hmatch, -⟩
  exact h c.entry hroute (Option.isSome_iff_exists.2 ⟨_, hmatch⟩) (of_decide_eq_true hmethod)

/-- A path that is registered for other methods only leads to no route, but to those methods. -/
theorem lookup_of_other_methods {route : Route E} (hroute : route ∈ table.routes)
    (hmatches : route.Matches path)
    (hother : ∀ other ∈ table.routes, other.Matches path → other.method ≠ method) :
    table.lookup method path = .methodNotAllowed (table.allowed path) := by
  rcases exists_candidate hroute hmatches with ⟨c, hc, -⟩
  have hsome : (table.matching path).isEmpty = false :=
    List.isEmpty_eq_false_iff.2 (List.ne_nil_of_mem hc)
  simp only [lookup, filter_matching_eq_nil hother, Routing.mostSpecific_nil, hsome]
  rfl

/-- A path that no template matches leads nowhere. -/
theorem lookup_of_no_match (h : ∀ route ∈ table.routes, ¬route.Matches path) :
    table.lookup method path = .notFound := by
  have hnone : (table.matching path).isEmpty = true := by
    refine List.isEmpty_iff.2 (List.eq_nil_iff_forall_not_mem.2 fun c hc => ?_)
    rcases mem_matching_iff.1 hc with ⟨hroute, hmatch, -⟩
    exact h c.entry hroute (Option.isSome_iff_exists.2 ⟨_, hmatch⟩)
  have hother : ∀ route ∈ table.routes, route.Matches path → route.method ≠ method :=
    fun route hroute hmatches => absurd hmatches (h route hroute)
  simp only [lookup, filter_matching_eq_nil hother, Routing.mostSpecific_nil, hnone, if_true]

/-- A path is not registered, or for the method, or for other methods only. -/
theorem registration_cases (table : RouteTable E) (method : Http.Method) (path : Bytes) :
    (∀ route ∈ table.routes, ¬route.Matches path) ∨
      (∃ route ∈ table.routes, route.method = method ∧ route.Matches path) ∨
      (∃ route ∈ table.routes, route.Matches path) ∧
        ∀ route ∈ table.routes, route.Matches path → route.method ≠ method := by
  by_cases hfits : ∃ route ∈ table.routes, route.method = method ∧ route.Matches path
  · exact .inr (.inl hfits)
  · have hother : ∀ route ∈ table.routes, route.Matches path → route.method ≠ method :=
      fun route hroute hmatches hmethod => hfits ⟨route, hroute, hmethod, hmatches⟩
    by_cases hsome : ∃ route ∈ table.routes, route.Matches path
    · exact .inr (.inr ⟨hsome, hother⟩)
    · exact .inl fun route hroute hmatches => hsome ⟨route, hroute, hmatches⟩

/-- A report says that nothing is found exactly if no template matches. -/
theorem report_notFound_iff :
    (table.report method path).route = .error .notFound ↔
      ∀ route ∈ table.routes, ¬route.Matches path := by
  constructor
  · intro h
    rcases table.registration_cases method path with
      hnone | ⟨route, hroute, hmethod, hmatches⟩ | ⟨⟨route, hroute, hmatches⟩, hother⟩
    · exact hnone
    · rcases report_of_fits hroute hmethod hmatches with ⟨place, params, found, hreport, -⟩
      rw [hreport] at h
      cases h
    · rw [report_of_other_methods hroute hmatches hother] at h
      cases h
  · intro hnone
    rw [report_of_no_match hnone]

/-- A report blames the method exactly if templates match, but none for the method. -/
theorem report_methodNotAllowed_iff :
    (table.report method path).route = .error .methodNotAllowed ↔
      (∃ route ∈ table.routes, route.Matches path) ∧
        ∀ route ∈ table.routes, route.Matches path → route.method ≠ method := by
  constructor
  · intro h
    rcases table.registration_cases method path with
      hnone | ⟨route, hroute, hmethod, hmatches⟩ | hother
    · rw [report_of_no_match hnone] at h
      cases h
    · rcases report_of_fits hroute hmethod hmatches with ⟨place, params, found, hreport, -⟩
      rw [hreport] at h
      cases h
    · exact hother
  · rintro ⟨⟨route, hroute, hmatches⟩, hother⟩
    rw [report_of_other_methods hroute hmatches hother]

/-- A look-up has the code and the methods of the report. -/
theorem lookup_agrees (table : RouteTable E) (method : Http.Method) (path : Bytes) :
    (table.lookup method path).code = (table.report method path).code ∧
      (table.lookup method path).allowed = (table.report method path).allowed := by
  rcases table.registration_cases method path with
    hnone | ⟨route, hroute, hmethod, hmatches⟩ | ⟨⟨route, hroute, hmatches⟩, hother⟩
  · rw [lookup_of_no_match hnone, report_of_no_match hnone]
    exact ⟨rfl, rfl⟩
  · rcases report_of_fits hroute hmethod hmatches with ⟨place, params, found, hreport, -⟩
    rcases Option.isSome_iff_exists.1 hmatches with ⟨ps, hmatch⟩
    rcases exists_lookup hroute hmatch with ⟨other, -, others, -, -, hlookup⟩
    rw [hreport, ← hmethod, hlookup]
    exact ⟨rfl, rfl⟩
  · rw [lookup_of_other_methods hroute hmatches hother,
      report_of_other_methods hroute hmatches hother]
    exact ⟨rfl, rfl⟩

end Outcomes

/-! ## The answer to another method -/

/-- The name of the header that lists methods. -/
def allowName : Bytes :=
  Bytes.ofString "Allow"

/-- The headers of the answer to another method: the registered methods, if there are any known. -/
def refusalHeaders (table : RouteTable E) (path : Bytes) : Http.Headers :=
  if table.methodsFor path = [] then
    []
  else
    [(allowName, (Bytes.ofString ", ").intercalate ((table.methodsFor path).map Http.Method.token))]

/-- The text of the problem of a method that is not allowed. -/
def refusalText : Bytes :=
  (Problem.methodNotAllowed []).text

/-- The messages of the answer to another method. -/
def refusalMessages (table : RouteTable E) (path : Bytes) : List Message := [
  .start 405 (table.refusalHeaders path ++
    [(contentTypeName, MediaType.problem),
      (contentLengthName, Bytes.ofNat refusalText.length)]),
  .body refusalText false]

/-- The response to another method lists the registered ones. -/
theorem lookupProblem_allowed (table : RouteTable E) (path : Bytes) :
    lookupProblem .methodNotAllowed (table.allowed path) =
      .plain ⟨405, some MediaType.problem, table.refusalHeaders path⟩ (some refusalText) := by
  have hvalue : (table.allowed path).allowValue =
      (Bytes.ofString ", ").intercalate ((table.methodsFor path).map Http.Method.token) := by
    rw [Http.MethodSet.allowValue, toList_allowed]
  rw [lookupProblem, if_neg (by decide), if_pos rfl, hvalue,
    Http.Method.isEmpty_intercalate_token, refusalHeaders]
  cases table.methodsFor path with
  | nil => rfl
  | cons first rest => rfl

/-- A request with another method is answered with the registered methods. -/
theorem serve_of_methodNotAllowed {table : RouteTable E} {sc : Scope}
    (h : table.lookup sc.request.method sc.relativePath =
      .methodNotAllowed (table.allowed sc.relativePath)) :
    table.serve sc = Exchange.sendAll (table.refusalMessages sc.relativePath) := by
  have hserve : table.serve sc =
      (lookupProblem .methodNotAllowed (table.allowed sc.relativePath)).send := by
    rw [serve, h]
    rfl
  rw [hserve, lookupProblem_allowed]
  refine congrArg Exchange.sendAll ?_
  rw [Option.getD_some, Native.wholeMessages_eq, refusalMessages, Native.wholeHeaders,
    refusalHeaders]
  split
  · rfl
  · rfl

/-- No method is listed exactly if all matching routes are for the unknown method. -/
theorem methodsFor_eq_nil_iff (table : RouteTable E) (path : Bytes) :
    table.methodsFor path = [] ↔
      ∀ route ∈ table.routes, route.Matches path → route.method = .unknown := by
  constructor
  · intro h route hroute hmatches
    by_contra hknown
    have hmem := (table.mem_methodsFor_iff path route.method).2
      ⟨hknown, route, hroute, rfl, hmatches⟩
    rw [h] at hmem
    cases hmem
  · intro h
    refine List.eq_nil_iff_forall_not_mem.2 fun m hm => ?_
    rcases (table.mem_methodsFor_iff path m).1 hm with ⟨hknown, route, hroute, rfl, hmatches⟩
    exact hknown (h route hroute hmatches)

/--
A table of manual routes fails exactly.  It reports that nothing is found, without a match and with
an empty mask, if no template matches the path.  It reports that the method is not allowed if
templates match, but none that is registered for the method.  In all other cases it reports a route
that matches.  A look-up agrees with the report.  A method that is not allowed is answered with one
complete problem response, and no handler is called.  Its `Allow` header lists, once each and in the
fixed order, the known methods for which a matching template is registered, to which the method of
the request does not belong.  It is left out only if all matching templates are registered for the
unknown method.
-/
theorem failures_are_exact (table : RouteTable E) (method : Http.Method) (path : Bytes) :
    let info := table.report method path
    let methods := table.methodsFor path
    (info.route = .error .notFound ↔ ∀ route ∈ table.routes, ¬route.Matches path) ∧
      (info.route = .error .notFound → info.pathMatched = false ∧ info.allowed = .empty) ∧
      (info.route = .error .methodNotAllowed ↔
        (∃ route ∈ table.routes, route.Matches path) ∧
          ∀ route ∈ table.routes, route.Matches path → route.method ≠ method) ∧
      ((∃ route ∈ table.routes, route.method = method ∧ route.Matches path) →
        ∃ place params found, info.route = .ok (place, params) ∧
          table.routes[place]? = some found ∧ found.method = method ∧
          found.pattern.match? path = some params) ∧
      (table.lookup method path).code = info.code ∧
      (table.lookup method path).allowed = info.allowed ∧
      methods.Sublist Http.MethodSet.allowOrder ∧ methods.Nodup ∧
      (∀ m, m ∈ methods ↔
        m ≠ .unknown ∧ ∃ route ∈ table.routes, route.method = m ∧ route.Matches path) ∧
      (methods = [] ↔ ∀ route ∈ table.routes, route.Matches path → route.method = .unknown) ∧
      (info.route = .error .methodNotAllowed → method ∉ methods ∧
        ∀ sc : Scope, sc.request.method = method → sc.relativePath = path →
          table.serve sc = Exchange.sendAll (table.refusalMessages path) ∧
          (∀ {σ : Type} (host : Host (Exchange E) σ) (s : σ),
            (table.serve sc).Delivers host s [] (table.refusalMessages path)) ∧
          ∀ {C σ : Type} (callee : Route E → Params → C)
            (host : Host (Exchange (Watched C E)) σ) (s : σ),
            Event.callees (((table.announcing callee).serve sc).transcript host s) = []) := by
  intro info methods
  have hagrees := table.lookup_agrees method path
  refine ⟨report_notFound_iff, ?_, report_methodNotAllowed_iff, ?_, hagrees.1, hagrees.2,
    List.filter_sublist, List.Nodup.filter _ (by decide), table.mem_methodsFor_iff path,
    table.methodsFor_eq_nil_iff path, ?_⟩
  · intro h
    have hreport : info = ⟨.error .notFound, false, .empty⟩ :=
      report_of_no_match (report_notFound_iff.1 h)
    rw [hreport]
    exact ⟨rfl, rfl⟩
  · rintro ⟨route, hroute, hmethod, hmatches⟩
    rcases report_of_fits hroute hmethod hmatches with ⟨place, params, found, hreport, hfound⟩
    have hroute : info.route = .ok (place, params) := congrArg DispatchReport.route hreport
    exact ⟨place, params, found, hroute, hfound⟩
  · intro h
    rcases report_methodNotAllowed_iff.1 h with ⟨⟨route, hroute, hmatches⟩, hother⟩
    refine ⟨fun hlisted => ?_, ?_⟩
    · rcases (table.mem_methodsFor_iff path method).1 hlisted with
        ⟨-, listed, hmem, hmethod, hlisted_matches⟩
      exact hother listed hmem hlisted_matches hmethod
    · rintro sc rfl rfl
      have hlookup := lookup_of_other_methods hroute hmatches hother
      have hserve := serve_of_methodNotAllowed hlookup
      refine ⟨hserve, fun host s => ?_, fun callee host s => ?_⟩
      · rw [hserve]
        exact .sendAll host _ s
      · rw [callees_serve_announcing, hlookup]

end RouteTable
end ApiGateway
