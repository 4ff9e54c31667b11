import ApiGateway.Proofs.Selection
import ApiGateway.Proofs.Templates
import ApiGateway.Routing.Scan

/-!
# Both kinds of tables select alike

A table of manual routes and a routing list are scanned by two programs with a running
best entry.  Filled with the same registrations, they select the same one: of those that
fit the request, the earliest of those with the most literal segments.  Both scans are one
selection over the registrations, since scores are only compared between templates that
match the same path, and the score of an accepted template does not wrap.

Main definitions:

- `Registered`: an entry for both kinds of tables, with an accepted template.
- `Registered.SelectedAt`: the rule, with the place of the entry that it names.
- `Registered.step`, `Routing.Best.Holds`: one step of both scans, and what it keeps.

Main results:

- `Routing.Pattern.toInt_wordScore`: the score in machine words is the score.
- `Routing.Best.holds_foldl`: a scan holds what a selection leaves.
- `Registered.best_scan`, `Registered.foldl_scanStep`: both scans are one.
- `Registered.tables_select_alike`: both kinds of tables select what the rule names.
-/

namespace ApiGateway

variable {E : Signature}

/-! ## Scores in machine words -/

namespace Routing
namespace Pattern

/-- A small unsigned word is kept by the casts. -/
theorem toInt_toInt32_of_lt {n : UInt64} (h : n.toNat < 2147483648) :
    n.toUInt32.toInt32.toInt = n.toNat := by
  have hlow : n.toUInt32.toBitVec.toNat = n.toNat := by
    rw [UInt32.toNat_toBitVec, UInt64.toNat_toUInt32]
    omega
  change n.toUInt32.toBitVec.toInt = _
  rw [BitVec.toInt_eq_toNat_of_lt (by omega), hlow]

/-- The score of a template within the limit does not wrap in machine words. -/
theorem toInt_wordScore {p : Pattern} (h : p.segments.length ≤ maxSegments) :
    p.wordScore.toInt = p.score := by
  have hcount := p.literalCount_add_paramCount
  have hmax : maxSegments = 16 := rfl
  have hroom : UInt64.ofNat p.paramCount ≤ UInt64.ofNat maxSegments := by
    rw [UInt64.le_iff_toNat_le, UInt64.toNat_ofNat', UInt64.toNat_ofNat']
    omega
  have hwords : (UInt64.ofNat p.literalCount * 16 +
      (UInt64.ofNat maxSegments - UInt64.ofNat p.paramCount)).toNat = p.score := by
    rw [UInt64.toNat_add, UInt64.toNat_mul, UInt64.toNat_sub_of_le _ _ hroom]
    simp only [UInt64.toNat_ofNat', UInt64.toNat_ofNat, score]
    omega
  have hsmall : p.score < 2147483648 := by
    unfold score
    omega
  rw [wordScore, toInt_toInt32_of_lt (hwords ▸ hsmall), hwords]

/-- With one parameter more than the limit allows, the subtraction wraps. -/
example : (wordScore ⟨[], List.replicate 17 (.parameter [])⟩).toInt = -1 := by decide

end Pattern
end Routing

/-! ## Registrations -/

/--
An entry for both kinds of tables: a method and an accepted template, with a handler and a name for
a table of manual routes and an operation id for a routing list.
-/
structure Registered (E : Signature) where
  method : Http.Method
  template : Bytes
  pattern : Routing.Pattern
  accepted : Routing.Pattern.parse template = .ok pattern
  handler : RouteHandler E
  name : Bytes
  operationId : Bytes

namespace Registered

/-- The entry in a table of manual routes. -/
def route (entry : Registered E) : Route E :=
  ⟨entry.method, entry.pattern, entry.handler, entry.name⟩

/-- The entry in a routing list. -/
def operation (entry : Registered E) : OperationRoute :=
  ⟨entry.method, entry.pattern, entry.operationId⟩

/-- Registers the entry in a table of manual routes. -/
def addRoute (table : RouteTable E) (entry : Registered E) : Except Fault (RouteTable E) :=
  table.add [entry.method] entry.template entry.handler entry.name

/-- Registers the entry in a routing list. -/
def addOperation (routes : ApiRoutes) (entry : Registered E) : Except Fault ApiRoutes :=
  routes.add entry.method entry.template entry.operationId

/-- Registering entries one after another extends a table by all of them. -/
theorem foldlM_extend {τ β : Type} {add : τ → Registered E → Except Fault τ}
    {make : Registered E → β} {extend : τ → List β → τ} (hnil : ∀ table, extend table [] = table)
    (happend : ∀ table added more, extend (extend table added) more = extend table (added ++ more))
    (hadd : ∀ table entry, add table entry = .ok (extend table [make entry]))
    (entries : List (Registered E)) (table : τ) :
    entries.foldlM add table = .ok (extend table (entries.map make)) := by
  induction entries generalizing table with
  | nil => exact congrArg Except.ok (hnil table).symm
  | cons entry rest ih =>
      rw [List.foldlM_cons, hadd]
      exact (ih _).trans (congrArg Except.ok (happend table [make entry] (rest.map make)))

/-- Registering entries appends them to a table of manual routes. -/
theorem foldlM_addRoute (entries : List (Registered E)) (table : RouteTable E) :
    entries.foldlM addRoute table = .ok ⟨table.routes ++ entries.map route⟩ := by
  let extend (table : RouteTable E) (routes : List (Route E)) : RouteTable E :=
    ⟨table.routes ++ routes⟩
  have hadd (table : RouteTable E) (entry : Registered E) :
      addRoute table entry = .ok (extend table [entry.route]) := by
    rw [addRoute, RouteTable.add, entry.accepted]
    rfl
  have hnil (table : RouteTable E) : extend table [] = table :=
    congrArg RouteTable.mk (List.append_nil _)
  exact foldlM_extend hnil (fun _ _ _ => congrArg RouteTable.mk (List.append_assoc _ _ _)) hadd
    entries table

/-- Registering entries appends them to a routing list. -/
theorem foldlM_addOperation (entries : List (Registered E)) (routes : ApiRoutes) :
    entries.foldlM addOperation routes =
      .ok ⟨routes.basePath, routes.operations ++ entries.map operation⟩ := by
  let extend (routes : ApiRoutes) (operations : List OperationRoute) : ApiRoutes :=
    ⟨routes.basePath, routes.operations ++ operations⟩
  have hadd (routes : ApiRoutes) (entry : Registered E) :
      addOperation routes entry = .ok (extend routes [entry.operation]) := by
    rw [addOperation, ApiRoutes.add, entry.accepted]
    rfl
  have hnil (routes : ApiRoutes) : extend routes [] = routes :=
    congrArg (ApiRoutes.mk routes.basePath) (List.append_nil _)
  exact foldlM_extend hnil
    (fun routes _ _ => congrArg (ApiRoutes.mk routes.basePath) (List.append_assoc _ _ _)) hadd
    entries routes

/-! ## The rule -/

/-- The number of literal segments of the template. -/
def literals (entry : Registered E) : Nat :=
  entry.pattern.literalCount

/-- The entry has the method, and its template matches the path with those parameters. -/
def Fits (entry : Registered E) (method : Http.Method) (path : Bytes) (params : Params) : Prop :=
  entry.method = method ∧ entry.pattern.match? path = some params

/--
Of the entries that fit a request, the one at this place has the most literal segments and is the
earliest of those.
-/
def SelectedAt (entries : List (Registered E)) (method : Http.Method) (path : Bytes) (place : Nat)
    (entry : Registered E) (params : Params) : Prop :=
  ∃ before after, entries = before ++ entry :: after ∧ place = before.length ∧
    entry.Fits method path params ∧
    (∀ other ∈ before, ∀ ps, other.Fits method path ps → other.literals < entry.literals) ∧
    ∀ other ∈ after, ∀ ps, other.Fits method path ps → other.literals ≤ entry.literals

/-- The parameters with which the entry fits, if it does. -/
def fit? (entry : Registered E) (method : Http.Method) (path : Bytes) : Option Params :=
  if entry.method = method then entry.pattern.match? path else none

theorem fit?_eq_some_iff {entry : Registered E} {method : Http.Method} {path : Bytes}
    {params : Params} :
    entry.fit? method path = some params ↔ entry.Fits method path params := by
  unfold fit? Fits
  by_cases hmethod : entry.method = method
  · rw [if_pos hmethod, and_iff_right hmethod]
  · rw [if_neg hmethod]
    exact iff_of_false nofun fun hfits => hmethod hfits.1

/-- What is made of an entry that fits, if its parameters can be read off it. -/
theorem map_fit?_eq_some_iff {α : Type} {make : Params → α} (read : α → Params)
    (hread : ∀ params, read (make params) = params) {entry : Registered E} {method : Http.Method}
    {path : Bytes} {c : α} :
    (entry.fit? method path).map make = some c ↔
      entry.Fits method path (read c) ∧ c = make (read c) := by
  rw [Option.map_eq_some_iff]
  constructor
  · rintro ⟨params, hfit, rfl⟩
    rw [hread]
    exact ⟨fit?_eq_some_iff.1 hfit, rfl⟩
  · rintro ⟨hfits, hc⟩
    exact ⟨read c, fit?_eq_some_iff.2 hfits, hc.symm⟩

/-- An entry that fits, with its place and its parameters. -/
structure Choice (E : Signature) where
  place : Nat
  entry : Registered E
  params : Params

/-- The choice that an entry at a place is, if it fits. -/
def choice? (method : Http.Method) (path : Bytes) (placed : Registered E × Nat) :
    Option (Choice E) :=
  (placed.1.fit? method path).map fun params => ⟨placed.2, placed.1, params⟩

/-- An entry is a choice exactly if it fits. -/
theorem choice?_eq_some_iff {method : Http.Method} {path : Bytes} {placed : Registered E × Nat}
    {c : Choice E} :
    choice? method path placed = some c ↔
      placed.1.Fits method path c.params ∧ c = ⟨placed.2, placed.1, c.params⟩ :=
  map_fit?_eq_some_iff Choice.params fun _ => rfl

/-- The entries that fit, with their places. -/
def choices (entries : List (Registered E)) (method : Http.Method) (path : Bytes) :
    List (Choice E) :=
  entries.zipIdx.filterMap (choice? method path)

/-- The first greatest choice by literal segments is the one that the rule names. -/
theorem selectedAt_of_firstGreatest {entries : List (Registered E)} {method : Http.Method}
    {path : Bytes} {c : Choice E}
    (h : Routing.FirstGreatest (fun c => c.entry.literals) (choices entries method path) c) :
    SelectedAt entries method path c.place c.entry c.params := by
  rcases (Routing.firstGreatest_filterMap_iff _).1 h with
    ⟨before, placed, after, hsplit, hchoice, hbefore, hafter⟩
  rcases List.zipIdx_eq_append_iff.1 hsplit with ⟨front, back, rfl, rfl, hback⟩
  rcases List.zipIdx_eq_cons_iff.1 hback.symm with ⟨entry, rest, rfl, rfl, rfl⟩
  rcases choice?_eq_some_iff.1 hchoice with ⟨hfits, hc⟩
  have hentry : c.entry = entry := congrArg Choice.entry hc
  have hplace : c.place = 0 + front.length := congrArg Choice.place hc
  have hmem {l : List (Registered E)} {other : Registered E} (n : Nat) (hother : other ∈ l) :
      ∃ place, (other, place) ∈ l.zipIdx n := by
    rw [← List.zipIdx_map_fst n l, List.mem_map] at hother
    rcases hother with ⟨⟨_, place⟩, hplaced, rfl⟩
    exact ⟨place, hplaced⟩
  rw [hentry] at hbefore hafter ⊢
  refine ⟨front, rest, rfl, by rw [hplace, Nat.zero_add], hfits, ?_, ?_⟩
  · intro other hother ps hother_fits
    rcases hmem 0 hother with ⟨place, hplaced⟩
    exact hbefore _ hplaced ⟨place, other, ps⟩ (choice?_eq_some_iff.2 ⟨hother_fits, rfl⟩)
  · intro other hother ps hother_fits
    rcases hmem _ hother with ⟨place, hplaced⟩
    exact hafter _ hplaced ⟨place, other, ps⟩ (choice?_eq_some_iff.2 ⟨hother_fits, rfl⟩)

/-- Where there is no choice, nothing fits. -/
theorem not_fits_of_choices_eq_nil {entries : List (Registered E)} {method : Http.Method}
    {path : Bytes} (h : choices entries method path = []) {entry : Registered E}
    (hentry : entry ∈ entries) (params : Params) : ¬entry.Fits method path params := by
  intro hfits
  rw [← List.zipIdx_map_fst 0 entries, List.mem_map] at hentry
  rcases hentry with ⟨⟨_, place⟩, hplaced, rfl⟩
  have hmem : (⟨place, _, params⟩ : Choice E) ∈ choices entries method path :=
    List.mem_filterMap.2 ⟨_, hplaced, choice?_eq_some_iff.2 ⟨hfits, rfl⟩⟩
  rw [h] at hmem
  cases hmem

/-! ## The scans -/

/-- One step of a scan: an entry that fits is offered. -/
def step (method : Http.Method) (path : Bytes) (best : Routing.Best)
    (placed : Registered E × Nat) : Routing.Best :=
  match choice? method path placed with
  | none => best
  | some c => best.offer c.place c.params c.entry.pattern.wordScore

end Registered

namespace Routing
namespace Best

/-- The best entry so far is the one chosen so far, with its own parameters and score. -/
def Holds (path : Bytes) (best : Best) : Option (Registered.Choice E) → Prop
  | none => best = {}
  | some c => c.entry.pattern.match? path = some c.params ∧ best.place = some c.place ∧
      best.params = c.params ∧ best.score.toInt = c.entry.pattern.score

/-- An offer is taken exactly if its entry has more literal segments. -/
theorem Holds.offer {path : Bytes} {best : Best} {chosen : Option (Registered.Choice E)}
    (h : best.Holds path chosen) {c : Registered.Choice E}
    (hmatch : c.entry.pattern.match? path = some c.params) :
    (best.offer c.place c.params c.entry.pattern.wordScore).Holds path
      (pick (fun c => c.entry.literals) chosen c) := by
  have hscore := Pattern.toInt_wordScore (Pattern.length_segments_le c.entry.accepted)
  have htaken : Holds path ⟨some c.place, c.params, c.entry.pattern.wordScore⟩ (some c) :=
    ⟨hmatch, rfl, rfl, hscore⟩
  cases chosen with
  | none =>
      have hbest : best = {} := h
      rw [hbest]
      exact htaken
  | some b =>
      rcases h with ⟨hmatch', hplace, hparams, hbest⟩
      have hless : best.score < c.entry.pattern.wordScore ↔
          b.entry.literals < c.entry.literals := by
        rw [Int32.lt_iff_toInt_lt, hbest, hscore, Int.ofNat_lt]
        exact score_lt_iff hmatch' hmatch
      rw [Best.offer, hplace, pick]
      by_cases hmore : b.entry.literals < c.entry.literals
      · rw [if_pos hmore, decide_eq_true (hless.2 hmore), Bool.or_true, if_pos rfl]
        exact htaken
      · rw [if_neg hmore, decide_eq_false fun hlt => hmore (hless.1 hlt)]
        exact ⟨hmatch', hplace, hparams, hbest⟩

/-- A scan keeps the entry that a selection by literal segments leaves. -/
theorem holds_foldl {method : Http.Method} {path : Bytes} {best : Best}
    {chosen : Option (Registered.Choice E)} (h : best.Holds path chosen)
    (placed : List (Registered E × Nat)) :
    (placed.foldl (Registered.step method path) best).Holds path
      ((placed.filterMap (Registered.choice? method path)).foldl
        (pick fun c => c.entry.literals) chosen) := by
  induction placed generalizing best chosen with
  | nil => exact h
  | cons first rest ih =>
      rw [List.foldl_cons, Registered.step]
      cases hchoice : Registered.choice? method path first with
      | none =>
          rw [List.filterMap_cons_none hchoice]
          exact ih h
      | some c =>
          rw [List.filterMap_cons_some hchoice, List.foldl_cons]
          rcases Registered.choice?_eq_some_iff.1 hchoice with ⟨hfits, hc⟩
          have hmatch : c.entry.pattern.match? path = some c.params := by
            rw [hc]
            exact hfits.2
          exact ih (h.offer hmatch)

end Best
end Routing

namespace Registered

variable {entries : List (Registered E)} {method : Http.Method} {path : Bytes}

/-- What a scan of the entries ends with: the selected one, or nothing because nothing fits. -/
theorem foldl_step_cases (entries : List (Registered E)) (method : Http.Method) (path : Bytes) :
    (∃ place entry params, SelectedAt entries method path place entry params ∧
        (entries.zipIdx.foldl (step method path) {}).place = some place ∧
        (entries.zipIdx.foldl (step method path) {}).params = params) ∨
      (∀ entry ∈ entries, ∀ params, ¬entry.Fits method path params) ∧
        entries.zipIdx.foldl (step method path) {} = {} := by
  have hstart : Routing.Best.Holds (E := E) path {} none := rfl
  have hholds : Routing.Best.Holds path (entries.zipIdx.foldl (step method path) {})
      ((choices entries method path).foldl (Routing.pick fun c => c.entry.literals) none) :=
    Routing.Best.holds_foldl hstart entries.zipIdx
  cases hchosen : (choices entries method path).foldl
      (Routing.pick fun c => c.entry.literals) none with
  | none =>
      rw [hchosen] at hholds
      have hnil := (Routing.foldl_pick_eq_none_iff _).1 hchosen
      exact .inr ⟨fun entry hentry params => not_fits_of_choices_eq_nil hnil hentry params, hholds⟩
  | some c =>
      rw [hchosen] at hholds
      rcases hholds with ⟨-, hplace, hparams, -⟩
      have hgreatest := (Routing.foldl_pick_iff _).1 hchosen
      have hselected := selectedAt_of_firstGreatest hgreatest
      exact .inl ⟨c.place, c.entry, c.params, hselected, hplace, hparams⟩

/-- A step over a routing list is a step over the entries. -/
theorem scanStep_operation (best : Routing.Best) (entry : Registered E) (place : Nat) :
    ApiRoutes.scanStep method path best (entry.operation, place) =
      step method path best (entry, place) := by
  unfold ApiRoutes.scanStep step choice? fit?
  by_cases hmethod : entry.method = method
  · cases hmatch : entry.pattern.match? path with
    | none =>
        simp only [operation, hmethod, hmatch, ne_eq, not_true_eq_false, if_false, if_true,
          Option.map_none]
    | some params =>
        simp only [operation, hmethod, hmatch, ne_eq, not_true_eq_false, if_false, if_true,
          Option.map_some]
  · simp only [operation, hmethod, ne_eq, not_false_eq_true, if_true, if_false, Option.map_none]

/-- A step over a table of manual routes changes the best entry as a step over the entries does. -/
theorem best_scanStep_route (seen : TableScan) (entry : Registered E) (place : Nat) :
    (RouteTable.scanStep method path seen (entry.route, place)).best =
      step method path seen.best (entry, place) := by
  unfold RouteTable.scanStep step choice? fit?
  cases hmatch : entry.pattern.match? path with
  | none => simp only [route, hmatch, Option.map_none, ite_self]
  | some params =>
      by_cases hmethod : entry.method = method
      · simp only [route, hmatch, hmethod, ne_eq, not_true_eq_false, if_false, if_true,
          Option.map_some]
      · simp only [route, hmatch, hmethod, ne_eq, not_false_eq_true, if_true, if_false,
          Option.map_none]

/-- A scan of a routing list is a scan of the entries. -/
theorem foldl_scanStep (entries : List (Registered E)) (method : Http.Method) (path : Bytes) :
    (entries.map operation).zipIdx.foldl (ApiRoutes.scanStep method path) {} =
      entries.zipIdx.foldl (step method path) {} := by
  rw [List.zipIdx_map, List.foldl_map]
  congr 1
  funext best placed
  exact scanStep_operation best placed.1 placed.2

/-- The best entry in a scan of a table of manual routes is the one in a scan of the entries. -/
theorem best_scan (entries : List (Registered E)) (method : Http.Method) (path : Bytes) :
    (RouteTable.scan ⟨entries.map route⟩ method path).best =
      entries.zipIdx.foldl (step method path) {} := by
  have hfold (placed : List (Registered E × Nat)) (seen : TableScan) :
      ((placed.map (Prod.map route id)).foldl (RouteTable.scanStep method path) seen).best =
        placed.foldl (step method path) seen.best := by
    induction placed generalizing seen with
    | nil => rfl
    | cons first rest ih =>
        rw [List.map_cons, List.foldl_cons, List.foldl_cons, ih]
        exact congrArg (rest.foldl (step method path))
          (best_scanStep_route seen first.1 first.2)
  rw [RouteTable.scan, List.zipIdx_map]
  exact hfold entries.zipIdx {}

/-! ## Selection by candidates -/

/-- The candidate that an entry becomes in a table, if it fits. -/
def candidate? {α : Type} (make : Registered E → α) (method : Http.Method) (path : Bytes)
    (entry : Registered E) : Option (Routing.Candidate α) :=
  (entry.fit? method path).map fun params => ⟨make entry, params, entry.pattern.score⟩

section Candidates

variable {α : Type} {make : Registered E → α}

/-- An entry becomes a candidate exactly if it fits. -/
theorem candidate?_eq_some_iff {entry : Registered E} {c : Routing.Candidate α} :
    candidate? make method path entry = some c ↔
      entry.Fits method path c.params ∧ c = ⟨make entry, c.params, entry.pattern.score⟩ :=
  map_fit?_eq_some_iff Routing.Candidate.params fun _ => rfl

/-- Entries that fit the same request score by their literal segments. -/
theorem Fits.score_lt_iff {entry other : Registered E} {params ps : Params}
    (hentry : entry.Fits method path params) (hother : other.Fits method path ps) :
    other.pattern.score < entry.pattern.score ↔ other.literals < entry.literals :=
  Routing.score_lt_iff hother.2 hentry.2

/-- The candidate that is selected is the one that the rule names. -/
theorem SelectedAt.mostSpecific {place : Nat} {entry : Registered E} {params : Params}
    (h : SelectedAt entries method path place entry params) (make : Registered E → α) :
    Routing.mostSpecific (entries.filterMap (candidate? make method path)) =
      some ⟨make entry, params, entry.pattern.score⟩ := by
  rcases h with ⟨before, after, hsplit, -, hfits, hbefore, hafter⟩
  rw [Routing.mostSpecific_eq_foldl_pick]
  refine Routing.foldl_pick_of_firstGreatest _ ((Routing.firstGreatest_filterMap_iff _).2
    ⟨before, entry, after, hsplit, candidate?_eq_some_iff.2 ⟨hfits, rfl⟩, ?_, ?_⟩)
  · intro other hmem d hd
    rcases candidate?_eq_some_iff.1 hd with ⟨hother, hcandidate⟩
    rw [hcandidate]
    exact (hfits.score_lt_iff hother).2 (hbefore other hmem d.params hother)
  · intro other hmem d hd
    rcases candidate?_eq_some_iff.1 hd with ⟨hother, hcandidate⟩
    rw [hcandidate]
    refine Nat.not_lt.1 fun hless => ?_
    have hmore := (hother.score_lt_iff hfits).1 hless
    exact absurd (hafter other hmem d.params hother) (Nat.not_le.2 hmore)

/-- No candidate is selected if nothing fits. -/
theorem mostSpecific_eq_none (h : ∀ entry ∈ entries, ∀ params, ¬entry.Fits method path params)
    (make : Registered E → α) :
    Routing.mostSpecific (entries.filterMap (candidate? make method path)) = none := by
  have hnil : entries.filterMap (candidate? make method path) = [] := by
    refine List.filterMap_eq_nil_iff.2 fun entry hentry => Option.eq_none_iff_forall_ne_some.2 ?_
    intro c hc
    exact h entry hentry c.params (candidate?_eq_some_iff.1 hc).1
  rw [hnil, Routing.mostSpecific_nil]

end Candidates

/-- The candidates of a routing list are those of the entries. -/
theorem candidates_operation (entries : List (Registered E)) (method : Http.Method)
    (path : Bytes) :
    ((entries.map operation).filter fun op => op.method = method).filterMap
        (Routing.Candidate.of? OperationRoute.pattern path) =
      entries.filterMap (candidate? operation method path) := by
  rw [List.filterMap_filter, List.filterMap_map]
  congr 1
  funext entry
  simp only [Function.comp_apply, decide_eq_true_eq, candidate?, fit?, operation,
    Routing.Candidate.of?]
  by_cases hmethod : entry.method = method
  · simp only [hmethod, if_true]
  · simp only [hmethod, if_false, Option.map_none]

/-- The candidates of a table of manual routes are those of the entries. -/
theorem candidates_route (entries : List (Registered E)) (method : Http.Method) (path : Bytes) :
    ((RouteTable.matching ⟨entries.map route⟩ path).filter fun c => c.entry.method = method) =
      entries.filterMap (candidate? route method path) := by
  rw [RouteTable.matching, List.filter_filterMap, List.filterMap_map]
  congr 1
  funext entry
  simp only [Function.comp_apply, candidate?, fit?, route, Routing.Candidate.of?]
  cases entry.pattern.match? path with
  | none => simp
  | some params => by_cases hmethod : entry.method = method <;> simp [hmethod]

/-! ## Both tables -/

/--
Both kinds of tables, filled with the same registrations, select the same entry for every request:
of those that fit, the earliest of those with the most literal segments.  They return its place and
exactly its parameters, and a routing list puts these in place of the caller's.  If nothing fits,
both return nothing, and the caller's parameters are left as they are.  The scores by which they
select compare as the numbers of literal segments do, for templates that match the same path, and
never wrap.
-/
theorem tables_select_alike (entries : List (Registered E)) (base : Bytes) :
    ∃ table routes, entries.foldlM addRoute RouteTable.empty = .ok table ∧
      entries.foldlM addOperation ⟨base, []⟩ = .ok routes ∧
      (∀ method path given,
        (∃ place entry params, SelectedAt entries method path place entry params ∧
          (table.report method path).route = .ok (place, params) ∧
          routes.matchInto method path given = (some place, params) ∧
          table.routes[place]? = some entry.route ∧
          routes.operations[place]? = some entry.operation ∧
          table.lookup method path = .found entry.route params (table.allowed path) ∧
          routes.match? method path = some (entry.operation, params)) ∨
        (∀ entry ∈ entries, ∀ params, ¬entry.Fits method path params) ∧
          (∃ code, (table.report method path).route = .error code) ∧
          routes.matchInto method path given = (none, given) ∧
          (∀ route params allowed, table.lookup method path ≠ .found route params allowed) ∧
          routes.match? method path = none) ∧
      (∀ (first other : Registered E) (path : Bytes), (first.pattern.match? path).isSome →
        (other.pattern.match? path).isSome →
        (first.pattern.wordScore < other.pattern.wordScore ↔ first.literals < other.literals)) ∧
      ∀ entry : Registered E, entry.pattern.wordScore.toInt =
        16 * (entry.literals : Int) + (16 - (entry.pattern.paramCount : Int)) := by
  refine ⟨⟨entries.map route⟩, ⟨base, entries.map operation⟩, foldlM_addRoute entries _,
    foldlM_addOperation entries _, ?_, ?_, ?_⟩
  · intro method path given
    rcases foldl_step_cases entries method path with
      ⟨place, entry, params, hselected, hplace, hparams⟩ | ⟨hnone, hbest⟩
    · refine .inl ⟨place, entry, params, hselected, ?_, ?_, ?_, ?_, ?_, ?_⟩
      · simp only [RouteTable.report, best_scan, hplace, hparams]
      · simp only [ApiRoutes.matchInto, foldl_scanStep, hplace, hparams, Option.isSome_some,
          if_true]
      · rcases hselected with ⟨before, after, rfl, rfl, -⟩
        simp
      · rcases hselected with ⟨before, after, rfl, rfl, -⟩
        simp
      · simp only [RouteTable.lookup, candidates_route, hselected.mostSpecific route]
      · simp only [ApiRoutes.match?, candidates_operation, hselected.mostSpecific operation,
          Option.map_some]
    · refine .inr ⟨hnone, ?_, ?_, ?_, ?_⟩
      · simp only [RouteTable.report, best_scan, hbest]
        split
        · exact ⟨_, rfl⟩
        · exact ⟨_, rfl⟩
      · simp only [ApiRoutes.matchInto, foldl_scanStep, hbest]
        rfl
      · intro found params allowed
        simp only [RouteTable.lookup, candidates_route, mostSpecific_eq_none hnone route]
        split
        · exact nofun
        · exact nofun
      · simp only [ApiRoutes.match?, candidates_operation, mostSpecific_eq_none hnone operation,
          Option.map_none]
  · intro first other path hfirst hother
    rcases Option.isSome_iff_exists.1 hfirst with ⟨params, hmatch⟩
    rcases Option.isSome_iff_exists.1 hother with ⟨ps, hmatch'⟩
    have hscore := Routing.Pattern.toInt_wordScore
      (Routing.Pattern.length_segments_le first.accepted)
    have hscore' := Routing.Pattern.toInt_wordScore
      (Routing.Pattern.length_segments_le other.accepted)
    rw [Int32.lt_iff_toInt_lt, hscore, hscore', Int.ofNat_lt]
    exact Routing.score_lt_iff hmatch hmatch'
  · intro entry
    have hlength := Routing.Pattern.length_segments_le entry.accepted
    have hcount := entry.pattern.literalCount_add_paramCount
    have hmax : Routing.maxSegments = 16 := rfl
    rw [Routing.Pattern.toInt_wordScore hlength, Routing.Pattern.score, literals]
    omega

end Registered
end ApiGateway
