import ApiGateway.Routing.ApiRoutes

/-!
# First greatest elements

Templates and base paths are selected in the same way: a later element replaces the
best one so far only if it measures more.  What is left in the end is the earliest of
the elements that measure most.

Main definitions:

- `Routing.pick`: one step of a selection.
- `Routing.FirstGreatest`: the earliest of the elements that measure most.

Main results:

- `Routing.foldl_pick_iff`: a selection leaves exactly the first greatest element.
- `Routing.firstGreatest_filterMap_iff`: the first greatest image of an element.
- `Routing.score_lt_iff`: scores in terms of literal segments.
- `Routing.exists_of_resolve`: requests are routed only to what is listed.
-/

namespace ApiGateway
namespace Routing

variable {α β : Type}

/-- Keeps the best element so far unless the next one measures more. -/
def pick (measure : β → Nat) (best : Option β) (next : β) : Option β :=
  match best with
  | none => some next
  | some b => if measure b < measure next then some next else some b

/-- The earlier elements of the list measure less, and the later ones no more. -/
def FirstGreatest (measure : β → Nat) (l : List β) (x : β) : Prop :=
  ∃ before after, l = before ++ x :: after ∧ (∀ y ∈ before, measure y < measure x) ∧
    ∀ y ∈ after, measure y ≤ measure x

namespace FirstGreatest

variable {measure : β → Nat} {l : List β} {x : β}

theorem mem (h : FirstGreatest measure l x) : x ∈ l := by
  rcases h with ⟨before, after, rfl, -, -⟩
  exact List.mem_append_right before List.mem_cons_self

/-- No element of the list measures more. -/
theorem le (h : FirstGreatest measure l x) {y : β} (hy : y ∈ l) : measure y ≤ measure x := by
  rcases h with ⟨before, after, rfl, hbefore, hafter⟩
  rcases List.mem_append.1 hy with hy | hy
  · exact Nat.le_of_lt (hbefore y hy)
  · rcases List.mem_cons.1 hy with rfl | hy
    · exact Nat.le_refl _
    · exact hafter y hy

end FirstGreatest

/-- A list with an element has a first greatest one. -/
theorem exists_firstGreatest (measure : β → Nat) {l : List β} (h : l ≠ []) :
    ∃ x, FirstGreatest measure l x := by
  induction l with
  | nil => exact absurd rfl h
  | cons first rest ih =>
      by_cases hrest : rest = []
      · subst hrest
        exact ⟨first, [], [], rfl, by simp, by simp⟩
      · rcases ih hrest with ⟨x, hx⟩
        by_cases hless : measure first < measure x
        · rcases hx with ⟨before, after, hsplit, hbefore, hafter⟩
          refine ⟨x, first :: before, after, by rw [hsplit, List.cons_append], ?_, hafter⟩
          intro y hy
          rcases List.mem_cons.1 hy with rfl | hy
          · exact hless
          · exact hbefore y hy
        · refine ⟨first, [], rest, rfl, by simp, ?_⟩
          intro y hy
          have hle := hx.le hy
          omega

/-! ## Folding -/

section Fold

variable (measure : β → Nat)

/-- What a selection leaves was the best element before, or it has been given. -/
theorem mem_of_foldl_pick {l : List β} {best : Option β} {x : β}
    (h : l.foldl (pick measure) best = some x) : best = some x ∨ x ∈ l := by
  induction l generalizing best with
  | nil => exact .inl h
  | cons first rest ih =>
      rcases ih h with hstep | hmem
      · cases best with
        | none =>
            cases hstep
            exact .inr List.mem_cons_self
        | some b =>
            rw [pick] at hstep
            split at hstep
            · cases hstep
              exact .inr List.mem_cons_self
            · exact .inl hstep
      · exact .inr (List.mem_cons_of_mem _ hmem)

/-- What a selection from nothing leaves it has been given. -/
theorem mem_of_foldl_pick_none {l : List β} {x : β} (h : l.foldl (pick measure) none = some x) :
    x ∈ l := by
  rcases mem_of_foldl_pick measure h with hnone | hmem
  · cases hnone
  · exact hmem

/-- The best element so far stays if nothing measures more. -/
theorem foldl_pick_some {l : List β} {x : β} (h : ∀ y ∈ l, measure y ≤ measure x) :
    l.foldl (pick measure) (some x) = some x := by
  induction l with
  | nil => rfl
  | cons first rest ih =>
      have hfirst : ¬measure x < measure first := Nat.not_lt.2 (h first List.mem_cons_self)
      rw [List.foldl_cons, pick, if_neg hfirst]
      exact ih fun y hy => h y (List.mem_cons_of_mem _ hy)

/-- A selection leaves the first greatest element. -/
theorem foldl_pick_of_firstGreatest {l : List β} {x : β} (h : FirstGreatest measure l x) :
    l.foldl (pick measure) none = some x := by
  rcases h with ⟨before, after, rfl, hbefore, hafter⟩
  have hstep : pick measure (before.foldl (pick measure) none) x = some x := by
    cases hbest : before.foldl (pick measure) none with
    | none => rfl
    | some b =>
        have hless := hbefore b (mem_of_foldl_pick_none measure hbest)
        rw [pick, if_pos hless]
  rw [List.foldl_append, List.foldl_cons, hstep]
  exact foldl_pick_some measure hafter

/-- A selection leaves exactly the first greatest element. -/
theorem foldl_pick_iff {l : List β} {x : β} :
    l.foldl (pick measure) none = some x ↔ FirstGreatest measure l x := by
  refine ⟨fun h => ?_, foldl_pick_of_firstGreatest measure⟩
  have hne : l ≠ [] := List.ne_nil_of_mem (mem_of_foldl_pick_none measure h)
  rcases exists_firstGreatest measure hne with ⟨y, hy⟩
  have hxy : x = y := Option.some.inj (h.symm.trans (foldl_pick_of_firstGreatest measure hy))
  rw [hxy]
  exact hy

/-- A selection leaves nothing exactly if it is given nothing. -/
theorem foldl_pick_eq_none_iff {l : List β} :
    l.foldl (pick measure) none = none ↔ l = [] := by
  constructor
  · intro h
    by_cases hnil : l = []
    · exact hnil
    · rcases exists_firstGreatest measure hnil with ⟨x, hx⟩
      rw [foldl_pick_of_firstGreatest measure hx] at h
      cases h
  · rintro rfl
    rfl

/-- Among the images of a list the first greatest one comes from an element of the list. -/
theorem firstGreatest_filterMap_iff {f : α → Option β} {l : List α} {x : β} :
    FirstGreatest measure (l.filterMap f) x ↔
      ∃ before a after, l = before ++ a :: after ∧ f a = some x ∧
        (∀ b ∈ before, ∀ y, f b = some y → measure y < measure x) ∧
        ∀ b ∈ after, ∀ y, f b = some y → measure y ≤ measure x := by
  constructor
  · rintro ⟨before, after, hsplit, hbefore, hafter⟩
    rcases List.filterMap_eq_append_iff.1 hsplit with ⟨front, back, rfl, rfl, hback⟩
    rcases List.filterMap_eq_cons_iff.1 hback with ⟨skipped, a, rest, rfl, hskipped, ha, rfl⟩
    refine ⟨front ++ skipped, a, rest, by simp, ha, ?_, ?_⟩
    · intro b hb y hy
      rcases List.mem_append.1 hb with hb | hb
      · exact hbefore y (List.mem_filterMap.2 ⟨b, hb, hy⟩)
      · rw [hskipped b hb] at hy
        cases hy
    · intro b hb y hy
      exact hafter y (List.mem_filterMap.2 ⟨b, hb, hy⟩)
  · rintro ⟨before, a, after, rfl, ha, hbefore, hafter⟩
    refine ⟨before.filterMap f, after.filterMap f, ?_, ?_, ?_⟩
    · rw [List.filterMap_append, List.filterMap_cons_some ha]
    · intro y hy
      rcases List.mem_filterMap.1 hy with ⟨b, hb, hfb⟩
      exact hbefore b hb y hfb
    · intro y hy
      rcases List.mem_filterMap.1 hy with ⟨b, hb, hfb⟩
      exact hafter b hb y hfb

end Fold

/-! ## Templates -/

/-- The selected candidate is the first greatest one by score. -/
theorem mostSpecific_eq_foldl_pick (candidates : List (Candidate α)) :
    mostSpecific candidates = candidates.foldl (pick Candidate.score) none := by
  have hstep : (Candidate.better : Option (Candidate α) → _) = pick Candidate.score := by
    funext best next
    cases best <;> rfl
  rw [mostSpecific, hstep]

/-- The owner is the first greatest one by the length of its base path. -/
theorem owner?_eq_foldl_pick (apis : List ApiRoutes) (path : Bytes) :
    owner? apis path =
      (apis.filter fun api => !api.basePath.isEmpty && api.owns path).foldl
        (pick fun api => api.basePath.length) none := by
  have hstep : longerBase = pick fun api => api.basePath.length := by
    funext best next
    cases best <;> rfl
  rw [owner?, hstep]

/-- Among templates that match the same path, more literal segments give a greater score. -/
theorem score_lt_iff {p q : Pattern} {path : Bytes} {params others : Params}
    (hp : p.match? path = some params) (hq : q.match? path = some others) :
    p.score < q.score ↔ p.literalCount < q.literalCount := by
  have hlength : p.segments.length = q.segments.length :=
    (Pattern.length_eq_of_matchSegments hp).trans (Pattern.length_eq_of_matchSegments hq).symm
  have hcount := p.literalCount_add_paramCount
  have hcount' := q.literalCount_add_paramCount
  unfold Pattern.score
  omega

end Routing

/-! ## What is selected is listed -/

/-- A selected operation is one of the list. -/
theorem ApiRoutes.mem_of_match? {routes : ApiRoutes} {method : Http.Method} {path : Bytes}
    {op : OperationRoute} {params : Params} (h : routes.match? method path = some (op, params)) :
    op ∈ routes.operations := by
  rcases Option.map_eq_some_iff.1 h with ⟨c, hselected, hc⟩
  rw [Routing.mostSpecific_eq_foldl_pick] at hselected
  have hmem := Routing.mem_of_foldl_pick_none _ hselected
  rcases List.mem_filterMap.1 hmem with ⟨listed, hlisted, hcandidate⟩
  rcases Option.map_eq_some_iff.1 hcandidate with ⟨found, -, rfl⟩
  obtain rfl : listed = op := congrArg Prod.fst hc
  exact (List.mem_filter.1 hlisted).1

/-- A request is routed to an operation only if the routing list of its base path has the id. -/
theorem Routing.exists_of_resolve {apis : List ApiRoutes} {sc : Scope} {base id : Bytes}
    {params : Params}
    (h : resolve apis sc = { apiBasePath := some base, operationId := some id, params }) :
    ∃ routes ∈ apis, routes.basePath = base ∧ ∃ op ∈ routes.operations, op.operationId = id := by
  unfold resolve at h
  cases howner : owner? apis sc.relativePath with
  | some routes =>
      have hmem : routes ∈ apis := by
        rw [owner?_eq_foldl_pick] at howner
        exact (List.mem_filter.1 (mem_of_foldl_pick_none _ howner)).1
      rw [howner] at h
      dsimp only [ApiRoutes.contextFor] at h
      cases hmatch : routes.match? sc.request.method
          (sc.relativePath.drop routes.basePath.length) with
      | none =>
          rw [hmatch] at h
          cases h
      | some found =>
          rw [hmatch] at h
          cases h
          exact ⟨routes, hmem, rfl, found.1, ApiRoutes.mem_of_match? hmatch, rfl⟩
  | none =>
      rw [howner] at h
      dsimp only [rootContext] at h
      split at h
      · rename_i routes op params' hfound
        cases h
        rcases List.exists_of_findSome?_eq_some hfound with ⟨listed, hlisted, hmatch⟩
        rcases Option.map_eq_some_iff.1 hmatch with ⟨found, hmatch, hpair⟩
        cases hpair
        have hmem := (List.mem_filter.1 hlisted).1
        exact ⟨routes, hmem, rfl, op, ApiRoutes.mem_of_match? hmatch, rfl⟩
      · cases h

end ApiGateway
