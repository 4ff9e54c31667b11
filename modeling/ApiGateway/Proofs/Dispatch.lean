import ApiGateway.Proofs.Watching

/-!
# Dispatch

A dispatcher takes one of five ways, by three optional values and two tables.  Each way
is described by the program that it leads to.  Since the same description holds of the
watched dispatcher, it also tells who is called in every run, and how often.

Main definitions:

- `Dispatcher.Delegates`: a request belongs to another mounted API.
- `Dispatcher.Callee`, `Dispatcher.watched`: the dispatcher whose callees announce themselves.

Main results:

- `Dispatcher.serve_of_delegates` and its four companions: the program of each way.
- `Dispatcher.unwatch_serve`: watching a dispatcher does not change what it does.
- `Dispatcher.takes_one_branch`: in every run exactly the callee of its way is called.
-/

namespace ApiGateway
namespace Dispatcher

variable {E : Signature} {σ : Type}

/-- The request belongs to an API of the table other than the one that dispatches. -/
def Delegates (d : Dispatcher E) (routing : Routing) (base : Bytes) (subApp : Endpoint E) : Prop :=
  routing.apiBasePath = some base ∧ d.ownBasePath ≠ some base ∧ d.subApps.find? base = some subApp

/-- An API is delegated to exactly if the request belongs to it. -/
theorem subApp?_eq_some_iff (d : Dispatcher E) (routing : Routing) (subApp : Endpoint E) :
    d.subApp? routing = some subApp ↔ ∃ base, d.Delegates routing base subApp := by
  unfold subApp? Delegates
  cases routing.apiBasePath with
  | none => simp
  | some base =>
      by_cases hown : d.ownBasePath = some base
      · simp [hown]
      · simp [hown]

/-- No API is delegated to if the request belongs to none. -/
theorem subApp?_eq_none {d : Dispatcher E} {routing : Routing}
    (h : ∀ base subApp, ¬d.Delegates routing base subApp) : d.subApp? routing = none := by
  cases hsub : d.subApp? routing with
  | none => rfl
  | some subApp =>
      rcases (subApp?_eq_some_iff d routing subApp).1 hsub with ⟨base, hdelegates⟩
      exact absurd hdelegates (h base subApp)

/-- What is delegated to is in the table. -/
theorem find?_of_branch_eq_delegate {d : Dispatcher E} {routing : Option Routing}
    {subApp : Endpoint E} (h : d.branch routing = .delegate subApp) :
    ∃ base, d.subApps.find? base = some subApp := by
  cases routing with
  | none => cases h
  | some routing =>
      cases hsub : d.subApp? routing with
      | some found =>
          rcases (subApp?_eq_some_iff d routing found).1 hsub with ⟨base, hdelegates⟩
          simp only [branch, hsub, Branch.delegate.injEq] at h
          exact ⟨base, h ▸ hdelegates.2.2⟩
      | none =>
          simp only [branch, hsub] at h
          split at h
          · cases h
          · split at h <;> cases h

/-! ## The five ways -/

section Ways

variable {d : Dispatcher E} {sc : Scope} {routing : Routing}

theorem branch_of_delegates {base : Bytes} {subApp : Endpoint E}
    (hdelegates : d.Delegates routing base subApp) :
    d.branch (some routing) = .delegate subApp := by
  have hsub := (subApp?_eq_some_iff d routing subApp).2 ⟨base, hdelegates⟩
  simp only [branch, hsub]

theorem branch_of_operation (hown : ∀ base subApp, ¬d.Delegates routing base subApp) {id : Bytes}
    {inv : Invoker E} (hid : routing.operationId = some id)
    (hfind : d.operations.find? id = some inv) : d.branch (some routing) = .invoke inv := by
  simp only [branch, subApp?_eq_none hown, hid, hfind]

theorem branch_of_no_operation (hown : ∀ base subApp, ¬d.Delegates routing base subApp)
    (hid : routing.operationId = none) : d.branch (some routing) = .fallback := by
  simp only [branch, subApp?_eq_none hown, hid]

theorem branch_of_unknown_operation (hown : ∀ base subApp, ¬d.Delegates routing base subApp)
    {id : Bytes} (hid : routing.operationId = some id) (hfind : d.operations.find? id = none) :
    d.branch (some routing) = .unknownOperation id := by
  simp only [branch, subApp?_eq_none hown, hid, hfind]

/-- Without a routing context nothing is called. -/
theorem serve_of_routing_eq_none (h : sc.routing = none) : d.serve sc = .fault missingRouting := by
  rw [serve, h]
  rfl

/-- A request of another mounted API is left to it as it is. -/
theorem serve_of_delegates (h : sc.routing = some routing) {base : Bytes} {subApp : Endpoint E}
    (hdelegates : d.Delegates routing base subApp) : d.serve sc = subApp sc := by
  rw [serve, h, branch_of_delegates hdelegates]

/-- A registered operation is invoked, and its result is responded to. -/
theorem serve_of_operation (h : sc.routing = some routing)
    (hown : ∀ base subApp, ¬d.Delegates routing base subApp) {id : Bytes} {inv : Invoker E}
    (hid : routing.operationId = some id) (hfind : d.operations.find? id = some inv) :
    d.serve sc = (inv.invoke sc).bind (respond d.observed inv.mediaType) := by
  rw [serve, h, branch_of_operation hown hid hfind]

/-- A request without operation is left to the fallback. -/
theorem serve_of_no_operation (h : sc.routing = some routing)
    (hown : ∀ base subApp, ¬d.Delegates routing base subApp)
    (hid : routing.operationId = none) : d.serve sc = d.fallback sc := by
  rw [serve, h, branch_of_no_operation hown hid]

/-- An operation that is not registered is not called. -/
theorem serve_of_unknown_operation (h : sc.routing = some routing)
    (hown : ∀ base subApp, ¬d.Delegates routing base subApp) {id : Bytes}
    (hid : routing.operationId = some id) (hfind : d.operations.find? id = none) :
    d.serve sc = .fault (unknownOperation id) := by
  rw [serve, h, branch_of_unknown_operation hown hid hfind]

end Ways

/-! ## Watched dispatchers -/

/-- Who is called while a request is dispatched. -/
inductive Callee where
  /-- The mounted API of a base path. -/
  | subApp (base : Bytes) (sc : Scope)
  /-- The handler of an operation. -/
  | handler (operationId : Bytes) (args : Arguments)
  /-- The endpoint for requests without operation. -/
  | fallback (sc : Scope)
deriving DecidableEq

/-- The dispatcher whose callees announce themselves. -/
def watched (d : Dispatcher E) : Dispatcher (Watched Callee E) where
  ownBasePath := d.ownBasePath
  operations := d.operations.map fun id inv => inv.announcing (.handler id)
  fallback := fun sc => (d.fallback sc).announce (.fallback sc)
  subApps := d.subApps.map fun base subApp sc => (subApp sc).announce (.subApp base sc)
  observed := d.observed

section Watched

variable {d : Dispatcher E} {sc : Scope} {routing : Routing}

/-- The watched dispatcher delegates where the dispatcher does. -/
theorem Delegates.watched {base : Bytes} {subApp : Endpoint E}
    (h : d.Delegates routing base subApp) :
    d.watched.Delegates routing base fun sc => (subApp sc).announce (.subApp base sc) := by
  refine ⟨h.1, h.2.1, ?_⟩
  change (d.subApps.map _).find? base = _
  rw [Registry.find?_map, h.2.2]
  rfl

/-- The watched dispatcher delegates nowhere else. -/
theorem not_delegates_watched (h : ∀ base subApp, ¬d.Delegates routing base subApp) :
    ∀ base subApp, ¬d.watched.Delegates routing base subApp := by
  rintro base subApp ⟨hbase, hown, hfind⟩
  change (d.subApps.map _).find? base = _ at hfind
  rw [Registry.find?_map, Option.map_eq_some_iff] at hfind
  rcases hfind with ⟨original, hfind, -⟩
  exact h base original ⟨hbase, hown, hfind⟩

/-- The watched dispatcher knows the same operations. -/
theorem find?_operations_watched (d : Dispatcher E) (id : Bytes) :
    d.watched.operations.find? id =
      (d.operations.find? id).map fun inv => inv.announcing (.handler id) :=
  Registry.find?_map _ _ _

/-- The watched dispatcher lets a registered operation announce its handler. -/
theorem serve_watched_of_operation (h : sc.routing = some routing)
    (hown : ∀ base subApp, ¬d.Delegates routing base subApp) {id : Bytes} {inv : Invoker E}
    (hid : routing.operationId = some id) (hfind : d.operations.find? id = some inv) :
    d.watched.serve sc =
      ((inv.announcing (.handler id)).invoke sc).bind (respond d.observed inv.mediaType) := by
  have hwatched : d.watched.operations.find? id = some (inv.announcing (.handler id)) := by
    rw [find?_operations_watched, hfind]
    rfl
  exact serve_of_operation h (not_delegates_watched hown) hid hwatched

/-- The watched dispatcher rejects the same operations. -/
theorem find?_watched_eq_none {id : Bytes} (h : d.operations.find? id = none) :
    d.watched.operations.find? id = none := by
  rw [find?_operations_watched, h]
  rfl

/-- Erasing the announcements of a watched dispatcher gives back the dispatcher. -/
theorem unwatch_serve (d : Dispatcher E) (sc : Scope) :
    (d.watched.serve sc).unwatch = d.serve sc := by
  cases h : sc.routing with
  | none =>
      rw [serve_of_routing_eq_none h, serve_of_routing_eq_none h]
      rfl
  | some routing =>
      by_cases hsub : ∃ base subApp, d.Delegates routing base subApp
      · rcases hsub with ⟨base, subApp, hdelegates⟩
        rw [serve_of_delegates h hdelegates.watched, serve_of_delegates h hdelegates]
        exact Prog.unwatch_watch _
      · have hown : ∀ base subApp, ¬d.Delegates routing base subApp :=
          fun base subApp hdelegates => hsub ⟨base, subApp, hdelegates⟩
        cases hid : routing.operationId with
        | none =>
            rw [serve_of_no_operation h (not_delegates_watched hown) hid,
              serve_of_no_operation h hown hid]
            exact Prog.unwatch_watch _
        | some id =>
            cases hfind : d.operations.find? id with
            | none =>
                rw [serve_of_unknown_operation h (not_delegates_watched hown) hid
                    (find?_watched_eq_none hfind),
                  serve_of_unknown_operation h hown hid hfind]
                rfl
            | some inv =>
                rw [serve_watched_of_operation h hown hid hfind,
                  serve_of_operation h hown hid hfind]
                exact Invoker.unwatch_respond_announcing _ _ _ _ _

end Watched

/--
A dispatcher takes exactly one way.  Watching its callees changes nothing, and in every run the
announced calls are those of the way: none without routing context, the delegated API with the
same scope, the handler of a registered operation once its arguments are gathered, the fallback
where there is no operation, and none for an operation that is not registered.
-/
theorem takes_one_branch (d : Dispatcher E) (sc : Scope)
    (host : Host (Exchange (Watched Callee E)) σ) (s : σ) :
    let calls := Event.callees ((d.watched.serve sc).transcript host s)
    (d.watched.serve sc).unwatch = d.serve sc ∧
      (sc.routing = none → d.serve sc = .fault missingRouting ∧ calls = []) ∧
      ∀ routing, sc.routing = some routing →
        (∀ base subApp, d.Delegates routing base subApp →
          d.serve sc = subApp sc ∧ calls = [.subApp base sc]) ∧
        ((∀ base subApp, ¬d.Delegates routing base subApp) →
          (∀ id inv, routing.operationId = some id → d.operations.find? id = some inv →
            d.serve sc = (inv.invoke sc).bind (respond d.observed inv.mediaType) ∧
              calls =
                match ((inv.arguments sc).watch.run host s).outcome with
                | .ok args => [.handler id args]
                | .error _ => []) ∧
          (routing.operationId = none → d.serve sc = d.fallback sc ∧ calls = [.fallback sc]) ∧
          (∀ id, routing.operationId = some id → d.operations.find? id = none →
            d.serve sc = .fault (unknownOperation id) ∧ calls = [])) := by
  intro calls
  refine ⟨unwatch_serve d sc, ?_, ?_⟩
  · intro h
    refine ⟨serve_of_routing_eq_none h, ?_⟩
    simp only [calls]
    rw [serve_of_routing_eq_none h]
    rfl
  · intro routing h
    refine ⟨?_, fun hown => ⟨?_, ?_, ?_⟩⟩
    · intro base subApp hdelegates
      refine ⟨serve_of_delegates h hdelegates, ?_⟩
      simp only [calls]
      rw [serve_of_delegates h hdelegates.watched]
      exact Prog.callees_announce _ _ host s
    · intro id inv hid hfind
      refine ⟨serve_of_operation h hown hid hfind, ?_⟩
      simp only [calls]
      rw [serve_watched_of_operation h hown hid hfind]
      exact Invoker.callees_respond_announcing _ _ _ _ _ host s
    · intro hid
      refine ⟨serve_of_no_operation h hown hid, ?_⟩
      simp only [calls]
      rw [serve_of_no_operation h (not_delegates_watched hown) hid]
      exact Prog.callees_announce _ _ host s
    · intro id hid hfind
      refine ⟨serve_of_unknown_operation h hown hid hfind, ?_⟩
      simp only [calls]
      rw [serve_of_unknown_operation h (not_delegates_watched hown) hid
        (find?_watched_eq_none hfind)]
      rfl

end Dispatcher
end ApiGateway
