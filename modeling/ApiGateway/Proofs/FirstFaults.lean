import ApiGateway.Proofs.Setup

/-!
# The first fault of a setup

Setting up an API registers the operations of its specification in order and stops at the first
that fails.  What is registered for an operation is the first declaration for its path and its
method.  Whether that can be registered depends on nothing that has been registered before, so a
later declaration fails only where an earlier one has failed already, and the setup ends with the
fault of the first of the first declarations that cannot be registered.

Main definitions:

- `Specification.FirstAt`: the first declaration for a path and a method, and its place.
- `OperationSpec.Sound`: what an operation needs to be registered.
- `OperationSpec.Refused`: the fault of an operation that cannot be registered.

Main results:

- `Api.failure_addOperation_cases`: a registration fails as its declaration says.
- `Api.failure_addOperations`: several registrations fail as the first that fails alone.
- `Api.failure_create_eq_none_iff`, `Api.failure_create_eq_some_iff`: when a setup fails, and how.
-/

namespace ApiGateway

variable {E : Signature}

/-! ## First declarations -/

/-- What has a smaller place in a list stands in front of what has the greater one. -/
theorem mem_of_place_lt {α : Type} {x y : α} {before after before' after' : List α}
    (h : before ++ x :: after = before' ++ y :: after') (hlt : before.length < before'.length) :
    x ∈ before' := by
  have hplace : (before' ++ y :: after')[before.length]? = some x := by
    rw [← h, List.getElem?_append_right (Nat.le_refl _), Nat.sub_self, List.getElem?_cons_zero]
  rw [List.getElem?_append_left hlt] at hplace
  exact List.mem_of_getElem? hplace

namespace Specification

/-- An operation is the first one declared for its path and its method, between others. -/
structure FirstAt (spec : Specification) (before : List OperationSpec) (op : OperationSpec)
    (after : List OperationSpec) : Prop where
  place : spec.operations = before ++ op :: after
  first : ∀ other ∈ before, ¬(other.path = op.path ∧ other.method = op.method)

variable {spec : Specification} {before after : List OperationSpec} {op : OperationSpec}

/-- Looking up passes over operations with another path or another method. -/
theorem passes_iff {other : OperationSpec} {path : Bytes} {method : Http.Method} :
    (!(other.path == path && other.method == method)) = true ↔
      ¬(other.path = path ∧ other.method = method) := by
  rw [Bool.not_eq_true', Bool.eq_false_iff, ne_eq, Bool.and_eq_true, beq_iff_eq, beq_iff_eq]

/-- The first declaration for a path and a method is found by them. -/
theorem FirstAt.find?_eq (h : spec.FirstAt before op after) :
    spec.find? op.path op.method = some op := by
  refine List.find?_eq_some_iff_append.2 ⟨by simp, before, after, h.place, ?_⟩
  intro other hother
  exact passes_iff.2 (h.first other hother)

/-- For every declaration there is a first one, which does not come after it. -/
theorem exists_firstAt (hplace : spec.operations = before ++ op :: after) :
    ∃ before' first after', spec.FirstAt before' first after' ∧
      spec.find? op.path op.method = some first ∧ before'.length ≤ before.length := by
  have hmem : op ∈ spec.operations := by
    rw [hplace]
    exact List.mem_append_right before List.mem_cons_self
  have hsome : (spec.find? op.path op.method).isSome := List.find?_isSome.2 ⟨op, hmem, by simp⟩
  rcases Option.isSome_iff_exists.1 hsome with ⟨first, hfind⟩
  rcases path_method_of_find? hfind with ⟨hpath, hmethod⟩
  rcases List.find?_eq_some_iff_append.1 hfind with ⟨-, before', after', hplace', hbefore⟩
  have hother : ∀ other ∈ before', ¬(other.path = op.path ∧ other.method = op.method) := by
    intro other hmem
    exact passes_iff.1 (hbefore other hmem)
  refine ⟨before', first, after', ⟨hplace', ?_⟩, hfind, ?_⟩
  · rw [hpath, hmethod]
    exact hother
  · refine Nat.le_of_not_lt fun hlt => ?_
    exact hother op (mem_of_place_lt (hplace.symm.trans hplace') hlt) ⟨rfl, rfl⟩

end Specification

/-! ## Operations that are refused -/

namespace OperationSpec

/-- There is a handler under the id of an operation, or a status for stubs. -/
def Resolved (handlers : Resolver E) (options : ApiOptions) (op : OperationSpec) : Prop :=
  (∃ handler, handlers.find? op.operationId = some handler) ∨
    ∃ status, options.stubStatus = some status

/-- What an operation needs to be registered. -/
structure Sound (handlers : Resolver E) (options : ApiOptions) (op : OperationSpec) : Prop where
  named : op.operationId ≠ []
  resolved : op.Resolved handlers options
  parsed : ∃ pattern, Routing.Pattern.parse op.path = .ok pattern

/--
The fault of an operation that cannot be registered.  Its id is asked for first, then its handler,
and its template last.
-/
inductive Refused (handlers : Resolver E) (options : ApiOptions) (op : OperationSpec) :
    Fault → Prop where
  | nameless (hid : op.operationId = []) :
      Refused handlers options op (.invalidArgument (Bytes.ofString "operation " ++
        op.method.token ++ Bytes.ofString " " ++ op.path ++
          Bytes.ofString " has no operation_id"))
  | unresolved (hid : op.operationId ≠ []) (hhandler : handlers.find? op.operationId = none)
      (hstub : options.stubStatus = none) :
      Refused handlers options op (.coded .gateway .unresolvedOperation
        (some (Bytes.ofString "operation_id '" ++ op.operationId ++ Bytes.ofString "'")))
  | malformed (hid : op.operationId ≠ []) (hresolved : op.Resolved handlers options)
      {e : Routing.PatternError} (hparse : Routing.Pattern.parse op.path = .error e) :
      Refused handlers options op (.invalidArgument e.message)

variable {handlers : Resolver E} {options : ApiOptions} {op : OperationSpec}

/-- Without handler and without stubs an operation is not resolved. -/
theorem not_resolved (hhandler : handlers.find? op.operationId = none)
    (hstub : options.stubStatus = none) : ¬op.Resolved handlers options := by
  rintro (⟨handler, hsome⟩ | ⟨status, hsome⟩)
  · rw [hhandler] at hsome
    cases hsome
  · rw [hstub] at hsome
    cases hsome

/-- What can be registered is not refused. -/
theorem Sound.not_refused (h : op.Sound handlers options) (e : Fault) :
    ¬op.Refused handlers options e := by
  intro hrefused
  cases hrefused with
  | nameless hid => exact h.named hid
  | unresolved hid hhandler hstub => exact not_resolved hhandler hstub h.resolved
  | malformed hid hresolved hparse =>
      rcases h.parsed with ⟨pattern, hpattern⟩
      rw [hpattern] at hparse
      cases hparse

/-- An operation is refused with one fault. -/
theorem Refused.unique {e e' : Fault} (h : op.Refused handlers options e)
    (h' : op.Refused handlers options e') : e = e' := by
  cases h with
  | nameless hid =>
      cases h' with
      | nameless => rfl
      | unresolved hne => exact absurd hid hne
      | malformed hne => exact absurd hid hne
  | unresolved hid hhandler hstub =>
      cases h' with
      | nameless hnil => exact absurd hnil hid
      | unresolved => rfl
      | malformed _ hresolved => exact absurd hresolved (not_resolved hhandler hstub)
  | malformed hid hresolved hparse =>
      cases h' with
      | nameless hnil => exact absurd hnil hid
      | unresolved _ hhandler hstub => exact absurd hresolved (not_resolved hhandler hstub)
      | malformed _ _ hparse' =>
          rw [hparse] at hparse'
          cases hparse'
          rfl

end OperationSpec

namespace Api

/-- An operation gets a handler if it is resolved, and is refused otherwise. -/
theorem handlerFor_cases (api : Api E) (op : OperationSpec) :
    (op.Resolved api.handlers api.options ∧ ∃ found, api.handlerFor op = .ok found) ∨
      api.handlers.find? op.operationId = none ∧ api.options.stubStatus = none ∧
        api.handlerFor op = .error (unresolved op.operationId) := by
  unfold handlerFor
  cases hhandler : api.handlers.find? op.operationId with
  | some handler => exact .inl ⟨.inl ⟨handler, hhandler⟩, _, rfl⟩
  | none =>
      cases hstub : api.options.stubStatus with
      | some status => exact .inl ⟨.inr ⟨status, hstub⟩, _, rfl⟩
      | none => exact .inr ⟨rfl, rfl, rfl⟩

section Registration

variable {api : Api E} {path : Bytes} {method : Http.Method} {op : OperationSpec}

/-- A registration succeeds or fails as the declaration that it finds says. -/
theorem failure_addOperation_cases (hfind : api.spec.find? path method = some op) :
    ((api.addOperation path method).failure = none ∧ op.Sound api.handlers api.options) ∨
      ∃ e, (api.addOperation path method).failure = some e ∧
        op.Refused api.handlers api.options e := by
  rcases Specification.path_method_of_find? hfind with ⟨-, rfl⟩
  unfold addOperation
  rw [hfind]
  dsimp only
  by_cases hid : op.operationId = []
  · rw [if_pos (List.isEmpty_iff.2 hid)]
    exact .inr ⟨_, rfl, .nameless hid⟩
  · rw [if_neg (mt List.isEmpty_iff.1 hid)]
    rcases api.handlerFor_cases op with ⟨hresolved, found, hfound⟩ | ⟨hhandler, hstub, hrefused⟩
    · rw [hfound]
      cases hparse : Routing.Pattern.parse op.path with
      | ok pattern =>
          simp only [ApiRoutes.add, hparse]
          exact .inl ⟨trivial, hid, hresolved, pattern, hparse⟩
      | error e =>
          simp only [ApiRoutes.add, hparse]
          exact .inr ⟨_, rfl, .malformed hid hresolved hparse⟩
    · rw [hrefused]
      exact .inr ⟨_, rfl, .unresolved hid hhandler hstub⟩

/-- A registration succeeds if the declaration that it finds is sound. -/
theorem failure_addOperation_eq_none_iff (hfind : api.spec.find? path method = some op) :
    (api.addOperation path method).failure = none ↔ op.Sound api.handlers api.options := by
  rcases failure_addOperation_cases hfind with ⟨hnone, hsound⟩ | ⟨e, hsome, hrefused⟩
  · exact iff_of_true hnone hsound
  · rw [hsome]
    exact iff_of_false nofun fun hsound => hsound.not_refused e hrefused

/-- A registration fails with the fault of the declaration that it finds. -/
theorem failure_addOperation_eq_some_iff (hfind : api.spec.find? path method = some op)
    {e : Fault} :
    (api.addOperation path method).failure = some e ↔
      op.Refused api.handlers api.options e := by
  rcases failure_addOperation_cases hfind with ⟨hnone, hsound⟩ | ⟨e', hsome, hrefused⟩
  · rw [hnone]
    exact iff_of_false nofun (hsound.not_refused e)
  · rw [hsome, Option.some.injEq]
    exact ⟨fun h => h ▸ hrefused, hrefused.unique⟩

end Registration

/-! ## Several registrations -/

/-- Several registrations fail as the first of them that fails alone. -/
theorem failure_addOperations (api : Api E) (ops : List OperationSpec) :
    (api.addOperations ops).failure =
      ops.findSome? fun op => (api.addOperation op.path op.method).failure := by
  induction ops generalizing api with
  | nil => rfl
  | cons op rest ih =>
      rw [addOperations, List.findSome?_cons]
      cases hfirst : (api.addOperation op.path op.method).failure with
      | some e => exact hfirst
      | none =>
          rcases addOperation_frame api op.path op.method with ⟨hspec, hhandlers, hoptions, -⟩
          have hsame (other : OperationSpec) :=
            failure_addOperation_congr hspec hhandlers hoptions other.path other.method
          exact (ih _).trans (congrArg (List.findSome? · rest) (funext hsame))

section Setup

variable {spec : Specification} {handlers : Resolver E} {options : ApiOptions}

/-- A setup fails as the first registration that fails in an API without operations. -/
theorem failure_create_eq (spec : Specification) (handlers : Resolver E) (options : ApiOptions) :
    (create spec handlers options).failure = spec.operations.findSome? fun op =>
      ((blank spec handlers options).addOperation op.path op.method).failure := by
  rw [(create_eq spec handlers options).2, failure_addOperations]

/-- A setup succeeds if all first declarations are sound. -/
theorem failure_create_eq_none_iff :
    (create spec handlers options).failure = none ↔
      ∀ before op after, spec.FirstAt before op after → op.Sound handlers options := by
  rw [failure_create_eq, List.findSome?_eq_none_iff]
  constructor
  · intro h before op after hfirst
    have hmem : op ∈ spec.operations := by
      rw [hfirst.place]
      exact List.mem_append_right before List.mem_cons_self
    exact (failure_addOperation_eq_none_iff hfirst.find?_eq).1 (h op hmem)
  · intro h op hop
    rcases List.append_of_mem hop with ⟨before, after, hplace⟩
    rcases Specification.exists_firstAt hplace with ⟨before', first, after', hfirst, hfind, -⟩
    exact (failure_addOperation_eq_none_iff hfind).2 (h before' first after' hfirst)

/-- A setup fails with the fault of the first of the first declarations that is refused. -/
theorem failure_create_eq_some_iff {e : Fault} :
    (create spec handlers options).failure = some e ↔
      ∃ before op after, spec.FirstAt before op after ∧ op.Refused handlers options e ∧
        ∀ before' other after', spec.FirstAt before' other after' →
          before'.length < before.length → other.Sound handlers options := by
  rw [failure_create_eq, List.findSome?_eq_some_iff]
  constructor
  · rintro ⟨before, op, after, hplace, hfailure, hbefore⟩
    rcases Specification.exists_firstAt hplace with
      ⟨before', first, after', hfirst, hfind, hle⟩
    -- An earlier declaration for the same path and method would have failed in the same way.
    have hsame : ¬before'.length < before.length := by
      intro hlt
      have hmem := mem_of_place_lt (hfirst.place.symm.trans hplace) hlt
      rcases Specification.path_method_of_find? hfind with ⟨hpath, hmethod⟩
      have hnone := hbefore first hmem
      rw [hpath, hmethod, hfailure] at hnone
      cases hnone
    have hlength := Nat.le_antisymm hle (Nat.le_of_not_lt hsame)
    rcases List.append_inj (hfirst.place.symm.trans hplace) hlength with ⟨rfl, htail⟩
    cases htail
    refine ⟨before', op, after, hfirst,
      (failure_addOperation_eq_some_iff hfind).1 hfailure, ?_⟩
    intro before'' other after'' hother hlt
    have hmem := mem_of_place_lt (hother.place.symm.trans hplace) hlt
    exact (failure_addOperation_eq_none_iff hother.find?_eq).1 (hbefore other hmem)
  · rintro ⟨before, op, after, hfirst, hrefused, hbefore⟩
    refine ⟨before, op, after, hfirst.place,
      (failure_addOperation_eq_some_iff hfirst.find?_eq).2 hrefused, ?_⟩
    intro other hother
    rcases List.append_of_mem hother with ⟨front, back, rfl⟩
    have hplace : spec.operations = front ++ other :: (back ++ op :: after) := by
      rw [hfirst.place, List.append_assoc, List.cons_append]
    rcases Specification.exists_firstAt hplace with
      ⟨before', first, after', hfirst', hfind, hle⟩
    refine (failure_addOperation_eq_none_iff hfind).2 (hbefore before' first after' hfirst' ?_)
    rw [List.length_append, List.length_cons]
    omega

end Setup
end Api
end ApiGateway
