import Mathlib.Data.List.Forall2
import ApiGateway.Registry
import ApiGateway.Routing.RouteTable

/-!
# Related tables

Two tables whose entries are related one by one lead to related entries.  What is
selected depends on methods, templates and names only, so the relation is free to say
anything else about the entries.

Main definitions:

- `Routing.Candidate.Rel`, `Lookup.Rel`, `Registry.Rel`: relations between what tables hold
  or lead to.

Main results:

- `RouteTable.lookup_rel`: look-ups in related tables of manual routes are related.
- `Registry.Rel.insert`, `Registry.rel_ofList`: look-ups in registries with related entries are
  related.
-/

namespace ApiGateway

variable {E F : Signature} {α β : Type}

namespace Routing

/-- Candidates with related entries that match in the same way. -/
structure Candidate.Rel (r : α → β → Prop) (c : Candidate α) (d : Candidate β) : Prop where
  entry : r c.entry d.entry
  params : c.params = d.params
  score : c.score = d.score

/-- A related candidate replaces the best one so far in the same cases. -/
theorem Candidate.better_rel {r : α → β → Prop} {best : Option (Candidate α)}
    {best' : Option (Candidate β)} {next : Candidate α} {next' : Candidate β}
    (hbest : Option.Rel (Candidate.Rel r) best best') (hnext : Candidate.Rel r next next') :
    Option.Rel (Candidate.Rel r) (better best next) (better best' next') := by
  cases hbest with
  | none => exact .some hnext
  | @some c c' hc =>
      rw [better, better, hc.score, hnext.score]
      by_cases hless : c'.score < next'.score
      · rw [if_pos hless, if_pos hless]
        exact .some hnext
      · rw [if_neg hless, if_neg hless]
        exact .some hc

/-- Among related candidates related ones are selected. -/
theorem mostSpecific_rel {r : α → β → Prop} {cs : List (Candidate α)} {cs' : List (Candidate β)}
    (h : List.Forall₂ (Candidate.Rel r) cs cs') :
    Option.Rel (Candidate.Rel r) (mostSpecific cs) (mostSpecific cs') :=
  List.rel_foldl (fun _ _ hbest _ _ hnext => Candidate.better_rel hbest hnext) .none h

end Routing

/-! ## Manual routes -/

/-- Look-ups that lead to related routes, or to none in the same way. -/
inductive Lookup.Rel (r : Route E → Route F → Prop) : Lookup E → Lookup F → Prop where
  | found {route : Route E} {route' : Route F} (h : r route route') (params : Params)
      (allowed : Http.MethodSet) :
      Rel r (.found route params allowed) (.found route' params allowed)
  | methodNotAllowed (allowed : Http.MethodSet) :
      Rel r (.methodNotAllowed allowed) (.methodNotAllowed allowed)
  | notFound : Rel r .notFound .notFound

namespace RouteTable

variable {r : Route E → Route F → Prop} {table : RouteTable E} {table' : RouteTable F}
  (hroute : ∀ route route', r route route' →
    route.method = route'.method ∧ route.pattern = route'.pattern)
  (htable : List.Forall₂ r table.routes table'.routes)

include hroute htable

/-- Related routes match the same paths. -/
theorem matching_rel (path : Bytes) :
    List.Forall₂ (Routing.Candidate.Rel r) (table.matching path) (table'.matching path) := by
  refine List.rel_filterMap ?_ htable
  intro route route' h
  unfold Routing.Candidate.of?
  rw [(hroute route route' h).2]
  cases route'.pattern.match? path with
  | none => exact .none
  | some params => exact .some ⟨h, rfl, rfl⟩

/-- A path is registered for the same methods. -/
theorem allowed_rel (path : Bytes) : table.allowed path = table'.allowed path := by
  refine List.rel_foldl ?_ rfl (matching_rel hroute htable path)
  rintro methods _ rfl c c' h
  dsimp only
  rw [(hroute _ _ h.entry).1]

/-- A request leads to related routes. -/
theorem lookup_rel (method : Http.Method) (path : Bytes) :
    Lookup.Rel r (table.lookup method path) (table'.lookup method path) := by
  have hmatching := matching_rel hroute htable path
  have hfilter : List.Forall₂ (Routing.Candidate.Rel r)
      ((table.matching path).filter fun c => c.entry.method = method)
      ((table'.matching path).filter fun c => c.entry.method = method) := by
    refine List.rel_filter ?_ hmatching
    intro c c' h
    dsimp only
    rw [(hroute _ _ h.entry).1]
  have hempty : (table.matching path).isEmpty = (table'.matching path).isEmpty := by
    rw [Bool.eq_iff_iff, List.isEmpty_iff_length_eq_zero, List.isEmpty_iff_length_eq_zero,
      hmatching.length_eq]
  have hselected := Routing.mostSpecific_rel hfilter
  unfold lookup
  dsimp only
  rw [allowed_rel hroute htable, hempty]
  generalize Routing.mostSpecific ((table.matching path).filter _) = selected at hselected ⊢
  generalize Routing.mostSpecific ((table'.matching path).filter _) = selected' at hselected ⊢
  cases hselected with
  | some hc =>
      dsimp only
      rw [hc.params]
      exact .found hc.entry _ _
  | none =>
      dsimp only
      split
      · exact .notFound
      · exact .methodNotAllowed _

end RouteTable

/-! ## Registries -/

/-- Under every name both registries have related entries, or none. -/
def Registry.Rel (r : α → β → Prop) (reg : Registry α) (reg' : Registry β) : Prop :=
  ∀ name, Option.Rel r (reg.find? name) (reg'.find? name)

/-- Every registry is related to itself if its entries are. -/
theorem Registry.Rel.refl {r : α → α → Prop} (hr : ∀ a, r a a) (reg : Registry α) :
    Registry.Rel r reg reg := by
  intro name
  cases reg.find? name with
  | none => exact .none
  | some entry => exact .some (hr entry)

/-- Inserting related entries under one name keeps registries related. -/
theorem Registry.Rel.insert {r : α → β → Prop} {reg : Registry α} {reg' : Registry β}
    (h : Registry.Rel r reg reg') (name : Bytes) {entry : α} {entry' : β}
    (hentry : r entry entry') :
    Registry.Rel r (reg.insert name entry) (reg'.insert name entry') := by
  intro other
  rw [find?_insert, find?_insert]
  split
  · exact .some hentry
  · exact h other

/-- Entries that are related one by one, under the same names, are found under them. -/
theorem Registry.rel_ofList {r : α → β → Prop} {entries : List (Bytes × α)}
    {entries' : List (Bytes × β)}
    (h : List.Forall₂ (fun e e' => e.1 = e'.1 ∧ r e.2 e'.2) entries entries') :
    Registry.Rel r (Registry.ofList entries) (Registry.ofList entries') := by
  intro name
  rw [find?_ofList, find?_ofList]
  -- The last entry of a name is the one that is found, so the lists are read from their ends.
  have hreverse := List.rel_reverse h
  generalize entries.reverse = l at hreverse ⊢
  generalize entries'.reverse = l' at hreverse ⊢
  induction hreverse with
  | nil => exact .none
  | @cons first first' rest rest' hfirst _ ih =>
      rcases first with ⟨key, entry⟩
      rcases first' with ⟨key', entry'⟩
      obtain rfl : key = key' := hfirst.1
      rw [lookup_cons_eq_ite, lookup_cons_eq_ite]
      by_cases hname : name = key
      · rw [if_pos hname, if_pos hname]
        exact .some hfirst.2
      · rw [if_neg hname, if_neg hname]
        exact ih

end ApiGateway
