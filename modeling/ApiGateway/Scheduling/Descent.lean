/-!
# Replacing members by smaller ones

A collection shrinks when one of its members gives way to finitely many smaller
ones.  However many these are, this cannot go on for ever if there is no endless
descent among the members themselves.  Work that hands in further work ends for this
reason.  The order of a collection does not matter, so lists are read up to
permutation.

Main definitions:

- `Lowers`: one member has given way to smaller ones.

Main results:

- `Lowers.wellFounded`: collections whose members cannot descend for ever cannot
  shrink for ever.
-/

namespace ApiGateway

variable {α : Type} {r : α → α → Prop}

/-- One member of the second list has given way to members that are smaller by `r`. -/
def Lowers (r : α → α → Prop) (after before : List α) : Prop :=
  ∃ member smaller rest, before.Perm (member :: rest) ∧ after.Perm (smaller ++ rest) ∧
    ∀ a ∈ smaller, r a member

namespace Lowers

/-! ## Ways to shrink -/

/-- The first member is gone. -/
theorem tail (a : α) (rest : List α) : Lowers r rest (a :: rest) :=
  ⟨a, [], rest, .refl _, .refl _, nofun⟩

/-- The first member has become smaller. -/
theorem head {a b : α} (h : r a b) (rest : List α) : Lowers r (a :: rest) (b :: rest) :=
  ⟨b, [a], rest, .refl _, .refl _, fun _ ha => List.mem_singleton.1 ha ▸ h⟩

/-- The first member has become smaller and leaves another smaller one at the end. -/
theorem headLast {a b c : α} (ha : r a c) (hb : r b c) (rest : List α) :
    Lowers r (a :: (rest ++ [b])) (c :: rest) := by
  refine ⟨c, [a, b], rest, .refl _, (List.perm_append_singleton b rest).cons a, fun x hx => ?_⟩
  cases hx with
  | head => exact ha
  | tail _ hx => exact List.mem_singleton.1 hx ▸ hb

/-- A member further back has become smaller and moves to the front. -/
theorem front {a b : α} (h : r a b) (before after : List α) :
    Lowers r (a :: (before ++ after)) (before ++ b :: after) :=
  ⟨b, [a], before ++ after, List.perm_middle, .refl _, fun _ ha => List.mem_singleton.1 ha ▸ h⟩

/-! ## There is no endless shrinking -/

/-- Accessibility does not depend on the order of a list. -/
theorem acc_of_perm {first second : List α} (h : first.Perm second)
    (acc : Acc (Lowers r) first) : Acc (Lowers r) second :=
  ⟨_, fun _ ⟨member, smaller, rest, hbefore, hafter, hr⟩ =>
    acc.inv ⟨member, smaller, rest, h.trans hbefore, hafter, hr⟩⟩

/-- The empty collection cannot shrink. -/
theorem acc_nil : Acc (Lowers r) [] :=
  ⟨_, fun _ ⟨_, _, _, hbefore, _, _⟩ => absurd hbefore.length_eq (by simp)⟩

/-- A member that is accessible may be added. -/
theorem acc_cons {a : α} (acc : Acc r a) {rest : List α} (accRest : Acc (Lowers r) rest) :
    Acc (Lowers r) (a :: rest) := by
  induction acc generalizing rest with
  | intro a _ ihMember =>
    induction accRest with
    | intro rest hrest ihRest =>
      refine ⟨_, fun after ⟨member, smaller, others, hbefore, hafter, hr⟩ => ?_⟩
      refine acc_of_perm hafter.symm ?_
      rcases List.mem_cons.1 (hbefore.subset List.mem_cons_self) with rfl | ha
      · have accOthers := acc_of_perm hbefore.cons_inv ⟨rest, hrest⟩
        clear hafter
        induction smaller with
        | nil => exact accOthers
        | cons b smaller ih =>
          exact ihMember b (hr b List.mem_cons_self)
            (ih fun c hc => hr c (List.mem_cons_of_mem _ hc))
      · obtain ⟨first, last, rfl⟩ := List.append_of_mem ha
        have hrest' : rest.Perm (member :: (first ++ last)) :=
          (hbefore.trans ((List.perm_middle.cons member).trans (.swap ..))).cons_inv
        refine acc_of_perm ?_ (ihRest _ ⟨member, smaller, first ++ last, hrest', .refl _, hr⟩)
        rw [← List.append_assoc, ← List.append_assoc]
        exact List.perm_middle.symm

/-- Collections whose members cannot descend for ever cannot shrink for ever. -/
theorem wellFounded (h : WellFounded r) : WellFounded (Lowers r) := by
  refine ⟨fun members => ?_⟩
  induction members with
  | nil => exact acc_nil
  | cons a rest ih => exact acc_cons (h.apply a) ih

end Lowers
end ApiGateway
