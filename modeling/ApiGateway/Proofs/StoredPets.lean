import Mathlib.Data.List.Induction
import Mathlib.Logic.Basic
import ApiGateway.PetStore.Service

/-!
# Stored pets

A pet is stored under the next id, and the next id is above all ids in use.  So a new pet takes no
other pet's place, it stands behind the others in the order of ids, and whatever has been found
once is found ever after.  This goes on until the ids come to an end.

Main definitions:

- `Repository.Ordered`: pets stand in the order of their ids, all below the next id.
- `Repository.Adds`: a pet is created under an unused id, and no other pet changes.
- `Repository.ListsAll`: the pets listed are those that are found.
- `Console.after`, `creations`: operations one after another, and how many of them create pets.

Main results:

- `Repository.Ordered.create`: creating a pet appends it and keeps the order.
- `Console.ordered_after`: the order is kept by all operations as long as there are ids.
- `Console.no_pet_is_lost`: pets are created under fresh ids, kept, found and listed.
-/

namespace ApiGateway
namespace PetStore

namespace Repository

/-! ## Finding pets -/

/-- Nothing is found under an id that no pet has. -/
theorem find?_eq_none_iff {r : Repository} {id : Int64} :
    r.find? id = none ↔ ∀ pet ∈ r.pets, pet.id ≠ id := by
  rw [find?, Option.map_eq_none_iff, List.find?_eq_none]
  simp only [beq_iff_eq, ne_eq]

/-- Something is found under the ids of the pets. -/
theorem find?_ne_none_iff {r : Repository} {id : Int64} :
    r.find? id ≠ none ↔ ∃ pet ∈ r.pets, pet.id = id := by
  rw [ne_eq, find?_eq_none_iff]
  simp only [not_forall, not_not, exists_prop]

/-- What is found among the first pets is found. -/
theorem find?_of_isPrefix {r s : Repository} (h : r.pets <+: s.pets) {id : Int64}
    {document : Json.Value} (hfind : r.find? id = some document) : s.find? id = some document := by
  rcases h with ⟨others, hothers⟩
  rw [find?, Option.map_eq_some_iff] at hfind ⊢
  rcases hfind with ⟨pet, hpet, rfl⟩
  refine ⟨pet, ?_, rfl⟩
  rw [← hothers, List.find?_append, hpet]
  rfl

/-! ## The order of pets -/

/--
The pets stand in the order of their ids, and the next id is above them all.  It is as many above
the first free id of a new store as pets have been created.
-/
structure Ordered (r : Repository) (created : Nat) : Prop where
  ascending : r.pets.Pairwise fun first second => first.id < second.id
  below : ∀ pet ∈ r.pets, pet.id < r.nextId
  nextId : r.nextId.toInt = 3 + created

/-- A new store is ordered. -/
theorem ordered_initial : initial.Ordered 0 where
  ascending := by decide
  below := by decide
  nextId := rfl

/-- A pet with an id above all others is put behind them. -/
theorem insertPet_of_forall_lt {pet : Pet} {pets : List Pet}
    (h : ∀ other ∈ pets, other.id < pet.id) : insertPet pet pets = pets ++ [pet] := by
  induction pets with
  | nil => rfl
  | cons other rest ih =>
      rw [List.forall_mem_cons] at h
      rw [insertPet, if_neg (Int64.lt_asymm h.1), if_neg (Int64.ne_of_lt h.1).symm, ih h.2]
      rfl

section Ordered

variable {r : Repository} {created : Nat}

/-- The pet that is created is put behind the others. -/
theorem Ordered.pets_create (h : r.Ordered created) (name : Bytes) :
    (r.create name).2.pets = r.pets ++ [⟨r.nextId, name⟩] :=
  insertPet_of_forall_lt h.below

/-- Creating a pet keeps the order if the next id is not the last one. -/
theorem Ordered.create (h : r.Ordered created) (hroom : created + 1 < Nat.pow 2 63 - 3)
    (name : Bytes) : (r.create name).2.Ordered (created + 1) := by
  have hnext : (r.create name).2.nextId.toInt = 3 + (created + 1 : Nat) := by
    change (r.nextId + 1).toInt = _
    have hpow : Nat.pow 2 63 = 9223372036854775808 := rfl
    -- The next id does not wrap around, since it stays below the end of the ids.
    rw [Int64.toInt_add, h.nextId, Int.bmod_eq_of_le]
    · change 3 + (created : Int) + 1 = _
      omega
    · change _ ≤ 3 + (created : Int) + 1
      omega
    · change 3 + (created : Int) + 1 < _
      omega
  have hless : r.nextId < (r.create name).2.nextId := by
    rw [Int64.lt_iff_toInt_lt, hnext, h.nextId]
    omega
  refine ⟨?_, ?_, hnext⟩
  · rw [h.pets_create, List.pairwise_append]
    exact ⟨h.ascending, List.pairwise_singleton _ _,
      fun pet hpet other hother => List.mem_singleton.1 hother ▸ h.below pet hpet⟩
  · rw [h.pets_create, List.forall_mem_append, List.forall_mem_singleton]
    exact ⟨fun pet hpet => Int64.lt_trans (h.below pet hpet) hless, hless⟩

/-- After a pet has been created it is found, and under any other id the same as before. -/
theorem Ordered.find?_create (h : r.Ordered created) (name : Bytes) (id : Int64) :
    (r.create name).2.find? id =
      if id = r.nextId then some (Pet.value ⟨r.nextId, name⟩) else r.find? id := by
  rw [find?, h.pets_create, List.find?_append, List.find?_singleton, find?]
  by_cases hid : id = r.nextId
  · subst hid
    have hnone : (r.pets.find? fun pet => pet.id == r.nextId) = none := by
      rw [List.find?_eq_none]
      intro pet hpet
      simpa using Int64.ne_of_lt (h.below pet hpet)
    rw [hnone, if_pos rfl, if_pos (beq_self_eq_true _)]
    rfl
  · rw [if_neg hid, if_neg (by simpa using Ne.symm hid), Option.or_none]

/-- A pet of an ordered store is found under its id. -/
theorem Ordered.find?_of_mem (h : r.Ordered created) {pet : Pet} (hpet : pet ∈ r.pets) :
    r.find? pet.id = some pet.value := by
  rcases List.append_of_mem hpet with ⟨before, after, hsplit⟩
  have hascending := h.ascending
  rw [hsplit, List.pairwise_append] at hascending
  refine Option.map_eq_some_iff.2 ⟨pet, List.find?_eq_some_iff_append.2 ⟨beq_self_eq_true _,
    before, after, hsplit, fun other hother => ?_⟩, rfl⟩
  simpa using Int64.ne_of_lt (hascending.2.2 other hother pet List.mem_cons_self)

/-! ## Creating and listing -/

/-- A pet is created under an id above all that are in use, and no other pet changes. -/
structure Adds (r : Repository) (name : Bytes) (id : Int64) : Prop where
  document : (r.create name).1 = Pet.value ⟨id, name⟩
  unused : r.find? id = none
  above : ∀ other, r.find? other ≠ none → other < id
  found : (r.create name).2.find? id = some (Pet.value ⟨id, name⟩)
  others : ∀ other, other ≠ id → (r.create name).2.find? other = r.find? other

/-- The pets that are found are listed once each, in the order of their ids. -/
def ListsAll (r : Repository) : Prop :=
  ∃ (ids : List Int64) (documents : List Json.Value),
    r.list = Json.Value.ofItems documents ∧ ids.Pairwise (· < ·) ∧
    documents.map some = ids.map r.find? ∧ ∀ id, id ∈ ids ↔ r.find? id ≠ none

/-- An ordered store creates pets under the next id. -/
theorem Ordered.adds (h : r.Ordered created) (name : Bytes) : r.Adds name r.nextId where
  document := rfl
  unused := find?_eq_none_iff.2 fun pet hpet => Int64.ne_of_lt (h.below pet hpet)
  above other hother := by
    rcases find?_ne_none_iff.1 hother with ⟨pet, hpet, rfl⟩
    exact h.below pet hpet
  found := by
    rw [h.find?_create, if_pos rfl]
  others other hother := by
    rw [h.find?_create, if_neg hother]

/-- An ordered store lists all its pets. -/
theorem Ordered.listsAll (h : r.Ordered created) : r.ListsAll := by
  refine ⟨r.pets.map Pet.id, r.pets.map Pet.value, rfl, List.pairwise_map.2 h.ascending, ?_, ?_⟩
  · rw [List.map_map, List.map_map]
    exact List.map_congr_left fun pet hpet => (h.find?_of_mem hpet).symm
  · intro id
    rw [find?_ne_none_iff, List.mem_map]

end Ordered

end Repository

/-! ## Operations one after another -/

/-- The number of pets that operations create. -/
def creations (ops : List StoreOp) : Nat :=
  ops.countP fun
    | .create _ => true
    | _ => false

theorem creations_append (before after : List StoreOp) :
    creations (before ++ after) = creations before + creations after :=
  List.countP_append

namespace Service.Console

/-- The service after operations one after another. -/
def after (c : Console) (ops : List StoreOp) : Console :=
  ops.foldl (fun c op => (c.perform op).2) c

theorem after_append (c : Console) (before more : List StoreOp) :
    c.after (before ++ more) = (c.after before).after more :=
  List.foldl_append

variable {c : Console} {created : Nat}

/-- An operation keeps the order and all pets. -/
theorem ordered_perform (h : c.repository.Ordered created) (op : StoreOp)
    (hroom : created + creations [op] < Nat.pow 2 63 - 3) :
    (c.perform op).2.repository.Ordered (created + creations [op]) ∧
      c.repository.pets <+: (c.perform op).2.repository.pets := by
  cases op with
  | create name =>
      refine ⟨h.create hroom name, ?_⟩
      change _ <+: (c.repository.create name).2.pets
      rw [h.pets_create]
      exact List.prefix_append _ _
  | list => exact ⟨h, List.prefix_rfl⟩
  | find id => exact ⟨h, List.prefix_rfl⟩
  | report line => exact ⟨h, List.prefix_rfl⟩

/-- Operations one after another keep the order and all pets. -/
theorem ordered_after (h : c.repository.Ordered created) {ops : List StoreOp}
    (hroom : created + creations ops < Nat.pow 2 63 - 3) :
    (c.after ops).repository.Ordered (created + creations ops) ∧
      c.repository.pets <+: (c.after ops).repository.pets := by
  induction ops generalizing c created with
  | nil => exact ⟨h, List.prefix_rfl⟩
  | cons op rest ih =>
      have hcount : creations (op :: rest) = creations [op] + creations rest :=
        creations_append [op] rest
      rw [hcount, ← Nat.add_assoc] at hroom ⊢
      obtain ⟨hfirst, hkept⟩ :=
        ordered_perform h op (Nat.lt_of_le_of_lt (Nat.le_add_right _ _) hroom)
      obtain ⟨hrest, hmore⟩ := ih hfirst hroom
      exact ⟨hrest, hkept.trans hmore⟩

/-- Before any operation on a new store, the store is ordered, and its pets are kept to the end. -/
theorem ordered_before {ops before more : List StoreOp} (hnew : c.repository = Repository.initial)
    (hroom : creations ops < Nat.pow 2 63 - 3) (hsplit : ops = before ++ more) :
    (c.after before).repository.Ordered (creations before) ∧
      (c.after before).repository.pets <+: (c.after ops).repository.pets := by
  subst hsplit
  rw [creations_append] at hroom
  have hinitial : c.repository.Ordered 0 := hnew ▸ Repository.ordered_initial
  have hbefore : (c.after before).repository.Ordered (0 + creations before) :=
    (ordered_after hinitial (by omega)).1
  rw [Nat.zero_add] at hbefore
  rw [after_append]
  exact ⟨hbefore, (ordered_after hbefore hroom).2⟩

/-- What is found on a new store after some operations is found after the others. -/
theorem find?_after {ops before more : List StoreOp} (hnew : c.repository = Repository.initial)
    (hroom : creations ops < Nat.pow 2 63 - 3) (hsplit : ops = before ++ more) {id : Int64}
    {document : Json.Value} (hfind : (c.after before).repository.find? id = some document) :
    (c.after ops).repository.find? id = some document :=
  Repository.find?_of_isPrefix (ordered_before hnew hroom hsplit).2 hfind

/-- A pet that has been created on a new store is found after all operations. -/
theorem find?_of_adds {ops before more : List StoreOp} {name : Bytes} {id : Int64}
    (hnew : c.repository = Repository.initial) (hroom : creations ops < Nat.pow 2 63 - 3)
    (hsplit : ops = before ++ .create name :: more)
    (hadds : (c.after before).repository.Adds name id) :
    (c.after ops).repository.find? id = some (Pet.value ⟨id, name⟩) := by
  have hcreated :
      c.after (before ++ [.create name]) = ((c.after before).perform (.create name)).2 :=
    after_append c before [.create name]
  rw [List.append_cons] at hsplit
  refine find?_after hnew hroom hsplit ?_
  rw [hcreated]
  exact hadds.found

/-- What is found on a store that was new has been there from the beginning or has been created. -/
theorem added_of_find? {ops : List StoreOp} (hnew : c.repository = Repository.initial)
    (hroom : creations ops < Nat.pow 2 63 - 3) {id : Int64}
    (hfind : (c.after ops).repository.find? id ≠ none) :
    id = 1 ∨ id = 2 ∨ ∃ before name more, ops = before ++ .create name :: more ∧
      (c.after before).repository.Adds name id := by
  induction ops using List.reverseRecOn with
  | nil =>
      change c.repository.find? id ≠ none at hfind
      rw [hnew] at hfind
      rcases Repository.find?_ne_none_iff.1 hfind with ⟨pet, hpet, rfl⟩
      simp only [Repository.initial, List.mem_cons, List.not_mem_nil, or_false] at hpet
      rcases hpet with rfl | rfl
      · exact .inl rfl
      · exact .inr (.inl rfl)
  | append_singleton ops op ih =>
      have hordered := (ordered_before hnew hroom rfl).1
      have hlast : (c.after (ops ++ [op])) = ((c.after ops).perform op).2 := after_append c ops [op]
      rw [creations_append] at hroom
      have hearlier (h : (c.after ops).repository.find? id ≠ none) :
          id = 1 ∨ id = 2 ∨ ∃ before name more, ops ++ [op] = before ++ .create name :: more ∧
            (c.after before).repository.Adds name id := by
        rcases ih (by omega) h with h | h | ⟨before, name, more, hsplit, hadds⟩
        · exact .inl h
        · exact .inr (.inl h)
        · refine .inr (.inr ⟨before, name, more ++ [op], ?_, hadds⟩)
          rw [hsplit, List.append_assoc]
          rfl
      rw [hlast] at hfind
      cases op with
      | create name =>
          change ((c.after ops).repository.create name).2.find? id ≠ none at hfind
          rw [hordered.find?_create] at hfind
          by_cases hid : id = (c.after ops).repository.nextId
          · exact .inr (.inr ⟨ops, name, [], rfl, hid ▸ hordered.adds name⟩)
          · rw [if_neg hid] at hfind
            exact hearlier hfind
      | list => exact hearlier hfind
      | find id => exact hearlier hfind
      | report line => exact hearlier hfind

/--
However operations follow one another on a new store, as long as fewer pets are created than there
are ids: what is found once is found ever after.  A pet is created under an id that has not been in
use and is above all that have been, without a change to another pet, and from then on it is found
under its id.  Nothing is found but these pets and the two that are there from the beginning, and
all that is found is listed.
-/
theorem no_pet_is_lost {ops : List StoreOp} (hnew : c.repository = Repository.initial)
    (hroom : creations ops < Nat.pow 2 63 - 3) :
    (∀ before more, ops = before ++ more → ∀ id document,
      (c.after before).repository.find? id = some document →
        (c.after ops).repository.find? id = some document) ∧
    (∀ before name more, ops = before ++ .create name :: more →
      ∃ id, (c.after before).repository.Adds name id ∧
        (c.after ops).repository.find? id = some (Pet.value ⟨id, name⟩)) ∧
    (∀ id, (c.after ops).repository.find? id ≠ none ↔ id = 1 ∨ id = 2 ∨
      ∃ before name more, ops = before ++ .create name :: more ∧
        (c.after before).repository.Adds name id) ∧
    (c.after ops).repository.ListsAll := by
  have hfirst (id : Int64) (document : Json.Value)
      (h : Repository.initial.find? id = some document) :
      (c.after ops).repository.find? id ≠ none := by
    have hfind : (c.after []).repository.find? id = some document := by
      rw [← h, ← hnew]
      rfl
    rw [find?_after hnew hroom (List.nil_append ops).symm hfind]
    exact Option.some_ne_none document
  refine ⟨fun before more hsplit id document => find?_after hnew hroom hsplit,
    fun before name more hsplit => ?_, fun id => ⟨added_of_find? hnew hroom, ?_⟩,
    (ordered_before hnew hroom (List.append_nil ops).symm).1.listsAll⟩
  · have hadds := (ordered_before hnew hroom hsplit).1.adds name
    exact ⟨_, hadds, find?_of_adds hnew hroom hsplit hadds⟩
  · rintro (rfl | rfl | ⟨before, name, more, hsplit, hadds⟩)
    · exact hfirst 1 _ rfl
    · exact hfirst 2 _ rfl
    · rw [find?_of_adds hnew hroom hsplit hadds]
      exact Option.some_ne_none _

/-- Two pets are created, with reads in between; the first one is kept under the id three. -/
theorem luna_is_kept :
    let first : List StoreOp := [.create (Bytes.ofString "Luna")]
    let more : List StoreOp := [.find 3, .create (Bytes.ofString "Milo"), .list]
    creations (first ++ more) < Nat.pow 2 63 - 3 ∧
      (({} : Console).after (first ++ more)).repository.find? 3 =
        some (Pet.value ⟨3, Bytes.ofString "Luna"⟩) := by
  intro first more
  have hroom : creations (first ++ more) < Nat.pow 2 63 - 3 := by decide
  exact ⟨hroom, (no_pet_is_lost rfl hroom).1 first more rfl 3 _ rfl⟩

end Service.Console
end PetStore
end ApiGateway
