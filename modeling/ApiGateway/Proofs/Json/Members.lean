import ApiGateway.Json.Value

/-!
# Members set by key

Setting a member replaces the first one of its key or appends a new one.  Keys that are distinct
stay distinct, and after any number of settings each key has the value that was set last.

Main definitions:

- `LastEntry`: the last entry of a key.
- `Value.setAll`: members set one after another.

Main results:

- `Value.keys_setMember`: the keys after a setting.
- `Value.mem_setMember_iff`, `Value.mem_setAll_iff`: the members after one setting and after many.
-/

namespace ApiGateway
namespace Json

/-- The entry is the last one of its key. -/
def LastEntry {α : Type} (entries : List (Bytes × α)) (key : Bytes) (value : α) : Prop :=
  ∃ before after, entries = before ++ (key, value) :: after ∧ key ∉ after.map Prod.fst

/-- The last entry of a key is that of the later entries, or the first entry if there is none. -/
theorem lastEntry_cons_iff {α : Type} {first : Bytes × α} {rest : List (Bytes × α)} {key : Bytes}
    {value : α} : LastEntry (first :: rest) key value ↔
      LastEntry rest key value ∨ first = (key, value) ∧ key ∉ rest.map Prod.fst := by
  constructor
  · rintro ⟨before, after, hsplit, hlast⟩
    cases before with
    | nil =>
        obtain ⟨rfl, rfl⟩ := List.cons.inj hsplit
        exact .inr ⟨rfl, hlast⟩
    | cons _ before =>
        obtain ⟨rfl, rfl⟩ := List.cons.inj hsplit
        exact .inl ⟨before, after, rfl, hlast⟩
  · rintro (⟨before, after, rfl, hlast⟩ | ⟨rfl, hlast⟩)
    · exact ⟨first :: before, after, rfl, hlast⟩
    · exact ⟨[], rest, rfl, hlast⟩

/-- The last entries are mapped to the last entries. -/
theorem lastEntry_map_iff {α β : Type} {f : α → β} {entries : List (Bytes × α)} {key : Bytes}
    {value : β} : LastEntry (entries.map fun entry => (entry.1, f entry.2)) key value ↔
      ∃ a, LastEntry entries key a ∧ f a = value := by
  induction entries with
  | nil => simp [LastEntry]
  | cons first rest ih =>
      have hkeys : (rest.map fun entry => (entry.1, f entry.2)).map Prod.fst =
          rest.map Prod.fst := by
        rw [List.map_map]
        rfl
      rw [List.map_cons, lastEntry_cons_iff, ih, hkeys]
      constructor
      · rintro (⟨a, ha, hvalue⟩ | ⟨hfirst, hlast⟩)
        · exact ⟨a, lastEntry_cons_iff.2 (.inl ha), hvalue⟩
        · obtain ⟨rfl, rfl⟩ := Prod.mk.inj hfirst
          exact ⟨first.2, lastEntry_cons_iff.2 (.inr ⟨rfl, hlast⟩), rfl⟩
      · rintro ⟨a, ha, rfl⟩
        rcases lastEntry_cons_iff.1 ha with ha | ⟨rfl, hlast⟩
        · exact .inl ⟨a, ha, rfl⟩
        · exact .inr ⟨rfl, hlast⟩

namespace Value

/-- The keys stay in their order, and a new one comes last. -/
theorem keys_setMember (key : Bytes) (value : Value) (members : List (Bytes × Value)) :
    (setMember key value members).map Prod.fst =
      if key ∈ members.map Prod.fst then members.map Prod.fst
      else members.map Prod.fst ++ [key] := by
  induction members with
  | nil => rfl
  | cons member rest ih =>
      by_cases hkey : member.1 = key
      · simp [setMember, hkey]
      · have hne : ¬key = member.1 := fun h => hkey h.symm
        simp only [setMember, hkey, if_false, List.map_cons, ih, List.mem_cons, hne, false_or]
        split
        · rfl
        · rfl

/-- Distinct keys stay distinct. -/
theorem nodup_keys_setMember {members : List (Bytes × Value)}
    (h : (members.map Prod.fst).Nodup) (key : Bytes) (value : Value) :
    ((setMember key value members).map Prod.fst).Nodup := by
  rw [keys_setMember]
  split
  next => exact h
  next hnew =>
    rw [List.nodup_append]
    refine ⟨h, List.pairwise_singleton _ _, fun a ha b hb => ?_⟩
    rintro rfl
    exact hnew (List.mem_singleton.1 hb ▸ ha)

/-- The key has the new value, and all others keep theirs. -/
theorem mem_setMember_iff {members : List (Bytes × Value)} (h : (members.map Prod.fst).Nodup)
    (key : Bytes) (value : Value) (member : Bytes × Value) :
    member ∈ setMember key value members ↔
      member = (key, value) ∨ member.1 ≠ key ∧ member ∈ members := by
  induction members with
  | nil => simp [setMember]
  | cons first rest ih =>
      rw [List.map_cons, List.nodup_cons] at h
      by_cases hkey : first.1 = key
      · have hrest : ∀ m ∈ rest, m.1 ≠ key := by
          rintro m hm rfl
          exact h.1 (hkey ▸ List.mem_map_of_mem hm)
        simp only [setMember, hkey, if_true, List.mem_cons]
        constructor
        · rintro (rfl | hm)
          · exact .inl rfl
          · exact .inr ⟨hrest member hm, .inr hm⟩
        · rintro (rfl | ⟨hne, rfl | hm⟩)
          · exact .inl rfl
          · exact absurd hkey hne
          · exact .inr hm
      · simp only [setMember, hkey, if_false, List.mem_cons, ih h.2]
        constructor
        · rintro (rfl | rfl | ⟨hne, hm⟩)
          · exact .inr ⟨hkey, .inl rfl⟩
          · exact .inl rfl
          · exact .inr ⟨hne, .inr hm⟩
        · rintro (rfl | ⟨hne, rfl | hm⟩)
          · exact .inr (.inl rfl)
          · exact .inl rfl
          · exact .inr (.inr ⟨hne, hm⟩)

/-- Sets members one after another. -/
def setAll (v : Value) (entries : List (Bytes × Value)) : Value :=
  entries.foldl (fun v entry => v.set entry.1 entry.2) v

/-- An object stays an object. -/
theorem kind_setAll {v : Value} (h : v.kind = .object) (entries : List (Bytes × Value)) :
    (v.setAll entries).kind = .object := by
  induction entries generalizing v with
  | nil => exact h
  | cons entry rest ih => exact @ih (v.set entry.1 entry.2) rfl

/-- Distinct keys stay distinct. -/
theorem nodup_keys_setAll {v : Value} (h : (v.members.map Prod.fst).Nodup)
    (entries : List (Bytes × Value)) : ((v.setAll entries).members.map Prod.fst).Nodup := by
  induction entries generalizing v with
  | nil => exact h
  | cons entry rest ih =>
      exact @ih (v.set entry.1 entry.2) (nodup_keys_setMember h entry.1 entry.2)

/-- Each key has the value that was set last, or the one that it had before. -/
theorem mem_setAll_iff {v : Value} (h : (v.members.map Prod.fst).Nodup)
    (entries : List (Bytes × Value)) (key : Bytes) (value : Value) :
    (key, value) ∈ (v.setAll entries).members ↔
      LastEntry entries key value ∨
        key ∉ entries.map Prod.fst ∧ (key, value) ∈ v.members := by
  induction entries generalizing v with
  | nil => simp [setAll, LastEntry]
  | cons entry rest ih =>
      have hset : ((v.set entry.1 entry.2).members.map Prod.fst).Nodup :=
        nodup_keys_setMember h entry.1 entry.2
      change (key, value) ∈ ((v.set entry.1 entry.2).setAll rest).members ↔ _
      rw [ih hset, lastEntry_cons_iff, set]
      dsimp only
      rw [mem_setMember_iff h, List.map_cons, List.mem_cons, not_or]
      constructor
      · rintro (hlast | ⟨hrest, heq | ⟨hne, hold⟩⟩)
        · exact .inl (.inl hlast)
        · exact .inl (.inr ⟨heq.symm, hrest⟩)
        · exact .inr ⟨⟨hne, hrest⟩, hold⟩
      · rintro ((hlast | ⟨heq, hrest⟩) | ⟨⟨hne, hrest⟩, hold⟩)
        · exact .inl hlast
        · exact .inr ⟨hrest, .inl heq.symm⟩
        · exact .inr ⟨hrest, .inr ⟨hne, hold⟩⟩

/-- The document of an object has the documents of its members. -/
theorem document_of_object {v : Value} (h : v.kind = .object) :
    v.document = .object (v.members.map fun member => (member.1, member.2.document)) := by
  obtain ⟨kind, _, _, _, _, _, members⟩ := v
  obtain rfl : kind = .object := h
  rw [document, memberDocuments_eq_map]

end Value
end Json
end ApiGateway
