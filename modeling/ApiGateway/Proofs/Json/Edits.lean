import ApiGateway.Proofs.Json.Members
import ApiGateway.Proofs.Json.RoundTrip

/-!
# Values under edits

A value that is edited keeps its members and its items apart.  Setting a member leaves the items
alone, pushing an item leaves the members alone, and the last edit says which of the two are live.
So a value that began as null is, whenever it is an object, the object of all settings so far, and
whenever it is an array, the array of all items pushed so far, however the two have been mixed.

Main definitions:

- `Value.Edit`, `Value.editAll`: edits one after another.
- `Value.Edit.settings`, `Value.Edit.pushed`: the two logs of a sequence of edits.
- `Value.ObjectOf`, `Value.ArrayOf`: values that show one of the logs, to whoever reads them.

Main results:

- `Value.keys_setAll`: keys stand in the order of their first setting.
- `Value.members_editAll`, `Value.items_editAll`, `Value.kind_editAll_concat`: what edits leave in
  each store.
- `Value.edits_keep_logs`: an edited value shows the log of its last edit.
-/

namespace ApiGateway
namespace Json

/-- A further entry is kept behind the distinct ones if it is none of them. -/
theorem eraseDups_concat (keys : List Bytes) (key : Bytes) :
    (keys ++ [key]).eraseDups =
      if key ∈ keys then keys.eraseDups else keys.eraseDups ++ [key] := by
  rw [List.eraseDups_append, List.removeAll, List.filter_singleton, List.elem_eq_contains]
  split
  next hmem => rw [List.contains_iff_mem.2 hmem]; exact List.append_nil _
  next hnew => rw [Bool.eq_false_iff.2 (mt List.contains_iff_mem.1 hnew)]; rfl

namespace Value

/-! ## Edits -/

/-- An edit of a value. -/
inductive Edit where
  | set (key : Bytes) (value : Value)
  | push (item : Value)

namespace Edit

/-- The value after an edit. -/
def apply (v : Value) : Edit → Value
  | .set key value => v.set key value
  | .push item => v.push item

/-- The member that an edit sets, if it sets one. -/
def setting? : Edit → Option (Bytes × Value)
  | .set key value => some (key, value)
  | .push _ => none

/-- The item that an edit pushes, if it pushes one. -/
def item? : Edit → Option Value
  | .set _ _ => none
  | .push item => some item

/-- The kind of a value after an edit. -/
def kind : Edit → Kind
  | .set _ _ => .object
  | .push _ => .array

/-- All settings among the edits. -/
def settings (edits : List Edit) : List (Bytes × Value) :=
  edits.filterMap setting?

/-- All items among the edits. -/
def pushed (edits : List Edit) : List Value :=
  edits.filterMap item?

end Edit

/-- The value after edits one after another. -/
def editAll (v : Value) (edits : List Edit) : Value :=
  edits.foldl Edit.apply v

/-! ## What each store holds -/

/-- Settings change the members in the same way, whatever else the value holds. -/
theorem members_setAll_congr {v w : Value} (h : v.members = w.members)
    (entries : List (Bytes × Value)) : (v.setAll entries).members = (w.setAll entries).members := by
  induction entries generalizing v w with
  | nil => exact h
  | cons entry rest ih =>
      apply @ih (v.set entry.1 entry.2) (w.set entry.1 entry.2)
      rw [set, set, h]

/-- The members are those of all settings. -/
theorem members_editAll (v : Value) (edits : List Edit) :
    (v.editAll edits).members = (v.setAll (Edit.settings edits)).members := by
  induction edits generalizing v with
  | nil => rfl
  | cons edit rest ih =>
      refine (ih (edit.apply v)).trans ?_
      cases edit with
      | set key value => rfl
      | push item => exact @members_setAll_congr (v.push item) v rfl _

/-- The items are those that have been there and all that are pushed. -/
theorem items_editAll (v : Value) (edits : List Edit) :
    (v.editAll edits).items = v.items ++ Edit.pushed edits := by
  induction edits generalizing v with
  | nil => exact (List.append_nil _).symm
  | cons edit rest ih =>
      refine (ih (edit.apply v)).trans ?_
      cases edit with
      | set key value => rfl
      | push item => exact List.append_assoc v.items [item] _

/-- The last edit decides on the kind. -/
theorem kind_editAll_concat (v : Value) (edits : List Edit) (last : Edit) :
    (v.editAll (edits ++ [last])).kind = last.kind := by
  rw [editAll, List.foldl_concat]
  cases last <;> rfl

/-- A key stands where it has been set for the first time. -/
theorem keys_setAll (entries : List (Bytes × Value)) :
    (null.setAll entries).members.map Prod.fst = (entries.map Prod.fst).eraseDups := by
  induction entries using List.reverseRecOn with
  | nil => rfl
  | append_singleton entries entry ih =>
      rw [List.map_append, List.map_singleton, eraseDups_concat, ← ih, setAll, List.foldl_concat]
      change (setMember entry.1 entry.2 (null.setAll entries).members).map Prod.fst = _
      rw [keys_setMember, ih]
      simp only [List.mem_eraseDups]

/-! ## Reading a store -/

/-- With distinct keys, a look-up finds the member with the key. -/
theorem find?_eq_some_iff {v : Value} (hkind : v.kind = .object)
    (hnodup : (v.members.map Prod.fst).Nodup) {key : Bytes} {value : Value} :
    v.find? key = some value ↔ (key, value) ∈ v.members := by
  rw [find?, if_pos hkind, List.lookup_eq_some_iff]
  constructor
  · rintro ⟨before, after, hsplit, -⟩
    rw [hsplit]
    exact List.mem_append_right before List.mem_cons_self
  · intro hmem
    rcases List.append_of_mem hmem with ⟨before, after, hsplit⟩
    refine ⟨before, after, hsplit, fun member hmember => bne_iff_ne.2 ?_⟩
    rw [hsplit, List.map_append, List.nodup_append] at hnodup
    exact (hnodup.2.2 member.1 (List.mem_map_of_mem hmember) key List.mem_cons_self).symm

/-- A look-up finds nothing under a key that no member has. -/
theorem find?_eq_none_iff {v : Value} (hkind : v.kind = .object) {key : Bytes} :
    v.find? key = none ↔ key ∉ v.members.map Prod.fst := by
  rw [find?, if_pos hkind, List.lookup_eq_none_iff, List.mem_map]
  constructor
  · rintro h ⟨member, hmember, rfl⟩
    simpa using h member hmember
  · intro h member hmember
    rw [bne_iff_ne]
    rintro rfl
    exact h ⟨member, hmember, rfl⟩

/-- The text of an object joins its members by commas. -/
theorem dump_of_object {v : Value} (hkind : v.kind = .object) :
    v.dump = 123 :: ([44].intercalate
      (v.members.map fun member => quote member.1 ++ 58 :: member.2.dump) ++ [125]) := by
  rw [dump, document_of_object hkind, Document.render, Document.renderMembers_eq, List.map_map]
  rfl

/-- The text of an array joins its items by commas. -/
theorem dump_of_array {v : Value} (hkind : v.kind = .array) :
    v.dump = 91 :: ([44].intercalate (v.items.map dump) ++ [93]) := by
  obtain ⟨kind, _, _, _, _, items, _⟩ := v
  obtain rfl : kind = .array := hkind
  rw [dump, document, documents_eq_map, Document.render, Document.renderItems_eq, List.map_map]
  rfl

/-! ## Values that show a log -/

/-- A value is the object of the settings: each key once, in the order in which keys were new. -/
structure ObjectOf (settings : List (Bytes × Value)) (v : Value) : Prop where
  kind : v.kind = .object
  keys : v.members.map Prod.fst = (settings.map Prod.fst).eraseDups
  keys_nodup : (v.members.map Prod.fst).Nodup
  /-- A member has the value that was set last under its key. -/
  mem_members : ∀ key value, (key, value) ∈ v.members ↔ LastEntry settings key value
  size : v.size = (settings.map Prod.fst).eraseDups.length
  find?_eq_some : ∀ key value, v.find? key = some value ↔ LastEntry settings key value
  find?_eq_none : ∀ key, v.find? key = none ↔ key ∉ settings.map Prod.fst
  /-- The text shows the members in their order. -/
  dump : v.dump = 123 :: ([44].intercalate
    (v.members.map fun member => quote member.1 ++ 58 :: member.2.dump) ++ [125])
  dumpInto : ∀ out, v.dumpInto out = out ++ v.dump

/-- A value is the array of the items that have been pushed. -/
structure ArrayOf (pushed : List Value) (v : Value) : Prop where
  kind : v.kind = .array
  items : v.items = pushed
  size : v.size = pushed.length
  find?_eq_none : ∀ key, v.find? key = none
  /-- The text shows the items in their order. -/
  dump : v.dump = 91 :: ([44].intercalate (pushed.map Value.dump) ++ [93])
  dumpInto : ∀ out, v.dumpInto out = out ++ v.dump

/-- An object whose members have been set from null on is the object of the settings. -/
theorem objectOf_of_members {v : Value} {settings : List (Bytes × Value)}
    (hkind : v.kind = .object) (hmembers : v.members = (null.setAll settings).members) :
    v.ObjectOf settings := by
  have hnull : (null.members.map Prod.fst).Nodup := List.nodup_nil
  have hkeys : v.members.map Prod.fst = (settings.map Prod.fst).eraseDups :=
    hmembers ▸ keys_setAll settings
  have hnodup : (v.members.map Prod.fst).Nodup := hmembers ▸ nodup_keys_setAll hnull settings
  have hmem (key : Bytes) (value : Value) :
      (key, value) ∈ v.members ↔ LastEntry settings key value := by
    rw [hmembers, mem_setAll_iff hnull]
    exact or_iff_left fun h => absurd h.2 List.not_mem_nil
  refine {
    kind := hkind
    keys := hkeys
    keys_nodup := hnodup
    mem_members := hmem
    size := ?_
    find?_eq_some := fun key value => (find?_eq_some_iff hkind hnodup).trans (hmem key value)
    find?_eq_none := fun key => ?_
    dump := dump_of_object hkind
    dumpInto := v.dumpInto_eq }
  · rw [← hkeys, List.length_map, size, hkind]
  · rw [find?_eq_none_iff hkind, hkeys, List.mem_eraseDups]

/-- An array is the array of its items. -/
theorem arrayOf_items {v : Value} (hkind : v.kind = .array) : v.ArrayOf v.items where
  kind := hkind
  items := rfl
  size := by
    rw [size, hkind]
  find?_eq_none key := by
    rw [find?, hkind]
    rfl
  dump := dump_of_array hkind
  dumpInto := v.dumpInto_eq

/--
Settings and items are kept in two logs.  Whenever the last edit has set a member, the value is the
object of all settings so far, also of those before items were pushed; whenever it has pushed an
item, the value is the array of all items pushed so far.
-/
theorem edits_keep_logs (edits : List Edit) :
    match edits.getLast? with
    | none => null.editAll edits = null
    | some (.set _ _) => (null.editAll edits).ObjectOf (Edit.settings edits)
    | some (.push _) => (null.editAll edits).ArrayOf (Edit.pushed edits) := by
  rcases edits.eq_nil_or_concat' with rfl | ⟨edits, last, rfl⟩
  · rfl
  · have hkind := kind_editAll_concat null edits last
    rw [List.getLast?_concat]
    cases last with
    | set key value => exact objectOf_of_members hkind (members_editAll null _)
    | push item =>
        have hitems := items_editAll null (edits ++ [.push item])
        have harray := arrayOf_items hkind
        rw [hitems] at harray
        exact harray

end Value
end Json
end ApiGateway
