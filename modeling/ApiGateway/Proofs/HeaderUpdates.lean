import ApiGateway.Proofs.HeaderLists
import Mathlib.Data.List.Forall2
import Mathlib.Logic.Relation

/-!
# Updates of header lists

A header list holds values under names, and names that differ only in the case of letters are one
name.  However often the list is updated, the values of a name follow from the updates of this name:
setting it replaces the first of its values, adding puts one behind the others, and removing leaves
none.

Main definitions:

- `Bytes.SameLetter`: bytes that are equal, or the same letter in either case.
- `Http.Headers.Update`, `Http.Headers.after`: updates one after another.
- `Http.Headers.IsMultimap`: the laws of look-ups after an update.

Main results:

- `Bytes.sameIgnoringCase_iff`, `Bytes.sameIgnoringCase_equivalence`: when names are one name.
- `Http.Headers.values_apply`, `Http.Headers.values_after`: the values after one update and after
  many.
- `Http.Headers.ordered_multimap`: header lists obey the laws, however they have been updated.
-/

namespace ApiGateway

/-! ## Names -/

namespace Bytes

/-- The same byte, or the same letter in the other case. -/
inductive SameLetter : UInt8 → UInt8 → Prop where
  | refl (c : UInt8) : SameLetter c c
  | lower {c : UInt8} (h : isUpper c = true) : SameLetter c (c + 32)
  | upper {c : UInt8} (h : isUpper c = true) : SameLetter (c + 32) c

/-- A small letter is no capital. -/
theorem isUpper_add_of_isUpper {c : UInt8} (h : isUpper c = true) : isUpper (c + 32) = false := by
  simp only [isUpper, Bool.and_eq_true, decide_eq_true_eq, UInt8.le_iff_toNat_le,
    Bool.and_eq_false_iff, decide_eq_false_iff_not, UInt8.toNat_add, UInt8.reduceToNat] at h ⊢
  omega

/-- Bytes have the same small letter if they are equal or the same letter. -/
theorem lowerByte_eq_iff {c d : UInt8} : lowerByte c = lowerByte d ↔ SameLetter c d := by
  constructor
  · intro h
    unfold lowerByte at h
    split at h <;> split at h
    · obtain rfl := UInt8.add_left_inj 32 |>.1 h
      exact .refl c
    · rename_i hc _
      exact h ▸ .lower hc
    · rename_i _ hd
      exact h ▸ .upper hd
    · exact h ▸ .refl c
  · intro h
    cases h with
    | refl => rfl
    | lower h => rw [lowerByte, lowerByte, if_pos h, isUpper_add_of_isUpper h]; rfl
    | upper h => rw [lowerByte, lowerByte, if_pos h, isUpper_add_of_isUpper h]; rfl

/-- Texts that are equal up to the case of letters agree letter by letter. -/
theorem sameIgnoringCase_iff {a b : Bytes} :
    sameIgnoringCase a b = true ↔ List.Forall₂ SameLetter a b := by
  rw [sameIgnoringCase, beq_iff_eq, ← List.forall₂_eq_eq_eq, List.forall₂_map_left_iff,
    List.forall₂_map_right_iff]
  simp only [lowerByte_eq_iff]

/-- Equality up to the case of letters is an equivalence. -/
theorem sameIgnoringCase_equivalence :
    Equivalence fun a b : Bytes => sameIgnoringCase a b = true := by
  simp only [sameIgnoringCase, beq_iff_eq]
  exact eq_equivalence.comap (List.map lowerByte)

end Bytes

namespace Http.Headers

/-! ## Updates one after another -/

/-- An update of a header list. -/
inductive Update where
  | set (name value : Bytes)
  | add (name value : Bytes)
  | remove (name : Bytes)

namespace Update

/-- The header list after an update. -/
def apply (headers : Headers) : Update → Headers
  | .set name value => headers.set name value
  | .add name value => headers.add name value
  | .remove name => headers.remove name

/-- The values of a name after an update. -/
def replace (key : Bytes) (values : List Bytes) : Update → List Bytes
  | .set name value => if Bytes.sameIgnoringCase key name then value :: values.tail else values
  | .add name value => if Bytes.sameIgnoringCase key name then values ++ [value] else values
  | .remove name => if Bytes.sameIgnoringCase key name then [] else values

end Update

/-- The header list after updates one after another. -/
def after (headers : Headers) (updates : List Update) : Headers :=
  updates.foldl Update.apply headers

/-- An update changes the values of its name only. -/
theorem values_apply (headers : Headers) (update : Update) (key : Bytes) :
    (update.apply headers).values key = update.replace key (headers.values key) := by
  cases update with
  | set name value => exact headers.values_set name value key
  | add name value => exact headers.values_add name value key
  | remove name => exact headers.values_remove name key

/-- The values of a name depend on the values that it had, and on nothing under other names. -/
theorem values_after (headers : Headers) (updates : List Update) (key : Bytes) :
    (headers.after updates).values key =
      updates.foldl (Update.replace key) (headers.values key) := by
  induction updates generalizing headers with
  | nil => rfl
  | cons update rest ih =>
      rw [List.foldl_cons, ← values_apply]
      exact ih (update.apply headers)

/-! ## The laws of look-ups -/

/-- What is read and what is left after an update. -/
structure IsMultimap (headers : Headers) : Prop where
  /-- The value that is set is read under its name, and nothing else under another one. -/
  get?_set : ∀ name value key, (headers.set name value).get? key =
    if Bytes.sameIgnoringCase key name then some value else headers.get? key
  /-- Setting changes the value of one entry, or appends one. -/
  set_entries : ∀ name value, headers.SetsValue name value (headers.set name value)
  /-- The value that is added is read under its name if there has been none. -/
  get?_add : ∀ name value key, (headers.add name value).get? key =
    if Bytes.sameIgnoringCase key name ∧
        ∀ entry ∈ headers, Bytes.sameIgnoringCase entry.1 key = false then some value
    else headers.get? key
  /-- Nothing is read under a name that is removed, and the same as before under another one. -/
  get?_remove : ∀ name key, (headers.remove name).get? key =
    if Bytes.sameIgnoringCase key name then none else headers.get? key
  /-- No entry with a name that is removed remains. -/
  remove_named : ∀ name, ∀ entry ∈ headers.remove name,
    Bytes.sameIgnoringCase entry.1 name = false
  /-- Removing brings no entry to another place. -/
  remove_sublist : ∀ name, (headers.remove name).Sublist headers
  /-- All entries with other names remain, as often as they have been there. -/
  remove_others : ∀ name entry, Bytes.sameIgnoringCase entry.1 name = false →
    (headers.remove name).count entry = headers.count entry
  /-- Headers contain a name if some entry has it. -/
  contains_iff : ∀ key, headers.contains key = true ↔
    ∃ entry ∈ headers, Bytes.sameIgnoringCase entry.1 key = true

/-- Every header list obeys the laws. -/
theorem isMultimap (headers : Headers) : headers.IsMultimap where
  get?_set name value key := by
    rw [get?_eq_head?_values, get?_eq_head?_values, values_set]
    split <;> rfl
  set_entries := headers.setsValue_set
  get?_add name value key := by
    rw [get?_eq_head?_values, get?_eq_head?_values, values_add]
    simp only [← values_eq_nil_iff]
    by_cases hsame : Bytes.sameIgnoringCase key name = true
    · cases headers.values key with
      | nil => simp [hsame]
      | cons first rest => simp [hsame]
    · simp [hsame]
  get?_remove name key := by
    rw [get?_eq_head?_values, get?_eq_head?_values, values_remove]
    split <;> rfl
  remove_named name entry hentry := by
    simpa [named] using (List.mem_filter.1 hentry).2
  remove_sublist name := List.filter_sublist
  remove_others name entry hother := by
    have hkept : (!named name entry) = true := by
      rw [named, hother]
      rfl
    exact List.count_filter hkept
  contains_iff key := Headers.contains_iff

/--
A header list is an ordered multimap whose names are compared without regard to the case of their
letters.  That comparison is an equivalence, in which a letter has two forms and every other byte
one.  However a list has been updated, it obeys the laws of look-ups, and the values of a name
follow from those that it had in the beginning and from the updates of this name.
-/
theorem ordered_multimap :
    Equivalence (fun a b : Bytes => Bytes.sameIgnoringCase a b = true) ∧
      (∀ a b, Bytes.sameIgnoringCase a b = true ↔ List.Forall₂ Bytes.SameLetter a b) ∧
      ∀ (headers : Headers) (updates : List Update), (headers.after updates).IsMultimap ∧
        ∀ key, (headers.after updates).values key =
          updates.foldl (Update.replace key) (headers.values key) :=
  ⟨Bytes.sameIgnoringCase_equivalence, fun _ _ => Bytes.sameIgnoringCase_iff,
    fun headers updates => ⟨(headers.after updates).isMultimap, headers.values_after updates⟩⟩

end Http.Headers
end ApiGateway
