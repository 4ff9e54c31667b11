import ApiGateway.Http.Headers

/-!
# Header lists

Entries of one name may repeat.  Under a name a header list then has several values, in the order
of their entries, and the first of them is the one that is read.  Setting the name replaces this
one, adding puts one behind the others, and removing leaves none; the values of all other names
stay as they are.

Main definitions:

- `Http.Headers.FirstValue`: the first entry of a header, whatever the case of its letters.
- `Http.Headers.values`: the values of a name.
- `Http.Headers.SetsValue`: what setting a name does to the entries.

Main results:

- `Http.Headers.get?_eq_some_iff`, `Http.Headers.get?_eq_none_iff`, `Http.Headers.contains_iff`:
  what a look-up finds.
- `Http.Headers.setsValue_set`: setting a name replaces the value of its first entry, or appends
  an entry.
- `Http.Headers.values_add`, `Http.Headers.values_set`, `Http.Headers.values_remove`: the values
  of a name after an update.
- `Http.Headers.get?_add`, `Http.Headers.get?_set_new`, `Http.Headers.get?_set_self`: look-ups
  after an update.
-/

namespace ApiGateway

/-! ## Names -/

namespace Bytes

theorem sameIgnoringCase_refl (a : Bytes) : sameIgnoringCase a a = true :=
  beq_self_eq_true _

/-- A text equal to one of two equal texts is equal to the other. -/
theorem sameIgnoringCase_congr {a b : Bytes} (h : sameIgnoringCase a b = true) (c : Bytes) :
    sameIgnoringCase c a = sameIgnoringCase c b := by
  rw [sameIgnoringCase, sameIgnoringCase, beq_iff_eq.1 h]

theorem sameIgnoringCase_comm (a b : Bytes) : sameIgnoringCase a b = sameIgnoringCase b a :=
  Bool.beq_comm

end Bytes

namespace Http.Headers

/-! ## First entries -/

/-- The first entry of that name, whatever the case of its letters, has the value. -/
def FirstValue (headers : Headers) (name value : Bytes) : Prop :=
  ∃ before stored after, headers = before ++ (stored, value) :: after ∧
    Bytes.sameIgnoringCase stored name ∧
    ∀ entry ∈ before, Bytes.sameIgnoringCase entry.1 name = false

/-- A header is read from the first entry of its name. -/
theorem get?_eq_some_iff {headers : Headers} {name value : Bytes} :
    headers.get? name = some value ↔ headers.FirstValue name value := by
  rw [get?, Option.map_eq_some_iff]
  constructor
  · rintro ⟨⟨stored, found⟩, hfind, rfl⟩
    rcases List.find?_eq_some_iff_append.1 hfind with ⟨hnamed, before, after, rfl, hbefore⟩
    refine ⟨before, stored, after, rfl, hnamed, fun entry hentry => ?_⟩
    simpa [named] using hbefore entry hentry
  · rintro ⟨before, stored, after, rfl, hnamed, hbefore⟩
    refine ⟨(stored, value), List.find?_eq_some_iff_append.2 ⟨hnamed, before, after, rfl, ?_⟩, rfl⟩
    intro entry hentry
    simpa [named] using hbefore entry hentry

/-- A header is not there if no entry has its name. -/
theorem get?_eq_none_iff {headers : Headers} {name : Bytes} :
    headers.get? name = none ↔ ∀ entry ∈ headers, Bytes.sameIgnoringCase entry.1 name = false := by
  rw [get?, Option.map_eq_none_iff, List.find?_eq_none]
  simp only [named, Bool.not_eq_true]

/-- Headers contain a name if some entry has it. -/
theorem contains_iff {headers : Headers} {name : Bytes} :
    headers.contains name = true ↔
      ∃ entry ∈ headers, Bytes.sameIgnoringCase entry.1 name = true := by
  rw [contains, get?, Option.isSome_map, List.find?_isSome]
  rfl

/-- Headers do not contain a name that no entry has. -/
theorem contains_eq_false_iff {headers : Headers} {name : Bytes} :
    headers.contains name = false ↔
      ∀ entry ∈ headers, Bytes.sameIgnoringCase entry.1 name = false := by
  rw [contains, Option.isSome_eq_false_iff, Option.isNone_iff_eq_none, get?_eq_none_iff]

/-! ## Values -/

variable {headers : Headers} {name key : Bytes}

/-- The values of a name, in the order of their entries. -/
def values (headers : Headers) (name : Bytes) : List Bytes :=
  (headers.filter (named name)).map Prod.snd

/-- The first value of a name is the one that is read. -/
theorem get?_eq_head?_values (headers : Headers) (name : Bytes) :
    headers.get? name = (headers.values name).head? := by
  rw [get?, values, List.head?_map, List.head?_filter]

theorem values_append (before after : Headers) (name : Bytes) :
    values (before ++ after) name = before.values name ++ after.values name := by
  rw [values, List.filter_append, List.map_append]
  rfl

/-- An entry in front contributes its value to the values of its name. -/
theorem values_cons (entry : Bytes × Bytes) (rest : Headers) (name : Bytes) :
    values (entry :: rest) name =
      if Bytes.sameIgnoringCase entry.1 name then entry.2 :: rest.values name
      else rest.values name := by
  rw [values, List.filter_cons]
  change List.map Prod.snd (if Bytes.sameIgnoringCase entry.1 name then _ else _) = _
  split <;> rfl

/-- A name that no entry has is without values. -/
theorem values_eq_nil_iff :
    headers.values name = [] ↔
      ∀ entry ∈ headers, Bytes.sameIgnoringCase entry.1 name = false := by
  rw [← List.head?_eq_none_iff, ← get?_eq_head?_values, get?_eq_none_iff]

/-- One name has one list of values, whatever the case of its letters. -/
theorem values_congr (h : Bytes.sameIgnoringCase key name = true) (headers : Headers) :
    headers.values key = headers.values name := by
  have hnamed : named key = named name :=
    funext fun entry => Bytes.sameIgnoringCase_congr h entry.1
  rw [values, hnamed]
  rfl

/-! ## What setting does to the entries -/

/-- Setting a name replaces the value of its first entry and nothing else. -/
theorem set_append_cons {before : Headers} {stored name : Bytes} (old value : Bytes)
    (after : Headers) (hnamed : Bytes.sameIgnoringCase stored name = true)
    (hbefore : ∀ entry ∈ before, Bytes.sameIgnoringCase entry.1 name = false) :
    set (before ++ (stored, old) :: after) name value = before ++ (stored, value) :: after := by
  induction before with
  | nil => exact if_pos hnamed
  | cons entry rest ih =>
      rw [List.forall_mem_cons] at hbefore
      have hother : ¬named name entry = true := Bool.eq_false_iff.1 hbefore.1
      rw [List.cons_append, set, if_neg hother, ih hbefore.2]
      rfl

/--
A value is set: it replaces that of the first entry with the name, which keeps its place and its
spelling of the name, or it comes last with an entry of its own if no entry has the name.
-/
inductive SetsValue (headers : Headers) (name value : Bytes) : Headers → Prop where
  | replaced {before after : Headers} {stored old : Bytes}
      (hsplit : headers = before ++ (stored, old) :: after)
      (hbefore : ∀ entry ∈ before, Bytes.sameIgnoringCase entry.1 name = false)
      (hnamed : Bytes.sameIgnoringCase stored name = true) :
      SetsValue headers name value (before ++ (stored, value) :: after)
  | appended (hnew : ∀ entry ∈ headers, Bytes.sameIgnoringCase entry.1 name = false) :
      SetsValue headers name value (headers ++ [(name, value)])

/-- Setting a name does this. -/
theorem setsValue_set (headers : Headers) (name value : Bytes) :
    headers.SetsValue name value (headers.set name value) := by
  cases hcontains : headers.contains name with
  | false =>
      rw [set_eq_add_of_contains_eq_false hcontains]
      exact .appended (contains_eq_false_iff.1 hcontains)
  | true =>
      rcases Option.isSome_iff_exists.1 hcontains with ⟨old, hold⟩
      rcases get?_eq_some_iff.1 hold with ⟨before, stored, after, hsplit, hnamed, hbefore⟩
      rw [hsplit, set_append_cons old value after hnamed hbefore, ← hsplit]
      exact .replaced hsplit hbefore hnamed

/-! ## Values after an update -/

/-- An added value stands behind the others of its name. -/
theorem values_add (headers : Headers) (name value key : Bytes) :
    (headers.add name value).values key =
      if Bytes.sameIgnoringCase key name then headers.values key ++ [value]
      else headers.values key := by
  rw [add, values_append, values_cons, Bytes.sameIgnoringCase_comm]
  split
  · rfl
  · exact List.append_nil _

/-- A value that is set takes the place of the first one of its name. -/
theorem values_set (headers : Headers) (name value key : Bytes) :
    (headers.set name value).values key =
      if Bytes.sameIgnoringCase key name then value :: (headers.values key).tail
      else headers.values key := by
  have hset := headers.setsValue_set name value
  generalize headers.set name value = updated at hset
  cases hset with
  | appended hnew =>
      have hadded := headers.values_add name value key
      rw [add] at hadded
      rw [hadded]
      split
      next hsame => rw [values_congr hsame, values_eq_nil_iff.2 hnew]; rfl
      next => rfl
  | @replaced before after stored old hsplit hbefore hnamed =>
      rw [hsplit, values_append, values_append, values_cons, values_cons,
        Bytes.sameIgnoringCase_comm stored key, Bytes.sameIgnoringCase_congr hnamed key]
      split
      next hsame => rw [values_congr hsame, values_eq_nil_iff.2 hbefore]; rfl
      next => rfl

/-- Removing a name leaves none of its values and all values of other names. -/
theorem values_remove (headers : Headers) (name key : Bytes) :
    (headers.remove name).values key =
      if Bytes.sameIgnoringCase key name then [] else headers.values key := by
  rw [values, remove, List.filter_filter]
  split
  next hsame =>
    rw [List.map_eq_nil_iff, List.filter_eq_nil_iff]
    intro entry _
    rw [named, named, Bytes.sameIgnoringCase_congr hsame, Bool.and_not_self]
    exact Bool.false_ne_true
  next hother =>
    refine congrArg (List.map Prod.snd) (List.filter_congr fun entry _ => ?_)
    cases hkey : named key entry with
    | false => rfl
    | true =>
        have hname : named name entry = false := by
          rw [named, Bytes.sameIgnoringCase_comm, Bytes.sameIgnoringCase_congr hkey,
            Bytes.sameIgnoringCase_comm]
          exact Bool.eq_false_iff.2 hother
        rw [hname]
        rfl

/-! ## Look-ups after an update -/

/-- A name is looked up in an added entry last. -/
theorem get?_add (headers : Headers) (name added value : Bytes) :
    (headers.add added value).get? name =
      (headers.get? name).or (if Bytes.sameIgnoringCase added name then some value else none) := by
  rw [get?_eq_head?_values, get?_eq_head?_values, add, values_append, List.head?_append,
    values_cons]
  split <;> rfl

/-- Setting a name that is not there adds it behind the others. -/
theorem get?_set_new {headers : Headers} {added : Bytes}
    (hnew : headers.contains added = false) (name value : Bytes) :
    (headers.set added value).get? name =
      (headers.get? name).or (if Bytes.sameIgnoringCase added name then some value else none) := by
  rw [set_eq_add_of_contains_eq_false hnew, get?_add]

/-- The value that is set is the one that is read. -/
theorem get?_set_self (headers : Headers) (name value : Bytes) :
    (headers.set name value).get? name = some value := by
  rw [get?_eq_head?_values, values_set, if_pos (Bytes.sameIgnoringCase_refl name)]
  rfl

end Http.Headers
end ApiGateway
