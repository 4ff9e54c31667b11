import ApiGateway.Proofs.Json.Members
import ApiGateway.Proofs.Json.RoundTrip
import ApiGateway.Proofs.SentResponses

/-!
# Documents of problems

The document of a problem is an object in which every name stands once.  Its standard members are
written first and its extensions after them, each by its name.  So an extension that bears the name
of a standard member takes its place, or fakes it where the problem has none.

Main definitions:

- `Problem.Standard`: the standard members of a problem.
- `Problem.Tells`: the members of its document.

Main results:

- `Problem.mem_members_value_iff`: the members are those that the problem tells.
- `Problem.document_tells`: the document of a problem, as it is sent.
-/

namespace ApiGateway

open Json (Document Value LastEntry lastEntry_map_iff)

namespace Problem

/-! ## Members -/

/-- The standard members of a problem: type, title and status, and those that it happens to have. -/
inductive Standard (p : Problem) : Bytes → Document → Prop where
  | type : Standard p (Bytes.ofString "type") (.string p.type)
  | title : Standard p (Bytes.ofString "title") (.string p.title)
  | status : Standard p (Bytes.ofString "status") (.integer (Int64.ofInt p.status))
  | detail {text : Bytes} (h : p.detail = some text) :
      Standard p (Bytes.ofString "detail") (.string text)
  | instanceRef {text : Bytes} (h : p.instanceRef = some text) :
      Standard p (Bytes.ofString "instance") (.string text)

/-- The names of standard members. -/
def standardNames : List Bytes :=
  ["type", "title", "status", "detail", "instance"].map Bytes.ofString

/--
What the document of a problem tells: under the name of an extension the last extension of that
name, and under any other name the standard member.
-/
inductive Tells (p : Problem) : Bytes → Document → Prop where
  | extension {name text : Bytes} (h : LastEntry p.extensions name text) :
      Tells p name (.string text)
  | standard {name : Bytes} {d : Document} (hname : name ∉ p.extensions.map Prod.fst)
      (h : p.Standard name d) : Tells p name d

/-- A standard member bears a standard name. -/
theorem Standard.name_mem {p : Problem} {name : Bytes} {d : Document} (h : p.Standard name d) :
    name ∈ standardNames := by
  cases h <;> simp [standardNames]

/-- Without extensions of a standard name, the standard members are told. -/
theorem Standard.tells {p : Problem} {name : Bytes} {d : Document} (h : p.Standard name d)
    (hextensions : ∀ extension ∈ p.extensions, extension.1 ∉ standardNames) : p.Tells name d := by
  refine .standard (fun hmem => ?_) h
  rcases List.mem_map.1 hmem with ⟨extension, hextension, rfl⟩
  exact hextensions extension hextension h.name_mem

/-! ## The value of a problem -/

/-- The object with the standard members. -/
def standardValue (p : Problem) : Value :=
  { p with extensions := [] }.value

/-- The extensions are set after the standard members. -/
theorem value_eq_setAll (p : Problem) :
    p.value = p.standardValue.setAll (p.extensions.map fun e => (e.1, Value.ofText e.2)) := by
  rw [Value.setAll, List.foldl_map]
  rfl

/-- The standard members stand in their order. -/
theorem members_standardValue (p : Problem) :
    p.standardValue.members = [
      (Bytes.ofString "type", Value.ofText p.type),
      (Bytes.ofString "title", Value.ofText p.title),
      (Bytes.ofString "status", Value.ofInt (Int64.ofInt p.status))] ++
      p.detail.toList.map (fun text => (Bytes.ofString "detail", Value.ofText text)) ++
      p.instanceRef.toList.map (fun text => (Bytes.ofString "instance", Value.ofText text)) := by
  rcases p with ⟨type, title, status, detail, instanceRef, extensions⟩
  cases detail <;> cases instanceRef <;> rfl

/-- Building a problem begins with an object. -/
theorem kind_standardValue (p : Problem) : p.standardValue.kind = .object := by
  rcases p with ⟨type, title, status, detail, instanceRef, extensions⟩
  cases detail <;> cases instanceRef <;> rfl

/-- The standard names are distinct. -/
theorem nodup_keys_standardValue (p : Problem) :
    (p.standardValue.members.map Prod.fst).Nodup := by
  have hnames : (p.standardValue.members.map Prod.fst).Sublist standardNames := by
    rw [members_standardValue]
    cases p.detail <;> cases p.instanceRef <;> simp [standardNames]
  exact hnames.nodup (by decide)

/-- The members of that object are the standard ones. -/
theorem mem_members_standardValue_iff (p : Problem) (name : Bytes) (d : Document) :
    (∃ v, (name, v) ∈ p.standardValue.members ∧ v.document = d) ↔ p.Standard name d := by
  rw [members_standardValue]
  constructor
  · rintro ⟨v, hv, rfl⟩
    simp only [List.mem_append, List.mem_cons, List.not_mem_nil, or_false, List.mem_map,
      Option.mem_toList, Prod.mk.injEq] at hv
    rcases hv with ((⟨rfl, rfl⟩ | ⟨rfl, rfl⟩ | ⟨rfl, rfl⟩) | ⟨text, htext, rfl, rfl⟩) |
      ⟨text, htext, rfl, rfl⟩
    · exact .type
    · exact .title
    · exact .status
    · exact .detail htext
    · exact .instanceRef htext
  · intro h
    cases h with
    | type => exact ⟨Value.ofText p.type, by simp, rfl⟩
    | title => exact ⟨Value.ofText p.title, by simp, rfl⟩
    | status => exact ⟨Value.ofInt (Int64.ofInt p.status), by simp, rfl⟩
    | @detail text h => exact ⟨Value.ofText text, by simp [h], rfl⟩
    | @instanceRef text h => exact ⟨Value.ofText text, by simp [h], rfl⟩

/-! ## The document of a problem -/

/-- The extensions of a problem are set last, by their names. -/
theorem mem_members_value_iff (p : Problem) (name : Bytes) (d : Document) :
    (∃ v, (name, v) ∈ p.value.members ∧ v.document = d) ↔ p.Tells name d := by
  have hnames : (p.extensions.map fun e => (e.1, Value.ofText e.2)).map Prod.fst =
      p.extensions.map Prod.fst := by
    rw [List.map_map]
    rfl
  rw [value_eq_setAll]
  simp only [Value.mem_setAll_iff p.nodup_keys_standardValue, hnames]
  constructor
  · rintro ⟨v, hlast | ⟨hname, hstandard⟩, rfl⟩
    · rcases lastEntry_map_iff.1 hlast with ⟨text, htext, rfl⟩
      exact .extension htext
    · exact .standard hname ((p.mem_members_standardValue_iff name _).1 ⟨v, hstandard, rfl⟩)
  · intro h
    cases h with
    | @extension text hlast =>
        exact ⟨Value.ofText text, .inl (lastEntry_map_iff.2 ⟨text, hlast, rfl⟩), rfl⟩
    | standard hname hstandard =>
        rcases (p.mem_members_standardValue_iff name d).2 hstandard with ⟨v, hv, hd⟩
        exact ⟨v, .inr ⟨hname, hv⟩, hd⟩

/-- Strings and integers are no floating point numbers. -/
theorem Tells.numberFree {p : Problem} {name : Bytes} {d : Document} (h : p.Tells name d) :
    Json.NumberFree d := by
  cases h with
  | extension => exact .string _
  | standard hname h =>
      cases h with
      | status => exact .integer _
      | type | title | detail | instanceRef => exact .string _

/--
The document of a problem is an object in which every name stands once, and its text is read back as
that object.  The last extension of a name is told under it, whatever the name; otherwise the
standard member is.  So as long as no extension bears a standard name, all standard members are
there.  The problem is sent with its own status, which the standard member repeats.
-/
theorem document_tells (p : Problem) : ∃ members,
    p.value.document = .object members ∧
      (∀ real, Json.read? real p.text = some (.object members)) ∧
      (members.map Prod.fst).Nodup ∧
      (∀ name d, (name, d) ∈ members ↔ p.Tells name d) ∧
      ((∀ extension ∈ p.extensions, extension.1 ∉ standardNames) →
        ∀ name d, p.Standard name d → (name, d) ∈ members) ∧
      (∃ headers, ∀ E : Signature, ((Native.ofProblem p).send : Prog (Exchange E) Unit) =
        Exchange.sendAll [.start p.status headers, .body p.text false]) ∧
      (-2147483648 ≤ p.status → p.status ≤ 2147483647 →
        (Int64.ofInt p.status).toInt = p.status) := by
  have hkind : p.value.kind = .object := by
    rw [value_eq_setAll]
    exact Value.kind_setAll p.kind_standardValue _
  have hdocument := Value.document_of_object hkind
  have hmem (name : Bytes) (d : Document) :
      (name, d) ∈ (p.value.members.map fun member => (member.1, member.2.document)) ↔
        p.Tells name d := by
    rw [← mem_members_value_iff]
    simp only [List.mem_map, Prod.exists, Prod.mk.injEq]
    constructor
    · rintro ⟨_, v, hv, rfl, hd⟩
      exact ⟨v, hv, hd⟩
    · rintro ⟨v, hv, hd⟩
      exact ⟨name, v, hv, rfl, hd⟩
  have hfree : Json.NumberFree p.value.document := by
    rw [hdocument]
    exact .object fun member hmember => ((hmem member.1 member.2).1 hmember).numberFree
  refine ⟨_, hdocument, fun real => ?_, ?_, hmem, fun hextensions name d h =>
    (hmem name d).2 (h.tells hextensions), ⟨_, fun E => rfl⟩, fun hlow hhigh => ?_⟩
  · rw [text, Json.read?_dump real hfree, hdocument]
  · rw [List.map_map, value_eq_setAll]
    exact Value.nodup_keys_setAll p.nodup_keys_standardValue _
  · exact Int64.toInt_ofInt_of_le (by omega) (by omega)

end Problem

namespace Sample

/-- A problem whose extension bears the name of the status. -/
def statusFaked : Problem where
  title := Bytes.ofString "Validation Failed"
  status := 422
  extensions := [(Bytes.ofString "status", Bytes.ofString "200")]

/-- The document of that problem has the extension in place of its status. -/
theorem extension_replaces_status :
    statusFaked.value.document = .object [
        (Bytes.ofString "type", .string (Bytes.ofString "about:blank")),
        (Bytes.ofString "title", .string (Bytes.ofString "Validation Failed")),
        (Bytes.ofString "status", .string (Bytes.ofString "200"))] ∧
      ¬∃ members, statusFaked.value.document = .object members ∧
        (Bytes.ofString "status", .integer 422) ∈ members := by
  have hdocument : statusFaked.value.document = .object [
      (Bytes.ofString "type", .string (Bytes.ofString "about:blank")),
      (Bytes.ofString "title", .string (Bytes.ofString "Validation Failed")),
      (Bytes.ofString "status", .string (Bytes.ofString "200"))] := rfl
  refine ⟨hdocument, ?_⟩
  rintro ⟨members, hmembers, hstatus⟩
  obtain rfl := Document.object.inj (hdocument.symm.trans hmembers)
  simp at hstatus

end Sample
end ApiGateway
