import ApiGateway.Json.Value
import ApiGateway.Proofs.Json.Reader

/-!
# Documents read back

The compact text of a document without numbers is a text of the grammar, so the reader
gives the document back.  Equal texts therefore come from equal documents, whatever the
stores of a value keep beside the live one.

Main definitions:

- `NumberFree`: documents without numbers.
- `Value.ofDocument`, `decode?`: values from documents and from texts.

Main results:

- `NumberFree.grammar_render`: the compact text belongs to the grammar.
- `NumberFree.same_iff`: without numbers, equality is equality of documents.
- `Value.dumpInto_eq`: the writer appends the compact text.
- `decode?_dump`: a written value is read back.
-/

namespace ApiGateway
namespace Json

/-! ## Documents without numbers -/

/-- A document without numbers. -/
inductive NumberFree : Document → Prop where
  | null : NumberFree .null
  | boolean (b : Bool) : NumberFree (.boolean b)
  | integer (i : Int64) : NumberFree (.integer i)
  | string (s : Bytes) : NumberFree (.string s)
  | array {items : List Document} (h : ∀ item ∈ items, NumberFree item) :
      NumberFree (.array items)
  | object {members : List (Bytes × Document)} (h : ∀ member ∈ members, NumberFree member.2) :
      NumberFree (.object members)

namespace Document

/-- The text of items is joined by commas. -/
theorem renderItems_eq (items : List Document) :
    renderItems items = [44].intercalate (items.map render) := by
  induction items with
  | nil => rfl
  | cons item rest ih =>
      cases rest with
      | nil => simp [renderItems]
      | cons second rest =>
          rw [List.map_cons, intercalate_cons 44 item.render (by simp), ← ih]
          rfl

/-- The text of a member. -/
def renderMember (member : Bytes × Document) : Bytes :=
  quote member.1 ++ 58 :: member.2.render

/-- The text of members is joined by commas. -/
theorem renderMembers_eq (members : List (Bytes × Document)) :
    renderMembers members = [44].intercalate (members.map renderMember) := by
  induction members with
  | nil => rfl
  | cons member rest ih =>
      cases rest with
      | nil => simp [renderMembers, renderMember]
      | cons second rest =>
          rw [List.map_cons, intercalate_cons 44 (renderMember member) (by simp), ← ih,
            renderMember, List.append_assoc]
          rfl

end Document

section Grammar

variable (real : Numeral → Binary64)

/-- The literal of a text is the literal of its units. -/
theorem literal_unitsOf (s : Bytes) : literal (unitsOf s) = quote s := by
  rw [literal, flatMap_text_unitsOf, quote]

/-- The units of a text are units of the grammar. -/
theorem wellFormed_of_mem_unitsOf {s : Bytes} : ∀ u ∈ unitsOf s, u.WellFormed := by
  intro u hu
  rcases List.mem_map.1 hu with ⟨c, -, rfl⟩
  exact wellFormed_unitOf c

/-- A text without blanks around it is an element. -/
theorem Grammar.toElement {d : Document} {text : Bytes} (h : Grammar real (.value d) text) :
    Grammar real (.element d) text := by
  have hblank : IsBlank [] := fun _ hmem => absurd hmem List.not_mem_nil
  have helement := Grammar.element hblank hblank h
  rw [List.append_nil, List.nil_append] at helement
  exact helement

/-- The text of a member is a member of the grammar. -/
theorem Grammar.renderMember {member : Bytes × Document}
    (h : Grammar real (.value member.2) member.2.render) :
    Grammar real (.member member) (Document.renderMember member) := by
  have hblank : IsBlank [] := fun _ hmem => absurd hmem List.not_mem_nil
  have hkey := wellFormed_of_mem_unitsOf (s := member.1)
  have hmember := Grammar.member hblank hblank hkey (h.toElement real)
  rw [textOf_unitsOf, literal_unitsOf, List.nil_append, List.nil_append] at hmember
  exact hmember

/-- Items whose texts belong to the grammar make an array of it. -/
theorem Grammar.renderArray {items : List Document}
    (h : ∀ item ∈ items, Grammar real (.value item) item.render) :
    Grammar real (.value (.array items)) (Document.array items).render := by
  rw [Document.render, Document.renderItems_eq]
  by_cases hne : items = []
  · subst hne
    exact .emptyArray fun _ hmem => absurd hmem List.not_mem_nil
  · have hpieces : items.map (fun item => (item, item.render)) ≠ [] := by
      simpa using hne
    have harray := Grammar.array hpieces fun piece hpiece => by
      rcases List.mem_map.1 hpiece with ⟨item, hitem, rfl⟩
      exact (h item hitem).toElement real
    rw [List.map_map, List.map_map] at harray
    simpa [Function.comp_def] using harray

/-- Members whose texts belong to the grammar make an object of it. -/
theorem Grammar.renderObject {members : List (Bytes × Document)}
    (h : ∀ member ∈ members, Grammar real (.value member.2) member.2.render) :
    Grammar real (.value (.object members)) (Document.object members).render := by
  rw [Document.render, Document.renderMembers_eq]
  by_cases hne : members = []
  · subst hne
    exact .emptyObject fun _ hmem => absurd hmem List.not_mem_nil
  · have hpieces : members.map (fun member => (member, Document.renderMember member)) ≠ [] := by
      simpa using hne
    have hobject := Grammar.object hpieces fun piece hpiece => by
      rcases List.mem_map.1 hpiece with ⟨member, hmember, rfl⟩
      exact Grammar.renderMember real (h member hmember)
    rw [List.map_map, List.map_map] at hobject
    simpa [Function.comp_def] using hobject

/-- The compact text of a document without numbers belongs to the grammar. -/
theorem NumberFree.grammar_render {d : Document} (h : NumberFree d) :
    Grammar real (.value d) d.render := by
  induction h with
  | null => exact .word (by simp [words, Document.render])
  | boolean b =>
      cases b with
      | true => exact .word (by simp [words, Document.render])
      | false => exact .word (by simp [words, Document.render])
  | integer i =>
      have hnumeral : Grammar real (.value ((Numeral.ofInt i.toInt).document real))
          (Numeral.ofInt i.toInt).text := .numeral (Numeral.wellFormed_ofInt i.toInt)
      rw [Numeral.document_ofInt, Numeral.text_ofInt] at hnumeral
      exact hnumeral
  | string s =>
      have hstring : Grammar real (.value (.string (textOf (unitsOf s)))) (literal (unitsOf s)) :=
        .string wellFormed_of_mem_unitsOf
      rw [textOf_unitsOf, literal_unitsOf] at hstring
      exact hstring
  | array h ih => exact Grammar.renderArray real ih
  | object h ih => exact Grammar.renderObject real ih

end Grammar

/-! ## Equality without numbers -/

/-- Without numbers, equality of documents decides whether they are the same. -/
theorem NumberFree.same_iff {d : Document} (h : NumberFree d) (e : Document) :
    d.same e = true ↔ d = e := by
  induction h generalizing e with
  | null => cases e <;> simp [Document.same]
  | boolean b => cases e <;> simp [Document.same]
  | integer i => cases e <;> simp [Document.same]
  | string s => cases e <;> simp [Document.same]
  | @array items h ih =>
      cases e with
      | array others =>
          rw [Document.same, Document.array.injEq]
          clear h
          induction items generalizing others with
          | nil => cases others <;> simp [Document.sameItems]
          | cons item items ihItems =>
              cases others with
              | nil => simp [Document.sameItems]
              | cons other others =>
                  rw [Document.sameItems, Bool.and_eq_true, ih item List.mem_cons_self,
                    ihItems fun d hd => ih d (List.mem_cons_of_mem item hd), List.cons.injEq]
      | _ => simp [Document.same]
  | @object members h ih =>
      cases e with
      | object others =>
          rw [Document.same, Document.object.injEq]
          clear h
          induction members generalizing others with
          | nil => cases others <;> simp [Document.sameMembers]
          | cons member members ihMembers =>
              cases others with
              | nil => simp [Document.sameMembers]
              | cons other others =>
                  rw [Document.sameMembers, Bool.and_eq_true, Bool.and_eq_true, beq_iff_eq,
                    ih member List.mem_cons_self,
                    ihMembers fun m hm => ih m (List.mem_cons_of_mem member hm), List.cons.injEq,
                    Prod.ext_iff]
      | _ => simp [Document.same]

namespace Value

/-! ## Values of documents -/

mutual

/-- The value of a document, with nothing in the other stores. -/
def ofDocument : Document → Value
  | .null => null
  | .boolean b => ofBool b
  | .integer i => ofInt i
  | .number d => ofNumber d
  | .string s => ofText s
  | .array items => ofItems (ofDocuments items)
  | .object members => ofMembers (ofMemberDocuments members)

/-- The values of documents. -/
def ofDocuments : List Document → List Value
  | [] => []
  | d :: rest => ofDocument d :: ofDocuments rest

/-- The keys and values of members. -/
def ofMemberDocuments : List (Bytes × Document) → List (Bytes × Value)
  | [] => []
  | (key, d) :: rest => (key, ofDocument d) :: ofMemberDocuments rest

end

mutual

/-- The value of a document has that document. -/
theorem document_ofDocument (d : Document) : (ofDocument d).document = d := by
  cases d with
  | null => rfl
  | boolean b => rfl
  | integer i => rfl
  | number d => rfl
  | string s => rfl
  | array items => exact congrArg Document.array (documents_ofDocuments items)
  | object members => exact congrArg Document.object (memberDocuments_ofMemberDocuments members)

/-- The values of documents have those documents. -/
theorem documents_ofDocuments (items : List Document) : documents (ofDocuments items) = items := by
  cases items with
  | nil => rfl
  | cons d rest =>
      rw [ofDocuments, documents, document_ofDocument d, documents_ofDocuments rest]

/-- The values of members have the documents of the members. -/
theorem memberDocuments_ofMemberDocuments (members : List (Bytes × Document)) :
    memberDocuments (ofMemberDocuments members) = members := by
  cases members with
  | nil => rfl
  | cons member rest =>
      rw [ofMemberDocuments, memberDocuments, document_ofDocument member.2,
        memberDocuments_ofMemberDocuments rest]

end

/-! ## The writer -/

mutual

/-- The writer appends the compact text. -/
theorem dumpInto_eq (v : Value) (out : Bytes) : v.dumpInto out = out ++ v.dump := by
  cases v with
  | mk kind flag int number text items members =>
      cases kind with
      | null => rfl
      | boolean => cases flag <;> rfl
      | integer => rfl
      | number => rfl
      | string => simp [dumpInto, dump, document, Document.render, quote]
      | array =>
          rw [dumpInto, dumpItemsInto_eq items, Bool.true_or, if_pos rfl]
          simp [dump, document, Document.render]
      | object =>
          rw [dumpInto, dumpMembersInto_eq members, Bool.true_or, if_pos rfl]
          simp [dump, document, Document.render]

/-- The writer of items appends their text, with a comma before if items precede. -/
theorem dumpItemsInto_eq (items : List Value) (first : Bool) (out : Bytes) :
    dumpItemsInto items first out =
      out ++ if first || items.isEmpty then Document.renderItems (documents items)
        else 44 :: Document.renderItems (documents items) := by
  cases items with
  | nil => simp [dumpItemsInto, Document.renderItems]
  | cons v rest =>
      rw [dumpItemsInto, dumpItemsInto_eq rest, dumpInto_eq v, documents]
      cases rest with
      | nil => cases first <;> simp [documents, Document.renderItems, dump]
      | cons w rest => cases first <;> simp [documents, Document.renderItems, dump]

/-- The writer of members appends their text, with a comma before if members precede. -/
theorem dumpMembersInto_eq (members : List (Bytes × Value)) (first : Bool) (out : Bytes) :
    dumpMembersInto members first out =
      out ++ if first || members.isEmpty then Document.renderMembers (memberDocuments members)
        else 44 :: Document.renderMembers (memberDocuments members) := by
  cases members with
  | nil => simp [dumpMembersInto, Document.renderMembers]
  | cons member rest =>
      rcases member with ⟨key, v⟩
      rw [dumpMembersInto, dumpMembersInto_eq rest, dumpInto_eq v, memberDocuments]
      cases rest with
      | nil => cases first <;> simp [memberDocuments, Document.renderMembers, dump, quote]
      | cons second rest =>
          cases first <;> simp [memberDocuments, Document.renderMembers, dump, quote]

end

end Value

/-! ## Reading written values -/

/-- The value of a text, if the whole text belongs to the grammar. -/
def decode? (real : Numeral → Binary64) (text : Bytes) : Option Value :=
  (read? real text).map Value.ofDocument

/-- The document of a value that has been read is the one of the text. -/
theorem document_decode? (real : Numeral → Binary64) (text : Bytes) :
    (decode? real text).map Value.document = read? real text := by
  rw [decode?, Option.map_map]
  cases read? real text with
  | none => rfl
  | some d => exact congrArg some (Value.document_ofDocument d)

/-- The compact text of a value without numbers is read as its document. -/
theorem read?_dump (real : Numeral → Binary64) {v : Value} (h : NumberFree v.document) :
    read? real v.dump = some v.document :=
  read?_eq_some_iff.2 ((NumberFree.grammar_render real h).toElement real)

/--
Written values can be read back.  The decoder decides the grammar.  It reads the compact text of
every value without numbers as a whole, and gives an equal value; so two such values have the same
text exactly if they are equal.  Writing into a text appends the compact text to it.
-/
theorem decode?_dump (real : Numeral → Binary64) :
    (∀ text d, (decode? real text).map Value.document = some d ↔
        Grammar real (.element d) text) ∧
      (∀ v : Value, NumberFree v.document →
        ∃ w, decode? real v.dump = some w ∧ w.same v = true) ∧
      (∀ v w : Value, NumberFree v.document → NumberFree w.document →
        (v.dump = w.dump ↔ v.same w = true)) ∧
      ∀ (v : Value) (out : Bytes), v.dumpInto out = out ++ v.dump := by
  refine ⟨?_, ?_, ?_, Value.dumpInto_eq⟩
  · intro text d
    rw [document_decode?]
    exact read?_eq_some_iff
  · intro v hv
    refine ⟨Value.ofDocument v.document, ?_, ?_⟩
    · rw [decode?, read?_dump real hv]
      rfl
    · rw [Value.same, Value.document_ofDocument]
      exact (NumberFree.same_iff hv _).2 rfl
  · intro v w hv hw
    rw [Value.same, NumberFree.same_iff hv]
    constructor
    · intro hdump
      have hread := read?_dump real hv
      rw [hdump, read?_dump real hw] at hread
      exact (Option.some.inj hread).symm
    · intro hdocument
      rw [Value.dump, hdocument, Value.dump]

/-- An array with the least integer whose number store is stale, under a repeated empty key. -/
def sampleValue : Value :=
  .ofMembers [([], (Value.ofNumber Binary64.zero).push (.ofInt Int64.minValue)),
    ([], .ofText [34, 92, 1, 255])]

/-- That value is read back. -/
theorem decode?_sampleValue :
    NumberFree sampleValue.document ∧
      ∃ w, decode? (fun _ => Binary64.zero) sampleValue.dump = some w ∧
        w.same sampleValue = true := by
  have hfree : NumberFree sampleValue.document := by
    apply NumberFree.object
    intro member hmember
    rcases List.mem_cons.1 hmember with rfl | hmember
    · apply NumberFree.array
      intro item hitem
      rw [List.mem_singleton.1 hitem]
      exact .integer Int64.minValue
    · rw [List.mem_singleton.1 hmember]
      exact .string _
  exact ⟨hfree, (decode?_dump fun _ => Binary64.zero).2.1 sampleValue hfree⟩

/-- Blanks, a surrogate pair and a negative numeral in an array. -/
example : read? (fun _ => Binary64.zero)
    [91, 32, 34, 92, 117, 100, 56, 51, 100, 92, 117, 68, 69, 48, 48, 34, 44, 10, 45, 49, 93] =
      some (.array [.string [240, 159, 152, 128], .integer (-1)]) := by
  rfl

end Json
end ApiGateway
