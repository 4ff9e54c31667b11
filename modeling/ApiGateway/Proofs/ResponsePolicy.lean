import ApiGateway.Proofs.CanonicalForms
import ApiGateway.Proofs.TrimmedTexts
import ApiGateway.Proofs.WrittenQueries

/-!
# The policy for responses

Data returned by a handler becomes a response in several steps.  What they amount to is a policy
that settles the form, the head and the body of the response each by itself.  The declared media
type decides how data is written, and the content type, where one is given, only how it is
labelled.  The policy leaves nothing open: it describes one response for all data but a native
response, which is refused.

Main definitions:

- `MediaType.AnnouncesJson`: the media types that ask for JSON.
- `Payload.usualStatus`, `Payload.usualType`: the status and the media type of data for which none
  is given.
- `Payload.BodyUnder`: the body of data under a declared media type.
- `Payload.FollowsPolicy`: the response that is built from data.

Main results:

- `MediaType.isJson_iff`: the test for JSON accepts exactly the media types that ask for it.
- `Payload.FollowsPolicy.unique`: the policy describes at most one response.
- `Payload.builds_by_policy`: the response that is built is the one that the policy describes.
-/

namespace ApiGateway

/-! ## JSON media types -/

namespace MediaType

/-- The names behind `application/` that stand for JSON. -/
def NamesJson (sub : Bytes) : Prop :=
  sub = Bytes.ofString "json" ∨ Bytes.ofString "+json" <:+ sub

/--
A media type that asks for JSON: `application/json`, or an `application/` type with the suffix
`+json`.  Blanks may follow, and then parameters behind a semicolon.
-/
def AnnouncesJson (mediaType : Bytes) : Prop :=
  ∃ sub blanks parameters,
    mediaType = Bytes.ofString "application/" ++ sub ++ blanks ++ parameters ∧ NamesJson sub ∧
      59 ∉ sub ∧ (∀ c ∈ blanks, c = 32) ∧ (parameters = [] ∨ ∃ rest, parameters = 59 :: rest)

/-- A name that stands for JSON ends with a letter. -/
theorem NamesJson.getLast? {sub : Bytes} (h : NamesJson sub) : sub.getLast? = some 110 := by
  rcases h with rfl | ⟨before, rfl⟩
  · decide
  · rw [List.getLast?_append]
    rfl

/-- The part of a media type before its parameters and the blanks in front of them. -/
theorem withoutParameters_eq_iff {mediaType name : Bytes} :
    withoutParameters mediaType = name ↔
      (∃ blanks parameters, mediaType = name ++ blanks ++ parameters ∧ 59 ∉ name ∧
        (∀ c ∈ blanks, c = 32) ∧ (parameters = [] ∨ ∃ rest, parameters = 59 :: rest)) ∧
        ∀ c, name.getLast? = some c → c ≠ 32 := by
  simp only [withoutParameters, Bytes.trimEnd_eq_iff, beq_iff_eq, beq_eq_false_iff_ne]
  refine and_congr_left fun _ => ?_
  constructor
  · rintro ⟨blanks, hcut, hblanks⟩
    rcases Bytes.cut_fst_eq_iff.1 hcut with ⟨hfree, parameters, hsplit, hparameters⟩
    exact ⟨blanks, parameters, hsplit, fun hmem => hfree (List.mem_append_left _ hmem), hblanks,
      hparameters⟩
  · rintro ⟨blanks, parameters, hsplit, hname, hblanks, hparameters⟩
    refine ⟨blanks, Bytes.cut_fst_eq_iff.2 ⟨?_, parameters, hsplit, hparameters⟩, hblanks⟩
    rw [List.mem_append, not_or]
    refine ⟨hname, fun hmem => ?_⟩
    exact absurd (hblanks 59 hmem) (by decide)

/-- The test for JSON looks at what is left without parameters. -/
theorem isJson_iff_withoutParameters {mediaType : Bytes} :
    isJson mediaType = true ↔
      ∃ sub, withoutParameters mediaType = Bytes.ofString "application/" ++ sub ∧
        NamesJson sub := by
  have htest (main sub : Bytes) :
      (main == Bytes.ofString "application" &&
          (sub == Bytes.ofString "json" || (Bytes.ofString "+json").isSuffixOf sub)) = true ↔
        main = Bytes.ofString "application" ∧ NamesJson sub := by
    rw [Bool.and_eq_true, Bool.or_eq_true, beq_iff_eq, beq_iff_eq, List.isSuffixOf_iff_suffix,
      NamesJson]
  have hslash (sub : Bytes) : Bytes.ofString "application/" ++ sub =
      Bytes.ofString "application" ++ 47 :: sub := rfl
  rw [isJson]
  constructor
  · intro h
    split at h
    · cases h
    · rename_i main sub hcut
      rcases (htest main sub).1 h with ⟨rfl, hsub⟩
      exact ⟨sub, (Bytes.cut_eq_some_iff.1 hcut).1, hsub⟩
  · rintro ⟨sub, hname, hsub⟩
    have hcut : Bytes.cut 47 (withoutParameters mediaType) =
        (Bytes.ofString "application", some sub) :=
      Bytes.cut_eq_some_iff.2 ⟨hname.trans (hslash sub), by decide⟩
    rw [hcut]
    exact (htest _ sub).2 ⟨rfl, hsub⟩

/-- The test for JSON accepts exactly the media types that ask for it. -/
theorem isJson_iff {mediaType : Bytes} : isJson mediaType = true ↔ AnnouncesJson mediaType := by
  rw [isJson_iff_withoutParameters]
  refine exists_congr fun sub => ?_
  have hsemicolon : 59 ∉ Bytes.ofString "application/" ++ sub ↔ 59 ∉ sub := by
    rw [List.mem_append, not_or]
    exact and_iff_right (by decide)
  rw [withoutParameters_eq_iff, hsemicolon]
  constructor
  · rintro ⟨⟨⟨blanks, parameters, hsplit, hfree, hblanks, hparameters⟩, -⟩, hsub⟩
    exact ⟨blanks, parameters, hsplit, hsub, hfree, hblanks, hparameters⟩
  · rintro ⟨blanks, parameters, hsplit, hsub, hfree, hblanks, hparameters⟩
    refine ⟨⟨⟨blanks, parameters, hsplit, hfree, hblanks, hparameters⟩, ?_⟩, hsub⟩
    intro c hlast
    rw [List.getLast?_append, hsub.getLast?] at hlast
    cases hlast
    decide

end MediaType

/-! ## The policy -/

namespace Payload

/-- The data is a JSON object or a JSON array. -/
def IsDocument (data : Payload) (v : Json.Value) : Prop :=
  data = .json v ∧ (v.kind = .object ∨ v.kind = .array)

/-- The status of data for which none is given. -/
def usualStatus : Payload → Int
  | .none => 204
  | _ => 200

/-- The media type of data for which none is given. -/
def usualType : Payload → Option Bytes
  | .text _ => some MediaType.text
  | .binary _ => some MediaType.binary
  | .json v => some (if v.isStructured then MediaType.json else MediaType.text)
  | _ => Option.none

/-- The declared media type asks for JSON. -/
def DeclaresJson (mediaType : Option Bytes) : Prop :=
  ∃ type, mediaType = some type ∧ MediaType.AnnouncesJson type

/--
The body of data under a declared media type.  Text is written as a JSON string where JSON is asked
for, and a JSON string as its bare text where it is not.
-/
inductive BodyUnder (mediaType : Option Bytes) : Payload → Option Bytes → Prop where
  | absent : BodyUnder mediaType .none Option.none
  | bytes (value : Bytes) : BodyUnder mediaType (.binary value) (some value)
  | encoded (value : Bytes) (hjson : DeclaresJson mediaType) :
      BodyUnder mediaType (.text value) (some (Json.Value.ofText value).dump)
  | text (value : Bytes) (hjson : ¬DeclaresJson mediaType) :
      BodyUnder mediaType (.text value) (some value)
  | document (v : Json.Value) (h : v.kind ≠ .string ∨ DeclaresJson mediaType) :
      BodyUnder mediaType (.json v) (some v.dump)
  | bare (v : Json.Value) (hkind : v.kind = .string) (hjson : ¬DeclaresJson mediaType) :
      BodyUnder mediaType (.json v) (some v.text)

/--
The response that is built from data.  It is a JSON response for an object or an array, and a plain
one otherwise.  A given status is kept, and so are the headers.  The media type is the content type,
else the declared media type, else the usual one.
-/
structure FollowsPolicy (data : Payload) (mediaType contentType : Option Bytes)
    (status : Option Int) (headers : Http.Headers) (res : Native) : Prop where
  json_iff : ∀ v, (∃ head, res = .json head v) ↔ data.IsDocument v
  plain_iff : (∃ head content, res = .plain head content) ↔ ∀ v, ¬data.IsDocument v
  head_eq : res.head =
    { status := status.getD data.usualStatus
      mediaType := contentType.or (mediaType.or data.usualType)
      headers := headers }
  body : BodyUnder mediaType data res.body?

section Policy

variable {data : Payload} {mediaType contentType : Option Bytes} {status : Option Int}
  {headers : Http.Headers}

/-- The test for a declared JSON media type. -/
theorem asksForJson_iff : asksForJson mediaType = true ↔ DeclaresJson mediaType := by
  simp only [asksForJson, Option.any_eq_true, MediaType.isJson_iff, DeclaresJson]

/-- Objects and arrays are structured. -/
theorem isStructured_iff {v : Json.Value} :
    v.isStructured = true ↔ v.kind = .object ∨ v.kind = .array := by
  rw [Json.Value.isStructured, Bool.or_eq_true, beq_iff_eq, beq_iff_eq, or_comm]

/-- Objects and arrays are JSON unless a media type is given. -/
theorem usualType_of_isStructured {v : Json.Value} (h : v.isStructured = true) :
    usualType (.json v) = some MediaType.json :=
  congrArg some (if_pos h)

/-- JSON scalars are plain text unless a media type is given. -/
theorem usualType_of_not_isStructured {v : Json.Value} (h : ¬v.isStructured = true) :
    usualType (.json v) = some MediaType.text :=
  congrArg some (if_neg h)

/-- The body is settled by the data and the declared media type. -/
theorem BodyUnder.unique {body body' : Option Bytes} (h : BodyUnder mediaType data body)
    (h' : BodyUnder mediaType data body') : body = body' := by
  cases h with
  | absent => cases h' with | absent => rfl
  | bytes => cases h' with | bytes => rfl
  | encoded value hjson =>
      cases h' with
      | encoded => rfl
      | text _ hnot => exact absurd hjson hnot
  | text value hnot =>
      cases h' with
      | encoded _ hjson => exact absurd hjson hnot
      | text => rfl
  | document v h =>
      cases h' with
      | document => rfl
      | bare _ hkind hnot =>
          rcases h with hother | hjson
          · exact absurd hkind hother
          · exact absurd hjson hnot
  | bare v hkind hnot =>
      cases h' with
      | document _ h =>
          rcases h with hother | hjson
          · exact absurd hkind hother
          · exact absurd hjson hnot
      | bare => rfl

/-- The policy describes at most one response. -/
theorem FollowsPolicy.unique {res res' : Native}
    (h : data.FollowsPolicy mediaType contentType status headers res)
    (h' : data.FollowsPolicy mediaType contentType status headers res') : res = res' := by
  have hhead : res.head = res'.head := h.head_eq.trans h'.head_eq.symm
  by_cases hdocument : ∃ v, data.IsDocument v
  · rcases hdocument with ⟨v, hdocument⟩
    rcases (h.json_iff v).2 hdocument with ⟨head, rfl⟩
    rcases (h'.json_iff v).2 hdocument with ⟨head', rfl⟩
    exact congrArg (Native.json · v) hhead
  · rw [not_exists] at hdocument
    rcases h.plain_iff.2 hdocument with ⟨head, content, rfl⟩
    rcases h'.plain_iff.2 hdocument with ⟨head', content', rfl⟩
    exact congrArg₂ Native.plain hhead (h.body.unique h'.body)

/-- A plain response follows the policy by its head and its body. -/
theorem followsPolicy_plain {head : Head} {content : Option Bytes}
    (hdocument : ∀ v, ¬data.IsDocument v)
    (hhead : head = ⟨status.getD data.usualStatus, contentType.or (mediaType.or data.usualType),
      headers⟩) (hbody : BodyUnder mediaType data content) :
    data.FollowsPolicy mediaType contentType status headers (.plain head content) where
  json_iff v := iff_of_false nofun (hdocument v)
  plain_iff := iff_of_true ⟨head, content, rfl⟩ hdocument
  head_eq := hhead
  body := hbody

/-- A JSON response for an object or an array follows the policy by its head. -/
theorem followsPolicy_json {head : Head} {v : Json.Value}
    (hkind : v.kind = .object ∨ v.kind = .array)
    (hhead : head = ⟨status.getD (usualStatus (.json v)),
      contentType.or (mediaType.or (usualType (.json v))), headers⟩) :
    FollowsPolicy (.json v) mediaType contentType status headers (.json head v) where
  json_iff w := by
    constructor
    · rintro ⟨_, ⟨⟩⟩
      exact ⟨rfl, hkind⟩
    · rintro ⟨⟨⟩, -⟩
      exact ⟨head, rfl⟩
  plain_iff := iff_of_false (by rintro ⟨_, _, ⟨⟩⟩) fun h => h v ⟨rfl, hkind⟩
  head_eq := hhead
  body := .document v (.inl (by rcases hkind with h | h <;> rw [h] <;> decide))

/-- What is no JSON value is no document. -/
theorem not_isDocument (h : ∀ v, data ≠ .json v) (v : Json.Value) : ¬data.IsDocument v :=
  fun hdocument => h v hdocument.1

/-- Data that is no native response is answered as it is prepared. -/
theorem respond_eq_ok (h : ∀ res, data ≠ .native res) :
    data.respond mediaType contentType status headers =
      .ok (Prepared.respond (data.prepare mediaType status)
        ((contentType.or (mediaType.or (data.prepare mediaType status).mediaType)).or
          (data.prepare mediaType status).data.defaultMediaType) headers) := by
  cases data with
  | native res => exact absurd rfl (h res)
  | _ => rfl

/-- Data that is prepared as text is answered with this text, by default as plain text. -/
theorem respond_of_prepare_text {body : Bytes} (hnative : ∀ res, data ≠ .native res)
    (hprepare : data.prepare mediaType status = ⟨.text body, status.getD 200, mediaType⟩) :
    data.respond mediaType contentType status headers =
      .ok (.plain ⟨status.getD 200, contentType.or (mediaType.or (some MediaType.text)), headers⟩
        (some body)) := by
  rw [respond_eq_ok hnative, hprepare, Option.or_self, Option.or_assoc]
  rfl

/-- No content is answered by the policy. -/
theorem exists_respond_none (mediaType contentType : Option Bytes) (status : Option Int)
    (headers : Http.Headers) :
    ∃ res, respond .none mediaType contentType status headers = .ok res ∧
      FollowsPolicy .none mediaType contentType status headers res := by
  refine ⟨.plain ⟨status.getD 204, contentType.or (mediaType.or Option.none), headers⟩
    Option.none, ?_, followsPolicy_plain (not_isDocument nofun) rfl .absent⟩
  cases status with
  | none => simp only [respond, prepare, defaultMediaType, Option.or_none, Prepared.respond,
      scalarBody, Option.getD_none]
  | some code => rw [respond_none, Option.or_none, Option.getD_some]

/-- Bytes are answered by the policy. -/
theorem exists_respond_binary (value : Bytes) (mediaType contentType : Option Bytes)
    (status : Option Int) (headers : Http.Headers) :
    ∃ res, respond (.binary value) mediaType contentType status headers = .ok res ∧
      FollowsPolicy (.binary value) mediaType contentType status headers res := by
  refine ⟨_, respond_binary value mediaType contentType status headers,
    followsPolicy_plain (not_isDocument nofun) ?_ (.bytes value)⟩
  rw [Option.or_assoc]
  rfl

/-- Text is answered by the policy. -/
theorem exists_respond_text (value : Bytes) (mediaType contentType : Option Bytes)
    (status : Option Int) (headers : Http.Headers) :
    ∃ res, respond (.text value) mediaType contentType status headers = .ok res ∧
      FollowsPolicy (.text value) mediaType contentType status headers res := by
  cases hjson : asksForJson mediaType with
  | true =>
      exact ⟨_, respond_of_prepare_text nofun (if_pos hjson),
        followsPolicy_plain (not_isDocument nofun) rfl (.encoded value (asksForJson_iff.1 hjson))⟩
  | false =>
      have hnot := Bool.eq_false_iff.1 hjson
      exact ⟨_, respond_of_prepare_text nofun (if_neg hnot),
        followsPolicy_plain (not_isDocument nofun) rfl (.text value (mt asksForJson_iff.2 hnot))⟩

/-- The bare text of a scalar is a body for it where JSON is not asked for. -/
theorem bodyUnder_scalarText (v : Json.Value) (hjson : ¬DeclaresJson mediaType) :
    BodyUnder mediaType (.json v) (some (scalarText v)) := by
  by_cases hkind : v.kind = .string
  · rw [scalarText, if_pos hkind]
    exact .bare v hkind hjson
  · rw [scalarText, if_neg hkind]
    exact .document v (.inl hkind)

/-- A JSON object or array is answered by the policy. -/
theorem exists_respond_document (v : Json.Value) (hshape : v.isStructured = true)
    (mediaType contentType : Option Bytes) (status : Option Int) (headers : Http.Headers) :
    ∃ res, respond (.json v) mediaType contentType status headers = .ok res ∧
      FollowsPolicy (.json v) mediaType contentType status headers res := by
  have hdocument := isStructured_iff.1 hshape
  have hprepare : prepare (.json v) mediaType status =
      ⟨.json v, status.getD 200, some (mediaType.getD MediaType.json)⟩ := if_pos hshape
  have hrespond : respond (.json v) mediaType contentType status headers =
      .ok (.json ⟨status.getD 200, contentType.or (mediaType.or (some MediaType.json)), headers⟩
        v) := by
    have hnative (res : Native) : Payload.json v ≠ .native res := Payload.noConfusion
    rw [respond_eq_ok hnative, hprepare, Prepared.respond]
    dsimp only
    rw [if_pos hshape, Native.ofJson]
    cases contentType <;> cases mediaType <;> rfl
  have hhead : (⟨status.getD 200, contentType.or (mediaType.or (some MediaType.json)), headers⟩ :
      Head) = ⟨status.getD (usualStatus (.json v)),
        contentType.or (mediaType.or (usualType (.json v))), headers⟩ := by
    rw [usualType_of_isStructured hshape]
    rfl
  exact ⟨_, hrespond, followsPolicy_json hdocument hhead⟩

/-- A JSON scalar is answered by the policy. -/
theorem exists_respond_scalar (v : Json.Value) (hshape : ¬v.isStructured = true)
    (mediaType contentType : Option Bytes) (status : Option Int) (headers : Http.Headers) :
    ∃ res, respond (.json v) mediaType contentType status headers = .ok res ∧
      FollowsPolicy (.json v) mediaType contentType status headers res := by
  have hdocument (w : Json.Value) : ¬IsDocument (.json v) w := by
    rintro ⟨hdata, hkind⟩
    cases hdata
    exact hshape (isStructured_iff.2 hkind)
  have hhead : (⟨status.getD 200, contentType.or (mediaType.or (some MediaType.text)), headers⟩ :
      Head) = ⟨status.getD (usualStatus (.json v)),
        contentType.or (mediaType.or (usualType (.json v))), headers⟩ := by
    rw [usualType_of_not_isStructured hshape]
    rfl
  cases hjson : asksForJson mediaType with
  | true =>
      have hprepare : prepare (.json v) mediaType status = ⟨.text v.dump, status.getD 200,
        mediaType⟩ := (if_neg hshape).trans (if_pos hjson)
      exact ⟨_, respond_of_prepare_text nofun hprepare, followsPolicy_plain hdocument hhead
        (.document v (.inr (asksForJson_iff.1 hjson)))⟩
  | false =>
      have hnot := Bool.eq_false_iff.1 hjson
      have hprepare : prepare (.json v) mediaType status = ⟨.text (scalarText v),
        status.getD 200, mediaType⟩ := (if_neg hshape).trans (if_neg hnot)
      exact ⟨_, respond_of_prepare_text nofun hprepare, followsPolicy_plain hdocument hhead
        (bodyUnder_scalarText v (mt asksForJson_iff.2 hnot))⟩

/-- All data but a native response is answered by the policy. -/
theorem exists_respond (h : ∀ res, data ≠ .native res) :
    ∃ res, data.respond mediaType contentType status headers = .ok res ∧
      data.FollowsPolicy mediaType contentType status headers res := by
  cases data with
  | none => exact exists_respond_none mediaType contentType status headers
  | text value => exact exists_respond_text value mediaType contentType status headers
  | binary value => exact exists_respond_binary value mediaType contentType status headers
  | json v =>
      by_cases hshape : v.isStructured = true
      · exact exists_respond_document v hshape mediaType contentType status headers
      · exact exists_respond_scalar v hshape mediaType contentType status headers
  | native res => exact absurd rfl (h res)

end Policy

/--
Building a response fails for a native response, whatever else is given, and only for it.  The
response that is built from any other data is the one that the policy describes.
-/
theorem builds_by_policy (data : Payload) (mediaType contentType : Option Bytes)
    (status : Option Int) (headers : Http.Headers) :
    (∀ e, data.respond mediaType contentType status headers = .error e ↔
      (∃ res, data = .native res) ∧ e = nestedNative) ∧
    (∀ res, data.respond mediaType contentType status headers = .ok res ↔
      data.FollowsPolicy mediaType contentType status headers res) := by
  by_cases hnative : ∃ value, data = .native value
  · rcases hnative with ⟨value, rfl⟩
    have hrefused : respond (.native value) mediaType contentType status headers =
      .error nestedNative := rfl
    rw [hrefused]
    refine ⟨fun e => ?_, fun res => iff_of_false nofun fun h => ?_⟩
    · rw [Except.error.injEq, and_iff_right ⟨value, rfl⟩, eq_comm]
    · cases h.body
  · rw [not_exists] at hnative
    rcases exists_respond hnative with ⟨built, hbuilt, hpolicy⟩
    refine ⟨fun e => iff_of_false ?_ fun h => ?_, fun res => ?_⟩
    · rw [hbuilt]
      exact nofun
    · rcases h.1 with ⟨value, rfl⟩
      exact hnative value rfl
    · rw [hbuilt]
      constructor
      · rintro ⟨⟩
        exact hpolicy
      · intro h
        rw [hpolicy.unique h]

/-- A content type only labels the body: text that is not declared as JSON is sent as it is. -/
example : respond (.text (Bytes.ofString "a")) .none (some MediaType.json) .none [] =
    .ok (.plain ⟨200, some MediaType.json, []⟩ (some (Bytes.ofString "a"))) :=
  rfl

end Payload
end ApiGateway
