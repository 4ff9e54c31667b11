import ApiGateway.Proofs.CanonicalForms
import ApiGateway.Proofs.Suspension
import Mathlib.Data.List.Forall2

/-!
# Sent responses

A response is framed when it is sent: headers are added to its own, and its body is cut
into chunks.  Whatever its form, the first message says its status and begins with its
headers, and the chunks carry the body that it holds.  Nothing of this depends on how the
host takes the messages, except that a file may be missing, and then nothing is handed over.

Main definitions:

- `Http.Headers.LeadIn`: headers that stand in front of others, up to the value of a length.
- `Native.IsFile`, `Native.IsMissing`: file responses, and those whose file cannot be opened.

Main results:

- `Native.starts_or_isMissing`: a response is started with its status and headers, unless its
  file is missing.
- `Native.bodyOf_messages_send`: a response that is sent to its end carries its body.
-/

namespace ApiGateway

variable {E : Signature} {σ : Type}

/-! ## Headers of the start -/

/-- An entry as it is, or a content length whose value may be another. -/
def Http.Headers.SameButLength (resized : Prop) (entry kept : Bytes × Bytes) : Prop :=
  kept = entry ∨ resized ∧ Http.Headers.named contentLengthName entry ∧ kept.1 = entry.1

/--
The headers stand in front of the others, each entry in its place; the value of a content length
may be another one where lengths are settled anew.
-/
def Http.Headers.LeadIn (resized : Prop) (headers others : Http.Headers) : Prop :=
  ∃ kept added, others = kept ++ added ∧ List.Forall₂ (SameButLength resized) headers kept

namespace Http.Headers

variable {resized : Prop}

/-- Headers stand in front of what is appended to them. -/
theorem leadIn_append (headers added : Headers) : headers.LeadIn resized (headers ++ added) :=
  ⟨headers, added, rfl, List.forall₂_same.2 fun _ _ => .inl rfl⟩

/-- Setting a name that is not there leaves the headers in front. -/
theorem LeadIn.set_new {headers others : Headers} (h : headers.LeadIn resized others)
    {name : Bytes} (hnew : others.contains name = false) (value : Bytes) :
    headers.LeadIn resized (others.set name value) := by
  rcases h with ⟨kept, added, rfl, hkept⟩
  rw [set_eq_add_of_contains_eq_false hnew, add, List.append_assoc]
  exact ⟨kept, _, rfl, hkept⟩

/-- Setting the content length changes no more than the value of a content length. -/
theorem leadIn_set_append (hresized : resized) (headers added : Headers) (value : Bytes) :
    headers.LeadIn resized ((headers ++ added).set contentLengthName value) := by
  induction headers with
  | nil => exact ⟨[], _, rfl, .nil⟩
  | cons entry rest ih =>
      rw [List.cons_append, set]
      split
      · rename_i hnamed
        exact ⟨(entry.1, value) :: rest, added, rfl,
          .cons (.inr ⟨hresized, hnamed, rfl⟩) (List.forall₂_same.2 fun _ _ => .inl rfl)⟩
      · rcases ih with ⟨kept, added', hset, hkept⟩
        rw [hset]
        exact ⟨entry :: kept, added', rfl, .cons (.inl rfl) hkept⟩

end Http.Headers

namespace Native

/-- Whether the body of a response is read from a file. -/
def IsFile : Native → Prop
  | .file _ _ => True
  | _ => False

/-- A content type is appended to the headers, if it is added at all. -/
theorem exists_startHeaders_eq (headers : Http.Headers) (mediaType : Option Bytes) :
    ∃ added, startHeaders headers mediaType = headers ++ added := by
  cases mediaType with
  | none => exact ⟨[], (List.append_nil _).symm⟩
  | some type =>
      rw [startHeaders]
      split
      · exact ⟨[], (List.append_nil _).symm⟩
      · rename_i hnew
        rw [Http.Headers.set_eq_add_of_contains_eq_false (Bool.eq_false_iff.2 hnew)]
        exact ⟨_, rfl⟩

/-- The headers of a response stand in front of those of its start. -/
theorem leadIn_startHeaders (resized : Prop) (headers : Http.Headers)
    (mediaType : Option Bytes) : headers.LeadIn resized (startHeaders headers mediaType) := by
  rcases exists_startHeaders_eq headers mediaType with ⟨added, hadded⟩
  rw [hadded]
  exact Http.Headers.leadIn_append headers added

/-- A response whose body is at hand is framed as a start with its headers and one chunk. -/
theorem exists_wholeMessages_eq (resized : Prop) (head : Head) (body : Bytes) :
    ∃ headers, wholeMessages head body = [.start head.status headers, .body body false] ∧
      head.headers.LeadIn resized headers := by
  refine ⟨_, rfl, ?_⟩
  have hstart := leadIn_startHeaders resized head.headers head.mediaType
  split
  · exact hstart
  · rename_i hnew
    exact hstart.set_new (Bool.eq_false_iff.2 hnew) _

/-- A file response is framed as a start with its headers, up to the length, and chunks. -/
theorem exists_fileMessages_eq (head : Head) (path content : Bytes) :
    ∃ headers, fileMessages head path content =
        .start head.status headers :: bodyMessages (Bytes.chunks fileChunkSize content) ∧
      head.headers.LeadIn True headers := by
  refine ⟨_, rfl, ?_⟩
  rcases exists_startHeaders_eq head.headers
    (some (head.mediaType.getD (MediaType.ofFileName path))) with ⟨added, hadded⟩
  rw [hadded]
  exact Http.Headers.leadIn_set_append trivial head.headers added _

end Native

/-! ## Runs of sending -/

namespace Exchange

/-- Sending one message hands it over. -/
theorem messages_send (host : Host (Exchange E) σ) (message : Message) (s : σ) :
    Event.messages ((send message).transcript host s) = [message] := by
  rw [transcript_send]
  rfl

/-- Sending messages hands over the first of them. -/
theorem exists_messages_sendAll_cons (host : Host (Exchange E) σ) (message : Message)
    (rest : List Message) (s : σ) :
    ∃ others, Event.messages ((sendAll (message :: rest)).transcript host s) =
      message :: others :=
  ⟨_, rfl⟩

/-- Sending messages hands over all of them if none is refused. -/
theorem messages_sendAll (host : Host (Exchange E) σ) {messages : List Message} {s : σ}
    (h : ((sendAll messages).run host s).outcome = .ok ()) :
    Event.messages ((sendAll messages).transcript host s) = messages := by
  induction messages generalizing s with
  | nil => rfl
  | cons message rest ih =>
      cases hone : ((send message).run host s).outcome with
      | error e =>
          rw [sendAll, Prog.outcome_bind_of_error _ hone] at h
          cases h
      | ok _ =>
          rw [sendAll, Prog.outcome_bind_of_ok _ hone] at h
          rw [sendAll, Prog.transcript_bind_of_ok _ hone, Event.messages_append, ih h,
            messages_send]
          rfl

end Exchange

namespace Native

/-- The file of a response cannot be opened. -/
def IsMissing (res : Native) (host : Host (Exchange E) σ) (s : σ) : Prop :=
  ∃ head path, res = .file head path ∧ (host.answer (.readFile path) s).1 = none

section Files

variable {host : Host (Exchange E) σ} {head : Head} {path : Bytes} {s : σ}

/-- What sending a file response goes on with, once its file has been looked for. -/
def sendFound (head : Head) (path : Bytes) : Option Bytes → Prog (Exchange E) Unit
  | none => .fault (.gateway .fileNotFound path)
  | some content => Exchange.sendAll (fileMessages head path content)

/-- Sending a file begins with looking for it. -/
theorem transcript_send_file :
    (send (.file head path)).transcript host s =
      .call (.readFile path) (host.answer (.readFile path) s).1 ::
        (sendFound head path (host.answer (.readFile path) s).1).transcript host
          (host.answer (.readFile path) s).2 :=
  rfl

/-- Sending a file ends as what follows the looking for it. -/
theorem outcome_send_file :
    ((send (.file head path)).run host s).outcome =
      ((sendFound head path (host.answer (.readFile path) s).1).run host
        (host.answer (.readFile path) s).2).outcome :=
  rfl

/-- A file that can be opened is sent after it has been read. -/
theorem messages_send_file {content : Bytes}
    (h : (host.answer (.readFile path) s).1 = some content) :
    Event.messages ((send (.file head path)).transcript host s) =
      Event.messages ((Exchange.sendAll (fileMessages head path content)).transcript host
        (host.answer (.readFile path) s).2) := by
  rw [transcript_send_file, h]
  rfl

/-- A missing file is a fault that is noticed before anything is handed over. -/
theorem send_missing (head : Head) (h : (host.answer (.readFile path) s).1 = none) :
    (send (.file head path)).transcript host s = [.call (.readFile path) none] ∧
      ((send (.file head path)).run host s).outcome = .error (.gateway .fileNotFound path) := by
  rw [transcript_send_file, outcome_send_file, h]
  exact ⟨rfl, rfl⟩

end Files

/-- A response whose body is at hand is started with its status and with its headers in front. -/
theorem starts_of_isMaterialized {res : Native} (h : res.IsMaterialized)
    (host : Host (Exchange E) σ) (s : σ) :
    ∃ headers rest, Event.messages (res.send.transcript host s) =
      .start res.status headers :: rest ∧ res.head.headers.LeadIn res.IsFile headers := by
  rcases exists_wholeMessages_eq res.IsFile res.head (res.body?.getD []) with
    ⟨headers, hframe, hlead⟩
  rcases Exchange.exists_messages_sendAll_cons host (.start res.head.status headers)
    [.body (res.body?.getD []) false] s with ⟨others, hothers⟩
  refine ⟨headers, others, ?_, hlead⟩
  rw [send_of_isMaterialized h, hframe]
  exact hothers

/--
A response is started with its status, and with its headers in front, unless its file is missing.
-/
theorem starts_or_isMissing (res : Native) (host : Host (Exchange E) σ) (s : σ) :
    (∃ headers rest, Event.messages (res.send.transcript host s) =
        .start res.status headers :: rest ∧ res.head.headers.LeadIn res.IsFile headers) ∨
      res.IsMissing host s := by
  cases res with
  | plain head content =>
      have hmaterialized : (Native.plain head content).IsMaterialized := trivial
      exact .inl (starts_of_isMaterialized hmaterialized host s)
  | json head content =>
      have hmaterialized : (Native.json head content).IsMaterialized := trivial
      exact .inl (starts_of_isMaterialized hmaterialized host s)
  | stream head chunks =>
      exact .inl ⟨_, _, rfl, leadIn_startHeaders False head.headers head.mediaType⟩
  | file head path =>
      cases hread : (host.answer (.readFile path) s).1 with
      | none => exact .inr ⟨head, path, rfl, hread⟩
      | some content =>
          rcases exists_fileMessages_eq head path content with ⟨headers, hframe, hlead⟩
          rcases Exchange.exists_messages_sendAll_cons host (.start head.status headers)
            (bodyMessages (Bytes.chunks fileChunkSize content))
            (host.answer (.readFile path) s).2 with ⟨others, hothers⟩
          refine .inl ⟨headers, others, ?_, hlead⟩
          rw [messages_send_file hread, hframe]
          exact hothers

/-- A response that is sent without fault carries the body that it holds. -/
theorem bodyOf_messages_send {res : Native} {host : Host (Exchange E) σ} {s : σ}
    (h : (res.send.run host s).outcome = .ok ()) {body : Bytes} (hbody : res.body? = some body) :
    Message.bodyOf (Event.messages (res.send.transcript host s)) = body := by
  have hmaterialized : res.IsMaterialized := by
    cases res with
    | plain head content => exact trivial
    | json head content => exact trivial
    | stream head chunks => cases hbody
    | file head path => cases hbody
  rw [send_of_isMaterialized hmaterialized, hbody, Option.getD_some] at h ⊢
  rw [Exchange.messages_sendAll host h]
  exact List.append_nil body

end Native

/-- The answer to a fault starts with the status of its problem. -/
theorem Rendering.exists_messages_answer {e : Fault} {r : Rendering} (h : of? e = some r)
    (host : Host (Exchange E) σ) (s : σ) :
    ∃ headers rest, Event.messages ((answer e).transcript host s) =
      .start r.details.status headers :: rest := by
  rw [answer, h]
  rcases (Native.ofProblem r.details).starts_or_isMissing host (host.answer (.log r.entry) s).2 with
    ⟨headers, rest, hstart, -⟩ | ⟨head, path, hfile, -⟩
  · exact ⟨headers, rest, hstart⟩
  · cases hfile

end ApiGateway
