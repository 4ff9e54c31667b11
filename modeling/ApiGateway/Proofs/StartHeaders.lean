import ApiGateway.Proofs.FramedResponses
import ApiGateway.Proofs.ResponseOrder

/-!
# Headers of the start

The start of a response has the response's own headers in front, entry by entry and in their order.
Behind them stand at most a content type and a content length, each only where it is due and the
response has none of its own, in whatever case of letters.  Nothing of the response's own headers
is changed but the first content length of a file, which becomes the size of the file.

Main definitions:

- `Http.Headers.Supplement`: an entry that is appended exactly where it is due and not given.
- `MediaType.AnnouncedAs`: the value of the content type of a media type.
- `Native.knownType?`, `Native.length?`: the media type and the length of a response.
- `Native.Keeps`: the response's own headers as they stand in its start.

Main results:

- `Native.exists_startHeaders`, `Native.exists_wholeHeaders`, `Native.exists_fileHeaders`: the
  headers of a start, form by form.
- `Native.send_keeps_headers`: every response that is sent is started with its own headers.
-/

namespace ApiGateway

variable {E : Signature} {σ : Type}

/-! ## Supplements -/

/--
What is appended to headers under a name: one entry, if a value is due and no entry has the name,
whatever the case of its letters, and nothing otherwise.
-/
inductive Http.Headers.Supplement (headers : Headers) (name : Bytes) (due : Bytes → Prop) :
    Headers → Prop where
  | added {value : Bytes} (hdue : due value)
      (hnew : ∀ entry ∈ headers, Bytes.sameIgnoringCase entry.1 name = false) :
      Supplement headers name due [(name, value)]
  | undue (hdue : ∀ value, ¬due value) : Supplement headers name due []
  | given (hgiven : ∃ entry ∈ headers, Bytes.sameIgnoringCase entry.1 name = true) :
      Supplement headers name due []

namespace Http.Headers

/--
A name that is set only where it is missing is a supplement, also behind entries that have been
appended under other names.
-/
theorem exists_supplement {headers others added : Headers} {name value : Bytes}
    {due : Bytes → Prop} (hothers : others = headers ++ added)
    (hsame : others.get? name = headers.get? name) (hdue : due value) :
    ∃ more, (if others.contains name then others else others.set name value) =
        headers ++ added ++ more ∧ headers.Supplement name due more := by
  have hcontains : others.contains name = headers.contains name := by
    rw [contains, contains, hsame]
  rw [← hothers]
  cases hgiven : headers.contains name with
  | true =>
      rw [hcontains, hgiven, if_pos rfl]
      exact ⟨[], (List.append_nil _).symm, .given (contains_iff.1 hgiven)⟩
  | false =>
      rw [hcontains, hgiven, if_neg Bool.false_ne_true,
        set_eq_add_of_contains_eq_false (hcontains.trans hgiven)]
      exact ⟨[(name, value)], rfl, .added hdue (contains_eq_false_iff.1 hgiven)⟩

end Http.Headers

/-! ## Media types -/

/-- A text occurs in another one if it is a part of it. -/
theorem Bytes.occursIn_iff {text s : Bytes} : occursIn text s = true ↔ text <:+: s := by
  induction s with
  | nil => rw [occursIn, List.isEmpty_iff, List.infix_nil]
  | cons c rest ih =>
      rw [occursIn, Bool.or_eq_true, List.isPrefixOf_iff_prefix, ih, List.infix_cons_iff]

/--
The content type with which a media type is announced: text that does not name a charset is
announced as UTF-8, and every other media type as it is.
-/
inductive MediaType.AnnouncedAs (mediaType : Bytes) : Bytes → Prop where
  | text (htext : Bytes.ofString "text/" <+: mediaType)
      (hplain : ¬Bytes.ofString "charset" <:+: mediaType) :
      AnnouncedAs mediaType (mediaType ++ Bytes.ofString "; charset=utf-8")
  | other (hother : ¬Bytes.ofString "text/" <+: mediaType) : AnnouncedAs mediaType mediaType
  | named (hnamed : Bytes.ofString "charset" <:+: mediaType) : AnnouncedAs mediaType mediaType

/-- A media type is announced by its header value. -/
theorem MediaType.announcedAs_withCharset (mediaType : Bytes) :
    AnnouncedAs mediaType (withCharset mediaType) := by
  by_cases htext : Bytes.ofString "text/" <+: mediaType
  · rw [withCharset, List.isPrefixOf_iff_prefix.2 htext, Bool.true_and]
    cases hcharset : Bytes.occursIn (Bytes.ofString "charset") mediaType with
    | true => exact .named (Bytes.occursIn_iff.1 hcharset)
    | false =>
        refine .text htext fun hnamed => ?_
        rw [Bytes.occursIn_iff.2 hnamed] at hcharset
        cases hcharset
  · have hprefix : (Bytes.ofString "text/").isPrefixOf mediaType = false :=
      Bool.eq_false_iff.2 (mt List.isPrefixOf_iff_prefix.1 htext)
    rw [withCharset, hprefix]
    exact .other htext

/-! ## What the start of a response says -/

namespace Native

/-- The media type of a response, if it is known: that of a file is guessed from its name. -/
def knownType? : Native → Option Bytes
  | .file head path => some (head.mediaType.getD (MediaType.ofFileName path))
  | res => res.head.mediaType

/-- The length of a body, where files have these contents; that of a stream is not known. -/
def length? (contents : Bytes → Option Bytes) : Native → Option Nat
  | .plain _ content => some (content.getD []).length
  | .json _ content => some content.dump.length
  | .stream _ _ => none
  | .file _ path => (contents path).map List.length

/--
The response's own headers in its start, if its body has that length.  They are as they were,
except that the first content length of a file is the length of the file.
-/
inductive Keeps (res : Native) (length : Option Nat) : Http.Headers → Prop where
  | unchanged (h : ¬res.IsFile ∨
      ∀ entry ∈ res.head.headers, Bytes.sameIgnoringCase entry.1 contentLengthName = false) :
      Keeps res length res.head.headers
  | resized {before after : Http.Headers} {stored value : Bytes} {size : Nat} (hfile : res.IsFile)
      (hheaders : res.head.headers = before ++ (stored, value) :: after)
      (hnamed : Bytes.sameIgnoringCase stored contentLengthName = true)
      (hbefore : ∀ entry ∈ before, Bytes.sameIgnoringCase entry.1 contentLengthName = false)
      (hsize : length = some size) :
      Keeps res length (before ++ (stored, Bytes.ofNat size) :: after)

/-- The content type that is due to a response. -/
def DueType (mediaType : Option Bytes) (value : Bytes) : Prop :=
  ∃ type, mediaType = some type ∧ MediaType.AnnouncedAs type value

/-- The content length that is due to a response. -/
def DueLength (length : Option Nat) (value : Bytes) : Prop :=
  ∃ size, length = some size ∧ value = Bytes.ofNat size

/-- Without a known length no content length is appended. -/
theorem supplement_length_none (headers : Http.Headers) :
    headers.Supplement contentLengthName (DueLength none) [] :=
  .undue (by
    rintro value ⟨size, hsize, -⟩
    cases hsize)

/-- A content type is appended where it is due and not given. -/
theorem exists_startHeaders (headers : Http.Headers) (mediaType : Option Bytes) :
    ∃ typed, startHeaders headers mediaType = headers ++ typed ∧
      headers.Supplement contentTypeName (DueType mediaType) typed := by
  cases mediaType with
  | none =>
      refine ⟨[], (List.append_nil _).symm, .undue ?_⟩
      rintro value ⟨type, htype, -⟩
      cases htype
  | some type =>
      have hdue : DueType (some type) (MediaType.withCharset type) :=
        ⟨type, rfl, MediaType.announcedAs_withCharset type⟩
      rcases Http.Headers.exists_supplement (List.append_nil headers).symm rfl hdue with
        ⟨typed, htyped, hsupplement⟩
      rw [List.append_nil] at htyped
      exact ⟨typed, htyped, hsupplement⟩

/-- A content length is appended behind the content type, where the body is at hand. -/
theorem exists_wholeHeaders (head : Head) (body : Bytes) :
    ∃ typed sized, wholeHeaders head body = head.headers ++ typed ++ sized ∧
      head.headers.Supplement contentTypeName (DueType head.mediaType) typed ∧
      head.headers.Supplement contentLengthName (DueLength (some body.length)) sized := by
  rcases exists_startHeaders head.headers head.mediaType with ⟨typed, hstart, htyped⟩
  have hdue : DueLength (some body.length) (Bytes.ofNat body.length) := ⟨_, rfl, rfl⟩
  rcases Http.Headers.exists_supplement hstart (get?_length_startHeaders _ _) hdue with
    ⟨sized, hsized, hsupplement⟩
  exact ⟨typed, sized, hsized, htyped, hsupplement⟩

/-- The content length of a file replaces the first one that is given, or is appended. -/
theorem exists_fileHeaders (head : Head) (path : Bytes) (size : Nat) :
    let res := Native.file head path
    ∃ kept typed sized,
      (startHeaders head.headers res.knownType?).set contentLengthName (Bytes.ofNat size) =
          kept ++ typed ++ sized ∧
        res.Keeps (some size) kept ∧
        head.headers.Supplement contentTypeName (DueType res.knownType?) typed ∧
        head.headers.Supplement contentLengthName (DueLength (some size)) sized := by
  intro res
  rcases exists_startHeaders head.headers res.knownType? with ⟨typed, hstart, htyped⟩
  have hsame := get?_length_startHeaders head.headers res.knownType?
  cases hlength : head.headers.get? contentLengthName with
  | none =>
      have hnew := Http.Headers.get?_eq_none_iff.1 hlength
      have hfree :
          (startHeaders head.headers res.knownType?).contains contentLengthName = false := by
        rw [Http.Headers.contains, hsame, hlength]
        rfl
      rw [Http.Headers.set_eq_add_of_contains_eq_false hfree, hstart]
      exact ⟨head.headers, typed, _, rfl, .unchanged (.inr hnew), htyped,
        .added ⟨size, rfl, rfl⟩ hnew⟩
  | some value =>
      rcases Http.Headers.get?_eq_some_iff.1 hlength with
        ⟨before, stored, after, hheaders, hnamed, hbefore⟩
      have hgiven : (stored, value) ∈ head.headers := by
        rw [hheaders]
        exact List.mem_append_right before List.mem_cons_self
      refine ⟨before ++ (stored, Bytes.ofNat size) :: after, typed, [], ?_,
        .resized trivial hheaders hnamed hbefore rfl, htyped, .given ⟨_, hgiven, hnamed⟩⟩
      rw [hstart, hheaders, List.append_assoc, List.cons_append,
        Http.Headers.set_append_cons _ _ _ hnamed hbefore, List.append_nil, List.append_assoc,
        List.cons_append]

/-! ## The start of a response that is sent -/

/--
The messages are one start and chunks behind it.  The start has the status of the response, and its
headers are the response's own, then a content type if a media type is known and the headers have
none, then a content length if the length is known and the headers have none.
-/
def StartedWithHeaders (res : Native) (contents : Bytes → Option Bytes)
    (messages : List Message) : Prop :=
  ∃ kept typed sized rest,
    messages = .start res.status (kept ++ typed ++ sized) :: rest ∧
      rest.countP Message.isStart = 0 ∧
      res.Keeps (res.length? contents) kept ∧
      res.head.headers.Supplement contentTypeName (DueType res.knownType?) typed ∧
      res.head.headers.Supplement contentLengthName (DueLength (res.length? contents)) sized

/-- No other start follows the first message of a response. -/
theorem countP_isStart_of_messages_send {res : Native} {host : Host (Exchange E) σ} {s : σ}
    {status : Int} {headers : Http.Headers} {rest : List Message}
    (h : Event.messages (res.send.transcript host s) = .start status headers :: rest) :
    rest.countP Message.isStart = 0 := by
  rcases (Prog.Obeys.send res).run host s with ⟨reached, hstages, -⟩
  rw [h] at hstages
  exact ResponseStage.countP_isStart_of_streaming hstages

/-- A response whose body is at hand is started with its own headers. -/
theorem startedWithHeaders_of_isMaterialized {res : Native} (h : res.IsMaterialized)
    (hknown : res.knownType? = res.head.mediaType) (hfile : ¬res.IsFile)
    {contents : Bytes → Option Bytes}
    (hlength : res.length? contents = some (res.body?.getD []).length)
    (host : Host (Exchange E) σ) (s : σ) :
    res.StartedWithHeaders contents (Event.messages (res.send.transcript host s)) := by
  rcases exists_wholeHeaders res.head (res.body?.getD []) with
    ⟨typed, sized, hheaders, htyped, hsized⟩
  rcases Exchange.exists_messages_sendAll_cons host
    (.start res.status (wholeHeaders res.head (res.body?.getD [])))
    [.body (res.body?.getD []) false] s with ⟨rest, hsent⟩
  rw [hheaders] at hsent
  have hmessages : Event.messages (res.send.transcript host s) =
      .start res.status (res.head.headers ++ typed ++ sized) :: rest := by
    rw [send_of_isMaterialized h, wholeMessages_eq, hheaders]
    exact hsent
  rw [← hknown] at htyped
  rw [← hlength] at hsized
  exact ⟨_, typed, sized, rest, hmessages, countP_isStart_of_messages_send hmessages,
    .unchanged (.inl hfile), htyped, hsized⟩

/--
Sending never loses, reorders or overrides headers.  Whatever the host does, a response is started
with its own headers and what is due behind them, unless its file is missing and nothing is sent.
-/
theorem send_keeps_headers (res : Native) (host : Host (Exchange E) σ) (s : σ) :
    let messages := Event.messages (res.send.transcript host s)
    res.IsMissing host s ∧ messages = [] ∨
      res.StartedWithHeaders (fun path => (host.answer (.readFile path) s).1) messages := by
  intro messages
  cases res with
  | plain head content =>
      have hmaterialized : (Native.plain head content).IsMaterialized := trivial
      exact .inr (startedWithHeaders_of_isMaterialized hmaterialized rfl id rfl host s)
  | json head content =>
      have hmaterialized : (Native.json head content).IsMaterialized := trivial
      exact .inr (startedWithHeaders_of_isMaterialized hmaterialized rfl id rfl host s)
  | stream head chunks =>
      rcases exists_startHeaders head.headers head.mediaType with ⟨typed, hstart, htyped⟩
      have hmessages : ∃ rest, messages =
          .start head.status (head.headers ++ typed ++ []) :: rest := by
        rw [List.append_nil, ← hstart]
        exact ⟨_, rfl⟩
      rcases hmessages with ⟨rest, hmessages⟩
      exact .inr ⟨_, typed, [], rest, hmessages, countP_isStart_of_messages_send hmessages,
        .unchanged (.inl id), htyped, supplement_length_none _⟩
  | file head path =>
      cases hread : (host.answer (.readFile path) s).1 with
      | none =>
          refine .inl ⟨⟨head, path, rfl, hread⟩, ?_⟩
          change Event.messages _ = []
          rw [(send_missing head hread).1]
          rfl
      | some content =>
          rcases exists_fileHeaders head path content.length with
            ⟨kept, typed, sized, hheaders, hkept, htyped, hsized⟩
          rcases Exchange.exists_messages_sendAll_cons host (fileStart head path content)
            (bodyMessages (Bytes.chunks fileChunkSize content))
            (host.answer (.readFile path) s).2 with ⟨rest, hsent⟩
          have hmessages : messages = .start head.status (kept ++ typed ++ sized) :: rest := by
            rw [← hheaders]
            exact (messages_send_file hread).trans hsent
          have hlength : (Native.file head path).length?
              (fun path => (host.answer (.readFile path) s).1) = some content.length :=
            congrArg (Option.map List.length) hread
          rw [← hlength] at hkept hsized
          exact .inr ⟨kept, typed, sized, rest, hmessages,
            countP_isStart_of_messages_send hmessages, hkept, htyped, hsized⟩

/-- Of two content lengths of a file the first one is settled anew, and no third one is added. -/
example :
    Event.messages ((Native.file { headers := [(Bytes.ofString "Content-LENGTH", [57]),
      (Bytes.ofString "x", []), (contentLengthName, [56])] }
        (Bytes.ofString "a.txt")).send.transcript (Sample.storing (some [104, 105])) ()) =
      [.start 200 [(Bytes.ofString "Content-LENGTH", [50]), (Bytes.ofString "x", []),
        (contentLengthName, [56]),
        (contentTypeName, Bytes.ofString "text/plain; charset=utf-8")],
        .body [104, 105] false] := by
  decide

end Native
end ApiGateway
