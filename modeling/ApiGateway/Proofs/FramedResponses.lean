import ApiGateway.Proofs.Deliveries
import ApiGateway.Proofs.Json.Numerals
import ApiGateway.Proofs.SeenAndSent
import ApiGateway.Response.FileReading

/-!
# Framed responses

A host that takes every message is sent one start with the status of the response, then chunks of
which exactly the last one ends the body.  A body at hand is one chunk, a stream is sent chunk by
chunk with an empty one at its end, and a file in pieces of limited size, none of which is empty
unless the file is.  A missing file is noticed before the first message, and a source that fails
leaves the chunks sent that it has yielded before.

Main definitions:

- `Message.ended`, `Message.unended`: chunks of a body with and without its end.
- `Http.Headers.Announces`: the length that is read from headers.
- `Native.Cut`: the pieces in which a file is sent.
- `Native.Framed`: the messages of a response, and how its sending ends.

Main results:

- `Native.bodyMessages_chunks`: a file is framed as it is read.
- `Native.exists_cut_readMessages`: reading cuts a file into pieces.
- `Native.send_stream_append`: what a source has yielded is sent before anything else is done.
- `Native.framed_send`: every response is framed.
-/

namespace ApiGateway

variable {E : Signature} {σ : Type}

/-! ## Chunks -/

namespace Message

/-- Chunks that all say that more follow. -/
def unended (pieces : List Bytes) : List Message :=
  pieces.map (.body · true)

/-- Chunks of which exactly the last one says that no more follow. -/
def ended (pieces : List Bytes) (last : Bytes) : List Message :=
  unended pieces ++ [.body last false]

/-- A chunk in front of others says that more follow. -/
theorem unended_cons (piece : Bytes) (pieces : List Bytes) :
    unended (piece :: pieces) = .body piece true :: unended pieces :=
  rfl

/-- A chunk in front of others says that more follow, up to the end. -/
theorem ended_cons (piece : Bytes) (pieces : List Bytes) (last : Bytes) :
    ended (piece :: pieces) last = .body piece true :: ended pieces last :=
  rfl

end Message

namespace Bytes

/-- Nothing is cut into no pieces. -/
theorem chunksWithin_nil (size fuel : Nat) : chunksWithin size fuel [] = [] := by
  cases fuel <;> rfl

/-- What is not empty is cut into some piece. -/
theorem chunksWithin_ne_nil {size fuel : Nat} {s : Bytes} (hfuel : s.length ≤ fuel) (hne : s ≠ []) :
    chunksWithin size fuel s ≠ [] := by
  cases fuel with
  | zero => exact absurd (List.eq_nil_of_length_eq_zero (Nat.le_zero.1 hfuel)) hne
  | succ fuel =>
      rw [chunksWithin, if_neg (by simpa using hne)]
      exact List.cons_ne_nil _ _

end Bytes

/-! ## Announced lengths -/

/-- The first content length, whatever the case of its letters, is a numeral of that number. -/
def Http.Headers.Announces (headers : Headers) (size : Nat) : Prop :=
  ∃ value, headers.FirstValue contentLengthName value ∧ Bytes.toNat? value = some size

/-- A content length that is set is announced. -/
theorem Http.Headers.announces_set (headers : Headers) (size : Nat) :
    (headers.set contentLengthName (Bytes.ofNat size)).Announces size :=
  ⟨_, get?_eq_some_iff.1 (get?_set_self headers _ _), Bytes.toNat?_ofNat size⟩

namespace Native

/-- The media type does not change the content length. -/
theorem get?_length_startHeaders (headers : Http.Headers) (mediaType : Option Bytes) :
    (startHeaders headers mediaType).get? contentLengthName = headers.get? contentLengthName := by
  cases mediaType with
  | none => rfl
  | some type =>
      rw [startHeaders]
      split
      · rfl
      · rename_i hnew
        have hother : Bytes.sameIgnoringCase contentTypeName contentLengthName = false := by decide
        rw [Http.Headers.get?_set_new (Bool.eq_false_iff.2 hnew), hother]
        exact Option.or_none

/-- A response whose body is at hand announces its length, unless some length is given. -/
theorem announces_wholeHeaders {head : Head} (body : Bytes)
    (h : ∀ entry ∈ head.headers, Bytes.sameIgnoringCase entry.1 contentLengthName = false) :
    (wholeHeaders head body).Announces body.length := by
  have hnew : ¬(startHeaders head.headers head.mediaType).contains contentLengthName := by
    rw [Http.Headers.contains, get?_length_startHeaders, Http.Headers.get?_eq_none_iff.2 h]
    exact Bool.false_ne_true
  rw [wholeHeaders, if_neg hnew]
  exact Http.Headers.announces_set _ _

/-! ## Pieces of a file -/

/--
The pieces in which a file is sent: together they are the file, none is longer than what is read at
once, and none is empty except the only piece of an empty file.
-/
structure Cut (content : Bytes) (pieces : List Bytes) (last : Bytes) : Prop where
  joined : pieces.flatten ++ last = content
  short : ∀ piece ∈ pieces ++ [last], piece.length ≤ fileChunkSize
  filled : content ≠ [] → ∀ piece ∈ pieces ++ [last], piece ≠ []
  single : content = [] → pieces = []

/-- Something is left behind a full piece of what cannot be read at once. -/
theorem drop_ne_nil {content : Bytes} (hlong : fileChunkSize < content.length) :
    content.drop fileChunkSize ≠ [] := by
  rw [List.ne_nil_iff_length_pos, List.length_drop]
  omega

/-- What can be read at once is one piece. -/
theorem cut_single {content : Bytes} (h : content.length ≤ fileChunkSize) :
    Cut content [] content where
  joined := rfl
  short := by
    rw [List.nil_append, List.forall_mem_singleton]
    exact h
  filled hne := by
    rw [List.nil_append, List.forall_mem_singleton]
    exact hne
  single _ := rfl

/-- A full piece is put in front of the pieces of the rest. -/
theorem Cut.cons {content : Bytes} {pieces : List Bytes} {last : Bytes}
    (hlong : fileChunkSize < content.length) (h : Cut (content.drop fileChunkSize) pieces last) :
    Cut content (content.take fileChunkSize :: pieces) last := by
  have hlength : (content.take fileChunkSize).length = fileChunkSize := by
    rw [List.length_take, Nat.min_eq_left hlong.le]
  refine ⟨?_, ?_, fun _ => ?_, ?_⟩
  · rw [List.flatten_cons, List.append_assoc, h.joined, List.take_append_drop]
  · rw [List.cons_append, List.forall_mem_cons]
    exact ⟨hlength.le, h.short⟩
  · rw [List.cons_append, List.forall_mem_cons, List.ne_nil_iff_length_pos, hlength]
    exact ⟨by decide, h.filled (drop_ne_nil hlong)⟩
  · rintro rfl
    cases hlong

section Reading

variable {size : Nat} {left : Bytes}

/-- The rest of a file is the last chunk if it can be read at once. -/
theorem readMessages_of_le (hsize : size ≠ 0) (hne : left ≠ [])
    (hfits : left.length ≤ fileChunkSize) :
    readMessages size left.length left = [.body left false] := by
  have hlength : left.length ≠ 0 := mt List.eq_nil_of_length_eq_zero hne
  rw [readMessages, if_neg hlength, Nat.min_eq_left hfits, List.take_length, if_neg hlength,
    Nat.sub_self, readMessages, if_pos rfl, if_neg hsize]
  rfl

/-- A longer rest of a file is read on after a full piece. -/
theorem readMessages_of_lt (size : Nat) (hlong : fileChunkSize < left.length) :
    readMessages size left.length left =
      .body (left.take fileChunkSize) true ::
        readMessages size (left.drop fileChunkSize).length (left.drop fileChunkSize) := by
  have hlength : left.length ≠ 0 := by omega
  have htaken : (left.take fileChunkSize).length = fileChunkSize := by
    rw [List.length_take, Nat.min_eq_left hlong.le]
  have hmore : decide (0 < left.length - fileChunkSize) = true := decide_eq_true (by omega)
  rw [readMessages, if_neg hlength, Nat.min_eq_right hlong.le, htaken, if_neg (by decide), hmore,
    List.length_drop]

/-- An empty file is read as one empty chunk. -/
theorem readMessages_nil : readMessages 0 0 [] = [.body [] false] := by
  rw [readMessages, if_pos rfl, if_pos rfl]

/-- A chunk in front of others says that more follow. -/
theorem bodyMessages_cons {pieces : List Bytes} (piece : Bytes) (hne : pieces ≠ []) :
    bodyMessages (piece :: pieces) = .body piece true :: bodyMessages pieces := by
  cases pieces with
  | nil => exact absurd rfl hne
  | cons next rest => rfl

/-- The chunks of what is left of a file are those that are read from it. -/
theorem bodyMessages_chunksWithin {size : Nat} (hsize : size ≠ 0) (fuel : Nat) {left : Bytes}
    (hfuel : left.length ≤ fuel) (hne : left ≠ []) :
    bodyMessages (Bytes.chunksWithin fileChunkSize fuel left) =
      readMessages size left.length left := by
  induction fuel generalizing left with
  | zero => exact absurd (List.eq_nil_of_length_eq_zero (Nat.le_zero.1 hfuel)) hne
  | succ fuel ih =>
      rw [Bytes.chunksWithin, if_neg (by simpa using hne)]
      rcases le_or_gt left.length fileChunkSize with hfits | hlong
      · rw [List.take_of_length_le hfits, List.drop_of_length_le hfits, Bytes.chunksWithin_nil,
          readMessages_of_le hsize hne hfits]
        rfl
      · have hrest := drop_ne_nil hlong
        have hless : (left.drop fileChunkSize).length ≤ fuel := by
          rw [List.length_drop, fileChunkSize]
          omega
        rw [bodyMessages_cons _ (Bytes.chunksWithin_ne_nil hless hrest), ih hless hrest,
          readMessages_of_lt size hlong]

/-- A file is framed as it is read. -/
theorem bodyMessages_chunks (content : Bytes) :
    bodyMessages (Bytes.chunks fileChunkSize content) =
      readMessages content.length content.length content := by
  rcases eq_or_ne content [] with rfl | hne
  · exact readMessages_nil.symm
  · exact bodyMessages_chunksWithin (mt List.eq_nil_of_length_eq_zero hne) _ le_rfl hne

end Reading

/-- Reading the rest of a file cuts it into pieces. -/
theorem exists_cut_readMessages {size : Nat} (hsize : size ≠ 0) {left : Bytes} (hne : left ≠ []) :
    ∃ pieces last, Cut left pieces last ∧
      readMessages size left.length left = Message.ended pieces last := by
  rcases le_or_gt left.length fileChunkSize with hfits | hlong
  · exact ⟨[], left, cut_single hfits, readMessages_of_le hsize hne hfits⟩
  · rcases exists_cut_readMessages hsize (drop_ne_nil hlong) with ⟨pieces, last, hcut, hread⟩
    refine ⟨left.take fileChunkSize :: pieces, last, hcut.cons hlong, ?_⟩
    rw [readMessages_of_lt size hlong, hread, Message.ended_cons]
termination_by left.length
decreasing_by
  rw [List.length_drop]
  exact Nat.sub_lt (List.length_pos_of_ne_nil hne) (by decide)

/-- A file is framed in pieces. -/
theorem exists_cut_bodyMessages (content : Bytes) :
    ∃ pieces last, Cut content pieces last ∧
      bodyMessages (Bytes.chunks fileChunkSize content) = Message.ended pieces last := by
  rw [bodyMessages_chunks]
  rcases eq_or_ne content [] with rfl | hne
  · exact ⟨[], [], cut_single (Nat.zero_le _), readMessages_nil⟩
  · exact exists_cut_readMessages (mt List.eq_nil_of_length_eq_zero hne) hne

end Native

/-! ## Chunks of a stream -/

namespace Exchange

variable {host : Host (Exchange E) σ}

/-- What follows messages that are taken is done behind them. -/
theorem sendAll_bind_of_taken (htakes : ∀ message t, (host.answer (.send message) t).1 = .ok ())
    (messages : List Message) (p : Prog (Exchange E) Unit) (s : σ) :
    ∃ t, Event.messages (((sendAll messages).bind fun _ => p).transcript host s) =
        messages ++ Event.messages (p.transcript host t) ∧
      (((sendAll messages).bind fun _ => p).run host s).outcome = (p.run host t).outcome := by
  have hsent := outcome_sendAll htakes messages s
  refine ⟨((sendAll messages).run host s).state, ?_, Prog.outcome_bind_of_ok _ hsent⟩
  rw [Prog.transcript_bind_of_ok _ hsent, Event.messages_append, messages_sendAll host hsent]

end Exchange

namespace Native

/-- A source yields chunks to its end, or chunks and then a fault. -/
theorem chunks_cases (results : List (Except Fault Bytes)) :
    (∃ chunks : List Bytes, results = chunks.map .ok) ∨
      ∃ (chunks : List Bytes) (e : Fault) (rest : List (Except Fault Bytes)),
        results = chunks.map .ok ++ .error e :: rest := by
  induction results with
  | nil => exact .inl ⟨[], rfl⟩
  | cons result results ih =>
      cases result with
      | error e => exact .inr ⟨[], e, results, rfl⟩
      | ok chunk =>
          rcases ih with ⟨chunks, rfl⟩ | ⟨chunks, e, rest, rfl⟩
          · exact .inl ⟨chunk :: chunks, rfl⟩
          · exact .inr ⟨chunk :: chunks, e, rest, rfl⟩

/-- What a source has yielded is sent chunk by chunk, before anything else is done. -/
theorem sendChunks_append (chunks : List Bytes) (rest : List (Except Fault Bytes)) :
    (sendChunks (chunks.map .ok ++ rest) : Prog (Exchange E) Unit) =
      (Exchange.sendAll (Message.unended chunks)).bind fun _ => sendChunks rest := by
  induction chunks with
  | nil => rfl
  | cons chunk chunks ih =>
      rw [List.map_cons, List.cons_append, sendChunks, ih, Message.unended_cons, Exchange.sendAll,
        Prog.bind_assoc]

/-- A stream is started, then sent chunk by chunk. -/
theorem send_stream_append (head : Head) (chunks : List Bytes)
    (rest : List (Except Fault Bytes)) :
    (send (.stream head (chunks.map .ok ++ rest)) : Prog (Exchange E) Unit) =
      (Exchange.sendAll (.start head.status (startHeaders head.headers head.mediaType) ::
        Message.unended chunks)).bind fun _ => sendChunks rest := by
  rw [send, sendChunks_append, Exchange.sendAll, Prog.bind_assoc]

/-! ## Framing -/

/--
The messages of a response, and how its sending ends, if all messages are taken and files have
these contents.
-/
inductive Framed (contents : Bytes → Option Bytes) :
    Native → List Message → Except Fault Unit → Prop where
  /-- A plain response is one chunk, which is empty without content, and announces its length. -/
  | plain {head : Head} {content : Option Bytes} {headers : Http.Headers}
      (hlength : (∀ entry ∈ head.headers,
        Bytes.sameIgnoringCase entry.1 contentLengthName = false) →
          headers.Announces (content.getD []).length) :
      Framed contents (.plain head content)
        [.start head.status headers, .body (content.getD []) false] (.ok ())
  /-- The text of a JSON value is one chunk as well. -/
  | json {head : Head} {content : Json.Value} {headers : Http.Headers}
      (hlength : (∀ entry ∈ head.headers,
        Bytes.sameIgnoringCase entry.1 contentLengthName = false) →
          headers.Announces content.dump.length) :
      Framed contents (.json head content)
        [.start head.status headers, .body content.dump false] (.ok ())
  /-- The chunks of a stream are sent as they come, and an empty one behind them. -/
  | stream {head : Head} {chunks : List Bytes} {headers : Http.Headers} :
      Framed contents (.stream head (chunks.map .ok))
        (.start head.status headers :: Message.ended chunks []) (.ok ())
  /-- A source that fails leaves the start and the chunks before the fault sent. -/
  | interrupted {head : Head} {chunks : List Bytes} {e : Fault}
      {rest : List (Except Fault Bytes)} {headers : Http.Headers} :
      Framed contents (.stream head (chunks.map .ok ++ .error e :: rest))
        (.start head.status headers :: Message.unended chunks) (.error e)
  /-- A file is sent in pieces behind a start that announces its length. -/
  | file {head : Head} {path content : Bytes} {headers : Http.Headers} {pieces : List Bytes}
      {last : Bytes} (hcontent : contents path = some content)
      (hlength : headers.Announces content.length) (hcut : Cut content pieces last) :
      Framed contents (.file head path)
        (.start head.status headers :: Message.ended pieces last) (.ok ())
  /-- Nothing is sent of a file that cannot be opened. -/
  | missing {head : Head} {path : Bytes} (hmissing : contents path = none) :
      Framed contents (.file head path) [] (.error (.gateway .fileNotFound path))

section Taken

variable {host : Host (Exchange E) σ}
  (htakes : ∀ message t, (host.answer (.send message) t).1 = .ok ())
include htakes

/-- A response whose body is at hand is sent as a start and one chunk. -/
theorem sent_of_isMaterialized {res : Native} (h : res.IsMaterialized) (s : σ) :
    Event.messages (res.send.transcript host s) =
        wholeMessages res.head (res.body?.getD []) ∧
      (res.send.run host s).outcome = .ok () := by
  have hend := Exchange.outcome_sendAll htakes (wholeMessages res.head (res.body?.getD [])) s
  rw [send_of_isMaterialized h]
  exact ⟨Exchange.messages_sendAll host hend, hend⟩

/-- A stream is sent as far as its source goes. -/
theorem framed_stream (contents : Bytes → Option Bytes) (head : Head)
    (results : List (Except Fault Bytes)) (s : σ) :
    (Native.stream head results).Framed contents
      (Event.messages ((Native.stream head results).send.transcript host s))
      ((Native.stream head results).send.run host s).outcome := by
  rcases chunks_cases results with ⟨chunks, rfl⟩ | ⟨chunks, e, rest, rfl⟩
  · have hsend := send_stream_append (E := E) head chunks []
    rw [List.append_nil] at hsend
    rcases Exchange.sendAll_bind_of_taken htakes (_ :: Message.unended chunks)
      (sendChunks []) s with ⟨t, hmessages, hend⟩
    rw [hsend, hmessages, hend, sendChunks, Exchange.outcome_send, htakes, Exchange.messages_send,
      List.cons_append]
    exact .stream
  · rcases Exchange.sendAll_bind_of_taken htakes (_ :: Message.unended chunks)
      (sendChunks (.error e :: rest)) s with ⟨t, hmessages, hend⟩
    have hquiet : Event.messages ((sendChunks (.error e :: rest)).transcript host t) = [] := rfl
    rw [send_stream_append, hmessages, hend, hquiet, List.append_nil]
    exact .interrupted

/-- A file is sent in pieces if it is there. -/
theorem framed_file (head : Head) (path : Bytes) (s : σ) :
    (Native.file head path).Framed (fun path => (host.answer (.readFile path) s).1)
      (Event.messages ((Native.file head path).send.transcript host s))
      ((Native.file head path).send.run host s).outcome := by
  cases hread : (host.answer (.readFile path) s).1 with
  | none =>
      rcases send_missing head hread with ⟨hevents, hend⟩
      rw [hevents, hend]
      exact .missing hread
  | some content =>
      have hend := Exchange.outcome_sendAll htakes (fileMessages head path content)
        (host.answer (.readFile path) s).2
      rcases exists_cut_bodyMessages content with ⟨pieces, last, hcut, hchunks⟩
      rw [messages_send_file hread, outcome_send_file, hread, sendFound, hend,
        Exchange.messages_sendAll host hend, fileMessages, hchunks]
      exact .file hread (Http.Headers.announces_set _ _) hcut

/-- Every response is framed if the host takes every message. -/
theorem framed_send (res : Native) (s : σ) :
    res.Framed (fun path => (host.answer (.readFile path) s).1)
      (Event.messages (res.send.transcript host s)) (res.send.run host s).outcome := by
  cases res with
  | plain head content =>
      have hmaterialized : (Native.plain head content).IsMaterialized := trivial
      rcases sent_of_isMaterialized htakes hmaterialized s with ⟨hmessages, hend⟩
      rw [hmessages, hend]
      exact .plain (announces_wholeHeaders _)
  | json head content =>
      have hmaterialized : (Native.json head content).IsMaterialized := trivial
      rcases sent_of_isMaterialized htakes hmaterialized s with ⟨hmessages, hend⟩
      rw [hmessages, hend]
      exact .json (announces_wholeHeaders _)
  | stream head results => exact framed_stream htakes _ head results s
  | file head path => exact framed_file htakes head path s

end Taken
end Native

namespace Sample

/-- A file of two bytes is announced with its length and is one chunk. -/
theorem short_file_is_framed :
    (∀ message t, ((storing (some [104, 105])).answer (.send message) t).1 = .ok ()) ∧
      ∃ headers : Http.Headers, headers.Announces 2 ∧
        Native.Framed (fun _ => some [104, 105]) (.file {} [97])
          [.start 200 headers, .body [104, 105] false] (.ok ()) := by
  have htakes : ∀ message t, ((storing (some [104, 105])).answer (.send message) t).1 = .ok () :=
    fun _ _ => rfl
  exact ⟨htakes, _, Http.Headers.announces_set _ 2, Native.framed_send htakes (.file {} [97]) ()⟩

end Sample
end ApiGateway
