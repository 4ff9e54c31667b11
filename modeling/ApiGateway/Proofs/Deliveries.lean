import ApiGateway.Proofs.HeaderLists
import ApiGateway.Proofs.NestedRendering
import ApiGateway.Proofs.Observation
import ApiGateway.Proofs.SentResponses

/-!
# Deliveries

A response whose body is at hand is delivered by a start and one chunk.  A run that
delivers it may show it to the observer first, writes nothing to the log, and is cut short
only if the observer or the host refuses something.  Whatever comes before, if it is quiet
and leaves a value, does not change what is delivered.

Main definitions:

- `Host.Accepts`: hosts that refuse nothing.
- `Prog.Delivers`: a run that shows certain responses and hands over certain messages.
- `Native.wholeHeaders`: the headers of the start of a response whose body is at hand.

Main results:

- `Prog.Delivers.sendAll`, `Prog.Delivers.observe`, `Prog.Delivers.after`: deliveries, step by
  step.
- `Dispatcher.delivers_respond`: what the result of a handler is delivered as.
- `Native.get?_wholeHeaders`: the content type with which a response is sent.
-/

namespace ApiGateway

variable {E : Signature} {σ α : Type}

/-! ## Accepting hosts -/

/-- A host that accepts every message, and whose observer accepts every response. -/
structure Host.Accepts (host : Host (Exchange E) σ) : Prop where
  send : ∀ message s, (host.answer (.send message) s).1 = .ok ()
  observe : ∀ response s, (host.answer (.observe response) s).1 = .ok ()

namespace Exchange

/-- Of the messages to be sent a first part is handed over. -/
theorem messages_sendAll_isPrefix (host : Host (Exchange E) σ) (messages : List Message) (s : σ) :
    Event.messages ((sendAll messages).transcript host s) <+: messages := by
  induction messages generalizing s with
  | nil => exact List.prefix_rfl
  | cons message rest ih =>
      cases hout : ((send message).run host s).outcome with
      | error e =>
          rw [sendAll, Prog.transcript_bind, hout, List.append_nil, messages_send]
          exact List.cons_prefix_cons.2 ⟨rfl, List.nil_prefix⟩
      | ok _ =>
          rw [sendAll, Prog.transcript_bind_of_ok _ hout, Event.messages_append, messages_send]
          exact List.cons_prefix_cons.2 ⟨rfl, ih _⟩

/-- Nothing fails in sending messages to a host that accepts them. -/
theorem outcome_sendAll {host : Host (Exchange E) σ}
    (h : ∀ message t, (host.answer (.send message) t).1 = .ok ()) (messages : List Message)
    (s : σ) : ((sendAll messages).run host s).outcome = .ok () := by
  induction messages generalizing s with
  | nil => rfl
  | cons message rest ih =>
      have hone : ((send message).run host s).outcome = .ok () :=
        (outcome_send host message s).trans (h message s)
      rw [sendAll, Prog.outcome_bind_of_ok _ hone]
      exact ih _

end Exchange

/-! ## Deliveries -/

/--
A run in which nothing is logged and the given responses are shown to the observer.  The messages
handed over are a first part of the given ones, and all of them unless the host refuses something.
-/
structure Prog.Delivers (p : Prog (Exchange E) Unit) (host : Host (Exchange E) σ) (s : σ)
    (shown : List Canonical) (messages : List Message) : Prop where
  unlogged : Event.logged (p.transcript host s) = []
  shown : Event.observed (p.transcript host s) = shown
  sent : Event.messages (p.transcript host s) <+: messages
  complete : (p.run host s).outcome = .ok () →
    Event.messages (p.transcript host s) = messages
  accepted : host.Accepts → (p.run host s).outcome = .ok ()

namespace Prog.Delivers

variable {host : Host (Exchange E) σ} {s : σ} {shown : List Canonical} {messages : List Message}

/-- Messages are delivered by sending them. -/
theorem sendAll (host : Host (Exchange E) σ) (messages : List Message) (s : σ) :
    Delivers (Exchange.sendAll messages) host s [] messages := by
  have hsending := (Performs.sendAll (E := E) messages).admits
  exact {
    unlogged := (hsending.mono fun _ => Exchange.IsSending.isUnlogged).logged_eq_nil host s
    shown := (hsending.mono fun _ => Exchange.IsSending.isUnseen).observed_eq_nil host s
    sent := Exchange.messages_sendAll_isPrefix host messages s
    complete := Exchange.messages_sendAll host
    accepted := fun haccepts => Exchange.outcome_sendAll haccepts.send messages s }

/--
What is done before a delivery adds to it only what it shows, provided that it logs and sends
nothing.
-/
theorem extend {p q : Prog (Exchange E) Unit} {t : σ}
    {before : List (Event (Exchange E))} {seen : List Canonical}
    (h : p.Delivers host t shown messages)
    (hevents : q.transcript host s = before ++ p.transcript host t)
    (hend : (q.run host s).outcome = (p.run host t).outcome)
    (hlogged : Event.logged before = []) (hseen : Event.observed before = seen)
    (hunsent : Event.messages before = []) :
    q.Delivers host s (seen ++ shown) messages := by
  have hmessages : Event.messages (q.transcript host s) =
      Event.messages (p.transcript host t) := by
    rw [hevents, Event.messages_append, hunsent, List.nil_append]
  refine ⟨?_, ?_, ?_, ?_, ?_⟩
  · rw [hevents, Event.logged_append, hlogged, h.unlogged, List.append_nil]
  · rw [hevents, Event.observed_append, hseen, h.shown]
  · rw [hmessages]
    exact h.sent
  · rw [hmessages, hend]
    exact h.complete
  · rw [hend]
    exact h.accepted

/-- A response is shown before it is delivered, and not delivered if the observer refuses it. -/
theorem observe {p : Prog (Exchange E) Unit} (c : Canonical)
    (h : ∀ t, p.Delivers host t [] messages) :
    ((Exchange.observe c).bind fun _ => p).Delivers host s [c] messages := by
  rcases Exchange.observe_bind host s c p with ⟨e, hevents, hend, hrefused⟩ | ⟨t, hevents, hend⟩
  · refine ⟨?_, ?_, ?_, ?_, ?_⟩
    · rw [hevents]
      rfl
    · rw [hevents]
      rfl
    · rw [hevents]
      exact List.nil_prefix
    · rw [hend]
      exact nofun
    · intro haccepts
      rw [haccepts.observe] at hrefused
      cases hrefused
  · have hadded : ((Exchange.observe c).bind fun _ => p).transcript host s =
        [.call (.observe c) (.ok ())] ++ p.transcript host t := hevents
    exact (h t).extend hadded hend rfl rfl rfl

/-- What leaves a value without being noticed does not change what is delivered after it. -/
theorem after {p : Prog (Exchange E) α} {f : α → Prog (Exchange E) Unit} {a : α}
    (hquiet : p.Admits Exchange.IsQuiet) (hunlogged : p.Admits Exchange.IsUnlogged)
    (hout : (p.run host s).outcome = .ok a)
    (h : (f a).Delivers host (p.run host s).state shown messages) :
    (p.bind f).Delivers host s shown messages :=
  h.extend (transcript_bind_of_ok _ hout) (outcome_bind_of_ok _ hout)
    (hunlogged.logged_eq_nil host s)
    ((hquiet.mono fun _ => Exchange.IsQuiet.isUnseen).observed_eq_nil host s)
    (hquiet.messages_eq_nil host s)

end Prog.Delivers

/-- A result that is converted without a log entry is shown, if anyone watches, and delivered. -/
theorem Dispatcher.delivers_respond {mediaType : Option Bytes} {result : HandlerResult}
    {res : Native} (hnative : result.toNative mediaType = .ok res)
    (hnotices : result.notices mediaType = []) (hmaterialized : res.IsMaterialized)
    (observed : Bool) (host : Host (Exchange E) σ) (s : σ) :
    (respond observed mediaType result).Delivers host s
      (if observed then [res.toCanonical mediaType] else [])
      (Native.wholeMessages res.head (res.body?.getD [])) := by
  have hsend (t : σ) :
      res.send.Delivers host t [] (Native.wholeMessages res.head (res.body?.getD [])) := by
    rw [Native.send_of_isMaterialized hmaterialized]
    exact Prog.Delivers.sendAll host _ t
  rw [respond, hnative, hnotices]
  cases observed with
  | false => exact hsend s
  | true => exact Prog.Delivers.observe _ hsend

/-! ## The content type of a response -/

namespace Native

/-- The headers of the start of a response whose body is at hand. -/
def wholeHeaders (head : Head) (body : Bytes) : Http.Headers :=
  let headers := startHeaders head.headers head.mediaType
  if headers.contains contentLengthName then
    headers
  else
    headers.set contentLengthName (Bytes.ofNat body.length)

/-- A response whose body is at hand is framed as a start and one chunk. -/
theorem wholeMessages_eq (head : Head) (body : Bytes) :
    wholeMessages head body = [.start head.status (wholeHeaders head body), .body body false] :=
  rfl

/-- The content type of a start is the one that is given, else the media type. -/
theorem get?_startHeaders (headers : Http.Headers) (mediaType : Option Bytes) :
    (startHeaders headers mediaType).get? contentTypeName =
      (headers.get? contentTypeName).or (mediaType.map MediaType.withCharset) := by
  cases mediaType with
  | none => exact (Option.or_none).symm
  | some type =>
      rw [startHeaders]
      split
      · rename_i hgiven
        rcases Option.isSome_iff_exists.1 hgiven with ⟨value, hvalue⟩
        rw [hvalue, Option.some_or]
      · rename_i hnew
        rw [Http.Headers.get?_set_new (Bool.eq_false_iff.2 hnew)]
        rfl

/-- The length of a response does not change its content type. -/
theorem get?_wholeHeaders (head : Head) (body : Bytes) :
    (wholeHeaders head body).get? contentTypeName =
      (head.headers.get? contentTypeName).or (head.mediaType.map MediaType.withCharset) := by
  rw [← get?_startHeaders]
  unfold wholeHeaders
  dsimp only
  split
  · rfl
  · rename_i hnew
    have hother : Bytes.sameIgnoringCase contentLengthName contentTypeName = false := by decide
    rw [Http.Headers.get?_set_new (Bool.eq_false_iff.2 hnew), hother]
    exact Option.or_none

end Native
end ApiGateway
