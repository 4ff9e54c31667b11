import ApiGateway.Proofs.Observation
import ApiGateway.Proofs.PostponedHandlers
import ApiGateway.Proofs.SentResponses

/-!
# What the observer sees and the client is sent

The observer is shown the canonical form of a response, and the client is sent the
response itself.  Both are made of the same native response, the one before the other is
sent, so what was shown is what the messages carry.  The exception is a file response:
its file is only looked for after the observer has been told.

Main definitions:

- `Canonical.CarriedBy`: messages that carry what a canonical form says.
- `Invoker.SeenAsSent`: a run in which what was shown once is what was sent.

Main results:

- `App.observer_sees_response_sent`: the response shown is the response sent.
- `App.shown_status_is_sent_unless_file_missing`: what was shown has been started with its
  status, unless its file is missing.
-/

namespace ApiGateway

variable {E : Signature} {σ : Type}

/-! ## What the observer is shown and what is sent -/

/--
The messages start with the status of the canonical form and with its headers in front, up to the
value of a content length if it is settled anew, and their chunks are its body, if it holds one.
-/
structure Canonical.CarriedBy (c : Canonical) (resized : Prop) (messages : List Message) :
    Prop where
  start : ∃ headers rest, messages = .start c.status headers :: rest ∧
    c.headers.LeadIn resized headers
  body : ∀ bytes, c.body = some bytes → Message.bodyOf messages = bytes

/-- A response that is sent without fault is what its canonical form says. -/
theorem Native.carriedBy_messages_send {res : Native} {host : Host (Exchange E) σ} {s : σ}
    (h : (res.send.run host s).outcome = .ok ()) (mediaType : Option Bytes) :
    (res.toCanonical mediaType).CarriedBy res.IsFile
      (Event.messages (res.send.transcript host s)) where
  start := by
    rcases res.starts_or_isMissing host s with ⟨headers, rest, hstart, hlead⟩ | hmissing
    · exact ⟨headers, rest, hstart, hlead⟩
    · rcases hmissing with ⟨head, path, rfl, hread⟩
      rw [(send_missing head hread).2] at h
      cases h
  body := fun _ hbody => bodyOf_messages_send h hbody

/--
In a run the result of an operation has become a response, whose canonical form is shown once: after
the call of the operation and before the first message.  What follows is nothing but the sending of
the response, and the messages carry what was shown.
-/
structure Invoker.SeenAsSent (inv : Invoker E) (sc : Scope) (host : Host (Exchange E) σ) (s : σ)
    (events : List (Event (Exchange E))) (res : Native) : Prop where
  resolved : ∃ result, ((inv.invoke sc).run host s).outcome = .ok result ∧
    result.toNative inv.mediaType = .ok res
  declared : (res.toCanonical inv.mediaType).mediaType = some inv.operation.mediaType
  once : Event.observed events = [res.toCanonical inv.mediaType]
  between : ∃ before after,
    events = before ++ .call (.observe (res.toCanonical inv.mediaType)) (.ok ()) :: after ∧
      .call (.enter sc) () :: (inv.invoke sc).transcript host s <+: before ∧
      Event.messages before = [] ∧
      ∀ event ∈ after, ∃ op answer, event = .call op answer ∧ Exchange.IsSending op
  carried : (res.toCanonical inv.mediaType).CarriedBy res.IsFile (Event.messages events)

/-- A response that is sent without fault has been seen as it is sent. -/
theorem Invoker.Reported.seenAsSent {inv : Invoker E} {sc : Scope} {host : Host (Exchange E) σ}
    {s : σ} {events : List (Event (Exchange E))} (h : inv.Reported sc host s events (.ok ())) :
    ∃ res, inv.SeenAsSent sc host s (.call (.enter sc) () :: events) res := by
  generalize hout : (Except.ok () : Except Fault Unit) = outcome at h
  cases h with
  | failed hunseen => cases hout
  | refused hunseen hrefused => cases hout
  | @sent result res before t hresult hnative hcall hunsent hunseen =>
      have hsend := Prog.Performs.sendNative (E := E) res
      have hafter := (Native.admits_send res).observed_eq_nil host t
      have hmessages : Event.messages (before ++
          .call (.observe (res.toCanonical inv.mediaType)) (.ok ()) ::
            res.send.transcript host t) = Event.messages (res.send.transcript host t) := by
        rw [Event.messages_append, hunsent]
        rfl
      refine ⟨res, ⟨result, hresult, hnative⟩, rfl, ?_, ?_, ?_⟩
      · change Event.observed (before ++ _) = _
        rw [Event.observed_append, hunseen]
        exact congrArg (List.cons _) hafter
      · exact ⟨.call (.enter sc) () :: before, _, rfl, List.cons_prefix_cons.2 ⟨rfl, hcall⟩,
          hunsent, hsend.transcript host t⟩
      · change (res.toCanonical inv.mediaType).CarriedBy res.IsFile (Event.messages (before ++ _))
        rw [hmessages]
        exact Native.carriedBy_messages_send hout.symm inv.mediaType

namespace App

section Routed

variable {app : App E} {sc : Scope} {routing : Routing}
  (h : Routing.resolve (app.apis.map Api.routing) sc = routing)
  (host : Host (Exchange E) σ) (s : σ)
include h

/-- A run without error rendering enters the routed scope and goes on with the dispatch. -/
theorem transcript_routed : (app.routed sc).transcript host s =
    .call (.enter (sc.enter routing)) () ::
      (app.dispatch (sc.enter routing)).transcript host
        (host.answer (.enter (sc.enter routing)) s).2 := by
  rw [← h]
  rfl

/-- A run without error rendering ends as the dispatch does. -/
theorem outcome_routed : ((app.routed sc).run host s).outcome =
    ((app.dispatch (sc.enter routing)).run host
      (host.answer (.enter (sc.enter routing)) s).2).outcome := by
  rw [← h]
  rfl

end Routed

/--
The observer sees exactly what is sent.  If a request is claimed for an operation and no fault is
raised while it is answered, then the observer is shown one response.  That happens after the call
of the operation has ended and before the first message.  The response has the declared media type
and the status of the start, its headers stand in front of those of the start in the same order, up
to the length of a file, and if it holds a body, the chunks are this body.  A request that is
claimed for no operation is answered by a table of manual routes, and nothing is shown.
-/
theorem observer_sees_response_sent {app : App E} (hobserved : app.observed = true) (sc : Scope)
    (host : Host (Exchange E) σ) (s : σ) :
    let routing := Routing.resolve (app.apis.map Api.routing) sc
    let inside := sc.enter routing
    let events := (app.serve sc).transcript host s
    (∀ id, routing.operationId = some id → ((app.routed sc).run host s).outcome = .ok () →
        ∃ api ∈ app.apis, ∃ inv res, routing.apiBasePath = some api.basePath ∧
          api.operations.find? id = some inv ∧
          inv.SeenAsSent inside host (host.answer (.enter inside) s).2 events res) ∧
      (routing.operationId = none →
        (∃ table ∈ app.tables, app.dispatch inside = table.serve inside) ∧
          Event.observed events = []) := by
  intro routing inside events
  have hrouting : Routing.resolve (app.apis.map Api.routing) sc = routing := rfl
  have hinside : inside.routing = some routing := rfl
  constructor
  · intro id hid hout
    have hevents : events = (app.routed sc).transcript host s :=
      Rendering.transcript_guarded_of_ok hout
    rw [hevents, transcript_routed hrouting]
    rw [outcome_routed hrouting] at hout
    rcases app.dispatch_of_operation hinside hid with
      ⟨api, hapi, inv, hbase, hfind, hdispatch⟩ | hunknown
    · rw [hdispatch, hobserved] at hout ⊢
      have hreported := inv.reported inside host (host.answer (.enter inside) s).2
      rw [hout] at hreported
      rcases hreported.seenAsSent with ⟨res, hseen⟩
      exact ⟨api, hapi, inv, res, hbase, hfind, hseen⟩
    · rw [hunknown] at hout
      cases hout
  · intro hid
    rcases app.dispatch_of_no_operation hinside hid with ⟨table, htable, hdispatch⟩
    refine ⟨⟨table, htable, hdispatch⟩, ?_⟩
    change Event.observed ((Rendering.guarded false (app.routed sc)).transcript host s) = []
    rw [Rendering.observed_guarded, transcript_routed hrouting, hdispatch]
    exact (table.admits_serve inside).observed_eq_nil host _

end App

/-! ## A sample -/

namespace Sample

/-- A file response with a content length of its own. -/
def filed : Native :=
  .file { headers := [(Bytes.ofString "Content-Length", [57])] } [102]

/-- The application with that response for its operation, and with an observer. -/
def reporting : App Signature.empty :=
  App.setUp [mounting (.sync fun _ => .done (.native filed)), .observe true]

/-- A host that accepts everything and on which each file has that content. -/
def storing (content : Option Bytes) : Host (Exchange Signature.empty) Unit where
  answer op s :=
    match op with
    | .send _ => (.ok (), s)
    | .receiveBody => (.ok [], s)
    | .log _ => ((), s)
    | .observe _ => (.ok (), s)
    | .readFile _ => (content, s)
    | .enter _ => ((), s)

/-- The events of a request for the file. -/
def fetching (content : Option Bytes) : List (Event (Exchange Signature.empty)) :=
  (reporting.serve scope).transcript (storing content) ()

/-- The observer is shown the length that the handler has given, the client that of the file. -/
theorem observer_sees_filed :
    reporting.observed = true ∧
      (∃ inv res, Invoker.SeenAsSent (E := Signature.empty) inv
        (scope.enter { apiBasePath := some [47, 118], operationId := some [97] })
        (storing (some [104, 105])) () (fetching (some [104, 105])) res) ∧
      (Event.observed (fetching (some [104, 105]))).map Canonical.headers =
        [[(Bytes.ofString "Content-Length", [57])]] ∧
      (Event.messages (fetching (some [104, 105]))).head? =
        some (.start 200 [(Bytes.ofString "Content-Length", [50]),
          (Bytes.ofString "content-type", Bytes.ofString "application/octet-stream")]) := by
  have hobserved : reporting.observed = true := rfl
  rcases (App.observer_sees_response_sent hobserved scope (storing (some [104, 105])) ()).1 [97] rfl
    rfl with ⟨-, -, inv, res, -, -, hseen⟩
  exact ⟨hobserved, ⟨inv, res, hseen⟩, by decide, by decide⟩

end Sample

/-! ## What was shown and is not sent -/

/-- An accepting observer has been shown a response that is sent then. -/
theorem Invoker.Reported.exists_sent {inv : Invoker E} {sc : Scope} {host : Host (Exchange E) σ}
    {s : σ} {events : List (Event (Exchange E))} {outcome : Except Fault Unit}
    (h : inv.Reported sc host s events outcome)
    (haccepts : ∀ c t, (host.answer (.observe c) t).1 = .ok ()) {c : Canonical}
    (hshown : c ∈ Event.observed events) :
    ∃ (res : Native) (before : List (Event (Exchange E))) (t : σ),
      c = res.toCanonical inv.mediaType ∧ Event.messages before = [] ∧
      events = before ++ .call (.observe c) (.ok ()) :: res.send.transcript host t ∧
      outcome = (res.send.run host t).outcome := by
  cases h with
  | failed hunseen =>
      rw [hunseen] at hshown
      cases hshown
  | refused hunseen hrefused =>
      rw [haccepts] at hrefused
      cases hrefused
  | @sent result res before t hresult hnative hcall hunsent hunseen =>
      have hsend := (Native.admits_send res).observed_eq_nil host t
      rw [Event.observed_append, hunseen] at hshown
      have hc : c ∈ [res.toCanonical inv.mediaType] := hsend ▸ hshown
      obtain rfl := List.mem_singleton.1 hc
      exact ⟨res, before, t, rfl, hunsent, rfl, rfl⟩

namespace App

/-- What was shown in a run without error rendering has been sent after an accepting observer. -/
theorem exists_sent_of_shown {app : App E} {sc : Scope} {host : Host (Exchange E) σ} {s : σ}
    (haccepts : ∀ c t, (host.answer (.observe c) t).1 = .ok ()) {c : Canonical}
    (hshown : c ∈ Event.observed ((app.routed sc).transcript host s)) :
    ∃ (res : Native) (mediaType : Option Bytes) (before : List (Event (Exchange E))) (t : σ),
      c = res.toCanonical mediaType ∧ Event.messages before = [] ∧
      (app.routed sc).transcript host s =
        before ++ .call (.observe c) (.ok ()) :: res.send.transcript host t ∧
      ((app.routed sc).run host s).outcome = (res.send.run host t).outcome := by
  generalize hrouting : Routing.resolve (app.apis.map Api.routing) sc = routing
  have hinside : (sc.enter routing).routing = some routing := rfl
  rw [transcript_routed hrouting] at hshown ⊢
  rw [outcome_routed hrouting]
  generalize (host.answer (.enter (sc.enter routing)) s).2 = entered at hshown ⊢
  have hnone : Event.observed ((app.dispatch (sc.enter routing)).transcript host entered) ≠ [] :=
    List.ne_nil_of_mem hshown
  cases hid : routing.operationId with
  | none =>
      rcases app.dispatch_of_no_operation hinside hid with ⟨table, -, hdispatch⟩
      rw [hdispatch] at hnone
      exact absurd ((table.admits_serve _).observed_eq_nil host entered) hnone
  | some id =>
      rcases app.dispatch_of_operation hinside hid with ⟨api, -, inv, -, -, hdispatch⟩ | hunknown
      · cases hobserved : app.observed with
        | false =>
            have hunseen := ((inv.admits_invoke (sc.enter routing)).mono fun _ =>
              Exchange.IsQuiet.isUnseen).bind (Dispatcher.admits_respond inv.mediaType)
            rw [hdispatch, hobserved] at hnone
            exact absurd (hunseen.observed_eq_nil host entered) hnone
        | true =>
            rw [hdispatch, hobserved] at hshown ⊢
            rcases (inv.reported (sc.enter routing) host entered).exists_sent haccepts hshown with
              ⟨res, before, t, hc, hunsent, hevents, hend⟩
            exact ⟨res, inv.mediaType, .call (.enter (sc.enter routing)) () :: before, t, hc,
              hunsent, congrArg (List.cons _) hevents, hend⟩
      · rw [hunknown] at hnone
        exact absurd rfl hnone

/--
What an observer that accepts every response has been shown has also been started with its status,
and no fault has been rendered.  The exception is a file response whose file cannot be opened: it is
shown before its file is looked for, and then the request is answered with the problem of a missing
file.
-/
theorem shown_status_is_sent_unless_file_missing {app : App E} {sc : Scope}
    {host : Host (Exchange E) σ} {s : σ} (haccepts : ∀ c t, (host.answer (.observe c) t).1 = .ok ())
    {c : Canonical} (hshown : c ∈ Event.observed ((app.serve sc).transcript host s)) :
    let events := (app.serve sc).transcript host s
    (∃ headers rest, Event.messages events = .start c.status headers :: rest ∧
        events = (app.routed sc).transcript host s) ∨
      ∃ head path mediaType headers rest, c = (Native.file head path).toCanonical mediaType ∧
        .call (.readFile path) none ∈ events ∧
        ((app.routed sc).run host s).outcome = .error (.gateway .fileNotFound path) ∧
        Event.messages events = .start 404 headers :: rest := by
  intro events
  have hrouted : c ∈ Event.observed ((app.routed sc).transcript host s) := by
    rw [← Rendering.observed_guarded host false]
    exact hshown
  rcases exists_sent_of_shown haccepts hrouted with ⟨res, mediaType, before, t, hc, hunsent,
    hevents, hend⟩
  have hmessages : Event.messages ((app.routed sc).transcript host s) =
      Event.messages (res.send.transcript host t) := by
    rw [hevents, Event.messages_append, hunsent]
    rfl
  rcases res.starts_or_isMissing host t with ⟨headers, rest, hstart, -⟩ | hmissing
  · rw [hstart] at hmessages
    have hsame : events = (app.routed sc).transcript host s :=
      Rendering.transcript_guarded_of_start ⟨_, hmessages ▸ List.mem_cons_self, rfl⟩
    refine .inl ⟨headers, rest, ?_, hsame⟩
    rw [hsame, hmessages, hc]
    rfl
  · rcases hmissing with ⟨head, path, rfl, hread⟩
    rcases Native.send_missing head hread with ⟨hsent, hfault⟩
    rw [hsent] at hmessages hevents
    rw [hfault] at hend
    have hguarded : events = (app.routed sc).transcript host s ++
        (Rendering.answer (.gateway .fileNotFound path)).transcript host
          ((app.routed sc).run host s).state :=
      Rendering.transcript_guarded_of_fault hend (hmessages ▸ nofun)
    rcases Rendering.exists_messages_answer (e := .gateway .fileNotFound path) rfl host
      ((app.routed sc).run host s).state with ⟨headers, rest, hanswer⟩
    refine .inr ⟨head, path, mediaType, headers, rest, hc, ?_, hend, ?_⟩
    · rw [hguarded, hevents]
      exact List.mem_append_left _ (List.mem_append_right _ (.tail _ (.head _)))
    · rw [hguarded, Event.messages_append, hmessages, hanswer]
      rfl

end App

namespace Sample

/-- A file that can be opened is started with the status that was shown. -/
theorem shown_status_of_filed :
    (∀ c t, ((storing (some [104, 105])).answer (.observe c) t).1 = .ok ()) ∧
      filed.toCanonical (some MediaType.json) ∈ Event.observed (fetching (some [104, 105])) ∧
      ∃ headers rest, Event.messages (fetching (some [104, 105])) = .start 200 headers :: rest := by
  have haccepts : ∀ c t, ((storing (some [104, 105])).answer (.observe c) t).1 = .ok () :=
    fun _ _ => rfl
  have hshown : filed.toCanonical (some MediaType.json) ∈
      Event.observed (fetching (some [104, 105])) := by decide
  refine ⟨haccepts, hshown, ?_⟩
  rcases App.shown_status_is_sent_unless_file_missing haccepts hshown with
    ⟨headers, rest, hstart, -⟩ | ⟨_, _, _, _, _, -, -, hmissing, -⟩
  · exact ⟨headers, rest, hstart⟩
  · cases hmissing

/--
A missing file is shown with the status of its response, although observer and host accept all: the
client is told that the file is not found.
-/
theorem missing_file_is_shown :
    reporting.observed = true ∧ (∀ c t, ((storing none).answer (.observe c) t).1 = .ok ()) ∧
      (∀ message t, ((storing none).answer (.send message) t).1 = .ok ()) ∧
      Event.observed (fetching none) = [filed.toCanonical (some MediaType.json)] ∧
      (filed.toCanonical (some MediaType.json)).status = 200 ∧
      ∃ headers rest, Event.messages (fetching none) = .start 404 headers :: rest :=
  ⟨rfl, fun _ _ => rfl, fun _ _ => rfl, by decide, rfl, _, _, rfl⟩

end Sample
end ApiGateway
