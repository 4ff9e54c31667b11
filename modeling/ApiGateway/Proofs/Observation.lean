import ApiGateway.Proofs.ResponseOrder
import ApiGateway.Proofs.RuleFollowed
import ApiGateway.Proofs.Suspension

/-!
# What a run shows to the observer

Only the response to the result of an operation is shown.  Handlers, manual routes and the
rendering of faults show nothing, and neither does the sending of a response.  So in the
run of an operation there is at most one place where something is shown, and it lies
between the end of the call and the first message.

Main definitions:

- `Event.observed`: the responses shown to the observer in a run.
- `Invoker.Reported`: what comes of the response of an observed operation.
- `App.tables`: the tables of manual routes.

Main results:

- `Rendering.observed_guarded`: error rendering shows nothing.
- `Invoker.reported`: a response is shown at most once, and before it is sent.
- `App.dispatch_of_no_operation`, `App.dispatch_of_operation`: who answers a routed request.
-/

namespace ApiGateway

variable {E : Signature} {σ α : Type}

/-! ## Responses shown in a transcript -/

namespace Event

/-- The response that an event shows to the observer. -/
def shown? : Event (Exchange E) → Option Canonical
  | .call (.observe response) _ => some response
  | _ => none

/-- The responses shown in a transcript, whether or not the observer has accepted them. -/
def observed (events : List (Event (Exchange E))) : List Canonical :=
  events.filterMap shown?

@[simp]
theorem observed_append (first rest : List (Event (Exchange E))) :
    observed (first ++ rest) = observed first ++ observed rest :=
  List.filterMap_append

end Event

/-- An operation that shows nothing to the observer. -/
def Exchange.IsUnseen : (Exchange E).Op → Prop
  | .observe _ => False
  | _ => True

namespace Exchange

variable {op : (Exchange E).Op}

theorem IsQuiet.isUnseen (h : IsQuiet op) : IsUnseen op := by
  cases op with
  | observe response => exact h
  | _ => exact trivial

theorem IsSending.isUnseen (h : IsSending op) : IsUnseen op := by
  cases op with
  | observe response => exact h
  | _ => exact trivial

end Exchange

namespace Prog.Admits

variable {p : Prog (Exchange E) α}

/-- A program that shows nothing has shown nothing in its runs. -/
theorem observed_eq_nil (h : p.Admits Exchange.IsUnseen) (host : Host (Exchange E) σ) (s : σ) :
    Event.observed (p.transcript host s) = [] := by
  refine h.filterMap_transcript (fun op answer hop => ?_) rfl host s
  cases op with
  | observe response => exact hop.elim
  | _ => rfl

/-- A quiet program has handed over nothing in its runs. -/
theorem messages_eq_nil (h : p.Admits Exchange.IsQuiet) (host : Host (Exchange E) σ) (s : σ) :
    Event.messages (p.transcript host s) = [] := by
  refine h.filterMap_transcript (fun op answer hop => ?_) rfl host s
  cases op with
  | send message => exact hop.elim
  | _ => rfl

end Prog.Admits

/-! ## Parts of the gateway that show nothing -/

/-- Sending a response shows nothing. -/
theorem Native.admits_send (res : Native) :
    (res.send : Prog (Exchange E) Unit).Admits Exchange.IsUnseen :=
  (Prog.Performs.sendNative res).admits.mono fun _ => Exchange.IsSending.isUnseen

/-- Route handlers are quiet, whether or not they read the body. -/
theorem RouteContext.admits_serve (kept : Option Bytes) (p : Prog (RouteEffects E) α) :
    (RouteContext.serve kept p).Admits Exchange.IsQuiet := by
  induction p generalizing kept with
  | done a => exact trivial
  | fault e => exact trivial
  | call op next ih =>
      cases op with
      | effect op => exact ⟨trivial, fun a => ih a kept⟩
      | body =>
          cases kept with
          | some bytes => exact ih _ _
          | none => exact ⟨trivial, fun received => ih received _⟩
  | suspend rest ih => exact ih kept

/-- A table of manual routes shows nothing, whether it finds a route or not. -/
theorem RouteTable.admits_serve (table : RouteTable E) (sc : Scope) :
    (table.serve sc).Admits Exchange.IsUnseen := by
  unfold RouteTable.serve
  split
  · exact ((RouteContext.admits_serve none _).mono fun _ => Exchange.IsQuiet.isUnseen).bind
      Native.admits_send
  · exact Native.admits_send _

/-- Calling an operation does nothing but read the body and what its handler does. -/
theorem Invoker.admits_invoke_of {P : (Exchange E).Op → Prop} (hbody : P .receiveBody)
    (heffect : ∀ op, P (.effect op)) (inv : Invoker E) (sc : Scope) : (inv.invoke sc).Admits P :=
  (performs_arguments_of hbody inv sc).admits.bind fun _ => Prog.Admits.embed_effects heffect _

/-- Calling an operation is quiet until its result is there. -/
theorem Invoker.admits_invoke (inv : Invoker E) (sc : Scope) :
    (inv.invoke sc).Admits Exchange.IsQuiet :=
  admits_invoke_of trivial (fun _ => trivial) inv sc

/-- The answer to a fault shows nothing. -/
theorem Rendering.admits_answer (e : Fault) :
    (answer e : Prog (Exchange E) Unit).Admits Exchange.IsUnseen :=
  (Prog.Performs.answer (fun _ => trivial) (fun _ => Exchange.IsSending.isUnseen) e).admits

/-- Error rendering shows nothing more. -/
theorem Rendering.observed_guarded (host : Host (Exchange E) σ) (started : Bool)
    (p : Prog (Exchange E) Unit) (s : σ) :
    Event.observed ((guarded started p).transcript host s) =
      Event.observed (p.transcript host s) := by
  rw [transcript_guarded, Event.observed_append]
  split
  · cases (p.run host s).outcome with
    | ok _ => exact List.append_nil _
    | error e =>
        rw [(admits_answer e).observed_eq_nil host _]
        exact List.append_nil _
  · exact List.append_nil _

/-! ## Responses of operations -/

namespace Exchange

variable (host : Host (Exchange E) σ) (s : σ)

/-- What follows log entries runs as it does without them, from a later state. -/
theorem logAll_bind (entries : List LogEntry) (p : Prog (Exchange E) Unit) :
    ∃ logged t, ((logAll entries).bind fun _ => p).transcript host s =
        logged ++ p.transcript host t ∧
      (((logAll entries).bind fun _ => p).run host s).outcome = (p.run host t).outcome ∧
      Event.messages logged = [] ∧ Event.observed logged = [] := by
  induction entries generalizing s with
  | nil => exact ⟨[], s, rfl, rfl, rfl, rfl⟩
  | cons entry rest ih =>
      rcases ih (host.answer (.log entry) s).2 with ⟨logged, t, hevents, hend, hsent, hshown⟩
      exact ⟨.call (.log entry) (host.answer (.log entry) s).1 :: logged, t,
        congrArg (List.cons _) hevents, hend, hsent, hshown⟩

/-- What follows the showing of a response is run if the observer accepts it. -/
theorem observe_bind (c : Canonical) (p : Prog (Exchange E) Unit) :
    (∃ e, ((observe c).bind fun _ => p).transcript host s = [.call (.observe c) (.error e)] ∧
        (((observe c).bind fun _ => p).run host s).outcome = .error e ∧
        (host.answer (.observe c) s).1 = .error e) ∨
      ∃ t, ((observe c).bind fun _ => p).transcript host s =
          .call (.observe c) (.ok ()) :: p.transcript host t ∧
        (((observe c).bind fun _ => p).run host s).outcome = (p.run host t).outcome := by
  have hevents : ((observe c).bind fun _ => p).transcript host s =
      .call (.observe c) (host.answer (.observe c) s).1 ::
        ((Prog.ofExcept (host.answer (.observe c) s).1).bind fun _ => p).transcript host
          (host.answer (.observe c) s).2 := rfl
  have hend : ((observe c).bind fun _ => p).run host s =
      ((Prog.ofExcept (host.answer (.observe c) s).1).bind fun _ => p).run host
        (host.answer (.observe c) s).2 := rfl
  rw [hevents, hend]
  cases (host.answer (.observe c) s).1 with
  | error e => exact .inl ⟨e, rfl, rfl, rfl⟩
  | ok _ => exact .inr ⟨(host.answer (.observe c) s).2, rfl, rfl⟩

end Exchange

namespace Dispatcher

variable {mediaType : Option Bytes} {result : HandlerResult}

/-- A result without native form is a fault. -/
theorem respond_of_error {e : Fault} (h : result.toNative mediaType = .error e)
    (observed : Bool) :
    (respond observed mediaType result : Prog (Exchange E) Unit) =
      (Exchange.logAll (result.notices mediaType)).bind fun _ => .fault e := by
  rw [respond, h]

/-- Without an observer nothing is shown. -/
theorem admits_respond (mediaType : Option Bytes) (result : HandlerResult) :
    (respond false mediaType result : Prog (Exchange E) Unit).Admits Exchange.IsUnseen :=
  (Prog.Performs.respond (fun _ => trivial) (fun _ => Exchange.IsSending.isUnseen)
    (fun hobserved => absurd hobserved Bool.false_ne_true) mediaType result).admits

/-- An observer is shown the canonical form of the response that is sent. -/
theorem respond_of_ok {res : Native} (h : result.toNative mediaType = .ok res) :
    (respond true mediaType result : Prog (Exchange E) Unit) =
      (Exchange.logAll (result.notices mediaType)).bind fun _ =>
        (Exchange.observe (res.toCanonical mediaType)).bind fun _ => res.send := by
  rw [respond, h]
  rfl

end Dispatcher

namespace Invoker

/-- What comes of the response of an observed operation: the events of the call and its end. -/
inductive Reported (inv : Invoker E) (sc : Scope) (host : Host (Exchange E) σ) (s : σ) :
    List (Event (Exchange E)) → Except Fault Unit → Prop where
  /-- There is no response, and nothing is shown. -/
  | failed {events : List (Event (Exchange E))} {e : Fault}
      (hunseen : Event.observed events = []) : Reported inv sc host s events (.error e)
  /-- The observer is shown the response and fails. -/
  | refused {before : List (Event (Exchange E))} {c : Canonical} {e : Fault} {t : σ}
      (hunseen : Event.observed before = [])
      (hrefused : (host.answer (.observe c) t).1 = .error e) :
      Reported inv sc host s (before ++ [.call (.observe c) (.error e)]) (.error e)
  /-- The observer is shown the response, which is then sent. -/
  | sent {result : HandlerResult} {res : Native} {before : List (Event (Exchange E))} {t : σ}
      (hresult : ((inv.invoke sc).run host s).outcome = .ok result)
      (hnative : result.toNative inv.mediaType = .ok res)
      (hcall : (inv.invoke sc).transcript host s <+: before)
      (hunsent : Event.messages before = []) (hunseen : Event.observed before = []) :
      Reported inv sc host s
        (before ++ .call (.observe (res.toCanonical inv.mediaType)) (.ok ()) ::
          res.send.transcript host t) (res.send.run host t).outcome

/-- The response of an observed operation is shown at most once, and before it is sent. -/
theorem reported (inv : Invoker E) (sc : Scope) (host : Host (Exchange E) σ) (s : σ) :
    inv.Reported sc host s
      (((inv.invoke sc).bind (Dispatcher.respond true inv.mediaType)).transcript host s)
      (((inv.invoke sc).bind (Dispatcher.respond true inv.mediaType)).run host s).outcome := by
  have hquiet := inv.admits_invoke sc
  have hunsent := hquiet.messages_eq_nil host s
  have hunseen := (hquiet.mono fun _ => Exchange.IsQuiet.isUnseen).observed_eq_nil host s
  cases hout : ((inv.invoke sc).run host s).outcome with
  | error e =>
      rw [Prog.transcript_bind, Prog.outcome_bind_of_error _ hout, hout, List.append_nil]
      exact .failed hunseen
  | ok result =>
      rw [Prog.transcript_bind_of_ok _ hout, Prog.outcome_bind_of_ok _ hout]
      generalize ((inv.invoke sc).run host s).state = t
      cases hnative : result.toNative inv.mediaType with
      | error e =>
          rcases Exchange.logAll_bind host t (result.notices inv.mediaType) (.fault e) with
            ⟨logged, t', hevents, hend, -, hlogged⟩
          rw [Dispatcher.respond_of_error hnative, hevents, hend]
          refine .failed ?_
          rw [Event.observed_append, Event.observed_append, hunseen, hlogged]
          rfl
      | ok res =>
          let shown := (Exchange.observe (res.toCanonical inv.mediaType)).bind fun _ =>
            (res.send : Prog (Exchange E) Unit)
          rcases Exchange.logAll_bind host t (result.notices inv.mediaType) shown with
            ⟨logged, t', hevents, hend, hsent, hlogged⟩
          rw [Dispatcher.respond_of_ok hnative, hevents, hend, ← List.append_assoc]
          have hbefore : Event.observed ((inv.invoke sc).transcript host s ++ logged) = [] := by
            rw [Event.observed_append, hunseen, hlogged, List.append_nil]
          rcases Exchange.observe_bind host t' (res.toCanonical inv.mediaType) res.send with
            ⟨e, hevents, hend, hrefused⟩ | ⟨t'', hevents, hend⟩
          · rw [hevents, hend]
            exact .refused hbefore hrefused
          · rw [hevents, hend]
            refine .sent hout hnative (List.prefix_append _ _) ?_ hbefore
            rw [Event.messages_append, hunsent, hsent, List.append_nil]

end Invoker

/-! ## Where requests are dispatched to -/

namespace App

/-- The tables of manual routes: that of the application, and those of its APIs. -/
def tables (app : App E) : List (RouteTable E) :=
  app.routes :: app.apis.map Api.routes

section Dispatching

variable {app : App E} {sc : Scope} {routing : Routing}

/-- A request is delegated to the API that owns it, or the application keeps it. -/
theorem delegated_or_kept (app : App E) (h : sc.routing = some routing) :
    (∃ api ∈ app.apis, routing.apiBasePath = some api.basePath ∧
        app.dispatch sc = api.serve app.observed sc) ∨
      ∀ base subApp, ¬app.dispatcher.Delegates routing base subApp := by
  by_cases hdelegated : ∃ base subApp, app.dispatcher.Delegates routing base subApp
  · rcases hdelegated with ⟨base, subApp, hdelegates⟩
    rcases List.mem_map.1 (Registry.mem_of_find?_ofList hdelegates.2.2) with ⟨api, hapi, hentry⟩
    cases hentry
    exact .inl ⟨api, hapi, hdelegates.1, Dispatcher.serve_of_delegates h hdelegates⟩
  · exact .inr fun base subApp hdelegates => hdelegated ⟨base, subApp, hdelegates⟩

/-- A request without operation is answered by a table of manual routes. -/
theorem dispatch_of_no_operation (app : App E) (h : sc.routing = some routing)
    (hid : routing.operationId = none) :
    ∃ table ∈ app.tables, app.dispatch sc = table.serve sc := by
  rcases app.delegated_or_kept h with ⟨api, hapi, -, hdispatch⟩ | hkept
  · refine ⟨api.routes, List.mem_cons_of_mem _ (List.mem_map_of_mem hapi), hdispatch.trans ?_⟩
    exact Dispatcher.serve_of_no_operation (d := api.dispatcher app.observed) h
      (api.not_delegates _ _) hid
  · exact ⟨app.routes, List.mem_cons_self, Dispatcher.serve_of_no_operation h hkept hid⟩

/-- A request with an operation is answered by its invoker in the owning API, or not at all. -/
theorem dispatch_of_operation (app : App E) (h : sc.routing = some routing) {id : Bytes}
    (hid : routing.operationId = some id) :
    (∃ api ∈ app.apis, ∃ inv, routing.apiBasePath = some api.basePath ∧
        api.operations.find? id = some inv ∧
        app.dispatch sc = (inv.invoke sc).bind (Dispatcher.respond app.observed inv.mediaType)) ∨
      app.dispatch sc = .fault (Dispatcher.unknownOperation id) := by
  rcases app.delegated_or_kept h with ⟨api, hapi, hbase, hdispatch⟩ | hkept
  · rw [hdispatch]
    cases hfind : api.operations.find? id with
    | some inv =>
        exact .inl ⟨api, hapi, inv, hbase, hfind, Dispatcher.serve_of_operation
          (d := api.dispatcher app.observed) h (api.not_delegates _ _) hid hfind⟩
    | none =>
        exact .inr (Dispatcher.serve_of_unknown_operation (d := api.dispatcher app.observed) h
          (api.not_delegates _ _) hid hfind)
  · exact .inr (Dispatcher.serve_of_unknown_operation h hkept hid rfl)

end Dispatching
end App
end ApiGateway
