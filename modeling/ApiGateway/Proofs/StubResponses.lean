import ApiGateway.Proofs.Deliveries
import ApiGateway.Proofs.ExactBinding
import ApiGateway.Proofs.FirstFaults
import ApiGateway.Proofs.Json.RoundTrip
import ApiGateway.Proofs.PathParameters
import ApiGateway.Proofs.PostponedHandlers

/-!
# Operations without handler

An API with a status for stubs accepts operations without handler.  A request that is routed to such
an operation passes the same way as any other: its parameters are bound and its body is read, and
only then the stub raises the fault that the request is answered with.

Main definitions:

- `Api.Present`: the parameters of an operation are present in a request.
- `App.ReachesStub`: a request comes as far as the stub of an operation.
- `Prog.AnswersWith`: a run in which a problem is handed over, and nothing else.
- `Api.stubProblem`: the problem of an operation without handler.

Main results:

- `Invoker.outcome_invoke_of_fault`: a handler that raises a fault ends the call with it.
- `Rendering.answersWith_guarded`: a fault with a problem, raised before the start, is answered.
- `Problem.read?_text`: the text of a problem is read back.
- `App.sets_up_exactly`: when a setup fails and how, and what stubs answer.
-/

namespace ApiGateway

variable {E : Signature} {σ : Type}

/-! ## Calls of a handler that fails -/

/--
The parameters of an operation are present in a request.  The standard binder is given a value for
each required one; any other binder tells by itself.
-/
inductive Api.Present (api : Api E) (op : OperationSpec) (sc : Scope) : Prop where
  | given (hbinder : api.options.binder = Binder.standard)
      (hgiven : ∀ p ∈ op.parameters, p.required = true →
        ∃ value values, Binder.Gives sc p (value :: values))
  | bound (hbound :
      (api.options.binder op sc api.options.identifiers ⟨sc, [], none⟩).failure = none)

/-- Parameters that are present are bound. -/
theorem Api.Present.failure_eq_none {api : Api E} {op : OperationSpec} {sc : Scope}
    (h : api.Present op sc) (handler : OperationHandler E) :
    ((api.invokerFor op handler).bindParameters sc).failure = none := by
  cases h with
  | bound hbound => exact hbound
  | given hbinder hgiven =>
      have hbind : (api.invokerFor op handler).bindParameters sc =
          Binder.standard op sc api.options.identifiers ⟨sc, [], none⟩ := by
        rw [← hbinder]
        rfl
      rw [hbind, Option.eq_none_iff_forall_ne_some]
      intro e he
      have hexact := Binder.standard_binds_exactly op sc api.options.identifiers ⟨sc, [], none⟩
      rcases hexact.fails_iff.1 ⟨e, he⟩ with ⟨p, hp, hrequired, hnothing⟩
      rcases hgiven p hp hrequired with ⟨value, values, hsome⟩
      have hsame := (Binder.gives_iff.1 hnothing).trans (Binder.gives_iff.1 hsome).symm
      cases hsame

namespace Invoker

variable {inv : Invoker E} {sc : Scope} {host : Host (Exchange E) σ} {s : σ}

/-- The arguments are gathered if the parameters are bound and a declared body can be read. -/
theorem exists_outcome_arguments (hbind : (inv.bindParameters sc).failure = none)
    (hbody : inv.operation.hasRequestBody = true →
      ∃ content, (host.answer .receiveBody s).1 = .ok content) :
    ∃ args, ((inv.arguments sc).run host s).outcome = .ok args := by
  cases hdeclared : inv.operation.hasRequestBody with
  | false =>
      rw [arguments_of_no_requestBody hbind hdeclared]
      exact ⟨_, rfl⟩
  | true =>
      rcases hbody hdeclared with ⟨content, hcontent⟩
      have hreceive : (Exchange.receiveBody.run host s).outcome = .ok content := by
        change (Prog.run host (.ofExcept (host.answer .receiveBody s).1) _).outcome = _
        rw [hcontent]
        rfl
      rw [arguments_of_hasRequestBody hbind hdeclared, Prog.outcome_bind_of_ok _ hreceive]
      exact ⟨_, rfl⟩

/-- A handler that raises a fault ends the call with it. -/
theorem outcome_invoke_of_fault {args : Arguments} {e : Fault}
    (hargs : ((inv.arguments sc).run host s).outcome = .ok args)
    (hhandler : inv.handler.program args = .fault e) :
    ((inv.invoke sc).run host s).outcome = .error e := by
  rw [invoke, Prog.outcome_bind_of_ok _ hargs, hhandler]
  rfl

end Invoker

/-! ## Answering with a problem -/

/-- The headers with which a problem is sent. -/
def Problem.sentHeaders (p : Problem) : Http.Headers := [
  (contentTypeName, MediaType.problem),
  (contentLengthName, Bytes.ofNat p.text.length)]

/--
A run in which a problem is handed over.  Its start comes first, its text follows, and nothing else
is handed over; both are handed over unless the host refuses one of them.
-/
structure Prog.AnswersWith (p : Prog (Exchange E) Unit) (host : Host (Exchange E) σ) (s : σ)
    (problem : Problem) : Prop where
  starts : ∃ rest, rest <+: [.body problem.text false] ∧
    Event.messages (p.transcript host s) = .start problem.status problem.sentHeaders :: rest
  complete : (p.run host s).outcome = .ok () → Event.messages (p.transcript host s) =
    [.start problem.status problem.sentHeaders, .body problem.text false]
  accepted : (∀ message t, (host.answer (.send message) t).1 = .ok ()) →
    (p.run host s).outcome = .ok ()

namespace Rendering

/-- A fault with a problem, raised before anything is handed over, is answered with the problem. -/
theorem answersWith_guarded {p : Prog (Exchange E) Unit} {host : Host (Exchange E) σ} {s : σ}
    {problem : Problem} {code : Option ErrorCode}
    (hfault : (p.run host s).outcome = .error (.problem problem code))
    (hunsent : Event.messages (p.transcript host s) = []) :
    (guarded false p).AnswersWith host s problem := by
  let entry : LogEntry := .faultRendered problem.status (Fault.problem problem code).message
  let frame : List Message :=
    [.start problem.status problem.sentHeaders, .body problem.text false]
  let sent := (host.answer (.log entry) (p.run host s).state).2
  have hnone : ∀ message ∈ Event.messages (p.transcript host s), message.isStart = false := by
    rw [hunsent]
    exact fun _ hmem => nomatch hmem
  have hmessages : Event.messages ((guarded false p).transcript host s) =
      Event.messages ((Exchange.sendAll frame).transcript host sent) := by
    rw [transcript_guarded_of_fault hfault hnone, Event.messages_append, hunsent]
    rfl
  have houtcome : ((guarded false p).run host s).outcome =
      ((Exchange.sendAll frame).run host sent).outcome := by
    rw [run_guarded, if_pos ((isRendered_false_iff p host s).2 hnone), Ending.rescue, hfault]
    rfl
  refine ⟨?_, ?_, ?_⟩
  · have hprefix := Exchange.messages_sendAll_isPrefix host frame sent
    rcases Exchange.exists_messages_sendAll_cons host (.start problem.status problem.sentHeaders)
      [.body problem.text false] sent with ⟨rest, hrest⟩
    rw [hrest] at hprefix
    exact ⟨rest, (List.cons_prefix_cons.1 hprefix).2, hmessages.trans hrest⟩
  · rw [hmessages, houtcome]
    exact Exchange.messages_sendAll host
  · intro htakes
    rw [houtcome]
    exact Exchange.outcome_sendAll htakes frame sent

end Rendering

/-! ## The problem of a stub -/

namespace Api

/-- What the client is told about an operation without handler. -/
def stubDetail (operationId : Bytes) : Bytes :=
  Bytes.ofString "operation '" ++ operationId ++ Bytes.ofString "' is not implemented"

/-- The problem of an operation without handler names its id. -/
def stubProblem (status : Int) (operationId : Bytes) : Problem where
  title := statusTitle status
  status := status
  detail := some (stubDetail operationId)

/-- A stub raises the problem. -/
theorem notImplemented_eq (status : Int) (operationId : Bytes) :
    notImplemented status operationId =
      .problem (stubProblem status operationId) (some .unresolvedOperation) := by
  have hdetail : ¬(stubDetail operationId).isEmpty = true := by
    rw [List.isEmpty_iff, stubDetail, List.append_assoc]
    exact List.append_ne_nil_of_left_ne_nil (by decide) _
  rw [notImplemented, Problem.ofStatus, Problem.make, ← stubDetail, if_neg hdetail]
  rfl

/-- Without handler an operation gets a stub, if there is a status for it. -/
theorem handlerFor_of_stub {api : Api E} {op : OperationSpec} {status : Int}
    (hhandler : api.handlers.find? op.operationId = none)
    (hstub : api.options.stubStatus = some status) :
    api.handlerFor op = .ok (.sync fun _ => .fault (notImplemented status op.operationId),
      [.handlerMissing op.operationId status]) := by
  rw [handlerFor, hhandler, hstub]

/-- The text of the problem is read as a JSON object with the status and the detail. -/
theorem read?_stubProblem (real : Json.Numeral → Binary64) (status : Int)
    (operationId : Bytes) :
    Json.read? real (stubProblem status operationId).text = some (.object [
      (Bytes.ofString "type", .string (Bytes.ofString "about:blank")),
      (Bytes.ofString "title", .string (statusTitle status)),
      (Bytes.ofString "status", .integer (Int64.ofInt status)),
      (Bytes.ofString "detail", .string (stubDetail operationId))]) := by
  have hdocument : (stubProblem status operationId).value.document = .object [
      (Bytes.ofString "type", .string (Bytes.ofString "about:blank")),
      (Bytes.ofString "title", .string (statusTitle status)),
      (Bytes.ofString "status", .integer (Int64.ofInt status)),
      (Bytes.ofString "detail", .string (stubDetail operationId))] := rfl
  have hfree : Json.NumberFree (stubProblem status operationId).value.document := by
    rw [hdocument]
    refine .object ?_
    simp [Json.NumberFree.string, Json.NumberFree.integer]
  rw [Problem.text, Json.read?_dump real hfree, hdocument]

end Api

/-! ## Requests for operations without handler -/

namespace App

/--
A request comes as far as the stub of an operation.  It is routed to an operation of a mounted API
whose operations have different ids, which has no handler for this one but a status for stubs.  The
parameters of the operation are present, and the body can be read if one is declared.
-/
structure ReachesStub (app : App E) (sc : Scope) (api : Api E) (op : OperationSpec) (status : Int)
    (host : Host (Exchange E) σ) (s : σ) : Prop where
  mounted : api ∈ app.apis
  distinct : (api.spec.operations.map OperationSpec.operationId).Nodup
  declared : op ∈ api.spec.operations
  unhandled : api.handlers.find? op.operationId = none
  stubs : api.options.stubStatus = some status
  selects : app.Selects sc api op
  present : api.Present op (sc.enter (Routing.resolve (app.apis.map Api.routing) sc))
  readable : op.hasRequestBody = true → ∃ content, (host.answer .receiveBody (host.answer
    (.enter (sc.enter (Routing.resolve (app.apis.map Api.routing) sc))) s).2).1 = .ok content

variable {app : App E} {record : Bytes → List OperationSpec} {sc : Scope} {api : Api E}
  {op : OperationSpec}

/-- A request that is routed to an operation is served by the invoker registered last for its id. -/
theorem InStep.serve_of_selects (h : app.InStep record) (hapi : api ∈ app.apis)
    (hselects : app.Selects sc api op) :
    let inside := sc.enter (Routing.resolve (app.apis.map Api.routing) sc)
    ∃ last ∈ record api.basePath, ∃ handler log, last.operationId = op.operationId ∧
      api.handlerFor last = .ok (handler, log) ∧
      let inv := api.invokerFor last handler
      app.serve sc = Rendering.guarded false (.call (.enter inside) fun _ =>
        (inv.invoke inside).bind (Dispatcher.respond app.observed inv.mediaType)) := by
  rcases h.exists_leads sc.request.method sc.relativePath with ⟨dest, hleads⟩
  have hresolve := h.resolve_of_leads hleads
  rcases hselects with ⟨hbase, hid⟩
  rw [hresolve] at hbase hid ⊢
  cases dest with
  | routes base table => cases hid
  | operation base id params handler =>
      rcases hleads.offers with ⟨api', hapi', rfl, registered, hregistered, rfl, log, hhandler⟩
      obtain rfl := h.eq_of_basePath_eq hapi' hapi (Option.some.inj hbase)
      have hsame : registered.operationId = op.operationId := Option.some.inj hid
      rcases h.find_handler hapi' hregistered hhandler with ⟨last, hlast, hlastId, hfind⟩
      refine ⟨last, hlast, handler, log, hlastId.trans hsame, ?_, ?_⟩
      · rw [api'.handlerFor_congr hlastId, hhandler]
      · rw [serve_of_resolve hresolve, Destination.routing,
          dispatch_operation h.distinct hapi' hfind]

/-- A request that comes as far as a stub is answered with its problem. -/
theorem ReachesStub.answersWith {status : Int} {host : Host (Exchange E) σ} {s : σ}
    (hassembled : app.Assembled record) (h : app.ReachesStub sc api op status host s) :
    (app.serve sc).AnswersWith host s (Api.stubProblem status op.operationId) := by
  have hregisters := registers_of_assembled hassembled api h.mounted
  rcases (inStep_of_assembled hassembled).serve_of_selects h.mounted h.selects with
    ⟨last, hlast, handler, log, hid, hhandler, hserve⟩
  obtain rfl := List.inj_on_of_nodup_map h.distinct (hregisters.declared last hlast) h.declared hid
  rw [Api.handlerFor_of_stub h.unhandled h.stubs] at hhandler
  cases hhandler
  rw [hserve]
  let inside := sc.enter (Routing.resolve (app.apis.map Api.routing) sc)
  let entered := (host.answer (.enter inside) s).2
  let inv := api.invokerFor last
    (.sync fun _ => .fault (Api.notImplemented status last.operationId))
  have hbind : (inv.bindParameters inside).failure = none := h.present.failure_eq_none _
  rcases Invoker.exists_outcome_arguments hbind h.readable with ⟨args, hargs⟩
  have hfault : ((inv.invoke inside).run host entered).outcome =
      .error (.problem (Api.stubProblem status last.operationId) (some .unresolvedOperation)) := by
    rw [← Api.notImplemented_eq]
    exact Invoker.outcome_invoke_of_fault hargs rfl
  have hunsent : Event.messages (((inv.invoke inside).bind
      (Dispatcher.respond app.observed inv.mediaType)).transcript host entered) = [] := by
    rw [Prog.transcript_bind, hfault, List.append_nil]
    exact (inv.admits_invoke inside).messages_eq_nil host entered
  exact Rendering.answersWith_guarded (Prog.outcome_bind_of_error _ hfault) hunsent

/--
Setting up an API succeeds if all operations that are the first declared for their path and their
method are sound, and otherwise it fails with the fault of the first of them that is refused.  In
an application that any calls have set up, a request that comes as far as a stub is answered with
its problem, whose text is read as an object with the status and a detail that names the id.
-/
theorem sets_up_exactly (spec : Specification) (handlers : Resolver E) (options : ApiOptions)
    (calls : List (SetupCall E)) :
    ((Api.create spec handlers options).failure = none ↔
      ∀ before op after, spec.FirstAt before op after → op.Sound handlers options) ∧
    (∀ e, (Api.create spec handlers options).failure = some e ↔
      ∃ before op after, spec.FirstAt before op after ∧ op.Refused handlers options e ∧
        ∀ before' other after', spec.FirstAt before' other after' →
          before'.length < before.length → other.Sound handlers options) ∧
    ∀ {σ : Type} {sc : Scope} {api : Api E} {op : OperationSpec} {status : Int}
      {host : Host (Exchange E) σ} {s : σ}, (setUp calls).ReachesStub sc api op status host s →
      ((setUp calls).serve sc).AnswersWith host s (Api.stubProblem status op.operationId) ∧
        ∀ real, Json.read? real (Api.stubProblem status op.operationId).text = some (.object [
          (Bytes.ofString "type", .string (Bytes.ofString "about:blank")),
          (Bytes.ofString "title", .string (statusTitle status)),
          (Bytes.ofString "status", .integer (Int64.ofInt status)),
          (Bytes.ofString "detail", .string (Bytes.ofString "operation '" ++ op.operationId ++
            Bytes.ofString "' is not implemented"))]) := by
  refine ⟨Api.failure_create_eq_none_iff, fun _ => Api.failure_create_eq_some_iff, ?_⟩
  intro σ sc api op status host s h
  rcases exists_assembled_setUp calls with ⟨record, hassembled⟩
  exact ⟨h.answersWith hassembled, fun real => Api.read?_stubProblem real status op.operationId⟩

end App

/-! ## A sample -/

namespace Sample

/-- `GET /a`, and `POST /b` with a required header `n` and a body, under the base path `/v`. -/
def partly : Specification where
  basePath := [47, 118]
  operations := [
    { path := [47, 97], method := .get, operationId := [97] },
    { path := [47, 98], method := .post, operationId := [98], hasRequestBody := true
      parameters := [{ name := [110], location := .header, required := true }] }]

/-- A handler for the first operation. -/
def partlyHandlers : Resolver Signature.empty :=
  Registry.empty.insert [97] (.sync acknowledge)

/-- The API with a stub for the second operation. -/
def partlyApi : Api Signature.empty :=
  (Api.create partly partlyHandlers { basePath := some [47, 118], stubStatus := some 501 }).value

/-- The call that mounts the API. -/
def partlyMounted : SetupCall Signature.empty :=
  .addApi partly partlyHandlers { stubStatus := some 501 }

/-- A request for `POST /v/b` with the header. -/
def partlyScope : Scope :=
  { request := {
      method := .post
      target := [47, 118, 47, 98]
      headers := [([110], [49])] } }

/-- The request comes as far as the stub. -/
theorem partly_reachesStub :
    (App.setUp [partlyMounted]).ReachesStub partlyScope partlyApi partly.operations[1] 501
      accepting () where
  mounted := List.mem_singleton_self _
  distinct := by decide
  declared := List.mem_cons_of_mem _ (List.mem_singleton_self _)
  unhandled := rfl
  stubs := rfl
  selects := ⟨rfl, rfl⟩
  present := by
    refine .given rfl fun p hp _ => ⟨[49], [], ?_⟩
    rw [List.mem_singleton.1 hp]
    exact .header rfl ⟨[], _, [], rfl, by decide⟩
  readable := fun _ => ⟨[], rfl⟩

/-- Without a status for stubs the setup fails, and with one the request is answered by it. -/
theorem partly_answers_with_stub :
    (Api.create partly partlyHandlers {}).failure = some (.coded .gateway .unresolvedOperation
      (some (Bytes.ofString "operation_id 'b'"))) ∧
    (App.setUp [partlyMounted]).ReachesStub partlyScope partlyApi partly.operations[1] 501
      accepting () ∧
    Event.messages (((App.setUp [partlyMounted]).serve partlyScope).transcript accepting ()) = [
      .start 501 (Api.stubProblem 501 [98]).sentHeaders,
      .body (Api.stubProblem 501 [98]).text false] := by
  rcases App.sets_up_exactly partly partlyHandlers {} [partlyMounted] with ⟨-, hfails, hanswers⟩
  rcases hanswers partly_reachesStub with ⟨hanswer, -⟩
  refine ⟨(hfails _).2 ⟨[partly.operations[0]], partly.operations[1], [], ⟨rfl, by decide⟩, ?_, ?_⟩,
    partly_reachesStub, hanswer.complete (hanswer.accepted fun _ _ => rfl)⟩
  · exact .unresolved (by decide) rfl rfl
  · intro before other after hfirst hlt
    obtain rfl := List.length_eq_zero_iff.1 (Nat.lt_one_iff.1 hlt)
    cases hfirst.place
    exact ⟨by decide, .inl ⟨_, rfl⟩, _, rfl⟩

end Sample
end ApiGateway
