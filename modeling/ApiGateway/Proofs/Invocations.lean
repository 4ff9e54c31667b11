import ApiGateway.Proofs.ReceivedBodies
import ApiGateway.Proofs.Sequencing

/-!
# Invocations

An invocation calls the binder, then the source of the body, then the handler.  The binder and the
handler announce themselves, so that the order of the calls shows in the events of a run; without
the announcements it is the invocation itself.

Main definitions:

- `Invoker.Callee`, `Invoker.watchedInvoke`: the invocation whose callees announce themselves.
- `Invoker.Handles`, `Invoker.Stops`: an invocation that calls the handler, and one that does not.
- `Invoker.InOrder`: what an invocation calls, and with what.
- `Binder.LeavesBody`: binders that bind nothing but parameters.
- `Invoker.boundBody`: the body that a binder gives to a call.

Main results:

- `Prog.transcript_watch_effects`: a handler acts on the state of the handlers only.
- `Invoker.binds_then_reads_then_handles`: every invocation makes its calls in order.
-/

namespace ApiGateway

variable {E : Signature} {C α σ : Type}

/-! ## Effects of handlers in an exchange -/

/-- An event of a handler among those of an exchange. -/
def Event.effect : Event E → Event (Exchange E)
  | .call op answer =>
    let effect : ExchangeOp E := .effect op
    .call effect answer
  | .resumed => .resumed

/-- A connection is not touched by the effects of handlers. -/
theorem Prog.run_effects (handlers : Host E σ) (p : Prog E α) (c : Connection) (j : Journal σ) :
    (p.embed (Embedding.effects E)).run (Connection.host handlers) (c, j) =
      ⟨(p.run handlers j.state).outcome, (p.run handlers j.state).resumptions,
        (c, { j with state := (p.run handlers j.state).state })⟩ := by
  induction p generalizing j with
  | done a => rfl
  | fault e => rfl
  | call op next ih =>
      exact ih _ { j with state := (handlers.answer op j.state).2 }
  | suspend rest ih => rw [embed, run_suspend, ih, run_suspend]

/-- Nothing but the effects of the handler shows in its run. -/
theorem Prog.transcript_watch_effects (handlers : Host E σ) (p : Prog E α) (c : Connection)
    (j : Journal σ) :
    ((p.embed (Embedding.effects E)).watch : Prog (Exchange (Watched C E)) α).transcript
        (Connection.host handlers.watched) (c, j) =
      (p.transcript handlers j.state).map fun event => event.own.effect := by
  induction p generalizing j with
  | done a => rfl
  | fault e => rfl
  | call op next ih =>
      exact congrArg (List.cons _) (ih _ { j with state := (handlers.answer op j.state).2 })
  | suspend rest ih => exact congrArg (List.cons _) (ih j)

/-! ## Gathered arguments -/

namespace Invoker

variable {inv : Invoker E} {sc : Scope}

section Gathering

variable (handlers : Host E σ) (c : Connection) (j : Journal σ)

/-- A fault of the binder is raised before the body is read. -/
theorem run_arguments_of_failure {e : Fault} (h : (inv.bindParameters sc).failure = some e) :
    (inv.arguments sc).run (Connection.host handlers) (c, j) = ⟨.error e, 0, (c, j)⟩ ∧
      (inv.arguments sc).transcript (Connection.host handlers) (c, j) = [] := by
  rw [arguments_of_failure h]
  exact ⟨rfl, rfl⟩

/-- Without a declared body the arguments are those that the binder has left. -/
theorem run_arguments_of_no_requestBody (h : (inv.bindParameters sc).failure = none)
    (hbody : inv.operation.hasRequestBody = false) :
    (inv.arguments sc).run (Connection.host handlers) (c, j) =
        ⟨.ok (inv.bindParameters sc).arguments, 0, (c, j)⟩ ∧
      (inv.arguments sc).transcript (Connection.host handlers) (c, j) = [] := by
  rw [arguments_of_no_requestBody h hbody]
  exact ⟨rfl, rfl⟩

/-- A declared body is read once the parameters are bound. -/
theorem run_arguments_of_hasRequestBody (h : (inv.bindParameters sc).failure = none)
    (hbody : inv.operation.hasRequestBody = true) :
    (inv.arguments sc).run (Connection.host handlers) (c, j) =
        ⟨c.receiveBody.1.map fun body =>
          { (inv.bindParameters sc).arguments with body := some body }, 0, (c.receiveBody.2, j)⟩ ∧
      (inv.arguments sc).transcript (Connection.host handlers) (c, j) =
        [.call .receiveBody c.receiveBody.1] := by
  rw [arguments_of_hasRequestBody h hbody, Prog.run_bind, Prog.transcript_bind,
    Connection.run_receiveBody, Connection.transcript_receiveBody, Ending.andThen]
  cases c.receiveBody.1 with
  | error e => exact ⟨rfl, rfl⟩
  | ok body => exact ⟨rfl, rfl⟩

end Gathering

/-! ## Watched invocations -/

/-- Whom an invocation calls beside the source of the body. -/
inductive Callee where
  | binder
  | handler (args : Arguments)

/--
An invocation whose callees announce themselves: the binder, if there is one, and the handler.
-/
def watchedInvoke (inv : Invoker E) (sc : Scope) :
    Prog (Exchange (Watched Callee E)) HandlerResult :=
  if inv.binder.isSome then
    .call (.effect (.announce .binder)) fun _ => (inv.announcing .handler).invoke sc
  else
    (inv.announcing .handler).invoke sc

/-- Without the announcements it is the invocation itself. -/
theorem unwatch_watchedInvoke (inv : Invoker E) (sc : Scope) :
    (inv.watchedInvoke sc).unwatch = inv.invoke sc := by
  have hinvoke : ((inv.announcing Callee.handler).invoke sc).unwatch = inv.invoke sc := by
    rw [invoke_announcing, Prog.unwatch_bind, Prog.unwatch_watch, invoke]
    congr 1
    funext args
    exact Prog.unwatch_watch _
  unfold watchedInvoke
  split
  · exact hinvoke
  · exact hinvoke

/-- The call of the binder among the events of an invocation. -/
def bindEvents (inv : Invoker E) : List (Event (Exchange (Watched Callee E))) :=
  if inv.binder.isSome then [(Event.announced Callee.binder).effect] else []

/-- The binder is called first. -/
theorem transcript_watchedInvoke (inv : Invoker E) (sc : Scope) (handlers : Host E σ)
    (s : Connection × Journal σ) :
    (inv.watchedInvoke sc).transcript (Connection.host handlers.watched) s =
      inv.bindEvents ++
        ((inv.announcing Callee.handler).invoke sc).transcript
          (Connection.host handlers.watched) s := by
  unfold watchedInvoke bindEvents
  split
  · rfl
  · rfl

/-! ## The order of the calls -/

/--
The handler is called once, with certain arguments, after the binder and after what has been read.
From there on the invocation is the program of the handler for these arguments, in each of its
steps, and it leaves the connection as it is.
-/
structure Handles (inv : Invoker E) (handlers : Host E σ) (sc : Scope) (c : Connection)
    (j : Journal σ) (reads : List (Event (Exchange (Watched Callee E)))) (args : Arguments)
    (c' : Connection) : Prop where
  events : (inv.watchedInvoke sc).transcript (Connection.host handlers.watched) (c, j) =
    inv.bindEvents ++ reads ++ (Event.announced (Callee.handler args)).effect ::
      ((inv.handler.program args).transcript handlers j.state).map fun event => event.own.effect
  reached : ∀ n, (inv.invoke sc).reached (Connection.host handlers) n (c, j) =
    ((inv.handler.program args).embed (Embedding.effects E)).reached
      (Connection.host handlers) n (c', j)
  run : (inv.invoke sc).run (Connection.host handlers) (c, j) =
    ⟨((inv.handler.program args).run handlers j.state).outcome,
      ((inv.handler.program args).run handlers j.state).resumptions,
      (c', { j with state := ((inv.handler.program args).run handlers j.state).state })⟩

/-- The handler is not called, since a fault has come first; it is raised at once and unchanged. -/
structure Stops (inv : Invoker E) (handlers : Host E σ) (sc : Scope) (c : Connection)
    (j : Journal σ) (reads : List (Event (Exchange (Watched Callee E)))) (e : Fault)
    (c' : Connection) : Prop where
  events : (inv.watchedInvoke sc).transcript (Connection.host handlers.watched) (c, j) =
    inv.bindEvents ++ reads
  run : (inv.invoke sc).run (Connection.host handlers) (c, j) = ⟨.error e, 0, (c', j)⟩

/--
An invocation makes its calls in order.  If the binder fails, nobody else is called.  Otherwise the
body is read, exactly if the operation declares one; unless that fails, the handler is called with
what the binder has bound and with the body.
-/
structure InOrder (inv : Invoker E) (handlers : Host E σ) (sc : Scope) (c : Connection)
    (j : Journal σ) : Prop where
  unbound : ∀ e, (inv.bindParameters sc).failure = some e → inv.Stops handlers sc c j [] e c
  bodiless : (inv.bindParameters sc).failure = none → inv.operation.hasRequestBody = false →
    inv.Handles handlers sc c j [] (inv.bindParameters sc).arguments c
  bodied : (inv.bindParameters sc).failure = none → inv.operation.hasRequestBody = true →
    c.Reads c.receiveBody.1 c.receiveBody.2 ∧
      (∀ e, c.receiveBody.1 = .error e →
        inv.Stops handlers sc c j [.call .receiveBody (.error e)] e c.receiveBody.2) ∧
      ∀ body, c.receiveBody.1 = .ok body →
        inv.Handles handlers sc c j [.call .receiveBody (.ok body)]
          { (inv.bindParameters sc).arguments with body := some body } c.receiveBody.2

/-- An invocation goes on with the handler once the arguments are gathered. -/
theorem handles_of_gathered {handlers : Host E σ} {c c' : Connection} {j : Journal σ}
    {args : Arguments} {reads : List (Event (Exchange (Watched Callee E)))}
    (hrun : (inv.arguments sc).run (Connection.host handlers) (c, j) = ⟨.ok args, 0, (c', j)⟩)
    (hwatched : ((inv.announcing Callee.handler).arguments sc).run
      (Connection.host handlers.watched) (c, j) = ⟨.ok args, 0, (c', j)⟩)
    (hreads : ((inv.announcing Callee.handler).arguments sc).transcript
      (Connection.host handlers.watched) (c, j) = reads) :
    inv.Handles handlers sc c j reads args c' where
  events := by
    rw [arguments_announcing] at hwatched hreads
    have houtcome := congrArg Ending.outcome hwatched
    rw [transcript_watchedInvoke, invoke_announcing, Prog.transcript_bind_of_ok _ houtcome,
      hwatched, hreads, ← List.append_assoc]
    exact congrArg (fun events => inv.bindEvents ++ reads ++ _ :: events)
      (Prog.transcript_watch_effects handlers (inv.handler.program args) c' j)
  reached n := by
    have hreached := Prog.reached_bind_of_ok (Connection.host handlers) (inv.arguments sc)
      (fun args => (inv.handler.program args).embed (Embedding.effects E)) n (c, j)
      (congrArg Ending.outcome hrun)
    rwa [hrun, Nat.zero_add] at hreached
  run := by
    rw [invoke, Prog.run_bind, hrun, Ending.andThen]
    dsimp only
    rw [Prog.run_effects, Nat.zero_add]

/-- An invocation whose arguments cannot be gathered is over. -/
theorem stops_of_gathered {handlers : Host E σ} {c c' : Connection} {j : Journal σ} {e : Fault}
    {reads : List (Event (Exchange (Watched Callee E)))}
    (hrun : (inv.arguments sc).run (Connection.host handlers) (c, j) = ⟨.error e, 0, (c', j)⟩)
    (hwatched : ((inv.announcing Callee.handler).arguments sc).run
      (Connection.host handlers.watched) (c, j) = ⟨.error e, 0, (c', j)⟩)
    (hreads : ((inv.announcing Callee.handler).arguments sc).transcript
      (Connection.host handlers.watched) (c, j) = reads) :
    inv.Stops handlers sc c j reads e c' where
  events := by
    rw [arguments_announcing] at hwatched hreads
    rw [transcript_watchedInvoke, invoke_announcing, Prog.transcript_bind, hwatched, hreads,
      List.append_nil]
  run := by rw [invoke, Prog.run_bind, hrun, Ending.andThen]

end Invoker

/-! ## Binders and the body -/

/-- The binder binds parameters and nothing else, so the body is as it was. -/
def Binder.LeavesBody (binder : Binder) : Prop :=
  ∀ op sc identifiers args, (binder op sc identifiers args).arguments.body = args.body

namespace Binder

/-- Binding values does not touch the body. -/
theorem body_addAll (args : Arguments) (name : Bytes) (values : List Bytes) :
    (args.addAll name values).body = args.body := by
  induction values generalizing args with
  | nil => rfl
  | cons value rest ih => exact ih (args.add name value)

/-- The standard binder binds parameters and nothing else. -/
theorem leavesBody_standard : standard.LeavesBody := by
  intro op sc identifiers args
  rw [standard]
  induction op.parameters generalizing args with
  | nil => rfl
  | cons p rest ih =>
      rw [bindParameters]
      split
      · rfl
      · rw [ih, body_addAll]

end Binder

namespace Invoker

/-- The body that a binder gives to a call on its own, before one is read; none without a binder. -/
def boundBody (inv : Invoker E) (sc : Scope) : Option Bytes :=
  inv.binder.bind fun binder =>
    (binder inv.operation sc inv.identifiers ⟨sc, [], none⟩).arguments.body

/-- Before a body is read there is the one that the binder has given. -/
theorem body_bindParameters (inv : Invoker E) (sc : Scope) :
    (inv.bindParameters sc).arguments.body = inv.boundBody sc := by
  unfold bindParameters boundBody
  cases inv.binder with
  | none => rfl
  | some binder => rfl

/--
Every invocation makes its calls in order: the binder, the source of a declared body up to its last
chunk, the handler.  Each of them is called only if no fault has come before, and the handler is
called once.  Where no body is declared the handler is given the one that the binder has set, and
the standard binder sets none.
-/
theorem binds_then_reads_then_handles (inv : Invoker E) (handlers : Host E σ) (sc : Scope)
    (c : Connection) (j : Journal σ) :
    (inv.watchedInvoke sc).unwatch = inv.invoke sc ∧ inv.InOrder handlers sc c j ∧
      (inv.bindParameters sc).arguments.body = inv.boundBody sc ∧
      Binder.standard.LeavesBody := by
  refine ⟨inv.unwatch_watchedInvoke sc, ⟨?unbound, ?bodiless, ?bodied⟩,
    inv.body_bindParameters sc, Binder.leavesBody_standard⟩
  case unbound =>
    intro e h
    have hwatched : ((inv.announcing Callee.handler).bindParameters sc).failure = some e := h
    rcases run_arguments_of_failure handlers.watched c j hwatched with ⟨hrun, hreads⟩
    exact stops_of_gathered (run_arguments_of_failure handlers c j h).1 hrun hreads
  case bodiless =>
    intro h hbody
    have hwatched : ((inv.announcing Callee.handler).bindParameters sc).failure = none := h
    rcases run_arguments_of_no_requestBody handlers.watched c j hwatched hbody with ⟨hrun, hreads⟩
    exact handles_of_gathered (run_arguments_of_no_requestBody handlers c j h hbody).1 hrun hreads
  case bodied =>
    intro h hbody
    have hwatched : ((inv.announcing Callee.handler).bindParameters sc).failure = none := h
    rcases run_arguments_of_hasRequestBody handlers.watched c j hwatched hbody with
      ⟨hwatchedRun, hreads⟩
    have hrun := (run_arguments_of_hasRequestBody handlers c j h hbody).1
    refine ⟨c.reads_receiveBody, fun e hfound => ?_, fun body hfound => ?_⟩
    · rw [hfound] at hrun hwatchedRun hreads
      exact stops_of_gathered hrun hwatchedRun hreads
    · rw [hfound] at hrun hwatchedRun hreads
      exact handles_of_gathered hrun hwatchedRun hreads

end Invoker

/-! ## Samples -/

namespace Sample

/-- An operation that declares a body. -/
def receiving : Invoker Signature.empty where
  operation := { hasRequestBody := true }
  handler := .sync fun _ => .done (.reply {})

/-- A connection with the body `ab` in two chunks, and a chunk behind it. -/
def delivering : Connection where
  source := some [.ok ⟨[97], true⟩, .ok ⟨[98], false⟩, .ok ⟨[99], false⟩]
  scope := { request := {} }

/-- The handler is given `ab`, and what comes behind the body stays where it is. -/
theorem delivered_body_is_handled :
    receiving.operation.hasRequestBody = true ∧
      receiving.Handles ⟨fun op => Empty.elim op⟩ delivering.scope delivering { state := () }
        [.call .receiveBody (.ok [97, 98])] ⟨delivering.scope, [], some [97, 98]⟩
        { delivering with source := some [.ok ⟨[99], false⟩], receives := 2 } :=
  ⟨rfl, ((Invoker.binds_then_reads_then_handles receiving ⟨fun op => Empty.elim op⟩
    delivering.scope delivering { state := () }).2.1.bodied rfl rfl).2.2 [97, 98] rfl⟩

/-- A binder that sets a body. -/
def settingBody : Binder := fun _ _ _ args => ⟨{ args with body := some [120] }, none⟩

/-- An operation that declares no body, with a binder that sets one. -/
def bodiless : Invoker Signature.empty where
  operation := { hasRequestBody := false }
  handler := .sync fun _ => .done (.reply {})
  binder := some settingBody

/-- The handler sees the body that the binder has set, though none is declared and none is read. -/
theorem bound_body_is_seen :
    bodiless.operation.hasRequestBody = false ∧
      (bodiless.bindParameters delivering.scope).failure = none ∧
      (bodiless.watchedInvoke delivering.scope).transcript
          (Connection.host (Host.watched ⟨fun op => Empty.elim op⟩))
          (delivering, { state := () }) =
        [(Event.announced Invoker.Callee.binder).effect,
          (Event.announced
            (Invoker.Callee.handler ⟨delivering.scope, [], some [120]⟩)).effect] :=
  ⟨rfl, rfl, rfl⟩

end Sample
end ApiGateway
