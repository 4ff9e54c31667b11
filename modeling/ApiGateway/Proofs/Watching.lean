import ApiGateway.Gateway.Dispatcher
import ApiGateway.Proofs.Transcript

/-!
# Watched calls

A call leaves no trace of its own in a run: only the operations of the callee can be
seen.  Watching lets every callee announce itself by an operation before it starts.
Nothing else changes, for erasing the announcements gives back the original program,
so calls can be counted in the runs of the real definitions.

Main definitions:

- `Watched`: operations of handlers together with announcements of callees.
- `Prog.watch`, `Prog.unwatch`: a program among watched ones, and the way back.
- `Event.callees`: the calls of a run, in order.
- `OperationHandler.announcing`, `Invoker.announcing`: handlers that announce themselves.

Main results:

- `Prog.unwatch_bind`, `Prog.unwatch_watch`: erasing announcements.
- `Prog.callees_watch`: a program that is only watched calls nobody.
- `Invoker.respond_announcing`: an invocation announces its handler once the arguments are
  gathered.
-/

namespace ApiGateway

variable {E F : Signature} {C α β σ : Type}

/-! ## Exchanges over other operations -/

/-- An exchange over the operations of `E` is one over those of `F`. -/
def Embedding.exchange (e : Embedding E F) : Embedding (Exchange E) (Exchange F) where
  op
    | .send message => .send message
    | .receiveBody => .receiveBody
    | .log entry => .log entry
    | .observe response => .observe response
    | .readFile path => .readFile path
    | .enter sc => .enter sc
    | .effect op => .effect (e.op op)
  answer
    | .send _, a => a
    | .receiveBody, a => a
    | .log _, a => a
    | .observe _, a => a
    | .readFile _, a => a
    | .enter _, a => a
    | .effect op, a => e.answer op a

namespace Exchange

variable (e : Embedding E F)

theorem embed_ofExcept {S T : Signature} (d : Embedding S T) (attempt : Except Fault α) :
    (Prog.ofExcept attempt).embed d = Prog.ofExcept attempt := by
  cases attempt <;> rfl

/-- Handing over a message is the same in every exchange. -/
theorem embed_send (message : Message) :
    (send message : Prog (Exchange E) Unit).embed e.exchange = send message :=
  congrArg (Prog.call _) (funext fun answer => embed_ofExcept e.exchange answer)

theorem embed_sendAll (messages : List Message) :
    (sendAll messages : Prog (Exchange E) Unit).embed e.exchange = sendAll messages := by
  induction messages with
  | nil => rfl
  | cons message rest ih =>
      rw [sendAll, Prog.embed_bind, embed_send, ih]
      rfl

theorem embed_receiveBody :
    (receiveBody : Prog (Exchange E) Bytes).embed e.exchange = receiveBody :=
  congrArg (Prog.call _) (funext fun answer => embed_ofExcept e.exchange answer)

theorem embed_observe (response : Canonical) :
    (observe response : Prog (Exchange E) Unit).embed e.exchange = observe response :=
  congrArg (Prog.call _) (funext fun answer => embed_ofExcept e.exchange answer)

theorem embed_logAll (entries : List LogEntry) :
    (logAll entries : Prog (Exchange E) Unit).embed e.exchange = logAll entries := by
  induction entries with
  | nil => rfl
  | cons entry rest ih => exact congrArg (Prog.call _) (funext fun _ => ih)

theorem embed_sendChunks (chunks : List (Except Fault Bytes)) :
    (Native.sendChunks chunks : Prog (Exchange E) Unit).embed e.exchange =
      Native.sendChunks chunks := by
  induction chunks with
  | nil => exact embed_send e _
  | cons chunk rest ih =>
      cases chunk with
      | error fault => rfl
      | ok bytes =>
          rw [Native.sendChunks, Prog.embed_bind, embed_send, ih]
          rfl

/-- Sending a response is the same in every exchange. -/
theorem embed_native (res : Native) :
    (res.send : Prog (Exchange E) Unit).embed e.exchange = res.send := by
  cases res with
  | plain head content => exact embed_sendAll e _
  | json head content => exact embed_sendAll e _
  | stream head chunks =>
      rw [Native.send, Prog.embed_bind, embed_send, embed_sendChunks]
      rfl
  | file head path =>
      refine congrArg (Prog.call _) (funext fun (content : Option Bytes) => ?_)
      cases content with
      | none => rfl
      | some bytes => exact embed_sendAll e _

/-- Responding to a handler result is the same in every exchange. -/
theorem embed_respond (observed : Bool) (mediaType : Option Bytes) (result : HandlerResult) :
    (Dispatcher.respond observed mediaType result : Prog (Exchange E) Unit).embed e.exchange =
      Dispatcher.respond observed mediaType result := by
  unfold Dispatcher.respond
  rw [Prog.embed_bind, embed_logAll]
  congr 1
  funext _
  split
  · rfl
  · split
    · rw [Prog.embed_bind, embed_observe, embed_native]
    · exact embed_native e _

/-- The effects of a handler are carried over first or last. -/
theorem embed_effects (p : Prog E α) :
    (p.embed (Embedding.effects E)).embed e.exchange = (p.embed e).embed (Embedding.effects F) := by
  induction p with
  | done a => rfl
  | fault fault => rfl
  | call op next ih => exact congrArg (Prog.call _) (funext fun answer => ih _)
  | suspend rest ih => exact congrArg Prog.suspend ih

end Exchange

/-! ## Announcements -/

/-- An announcement of a callee, or an operation of the handlers. -/
inductive WatchedOp (C : Type) (E : Signature) where
  | announce (callee : C)
  | own (op : E.Op)

/-- The operations of handlers together with announcements. -/
def Watched (C : Type) (E : Signature) : Signature where
  Op := WatchedOp C E
  Ans
    | .announce _ => Unit
    | .own op => E.Ans op

/-- The operations of handlers remain available where calls are announced. -/
def Embedding.own (C : Type) (E : Signature) : Embedding E (Watched C E) where
  op := .own
  answer _ a := a

namespace Event

/-- The call that an event announces. -/
def callee? : Event (Exchange (Watched C E)) → Option C
  | .call (.effect (.announce callee)) _ => some callee
  | _ => none

/-- The calls announced in a transcript, in order. -/
def callees (events : List (Event (Exchange (Watched C E)))) : List C :=
  events.filterMap callee?

@[simp]
theorem callees_nil : callees ([] : List (Event (Exchange (Watched C E)))) = [] :=
  rfl

@[simp]
theorem callees_append (first rest : List (Event (Exchange (Watched C E)))) :
    callees (first ++ rest) = callees first ++ callees rest :=
  List.filterMap_append

end Event

namespace Prog

/-- A program in an exchange where calls are announced. -/
def watch (p : Prog (Exchange E) α) : Prog (Exchange (Watched C E)) α :=
  p.embed (Embedding.own C E).exchange

/-- Announces a call before a program. -/
def announce (callee : C) (p : Prog (Exchange E) α) : Prog (Exchange (Watched C E)) α :=
  .call (.effect (.announce callee)) fun _ => p.watch

/-- An announcement before the first part of a sequence is one before the sequence. -/
theorem announce_bind (callee : C) (p : Prog (Exchange E) α) (f : α → Prog (Exchange E) β) :
    (p.announce callee).bind (fun a => (f a).watch) = (p.bind f).announce callee :=
  congrArg (Prog.call _) (funext fun _ => (Prog.embed_bind _ p f).symm)

/-- Erases the announcements. -/
def unwatch : Prog (Exchange (Watched C E)) α → Prog (Exchange E) α
  | .done a => .done a
  | .fault e => .fault e
  | .call (.send message) next => .call (.send message) fun a => (next a).unwatch
  | .call .receiveBody next => .call .receiveBody fun a => (next a).unwatch
  | .call (.log entry) next => .call (.log entry) fun a => (next a).unwatch
  | .call (.observe response) next => .call (.observe response) fun a => (next a).unwatch
  | .call (.readFile path) next => .call (.readFile path) fun a => (next a).unwatch
  | .call (.enter sc) next => .call (.enter sc) fun a => (next a).unwatch
  | .call (.effect (.own op)) next => .call (.effect op) fun a => (next a).unwatch
  | .call (.effect (.announce _)) next => (next ()).unwatch
  | .suspend rest => .suspend rest.unwatch

/-- Announcements are erased part by part. -/
theorem unwatch_bind (p : Prog (Exchange (Watched C E)) α)
    (f : α → Prog (Exchange (Watched C E)) β) :
    (p.bind f).unwatch = p.unwatch.bind fun a => (f a).unwatch := by
  induction p with
  | done a => rfl
  | fault e => rfl
  | suspend rest ih => exact congrArg Prog.suspend ih
  | call op next ih =>
      cases op with
      | effect op =>
          cases op with
          | announce callee => exact ih ()
          | own op => exact congrArg (Prog.call _) (funext ih)
      | _ => exact congrArg (Prog.call _) (funext ih)

/-- Watching a program and erasing the announcements gives it back. -/
theorem unwatch_watch (p : Prog (Exchange E) α) :
    (p.watch : Prog (Exchange (Watched C E)) α).unwatch = p := by
  induction p with
  | done a => rfl
  | fault e => rfl
  | suspend rest ih => exact congrArg Prog.suspend ih
  | call op next ih => cases op <;> exact congrArg (Prog.call _) (funext ih)

/-- A program that is only watched calls nobody. -/
theorem callees_watch (p : Prog (Exchange E) α) (host : Host (Exchange (Watched C E)) σ) (s : σ) :
    Event.callees (p.watch.transcript host s) = [] := by
  induction p generalizing s with
  | done a => rfl
  | fault e => rfl
  | suspend rest ih => exact ih s
  | call op next ih => cases op <;> exact ih _ _

/-- An announced program calls exactly one callee. -/
theorem callees_announce (callee : C) (p : Prog (Exchange E) α)
    (host : Host (Exchange (Watched C E)) σ) (s : σ) :
    Event.callees ((p.announce callee).transcript host s) = [callee] :=
  congrArg (List.cons callee) (callees_watch p host _)

end Prog

/-! ## Watched callees -/

/-- Changes the entries of a registry under their names. -/
def Registry.map (f : Bytes → α → β) (r : Registry α) : Registry β :=
  ⟨r.entries.map fun entry => (entry.1, f entry.1 entry.2)⟩

/-- Looking up after changing the entries. -/
theorem Registry.find?_map (f : Bytes → α → β) (r : Registry α) (name : Bytes) :
    (r.map f).find? name = (r.find? name).map (f name) := by
  rcases r with ⟨entries⟩
  simp only [Registry.map, Registry.find?]
  induction entries with
  | nil => rfl
  | cons first rest ih =>
      rw [List.map_cons, lookup_cons_eq_ite, ih]
      rcases first with ⟨key, entry⟩
      rw [lookup_cons_eq_ite]
      by_cases h : name = key
      · simp [h]
      · simp [h]

namespace OperationHandler

/-- The handler that announces itself with its arguments. -/
def announcing (handler : OperationHandler E) (callee : Arguments → C) :
    OperationHandler (Watched C E) :=
  .async fun args =>
    .call (.announce (callee args)) fun _ => (handler.program args).embed (Embedding.own C E)

end OperationHandler

namespace Invoker

/-- The invoker whose handler announces itself. -/
def announcing (inv : Invoker E) (callee : Arguments → C) : Invoker (Watched C E) where
  operation := inv.operation
  handler := inv.handler.announcing callee
  binder := inv.binder
  apiBasePath := inv.apiBasePath
  identifiers := inv.identifiers

/-- Gathering arguments is not affected by announcements. -/
theorem arguments_announcing (inv : Invoker E) (callee : Arguments → C) (sc : Scope) :
    (inv.announcing callee).arguments sc = (inv.arguments sc).watch := by
  cases hfail : (inv.bindParameters sc).failure with
  | some e =>
      have hfail' : ((inv.announcing callee).bindParameters sc).failure = some e := hfail
      rw [arguments_of_failure hfail, arguments_of_failure hfail']
      rfl
  | none =>
      have hfail' : ((inv.announcing callee).bindParameters sc).failure = none := hfail
      cases hbody : inv.operation.hasRequestBody with
      | false =>
          have hbody' : (inv.announcing callee).operation.hasRequestBody = false := hbody
          rw [arguments_of_no_requestBody hfail hbody, arguments_of_no_requestBody hfail' hbody']
          rfl
      | true =>
          have hbody' : (inv.announcing callee).operation.hasRequestBody = true := hbody
          rw [arguments_of_hasRequestBody hfail hbody, arguments_of_hasRequestBody hfail' hbody',
            Prog.watch, Prog.embed_bind, Exchange.embed_receiveBody]
          rfl

/-- The invocation gathers the arguments, then announces the handler and runs it. -/
theorem invoke_announcing (inv : Invoker E) (callee : Arguments → C) (sc : Scope) :
    (inv.announcing callee).invoke sc =
      (inv.arguments sc).watch.bind fun args =>
        ((inv.handler.program args).embed (Embedding.effects E)).announce (callee args) := by
  rw [invoke, arguments_announcing]
  congr 1
  funext args
  exact congrArg (Prog.call _) (funext fun _ => (Exchange.embed_effects _ _).symm)

/-- Invoking and responding, where the arguments are followed by the announced handler. -/
theorem respond_announcing (inv : Invoker E) (callee : Arguments → C) (sc : Scope)
    (observed : Bool) (mediaType : Option Bytes) :
    ((inv.announcing callee).invoke sc).bind (Dispatcher.respond observed mediaType) =
      (inv.arguments sc).watch.bind fun args =>
        (((inv.handler.program args).embed (Embedding.effects E)).bind
          (Dispatcher.respond observed mediaType)).announce (callee args) := by
  have hrespond : (Dispatcher.respond observed mediaType : _ → Prog (Exchange (Watched C E)) Unit) =
      fun result => (Dispatcher.respond observed mediaType result : Prog (Exchange E) Unit).watch :=
    funext fun result => (Exchange.embed_respond _ _ _ result).symm
  rw [invoke_announcing, Prog.bind_assoc, hrespond]
  congr 1
  funext args
  exact Prog.announce_bind _ _ _

/-- Erasing the announcement gives back the invocation and its response. -/
theorem unwatch_respond_announcing (inv : Invoker E) (callee : Arguments → C) (sc : Scope)
    (observed : Bool) (mediaType : Option Bytes) :
    (((inv.announcing callee).invoke sc).bind (Dispatcher.respond observed mediaType)).unwatch =
      (inv.invoke sc).bind (Dispatcher.respond observed mediaType) := by
  rw [respond_announcing, Prog.unwatch_bind, Prog.unwatch_watch, invoke, Prog.bind_assoc]
  congr 1
  funext args
  exact Prog.unwatch_watch _

/-- Exactly the handler is called, once, if the arguments can be gathered. -/
theorem callees_respond_announcing (inv : Invoker E) (callee : Arguments → C) (sc : Scope)
    (observed : Bool) (mediaType : Option Bytes) (host : Host (Exchange (Watched C E)) σ) (s : σ) :
    Event.callees ((((inv.announcing callee).invoke sc).bind
        (Dispatcher.respond observed mediaType)).transcript host s) =
      match ((inv.arguments sc).watch.run host s).outcome with
      | .ok args => [callee args]
      | .error _ => [] := by
  rw [respond_announcing, Prog.transcript_bind, Event.callees_append, Prog.callees_watch,
    List.nil_append]
  cases ((inv.arguments sc).watch.run host s).outcome with
  | error e => rfl
  | ok args => exact Prog.callees_announce _ _ host _

end Invoker
end ApiGateway
