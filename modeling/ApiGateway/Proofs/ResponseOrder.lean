import ApiGateway.Gateway.App
import ApiGateway.Proofs.Dispatch
import ApiGateway.Proofs.Rendering

/-!
# The order of response messages

Whatever its handlers, its observer and its host do, an application hands over at most
one response, and a complete one unless a fault escapes.  The proof assigns a stage to
every point of a program: a program obeys the order if each message it hands over is
due at the stage reached so far, whatever the answers are.  Programs are checked part
by part, and a run of a program that obeys the order moves through the stages.

Main definitions:

- `Message.Orderly`, `Message.Complete`: what is required of the messages of a run.
- `ResponseStage`, `Prog.Obeys`: how far a response has got, and programs that keep the order.
- `App.routed`: an application without error rendering.

Main results:

- `Prog.Obeys.run`: the messages of a run follow the stages.
- `Prog.Obeys.guarded`: error rendering keeps the order.
- `App.hands_over_one_response`: the order of the messages of an application.
-/

namespace ApiGateway

variable {E : Signature} {σ α β : Type}

/-! ## Orderly messages -/

namespace Message

/-- What holds of the messages of every run. -/
structure Orderly (messages : List Message) : Prop where
  /-- At most one message starts a response. -/
  one_start : messages.countP isStart ≤ 1
  /-- No chunk is handed over before a start. -/
  start_first : ∀ before chunk more after,
    messages = before ++ .body chunk more :: after → ∃ message ∈ before, message.isStart
  /-- Nothing is handed over after a last chunk. -/
  last_ends : ∀ before message after,
    messages = before ++ message :: after → message.isLast → after = []

/-- A start and at least one chunk, of which exactly the last says that nothing follows. -/
def Complete (messages : List Message) : Prop :=
  ∃ (status : Int) (headers : Http.Headers) (chunks : List Bytes) (last : Bytes),
    messages = .start status headers :: (chunks.map (.body · true) ++ [.body last false])

end Message

/-- How far a response has got. -/
inductive ResponseStage where
  | awaiting
  | streaming
  | complete
deriving DecidableEq

namespace ResponseStage

/-- The stage after a message that is due. -/
def after? : ResponseStage → Message → Option ResponseStage
  | .awaiting, .start _ _ => some .streaming
  | .streaming, .body _ more => some (if more then .streaming else .complete)
  | _, _ => none

/-- The stage after messages of which each is due. -/
def afterAll? (stage : ResponseStage) (messages : List Message) : Option ResponseStage :=
  messages.foldlM after? stage

@[simp]
theorem afterAll?_nil (stage : ResponseStage) : stage.afterAll? [] = some stage :=
  rfl

@[simp]
theorem afterAll?_cons (stage : ResponseStage) (message : Message) (rest : List Message) :
    stage.afterAll? (message :: rest) = (stage.after? message).bind fun s => s.afterAll? rest :=
  rfl

theorem afterAll?_append (stage : ResponseStage) (first rest : List Message) :
    stage.afterAll? (first ++ rest) = (stage.afterAll? first).bind fun s => s.afterAll? rest :=
  List.foldlM_append

/-- The stages before, at and after a message in the middle. -/
theorem afterAll?_middle {stage final : ResponseStage} {before after : List Message}
    {message : Message} (h : stage.afterAll? (before ++ message :: after) = some final) :
    ∃ mid next, stage.afterAll? before = some mid ∧ mid.after? message = some next ∧
      next.afterAll? after = some final := by
  rw [afterAll?_append] at h
  rcases Option.bind_eq_some_iff.1 h with ⟨mid, hbefore, h⟩
  rw [afterAll?_cons] at h
  rcases Option.bind_eq_some_iff.1 h with ⟨next, hmessage, hafter⟩
  exact ⟨mid, next, hbefore, hmessage, hafter⟩

/-- Nothing is due once a response is complete. -/
theorem eq_nil_of_complete {messages : List Message} {final : ResponseStage}
    (h : complete.afterAll? messages = some final) : messages = [] := by
  cases messages with
  | nil => rfl
  | cons message rest => cases h

/-- After the start only chunks are due, up to a last one. -/
theorem chunks_of_streaming {messages : List Message} {final : ResponseStage}
    (h : streaming.afterAll? messages = some final) :
    (∃ chunks : List Bytes, messages = chunks.map (.body · true)) ∧ final = streaming ∨
      (∃ (chunks : List Bytes) (last : Bytes),
        messages = chunks.map (.body · true) ++ [.body last false]) ∧ final = complete := by
  induction messages with
  | nil =>
      cases h
      exact .inl ⟨⟨[], rfl⟩, rfl⟩
  | cons message rest ih =>
      cases message with
      | start status headers => cases h
      | body chunk more =>
          cases more with
          | false =>
              have hrest := eq_nil_of_complete h
              subst hrest
              cases h
              exact .inr ⟨⟨[], chunk, rfl⟩, rfl⟩
          | true =>
              rcases ih h with ⟨⟨chunks, rfl⟩, hfinal⟩ | ⟨⟨chunks, last, rfl⟩, hfinal⟩
              · exact .inl ⟨⟨chunk :: chunks, rfl⟩, hfinal⟩
              · exact .inr ⟨⟨chunk :: chunks, last, rfl⟩, hfinal⟩

/-- No chunk is due before the start. -/
theorem start_of_awaiting {messages : List Message} {final : ResponseStage}
    (h : awaiting.afterAll? messages = some final) :
    messages = [] ∧ final = awaiting ∨
      ∃ status headers rest, messages = .start status headers :: rest ∧
        streaming.afterAll? rest = some final := by
  cases messages with
  | nil =>
      cases h
      exact .inl ⟨rfl, rfl⟩
  | cons message rest =>
      cases message with
      | start status headers => exact .inr ⟨status, headers, rest, rfl, h⟩
      | body chunk more => cases h

/-- After the start no other start is due. -/
theorem countP_isStart_of_streaming {messages : List Message} {final : ResponseStage}
    (h : streaming.afterAll? messages = some final) : messages.countP Message.isStart = 0 := by
  have hchunks (chunks : List Bytes) :
      (chunks.map (Message.body · true)).countP Message.isStart = 0 := by
    rw [List.countP_map, List.countP_eq_zero]
    intro chunk _ hstart
    cases hstart
  rcases chunks_of_streaming h with ⟨⟨chunks, rfl⟩, -⟩ | ⟨⟨chunks, last, rfl⟩, -⟩
  · exact hchunks chunks
  · rw [List.countP_append, hchunks]
    rfl

/-- Messages that follow the stages are orderly. -/
theorem orderly_of_afterAll? {messages : List Message} {final : ResponseStage}
    (h : awaiting.afterAll? messages = some final) : Message.Orderly messages where
  one_start := by
    rcases start_of_awaiting h with ⟨rfl, -⟩ | ⟨status, headers, rest, rfl, hrest⟩
    · exact Nat.zero_le 1
    · rw [List.countP_cons, countP_isStart_of_streaming hrest]
      exact Nat.le_refl 1
  start_first := by
    rintro before chunk more after rfl
    rcases afterAll?_middle h with ⟨mid, next, hbefore, hchunk, -⟩
    rcases start_of_awaiting hbefore with ⟨-, rfl⟩ | ⟨status, headers, rest, rfl, -⟩
    · cases hchunk
    · exact ⟨_, List.mem_cons_self, rfl⟩
  last_ends := by
    rintro before message after rfl hlast
    rcases afterAll?_middle h with ⟨mid, next, -, hmessage, hafter⟩
    cases message with
    | start status headers => cases hlast
    | body chunk more =>
        cases more with
        | true => cases hlast
        | false =>
            cases mid with
            | streaming =>
                cases hmessage
                exact eq_nil_of_complete hafter
            | awaiting | complete => cases hmessage

/-- Messages that reach the last stage are a complete response. -/
theorem complete_of_afterAll? {messages : List Message}
    (h : awaiting.afterAll? messages = some complete) : Message.Complete messages := by
  rcases start_of_awaiting h with ⟨-, hfinal⟩ | ⟨status, headers, rest, rfl, hrest⟩
  · cases hfinal
  · rcases chunks_of_streaming hrest with ⟨-, hfinal⟩ | ⟨⟨chunks, last, rfl⟩, -⟩
    · cases hfinal
    · exact ⟨status, headers, chunks, last, rfl⟩

end ResponseStage

/-! ## Programs that keep the order -/

/-- The stage after an operation; only handing over a message changes it. -/
def Exchange.stageAfter? (stage : ResponseStage) : ExchangeOp E → Option ResponseStage
  | .send message => stage.after? message
  | _ => some stage

namespace Prog

/--
From the stage on, the program hands over only messages that are due, whatever the answers are,
and where it ends with a value it has reached the final stage.
-/
def Obeys (final : ResponseStage) : ResponseStage → Prog (Exchange E) α → Prop
  | stage, .done _ => stage = final
  | _, .fault _ => True
  | stage, .call op next =>
    ∃ stage', Exchange.stageAfter? stage op = some stage' ∧ ∀ a, (next a).Obeys final stage'
  | stage, .suspend rest => rest.Obeys final stage

namespace Obeys

variable {stage mid final : ResponseStage}

/-- The end of an attempt leaves the stage as it is. -/
theorem ofExcept (stage : ResponseStage) (attempt : Except Fault α) :
    (Prog.ofExcept attempt : Prog (Exchange E) α).Obeys stage stage := by
  cases attempt with
  | ok a => rfl
  | error e => exact trivial

/-- Sequences keep the order if their parts do. -/
theorem bind {p : Prog (Exchange E) α} {f : α → Prog (Exchange E) β} (hp : p.Obeys mid stage)
    (hf : ∀ a, (f a).Obeys final mid) : (p.bind f).Obeys final stage := by
  induction p generalizing stage with
  | done a =>
      have hstage : stage = mid := hp
      rw [hstage]
      exact hf a
  | fault e => exact trivial
  | call op next ih =>
      rcases hp with ⟨stage', hop, hnext⟩
      exact ⟨stage', hop, fun a => ih a (hnext a)⟩
  | suspend rest ih => exact ih hp

/-- The messages of a run follow the stages, to the final one if the run succeeds. -/
theorem run {p : Prog (Exchange E) α} (h : p.Obeys final stage) (host : Host (Exchange E) σ)
    (s : σ) :
    ∃ reached, stage.afterAll? (Event.messages (p.transcript host s)) = some reached ∧
      ∀ a, (p.run host s).outcome = .ok a → reached = final := by
  induction p generalizing stage s with
  | done a => exact ⟨stage, rfl, fun _ _ => h⟩
  | fault e => exact ⟨stage, rfl, fun _ hout => nomatch hout⟩
  | call op next ih =>
      rcases h with ⟨stage', hop, hnext⟩
      rcases ih _ (hnext (host.answer op s).1) (host.answer op s).2 with ⟨reached, hrest, hfinal⟩
      refine ⟨reached, ?_, hfinal⟩
      cases op with
      | send message => exact Option.bind_eq_some_iff.2 ⟨stage', hop, hrest⟩
      | _ =>
          cases hop
          exact hrest
  | suspend rest ih => exact ih h s

/-! ### Programs that hand over nothing -/

/-- Handlers hand over nothing. -/
theorem embed_effects (stage : ResponseStage) (p : Prog E α) :
    (p.embed (Embedding.effects E)).Obeys stage stage := by
  induction p with
  | done a => rfl
  | fault e => exact trivial
  | call op next ih => exact ⟨stage, rfl, ih⟩
  | suspend rest ih => exact ih

/-- Route handlers hand over nothing, whether or not they read the body. -/
theorem serve_route (stage : ResponseStage) (kept : Option Bytes) (p : Prog (RouteEffects E) α) :
    (RouteContext.serve kept p).Obeys stage stage := by
  induction p generalizing kept with
  | done a => rfl
  | fault e => exact trivial
  | call op next ih =>
      cases op with
      | effect op => exact ⟨stage, rfl, fun a => ih a kept⟩
      | body =>
          cases kept with
          | some bytes => exact ih _ _
          | none => exact ⟨stage, rfl, fun received => ih received _⟩
  | suspend rest ih => exact ih kept

/-- Log entries are no messages. -/
theorem logAll (stage : ResponseStage) (entries : List LogEntry) :
    (Exchange.logAll entries : Prog (Exchange E) Unit).Obeys stage stage := by
  induction entries with
  | nil => rfl
  | cons entry rest ih => exact ⟨stage, rfl, fun _ => ih⟩

/-- Gathering the arguments of a call hands over nothing. -/
theorem arguments (stage : ResponseStage) (inv : Invoker E) (sc : Scope) :
    (inv.arguments sc).Obeys stage stage := by
  unfold Invoker.arguments
  dsimp only
  split
  · exact trivial
  · split
    · exact bind ⟨stage, rfl, ofExcept stage⟩ fun _ => rfl
    · rfl

/-! ### Programs that hand over a response -/

/-- Sending messages that follow the stages. -/
theorem sendAll {messages : List Message} (h : stage.afterAll? messages = some final) :
    (Exchange.sendAll messages : Prog (Exchange E) Unit).Obeys final stage := by
  induction messages generalizing stage with
  | nil => exact Option.some.inj h
  | cons message rest ih =>
      rcases Option.bind_eq_some_iff.1 h with ⟨next, hmessage, hrest⟩
      exact bind ⟨next, hmessage, ofExcept next⟩ fun _ => ih hrest

/-- The chunks of a stream end with a last one, unless its source fails. -/
theorem sendChunks (chunks : List (Except Fault Bytes)) :
    (Native.sendChunks chunks : Prog (Exchange E) Unit).Obeys .complete .streaming := by
  induction chunks with
  | nil => exact ⟨.complete, rfl, ofExcept .complete⟩
  | cons chunk rest ih =>
      cases chunk with
      | error e => exact trivial
      | ok bytes => exact bind ⟨.streaming, rfl, ofExcept .streaming⟩ fun _ => ih

/-- The pieces of a file end with a last one. -/
theorem afterAll?_bodyMessages (pieces : List Bytes) :
    ResponseStage.streaming.afterAll? (Native.bodyMessages pieces) = some .complete := by
  induction pieces with
  | nil => rfl
  | cons piece rest ih =>
      cases rest with
      | nil => rfl
      | cons next others => exact ih

/-- Sending a response completes it. -/
theorem send (res : Native) :
    (res.send : Prog (Exchange E) Unit).Obeys .complete .awaiting := by
  cases res with
  | plain head content => exact sendAll rfl
  | json head content => exact sendAll rfl
  | stream head chunks =>
      exact bind ⟨.streaming, rfl, ofExcept .streaming⟩ fun _ => sendChunks chunks
  | file head path =>
      refine ⟨.awaiting, rfl, fun (content : Option Bytes) => ?_⟩
      cases content with
      | none => exact trivial
      | some bytes => exact sendAll (afterAll?_bodyMessages _)

/-- Answering a fault completes a response, or hands over nothing and fails. -/
theorem answer (e : Fault) :
    (Rendering.answer e : Prog (Exchange E) Unit).Obeys .complete .awaiting := by
  unfold Rendering.answer
  split
  · exact ⟨.awaiting, rfl, fun _ => send _⟩
  · exact trivial

/--
Error rendering keeps the order, because it answers a fault only while no start has been handed
over, that is at the first stage.
-/
theorem guarded {p : Prog (Exchange E) Unit} (h : p.Obeys .complete stage) {started : Bool}
    (hstarted : started = true ∨ stage = .awaiting) :
    (Rendering.guarded started p).Obeys .complete stage := by
  -- While the flag is not set the stage is the first one, since only a start changes either.
  induction p generalizing stage started with
  | done a => exact h
  | fault e =>
      rcases hstarted with rfl | rfl
      · exact trivial
      · cases started with
        | true => exact trivial
        | false => exact answer e
  | call op next ih =>
      rcases h with ⟨stage', hop, hnext⟩
      refine ⟨stage', hop, fun a => ih a (hnext a) ?_⟩
      rcases hstarted with rfl | rfl
      · exact .inl rfl
      · cases op with
        | send message =>
            cases message with
            | start status headers => exact .inl (Bool.or_true started)
            | body chunk more => cases hop
        | _ => exact .inr (Option.some.inj hop).symm
  | suspend rest ih => exact ih h hstarted

end Obeys
end Prog

/-! ## Endpoints -/

/-- Every response of an endpoint is complete unless it fails. -/
def Endpoint.Obeys (endpoint : Endpoint E) : Prop :=
  ∀ sc, (endpoint sc).Obeys .complete .awaiting

/-- A table of manual routes answers with one response. -/
theorem RouteTable.obeys_serve (table : RouteTable E) : Endpoint.Obeys table.serve := by
  intro sc
  unfold RouteTable.serve
  split
  · exact Prog.Obeys.bind (Prog.Obeys.serve_route .awaiting none _) Prog.Obeys.send
  · exact Prog.Obeys.send _

namespace Dispatcher

/-- Responding to a handler result hands over one response, after logging and observing. -/
theorem obeys_respond (observed : Bool) (mediaType : Option Bytes) (result : HandlerResult) :
    (respond observed mediaType result : Prog (Exchange E) Unit).Obeys .complete .awaiting := by
  refine Prog.Obeys.bind (Prog.Obeys.logAll .awaiting _) fun _ => ?_
  split
  · exact trivial
  · split
    · exact Prog.Obeys.bind ⟨.awaiting, rfl, Prog.Obeys.ofExcept .awaiting⟩ fun _ =>
        Prog.Obeys.send _
    · exact Prog.Obeys.send _

/-- A dispatcher keeps the order if all whom it calls do. -/
theorem obeys_serve {d : Dispatcher E} (hfallback : Endpoint.Obeys d.fallback)
    (hsub : ∀ base subApp, d.subApps.find? base = some subApp → Endpoint.Obeys subApp) :
    Endpoint.Obeys d.serve := by
  intro sc
  unfold serve
  split
  · exact trivial
  · rename_i subApp hbranch
    rcases find?_of_branch_eq_delegate hbranch with ⟨base, hfind⟩
    exact hsub base subApp hfind sc
  · exact Prog.Obeys.bind
      (Prog.Obeys.bind (Prog.Obeys.arguments .awaiting _ sc) fun _ =>
        Prog.Obeys.embed_effects .awaiting _)
      fun _ => obeys_respond _ _ _
  · exact hfallback sc
  · exact trivial

end Dispatcher

namespace App

/-- The application without error rendering. -/
def routed (app : App E) : Endpoint E :=
  Routing.middleware (app.apis.map Api.routing) app.dispatch

/-- An application keeps the order before its faults are rendered. -/
theorem obeys_routed (app : App E) : Endpoint.Obeys app.routed := by
  intro sc
  refine ⟨.awaiting, rfl, fun _ => Dispatcher.obeys_serve app.routes.obeys_serve ?_ _⟩
  intro base subApp hfind
  have hmem := Registry.mem_of_find?_ofList hfind
  rcases List.mem_map.1 hmem with ⟨api, -, hentry⟩
  cases hentry
  exact Dispatcher.obeys_serve api.routes.obeys_serve fun _ _ hnone => nomatch hnone

/-- A presentable fault before the start does not escape unless its rendering is refused. -/
theorem outcome_of_fault_before_start {app : App E} {sc : Scope} {host : Host (Exchange E) σ}
    {s : σ} {e : Fault} (hfault : ((app.routed sc).run host s).outcome = .error e)
    (hpresentable : e.isPresentable)
    (hstart : ∀ message ∈ Event.messages ((app.routed sc).transcript host s),
      message.isStart = false) :
    ((app.serve sc).run host s).outcome = .ok () ∨ ∃ message refusal,
      Event.refused message refusal ∈ (app.serve sc).transcript host s ∧
        ((app.serve sc).run host s).outcome = .error refusal := by
  have hrendered := (Rendering.isRendered_false_iff (app.routed sc) host s).2 hstart
  have hrun : ((app.serve sc).run host s).outcome =
      ((Rendering.answer e).run host ((app.routed sc).run host s).state).outcome := by
    change ((Rendering.guarded false (app.routed sc)).run host s).outcome = _
    rw [Rendering.run_guarded, if_pos hrendered, Ending.rescue, hfault]
  have hevents : (app.serve sc).transcript host s = (app.routed sc).transcript host s ++
      (Rendering.answer e).transcript host ((app.routed sc).run host s).state :=
    Rendering.transcript_guarded_of_fault hfault hstart
  rw [hrun, hevents]
  rcases Rendering.outcome_answer host hpresentable ((app.routed sc).run host s).state with
    hok | ⟨message, refusal, hmem, hout⟩
  · exact .inl hok
  · exact .inr ⟨message, refusal, List.mem_append_right _ hmem, hout⟩

/--
Whatever happens in a run, its messages are orderly; if no fault escapes, they are one complete
response; and a presentable fault that is raised before a start was handed over does not escape,
unless the host refuses a message of its rendering.
-/
theorem hands_over_one_response (app : App E) (sc : Scope) (host : Host (Exchange E) σ) (s : σ) :
    let run := (app.serve sc).run host s
    let events := (app.serve sc).transcript host s
    Message.Orderly (Event.messages events) ∧
      (run.outcome = .ok () → Message.Complete (Event.messages events)) ∧
      ∀ e, ((app.routed sc).run host s).outcome = .error e → e.isPresentable →
        (∀ message ∈ Event.messages ((app.routed sc).transcript host s),
          message.isStart = false) →
        run.outcome = .ok () ∨ ∃ message refusal,
          Event.refused message refusal ∈ events ∧ run.outcome = .error refusal := by
  intro run events
  have hobeys : (app.serve sc).Obeys .complete .awaiting :=
    Prog.Obeys.guarded (app.obeys_routed sc) (.inr rfl)
  rcases hobeys.run host s with ⟨reached, hstages, hfinal⟩
  refine ⟨ResponseStage.orderly_of_afterAll? hstages, ?_, ?_⟩
  · intro hout
    rw [hfinal () hout] at hstages
    exact ResponseStage.complete_of_afterAll? hstages
  · intro e hfault hpresentable hstart
    exact outcome_of_fault_before_start hfault hpresentable hstart

end App
end ApiGateway
