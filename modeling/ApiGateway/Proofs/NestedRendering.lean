import ApiGateway.Proofs.Suspension
import Mathlib.Logic.Function.Iterate

/-!
# Nested error rendering

Every layer of error rendering keeps its own record of whether a start was handed over.
The answers of an inner layer pass through the outer one, which records their start, so
the records differ once the inner layer has answered.  They never differ the other way:
whatever the inner layer has recorded, the outer one has recorded as well.  From this it
follows that an outer layer has nothing left to answer.

Main definitions:

- `Event.logged`: the log entries written in a run.

Main results:

- `Rendering.guarded_guarded`: what is guarded by an inner layer is not changed by an outer one.
- `Rendering.iterate_middleware`: any number of layers is one layer.
- `Rendering.logged_middleware`: one entry is logged for a fault that is rendered.
- `Rendering.nesting_changes_nothing`: two layers and one layer run alike.
-/

namespace ApiGateway

variable {E : Signature} {σ : Type}

/-! ## Layers -/

namespace Rendering

/-- After a start has been handed over nothing is answered. -/
@[simp]
theorem guarded_true (p : Prog (Exchange E) Unit) : guarded true p = p := by
  induction p with
  | done a => rfl
  | fault e => rfl
  | call op next ih => exact congrArg (Prog.call op) (funext ih)
  | suspend rest ih => exact congrArg Prog.suspend ih

/-- The messages of a response whose body is at hand are not answered again if one is refused. -/
theorem guarded_sendAll_wholeMessages (started : Bool) (head : Head) (body : Bytes) :
    guarded started (Exchange.sendAll (Native.wholeMessages head body)) =
      (Exchange.sendAll (Native.wholeMessages head body) : Prog (Exchange E) Unit) := by
  -- The first message is the start, so a refusal finds the record set.
  refine congrArg (Prog.call _) (funext fun a => ?_)
  rw [Exchange.startsResponse, Message.isStart, Bool.or_true, guarded_true]

/-- The answer to a fault is not answered again. -/
theorem guarded_answer (started : Bool) (e : Fault) :
    guarded started (answer e : Prog (Exchange E) Unit) = answer e := by
  cases hof : of? e with
  | some r =>
      rw [answer, hof]
      exact congrArg (Prog.call _) (funext fun _ => guarded_sendAll_wholeMessages _ _ _)
  | none =>
      have hanswer : (answer e : Prog (Exchange E) Unit) = .fault e := by rw [answer, hof]
      rw [hanswer]
      cases started with
      | true => rfl
      | false => exact hanswer

/-- An outer layer that has recorded every start that the inner one has changes nothing. -/
theorem guarded_guarded {outer inner : Bool} (h : inner = true → outer = true)
    (p : Prog (Exchange E) Unit) : guarded outer (guarded inner p) = guarded inner p := by
  -- Each operation adds the same to both records, so the implication is kept by every step.
  induction p generalizing outer inner with
  | done a => rfl
  | fault e =>
      cases inner with
      | true => rw [h rfl, guarded_true]
      | false => exact guarded_answer outer e
  | call op next ih =>
      refine congrArg (Prog.call op) (funext fun a => ih a ?_)
      intro hinner
      rcases Bool.or_eq_true_iff.1 hinner with hrecorded | hstart
      · rw [h hrecorded, Bool.true_or]
      · rw [hstart, Bool.or_true]
  | suspend rest ih => exact congrArg Prog.suspend (ih h)

/-- Two layers are one layer. -/
theorem middleware_middleware (next : Endpoint E) :
    middleware (middleware next) = middleware next :=
  funext fun _ => guarded_guarded id _

/-- Any number of layers around the first is one layer. -/
theorem iterate_middleware (n : Nat) (next : Endpoint E) :
    (middleware^[n]) (middleware next) = middleware next :=
  Function.iterate_fixed (middleware_middleware next) n

end Rendering

/-! ## Log entries -/

namespace Event

/-- The log entry that an event writes. -/
def entry? : Event (Exchange E) → Option LogEntry
  | .call (.log entry) _ => some entry
  | _ => none

/-- The log entries written in a transcript. -/
def logged (events : List (Event (Exchange E))) : List LogEntry :=
  events.filterMap entry?

@[simp]
theorem logged_append (first rest : List (Event (Exchange E))) :
    logged (first ++ rest) = logged first ++ logged rest :=
  List.filterMap_append

end Event

/-- An operation that writes no log entry. -/
def Exchange.IsUnlogged : (Exchange E).Op → Prop
  | .log _ => False
  | _ => True

theorem Exchange.IsSending.isUnlogged {op : (Exchange E).Op} (h : IsSending op) :
    IsUnlogged op := by
  cases op with
  | log entry => exact h
  | _ => exact trivial

/-- A program that logs nothing has logged nothing in its runs. -/
theorem Prog.Admits.logged_eq_nil {α : Type} {p : Prog (Exchange E) α}
    (h : p.Admits Exchange.IsUnlogged) (host : Host (Exchange E) σ) (s : σ) :
    Event.logged (p.transcript host s) = [] := by
  refine h.filterMap_transcript (fun op answer hop => ?_) rfl host s
  cases op with
  | log entry => exact hop.elim
  | _ => rfl

namespace Rendering

/-- Nothing is logged while a response is sent. -/
theorem logged_sendNative (host : Host (Exchange E) σ) (res : Native) (s : σ) :
    Event.logged (res.send.transcript host s) = [] :=
  ((Prog.Performs.sendNative res).admits.mono fun _ =>
    Exchange.IsSending.isUnlogged).logged_eq_nil host s

/-- The answer to a fault writes the entry of its rendering, if it has any. -/
theorem logged_answer (host : Host (Exchange E) σ) (e : Fault) (s : σ) :
    Event.logged ((answer e).transcript host s) = ((of? e).map Rendering.entry).toList := by
  unfold answer
  cases of? e with
  | none => rfl
  | some r => exact congrArg (List.cons r.entry) (logged_sendNative host _ _)

/-- The rendering of the fault with which a run ends before it has handed over a start. -/
def ofRun? (p : Prog (Exchange E) Unit) (host : Host (Exchange E) σ) (s : σ) :
    Option Rendering :=
  if isRendered false p host s then (p.run host s).failure?.bind of? else none

/-- A layer logs what its endpoint logs, and then the rendering of its fault. -/
theorem logged_middleware (next : Endpoint E) (sc : Scope) (host : Host (Exchange E) σ) (s : σ) :
    Event.logged ((middleware next sc).transcript host s) =
      Event.logged ((next sc).transcript host s) ++
        ((ofRun? (next sc) host s).map Rendering.entry).toList := by
  rw [middleware, transcript_guarded, Event.logged_append]
  refine congrArg (_ ++ ·) ?_
  unfold ofRun? Ending.failure?
  split
  · cases ((next sc).run host s).outcome with
    | ok a => rfl
    | error e => exact logged_answer host e _
  · rfl

/--
Two layers of error rendering around an endpoint run as one layer does: they hand over the same
messages, write the same log, suspend as often and let the same fault escape.  So the rendering of
a fault is logged once, whatever the number of layers.
-/
theorem nesting_changes_nothing (next : Endpoint E) (sc : Scope) (host : Host (Exchange E) σ)
    (s : σ) :
    let once := middleware next sc
    let twice := middleware (middleware next) sc
    Event.messages (twice.transcript host s) = Event.messages (once.transcript host s) ∧
      Event.logged (twice.transcript host s) = Event.logged (once.transcript host s) ∧
      (twice.run host s).resumptions = (once.run host s).resumptions ∧
      (twice.run host s).failure? = (once.run host s).failure? ∧
      twice.transcript host s = once.transcript host s ∧
      Event.logged (twice.transcript host s) =
        Event.logged ((next sc).transcript host s) ++
          ((ofRun? (next sc) host s).map Rendering.entry).toList := by
  intro once twice
  have hsame : twice = once := congrFun (middleware_middleware next) sc
  rw [hsame]
  exact ⟨rfl, rfl, rfl, rfl, rfl, logged_middleware next sc host s⟩

end Rendering
end ApiGateway
