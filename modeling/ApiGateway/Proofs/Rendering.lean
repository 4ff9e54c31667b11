import ApiGateway.Gateway.ErrorRendering
import ApiGateway.Proofs.Transcript

/-!
# Runs under error rendering

A guarded program runs as the program itself does.  Only if that ends with a fault
before a start was handed over does something follow, namely the answer to the fault.

Main definitions:

- `Event.handed?`, `Event.messages`: the messages that a run hands over, accepted or not.
- `Rendering.isRendered`: whether the end of a run is answered.

Main results:

- `Rendering.run_guarded`, `Rendering.transcript_guarded`: the run of a guarded program
  in terms of the run of the program.
- `Rendering.outcome_answer`: answering a presentable fault fails only if a message is
  refused.
-/

namespace ApiGateway

variable {E : Signature} {σ α : Type}

/-! ## Messages of a transcript -/

namespace Event

/-- The message that an event hands over. -/
def handed? : Event (Exchange E) → Option Message
  | .call (.send message) _ => some message
  | _ => none

/-- The messages handed over in a transcript, whether or not the host has accepted them. -/
def messages (events : List (Event (Exchange E))) : List Message :=
  events.filterMap handed?

/-- The event of a message that the host refuses. -/
def refused (message : Message) (e : Fault) : Event (Exchange E) :=
  .call (ExchangeOp.send message) (.error e)

/-- Whether an event hands over the start of a response. -/
def handsStart : Event (Exchange E) → Bool
  | .call op _ => Exchange.startsResponse op
  | .resumed => false

@[simp]
theorem messages_nil : messages ([] : List (Event (Exchange E))) = [] :=
  rfl

@[simp]
theorem messages_append (first rest : List (Event (Exchange E))) :
    messages (first ++ rest) = messages first ++ messages rest :=
  List.filterMap_append

/-- A start is handed over exactly if it is among the messages. -/
theorem any_handsStart (events : List (Event (Exchange E))) :
    events.any handsStart = (messages events).any Message.isStart := by
  induction events with
  | nil => rfl
  | cons event rest ih =>
      rw [List.any_cons, ih]
      cases event with
      | resumed => rfl
      | call op answer => cases op <;> rfl

end Event

/-! ## Sending -/

namespace Exchange

/-- A run of sending one message ends as the host answers. -/
theorem outcome_send (host : Host (Exchange E) σ) (message : Message) (s : σ) :
    ((send message).run host s).outcome = (host.answer (.send message) s).1 := by
  change (Prog.run host (.ofExcept (host.answer (.send message) s).1) _).outcome = _
  cases (host.answer (.send message) s).1 <;> rfl

/-- Sending one message shows nothing but that message and its answer. -/
theorem transcript_send (host : Host (Exchange E) σ) (message : Message) (s : σ) :
    (send message).transcript host s =
      [.call (.send message) (host.answer (.send message) s).1] := by
  change _ :: Prog.transcript host (.ofExcept (host.answer (.send message) s).1) _ = _
  cases (host.answer (.send message) s).1 <;> rfl

/-- Sending messages fails only with the fault by which one of them is refused. -/
theorem refused_of_sendAll (host : Host (Exchange E) σ) {messages : List Message} {s : σ}
    {e : Fault} (h : ((sendAll messages).run host s).outcome = .error e) :
    ∃ message, Event.refused message e ∈ (sendAll messages).transcript host s := by
  induction messages generalizing s with
  | nil => cases h
  | cons message rest ih =>
      cases hone : ((send message).run host s).outcome with
      | error f =>
          have hfault : f = e := by
            rw [sendAll, Prog.outcome_bind_of_error _ hone] at h
            exact Except.error.inj h
          rw [outcome_send] at hone
          refine ⟨message, ?_⟩
          rw [sendAll, Prog.transcript_bind, transcript_send, hone, hfault]
          exact List.mem_append_left _ (List.mem_singleton_self _)
      | ok _ =>
          rw [sendAll, Prog.outcome_bind_of_ok _ hone] at h
          rcases ih h with ⟨refused, hmem⟩
          refine ⟨refused, ?_⟩
          rw [sendAll, Prog.transcript_bind_of_ok _ hone]
          exact List.mem_append_right _ hmem

end Exchange

/-! ## Guarded programs -/

namespace Rendering

/-- Whether a run ends with a fault to be answered: no start has been handed over yet. -/
def isRendered (started : Bool) (p : Prog (Exchange E) α) (host : Host (Exchange E) σ) (s : σ) :
    Bool :=
  !(started || (p.transcript host s).any Event.handsStart)

/-- The end of a run is answered exactly if no message of it starts a response. -/
theorem isRendered_false_iff (p : Prog (Exchange E) α) (host : Host (Exchange E) σ) (s : σ) :
    isRendered false p host s = true ↔
      ∀ message ∈ Event.messages (p.transcript host s), message.isStart = false := by
  rw [isRendered, Event.any_handsStart, Bool.false_or, Bool.not_eq_true', List.any_eq_false]
  exact forall₂_congr fun message _ => Bool.eq_false_iff.symm

/-- The end of the run of a guarded program: that of the program, or that of the answer. -/
theorem run_guarded (host : Host (Exchange E) σ) (started : Bool) (p : Prog (Exchange E) Unit)
    (s : σ) :
    (guarded started p).run host s =
      if isRendered started p host s then
        (p.run host s).rescue fun e s' => (answer e).run host s'
      else
        p.run host s := by
  -- The flag gathers the starts handed over so far, hence the induction is over every flag.
  induction p generalizing started s with
  | done a => simp [guarded, Ending.rescue]
  | fault e => cases started <;> simp [guarded, isRendered, Ending.rescue]
  | call op next ih =>
      have h := ih (host.answer op s).1 (started || Exchange.startsResponse op)
        (host.answer op s).2
      simp only [guarded, Prog.run_call, isRendered, Prog.transcript_call, List.any_cons,
        Event.handsStart, ← Bool.or_assoc] at h ⊢
      exact h
  | suspend rest ih =>
      have hsame : isRendered started (.suspend rest) host s = isRendered started rest host s :=
        rfl
      rw [guarded, Prog.run_suspend, Prog.run_suspend, ih, hsame, Ending.rescue_resumed]
      split <;> rfl

/-- The transcript of a guarded program: that of the program, then that of the answer. -/
theorem transcript_guarded (host : Host (Exchange E) σ) (started : Bool)
    (p : Prog (Exchange E) Unit) (s : σ) :
    (guarded started p).transcript host s =
      p.transcript host s ++
        if isRendered started p host s then
          match (p.run host s).outcome with
          | .ok _ => []
          | .error e => (answer e).transcript host (p.run host s).state
        else
          [] := by
  induction p generalizing started s with
  | done a => simp [guarded]
  | fault e => cases started <;> simp [guarded, isRendered]
  | call op next ih =>
      have h := ih (host.answer op s).1 (started || Exchange.startsResponse op)
        (host.answer op s).2
      simp only [guarded, Prog.run_call, isRendered, Prog.transcript_call, List.any_cons,
        Event.handsStart, ← Bool.or_assoc, List.cons_append] at h ⊢
      exact congrArg (List.cons _) h
  | suspend rest ih =>
      have hsame : isRendered started (.suspend rest) host s = isRendered started rest host s :=
        rfl
      rw [guarded, Prog.transcript_suspend, ih, hsame]
      rfl

/-- A run without fault is the same under error rendering. -/
theorem transcript_guarded_of_ok {host : Host (Exchange E) σ} {started : Bool}
    {p : Prog (Exchange E) Unit} {s : σ} (h : (p.run host s).outcome = .ok ()) :
    (guarded started p).transcript host s = p.transcript host s := by
  rw [transcript_guarded, h]
  split
  · exact List.append_nil _
  · exact List.append_nil _

/-- A run that has started a response is the same under error rendering. -/
theorem transcript_guarded_of_start {host : Host (Exchange E) σ} {started : Bool}
    {p : Prog (Exchange E) Unit} {s : σ}
    (h : ∃ message ∈ Event.messages (p.transcript host s), message.isStart) :
    (guarded started p).transcript host s = p.transcript host s := by
  have hstarted : isRendered started p host s = false := by
    rw [isRendered, Event.any_handsStart, List.any_eq_true.2 h, Bool.or_true]
    rfl
  rw [transcript_guarded, hstarted]
  exact List.append_nil _

/-- A fault before the start is answered at the end of the run. -/
theorem transcript_guarded_of_fault {host : Host (Exchange E) σ} {p : Prog (Exchange E) Unit}
    {s : σ} {e : Fault} (hout : (p.run host s).outcome = .error e)
    (h : ∀ message ∈ Event.messages (p.transcript host s), message.isStart = false) :
    (guarded false p).transcript host s =
      p.transcript host s ++ (answer e).transcript host (p.run host s).state := by
  rw [transcript_guarded, if_pos ((isRendered_false_iff p host s).2 h), hout]

/-- A presentable fault is answered by logging it and sending its problem. -/
theorem answer_eq_of_isPresentable {e : Fault} (h : e.isPresentable) :
    ∃ r : Rendering, of? e = some r ∧ (answer e : Prog (Exchange E) Unit) = r.send := by
  rcases Option.isSome_iff_exists.1 ((isSome_of? e).trans h) with ⟨r, hr⟩
  exact ⟨r, hr, by rw [answer, hr]⟩

/-- Answering a presentable fault fails only if a message of the problem is refused. -/
theorem outcome_answer (host : Host (Exchange E) σ) {e : Fault} (h : e.isPresentable) (s : σ) :
    ((answer e).run host s).outcome = .ok () ∨
      ∃ message refusal, Event.refused message refusal ∈ (answer e).transcript host s ∧
        ((answer e).run host s).outcome = .error refusal := by
  rcases answer_eq_of_isPresentable (E := E) h with ⟨r, -, hanswer⟩
  rw [hanswer]
  cases hout : (r.send.run host s).outcome with
  | ok _ => exact .inl rfl
  | error refusal =>
      rcases Exchange.refused_of_sendAll host hout with ⟨message, hmem⟩
      exact .inr ⟨message, refusal, List.mem_cons_of_mem _ hmem, rfl⟩

end Rendering
end ApiGateway
