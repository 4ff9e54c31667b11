import ApiGateway.Program.Deferred

/-!
# Transcripts of runs

A run answers the operations of a program one after another and resumes it at every
suspension.  The transcript of a run lists what has happened in it.  It follows the
recursion of the run itself, so both are taken apart by the same equations.

Main definitions:

- `Event`, `Prog.transcript`: what happens in a run.
- `Ending.andThen`, `Ending.rescue`: going on from the end of a run, after a value or
  after a fault.
- `Prog.conclude`: going on in both cases, of which sequencing and recovery are instances.

Main results:

- `Prog.run_conclude`, `Prog.transcript_conclude`: a run of a concluded program is a run
  of the program, and then a run of the conclusion.
- `Prog.run_bind`, `Prog.transcript_bind`: a run of a sequence is a run of its first
  part and, if that leaves a value, a run of the second.
-/

namespace ApiGateway

/-- What happens in a run. -/
inductive Event (S : Signature) where
  /-- An operation is performed and answered. -/
  | call (op : S.Op) (answer : S.Ans op)
  /-- A suspended program is resumed. -/
  | resumed

variable {S : Signature} {α β σ : Type}

/-- Goes on from the end of a run if it has left a value. -/
def Ending.andThen (ending : Ending σ α) (f : α → σ → Ending σ β) : Ending σ β :=
  match ending.outcome with
  | .ok a =>
    let rest := f a ending.state
    { rest with resumptions := ending.resumptions + rest.resumptions }
  | .error e => ⟨.error e, ending.resumptions, ending.state⟩

/-- Goes on from the end of a run if it has ended with a fault. -/
def Ending.rescue (ending : Ending σ α) (f : Fault → σ → Ending σ α) : Ending σ α :=
  match ending.outcome with
  | .ok _ => ending
  | .error e =>
    let rest := f e ending.state
    { rest with resumptions := ending.resumptions + rest.resumptions }

/-- One more resumption before the fault is one more resumption in all. -/
theorem Ending.rescue_resumed (ending : Ending σ α) (f : Fault → σ → Ending σ α) :
    { ending with resumptions := ending.resumptions + 1 }.rescue f =
      { ending.rescue f with resumptions := (ending.rescue f).resumptions + 1 } := by
  rcases ending with ⟨outcome, resumptions, state⟩
  cases outcome with
  | ok a => rfl
  | error e => simp only [Ending.rescue, Nat.add_right_comm]

namespace Prog

/-- The events of a run to its end. -/
def transcript (host : Host S σ) : Prog S α → σ → List (Event S)
  | .done _, _ => []
  | .fault _, _ => []
  | .call op next, s =>
    let (answer, s') := host.answer op s
    .call op answer :: (next answer).transcript host s'
  | .suspend rest, s => .resumed :: rest.transcript host s

/-! ## One step -/

section Steps

variable (host : Host S σ) (s : σ)

@[simp]
theorem run_done (a : α) : (done a : Prog S α).run host s = ⟨.ok a, 0, s⟩ :=
  rfl

@[simp]
theorem run_fault (e : Fault) : (fault e : Prog S α).run host s = ⟨.error e, 0, s⟩ :=
  rfl

@[simp]
theorem run_call (op : S.Op) (next : S.Ans op → Prog S α) :
    (call op next).run host s = (next (host.answer op s).1).run host (host.answer op s).2 :=
  rfl

@[simp]
theorem run_suspend (rest : Prog S α) :
    (suspend rest).run host s =
      { rest.run host s with resumptions := (rest.run host s).resumptions + 1 } :=
  rfl

@[simp]
theorem transcript_done (a : α) : (done a : Prog S α).transcript host s = [] :=
  rfl

@[simp]
theorem transcript_fault (e : Fault) : (fault e : Prog S α).transcript host s = [] :=
  rfl

@[simp]
theorem transcript_call (op : S.Op) (next : S.Ans op → Prog S α) :
    (call op next).transcript host s =
      .call op (host.answer op s).1 ::
        (next (host.answer op s).1).transcript host (host.answer op s).2 :=
  rfl

@[simp]
theorem transcript_suspend (rest : Prog S α) :
    (suspend rest).transcript host s = .resumed :: rest.transcript host s :=
  rfl

@[simp]
theorem run_ofExcept (attempt : Except Fault α) :
    (ofExcept attempt : Prog S α).run host s = ⟨attempt, 0, s⟩ := by
  cases attempt <;> rfl

@[simp]
theorem transcript_ofExcept (attempt : Except Fault α) :
    (ofExcept attempt : Prog S α).transcript host s = [] := by
  cases attempt <;> rfl

end Steps

/-! ## Conclusions -/

/-- Goes on with the outcome of a program, whether that is a value or a fault. -/
def conclude (f : Except Fault α → Prog S β) : Prog S α → Prog S β
  | .done a => f (.ok a)
  | .fault e => f (.error e)
  | .call op next => .call op fun answer => (next answer).conclude f
  | .suspend rest => .suspend (rest.conclude f)

/-- The conclusion that goes on with a value and keeps a fault. -/
def onValue (f : α → Prog S β) : Except Fault α → Prog S β
  | .ok a => f a
  | .error e => .fault e

/-- The conclusion that keeps a value and handles a fault. -/
def onFault (handler : Fault → Prog S α) : Except Fault α → Prog S α
  | .ok a => .done a
  | .error e => handler e

/-- A sequence concludes its first part on values. -/
theorem bind_eq_conclude (p : Prog S α) (f : α → Prog S β) : p.bind f = p.conclude (onValue f) := by
  induction p with
  | done | fault => rfl
  | call op next ih => exact congrArg (Prog.call op) (funext ih)
  | suspend rest ih => exact congrArg Prog.suspend ih

/-- A guarded program is concluded on faults. -/
theorem rescue_eq_conclude (p : Prog S α) (handler : Fault → Prog S α) :
    p.rescue handler = p.conclude (onFault handler) := by
  induction p with
  | done | fault => rfl
  | call op next ih => exact congrArg (Prog.call op) (funext ih)
  | suspend rest ih => exact congrArg Prog.suspend ih

/-- A run of a concluded program goes on from the end of the program. -/
theorem run_conclude (host : Host S σ) (p : Prog S α) (f : Except Fault α → Prog S β) (s : σ) :
    (p.conclude f).run host s =
      { (f (p.run host s).outcome).run host (p.run host s).state with
        resumptions := (p.run host s).resumptions +
          ((f (p.run host s).outcome).run host (p.run host s).state).resumptions } := by
  induction p generalizing s with
  | done a => simp only [conclude, run_done, Nat.zero_add]
  | fault e => simp only [conclude, run_fault, Nat.zero_add]
  | call op next ih => exact ih _ _
  | suspend rest ih => rw [conclude, run_suspend, run_suspend, ih, Nat.add_right_comm]

/-- The events of the conclusion follow those of the program. -/
theorem transcript_conclude (host : Host S σ) (p : Prog S α) (f : Except Fault α → Prog S β)
    (s : σ) :
    (p.conclude f).transcript host s =
      p.transcript host s ++ (f (p.run host s).outcome).transcript host (p.run host s).state := by
  induction p generalizing s with
  | done a => rfl
  | fault e => rfl
  | call op next ih => exact congrArg (List.cons _) (ih _ _)
  | suspend rest ih => exact congrArg (List.cons _) (ih _)

/-! ## Sequences -/

/-- A run of a sequence goes on from the end of the run of its first part. -/
theorem run_bind (host : Host S σ) (p : Prog S α) (f : α → Prog S β) (s : σ) :
    (p.bind f).run host s = (p.run host s).andThen fun a s' => (f a).run host s' := by
  rw [bind_eq_conclude, run_conclude, Ending.andThen]
  cases (p.run host s).outcome <;> rfl

/-- The second part of a sequence begins where a value is left. -/
theorem transcript_bind (host : Host S σ) (p : Prog S α) (f : α → Prog S β) (s : σ) :
    (p.bind f).transcript host s =
      p.transcript host s ++
        match (p.run host s).outcome with
        | .ok a => (f a).transcript host (p.run host s).state
        | .error _ => [] := by
  rw [bind_eq_conclude, transcript_conclude]
  cases (p.run host s).outcome <;> rfl

variable {host : Host S σ} {p : Prog S α} {s : σ}

/-- A run of a sequence whose first part fails ends with that fault. -/
theorem outcome_bind_of_error (f : α → Prog S β) {e : Fault}
    (h : (p.run host s).outcome = .error e) : ((p.bind f).run host s).outcome = .error e := by
  rw [run_bind, Ending.andThen, h]

/-- A run of a sequence whose first part succeeds ends as the second part does. -/
theorem outcome_bind_of_ok (f : α → Prog S β) {a : α} (h : (p.run host s).outcome = .ok a) :
    ((p.bind f).run host s).outcome = ((f a).run host (p.run host s).state).outcome := by
  rw [run_bind, Ending.andThen, h]

/-- The second part follows a first part that leaves a value. -/
theorem transcript_bind_of_ok (f : α → Prog S β) {a : α} (h : (p.run host s).outcome = .ok a) :
    (p.bind f).transcript host s =
      p.transcript host s ++ (f a).transcript host (p.run host s).state := by
  rw [transcript_bind, h]

end Prog
end ApiGateway
