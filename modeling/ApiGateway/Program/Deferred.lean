import ApiGateway.Program

/-!
# Deferred values

A deferred value is what a program leaves once it has run up to its first
suspension: it is ready, or it waits to be resumed.

Main definitions:

- `Deferred.value?`, `Deferred.resume?`: reading a ready value and running a
  waiting one, each refused in the other state.
- `Deferred.andThen`, `Deferred.recover`: sequencing and recovery.
- `Host`: how operations are answered.
- `Prog.start`, `Prog.run`: running a program to its first suspension, or to its
  end.
-/

namespace ApiGateway

/-- A value that is ready, or a program that is still to be resumed. -/
inductive Deferred (S : Signature) (α : Type) where
  | ready (value : α)
  | waiting (rest : Prog S α)

variable {S : Signature} {α β σ : Type}

namespace Deferred

/-- Whether the value has arrived. -/
def isReady : Deferred S α → Bool
  | .ready _ => true
  | .waiting _ => false

/-- The value; a waiting one has none yet. -/
def value? : Deferred S α → Except Fault α
  | .ready a => .ok a
  | .waiting _ => .error (.logic (Bytes.ofString "deferred value is still pending"))

/-- The program of the next step; a ready value has no further step. -/
def resume? : Deferred S α → Except Fault (Prog S α)
  | .ready _ => .error (.logic (Bytes.ofString "resume called on a ready deferred"))
  | .waiting rest => .ok rest

/-- The program that still has to run. -/
def toProg : Deferred S α → Prog S α
  | .ready a => .done a
  | .waiting rest => .suspend rest

/-- Goes on once the value is ready: at once, or in the last step of a waiting one. -/
def andThen (d : Deferred S α) (f : α → Prog S β) : Prog S β :=
  match d with
  | .ready a => f a
  | .waiting rest => .suspend (rest.bind f)

/-- Replaces the first fault raised by a step of a waiting value. -/
def recover (d : Deferred S α) (handler : Fault → Prog S α) : Deferred S α :=
  match d with
  | .ready a => .ready a
  | .waiting rest => .waiting (rest.rescue handler)

/-- Going on with a deferred value is sequencing of the program behind it. -/
theorem andThen_eq_bind (d : Deferred S α) (f : α → Prog S β) :
    d.andThen f = d.toProg.bind f := by
  cases d <;> rfl

end Deferred

/-! ## Hosts -/

/-- How operations are answered, and what they do to the state of the host. -/
structure Host (S : Signature) (σ : Type) where
  answer : (op : S.Op) → σ → S.Ans op × σ

/-- How a program ended, after how many resumptions, and the state it left. -/
structure Ending (σ α : Type) where
  outcome : Except Fault α
  resumptions : Nat
  state : σ

/-- The fault with which a program has ended. -/
def Ending.failure? (ending : Ending σ α) : Option Fault :=
  match ending.outcome with
  | .ok _ => none
  | .error e => some e

namespace Prog

/-- Runs a program to its end or its first suspension. -/
def start (host : Host S σ) : Prog S α → σ → Except Fault (Deferred S α) × σ
  | .done a, s => (.ok (.ready a), s)
  | .fault e, s => (.error e, s)
  | .call op next, s =>
    let (answer, s') := host.answer op s
    (next answer).start host s'
  | .suspend rest, s => (.ok (.waiting rest), s)

/-- Runs a program to its end, resuming it at every suspension. -/
def run (host : Host S σ) : Prog S α → σ → Ending σ α
  | .done a, s => ⟨.ok a, 0, s⟩
  | .fault e, s => ⟨.error e, 0, s⟩
  | .call op next, s =>
    let (answer, s') := host.answer op s
    (next answer).run host s'
  | .suspend rest, s =>
    let ending := rest.run host s
    { ending with resumptions := ending.resumptions + 1 }

end Prog
end ApiGateway
