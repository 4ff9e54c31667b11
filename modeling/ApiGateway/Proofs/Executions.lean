import ApiGateway.Proofs.Transcript
import ApiGateway.Scheduling.Spawn

/-!
# Executors in general

An executor may run a task that it has accepted at any time, at once or later, and in any
order; it may turn a task away, and whatever it does while a task is handed in may raise a
fault there.  All that it promises is to run no accepted task twice.  Code under way goes on
in any interleaving, so a task that is run inside the call which hands it in is the case
where the caller does not go on before that task is over.

Spawned work is numbered, and it notes what becomes of it.  The notes are operations that
nothing depends on: without them the work is the same.

Main definitions:

- `Signature.noted`, `Prog.noted`, `Callbacks.noted`: work that notes what becomes of it.
- `Work.script`: what spawning numbered work runs.
- `Execution`, `Execution.Move`: the code under way on an executor, and how it goes on.
- `Run`: an execution without end; one that is over stays as it is.

Main results:

- `Work.unnoted_script`: without the notes the script is the one that spawns the work.
-/

namespace ApiGateway

/-! ## Notes -/

/-- What spawned work notes about itself. -/
inductive Note where
  /-- A step has begun. -/
  | resumed
  /-- The work has become ready. -/
  | ready
  /-- A step has raised a fault. -/
  | raised (e : Fault)
  /-- The callback for the end of the work is called. -/
  | finished
  /-- The callback for a fault is called. -/
  | failed (e : Fault)

/-- An operation of numbered work, a note on that work, or an operation of any other code. -/
inductive NotedOp (S : Signature) where
  | work (i : Nat) (op : S.Op)
  | note (i : Nat) (note : Note)
  | other (op : S.Op)

/-- The operations of a signature, by whom they are performed, and notes. -/
def Signature.noted (S : Signature) : Signature where
  Op := NotedOp S
  Ans
    | .work _ op => S.Ans op
    | .note _ _ => Unit
    | .other op => S.Ans op

variable {S : Signature}

/-- Performs a note. -/
def Task.note (i : Nat) (note : Note) (rest : Task S.noted) : Task S.noted :=
  .call (.note i note) fun _ => rest

/-- What follows a note is a part of the task. -/
theorem Task.part_note (i : Nat) (note : Note) (rest : Task S.noted) :
    Task.Part rest (.note i note rest) :=
  .answered _ (fun _ => rest) ()

/-- What follows an operation of numbered work is a part of the task. -/
theorem Task.part_work (i : Nat) (op : S.Op) (next : S.Ans op → Task S.noted) (answer : S.Ans op) :
    Task.Part (next answer) (.call (.work i op) next) :=
  let noted : S.noted.Op := .work i op
  Task.Part.answered noted next answer

/-- A program that notes its resumptions and its end. -/
def Prog.noted (i : Nat) : Prog S Unit → Prog S.noted Unit
  | .done a => .call (.note i .ready) fun _ => .done a
  | .fault e => .call (.note i (.raised e)) fun _ => .fault e
  | .call op next => .call (.work i op) fun answer => (next answer).noted i
  | .suspend rest => .suspend (.call (.note i .resumed) fun _ => rest.noted i)

/-- Code that is no numbered work. -/
def Task.other : Task S → Task S.noted
  | .done => .done
  | .fault e => .fault e
  | .call op next => .call (.other op) fun answer => (next answer).other
  | .schedule task next => .schedule task.other fun accepted => (next accepted).other

/-- Callbacks that note that they are called. -/
def Callbacks.noted (i : Nat) (callbacks : Callbacks S) : Callbacks S.noted where
  onDone := callbacks.onDone.map fun task => .note i .finished task.other
  onFailure := callbacks.onFailure.map fun handler e => .note i (.failed e) (handler e).other

/-- A task without its notes. -/
def Task.unnoted : Task S.noted → Task S
  | .done => .done
  | .fault e => .fault e
  | .call (.work _ op) next => .call op fun answer => (next answer).unnoted
  | .call (.note _ _) next => (next ()).unnoted
  | .call (.other op) next => .call op fun answer => (next answer).unnoted
  | .schedule task next => .schedule task.unnoted fun accepted => (next accepted).unnoted

/-! ## Spawned work -/

/-- A completion with its callbacks. -/
structure Work (S : Signature) where
  completion : Deferred S Unit
  callbacks : Callbacks S

namespace Work

/-- The step of numbered work that goes on with a program, as a task. -/
def step (i : Nat) (w : Work S) (p : Prog S Unit) : Task S.noted :=
  advance (w.callbacks.noted i) ((p.noted i).embed (Embedding.scheduling S.noted))

section Step

variable (i : Nat) (w : Work S)

theorem step_done (a : Unit) :
    w.step i (.done a) = .note i .ready (w.callbacks.noted i).finish :=
  rfl

theorem step_fault (e : Fault) :
    w.step i (.fault e) = .note i (.raised e) ((w.callbacks.noted i).fail e) :=
  rfl

theorem step_call (op : S.Op) (next : S.Ans op → Prog S Unit) :
    w.step i (.call op next) = .call (.work i op) fun answer => w.step i (next answer) :=
  rfl

theorem step_suspend (rest : Prog S Unit) :
    w.step i (.suspend rest) = .schedule (.note i .resumed (w.step i rest)) fun _ => .done :=
  rfl

end Step

/-- What spawning numbered work runs. -/
def script (i : Nat) (w : Work S) : Task S.noted :=
  spawnProg (w.callbacks.noted i) (w.completion.toProg.noted i)

/-- Spawning runs the work as far as a step would. -/
theorem script_eq_step (i : Nat) (w : Work S) : w.script i = w.step i w.completion.toProg := by
  rw [script, step, spawnProg]
  cases w.completion with
  | ready a => rfl
  | waiting rest => rfl

/-- Code of others is not changed by leaving out notes. -/
theorem unnoted_other (task : Task S) : task.other.unnoted = task := by
  induction task with
  | done | fault => rfl
  | call op next ih => exact congrArg (Task.call op) (funext ih)
  | schedule task next ihTask ihNext =>
      rw [Task.other, Task.unnoted, ihTask]
      exact congrArg (Task.schedule task) (funext ihNext)

/-- Without the notes a step of work is the step of the program. -/
theorem unnoted_step (i : Nat) (w : Work S) (p : Prog S Unit) :
    (w.step i p).unnoted = advance w.callbacks (p.embed (Embedding.scheduling S)) := by
  induction p with
  | done a =>
      change ((w.callbacks.noted i).finish).unnoted = w.callbacks.finish
      rw [Callbacks.finish, Callbacks.finish, Callbacks.noted]
      cases w.callbacks.onDone with
      | none => rfl
      | some task => exact unnoted_other task
  | fault e =>
      change ((w.callbacks.noted i).fail e).unnoted = w.callbacks.fail e
      rw [Callbacks.fail, Callbacks.fail, Callbacks.noted]
      cases w.callbacks.onFailure with
      | none => rfl
      | some handler => exact unnoted_other (handler e)
  | call op next ih => exact congrArg (Task.call op) (funext ih)
  | suspend rest ih => exact congrArg (fun task => Task.schedule task fun _ => .done) ih

/-- Without the notes the script of numbered work is the one that spawns it. -/
theorem unnoted_script (i : Nat) (w : Work S) :
    (w.script i).unnoted = spawnProg w.callbacks w.completion.toProg := by
  rw [script_eq_step, unnoted_step, spawnProg]
  cases w.completion with
  | ready a => rfl
  | waiting rest => rfl

end Work

/-! ## Executions -/

/-- What happens to numbered work. -/
inductive Incident (S : Signature) where
  | performed (op : S.Op) (answer : S.Ans op)
  | noted (note : Note)
  /-- The executor has accepted its next step. -/
  | accepted
  /-- The executor has turned its next step away. -/
  | rejected

/-- The number of the work to which a task belongs, read off what the task does first. -/
def Task.number? : Task S.noted → Option Nat
  | .done => none
  | .fault _ => none
  | .call (.work i _) _ => some i
  | .call (.note i _) _ => some i
  | .call (.other _) _ => none
  | .schedule task _ => task.number?

/--
The next thing that a task does: what happens to numbered work, the tasks that are accepted, and
what is left of the task.  Handing in a task may raise a fault, whether or not it is accepted.
-/
inductive Task.Goes :
    Task S.noted → List (Nat × Incident S) → List (Task S.noted) → Task S.noted → Prop where
  | work (i : Nat) (op : S.Op) (next : S.Ans op → Task S.noted) (answer : S.Ans op) :
      Goes (.call (.work i op) next) [(i, .performed op answer)] [] (next answer)
  | note (i : Nat) (note : Note) (next : Unit → Task S.noted) :
      Goes (.call (.note i note) next) [(i, .noted note)] [] (next ())
  | other (op : S.Op) (next : S.Ans op → Task S.noted) (answer : S.Ans op) :
      Goes (.call (.other op) next) [] [] (next answer)
  | accept (task : Task S.noted) (next : Bool → Task S.noted) (raised : Option Fault) :
      Goes (.schedule task next) (task.number?.toList.map fun i => (i, .accepted)) [task]
        (raised.elim (next true) .fault)
  | reject (task : Task S.noted) (next : Bool → Task S.noted) (raised : Option Fault) :
      Goes (.schedule task next) (task.number?.toList.map fun i => (i, .rejected)) []
        (raised.elim (next false) .fault)

/-- The code under way on an executor. -/
structure Execution (S : Signature) where
  /-- The work that has been spawned, by number. -/
  works : List (Work S) := []
  /-- The tasks and the other code that has been begun. -/
  running : List (Task S.noted) := []
  /-- The tasks that have been accepted and not begun. -/
  pending : List (Task S.noted) := []
  /-- What has happened to numbered work, in order. -/
  history : List (Nat × Incident S) := []

namespace Execution

/-- What has happened to work of a number, in order. -/
def story (c : Execution S) (i : Nat) : List (Incident S) :=
  c.history.filterMap fun entry => if entry.1 = i then some entry.2 else none

/-- One move of an execution, with the number of the work to which the moved task belongs. -/
inductive Move : Execution S → Option Nat → Execution S → Prop where
  /-- Someone spawns work. -/
  | spawn (c : Execution S) (w : Work S) :
      Move c none
        { c with works := c.works ++ [w], running := w.script c.works.length :: c.running }
  /-- Other code comes in. -/
  | enter (c : Execution S) (task : Task S) :
      Move c none { c with running := task.other :: c.running }
  /-- Some code under way goes on. -/
  | go {c : Execution S} {before after queued : List (Task S.noted)} {task rest : Task S.noted}
      {incidents : List (Nat × Incident S)} (hrunning : c.running = before ++ task :: after)
      (hgoes : task.Goes incidents queued rest) :
      Move c task.number?
        { c with
          running := before ++ rest :: after
          pending := c.pending ++ queued
          history := c.history ++ incidents }
  /-- An accepted task is begun; it is no longer there to be begun again. -/
  | begin {c : Execution S} {before after : List (Task S.noted)} {task : Task S.noted}
      (hpending : c.pending = before ++ task :: after) :
      Move c task.number?
        { c with running := task :: c.running, pending := before ++ after }
  /-- Code that is over, perhaps with a fault, is gone. -/
  | leave {c : Execution S} {before after : List (Task S.noted)} {task : Task S.noted}
      (hrunning : c.running = before ++ task :: after)
      (hover : task = .done ∨ ∃ e, task = .fault e) :
      Move c none { c with running := before ++ after }
  /-- Nothing happens. -/
  | idle (c : Execution S) : Move c none c

end Execution

/-- An execution without end, from an executor that has nothing to do. -/
structure Run (S : Signature) where
  state : Nat → Execution S
  mover : Nat → Option Nat
  start : state 0 = {}
  moves : ∀ n, Execution.Move (state n) (mover n) (state (n + 1))

end ApiGateway
