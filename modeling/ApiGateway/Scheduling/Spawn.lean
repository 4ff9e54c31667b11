import ApiGateway.Scheduling.Queue

/-!
# Spawned work

Spawning drives a program to its end on an executor, one step per task: the part
before the first suspension runs with the caller, and every suspension schedules
the next step.  At most one task of a spawned program is outstanding at a time.
A rejected step abandons the program without telling anyone.

Main definitions:

- `Signature.scheduling`: the operations of a signature, and handing in tasks.
- `Callbacks`: what to do when the work is done or has failed.
- `spawn`: the script that starts the work.  `advance`: one step of it as a task.
-/

namespace ApiGateway

/-- An operation of the signature, or handing in a task. -/
inductive SchedulingOp (S : Signature) where
  | base (op : S.Op)
  | schedule (task : Task S)

/-- The operations of a signature, and handing in tasks. -/
def Signature.scheduling (S : Signature) : Signature where
  Op := SchedulingOp S
  Ans
    | .base op => S.Ans op
    | .schedule _ => Bool

/-- Every operation is available beside scheduling. -/
def Embedding.scheduling (S : Signature) : Embedding S S.scheduling where
  op := .base
  answer _ a := a

/-- A task as work that ends without suspending. -/
def Task.toProg {S : Signature} : Task S → Prog S.scheduling Unit
  | .done => .done ()
  | .fault e => .fault e
  | .call op next => .call (.base op) fun answer => (next answer).toProg
  | .schedule task next => .call (.schedule task) fun accepted => (next accepted).toProg

/-- What happens at the end of spawned work; without `onFailure` a fault fails the task. -/
structure Callbacks (S : Signature) where
  onDone : Option (Task S) := none
  onFailure : Option (Fault → Task S) := none

variable {S : Signature}

namespace Callbacks

/-- The end of work that has succeeded. -/
def finish (callbacks : Callbacks S) : Task S :=
  callbacks.onDone.getD .done

/-- The end of work that has failed in a later step. -/
def fail (callbacks : Callbacks S) (e : Fault) : Task S :=
  match callbacks.onFailure with
  | some handler => handler e
  | none => .fault e

end Callbacks

/-- One step of spawned work: it ends with a callback or schedules the next step. -/
def advance (callbacks : Callbacks S) : Prog S.scheduling Unit → Task S
  | .done _ => callbacks.finish
  | .fault e => callbacks.fail e
  | .call (.base op) next => .call op fun answer => advance callbacks (next answer)
  | .call (.schedule task) next =>
    .schedule task fun accepted => advance callbacks (next accepted)
  | .suspend rest => .schedule (advance callbacks rest) fun _ => .done

/-- Starts work with the caller, who also sees the faults of its first step. -/
def spawn (callbacks : Callbacks S) : Prog S.scheduling Unit → Task S
  | .done _ => callbacks.finish
  | .fault e => .fault e
  | .call (.base op) next => .call op fun answer => spawn callbacks (next answer)
  | .call (.schedule task) next =>
    .schedule task fun accepted => spawn callbacks (next accepted)
  | .suspend rest => .schedule (advance callbacks rest) fun _ => .done

/-- Starts work that schedules nothing by itself. -/
def spawnProg (callbacks : Callbacks S) (work : Prog S Unit) : Task S :=
  spawn callbacks (work.embed (Embedding.scheduling S))

end ApiGateway
