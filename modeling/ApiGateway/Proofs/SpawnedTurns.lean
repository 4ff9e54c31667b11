import ApiGateway.Proofs.Watching
import ApiGateway.Scheduling.Spawn

/-!
# Turns of spawned completions

A task may spawn completions, one after another, with any code between them.  The steps of such
a completion announce themselves: a step tells the place of its completion among those spawned and
how many steps it has taken.  A host that writes the announcements down sees every step in
the order in which the steps are taken, and nothing else is changed by this.

Main definitions:

- `Spawner`: the code of a task that spawns completions.
- `Turn`: a step of a spawned completion.
- `Prog.inTurns`, `Spawner.inTurns`: completions, and tasks that spawn them, with announced steps.
- `Host.logging`: a host that writes announcements down.
- `Spawner.drain`: a queue that is run from the moment at which completions are spawned.

Main results:

- `Spawner.unwatch_inTurns`: without the announcements the task is the one that spawns.
- `Queue.unlogged_runFrom`, `Spawner.unlogged_drain`: a queue runs as it does without
  announcements.
-/

namespace ApiGateway

variable {S : Signature} {C σ : Type}

/-! ## Announcements of tasks -/

namespace Task

/-- A task among watched ones. -/
def own : Task S → Task (Watched C S)
  | .done => .done
  | .fault e => .fault e
  | .call op next => .call (.own op) fun answer => (next answer).own
  | .schedule task next => .schedule task.own fun accepted => (next accepted).own

/-- Erases the announcements. -/
def unwatch : Task (Watched C S) → Task S
  | .done => .done
  | .fault e => .fault e
  | .call (.own op) next => .call op fun answer => (next answer).unwatch
  | .call (.announce _) next => (next ()).unwatch
  | .schedule task next => .schedule task.unwatch fun accepted => (next accepted).unwatch

/-- Watching a task and erasing the announcements gives it back. -/
@[simp]
theorem unwatch_own (task : Task S) : (task.own : Task (Watched C S)).unwatch = task := by
  induction task with
  | done | fault => rfl
  | call op next ih => exact congrArg (Task.call op) (funext ih)
  | schedule task next ihTask ihNext =>
      rw [own, unwatch, ihTask]
      exact congrArg (Task.schedule task) (funext ihNext)

/-- Announcements are erased part by part. -/
theorem unwatch_andThen (first second : Task (Watched C S)) :
    (first.andThen second).unwatch = first.unwatch.andThen second.unwatch := by
  induction first with
  | done | fault => rfl
  | call op next ih =>
      cases op with
      | announce callee => exact ih ()
      | own op => exact congrArg (Task.call op) (funext ih)
  | schedule task next _ ih => exact congrArg (Task.schedule task.unwatch) (funext ih)

end Task

/-- Callbacks among watched ones. -/
def Callbacks.own (callbacks : Callbacks S) : Callbacks (Watched C S) where
  onDone := callbacks.onDone.map Task.own
  onFailure := callbacks.onFailure.map fun handler e => (handler e).own

namespace Callbacks

theorem finish_own (callbacks : Callbacks S) :
    (callbacks.own : Callbacks (Watched C S)).finish = callbacks.finish.own := by
  rw [finish, finish, own]
  cases callbacks.onDone with
  | none => rfl
  | some task => rfl

theorem fail_own (callbacks : Callbacks S) (e : Fault) :
    (callbacks.own : Callbacks (Watched C S)).fail e = (callbacks.fail e).own := by
  rw [fail, fail, own]
  cases callbacks.onFailure with
  | none => rfl
  | some handler => rfl

end Callbacks

/-! ## Turns -/

/-- The step that a completion takes in a round, in which every completion takes one. -/
structure Turn where
  round : Nat
  work : Nat
deriving DecidableEq, Repr

namespace Turn

/-- Rounds come one after another, and a round goes through the completions as they were spawned. -/
def Before (a b : Turn) : Prop :=
  a.round < b.round ∨ a.round = b.round ∧ a.work < b.work

/-- The next step of the same completion. -/
def next (turn : Turn) : Turn :=
  { turn with round := turn.round + 1 }

end Turn

/-- Work whose steps announce themselves; some steps are already taken. -/
def Prog.inTurns (work : Nat) : Nat → Prog S.scheduling Unit → Prog (Watched Turn S).scheduling Unit
  | _, .done a => .done a
  | _, .fault e => .fault e
  | taken, .call (.base op) next =>
    .call (.base (.own op)) fun answer => (next answer).inTurns work taken
  | taken, .call (.schedule task) next =>
    .call (.schedule task.own) fun accepted => (next accepted).inTurns work taken
  | taken, .suspend rest =>
    .suspend (.call (.base (.announce ⟨taken + 1, work⟩)) fun _ => rest.inTurns work (taken + 1))

/-- The code of a task that spawns completions and does other things. -/
inductive Spawner (S : Signature) where
  | done
  | fault (e : Fault)
  | call (op : S.Op) (next : S.Ans op → Spawner S)
  | schedule (task : Task S) (next : Bool → Spawner S)
  /-- Spawns work and goes on, unless the work fails at once. -/
  | spawn (callbacks : Callbacks S) (work : Prog S.scheduling Unit) (next : Spawner S)

namespace Spawner

/-- The task that does so. -/
def task : Spawner S → Task S
  | .done => .done
  | .fault e => .fault e
  | .call op next => .call op fun answer => (next answer).task
  | .schedule task next => .schedule task fun accepted => (next accepted).task
  | .spawn callbacks work next => (ApiGateway.spawn callbacks work).andThen next.task

/-- The task whose completions announce their steps; some completions are already spawned. -/
def inTurns : Nat → Spawner S → Task (Watched Turn S)
  | _, .done => .done
  | _, .fault e => .fault e
  | spawned, .call op next => .call (.own op) fun answer => (next answer).inTurns spawned
  | spawned, .schedule task next =>
    .schedule task.own fun accepted => (next accepted).inTurns spawned
  | spawned, .spawn callbacks work next =>
    (ApiGateway.spawn callbacks.own (work.inTurns spawned 0)).andThen (next.inTurns (spawned + 1))

/-- Without the announcements a step is the step of the work. -/
theorem unwatch_advance (callbacks : Callbacks S) (i : Nat) (work : Prog S.scheduling Unit)
    (taken : Nat) :
    (advance callbacks.own (work.inTurns i taken)).unwatch = advance callbacks work := by
  induction work generalizing taken with
  | done a => rw [Prog.inTurns, advance, advance, Callbacks.finish_own, Task.unwatch_own]
  | fault e => rw [Prog.inTurns, advance, advance, Callbacks.fail_own, Task.unwatch_own]
  | call op next ih =>
      cases op with
      | base op => exact congrArg (Task.call op) (funext fun answer => ih answer taken)
      | schedule task =>
          rw [Prog.inTurns, advance, Task.unwatch, Task.unwatch_own]
          exact congrArg (Task.schedule task) (funext fun accepted => ih accepted taken)
  | suspend rest ih => exact congrArg (Task.schedule · fun _ => .done) (ih (taken + 1))

/-- Without the announcements spawning starts the work. -/
theorem unwatch_spawn (callbacks : Callbacks S) (i : Nat) (work : Prog S.scheduling Unit)
    (taken : Nat) :
    (ApiGateway.spawn callbacks.own (work.inTurns i taken)).unwatch =
      ApiGateway.spawn callbacks work := by
  induction work with
  | done a =>
      rw [Prog.inTurns, ApiGateway.spawn, ApiGateway.spawn, Callbacks.finish_own, Task.unwatch_own]
  | fault e => rfl
  | call op next ih =>
      cases op with
      | base op => exact congrArg (Task.call op) (funext ih)
      | schedule task =>
          rw [Prog.inTurns, ApiGateway.spawn, Task.unwatch, Task.unwatch_own]
          exact congrArg (Task.schedule task) (funext ih)
  | suspend rest =>
      exact congrArg (Task.schedule · fun _ => .done) (unwatch_advance callbacks i rest (taken + 1))

/-- Without the announcements the task is the one that spawns. -/
theorem unwatch_inTurns (spawner : Spawner S) (spawned : Nat) :
    (spawner.inTurns spawned).unwatch = spawner.task := by
  induction spawner generalizing spawned with
  | done | fault => rfl
  | call op next ih => exact congrArg (Task.call op) (funext fun answer => ih answer spawned)
  | schedule task next ih =>
      rw [inTurns, Task.unwatch, Task.unwatch_own]
      exact congrArg (Task.schedule task) (funext fun accepted => ih accepted spawned)
  | spawn callbacks work next ih =>
      rw [inTurns, Spawner.task, Task.unwatch_andThen, unwatch_spawn, ih]

end Spawner

/-! ## Writing announcements down -/

/-- A host that writes announcements down, the first one first. -/
def Host.logging (host : Host S σ) : Host (Watched C S) (σ × List C) where
  answer
    | .announce callee, (s, log) => ((), (s, log ++ [callee]))
    | .own op, (s, log) =>
      let (answer, s') := host.answer op s
      (answer, (s', log))

/-- What a task has left, without the log and the announcements. -/
def Progress.unlogged (progress : Progress (Watched C S) (σ × List C)) : Progress S σ :=
  ⟨progress.state.1, progress.queued.map Task.unwatch, progress.failure⟩

/-- A queue, without the log and the announcements. -/
def Drained.unlogged (drained : Drained (Watched C S) (σ × List C)) : Drained S σ :=
  ⟨⟨drained.queue.state.1, drained.queue.pending.map Task.unwatch⟩, drained.ran, drained.failure⟩

variable (host : Host S σ)

/-- A task runs as it does without announcements. -/
theorem Task.unlogged_run (task : Task (Watched C S)) (s : σ × List C) :
    (task.run (Inline.worker host.logging) s).unlogged =
      task.unwatch.run (Inline.worker host) s.1 := by
  induction task generalizing s with
  | done | fault => rfl
  | call op next ih =>
      cases op with
      | announce callee => exact ih () _
      | own op => exact ih _ _
  | schedule task next _ ih =>
      have hnext := ih true s
      rw [unwatch, run, run, ← hnext]
      rfl

/-- A queue runs as it does without announcements. -/
theorem Queue.unlogged_runFrom (s : σ × List C) (pending : List (Task (Watched C S))) :
    (runFrom (Inline.worker host.logging) s pending).unlogged =
      runFrom (Inline.worker host) s.1 (pending.map Task.unwatch) := by
  fun_induction runFrom (Inline.worker host.logging) s pending with
  | case1 s => rw [List.map_nil, runFrom]; rfl
  | case2 s front rest progress e hfailure =>
      have hrun := front.unlogged_run host s
      have hplain : (front.unwatch.run (Inline.worker host) s.1).failure = some e :=
        hrun ▸ hfailure
      rw [List.map_cons, runFrom, hplain, ← hrun, Drained.unlogged, List.map_append]
      rfl
  | case3 s front rest progress hfailure drained ih =>
      have hrun := front.unlogged_run host s
      have hplain : (front.unwatch.run (Inline.worker host) s.1).failure = none :=
        hrun ▸ hfailure
      rw [List.map_append] at ih
      rw [List.map_cons, runFrom, hplain, ← hrun]
      exact congrArg (fun plain : Drained S σ => { plain with ran := plain.ran + 1 }) ih

/-- Runs a queue at whose front a task is to spawn completions; the other tasks are any others. -/
def Spawner.drain (spawner : Spawner S) (others : List (Task S)) (s : σ × List Turn) :
    Drained (Watched Turn S) (σ × List Turn) :=
  Queue.runFrom (Inline.worker host.logging) s (spawner.inTurns 0 :: others.map Task.own)

/-- The queue runs as it does without announcements. -/
theorem Spawner.unlogged_drain (spawner : Spawner S) (others : List (Task S))
    (s : σ × List Turn) :
    (spawner.drain host others s).unlogged =
      Queue.runFrom (Inline.worker host) s.1 (spawner.task :: others) := by
  have hothers : (others.map (Task.own (C := Turn))).map Task.unwatch = others := by
    rw [List.map_map, Function.comp_def]
    simp only [Task.unwatch_own, List.map_id']
  rw [drain, Queue.unlogged_runFrom, List.map_cons, unwatch_inTurns, hothers]

end ApiGateway
