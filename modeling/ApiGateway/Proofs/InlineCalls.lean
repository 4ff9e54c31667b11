import Mathlib.Logic.Relation
import ApiGateway.Scheduling.Queue

/-!
# Calls of the inline executor

A call of `schedule` puts its task at the end of the queue.  If the queue is being drained, the
call is over, and otherwise it drains the queue itself: it takes the front task and runs it, until
nothing is left or a task fails, and then it empties the queue and passes the fault on.  Tasks call
`schedule` as the host does, so the calls under way form a stack.  Here all of this is done in
single moves, with the queue and the flag as they are written and with a trace of what happens.

Nothing in the moves forbids a call to drain the queue inside another one.  That this never happens
is a property of the machines that can be reached.

Main definitions:

- `Executor`: the queue and the flag of an inline executor.
- `Machine`: an executor with the calls under way, its host, and what has happened so far.
- `Machine.next?`: the move that comes next, if a call is under way.
- `Reached`: what a fresh executor becomes while the host calls it.

Main results:

- `exists_steps_outside`: a queue is drained as `Queue.run` says, and the executor is idle again.
- `exists_steps_schedule`: a call outside of any task ends as `Inline.run` says.
-/

namespace ApiGateway.Inline

variable {S : Signature} {σ : Type}

/-! ## Machines -/

/-- The tasks waiting to be run, with their numbers, and whether a call is draining them. -/
structure Executor (S : Signature) where
  queue : List (Nat × Task S) := []
  draining : Bool := false

/-- What happens on an executor; tasks are numbered as they are scheduled. -/
inductive Entry where
  | scheduled (n : Nat)
  | started (n : Nat)
  | ended (n : Nat)
  /-- A task fails, and the tasks behind it are dropped. -/
  | failed (n : Nat) (e : Fault) (dropped : List Nat)
  /-- The outermost call returns. -/
  | returned (accepted : Bool)
  /-- A fault escapes from the outermost call. -/
  | raised (e : Fault)

/-- Who has called `schedule` and waits for it: the host, or a task with what it does next. -/
inductive Caller (S : Signature) where
  | host
  | task (n : Nat) (next : Bool → Task S)

/-- Where the code of the executor stands. -/
inductive Control (S : Signature) where
  /-- No call is under way. -/
  | outside
  /-- A task is run, and this much is left of it. -/
  | running (n : Nat) (task : Task S)
  /-- The innermost call looks whether the queue is empty. -/
  | looking
  /-- The innermost call is over. -/
  | leaving (result : Except Fault Bool)

/-- An executor and its host, with the calls under way, innermost first. -/
structure Machine (S : Signature) (σ : Type) where
  state : σ
  executor : Executor S := {}
  control : Control S := .outside
  callers : List (Caller S) := []
  scheduled : Nat := 0
  trace : List Entry := []

namespace Machine

/-- Begins a call; unless the queue is being drained already, the call is to drain it. -/
def schedule (m : Machine S σ) (caller : Caller S) (task : Task S) : Machine S σ :=
  { m with
    executor := ⟨m.executor.queue ++ [(m.scheduled, task)], true⟩
    control := if m.executor.draining then .leaving (.ok true) else .looking
    callers := caller :: m.callers
    scheduled := m.scheduled + 1
    trace := m.trace ++ [.scheduled m.scheduled] }

/-- How the outermost call is over. -/
def leave : Except Fault Bool → Entry
  | .ok accepted => .returned accepted
  | .error e => .raised e

/-- What a task does after a call that it has made; a fault of the call is one of the task. -/
def resume (next : Bool → Task S) : Except Fault Bool → Task S
  | .ok accepted => next accepted
  | .error e => .fault e

/-- The next move of the code, which is none outside of calls. -/
def next? (host : Host S σ) (m : Machine S σ) : Option (Machine S σ) :=
  match m.control with
  | .outside => none
  | .running n .done => some { m with control := .looking, trace := m.trace ++ [.ended n] }
  | .running n (.fault e) =>
    some { m with
      executor := {}
      control := .leaving (.error e)
      trace := m.trace ++ [.failed n e (m.executor.queue.map Prod.fst)] }
  | .running n (.call op next) =>
    let (answer, state) := host.answer op m.state
    some { m with state, control := .running n (next answer) }
  | .running n (.schedule task next) => some (m.schedule (.task n next) task)
  | .looking =>
    match m.executor.queue with
    | [] =>
      some { m with
        executor := { m.executor with draining := false }
        control := .leaving (.ok true) }
    | (n, task) :: rest =>
      some { m with
        executor := { m.executor with queue := rest }
        control := .running n task
        trace := m.trace ++ [.started n] }
  | .leaving result =>
    match m.callers with
    | [] => none
    | .host :: callers =>
      some { m with control := .outside, callers, trace := m.trace ++ [leave result] }
    | .task n next :: callers =>
      some { m with control := .running n (resume next result), callers }

end Machine

/-- Some moves lead from the first machine to the second one. -/
abbrev Steps (host : Host S σ) : Machine S σ → Machine S σ → Prop :=
  Relation.ReflTransGen fun m m' => m.next? host = some m'

/--
What a fresh executor may have become.  While no call is under way the host may schedule a task,
and it may change in any other way.
-/
inductive Reached (host : Host S σ) : Machine S σ → Prop where
  | fresh (s : σ) : Reached host { state := s }
  | next {m m' : Machine S σ} : Reached host m → m.next? host = some m' → Reached host m'
  | call {m : Machine S σ} (task : Task S) :
      Reached host m → m.control = .outside → Reached host (m.schedule .host task)
  | change {m : Machine S σ} (s : σ) :
      Reached host m → m.control = .outside → Reached host { m with state := s }

theorem Reached.steps {host : Host S σ} {m m' : Machine S σ} (hm : Reached host m)
    (h : Steps host m m') : Reached host m' := by
  induction h with
  | refl => exact hm
  | tail _ hnext ih => exact ih.next hnext

/-! ## Whole tasks -/

/-- A task has been run while others were waiting behind it. -/
structure Machine.Ran (m : Machine S σ) (callers : List (Caller S)) (waiting : List (Task S))
    (progress : Progress S σ) : Prop where
  state : m.state = progress.state
  callers : m.callers = callers
  ended : progress.failure = none → m.control = .looking ∧ m.executor.draining = true ∧
    m.executor.queue.map Prod.snd = waiting ++ progress.queued
  failed : ∀ e, progress.failure = some e → m.control = .leaving (.error e) ∧ m.executor = {}

/-- While the queue is being drained, a task is run without another one in between. -/
theorem exists_steps_running (host : Host S σ) (task : Task S) (m : Machine S σ) (n : Nat)
    (hcontrol : m.control = .running n task) (hdraining : m.executor.draining = true) :
    ∃ m', Steps host m m' ∧ m'.Ran m.callers (m.executor.queue.map Prod.snd)
      (task.run (worker host) m.state) := by
  induction task generalizing m with
  | done =>
      refine ⟨_, .single (by rw [Machine.next?, hcontrol]), ?_⟩
      exact {
        state := rfl
        callers := rfl
        ended := fun _ => ⟨rfl, hdraining, (List.append_nil _).symm⟩
        failed := nofun }
  | fault e =>
      refine ⟨_, .single (by rw [Machine.next?, hcontrol]), ?_⟩
      exact {
        state := rfl
        callers := rfl
        ended := nofun
        failed := fun _ h => ⟨by rw [Option.some.inj h], rfl⟩ }
  | call op next ih =>
      have hnext : m.next? host = some { m with
          state := (host.answer op m.state).2
          control := .running n (next (host.answer op m.state).1) } := by
        rw [Machine.next?, hcontrol]
      obtain ⟨m', hsteps, hran⟩ := ih (host.answer op m.state).1 { m with
        state := (host.answer op m.state).2
        control := .running n (next (host.answer op m.state).1) } rfl hdraining
      exact ⟨m', .head hnext hsteps, hran.state, hran.callers, hran.ended, hran.failed⟩
  | schedule task next _ ih =>
      have hcall : m.next? host = some (m.schedule (.task n next) task) := by
        rw [Machine.next?, hcontrol]
      -- The queue is being drained, so the call is over at once and the task goes on.
      let resumed : Machine S σ := { m.schedule (.task n next) task with
        control := .running n (next true)
        callers := m.callers }
      have hleave : (m.schedule (.task n next) task).next? host = some resumed := by
        simp only [Machine.next?, Machine.schedule, hdraining, if_true, Machine.resume, resumed]
      obtain ⟨m', hsteps, hran⟩ := ih true resumed rfl rfl
      refine ⟨m', .head hcall (.head hleave hsteps), ?_⟩
      exact {
        state := hran.state
        callers := hran.callers
        ended := fun h => by
          obtain ⟨hcontrol', hdraining', hqueue⟩ := hran.ended h
          refine ⟨hcontrol', hdraining', hqueue.trans ?_⟩
          simp [resumed, Machine.schedule, Task.run, worker]
        failed := hran.failed }

/-! ## Draining the queue -/

/-- The outermost call is over, the executor is idle, and the host is left in a state. -/
structure Machine.Left (m : Machine S σ) (state : σ) (failure : Option Fault) : Prop where
  control : m.control = .outside
  executor : m.executor = {}
  callers : m.callers = []
  state : m.state = state
  last : m.trace.getLast? = some (failure.elim (.returned true) .raised)

/-- The outermost call is over with the next move. -/
theorem exists_steps_leaving (host : Host S σ) {m : Machine S σ} {result : Except Fault Bool}
    (failure : Option Fault)
    (hresult : Machine.leave result = failure.elim (.returned true) .raised)
    (hcontrol : m.control = .leaving result) (hcallers : m.callers = [.host])
    (hexecutor : m.executor = {}) : ∃ m', Steps host m m' ∧ m'.Left m.state failure := by
  refine ⟨_, .single (by rw [Machine.next?, hcontrol, hcallers]), ?_⟩
  exact {
    control := rfl
    executor := hexecutor
    callers := rfl
    state := rfl
    last := by rw [List.getLast?_concat, hresult] }

/-- The front task is taken and run. -/
theorem exists_steps_front {host : Host S σ} {m : Machine S σ} (hcontrol : m.control = .looking)
    (hdraining : m.executor.draining = true) {front : Task S} {rest : List (Task S)}
    (htasks : m.executor.queue.map Prod.snd = front :: rest) :
    ∃ m', Steps host m m' ∧ m'.Ran m.callers rest (front.run (worker host) m.state) := by
  obtain ⟨⟨n, task⟩, entries, hqueue, rfl, rfl⟩ := List.map_eq_cons_iff.1 htasks
  let started : Machine S σ := { m with
    executor := { m.executor with queue := entries }
    control := .running n task
    trace := m.trace ++ [.started n] }
  have hnext : m.next? host = some started := by
    rw [Machine.next?, hcontrol, hqueue]
  obtain ⟨m', hsteps, hran⟩ := exists_steps_running host task started n rfl hdraining
  exact ⟨m', .head hnext hsteps, hran⟩

/-- The outermost call drains the queue as a queue is run, and then it is over. -/
theorem exists_steps_outside (host : Host S σ) (m : Machine S σ) (s : σ) (tasks : List (Task S))
    (hcontrol : m.control = .looking) (hdraining : m.executor.draining = true)
    (hcallers : m.callers = [.host]) (hstate : m.state = s)
    (htasks : m.executor.queue.map Prod.snd = tasks) :
    ∃ m', Steps host m m' ∧ m'.Left (Queue.runFrom (worker host) s tasks).queue.state
      (Queue.runFrom (worker host) s tasks).failure := by
  fun_induction Queue.runFrom (worker host) s tasks generalizing m with
  | case1 s =>
      have hqueue : m.executor.queue = [] := List.map_eq_nil_iff.1 htasks
      let emptied : Machine S σ := { m with
        executor := { m.executor with draining := false }
        control := .leaving (.ok true) }
      have hnext : m.next? host = some emptied := by
        rw [Machine.next?, hcontrol, hqueue]
      have hidle : emptied.executor = {} := congrArg (Executor.mk · false) hqueue
      obtain ⟨m', hsteps, hleft⟩ :=
        exists_steps_leaving host none rfl (rfl : emptied.control = _) hcallers hidle
      exact ⟨m', .head hnext hsteps, hstate ▸ hleft⟩
  | case2 s front rest progress e hfailure =>
      subst hstate
      obtain ⟨m', hsteps, hran⟩ := exists_steps_front hcontrol hdraining htasks
      obtain ⟨hleaving, hidle⟩ := hran.failed e hfailure
      obtain ⟨m'', hsteps', hleft⟩ :=
        exists_steps_leaving host (some e) rfl hleaving (hran.callers.trans hcallers) hidle
      exact ⟨m'', hsteps.trans hsteps', hran.state ▸ hleft⟩
  | case3 s front rest progress hfailure drained ih =>
      subst hstate
      obtain ⟨m', hsteps, hran⟩ := exists_steps_front hcontrol hdraining htasks
      obtain ⟨hlooking, hdraining', htasks'⟩ := hran.ended hfailure
      obtain ⟨m'', hsteps', hleft⟩ := ih m' hlooking hdraining' (hran.callers.trans hcallers)
        hran.state htasks'
      exact ⟨m'', hsteps.trans hsteps', hleft⟩

/-- The inline executor runs a task as the queue that holds nothing else. -/
theorem run_schedule_done (host : Host S σ) (task : Task S) (s : σ) :
    run host (.schedule task fun _ => .done) s =
      ((Queue.runFrom (worker host) s [task]).queue.state,
        (Queue.runFrom (worker host) s [task]).failure) := by
  rw [run, Queue.run]
  cases (Queue.runFrom (worker host) s [task]).failure with
  | none => rfl
  | some e => rfl

/-- A call outside of any task ends as the inline executor runs it in that state of the host. -/
theorem exists_steps_schedule (host : Host S σ) (m : Machine S σ) (task : Task S)
    (hexecutor : m.executor = {}) (hcallers : m.callers = []) :
    ∃ m', Steps host (m.schedule .host task) m' ∧
      m'.Left (run host (.schedule task fun _ => .done) m.state).1
        (run host (.schedule task fun _ => .done) m.state).2 := by
  rw [run_schedule_done]
  refine exists_steps_outside host (m.schedule .host task) m.state [task] ?looking rfl
    (congrArg _ hcallers) rfl ?queue
  case looking => rw [Machine.schedule, hexecutor]; rfl
  case queue => rw [Machine.schedule, hexecutor]; rfl

end ApiGateway.Inline
