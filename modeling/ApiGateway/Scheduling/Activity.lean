import ApiGateway.Scheduling.Queue

/-!
# Tasks that run their own queue

A task may itself run the queue on which it stands: its front task, or everything
that is left.  Until that is over the task waits, so tasks nest, and the fault of a
task that is run in this way goes to the one that waits for it.  An activity is a
queue at such work.  It goes from one stage to the next, and each stage has less
left to do than the one before.

Main definitions:

- `Signature.queued`: the operations of tasks that may run their own queue.
- `Host.queueless`: answers them where nothing is ever queued.
- `Activity`: a queue at work.  `Activity.next?`: its next stage.
- `Queue.perform`: a script with all the tasks that it runs.

Main results:

- `Activity.next?_lowers`: each stage has less left to do.
-/

namespace ApiGateway

/-- An operation of the signature, or one on the queue of the task. -/
inductive QueueOp (S : Signature) where
  | base (op : S.Op)
  /-- Runs the front task; the answer tells whether there was one. -/
  | step
  /-- Runs tasks until none is left; the answer tells how many have run. -/
  | run

/-- The operations of a signature, and running the own queue, which may fail. -/
def Signature.queued (S : Signature) : Signature where
  Op := QueueOp S
  Ans
    | .base op => S.Ans op
    | .step => Except Fault Bool
    | .run => Except Fault Nat

variable {S : Signature} {σ : Type}

/-- Answers tasks that have no queue: there never is a front task. -/
def Host.queueless (host : Host S σ) : Host S.queued σ where
  answer
    | .base op, s => host.answer op s
    | .step, s => (.ok false, s)
    | .run, s => (.ok 0, s)

/-! ## Stages of a queue at work -/

/-- A task that waits for other tasks of its queue. -/
inductive Waiting (S : Signature) where
  /-- Waits for the task that was in front. -/
  | forOne (next : Except Fault Bool → Task S.queued)
  /-- Waits until no task is left, of which some have run. -/
  | forAll (ran : Nat) (next : Except Fault Nat → Task S.queued)

/-- What goes on at the moment. -/
inductive Stage (S : Signature) where
  /-- A task is to go on. -/
  | running (task : Task S.queued)
  /-- A task is over, perhaps with a fault. -/
  | returning (failure : Option Fault)

/-- The task that waits, at the operation whose answer it waits for. -/
def Waiting.task : Waiting S → Task S.queued
  | .forOne next => .call .step next
  | .forAll _ next => .call .run next

/-- The task that is to go on. -/
def Stage.tasks : Stage S → List (Task S.queued)
  | .running task => [task]
  | .returning _ => []

/-- The fault with which the last task is over. -/
def Stage.failure : Stage S → Option Fault
  | .running _ => none
  | .returning failure => failure

/-- A queue at work: what goes on, the tasks that wait for it, and those that were not begun. -/
structure Activity (S : Signature) (σ : Type) where
  state : σ
  stage : Stage S
  waiting : List (Waiting S)
  pending : List (Task S.queued)

namespace Activity

/-- Runs the next task for one that waits for all of them, or lets that go on. -/
def drain (a : Activity S σ) (ran : Nat) (next : Except Fault Nat → Task S.queued) :
    Activity S σ :=
  match a.pending with
  | [] => { a with stage := .running (next (.ok ran)) }
  | front :: rest =>
    { a with stage := .running front, waiting := .forAll ran next :: a.waiting, pending := rest }

/-- Goes on with a task, as far as its next operation. -/
def proceed (worker : Worker S σ) (a : Activity S σ) : Task S.queued → Activity S σ
  | .done => { a with stage := .returning none }
  | .fault e => { a with stage := .returning (some e) }
  | .call (.base op) next =>
    let (answer, state) := worker.answer op a.state
    { a with state, stage := .running (next answer) }
  | .call .step next =>
    match a.pending with
    | [] => { a with stage := .running (next (.ok false)) }
    | front :: rest =>
      { a with stage := .running front, waiting := .forOne next :: a.waiting, pending := rest }
  | .call .run next => a.drain 0 next
  | .schedule task next =>
    if worker.accepts a.state then
      { a with stage := .running (next true), pending := a.pending ++ [task] }
    else
      { a with stage := .running (next false) }

/-- Goes on with the task that has waited for the one that is over. -/
def resume? (a : Activity S σ) (failure : Option Fault) : Option (Activity S σ) :=
  match a.waiting, failure with
  | [], _ => none
  | .forOne next :: waiting, none => some { a with stage := .running (next (.ok true)), waiting }
  | .forOne next :: waiting, some e =>
    some { a with stage := .running (next (.error e)), waiting }
  | .forAll ran next :: waiting, none => some (drain { a with waiting } (ran + 1) next)
  | .forAll _ next :: waiting, some e =>
    some { a with stage := .running (next (.error e)), waiting }

/-- The next stage; there is none once a task is over for which no other one waits. -/
def next? (worker : Worker S σ) (a : Activity S σ) : Option (Activity S σ) :=
  match a.stage with
  | .running task => some (a.proceed worker task)
  | .returning failure => a.resume? failure

/-! ## What is left to do -/

/-- A part of a task is smaller than the task, and a task once begun is smaller than before. -/
abbrev Smaller : Task S.queued × Nat → Task S.queued × Nat → Prop :=
  Prod.Lex Task.Part (· < ·)

/-- The tasks that wait, which were begun, and those that were not. -/
def others (a : Activity S σ) : List (Task S.queued × Nat) :=
  a.waiting.map (fun w => (w.task, 0)) ++ a.pending.map (·, 1)

/-- All tasks on which there is something left to do. -/
def work (a : Activity S σ) : List (Task S.queued × Nat) :=
  a.stage.tasks.map (·, 0) ++ a.others

/-- Going on with a part of the first task leaves less to do. -/
theorem lowers_of_part {part task : Task S.queued} (h : Task.Part part task)
    (rest : List (Task S.queued × Nat)) :
    Lowers Smaller ((part, 0) :: rest) ((task, 0) :: rest) :=
  .head (.left _ _ h) rest

/-- Beginning the front task while another one waits leaves less to do. -/
theorem lowers_of_begin (front : Task S.queued) (before after : List (Task S.queued × Nat)) :
    Lowers Smaller ((front, 0) :: (before ++ after)) (before ++ (front, 1) :: after) :=
  .front (.right _ Nat.one_pos) before after

/-- Waiting for one more task, or for none, leaves less to do. -/
theorem drain_lowers (a : Activity S σ) (ran : Nat)
    (next : Except Fault Nat → Task S.queued) :
    Lowers Smaller (a.drain ran next).work ((.call .run next, 0) :: a.others) := by
  unfold drain
  split
  next => exact lowers_of_part (.answered _ _ _) _
  next front rest hpending =>
    simp only [work, others, hpending]
    exact lowers_of_begin front (_ :: a.waiting.map _) _

/-- Going on with a task leaves less to do. -/
theorem proceed_lowers (worker : Worker S σ) (a : Activity S σ) (task : Task S.queued) :
    Lowers Smaller (a.proceed worker task).work ((task, 0) :: a.others) := by
  unfold proceed
  split
  next => exact .tail _ _
  next => exact .tail _ _
  next => exact lowers_of_part (.answered _ _ _) _
  next next =>
    split
    next => exact lowers_of_part (.answered _ _ _) _
    next front rest hpending =>
      simp only [work, others, hpending]
      exact lowers_of_begin front (_ :: a.waiting.map _) _
  next next => exact drain_lowers a 0 next
  next task next =>
    split
    next =>
      simp only [work, others, List.map_append, ← List.append_assoc]
      exact .headLast (.left _ _ (.afterSchedule _ _ _)) (.left _ _ (.scheduled _ _)) _
    next => exact lowers_of_part (.afterSchedule _ _ _) _

/-- Going on with a task that has waited leaves less to do. -/
theorem resume?_lowers {a b : Activity S σ} {failure : Option Fault}
    (h : a.resume? failure = some b) : Lowers Smaller b.work a.others := by
  unfold resume? at h
  split at h
  next => cases h
  next next waiting hwaiting =>
    cases h
    simp only [others, hwaiting]
    exact lowers_of_part (.answered _ _ _) _
  next next waiting e hwaiting =>
    cases h
    simp only [others, hwaiting]
    exact lowers_of_part (.answered _ _ _) _
  next ran next waiting hwaiting =>
    cases h
    simp only [others, hwaiting]
    exact drain_lowers { a with waiting } (ran + 1) next
  next ran next waiting e hwaiting =>
    cases h
    simp only [others, hwaiting]
    exact lowers_of_part (.answered _ _ _) _

/-- Each stage has less left to do than the one before. -/
theorem next?_lowers {worker : Worker S σ} {a b : Activity S σ} (h : a.next? worker = some b) :
    Lowers Smaller b.work a.work := by
  unfold next? at h
  split at h
  next task hstage =>
    cases h
    simp only [work, hstage]
    exact proceed_lowers worker a task
  next failure hstage =>
    simp only [work, hstage]
    exact resume?_lowers h

instance : WellFoundedRelation (Activity S σ) where
  rel b a := Lowers Smaller b.work a.work
  wf := InvImage.wf work
    (Lowers.wellFounded (Prod.lex ⟨_, Task.part_wellFounded⟩ Nat.lt_wfRel).wf)

/-! ## The end of the work -/

/-- Goes from stage to stage until nothing is under way; what is left is the queue. -/
def settle (worker : Worker S σ) (a : Activity S σ) : Queue S.queued σ × Option Fault :=
  match _ : a.next? worker with
  | some b => settle worker b
  | none => (⟨a.state, a.pending⟩, a.stage.failure)
termination_by a
decreasing_by exact next?_lowers ‹_›

/-- Work goes on with the next stage. -/
theorem settle_of_next?_eq_some {worker : Worker S σ} {a b : Activity S σ}
    (h : a.next? worker = some b) : a.settle worker = b.settle worker := by
  rw [settle]
  split <;> simp_all

/-- Work is over without a next stage. -/
theorem settle_of_next?_eq_none {worker : Worker S σ} {a : Activity S σ}
    (h : a.next? worker = none) : a.settle worker = (⟨a.state, a.pending⟩, a.stage.failure) := by
  rw [settle]
  split <;> simp_all

end Activity

/-- Runs a script on behalf of the caller, with the tasks of the queue that it runs. -/
def Queue.perform (worker : Worker S σ) (q : Queue S.queued σ) (script : Task S.queued) :
    Queue S.queued σ × Option Fault :=
  Activity.settle worker ⟨q.state, .running script, [], q.pending⟩

end ApiGateway
