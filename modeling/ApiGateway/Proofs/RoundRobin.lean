import ApiGateway.Proofs.InlineOrder
import ApiGateway.Proofs.SpawnedTurns

/-!
# Completions take turns

The queue of an executor that accepts everything holds at most one step of a completion, and a
step that is taken puts the next one at the end.  So the steps in the queue belong to one round
or to two rounds that follow each other, and completions take their steps round by round.
Together with the order in which the inline executor runs tasks this says how completions advance
that one task has spawned.

Main definitions:

- `Turn.ahead`: the steps that are queued.
- `RoundRobin`: the steps taken and those ahead come round by round, without gaps.
- `InTurn`: the same for a queue, with what carries it through the next task.

Main results:

- `InTurn.run`, `InTurn.runFrom`: one task and a whole queue keep to the turns.
- `Inline.runs_in_order`: the inline executor is a queue that never nests, becomes idle with the
  end of each outermost call, and lets completions take turns.
-/

namespace ApiGateway

open scoped List

variable {S : Signature} {σ : Type}

/-! ## Queued steps -/

namespace Turn

/-- The step that a task takes first. -/
def ofTask? : Task (Watched Turn S) → Option Turn
  | .call (.announce turn) _ => some turn
  | _ => none

/-- The steps that are queued, in order. -/
def ahead (tasks : List (Task (Watched Turn S))) : List Turn :=
  tasks.filterMap ofTask?

@[simp]
theorem ahead_append (first rest : List (Task (Watched Turn S))) :
    ahead (first ++ rest) = ahead first ++ ahead rest :=
  List.filterMap_append

/-- Code of others takes no step. -/
@[simp]
theorem ahead_own_cons (task : Task S) (rest : List (Task (Watched Turn S))) :
    ahead (task.own :: rest) = ahead rest := by
  cases task <;> rfl

/-- A step of a completion, as a task. -/
def step (turn : Turn) (callbacks : Callbacks S) (work : Prog S.scheduling Unit) :
    Task (Watched Turn S) :=
  .call (.announce turn) fun _ => advance callbacks.own (work.inTurns turn.work turn.round)

/-- What is queued once the completions are spawned: their steps, and code of others. -/
inductive Waits : Task (Watched Turn S) → Prop
  | own (task : Task S) : Waits task.own
  | step (turn : Turn) (callbacks : Callbacks S) (work : Prog S.scheduling Unit) :
      Waits (turn.step callbacks work)

end Turn

/-! ## What a task leaves -/

/-- A task has written nothing down, and of the given steps it has handed in some in this order. -/
structure Leaves (s : σ × List Turn) (progress : Progress (Watched Turn S) (σ × List Turn))
    (turns : List Turn) : Prop where
  log : progress.state.2 = s.2
  waits : ∀ task ∈ progress.queued, Turn.Waits task
  ahead : Turn.ahead progress.queued <+ turns

namespace Leaves

variable (host : Host S σ) {s : σ × List Turn} {turns : List Turn}

theorem of_nil {progress : Progress (Watched Turn S) (σ × List Turn)} (h : Leaves s progress [])
    (turns : List Turn) : Leaves s progress turns :=
  ⟨h.log, h.waits, h.ahead.trans (List.nil_sublist turns)⟩

theorem call (op : S.Op) (next : S.Ans op → Task (Watched Turn S))
    (h : Leaves ((host.answer op s.1).2, s.2)
      ((next (host.answer op s.1).1).run (Inline.worker host.logging)
        ((host.answer op s.1).2, s.2)) turns) :
    Leaves s ((Task.call (S := Watched Turn S) (.own op) next).run
      (Inline.worker host.logging) s) turns :=
  ⟨h.log, h.waits, h.ahead⟩

theorem schedule (task : Task S) (next : Bool → Task (Watched Turn S))
    (h : Leaves s ((next true).run (Inline.worker host.logging) s) turns) :
    Leaves s ((Task.schedule task.own next).run (Inline.worker host.logging) s) turns where
  log := h.log
  waits := List.forall_mem_cons.2 ⟨.own task, h.waits⟩
  ahead := (Turn.ahead_own_cons task _).symm ▸ h.ahead

theorem suspend (turn : Turn) (callbacks : Callbacks S) (work : Prog S.scheduling Unit)
    (s : σ × List Turn) :
    Leaves s ((Task.schedule (turn.step callbacks work) fun _ => .done).run
      (Inline.worker host.logging) s) [turn] where
  log := rfl
  waits := List.forall_mem_singleton.2 (.step turn callbacks work)
  ahead := .refl _

/-- Code of others hands in no step. -/
theorem own (task : Task S) (s : σ × List Turn) :
    Leaves s (task.own.run (Inline.worker host.logging) s) [] := by
  induction task generalizing s with
  | done | fault => exact ⟨rfl, nofun, .slnil⟩
  | call op next ih => exact .call host op _ (ih _ _)
  | schedule task next _ ih => exact .schedule host task _ (ih true s)

/-- What follows a step of a completion hands in the next one at most. -/
theorem advance (callbacks : Callbacks S) (i : Nat) (work : Prog S.scheduling Unit) (taken : Nat)
    (s : σ × List Turn) :
    Leaves s ((ApiGateway.advance callbacks.own (work.inTurns i taken)).run
      (Inline.worker host.logging) s) [⟨taken + 1, i⟩] := by
  induction work generalizing s with
  | done a =>
      rw [Prog.inTurns, ApiGateway.advance, Callbacks.finish_own]
      exact (own host _ s).of_nil _
  | fault e =>
      rw [Prog.inTurns, ApiGateway.advance, Callbacks.fail_own]
      exact (own host _ s).of_nil _
  | call op next ih =>
      cases op with
      | base op => exact .call host op _ (ih _ _)
      | schedule task => exact .schedule host task _ (ih true s)
  | suspend rest => exact .suspend host ⟨taken + 1, i⟩ callbacks rest s

/-- Spawning a completion hands in its first step at most. -/
theorem spawn (callbacks : Callbacks S) (i : Nat) (work : Prog S.scheduling Unit)
    (s : σ × List Turn) :
    Leaves s ((ApiGateway.spawn callbacks.own (work.inTurns i 0)).run
      (Inline.worker host.logging) s) [⟨1, i⟩] := by
  induction work generalizing s with
  | done a =>
      rw [Prog.inTurns, ApiGateway.spawn, Callbacks.finish_own]
      exact (own host _ s).of_nil _
  | fault e => exact (own host (.fault e) s).of_nil _
  | call op next ih =>
      cases op with
      | base op => exact .call host op _ (ih _ _)
      | schedule task => exact .schedule host task _ (ih true s)
  | suspend rest => exact .suspend host ⟨1, i⟩ callbacks rest s

/-- The second task hands in its steps after those of the first one. -/
theorem andThen {first second : Task (Watched Turn S)} {rest : List Turn}
    {progress : Progress (Watched Turn S) (σ × List Turn)}
    (hrun : first.run (Inline.worker host.logging) s = progress) (hfirst : Leaves s progress turns)
    (hsecond : Leaves progress.state
      (second.run (Inline.worker host.logging) progress.state) rest) :
    Leaves s ((first.andThen second).run (Inline.worker host.logging) s) (turns ++ rest) := by
  rw [Task.run_andThen, hrun]
  rcases progress with ⟨s', queued, _ | e⟩
  · exact {
      log := hsecond.log.trans hfirst.log
      waits := List.forall_mem_append.2 ⟨hfirst.waits, hsecond.waits⟩
      ahead := (Turn.ahead_append _ _).symm ▸ hfirst.ahead.append hsecond.ahead }
  · exact ⟨hfirst.log, hfirst.waits, hfirst.ahead.trans (List.sublist_append_left _ _)⟩

/-- A task that spawns completions hands in their first steps, in order. -/
theorem spawner (spawner : Spawner S) (spawned : Nat) (s : σ × List Turn) : ∃ count,
    Leaves s ((spawner.inTurns spawned).run (Inline.worker host.logging) s)
      ((List.range' spawned count).map (Turn.mk 1)) := by
  induction spawner generalizing spawned s with
  | done | fault => exact ⟨0, rfl, nofun, .slnil⟩
  | call op next ih =>
      obtain ⟨count, h⟩ := ih _ spawned _
      exact ⟨count, .call host op _ h⟩
  | schedule task next ih =>
      obtain ⟨count, h⟩ := ih true spawned s
      exact ⟨count, .schedule host task _ h⟩
  | spawn callbacks work next ih =>
      obtain ⟨count, h⟩ := ih (spawned + 1) _
      exact ⟨count + 1, .andThen host rfl (spawn host callbacks spawned work s) h⟩

end Leaves

/-! ## Rounds -/

/--
Completions take turns.  Of the steps taken and those ahead, each comes before all of later rounds
and before those of the same round whose completion was spawned later, and a completion takes
its steps one by one.
-/
structure RoundRobin (taken ahead : List Turn) : Prop where
  ordered : (taken ++ ahead).Pairwise Turn.Before
  gapless : ∀ turn ∈ taken ++ ahead, turn.round = 1 ∨ ∃ earlier ∈ taken, earlier.next = turn

/-- The completions take turns, and no step in the queue is a round ahead of another one. -/
structure InTurn (taken : List Turn) (pending : List (Task (Watched Turn S))) : Prop
    extends RoundRobin taken (Turn.ahead pending) where
  waits : ∀ task ∈ pending, Turn.Waits task
  close : ∀ a ∈ Turn.ahead pending, ∀ b ∈ Turn.ahead pending, b.Before a.next

theorem Turn.before_next (turn : Turn) : turn.Before turn.next :=
  .inl (Nat.lt_succ_self _)

theorem Turn.Before.trans {a b c : Turn} (hab : a.Before b) (hbc : b.Before c) : a.Before c := by
  simp only [Turn.Before] at *
  omega

theorem Turn.Before.next {a b : Turn} (hab : a.Before b) : a.next.Before b.next := by
  simp only [Turn.Before, Turn.next] at *
  omega

namespace InTurn

variable (host : Host S σ) {taken : List Turn} {pending rest : List (Task (Watched Turn S))}

/-- Code of others leaves the turns as they are. -/
theorem own {s : σ × List Turn} {task : Task S} (h : InTurn taken (task.own :: rest))
    {progress : Progress (Watched Turn S) (σ × List Turn)} (hprogress : Leaves s progress []) :
    InTurn taken (rest ++ progress.queued) := by
  have hqueued : Turn.ahead progress.queued = [] := List.sublist_nil.1 hprogress.ahead
  have hahead : Turn.ahead (rest ++ progress.queued) = Turn.ahead (task.own :: rest) := by
    rw [Turn.ahead_append, hqueued, List.append_nil, Turn.ahead_own_cons]
  exact {
    ordered := hahead ▸ h.ordered
    gapless := hahead ▸ h.gapless
    waits := List.forall_mem_append.2 ⟨(List.forall_mem_cons.1 h.waits).2, hprogress.waits⟩
    close := hahead ▸ h.close }

/-- A step is taken, and the next one of the same completion is queued at most. -/
theorem step {s : σ × List Turn} {turn : Turn} {callbacks : Callbacks S}
    {work : Prog S.scheduling Unit} (h : InTurn taken (turn.step callbacks work :: rest))
    {progress : Progress (Watched Turn S) (σ × List Turn)}
    (hprogress : Leaves s progress [turn.next]) :
    InTurn (taken ++ [turn]) (rest ++ progress.queued) := by
  have hordered : (taken ++ turn :: Turn.ahead rest).Pairwise Turn.Before := h.ordered
  have hclose : ∀ a ∈ turn :: Turn.ahead rest, ∀ b ∈ turn :: Turn.ahead rest, b.Before a.next :=
    h.close
  obtain ⟨_, hahead, htaken⟩ := List.pairwise_append.1 hordered
  have hturn : ∀ a ∈ Turn.ahead rest, turn.Before a := (List.pairwise_cons.1 hahead).1
  have hnew : ∀ a ∈ Turn.ahead progress.queued, a = turn.next := fun a ha =>
    List.mem_singleton.1 (hprogress.ahead.subset ha)
  have hlast : ∀ a ∈ taken ++ turn :: Turn.ahead rest, a.Before turn.next := by
    intro a ha
    rcases List.mem_append.1 ha with ha | ha
    · exact (htaken a ha turn List.mem_cons_self).trans turn.before_next
    · exact hclose turn List.mem_cons_self a ha
  exact {
    ordered := by
      rw [Turn.ahead_append, List.append_assoc, List.singleton_append, ← List.cons_append,
        ← List.append_assoc]
      refine List.pairwise_append.2 ⟨hordered, ?_, ?_⟩
      · exact (List.pairwise_singleton _ _).sublist hprogress.ahead
      · exact fun a ha b hb => hnew b hb ▸ hlast a ha
    gapless := by
      intro a ha
      have ha : a ∈ taken ++ turn :: Turn.ahead rest ∨ a ∈ Turn.ahead progress.queued := by
        simpa [or_assoc] using ha
      rcases ha with ha | ha
      · refine (h.gapless a ha).imp_right ?_
        rintro ⟨earlier, hearlier, rfl⟩
        exact ⟨earlier, List.mem_append_left _ hearlier, rfl⟩
      · exact .inr ⟨turn, List.mem_concat_self, (hnew a ha).symm⟩
    waits := List.forall_mem_append.2 ⟨(List.forall_mem_cons.1 h.waits).2, hprogress.waits⟩
    close := by
      intro a ha b hb
      rw [Turn.ahead_append] at ha hb
      rcases List.mem_append.1 ha with ha | ha <;> rcases List.mem_append.1 hb with hb | hb
      · exact hclose a (List.mem_cons_of_mem _ ha) b (List.mem_cons_of_mem _ hb)
      · exact hnew b hb ▸ (hturn a ha).next
      · exact (hclose turn List.mem_cons_self b (List.mem_cons_of_mem _ hb)).trans
          (hnew a ha ▸ turn.next.before_next)
      · exact hnew a ha ▸ hnew b hb ▸ turn.next.before_next }

/-- The first round stands in the queue as soon as the completions are spawned. -/
theorem spawned {s : σ × List Turn} {count : Nat} (others : List (Task S))
    {progress : Progress (Watched Turn S) (σ × List Turn)}
    (hprogress : Leaves s progress ((List.range' 0 count).map (Turn.mk 1))) :
    InTurn [] (others.map Task.own ++ progress.queued) := by
  have hothers : Turn.ahead (others.map Task.own) = [] := by
    induction others with
    | nil => rfl
    | cons task rest ih => rw [List.map_cons, Turn.ahead_own_cons, ih]
  have hahead : Turn.ahead (others.map Task.own ++ progress.queued) =
      Turn.ahead progress.queued := by
    rw [Turn.ahead_append, hothers, List.nil_append]
  have hround : ∀ a ∈ Turn.ahead progress.queued, a.round = 1 := by
    intro a ha
    obtain ⟨_, _, rfl⟩ := List.mem_map.1 (hprogress.ahead.subset ha)
    rfl
  have hordered : ((List.range' 0 count).map (Turn.mk 1)).Pairwise Turn.Before :=
    List.pairwise_map.2 ((List.pairwise_lt_range' 1).imp fun hlt => .inr ⟨rfl, hlt⟩)
  exact {
    ordered := by
      rw [List.nil_append, hahead]
      exact hordered.sublist hprogress.ahead
    gapless := by
      rw [List.nil_append, hahead]
      exact fun a ha => .inl (hround a ha)
    waits := by
      refine List.forall_mem_append.2 ⟨fun task htask => ?_, hprogress.waits⟩
      obtain ⟨other, _, rfl⟩ := List.mem_map.1 htask
      exact .own other
    close := by
      rw [hahead]
      intro a ha b hb
      exact .inl (by rw [hround b hb, Turn.next, hround a ha]; exact Nat.lt_succ_self 1) }

/-- One task keeps to the turns. -/
theorem run {front : Task (Watched Turn S)} (h : InTurn taken (front :: rest)) {log : List Turn}
    {s : σ × List Turn} (hlog : s.2 = log ++ taken) : ∃ taken',
      (front.run (Inline.worker host.logging) s).state.2 = log ++ taken' ∧
        InTurn taken' (rest ++ (front.run (Inline.worker host.logging) s).queued) := by
  cases h.waits front List.mem_cons_self with
  | own task =>
      have hprogress := Leaves.own host task s
      exact ⟨taken, hprogress.log.trans hlog, h.own hprogress⟩
  | step turn callbacks work =>
      have hprogress := Leaves.advance host callbacks turn.work work turn.round (s.1, s.2 ++ [turn])
      refine ⟨taken ++ [turn], ?_, h.step hprogress⟩
      rw [← List.append_assoc, ← hlog]
      exact hprogress.log

/-- A queue keeps to the turns to its end, also if a task fails. -/
theorem runFrom (taken : List Turn) (h : InTurn taken pending) {log : List Turn} {s : σ × List Turn}
    (hlog : s.2 = log ++ taken) : ∃ taken',
      (Queue.runFrom (Inline.worker host.logging) s pending).queue.state.2 = log ++ taken' ∧
        InTurn taken' (Queue.runFrom (Inline.worker host.logging) s pending).queue.pending := by
  fun_induction Queue.runFrom (Inline.worker host.logging) s pending generalizing taken with
  | case1 s => exact ⟨taken, hlog, h⟩
  | case2 s front rest progress e hfailure => exact h.run host hlog
  | case3 s front rest progress hfailure drained ih =>
      obtain ⟨taken', hlog', h'⟩ := h.run host hlog
      exact ih taken' h' hlog'

/-- A queue keeps to the turns from the moment at which its front task spawns the completions. -/
theorem drain (spawner : Spawner S) (others : List (Task S)) (s : σ × List Turn) :
    ∃ taken, (spawner.drain host others s).queue.state.2 = s.2 ++ taken ∧
      InTurn taken (spawner.drain host others s).queue.pending := by
  obtain ⟨count, hprogress⟩ := Leaves.spawner host spawner 0 s
  have hspawned := InTurn.spawned others hprogress
  have hlog := hprogress.log.trans (List.append_nil s.2).symm
  rw [Spawner.drain, Queue.runFrom]
  cases ((spawner.inTurns 0).run (Inline.worker host.logging) s).failure with
  | some e => exact ⟨[], hlog, hspawned⟩
  | none => exact hspawned.runFrom host [] hlog

end InTurn

example :
    let host : Host Signature.empty Unit := ⟨nofun⟩
    let work : Prog Signature.empty.scheduling Unit := .suspend (.suspend (.done ()))
    let spawner : Spawner Signature.empty := .spawn {} work (.spawn {} work .done)
    (spawner.drain host [] ((), [])).queue.state.2 = [⟨1, 0⟩, ⟨1, 1⟩, ⟨2, 0⟩, ⟨2, 1⟩] := by
  cbv

/-! ## The rule of the inline executor -/

namespace Inline

/--
A task that spawns completions has come to the front of the queue, and then the outermost call is
over.  The announcements have changed nothing, and the completions have taken turns; unless a task
has failed, nothing is left.
-/
structure TakesTurns (host : Host S σ) (spawner : Spawner S) (others : List (Task S))
    (m m' : Machine (Watched Turn S) (σ × List Turn)) (taken : List Turn) : Prop where
  steps : Steps host.logging m m'
  left : m'.Left (spawner.drain host others m.state).queue.state
    (spawner.drain host others m.state).failure
  plain : (spawner.drain host others m.state).unlogged =
    Queue.runFrom (worker host) m.state.1 (spawner.task :: others)
  log : m'.state.2 = m.state.2 ++ taken
  turns : RoundRobin taken (Turn.ahead (spawner.drain host others m.state).queue.pending)
  complete : (spawner.drain host others m.state).failure = none →
    (spawner.drain host others m.state).queue.pending = []

/-- Completions take turns that are spawned by the task at the front of the queue. -/
theorem exists_takesTurns {host : Host S σ} {m : Machine (Watched Turn S) (σ × List Turn)}
    (hm : Reached host.logging m) (hcontrol : m.control = .looking) {spawner : Spawner S}
    {others : List (Task S)}
    (hqueue : m.executor.queue.map Prod.snd = spawner.inTurns 0 :: others.map Task.own) :
    ∃ m' taken, TakesTurns host spawner others m m' taken := by
  obtain ⟨hdraining, hcallers⟩ := hm.sound.draining hcontrol
  obtain ⟨m', hsteps, hleft⟩ :=
    exists_steps_outside host.logging m m.state _ hcontrol hdraining hcallers rfl hqueue
  obtain ⟨taken, hlog, hturns⟩ := InTurn.drain host spawner others m.state
  exact ⟨m', taken, {
    steps := hsteps
    left := hleft
    plain := spawner.unlogged_drain host others m.state
    log := hleft.state ▸ hlog
    turns := hturns.toRoundRobin
    complete := Queue.pending_runFrom_eq_nil }⟩

/--
The rule of the inline executor, whatever its host does between calls.  It is orderly: tasks start
in the order in which they were scheduled and one at a time, the outermost call returns when
all of them are over, and a fault drops what is queued and escapes.  Every call comes to its end and
leaves the executor idle, and it ends as the task would on a fresh executor.  Completions that are
spawned by one task take turns.
-/
theorem runs_in_order (host : Host S σ) :
    (∀ m : Machine S σ, Reached host m → Orderly m) ∧
      (∀ (m : Machine S σ) (task : Task S), Reached host m → m.control = .outside →
        ∃ m', Steps host (m.schedule .host task) m' ∧
          m'.Left (run host (.schedule task fun _ => .done) m.state).1
            (run host (.schedule task fun _ => .done) m.state).2) ∧
      ∀ (m : Machine (Watched Turn S) (σ × List Turn)) (spawner : Spawner S)
        (others : List (Task S)), Reached host.logging m → m.control = .looking →
        m.executor.queue.map Prod.snd = spawner.inTurns 0 :: others.map Task.own →
        ∃ m' taken, TakesTurns host spawner others m m' taken :=
  ⟨fun _ hm => hm.orderly, fun _ task hm houtside => hm.exists_steps houtside task,
    fun _ _ _ hm hcontrol hqueue => exists_takesTurns hm hcontrol hqueue⟩

end Inline
end ApiGateway
