import Mathlib.Data.Fintype.Order
import ApiGateway.Proofs.SpawnedMoves

/-!
# Spawned work on any executor

The story of spawned work never leaves the program of the work, and it has one end.  If every
task of the work is accepted and goes on, then each move leaves less to do until a callback
has been called.

Main definitions:

- `Work.Orderly`: the steps of a story are in order, and its end is its only end.
- `Run.LetsGoOn`: each task of the work goes on in the end.

Main results:

- `Run.sound`: every execution stays sound.
- `Run.spawned_work_ends_once`: steps in order and once, at most one outcome, and exactly one if
  the executor lets the work go on.
-/

namespace ApiGateway

variable {S : Signature}

/-! ## Stories -/

/--
The steps of a story follow the program of the work, each of them once; a callback or a refused
task is its last incident; a callback is called once the work is ready, or for the fault that a
step has raised.
-/
structure Work.Orderly (w : Work S) (story : List (Incident S)) : Prop where
  inOrder : ∃ rest, w.completion.toProg.Reaches (story.filterMap Incident.event?) rest
  atMostOnce : story.countP Incident.isCallback ≤ 1
  last : ∀ before incident after, story = before ++ incident :: after →
    incident.isCallback ∨ incident = .rejected → after = []
  finished : ∀ before after, story = before ++ .noted .finished :: after →
    w.completion.toProg.Reaches (before.filterMap Incident.event?) (.done ())
  failed : ∀ before e after, story = before ++ .noted (.failed e) :: after →
    w.completion.toProg.Reaches (before.filterMap Incident.event?) (.fault e)

namespace Work.Phase

/-- Stories that lead from the start of the work to some phase are orderly. -/
theorem Leads.orderly {w : Work S} {story : List (Incident S)} {phase : Phase S}
    (h : Leads (.stepping w.completion.toProg) story phase) : w.Orderly story := by
  have hsplit {before after : List (Incident S)} {incident : Incident S}
      (heq : story = before ++ incident :: after) : ∃ middle next,
        Leads (.stepping w.completion.toProg) before middle ∧ middle.Next incident next ∧
          Leads next after phase := by
    rcases leads_append_iff.1 (heq ▸ h) with ⟨middle, hbefore, hafter⟩
    cases hafter with
    | next hnext hafter => exact ⟨middle, _, hbefore, hnext, hafter⟩
  have hreaches {before : List (Incident S)} {middle : Phase S} {q : Prog S Unit}
      (hbefore : Leads (.stepping w.completion.toProg) before middle)
      (hq : middle.program? = some q) :
      w.completion.toProg.Reaches (before.filterMap Incident.event?) q := by
    rcases hbefore.reaches rfl with ⟨rest, hrest, hlast⟩
    exact hlast q hq ▸ hrest
  refine ⟨?inOrder, h.countP_isCallback_le, ?last, ?finished, ?failed⟩
  case inOrder =>
    rcases h.reaches rfl with ⟨rest, hrest, -⟩
    exact ⟨rest, hrest⟩
  case last =>
    intro before incident after heq hends
    rcases hsplit heq with ⟨middle, next, -, hnext, hafter⟩
    cases hnext with
    | rejected | finished | failed => exact hafter.eq_nil_of_ended.1
    | performed | accepted | resumed | ready | raised =>
        rcases hends with hcallback | hrejected
        · cases hcallback
        · cases hrejected
  case finished =>
    intro before after heq
    rcases hsplit heq with ⟨middle, next, hbefore, hnext, -⟩
    cases hnext
    exact hreaches hbefore rfl
  case failed =>
    intro before e after heq
    rcases hsplit heq with ⟨middle, next, hbefore, hnext, -⟩
    cases hnext
    exact hreaches hbefore rfl

/-- With both callbacks given, only work that is over has no task of its own. -/
theorem ended_of_number?_ne {i : Nat} {w : Work S} {phase : Phase S}
    (honDone : w.callbacks.onDone.isSome) (honFailure : w.callbacks.onFailure.isSome)
    (h : (phase.task i w).number? ≠ some i) : ∃ others, phase = .ended others := by
  cases phase with
  | stepping p =>
      cases p with
      | done | fault | call | suspend => exact absurd rfl h
  | waiting rest => exact absurd rfl h
  | succeeded =>
      rcases Option.isSome_iff_exists.1 honDone with ⟨callback, hcallback⟩
      simp only [task, Callbacks.finish, Callbacks.noted, hcallback] at h
      exact absurd rfl h
  | raised e =>
      rcases Option.isSome_iff_exists.1 honFailure with ⟨callback, hcallback⟩
      simp only [task, Callbacks.fail, Callbacks.noted, hcallback] at h
      exact absurd rfl h
  | ended others => exact ⟨others, rfl⟩

end Work.Phase

/-! ## Runs -/

namespace Run

open Execution

variable (r : Run S)

/-- Every execution stays sound. -/
theorem sound (n : Nat) : (r.state n).Sound := by
  induction n with
  | zero =>
      rw [r.start]
      exact sound_empty
  | succ n ih => exact ih.move (r.moves n)

/-- Each task of the work that has been accepted or begun goes on in the end. -/
def LetsGoOn (i : Nat) : Prop :=
  ∀ n, (∃ t ∈ (r.state n).running ++ (r.state n).pending, t.number? = some i) →
    ∃ m ≥ n, r.mover m = some i

variable {r} {i : Nat} {w : Work S}

/-- Work keeps its phase until its task moves. -/
theorem next_advance {n m : Nat} {phase : Work.Phase S} {outstanding : Bool}
    (hw : (r.state n).works[i]? = some w) (h : (r.state n).Stands i w phase outstanding)
    (hle : n ≤ m) (hmover : r.mover m = some i) :
    ∃ k, (r.state (k + 1)).works[i]? = some w ∧
      (r.state (k + 1)).Advances i w phase outstanding := by
  obtain ⟨distance, rfl⟩ := Nat.exists_eq_add_of_le hle
  induction distance generalizing n with
  | zero =>
      rcases stands_move (r.sound n).known (r.moves n) hw h with ⟨hne, -⟩ | ⟨-, hadvances⟩
      · exact absurd hmover hne
      · exact ⟨n, getElem?_works_move (r.moves n) hw, hadvances⟩
  | succ distance ih =>
      have hw' := getElem?_works_move (r.moves n) hw
      rcases stands_move (r.sound n).known (r.moves n) hw h with ⟨-, hstays⟩ | ⟨-, hadvances⟩
      · exact ih hw' hstays (Nat.le_add_right _ _) (by rwa [Nat.add_right_comm])
      · exact ⟨n, hw', hadvances⟩

/-- Work that is over stays over, with the same story. -/
theorem stands_ended {n : Nat} {others : Task S} {outstanding : Bool}
    (hw : (r.state n).works[i]? = some w) (h : (r.state n).Stands i w (.ended others) outstanding)
    {m : Nat} (hle : n ≤ m) : (r.state m).Stands i w (.ended others) outstanding := by
  obtain ⟨distance, rfl⟩ := Nat.exists_eq_add_of_le hle
  induction distance generalizing n with
  | zero => exact h
  | succ distance ih =>
      rcases stands_move (r.sound n).known (r.moves n) hw h with ⟨-, hstays⟩ | ⟨-, hmine, -⟩
      · rw [← Nat.succ_add_eq_add_succ]
        exact ih (getElem?_works_move (r.moves n) hw) hstays (Nat.le_add_right _ _)
      · exact absurd (hmine.symm.trans (Task.number?_other others)) nofun

/-- Work with both callbacks is over in the end, if none of its tasks is turned away. -/
theorem ends (honDone : w.callbacks.onDone.isSome) (honFailure : w.callbacks.onFailure.isSome)
    (haccepted : ∀ n, .rejected ∉ (r.state n).story i) (hgoes : r.LetsGoOn i) {n : Nat}
    {phase : Work.Phase S} {outstanding : Bool} (hw : (r.state n).works[i]? = some w)
    (h : (r.state n).Stands i w phase outstanding) : ∃ m others now,
      (r.state m).works[i]? = some w ∧ (r.state m).Stands i w (.ended others) now := by
  -- each move of the task leaves less of it, or begins it
  have hwf : WellFounded (Less (S := S)) :=
    WellFounded.prod_lex Task.part_wellFounded wellFounded_lt
  generalize hleft : (phase.task i w, outstanding) = left
  induction left using hwf.induction generalizing n phase outstanding with
  | _ left ih =>
      subst hleft
      by_cases hnumber : (phase.task i w).number? = some i
      · rcases hgoes n ⟨_, h.mem hnumber, hnumber⟩ with ⟨m, hle, hmover⟩
        rcases next_advance hw h hle hmover with ⟨k, hw', -, next, now, hnext, hless⟩
        exact ih _ (hless.resolve_left (haccepted _)) hw' hnext rfl
      · rcases Work.Phase.ended_of_number?_ne honDone honFailure hnumber with ⟨others, rfl⟩
        exact ⟨n, others, outstanding, hw, h⟩

/--
Spawned work on any executor.  Without its notes it is the script that spawns it.  Its story is
orderly, at most one task belongs to it, and if it has both callbacks, none of its tasks is turned
away and each of them goes on, then in the end exactly one callback has been called.
-/
theorem spawned_work_ends_once (r : Run S) {n i : Nat} {w : Work S}
    (hw : (r.state n).works[i]? = some w) :
    (w.script i).unnoted = spawnProg w.callbacks w.completion.toProg ∧
      w.Orderly ((r.state n).story i) ∧
      (Task.numbered i ((r.state n).running ++ (r.state n).pending)).length ≤ 1 ∧
      (w.callbacks.onDone.isSome → w.callbacks.onFailure.isSome →
        (∀ m, .rejected ∉ (r.state m).story i) → r.LetsGoOn i →
          ∃ last, ∀ m ≥ last, ((r.state m).story i).countP Incident.isCallback = 1) := by
  rcases (r.sound n).stands i w hw with ⟨phase, outstanding, h⟩
  refine ⟨w.unnoted_script i, h.told.orderly, h.length_numbered_le, ?_⟩
  intro honDone honFailure haccepted hgoes
  rcases ends honDone honFailure haccepted hgoes hw h with ⟨last, others, now, hw', hover⟩
  refine ⟨last, fun m hle => ?_⟩
  exact ((stands_ended hw' hover hle).told.ending rfl rfl).resolve_left (haccepted m)

/-! ### An execution of one piece of work -/

/-- Work with a single step and with callbacks that do nothing. -/
def oneStep : Work Signature.empty where
  completion := .waiting (.done ())
  callbacks := { onDone := some .done, onFailure := some fun _ => .done }

/-- What has happened to the work, of which some incidents have not happened yet. -/
def oneStepHistory (count : Nat) : List (Nat × Incident Signature.empty) :=
  ([.accepted, .noted .resumed, .noted .ready, .noted .finished].take count).map (0, ·)

/-- The work while its task is in a phase, under way beside the code that has spawned it. -/
def oneStepAt (phase : Work.Phase Signature.empty) (count : Nat) : Execution Signature.empty where
  works := [oneStep]
  running := [phase.task 0 oneStep, .done]
  history := oneStepHistory count

/-- The work is spawned, accepted, begun and brought to its end. -/
def oneStepRun : Run Signature.empty where
  state
    | 0 => {}
    | 1 => { works := [oneStep], running := [oneStep.script 0] }
    | 2 => { oneStepAt (.ended .done) 1 with
        running := [.done]
        pending := [Work.Phase.task 0 oneStep (.waiting (.done ()))] }
    | 3 => oneStepAt (.waiting (.done ())) 1
    | 4 => oneStepAt (.stepping (.done ())) 2
    | 5 => oneStepAt .succeeded 3
    | _ => oneStepAt (.ended .done) 4
  mover n := if n = 0 ∨ 6 ≤ n then none else some 0
  start := rfl
  moves
    | 0 => .spawn {} oneStep
    | 1 => @Execution.Move.go _ _ [] [] _ _ _ _ rfl
      (.accept (Work.Phase.task 0 oneStep (.waiting (.done ()))) (fun _ => .done) none)
    | 2 => @Execution.Move.begin _ _ [] []
      (Work.Phase.task 0 oneStep (.waiting (.done ()))) rfl
    | 3 => @Execution.Move.go _ _ [] [.done] _ _ _ _ rfl
      (.note 0 .resumed fun _ => oneStep.step 0 (.done ()))
    | 4 => @Execution.Move.go _ _ [] [.done] _ _ _ _ rfl
      (.note 0 .ready fun _ => Work.Phase.task 0 oneStep .succeeded)
    | 5 => @Execution.Move.go _ _ [] [.done] _ _ _ _ rfl
      (.note 0 .finished fun _ => .done)
    | n + 6 => by
      have hover : 6 ≤ n + 6 := Nat.le_add_left 6 n
      rw [if_pos (.inr hover)]
      exact .idle _

/-- At any time a part of the history has happened. -/
theorem oneStepRun_history (n : Nat) :
    ∃ count, (oneStepRun.state n).history = oneStepHistory count :=
  match n with
  | 0 => ⟨0, rfl⟩
  | 1 => ⟨0, rfl⟩
  | 2 => ⟨1, rfl⟩
  | 3 => ⟨1, rfl⟩
  | 4 => ⟨2, rfl⟩
  | 5 => ⟨3, rfl⟩
  | _ + 6 => ⟨4, rfl⟩

/-- The executor turns nothing away. -/
theorem oneStepRun_accepts (n : Nat) : .rejected ∉ (oneStepRun.state n).story 0 := by
  rcases oneStepRun_history n with ⟨count, hcount⟩
  intro h
  rw [story, hcount, oneStepHistory, List.filterMap_map] at h
  rcases List.mem_filterMap.1 h with ⟨incident, hincident, heq⟩
  cases Option.some.inj (heq : some incident = some .rejected)
  exact absurd (List.mem_of_mem_take hincident) (by simp)

/-- The executor lets the work go on. -/
theorem oneStepRun_letsGoOn : oneStepRun.LetsGoOn 0 := by
  intro n hn
  rcases Nat.lt_or_ge n 6 with hlt | hge
  · exact ⟨5, Nat.le_of_lt_succ hlt, rfl⟩
  · obtain ⟨later, rfl⟩ := Nat.exists_eq_add_of_le' hge
    rcases hn with ⟨t, ht, hnumber⟩
    have hdone : t = .done := by simpa [oneStepRun, oneStepAt, Work.Phase.task, Task.other] using ht
    rw [hdone] at hnumber
    cases hnumber

/-- In that execution a callback is called in the end. -/
theorem oneStep_ends_once : (oneStepRun.state 1).works[0]? = some oneStep ∧
    ∃ last, ∀ m ≥ last, ((oneStepRun.state m).story 0).countP Incident.isCallback = 1 := by
  have hw : (oneStepRun.state 1).works[0]? = some oneStep := rfl
  rcases spawned_work_ends_once oneStepRun hw with ⟨-, -, -, hends⟩
  exact ⟨hw, hends rfl rfl oneStepRun_accepts oneStepRun_letsGoOn⟩

end Run
end ApiGateway
