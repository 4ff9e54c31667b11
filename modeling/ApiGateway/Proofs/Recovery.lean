import ApiGateway.Proofs.Sequencing

/-!
# Recovery of deferred values

A recovered value is resumed as the value itself, as long as no step raises a fault.  A fault is
handed to the handler in the resumption in which it is raised, and from there on nothing is left
but what the handler has returned, which is guarded no further.  As in sequences, calls of the
handler show in a run once the handler announces itself.

Main definitions:

- `Deferred.recoverFrom`: what a guarded step leaves, in terms of the step.
- `Deferred.Recovered`: how a recovered value runs, in terms of the value and its replacement.

Main results:

- `Prog.start_rescue`: a guarded step is the step, with its fault handled.
- `Prog.start_recover`: programs are recovered from the first value on that they leave.
- `Prog.run_rescue`, `Prog.transcript_rescue`: a run of a guarded program.
- `Prog.reached_rescue_of_lt`, `Prog.reached_rescue_of_ok`, `Prog.reached_rescue_of_error`: every
  resumption of a guarded program belongs to the program or to the replacement.
- `Deferred.recover_replaces_failing_step`: the rule of recovery.
-/

namespace ApiGateway

variable {S : Signature} {C α σ : Type}

/-! ## Guarded programs -/

/-- What a guarded step leaves: what is still to be resumed stays guarded, a fault is handled. -/
def Deferred.recoverFrom (host : Host S σ) (handler : Fault → Prog S α) :
    Except Fault (Deferred S α) × σ → Except Fault (Deferred S α) × σ
  | (.ok d, s) => (.ok (d.recover handler), s)
  | (.error e, s) => (handler e).start host s

namespace Prog

variable (host : Host S σ) (p : Prog S α) (handler : Fault → Prog S α)

/-- A guarded step is the step, with its fault handled. -/
theorem start_rescue (s : σ) :
    (p.rescue handler).start host s = Deferred.recoverFrom host handler (p.start host s) := by
  induction p generalizing s with
  | done a => rfl
  | fault e => rfl
  | call op next ih => exact ih _ _
  | suspend rest ih => rfl

/-- What a recovered program leaves is the value it leaves, recovered; a fault before it stays. -/
theorem start_recover (s : σ) :
    (p.recover handler).start host s =
      ((p.start host s).1.map (·.recover handler), (p.start host s).2) := by
  induction p generalizing s with
  | done a => rfl
  | fault e => rfl
  | call op next ih => exact ih _ _
  | suspend rest ih => rfl

/-- A run of a guarded program goes on from a fault as the handler does. -/
theorem run_rescue (s : σ) :
    (p.rescue handler).run host s =
      (p.run host s).rescue fun e s' => (handler e).run host s' := by
  rw [rescue_eq_conclude, run_conclude]
  rcases p.run host s with ⟨outcome, resumptions, state⟩
  cases outcome <;> rfl

/-- The events of a guarded program are its own, and those of the replacement after a fault. -/
theorem transcript_rescue (s : σ) :
    (p.rescue handler).transcript host s =
      p.transcript host s ++
        match (p.run host s).outcome with
        | .ok _ => []
        | .error e => (handler e).transcript host (p.run host s).state := by
  rw [rescue_eq_conclude, transcript_conclude]
  cases (p.run host s).outcome <;> rfl

/-- Before its last step a guarded program is resumed as the program is. -/
theorem reached_rescue_of_lt {n : Nat} (s : σ) (hn : n < (p.run host s).resumptions) :
    ∃ rest s', p.reached host n s = (.ok (.waiting rest), s') ∧
      (p.rescue handler).reached host n s = (.ok (.waiting (rest.rescue handler)), s') := by
  simp only [rescue_eq_conclude]
  exact reached_conclude_of_lt host p (onFault handler) s hn

/-- The value of a guarded program arrives in the resumption in which that of the program does. -/
theorem reached_rescue_of_ok {a : α} (n : Nat) (s : σ)
    (hvalue : (p.run host s).outcome = .ok a) :
    (p.rescue handler).reached host ((p.run host s).resumptions + n) s =
      (.ok (.ready a), (p.run host s).state) := by
  rw [rescue_eq_conclude, reached_conclude, hvalue, onFault, reached_done]

/-- The replacement starts in the resumption in which the fault is raised. -/
theorem reached_rescue_of_error {e : Fault} (n : Nat) (s : σ)
    (hfault : (p.run host s).outcome = .error e) :
    (p.rescue handler).reached host ((p.run host s).resumptions + n) s =
      (handler e).reached host n (p.run host s).state := by
  rw [rescue_eq_conclude, reached_conclude, hfault, onFault]

/-- A fault that is raised at once stays. -/
theorem reached_of_start_eq_error {s s' : σ} {e : Fault}
    (h : p.start host s = (.error e, s')) (n : Nat) : p.reached host n s = (.error e, s') := by
  cases n with
  | zero => exact h
  | succ n => rw [reached, h]

end Prog

/-! ## The rule of recovery -/

namespace Deferred

/-- No step has raised a fault.  The handler makes no difference, and it is not called. -/
structure Unharmed (host : Host S σ) (d : Deferred S α) (handler : Fault → Prog S α) (s : σ)
    (a : α) : Prop where
  reached : ∀ n, (d.recover handler).toProg.reached host ((d.toProg.run host s).resumptions + n) s =
    (.ok (.ready a), (d.toProg.run host s).state)
  run : (d.recover handler).toProg.run host s = d.toProg.run host s
  events : (d.recover handler).toProg.transcript host s = d.toProg.transcript host s
  uncalled : (d.watch.recover (Prog.announcing handler)).toProg.transcript host.watched s =
    (d.toProg.transcript host s).map Event.own

/--
A resumed step has raised a fault.  The handler is called with it once, in that resumption, and all
that follows is the run of what the handler returns; a fault of the handler itself escapes there.
-/
structure Replaced (host : Host S σ) (d : Deferred S α) (handler : Fault → Prog S α) (s : σ)
    (e : Fault) : Prop where
  resumed : 0 < (d.toProg.run host s).resumptions
  raised : d.toProg.reached host (d.toProg.run host s).resumptions s =
    (.error e, (d.toProg.run host s).state)
  reached : ∀ n, (d.recover handler).toProg.reached host ((d.toProg.run host s).resumptions + n) s =
    (handler e).reached host n (d.toProg.run host s).state
  escaped : ∀ e' s', (handler e).start host (d.toProg.run host s).state = (.error e', s') →
    ∀ n, (d.recover handler).toProg.reached host ((d.toProg.run host s).resumptions + n) s =
      (.error e', s')
  outcome : ((d.recover handler).toProg.run host s).outcome =
    ((handler e).run host (d.toProg.run host s).state).outcome
  resumptions : ((d.recover handler).toProg.run host s).resumptions =
    (d.toProg.run host s).resumptions +
      ((handler e).run host (d.toProg.run host s).state).resumptions
  state : ((d.recover handler).toProg.run host s).state =
    ((handler e).run host (d.toProg.run host s).state).state
  events : (d.recover handler).toProg.transcript host s =
    d.toProg.transcript host s ++ (handler e).transcript host (d.toProg.run host s).state
  called : (d.watch.recover (Prog.announcing handler)).toProg.transcript host.watched s =
    (d.toProg.transcript host s).map Event.own ++
      Event.announced e :: ((handler e).transcript host (d.toProg.run host s).state).map Event.own

/-- How a recovered value runs, in terms of the value and its replacement. -/
structure Recovered (host : Host S σ) (d : Deferred S α) (handler : Fault → Prog S α) (s : σ) :
    Prop where
  waiting : ∀ n < (d.toProg.run host s).resumptions, ∃ rest s',
    d.toProg.reached host n s = (.ok (.waiting rest), s') ∧
      (d.recover handler).toProg.reached host n s = (.ok (.waiting (rest.rescue handler)), s')
  unharmed : ∀ a, (d.toProg.run host s).outcome = .ok a → d.Unharmed host handler s a
  replaced : ∀ e, (d.toProg.run host s).outcome = .error e → d.Replaced host handler s e

variable {host : Host S σ} {s : σ}

/-- Nothing of a deferred value can fail but its steps, so all of it may be guarded. -/
theorem toProg_recover_eq_rescue (d : Deferred S α) (handler : Fault → Prog S α) :
    (d.recover handler).toProg = d.toProg.rescue handler := by
  cases d <;> rfl

/-- A deferred value raises faults in resumptions only. -/
theorem resumptions_pos_of_error {d : Deferred S α} {e : Fault}
    (h : (d.toProg.run host s).outcome = .error e) : 0 < (d.toProg.run host s).resumptions := by
  cases d with
  | ready a => cases h
  | waiting rest => exact Nat.succ_pos _

/-- The handler is called with the fault that the value has raised, and nowhere else. -/
theorem transcript_watch_recover (d : Deferred S α) (handler : Fault → Prog S α) (s : σ) :
    (d.watch.recover (Prog.announcing handler)).toProg.transcript host.watched s =
      (d.toProg.transcript host s).map Event.own ++
        match (d.toProg.run host s).outcome with
        | .ok _ => []
        | .error e => Event.announced e ::
            ((handler e).transcript host (d.toProg.run host s).state).map Event.own := by
  rw [toProg_recover_eq_rescue, toProg_watch, Prog.transcript_rescue, Prog.run_embed_own,
    Prog.transcript_embed_own]
  congr 1
  cases (d.toProg.run host s).outcome with
  | ok a => rfl
  | error e => exact congrArg (List.cons _) (Prog.transcript_embed_own host (handler e) _)

/-- A value without faults is not changed by recovery. -/
theorem unharmed_of_ok {d : Deferred S α} (handler : Fault → Prog S α) {a : α}
    (h : (d.toProg.run host s).outcome = .ok a) : d.Unharmed host handler s a where
  reached n := by
    rw [toProg_recover_eq_rescue]
    exact Prog.reached_rescue_of_ok host d.toProg handler n s h
  run := by rw [toProg_recover_eq_rescue, Prog.run_rescue, Ending.rescue, h]
  events := by rw [toProg_recover_eq_rescue, Prog.transcript_rescue, h, List.append_nil]
  uncalled := by rw [transcript_watch_recover, h, List.append_nil]

/-- A value whose step raises a fault is replaced. -/
theorem replaced_of_error {d : Deferred S α} (handler : Fault → Prog S α) {e : Fault}
    (h : (d.toProg.run host s).outcome = .error e) : d.Replaced host handler s e := by
  have hreached (n : Nat) : (d.recover handler).toProg.reached host
      ((d.toProg.run host s).resumptions + n) s =
        (handler e).reached host n (d.toProg.run host s).state := by
    rw [toProg_recover_eq_rescue]
    exact Prog.reached_rescue_of_error host d.toProg handler n s h
  have hrun : (d.recover handler).toProg.run host s =
      { (handler e).run host (d.toProg.run host s).state with
        resumptions := (d.toProg.run host s).resumptions +
          ((handler e).run host (d.toProg.run host s).state).resumptions } := by
    rw [toProg_recover_eq_rescue, Prog.run_rescue, Ending.rescue, h]
  exact {
    resumed := resumptions_pos_of_error h
    raised := (stopped_of_error (fun a => .done a) h).raised
    reached := hreached
    escaped := fun e' s' hstart n => by
      rw [hreached]
      exact Prog.reached_of_start_eq_error host (handler e) hstart n
    outcome := by rw [hrun]
    resumptions := by rw [hrun]
    state := by rw [hrun]
    events := by rw [toProg_recover_eq_rescue, Prog.transcript_rescue, h]
    called := by rw [transcript_watch_recover, h] }

/--
The rule of recovery.  A recovered value is resumed as the value itself until that is ready or one
of its steps raises a fault, and then it goes on as the replacement.  A ready value stays as it is,
and resuming guards again what a step has left, or handles its fault.
-/
theorem recover_replaces_failing_step (host : Host S σ) (d : Deferred S α)
    (handler : Fault → Prog S α) (s : σ) :
    d.Recovered host handler s ∧ (∀ a, (ready a).recover handler = ready a) ∧
      ∀ rest, ((waiting rest).recover handler).resume? = .ok (rest.rescue handler) ∧
        ∀ s', (rest.rescue handler).start host s' =
          recoverFrom host handler (rest.start host s') := by
  refine ⟨{ waiting := ?waiting, unharmed := ?unharmed, replaced := ?replaced }, fun _ => rfl,
    fun rest => ⟨rfl, fun s' => rest.start_rescue host handler s'⟩⟩
  case waiting =>
    intro n hn
    rw [toProg_recover_eq_rescue]
    exact Prog.reached_rescue_of_lt host d.toProg handler s hn
  case unharmed => exact fun a h => unharmed_of_ok handler h
  case replaced => exact fun e h => replaced_of_error handler h

end Deferred
end ApiGateway
