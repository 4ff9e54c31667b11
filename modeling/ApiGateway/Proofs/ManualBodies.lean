import ApiGateway.Proofs.ReceivedBodies
import ApiGateway.Routing.RouteTable

/-!
# Bodies in manual routes

The handler of a manual route may ask for the body again and again, and go on after a call that
has failed.  A text is kept once it has been read: from then on every call yields it, and nothing
more is received.  A call that fails keeps nothing, also not the chunks that it has received, so
the next call begins with the chunk behind the fault.

Main definitions:

- `RouteContext.host`: the host of a route handler, which keeps the body.
- `RouteContext.bodies`: what the calls of the body have yielded in a run.
- `Connection.Attempts`: calls that fail, and then calls that yield one text.

Main results:

- `RouteContext.run_serve`: a route handler in an exchange runs on that host.
- `RouteContext.body_attempts`: what a handler is given when it asks for the body.
-/

namespace ApiGateway

variable {E : Signature} {α σ : Type}

/-! ## Attempts to read a body -/

/--
What calls of the body yield, one after another, and the connection that they leave.  Each failing
call gives up the chunks that it has received.  Behind the first call that succeeds nothing is read
any more.
-/
inductive Connection.Attempts : Connection → List (Except Fault Bytes) → Connection → Prop where
  | none (c : Connection) : Attempts c [] c
  | failed {c middle rest : Connection} {e : Fault} {answers : List (Except Fault Bytes)}
      (h : c.Reads (.error e) middle) (hmore : Attempts middle answers rest) :
      Attempts c (.error e :: answers) rest
  | read {c rest : Connection} {text : Bytes} (again : Nat) (h : c.Reads (.ok text) rest) :
      Attempts c (List.replicate (again + 1) (.ok text)) rest

namespace RouteContext

/-! ## The host of a route handler -/

/-- The host of a route handler: the body that is kept, the connection and the journal. -/
def host (handlers : Host E σ) : Host (RouteEffects E) (Option Bytes × Connection × Journal σ) where
  answer
    | .body, (some text, c, j) => (.ok text, some text, c, j)
    | .body, (none, c, j) =>
      (c.receiveBody.1, c.receiveBody.1.toOption, c.receiveBody.2, j)
    | .effect op, (kept, c, j) =>
      ((handlers.answer op j.state).1, kept, c, { j with state := (handlers.answer op j.state).2 })

/-- A route handler in an exchange runs as it does on its own host. -/
theorem run_serve (handlers : Host E σ) (p : Prog (RouteEffects E) α) (kept : Option Bytes)
    (c : Connection) (j : Journal σ) :
    (serve kept p).run (Connection.host handlers) (c, j) =
      { p.run (host handlers) (kept, c, j) with
        state := (p.run (host handlers) (kept, c, j)).state.2 } := by
  induction p generalizing kept c j with
  | done a => rfl
  | fault e => rfl
  | call op next ih =>
      cases op with
      | body =>
          cases kept with
          | some text => exact ih (.ok text) (some text) c j
          | none => exact ih c.receiveBody.1 c.receiveBody.1.toOption c.receiveBody.2 j
      | effect op =>
          exact ih (handlers.answer op j.state).1 kept c
            { j with state := (handlers.answer op j.state).2 }
  | suspend rest ih => rw [serve, Prog.run_suspend, ih, Prog.run_suspend]

/-! ## What the calls of the body yield -/

/-- What a call of the body has yielded. -/
def bodyOf? : Event (RouteEffects E) → Option (Except Fault Bytes)
  | .call .body answer => some answer
  | .call (.effect _) _ => none
  | .resumed => none

/-- What the calls of the body have yielded, one after another. -/
def bodies (events : List (Event (RouteEffects E))) : List (Except Fault Bytes) :=
  events.filterMap bodyOf?

/-- A text that is kept is what every call yields, and nothing is received for it. -/
theorem bodies_of_kept (handlers : Host E σ) (p : Prog (RouteEffects E) α) (text : Bytes)
    (c : Connection) (j : Journal σ) :
    (∃ n, bodies (p.transcript (host handlers) (some text, c, j)) = List.replicate n (.ok text)) ∧
      (p.run (host handlers) (some text, c, j)).state.2.1 = c := by
  induction p generalizing j with
  | done a => exact ⟨⟨0, rfl⟩, rfl⟩
  | fault e => exact ⟨⟨0, rfl⟩, rfl⟩
  | call op next ih =>
      cases op with
      | body =>
          obtain ⟨⟨n, hbodies⟩, hstate⟩ := ih (.ok text) j
          exact ⟨⟨n + 1, congrArg (List.cons _) hbodies⟩, hstate⟩
      | effect op => exact ih _ _
  | suspend rest ih => exact ih j

section Received

variable (handlers : Host E σ) (next : (RouteEffects E).Ans RouteOp.body → Prog (RouteEffects E) α)
  (c : Connection) (j : Journal σ)

/-- As long as no text is kept, a call of the body yields what is received for it. -/
theorem bodies_call_body :
    bodies (Prog.transcript (host handlers) (.call .body next) (none, c, j)) =
      c.receiveBody.1 :: bodies ((next c.receiveBody.1).transcript (host handlers)
        (c.receiveBody.1.toOption, c.receiveBody.2, j)) :=
  rfl

/-- The handler goes on with it, and keeps a text. -/
theorem run_call_body :
    Prog.run (host handlers) (.call .body next) (none, c, j) =
      (next c.receiveBody.1).run (host handlers)
        (c.receiveBody.1.toOption, c.receiveBody.2, j) :=
  rfl

end Received

/--
What a handler is given when it asks for the body, however often and whatever else it does: faults,
one for each call that has failed, and then one and the same text.  The text is put together from
what has been received since the last fault, and once it is there nothing more is received.
-/
theorem body_attempts (handlers : Host E σ) (p : Prog (RouteEffects E) α) (c : Connection)
    (j : Journal σ) :
    c.Attempts (bodies (p.transcript (host handlers) (none, c, j)))
      ((serve none p).run (Connection.host handlers) (c, j)).state.1 := by
  rw [run_serve]
  induction p generalizing c j with
  | done a => exact .none c
  | fault e => exact .none c
  | call op next ih =>
      cases op with
      | effect op => exact ih _ c _
      | body =>
          rw [bodies_call_body, run_call_body]
          have hreads := c.reads_receiveBody
          generalize c.receiveBody.1 = answer, c.receiveBody.2 = behind at hreads ⊢
          cases answer with
          | error e => exact .failed hreads (ih (.error e) behind j)
          | ok text =>
              change c.Attempts (.ok text :: bodies
                  ((next (.ok text)).transcript (host handlers) (some text, behind, j)))
                ((next (.ok text)).run (host handlers) (some text, behind, j)).state.2.1
              obtain ⟨⟨again, hbodies⟩, hstate⟩ :=
                bodies_of_kept handlers (next (.ok text)) text behind j
              rw [hbodies, hstate, ← List.replicate_succ]
              exact .read again hreads
  | suspend rest ih => exact ih c j

end RouteContext

/-! ## A sample -/

namespace Sample

/-- A handler that asks for the body once more if it could not be read. -/
def askingAgain : Prog (RouteEffects Signature.empty) Bytes :=
  .call .body fun (first : Except Fault Bytes) =>
    match first with
    | .ok text => .done text
    | .error _ => RouteContext.body

/-- A connection that fails once between the chunks `a` and `b` of a body. -/
def interrupted : Connection where
  source := some [.ok ⟨[97], true⟩, .error (.runtime []), .ok ⟨[98], false⟩]
  scope := { request := {} }

/-- Chunks `a` and `b` have been delivered, but the call that succeeds yields `b`. -/
theorem interrupted_body_is_not_whole :
    Body.Delivers [.ok ⟨[97], true⟩, .error (.runtime []), .ok ⟨[98], false⟩]
        [.ok ⟨[97], true⟩, .error (.runtime []), .ok ⟨[98], false⟩] [] ∧
      RouteContext.bodies (askingAgain.transcript
          (RouteContext.host ⟨fun op => Empty.elim op⟩) (none, interrupted, { state := () })) =
        [.error (.runtime []), .ok [98]] ∧
      (RouteContext.serve none askingAgain).run (Connection.host ⟨fun op => Empty.elim op⟩)
          (interrupted, { state := () }) =
        ⟨.ok [98], 0, ({ interrupted with source := some [], receives := 3 }, { state := () })⟩ ∧
      [98] ≠ [97] ++ [98] :=
  ⟨.cons (.cons (.cons (.nil []))), rfl, rfl, by decide⟩

end Sample
end ApiGateway
