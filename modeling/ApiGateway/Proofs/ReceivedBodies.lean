import ApiGateway.Exchange.Connection
import ApiGateway.Proofs.Transcript

/-!
# Received bodies

A body is read by calling its source again and again.  The reading stops with the first call that
delivers a last chunk or fails; what has been delivered up to there is put together, and the calls
to come stay as they are.

Main definitions:

- `Body.receive`, `Body.Delivers`: one call of a source, and calls one after another.
- `Body.deliveries`: what is delivered until a reading stops.
- `Connection.Reads`: how a connection reads a body.

Main results:

- `Body.exists_delivers_readAll`: what a reading finds, leaves and costs.
- `Connection.reads_receiveBody`: connections read bodies in this way.
-/

namespace ApiGateway

/-! ## Calls of a source -/

namespace Body

/-- What a call of a source delivers, and what is left for later calls. -/
def receive : Source → Except Fault Chunk × Source
  | [] => (.ok ⟨[], false⟩, [])
  | delivery :: rest => (delivery, rest)

/-- Calls one after another deliver these, and leave a source for later calls. -/
inductive Delivers : Source → List (Except Fault Chunk) → Source → Prop where
  | nil (source : Source) : Delivers source [] source
  | cons {source : Source} {more : List (Except Fault Chunk)} {rest : Source}
      (h : Delivers (receive source).2 more rest) :
      Delivers source ((receive source).1 :: more) rest

/-- Chunks after which more is to come, then a last chunk or a fault. -/
def deliveries (chunks : List Bytes) (last : Except Fault Bytes) : List (Except Fault Chunk) :=
  chunks.map (fun data => .ok ⟨data, true⟩) ++ [last.map fun data => ⟨data, false⟩]

/-- A single call delivers what the source has in front. -/
theorem delivers_receive (source : Source) :
    Delivers source [(receive source).1] (receive source).2 :=
  .cons (.nil _)

/--
A reading calls the source up to the first last chunk or fault, once for every delivery.  It finds
the chunks put together, or the fault.
-/
theorem exists_delivers_readAll (source : Source) : ∃ chunks last,
    Delivers source (deliveries chunks last) (readAll source).rest ∧
      (readAll source).outcome = last.map (chunks.flatten ++ ·) ∧
      (readAll source).calls = (deliveries chunks last).length := by
  induction source with
  | nil => exact ⟨[], .ok [], delivers_receive [], rfl, rfl⟩
  | cons delivery rest ih =>
      cases delivery with
      | error e => exact ⟨[], .error e, delivers_receive (.error e :: rest), rfl, rfl⟩
      | ok chunk =>
          rcases chunk with ⟨data, more⟩
          cases more with
          | false => exact ⟨[], .ok data, delivers_receive (.ok ⟨data, false⟩ :: rest), rfl, rfl⟩
          | true =>
              rcases ih with ⟨chunks, last, hdelivers, houtcome, hcalls⟩
              refine ⟨data :: chunks, last, ?_, ?_, ?_⟩
              · exact @Delivers.cons (.ok ⟨data, true⟩ :: rest) _ _ hdelivers
              · change (readAll rest).outcome.map (data ++ ·) = _
                rw [houtcome]
                cases last with
                | error e => rfl
                | ok text => simp [Except.map]
              · change (readAll rest).calls + 1 = _
                rw [hcalls]
                rfl

end Body

/-! ## Readings of a connection -/

namespace Connection

/--
A body that cannot be received is empty, and nobody is called for it.  Any other is what its source
delivers, up to the first last chunk or fault.
-/
inductive Reads : Connection → Except Fault Bytes → Connection → Prop where
  | unreceivable {c : Connection} (h : c.source = none) : Reads c (.ok []) c
  | received {c : Connection} {source rest : Body.Source} {chunks : List Bytes}
      {last : Except Fault Bytes} (h : c.source = some source)
      (hdelivers : Body.Delivers source (Body.deliveries chunks last) rest) :
      Reads c (last.map (chunks.flatten ++ ·))
        { c with
          source := some rest
          receives := c.receives + (Body.deliveries chunks last).length }

/-- Connections read bodies in this way. -/
theorem reads_receiveBody (c : Connection) : c.Reads c.receiveBody.1 c.receiveBody.2 := by
  unfold receiveBody
  cases hsource : c.source with
  | none => exact .unreceivable hsource
  | some source =>
      rcases Body.exists_delivers_readAll source with ⟨chunks, last, hdelivers, houtcome, hcalls⟩
      dsimp only
      rw [houtcome, hcalls]
      exact .received hsource hdelivers

variable {E : Signature} {σ : Type} (handlers : Host E σ) (c : Connection) (j : Journal σ)

/-- Reading the body is a single operation of an exchange. -/
theorem run_receiveBody :
    Exchange.receiveBody.run (host handlers) (c, j) =
      ⟨c.receiveBody.1, 0, (c.receiveBody.2, j)⟩ := by
  change Prog.run (host handlers) (.ofExcept c.receiveBody.1) (c.receiveBody.2, j) = _
  rw [Prog.run_ofExcept]

/-- Its event shows what has been found. -/
theorem transcript_receiveBody :
    Exchange.receiveBody.transcript (host handlers) (c, j) =
      [.call .receiveBody c.receiveBody.1] := by
  change .call .receiveBody c.receiveBody.1 ::
    Prog.transcript (host handlers) (.ofExcept c.receiveBody.1) (c.receiveBody.2, j) = _
  rw [Prog.transcript_ofExcept]

end Connection
end ApiGateway
