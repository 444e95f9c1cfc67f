import Bytestream.Proofs.Correspondence

/-!
What the layers on top of a stream keep to because the operations that they are made of do. A
discipline says what is to hold of a stream between operations, and what an operation may leave
behind where it stops. It corresponds to relating a stream to itself, so that it is shown for the
operations of the stream and then holds of everything that is made of them.
-/

namespace Bytestream

namespace Action

variable {ε σ α : Type}

/-- Where an action yielded, the state it left is good; where it stopped, it allows the reason. -/
def Ends (good : σ → Prop) (stops : ε → σ → Prop) : Except ε α × σ → Prop
  | (.ok _, after) => good after
  | (.error reason, after) => stops reason after

/-- Run from a good state, the action ends within the discipline. -/
def Maintains (good : σ → Prop) (stops : ε → σ → Prop) (action : Action ε σ α) : Prop :=
  ∀ state, good state → Ends good stops (action.result state)

theorem ends_of_state {good : σ → Prop} {run : Except ε α × σ} (hGood : good run.2) :
    Ends good (fun _ => good) run := by
  obtain ⟨value | value, after⟩ := run <;> exact hGood

theorem state_of_ends {good : σ → Prop} {stops : ε → σ → Prop} {run : Except ε α × σ}
    (hEnds : Ends good stops run) (hStops : ∀ reason state, stops reason state → good state) :
    good run.2 := by
  obtain ⟨reason | value, after⟩ := run
  · exact hStops reason after hEnds
  · exact hEnds

/-- A good state is related to itself. -/
def SameGood (good : σ → Prop) (state other : σ) : Prop := state = other ∧ good state

/-- A state that allows the reason for a stop is related to itself at that stop. -/
def SameStop (stops : ε → σ → Prop) (reason : ε) (state other : σ) : Prop :=
  state = other ∧ stops reason state

variable {good : σ → Prop} {stops : ε → σ → Prop}

theorem agree_self {run : Except ε α × σ} :
    Agree (SameGood good) (SameStop stops) run run ↔ Ends good stops run := by
  obtain ⟨value | value, after⟩ := run <;> simp [Agree, Ends, SameGood, SameStop]

theorem alike_self {action : Action ε σ α} :
    Alike (SameGood good) (SameStop stops) action action ↔ Maintains good stops action := by
  constructor
  · exact fun hAlike state hGood => agree_self.mp (hAlike state state ⟨rfl, hGood⟩)
  · rintro hMaintains state _ ⟨rfl, hGood⟩
    exact agree_self.mpr (hMaintains state hGood)

end Action

namespace Stream

open Bytestream.Action (Ends Maintains SameGood SameStop agree_self alike_self)

variable {β : Type} [Backend β]

/-- The transfers that the upper layers are made of keep to a discipline, and so do the refusals that
those make themselves. -/
structure Disciplined (good : Stream β → Prop) (stops : Stop → Stream β → Prop) : Prop where
  readWord : ∀ (order : ByteOrder) {width : Nat}, width < magnitudeLimit →
    Maintains good stops (readWord order width)
  putBytes : ∀ bytes, Maintains good stops (Chunk.putBytes bytes)
  seek : ∀ offset origin, Maintains good stops (do
    let outcome ← lift (seek offset origin)
    outcome.toExcept)
  readPayload : ∀ size seed, Maintains good stops (Chunk.readPayload size seed)
  reject : ∀ {α : Type} (error : Error),
    Maintains good stops (reject error.code error : Attempt β α)

theorem Disciplined.coupled {good : Stream β → Prop} {stops : Stop → Stream β → Prop}
    (hTransfers : Disciplined good stops) : Coupled (SameGood good) (SameStop stops) where
  capabilities hSame := by rw [hSame.1]
  readWord order _ hWidth := alike_self.mpr (hTransfers.readWord order hWidth)
  putBytes bytes := alike_self.mpr (hTransfers.putBytes bytes)
  seek offset origin := alike_self.mpr (hTransfers.seek offset origin)
  readPayload size seed := alike_self.mpr (hTransfers.readPayload size seed)
  reject error := alike_self.mpr (hTransfers.reject error)

/-- Every call of the codec and the chunk layer keeps to what its transfers keep to. -/
theorem Disciplined.perform [Memory] {good : Stream β → Prop} {stops : Stop → Stream β → Prop}
    (hTransfers : Disciplined good stops) (call : Call) : Maintains good stops call.perform :=
  alike_self.mp (hTransfers.coupled.perform call)

section Payloads

variable {good : Stream β → Prop} {stops : Stop → Stream β → Prop}

/-- A payload keeps to what its pieces and its single read keep to. -/
theorem maintains_readPayload (size : Nat) (seed : Word 4)
    (hRefill : Maintains good stops (do
      let code ← lift refill
      code.toExcept : Attempt β Unit))
    (hUnread : Maintains good stops (lift unread : Attempt β Bytes))
    (hConsume : ∀ {stream : Stream β} {count : Nat}, good stream → count ≤ stream.available →
      Ends good stops ((lift (consume count)).result stream))
    (hRead : Maintains good stops (do
      let transfer ← lift (read size)
      let _ ← transfer.outcome.toExcept
      return transfer : Attempt β Transfer)) :
    Maintains good stops (Chunk.readPayload size seed) := by
  apply alike_self.mp
  apply alike_readPayload size seed
  · exact fun hSame => by rw [hSame.1]
  · intro wanted
    apply alike_payloadPiece
    · exact fun hSame => by rw [hSame.1]
    · exact fun hSame _ => alike_self.mpr hRefill _ _ hSame
    · exact alike_self.mpr hUnread
    · rintro stream _ count ⟨rfl, hGood⟩ hCount
      exact agree_self.mpr (hConsume hGood hCount)
  · exact alike_self.mpr hRead

end Payloads

/-- What reading is made of keeps to a discipline: a read that asks the backend, and the looks at the
window and the steps in it that are within its bounds. -/
structure OrderlyReads (good : Stream β → Prop) (faults : Fault → Stream β → Prop) : Prop where
  record : ∀ code, Maintains good faults (record code : Op β Code)
  readDirect : ∀ {stream : Stream β} {count : Nat}, good stream → 0 < count →
    stream.capabilities.read = true → Ends good faults ((read count).result stream)
  peek : ∀ {stream : Stream β} {count : Nat}, good stream → count ≤ stream.available →
    Ends good faults ((peek count).result stream)
  consume : ∀ {stream : Stream β} {count : Nat}, good stream → count ≤ stream.available →
    Ends good faults ((consume count).result stream)
  refill : ∀ {stream : Stream β}, good stream → stream.window.exhausted = true →
    Ends good faults (Action.result refill stream)

/-- What a stream does by itself keeps to a discipline, whatever a query of the length does. -/
structure OrderlyCalls (good : Stream β → Prop) (faults : Fault → Stream β → Prop) : Prop extends
    OrderlyReads good faults where
  write : ∀ source, Maintains good faults (write source : Op β Outcome)
  seek : ∀ offset origin, Maintains good faults (seek offset origin : Op β Outcome)
  close : Maintains good faults (close : Op β Code)
  resetErrorState : Maintains good faults (resetErrorState : Op β Code)

/-- All that a stream does by itself keeps to a discipline. -/
structure Orderly (good : Stream β → Prop) (faults : Fault → Stream β → Prop) : Prop extends
    OrderlyCalls good faults where
  size : Maintains good faults (size : Op β Outcome)

theorem OrderlyReads.corresponding {good : Stream β → Prop} {faults : Fault → Stream β → Prop}
    (hOrderly : OrderlyReads good faults) :
    CorrespondingReads (SameGood good) (SameStop faults) where
  capabilities hSame := by rw [hSame.1]
  available hSame := by rw [hSame.1]
  errorState hSame := by rw [hSame.1]
  record code := alike_self.mpr (hOrderly.record code)
  readDirect := by
    rintro stream _ count ⟨rfl, hGood⟩ hSome hDirect
    exact agree_self.mpr (hOrderly.readDirect hGood hSome hDirect)
  peek := by
    rintro stream _ count ⟨rfl, hGood⟩ hCount
    exact agree_self.mpr (hOrderly.peek hGood hCount)
  consume := by
    rintro stream _ count ⟨rfl, hGood⟩ hCount
    exact agree_self.mpr (hOrderly.consume hGood hCount)
  refill := by
    rintro stream _ ⟨rfl, hGood⟩ hExhausted
    exact agree_self.mpr (hOrderly.refill hGood hExhausted)

namespace OrderlyCalls

variable {good : Stream β → Prop} {faults : Fault → Stream β → Prop}

theorem corresponds (hOrderly : OrderlyCalls good faults) :
    CorrespondingCalls (SameGood good) (SameStop faults) where
  toCorrespondingReads := hOrderly.corresponding
  write source := alike_self.mpr (hOrderly.write source)
  seek offset origin := alike_self.mpr (hOrderly.seek offset origin)
  close := alike_self.mpr hOrderly.close
  resetErrorState := alike_self.mpr hOrderly.resetErrorState

theorem takeBuffered (hOrderly : OrderlyCalls good faults) (rounds count : Nat) :
    Maintains good faults (takeBuffered rounds count : Op β Bytes) :=
  alike_self.mp (hOrderly.corresponds.takeBuffered rounds count)

/-- A payload ends within the discipline, at an error of the data, or at a fault that it allows. -/
theorem takePayload (hOrderly : OrderlyCalls good faults) (rounds wanted : Nat) (sum : Word 4)
    {stream : Stream β} (hGood : good stream) :
    (∃ taken after, (Chunk.takePayload rounds wanted sum).result stream = (.ok taken, after)) ∨
      (∃ error after, (Chunk.takePayload rounds wanted sum).result stream =
        (.error (.error error), after)) ∨
      ∃ fault after, faults fault after := by
  have hAgree := alike_takePayload rounds wanted sum hOrderly.corresponds.payloadPiece stream stream
    ⟨rfl, hGood⟩
  cases hRun : (Chunk.takePayload rounds wanted sum).result stream with
  | mk value after =>
      rw [hRun] at hAgree
      match value with
      | .ok taken => exact .inl ⟨taken, after, rfl⟩
      | .error (.error error) => exact .inr (.inl ⟨error, after, rfl⟩)
      | .error (.fault fault) => exact .inr (.inr ⟨fault, after, hAgree.2.2⟩)

/-- Whatever the stream is used for keeps to the discipline, if a query of the length does and the uses
that the user has a duty in do where they are made. -/
theorem perform [Memory] (hOrderly : OrderlyCalls good faults) {stream : Stream β} (hGood : good stream)
    (use : Use)
    (hSize : use = .operation .size → Ends good faults (Action.result Stream.size stream))
    (hRefill : use = .operation .refill →
      Ends good faults (Action.result Stream.refill stream))
    (hConsume : ∀ count, use = .consume count →
      Ends good faults ((Stream.consume count).result stream)) :
    Ends good faults (use.perform.result stream) :=
  agree_self.mp (hOrderly.corresponds.perform ⟨rfl, hGood⟩ use
    (fun hUse => agree_self.mpr (hSize hUse)) (fun hUse => agree_self.mpr (hRefill hUse))
    fun count hUse => agree_self.mpr (hConsume count hUse))

/-- Wherever a stream is taken by uses that its user may make it keeps to the discipline, if a fault
leaves it there too and so does every query of the length among them. -/
theorem reachable [Memory] {allowed : Use → Stream β → Prop} (hOrderly : OrderlyCalls good faults)
    (hFaults : ∀ fault stream, faults fault stream → good stream)
    (hPermitted : ∀ use stream, allowed use stream → use.Permitted stream)
    (hSize : ∀ stream, good stream → allowed (.operation .size) stream →
      Ends good faults (Action.result Stream.size stream))
    {start reached : Stream β} (hStart : good start) (hReached : start.Reachable allowed reached) :
    good reached := by
  apply hReached.invariant hStart
  intro stream use hGood hAllowed
  have hDuty := hPermitted use stream hAllowed
  refine Action.state_of_ends (hOrderly.perform hGood use ?_ ?_ ?_) hFaults
  · rintro rfl
    exact hSize stream hGood hAllowed
  · rintro rfl
    exact hOrderly.refill hGood hDuty
  · rintro count rfl
    exact hOrderly.consume hGood hDuty

end OrderlyCalls

namespace Orderly

variable {good : Stream β → Prop} {faults : Fault → Stream β → Prop}

/-- Whatever the stream is used for keeps to the discipline, if the uses that the user has a duty in
do where they are made. -/
theorem perform [Memory] (hOrderly : Orderly good faults) {stream : Stream β} (hGood : good stream)
    (use : Use)
    (hRefill : use = .operation .refill →
      Ends good faults (Action.result Stream.refill stream))
    (hConsume : ∀ count, use = .consume count →
      Ends good faults ((Stream.consume count).result stream)) :
    Ends good faults (use.perform.result stream) :=
  hOrderly.toOrderlyCalls.perform hGood use (fun _ => hOrderly.size stream hGood) hRefill hConsume

/-- Wherever a stream is taken by uses that its user may make, it keeps to the discipline, if a fault
leaves it there too. -/
theorem reachable [Memory] (hOrderly : Orderly good faults)
    (hFaults : ∀ fault stream, faults fault stream → good stream) {start reached : Stream β}
    (hStart : good start) (hReached : start.Reachable Use.Permitted reached) : good reached :=
  hOrderly.toOrderlyCalls.reachable hFaults (fun _ _ hPermitted => hPermitted)
    (fun stream hGood _ => hOrderly.size stream hGood) hStart hReached

end Orderly

end Stream

end Bytestream
