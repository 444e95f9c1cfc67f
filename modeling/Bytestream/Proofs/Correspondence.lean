import Bytestream.Proofs.CopyLoops

/-!
Streams that cannot be told apart. A correspondence relates the states of two streams, maybe over
different backends. Where the operations of the streams themselves come to the same on related
states, so does every call on top of them, and whatever the one stream is used for, the other is
left related to it. Taken of a stream and itself this is an invariant.
-/

namespace Bytestream

namespace Action

variable {ε δ σ τ α γ : Type}

/-- Two runs ended alike: with one value in related states, or for one reason in states that are
related when they stop for it. -/
def Agree (related : σ → τ → Prop) (stops : ε → σ → τ → Prop) :
    Except ε α × σ → Except ε α × τ → Prop
  | (.ok value, state), (.ok value', other) => value = value' ∧ related state other
  | (.error reason, state), (.error reason', other) => reason = reason' ∧ stops reason state other
  | _, _ => False

/-- From related states the two actions end alike. -/
def Alike (related : σ → τ → Prop) (stops : ε → σ → τ → Prop) (first : Action ε σ α)
    (second : Action ε τ α) : Prop :=
  ∀ state other, related state other →
    Agree related stops (first.result state) (second.result other)

variable {related : σ → τ → Prop} {stops : ε → σ → τ → Prop}

theorem alike_pure (value : α) :
    Alike related stops (pure value : Action ε σ α) (pure value : Action ε τ α) :=
  fun _ _ hRelated => ⟨rfl, hRelated⟩

theorem alike_emit (event : Event) :
    Alike related stops (emit event : Action ε σ Unit) (emit event : Action ε τ Unit) :=
  fun _ _ hRelated => ⟨rfl, hRelated⟩

theorem alike_stop {reason : ε}
    (hStops : ∀ state other, related state other → stops reason state other) :
    Alike related stops (stop reason : Action ε σ α) (stop reason : Action ε τ α) :=
  fun state other hRelated => ⟨rfl, hStops state other hRelated⟩

/-- What follows may rely on how the first action came to its value. -/
theorem Agree.bind_of_run {first : Action ε σ α} {second : Action ε τ α} {next : α → Action ε σ γ}
    {next' : α → Action ε τ γ} {state : σ} {other : τ}
    (hFirst : Agree related stops (first.result state) (second.result other))
    (hNext : ∀ value middle middle', first.result state = (.ok value, middle) →
      second.result other = (.ok value, middle') → related middle middle' →
        Agree related stops ((next value).result middle) ((next' value).result middle')) :
    Agree related stops ((first >>= next).result state) ((second >>= next').result other) := by
  rw [result_bind, result_bind]
  cases hRun : first.result state with
  | mk value middle =>
      cases hOther : second.result other with
      | mk value' middle' =>
          rw [hRun, hOther] at hFirst
          cases value <;> cases value'
          case ok.ok value value' =>
            obtain ⟨rfl, hMiddle⟩ := hFirst
            exact hNext value middle middle' hRun hOther hMiddle
          case error.error => exact hFirst
          case ok.error => exact hFirst.elim
          case error.ok => exact hFirst.elim

theorem Agree.bind {first : Action ε σ α} {second : Action ε τ α} {next : α → Action ε σ γ}
    {next' : α → Action ε τ γ} {state : σ} {other : τ}
    (hFirst : Agree related stops (first.result state) (second.result other))
    (hNext : ∀ value, Alike related stops (next value) (next' value)) :
    Agree related stops ((first >>= next).result state) ((second >>= next').result other) :=
  hFirst.bind_of_run fun value middle middle' _ _ hMiddle => hNext value middle middle' hMiddle

theorem Alike.bind {first : Action ε σ α} {second : Action ε τ α} {next : α → Action ε σ γ}
    {next' : α → Action ε τ γ} (hFirst : Alike related stops first second)
    (hNext : ∀ value, Alike related stops (next value) (next' value)) :
    Alike related stops (first >>= next) (second >>= next') :=
  fun state other hRelated => (hFirst state other hRelated).bind hNext

/-- Each action goes on from a look at its own state. -/
theorem alike_of_state {next : σ → Action ε σ α} {next' : τ → Action ε τ α}
    (hNext : ∀ state other, related state other →
      Agree related stops ((next state).result state) ((next' other).result other)) :
    Alike related stops (Action.state >>= next) (Action.state >>= next') := by
  intro state other hRelated
  rw [result_bind_of_ok (result_state state), result_bind_of_ok (result_state other)]
  exact hNext state other hRelated

/-- Only what the actions come to counts, and not what they logged. -/
theorem Alike.of_result_eq {first first' : Action ε σ α} {second second' : Action ε τ α}
    (hAlike : Alike related stops first' second')
    (hFirst : ∀ state, first.result state = first'.result state)
    (hSecond : ∀ other, second.result other = second'.result other) :
    Alike related stops first second := by
  intro state other hRelated
  rw [hFirst, hSecond]
  exact hAlike state other hRelated

theorem Agree.mapStop {rename : δ → ε} {first : Action δ σ α} {second : Action δ τ α} {state : σ}
    {other : τ} (hAgree : Agree related (fun reason => stops (rename reason)) (first.result state)
      (second.result other)) :
    Agree related stops ((first.mapStop rename).result state)
      ((second.mapStop rename).result other) := by
  rw [result_mapStop, result_mapStop]
  cases hRun : first.result state with
  | mk value after =>
      cases hOther : second.result other with
      | mk value' after' =>
          rw [hRun, hOther] at hAgree
          cases value <;> cases value'
          case ok.ok => exact hAgree
          case error.error => exact ⟨congrArg rename hAgree.1, hAgree.2⟩
          case ok.error => exact hAgree.elim
          case error.ok => exact hAgree.elim

/-- Where an error may only stop in related states, nothing is lost by going on from it. -/
theorem Alike.attempt {stops : Stop → σ → τ → Prop} {first : Action Stop σ α}
    {second : Action Stop τ α} (hAlike : Alike related stops first second)
    (hErrors : ∀ error state other, stops (.error error) state other → related state other) :
    Alike related (fun fault => stops (.fault fault)) (attempt first) (attempt second) := by
  intro state other hRelated
  have hAgree := hAlike state other hRelated
  rw [result_attempt, result_attempt]
  cases hRun : first.result state with
  | mk value after =>
      cases hOther : second.result other with
      | mk value' after' =>
          rw [hRun, hOther] at hAgree
          cases value <;> cases value'
          case ok.ok => exact ⟨congrArg Except.ok hAgree.1, hAgree.2⟩
          case error.error reason reason' =>
            obtain ⟨rfl, hStops⟩ := hAgree
            cases reason with
            | error error => exact ⟨rfl, hErrors error after after' hStops⟩
            | fault fault => exact ⟨rfl, hStops⟩
          case ok.error => exact hAgree.elim
          case error.ok => exact hAgree.elim

end Action

namespace Stream

open Bytestream.Action (Agree Alike)

variable {β γ : Type} [Backend β] [Backend γ]

section Transfers

/-- The transfers that reading is made of end alike on related streams, and so do the refusals that
a reader makes itself. -/
structure CoupledReads (related : Stream β → Stream γ → Prop)
    (stops : Stop → Stream β → Stream γ → Prop) : Prop where
  capabilities : ∀ {stream other}, related stream other → stream.capabilities = other.capabilities
  readWord : ∀ (order : ByteOrder) {width : Nat}, width < magnitudeLimit →
    Alike related stops (readWord order width) (readWord order width)
  readPayload : ∀ size seed,
    Alike related stops (Chunk.readPayload size seed) (Chunk.readPayload size seed)
  reject : ∀ {α : Type} (error : Error), Alike related stops
    (reject error.code error : Attempt β α) (reject error.code error)

/-- All transfers that the upper layers are made of end alike on related streams. -/
structure Coupled (related : Stream β → Stream γ → Prop)
    (stops : Stop → Stream β → Stream γ → Prop) : Prop extends CoupledReads related stops where
  putBytes : ∀ bytes, Alike related stops (Chunk.putBytes bytes) (Chunk.putBytes bytes)
  seek : ∀ offset origin, Alike related stops
    (do
      let outcome ← lift (seek offset origin)
      outcome.toExcept)
    (do
      let outcome ← lift (seek offset origin)
      outcome.toExcept)

namespace CoupledReads

variable {related : Stream β → Stream γ → Prop} {stops : Stop → Stream β → Stream γ → Prop}

theorem readMember (hCoupled : CoupledReads related stops) {α : Type} (enumeration : Enumeration α)
    (order : ByteOrder) (hWidth : enumeration.scalar.width < magnitudeLimit) :
    Alike related stops (readMember enumeration order) (readMember enumeration order) := by
  apply (hCoupled.readWord order hWidth).bind
  intro word
  split
  · exact Action.alike_pure _
  · exact hCoupled.reject (.malformed _)

theorem readFields (hCoupled : CoupledReads related stops) (order : ByteOrder) :
    Alike related stops (ChunkHeader.read order) (ChunkHeader.read order) :=
  (hCoupled.readWord order (by decide)).bind fun _ =>
    (hCoupled.readWord order (by decide)).bind fun _ =>
      (hCoupled.readWord order (by decide)).bind fun _ => Action.alike_pure _

theorem readFooter (hCoupled : CoupledReads related stops) (order : ByteOrder) :
    Alike related stops (ChunkHeader.readFooter order) (ChunkHeader.readFooter order) :=
  hCoupled.readWord order (by decide)

theorem readHeader (hCoupled : CoupledReads related stops) (config : ChunkConfig) :
    Alike related stops (Chunk.readHeader config) (Chunk.readHeader config) := by
  apply (hCoupled.readFields config.order).bind
  intro header
  dsimp only
  split
  · exact hCoupled.reject (.malformed _)
  · exact (Action.alike_emit _).bind fun _ => Action.alike_pure header

/-- A mismatch is rejected like any other bad data, with a line in the log besides. -/
theorem readPayloadVerified [Memory] (hCoupled : CoupledReads related stops) (header : ChunkHeader)
    (config : ChunkConfig) :
    Alike related stops (Chunk.readPayloadVerified header config)
      (Chunk.readPayloadVerified header config) := by
  rw [Chunk.readPayloadVerified, Chunk.readPayloadVerified]
  dsimp only
  split
  · exact hCoupled.reject .allocationFailure
  · apply (hCoupled.readPayload _ _).bind
    rintro ⟨payload, computed⟩
    apply (hCoupled.readFooter config.order).bind
    intro stored
    split
    · refine (hCoupled.reject (.checksumMismatch stored.toNat computed.toNat)).of_result_eq ?_ ?_
      all_goals
        intro stream
        rw [Stream.reject, Action.result_bind, Action.result_bind]
        rfl
    · exact Action.alike_pure _

theorem readChunk [Memory] (hCoupled : CoupledReads related stops) (config : ChunkConfig) :
    Alike related stops (Chunk.read config) (Chunk.read config) :=
  (hCoupled.readHeader config).bind fun header =>
    (hCoupled.readPayloadVerified header config).bind fun _ => Action.alike_pure _

end CoupledReads

namespace Coupled

variable {related : Stream β → Stream γ → Prop} {stops : Stop → Stream β → Stream γ → Prop}

theorem putWord (hCoupled : Coupled related stops) {width : Nat} (order : ByteOrder)
    (word : Word width) : Alike related stops (putWord order word) (putWord order word) :=
  hCoupled.putBytes (Word.bytes order word)

theorem writeFields (hCoupled : Coupled related stops) (header : ChunkHeader) (order : ByteOrder) :
    Alike related stops (header.write order) (header.write order) :=
  (hCoupled.putWord order _).bind fun _ => (hCoupled.putWord order _).bind fun _ =>
    hCoupled.putWord order _

/-- A seek whose failure stops what comes after it. -/
theorem seek_bind (hCoupled : Coupled related stops) {α : Type} {next : Nat → Attempt β α}
    {next' : Nat → Attempt γ α} (offset : Int) (origin : Origin)
    (hNext : ∀ position, Alike related stops (next position) (next' position)) :
    Alike related stops
      (do
        let outcome ← lift (Stream.seek offset origin)
        let position ← outcome.toExcept
        next position)
      (do
        let outcome ← lift (Stream.seek offset origin)
        let position ← outcome.toExcept
        next' position) := by
  have hBoth := (hCoupled.seek offset origin).bind hNext
  rwa [bind_assoc, bind_assoc] at hBoth

theorem skipChunk (hCoupled : Coupled related stops) (header : ChunkHeader) :
    Alike related stops (Chunk.skip header) (Chunk.skip header) := by
  rw [Chunk.skip, Chunk.skip]
  split
  · exact hCoupled.reject .seekError
  · exact hCoupled.seek_bind _ _ fun _ => Action.alike_pure ()

theorem seekTo (hCoupled : Coupled related stops) (position : Nat) :
    Alike related stops (Chunk.seekTo position) (Chunk.seekTo position) := by
  rw [Chunk.seekTo, Chunk.seekTo]
  split
  · exact hCoupled.reject .seekError
  · exact hCoupled.seek_bind _ _ fun _ => Action.alike_pure ()

theorem writeChunk (hCoupled : Coupled related stops) (typeId : Word 4) (version : Word 2)
    (payload : Bytes) (config : ChunkConfig) :
    Alike related stops (Chunk.write typeId version payload config)
      (Chunk.write typeId version payload config) :=
  (hCoupled.writeFields _ _).bind fun _ => (hCoupled.putBytes payload).bind fun _ =>
    (hCoupled.putWord _ _).bind fun _ => (Action.alike_emit _).bind fun _ =>
      Action.alike_pure _

theorem begin (hCoupled : Coupled related stops) (typeId : Word 4) (version : Word 2)
    (config : ChunkConfig) :
    Alike related stops (ChunkWriter.begin typeId version config)
      (ChunkWriter.begin typeId version config) := by
  apply Action.alike_of_state
  intro stream other hRelated
  rw [hCoupled.capabilities hRelated]
  split
  · exact hCoupled.seek_bind 0 .current (fun _ =>
      (hCoupled.writeFields _ _).bind fun _ => Action.alike_pure _) stream other hRelated
  · exact hCoupled.reject .invalidOperation stream other hRelated

theorem append (hCoupled : Coupled related stops) (writer : ChunkWriter) (bytes : Bytes) :
    Alike related stops (writer.append bytes) (writer.append bytes) :=
  (hCoupled.putBytes bytes).bind fun _ => Action.alike_pure _

theorem finish (hCoupled : Coupled related stops) (writer : ChunkWriter) :
    Alike related stops writer.finish writer.finish :=
  (hCoupled.putWord _ _).bind fun _ => hCoupled.seek_bind 0 .current fun _ =>
    (hCoupled.seekTo _).bind fun _ => (hCoupled.putWord _ _).bind fun _ =>
      (hCoupled.seekTo _).bind fun _ => (Action.alike_emit _).bind fun _ =>
        Action.alike_pure _

/-- Every call of the codec and the chunk layer ends alike where its transfers do. -/
theorem perform [Memory] (hCoupled : Coupled related stops) (call : Call) :
    Alike related stops call.perform call.perform := by
  have hDone {α : Type} {first : Attempt β α} {second : Attempt γ α}
      (hAlike : Alike related stops first second) :
      Alike related stops (do let _ ← first) (do let _ ← second) :=
    hAlike.bind fun _ => Action.alike_pure ()
  cases call with
  | readWord order width hWidth => exact hDone (hCoupled.readWord order hWidth)
  | writeWord order word => exact hCoupled.putWord order word
  | readMember enumeration order hWidth => exact hDone (hCoupled.readMember enumeration order hWidth)
  | writeMember enumeration order member => exact hCoupled.putWord order _
  | readFields order => exact hDone (hCoupled.readFields order)
  | writeFields header order => exact hCoupled.writeFields header order
  | readFooter order => exact hDone (hCoupled.readFooter order)
  | writeFooter order sum => exact hCoupled.putWord order sum
  | readHeader config => exact hDone (hCoupled.readHeader config)
  | readPayload header config => exact hDone (hCoupled.readPayloadVerified header config)
  | readChunk config => exact hDone (hCoupled.readChunk config)
  | skipChunk header => exact hCoupled.skipChunk header
  | writeChunk typeId version payload config =>
      exact hDone (hCoupled.writeChunk typeId version payload config)
  | begin typeId version config => exact hDone (hCoupled.begin typeId version config)
  | append writer bytes => exact hDone (hCoupled.append writer bytes)
  | finish writer => exact hDone (hCoupled.finish writer)

end Coupled

end Transfers

section Payloads

variable {related : Stream β → Stream γ → Prop} {stops : Stop → Stream β → Stream γ → Prop}

/-- A piece of a payload asks for no more than the window shows, and for a refill only where it
shows nothing. -/
theorem alike_payloadPiece {wanted : Nat}
    (hAvailable : ∀ {stream other}, related stream other → stream.available = other.available)
    (hRefill : ∀ {stream other}, related stream other → stream.available = 0 →
      Agree related stops (Action.result (do let code ← lift refill; code.toExcept) stream)
        (Action.result (do let code ← lift refill; code.toExcept) other))
    (hUnread : Alike related stops (lift unread) (lift unread))
    (hConsume : ∀ {stream other} {count : Nat}, related stream other → count ≤ stream.available →
      Agree related stops ((lift (consume count)).result stream)
        ((lift (consume count)).result other)) :
    Alike related stops (Chunk.payloadPiece wanted) (Chunk.payloadPiece wanted) := by
  have hPiece : Alike related stops (Chunk.unreadPiece wanted) (Chunk.unreadPiece wanted) := by
    intro stream other hRelated
    refine (hUnread stream other hRelated).bind_of_run fun shown middle middle' hShown _ hMiddle => ?_
    obtain ⟨hLength, rfl⟩ := length_of_unread (ok_of_lift hShown)
    refine (hConsume hMiddle ?_).bind fun _ => Action.alike_pure _
    rw [List.length_take, hLength]
    exact Nat.min_le_right _ _
  apply Action.alike_of_state
  intro stream other hRelated
  rw [← hAvailable hRelated]
  dsimp only
  split
  · have hBoth := (hRefill hRelated ‹_›).bind fun _ => hPiece
    rwa [bind_assoc, bind_assoc] at hBoth
  · exact hPiece stream other hRelated

theorem alike_takePayload (rounds wanted : Nat) (sum : Word 4)
    (hPiece : ∀ wanted, Alike related stops (Chunk.payloadPiece wanted) (Chunk.payloadPiece wanted)) :
    Alike related stops (Chunk.takePayload rounds wanted sum)
      (Chunk.takePayload rounds wanted sum) := by
  induction rounds generalizing wanted sum with
  | zero => exact Action.alike_pure _
  | succ rounds ih =>
      rcases Nat.eq_zero_or_pos wanted with rfl | hWanted
      · exact Action.alike_pure _
      · rw [Chunk.takePayload_of_piece hWanted, Chunk.takePayload_of_piece hWanted]
        exact (hPiece wanted).bind fun _ => (ih _ _).bind fun _ => Action.alike_pure _

/-- A payload is read piece by piece where there is a window, and with a single read elsewhere. -/
theorem alike_readPayload (size : Nat) (seed : Word 4)
    (hCapabilities : ∀ {stream other}, related stream other →
      stream.capabilities = other.capabilities)
    (hPiece : ∀ wanted, Alike related stops (Chunk.payloadPiece wanted) (Chunk.payloadPiece wanted))
    (hRead : Alike related stops
      (do
        let transfer ← lift (read size)
        let _ ← transfer.outcome.toExcept
        return transfer)
      (do
        let transfer ← lift (read size)
        let _ ← transfer.outcome.toExcept
        return transfer)) :
    Alike related stops (Chunk.readPayload size seed) (Chunk.readPayload size seed) := by
  apply Action.alike_of_state
  intro stream other hRelated
  rw [hCapabilities hRelated]
  split
  · exact (alike_takePayload size size seed hPiece stream other hRelated).bind fun _ =>
      (Action.alike_emit _).bind fun _ => Action.alike_pure _
  · have hDone := (hRead stream other hRelated).bind fun transfer =>
      let payload := transfer.fill (List.replicate size 0)
      Action.alike_pure (payload, crc32 payload seed)
    simp only [bind_assoc, pure_bind] at hDone
    exact hDone

end Payloads

section Operations

/-- An error may stop related streams as they are, and a fault where it is allowed. -/
def stopsRelated (related : Stream β → Stream γ → Prop) (faults : Fault → Stream β → Stream γ → Prop) :
    Stop → Stream β → Stream γ → Prop
  | .error _, stream, other => related stream other
  | .fault fault, stream, other => faults fault stream other

/-- Related streams look the same, and what reading is made of ends alike on them: a read that asks
the backend, and the looks at the window and the steps in it that are within its bounds. -/
structure CorrespondingReads (related : Stream β → Stream γ → Prop)
    (faults : Fault → Stream β → Stream γ → Prop) : Prop where
  capabilities : ∀ {stream other}, related stream other → stream.capabilities = other.capabilities
  available : ∀ {stream other}, related stream other → stream.available = other.available
  errorState : ∀ {stream other}, related stream other → stream.errorState = other.errorState
  record : ∀ code, Alike related faults (record code) (record code)
  readDirect : ∀ {stream other} {count : Nat}, related stream other → 0 < count →
    stream.capabilities.read = true →
      Agree related faults ((read count).result stream) ((read count).result other)
  peek : ∀ {stream other} {count : Nat}, related stream other → count ≤ stream.available →
    Agree related faults ((peek count).result stream) ((peek count).result other)
  consume : ∀ {stream other} {count : Nat}, related stream other → count ≤ stream.available →
    Agree related faults ((consume count).result stream) ((consume count).result other)
  refill : ∀ {stream other}, related stream other → stream.window.exhausted = true →
    Agree related faults (Action.result refill stream) (Action.result refill other)

/-- What related streams do by themselves ends alike, whatever a query of the length comes to. -/
structure CorrespondingCalls (related : Stream β → Stream γ → Prop)
    (faults : Fault → Stream β → Stream γ → Prop) : Prop extends
    CorrespondingReads related faults where
  write : ∀ source, Alike related faults (write source) (write source)
  seek : ∀ offset origin, Alike related faults (seek offset origin) (seek offset origin)
  close : Alike related faults close close
  resetErrorState : Alike related faults resetErrorState resetErrorState

/-- Everything that related streams do by themselves ends alike. -/
structure Corresponds (related : Stream β → Stream γ → Prop)
    (faults : Fault → Stream β → Stream γ → Prop) : Prop extends
    CorrespondingCalls related faults where
  size : Alike related faults size size

namespace CorrespondingReads

variable {related : Stream β → Stream γ → Prop} {faults : Fault → Stream β → Stream γ → Prop}

theorem unsupported (hSame : CorrespondingReads related faults) :
    Alike related faults unsupported unsupported :=
  (hSame.record _).bind fun _ => Action.alike_pure _

theorem unread (hSame : CorrespondingReads related faults) : Alike related faults unread unread := by
  apply Action.alike_of_state
  intro stream other hRelated
  rw [← hSame.available hRelated]
  exact hSame.peek hRelated (Nat.le_refl _)

theorem exhausted (hSame : CorrespondingReads related faults) {stream : Stream β} {other : Stream γ}
    (hRelated : related stream other) : stream.window.exhausted = other.window.exhausted := by
  have hAvailable : stream.window.available = other.window.available := hSame.available hRelated
  rw [Bool.eq_iff_iff, Window.exhausted_iff, Window.exhausted_iff, hAvailable]

theorem refillIfExhausted (hSame : CorrespondingReads related faults) :
    Alike related faults refillIfExhausted refillIfExhausted := by
  apply Action.alike_of_state
  intro stream other hRelated
  rw [← hSame.exhausted hRelated]
  split
  · exact (hSame.refill hRelated ‹_›).bind fun _ => Action.alike_pure _
  · exact ⟨rfl, hRelated⟩

/-- A piece is as long as what was looked at, so that it can be consumed. -/
theorem takePiece (hSame : CorrespondingReads related faults) (count : Nat) :
    Alike related faults (takePiece count) (takePiece count) := by
  apply Action.alike_of_state
  intro stream other hRelated
  have hMost := Nat.min_le_right count stream.available
  rw [← hSame.available hRelated]
  refine (hSame.peek hRelated hMost).bind_of_run fun piece middle middle' hPiece _ hMiddle => ?_
  obtain ⟨hLength, rfl⟩ := length_of_peek hPiece
  exact (hSame.consume hMiddle (hLength ▸ hMost)).bind fun _ => Action.alike_pure _

theorem takeBuffered (hSame : CorrespondingReads related faults) (rounds count : Nat) :
    Alike related faults (takeBuffered rounds count) (takeBuffered rounds count) := by
  induction rounds generalizing count with
  | zero => exact Action.alike_pure _
  | succ rounds ih =>
      rcases Nat.eq_zero_or_pos count with rfl | hWanted
      · exact Action.alike_pure _
      · rw [takeBuffered_of_pos hWanted, takeBuffered_of_pos hWanted]
        apply hSame.refillIfExhausted.bind
        intro _
        apply Action.alike_of_state
        intro stream other hRelated
        rw [hSame.errorState hRelated]
        split
        · exact (hSame.takePiece count stream other hRelated).bind fun _ => (ih _).bind fun _ =>
            Action.alike_pure _
        · exact ⟨rfl, hRelated⟩

theorem bufferedRead (hSame : CorrespondingReads related faults) (count : Nat) :
    Alike related faults (bufferedRead count) (bufferedRead count) := by
  rw [Stream.bufferedRead, Stream.bufferedRead]
  split
  · exact Action.alike_pure _
  · apply Action.alike_of_state
    intro stream other hRelated
    rw [hSame.capabilities hRelated]
    split
    · refine (hSame.takeBuffered count count stream other hRelated).bind fun bytes => ?_
      apply Action.alike_of_state
      intro after after' hAfter
      rw [hSame.errorState hAfter]
      exact ⟨rfl, hAfter⟩
    · exact (hSame.unsupported stream other hRelated).bind fun _ => Action.alike_pure _

theorem read (hSame : CorrespondingReads related faults) (count : Nat) :
    Alike related faults (read count) (read count) := by
  intro stream other hRelated
  have hOffered := hSame.capabilities hRelated
  rcases Nat.eq_zero_or_pos count with rfl | hSome
  · exact ⟨rfl, hRelated⟩
  · cases hDirect : stream.capabilities.read with
    | true => exact hSame.readDirect hRelated hSome hDirect
    | false =>
        cases hOffers : stream.capabilities.bufferedRead with
        | true =>
            rw [read_of_window_only ⟨hDirect, hOffers⟩ hSome,
              read_of_window_only (hOffered ▸ ⟨hDirect, hOffers⟩) hSome]
            exact hSame.bufferedRead count stream other hRelated
        | false =>
            rw [read_of_absent hSome hDirect hOffers,
              read_of_absent hSome (hOffered ▸ hDirect) (hOffered ▸ hOffers)]
            exact (hSame.unsupported stream other hRelated).bind fun _ => Action.alike_pure _

omit [Backend β] [Backend γ] in
theorem lifted {α : Type} {first : Op β α} {second : Op γ α} {stream : Stream β} {other : Stream γ}
    (hAgree : Agree related faults (first.result stream) (second.result other)) :
    Agree related (stopsRelated related faults) ((lift first).result stream)
      ((lift second).result other) := by
  apply Action.Agree.mapStop
  exact hAgree

omit [Backend β] [Backend γ] in
theorem lift {α : Type} {first : Op β α} {second : Op γ α} (hAlike : Alike related faults first second) :
    Alike related (stopsRelated related faults) (lift first) (lift second) :=
  fun stream other hRelated => lifted (hAlike stream other hRelated)

omit [Backend β] [Backend γ] in
/-- Errors of the data leave the streams as they were. -/
theorem ofError {α : Type} (computed : Except Error α) :
    Alike related (stopsRelated related faults) (liftM computed : Attempt β α)
      (liftM computed : Attempt γ α) := by
  cases computed with
  | ok value => exact Action.alike_pure value
  | error error => exact Action.alike_stop fun _ _ hRelated => hRelated

theorem payloadPiece (hSame : CorrespondingReads related faults) (wanted : Nat) :
    Alike related (stopsRelated related faults) (Chunk.payloadPiece wanted)
      (Chunk.payloadPiece wanted) := by
  apply alike_payloadPiece hSame.available
  · exact fun hRelated hNone =>
      (lifted (hSame.refill hRelated ((Window.exhausted_iff _).mpr hNone))).bind fun _ => ofError _
  · exact lift hSame.unread
  · exact fun hRelated hCount => lifted (hSame.consume hRelated hCount)

theorem readWord (hSame : CorrespondingReads related faults) (order : ByteOrder) (width : Nat) :
    Alike related (stopsRelated related faults) (Stream.readWord order width)
      (Stream.readWord order width) := by
  apply (lift (hSame.read width)).bind
  intro transfer
  apply (ofError _).bind
  intro count
  split
  · exact Action.alike_pure _
  · exact ofError (.error _)

/-- The transfers of a reader only add errors of their own. -/
theorem coupledReads (hSame : CorrespondingReads related faults) :
    CoupledReads related (stopsRelated related faults) where
  capabilities := hSame.capabilities
  readWord order width _ := hSame.readWord order width
  readPayload size seed := alike_readPayload size seed hSame.capabilities hSame.payloadPiece
    ((lift (hSame.read size)).bind fun _ => (ofError _).bind fun _ => Action.alike_pure _)
  reject error := (lift (hSame.record error.code)).bind fun _ => ofError (.error error)

end CorrespondingReads

namespace CorrespondingCalls

variable {related : Stream β → Stream γ → Prop} {faults : Fault → Stream β → Stream γ → Prop}

/-- So do the transfers of a writer. -/
theorem coupled (hSame : CorrespondingCalls related faults) :
    Coupled related (stopsRelated related faults) where
  toCoupledReads := hSame.coupledReads
  putBytes bytes := (CorrespondingReads.lift (hSame.write bytes)).bind fun _ =>
    (CorrespondingReads.ofError _).bind fun _ => Action.alike_pure _
  seek offset origin := (CorrespondingReads.lift (hSame.seek offset origin)).bind fun _ =>
    CorrespondingReads.ofError _

theorem handleRead (hSame : CorrespondingCalls related faults) (destination : Bytes) :
    Alike related faults (Handle.read destination) (Handle.read destination) := by
  apply (hSame.read destination.length).bind
  intro transfer
  dsimp only
  split
  · exact Action.alike_pure _
  · split <;> exact Action.alike_pure _

theorem handleWrite (hSame : CorrespondingCalls related faults) (source : Bytes) :
    Alike related faults (Handle.write source) (Handle.write source) := by
  apply (hSame.write source).bind
  intro outcome
  split
  · exact Action.alike_pure _
  · split <;> exact Action.alike_pure _

theorem handleSeek (hSame : CorrespondingCalls related faults) (target : HandleTarget) :
    Alike related faults (Handle.seek target) (Handle.seek target) := by
  unfold Handle.seek
  dsimp only
  split
  · exact Action.alike_pure _
  · apply (hSame.seek _ _).bind
    intro outcome
    split <;> exact Action.alike_pure _

/-- Whatever related streams are used for, they end alike, if a query of the length does and the uses
that the user has a duty in do where they are made. -/
theorem perform [Memory] (hSame : CorrespondingCalls related faults) {stream : Stream β}
    {other : Stream γ}
    (hRelated : related stream other) (use : Use)
    (hSize : use = .operation .size →
      Agree related faults (Action.result Stream.size stream) (Action.result Stream.size other))
    (hRefill : use = .operation .refill →
      Agree related faults (Action.result Stream.refill stream) (Action.result Stream.refill other))
    (hConsume : ∀ count, use = .consume count →
      Agree related faults ((Stream.consume count).result stream)
        ((Stream.consume count).result other)) :
    Agree related faults (use.perform.result stream) (use.perform.result other) := by
  have hDone {α : Type} {first : Op β α} {second : Op γ α}
      (hAlike : Alike related faults first second) :
      Agree related faults (Action.result (do let _ ← first) stream)
        (Action.result (do let _ ← second) other) :=
    (hAlike stream other hRelated).bind fun _ => Action.alike_pure ()
  cases use with
  | operation asked =>
      cases asked with
      | size => exact (hSize rfl).bind fun _ => Action.alike_pure ()
      | read count => exact hDone ((hSame.read count).bind fun _ => Action.alike_pure _)
      | bufferedRead count =>
          exact hDone ((hSame.bufferedRead count).bind fun _ => Action.alike_pure _)
      | write source => exact hDone (hSame.write source)
      | seek offset origin => exact hDone (hSame.seek offset origin)
      | position => exact hDone (hSame.seek 0 .current)
      | refill =>
          exact ((hRefill rfl).bind fun _ => Action.alike_pure _).bind fun _ =>
            Action.alike_pure ()
  | call made => exact hDone ((hSame.coupled.perform made).attempt fun _ _ _ hKept => hKept)
  | readWordInto order initial =>
      exact hDone ((hSame.read _).bind fun _ => Action.alike_pure _)
  | unread => exact hDone hSame.unread
  | consume count => exact hConsume count rfl
  | resetErrorState => exact hDone hSame.resetErrorState
  | close => exact hDone hSame.close
  | handleRead destination => exact hDone (hSame.handleRead destination)
  | handleWrite source => exact hDone (hSame.handleWrite source)
  | handleSeek target => exact hDone (hSame.handleSeek target)

end CorrespondingCalls

/-- Whatever related streams are used for, they end alike, if the uses that the user has a duty in
do where they are made. -/
theorem Corresponds.perform [Memory] {related : Stream β → Stream γ → Prop}
    {faults : Fault → Stream β → Stream γ → Prop} (hSame : Corresponds related faults)
    {stream : Stream β} {other : Stream γ} (hRelated : related stream other) (use : Use)
    (hRefill : use = .operation .refill →
      Agree related faults (Action.result Stream.refill stream) (Action.result Stream.refill other))
    (hConsume : ∀ count, use = .consume count →
      Agree related faults ((Stream.consume count).result stream)
        ((Stream.consume count).result other)) :
    Agree related faults (use.perform.result stream) (use.perform.result other) :=
  hSame.toCorrespondingCalls.perform hRelated use (fun _ => hSame.size stream other hRelated) hRefill
    hConsume

end Operations

end Stream

end Bytestream
