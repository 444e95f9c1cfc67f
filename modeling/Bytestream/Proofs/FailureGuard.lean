import Bytestream.Chunk.Reader
import Bytestream.Proofs.WindowRead

/-!
The guard of a stream that failed for good. From the failing refill on the window shows zeros that
are not data, and what keeps them back is that the stream is under an error or has its window
exhausted. Every operation keeps one of the two, whatever the backend does, and keeps the code.
-/

namespace Bytestream.Stream

section Guarded

variable {β : Type} {stream middle after : Stream β} {code : Code}

/-- The stream failed for good with this code, shows nothing but the stub, and is under an error or
has its window exhausted. -/
structure Sealed (stream : Stream β) (code : Code) : Prop where
  failure_eq : stream.failure = some code
  failed : code ≠ .success
  on_stub : stream.window.stop ≤ stub.length
  guarded : stream.errorState ≠ .success ∨ stream.window.exhausted = true

/-- A stream that is read through its window alone, and is sealed if it failed for good. -/
structure Guarded (stream : Stream β) : Prop where
  window_only : stream.capabilities.read = false ∧ stream.capabilities.bufferedRead = true
  seals : ∀ {code}, stream.failure = some code → stream.Sealed code

/-- The guard still holds, and a final failure is still the same. -/
def Follows (after stream : Stream β) : Prop :=
  after.Guarded ∧ ∀ code, stream.failure = some code → after.failure = some code

theorem Guarded.follows (hGuarded : stream.Guarded) : stream.Follows stream :=
  ⟨hGuarded, fun _ hFailure => hFailure⟩

theorem Follows.trans (hLater : after.Follows middle) (hFirst : middle.Follows stream) :
    after.Follows stream :=
  ⟨hLater.1, fun code hFailure => hLater.2 code (hFirst.2 code hFailure)⟩

theorem guarded_of_healthy
    (hOnly : stream.capabilities.read = false ∧ stream.capabilities.bufferedRead = true)
    (hHealthy : stream.failure = none) : stream.Guarded := by
  refine ⟨hOnly, fun {code} hFailure => ?_⟩
  rw [hHealthy] at hFailure
  cases hFailure

/-- On a healthy stream only the guard is to be shown, and there is nothing to guard yet. -/
theorem follows_of_healthy (hGuarded : stream.Guarded) (hHealthy : stream.failure = none)
    (hOffered : after.capabilities = stream.capabilities) (hUnfailed : after.failure = none) :
    after.Follows stream := by
  refine ⟨guarded_of_healthy (hOffered ▸ hGuarded.window_only) hUnfailed, fun code hFailure => ?_⟩
  rw [hHealthy] at hFailure
  cases hFailure

theorem Sealed.follows (hGuarded : stream.Guarded)
    (hKept : ∀ kept, stream.failure = some kept → kept = code)
    (hOffered : after.capabilities = stream.capabilities) (hSealed : after.Sealed code) :
    after.Follows stream := by
  refine ⟨⟨hOffered ▸ hGuarded.window_only, fun {other} hFailure => ?_⟩, fun kept hFailure => ?_⟩
  · rw [hSealed.failure_eq] at hFailure
    cases hFailure
    exact hSealed
  · rw [hKept kept hFailure]
    exact hSealed.failure_eq

end Guarded

/-- The operation keeps the guard of a stream and its final failure, whatever it comes to. -/
def Keeps {ε β α : Type} (action : Action ε (Stream β) α) : Prop :=
  ∀ stream : Stream β, stream.Guarded → (action.result stream).2.Follows stream

section Sequencing

variable {ε δ β α γ : Type}

theorem keeps_pure (value : α) : Keeps (pure value : Action ε (Stream β) α) :=
  fun _ hGuarded => hGuarded.follows

theorem keeps_stop (reason : ε) : Keeps (Action.stop reason : Action ε (Stream β) α) :=
  fun _ hGuarded => hGuarded.follows

theorem keeps_state : Keeps (Action.state : Action ε (Stream β) (Stream β)) :=
  fun _ hGuarded => hGuarded.follows

theorem keeps_emit (event : Event) : Keeps (Action.emit event : Action ε (Stream β) Unit) :=
  fun _ hGuarded => hGuarded.follows

theorem follows_bind {stream : Stream β} {first : Action ε (Stream β) α}
    {next : α → Action ε (Stream β) γ} (hFirst : (first.result stream).2.Follows stream)
    (hNext : ∀ value, Keeps (next value)) : ((first >>= next).result stream).2.Follows stream := by
  rw [Action.result_bind]
  cases hRun : first.result stream with
  | mk value middle =>
      rw [hRun] at hFirst
      cases value with
      | error reason => exact hFirst
      | ok value => exact (hNext value middle hFirst.1).trans hFirst

theorem Keeps.bind {first : Action ε (Stream β) α} {next : α → Action ε (Stream β) γ}
    (hFirst : Keeps first) (hNext : ∀ value, Keeps (next value)) : Keeps (first >>= next) :=
  fun stream hGuarded => follows_bind (hFirst stream hGuarded) hNext

theorem keeps_ofError (computed : Except Error α) : Keeps (liftM computed : Attempt β α) := by
  cases computed with
  | ok value => exact keeps_pure value
  | error reason => exact keeps_stop (Stop.error reason)

theorem Keeps.lift {operation : Op β α} (hKeeps : Keeps operation) : Keeps (lift operation) := by
  intro stream hGuarded
  rw [Stream.lift, Action.result_mapStop]
  exact hKeeps stream hGuarded

theorem Keeps.attempt {action : Attempt β α} (hKeeps : Keeps action) :
    Keeps (Action.attempt action) := by
  intro stream hGuarded
  have hFollows := hKeeps stream hGuarded
  rw [Action.result_attempt]
  split <;> rename_i hRun <;> rwa [hRun] at hFollows

end Sequencing

section Primitives

variable {β : Type} {stream : Stream β} {code : Code}

/-- A code is recorded only where there was none, and there the window of a sealed stream is
exhausted. -/
theorem keeps_record (code : Code) : Keeps (record code : Op β Code) := by
  intro stream hGuarded
  by_cases hClean : stream.errorState = .success
  · rw [result_record_of_clean hClean]
    refine ⟨⟨hGuarded.window_only, fun {kept} hFailure => ?_⟩, fun _ hFailure => hFailure⟩
    obtain ⟨-, hCode, hStub, hGuard⟩ := hGuarded.seals hFailure
    exact ⟨hFailure, hCode, hStub, .inr (hGuard.resolve_left (absurd hClean ·))⟩
  · rw [result_record_of_failed hClean]
    exact hGuarded.follows

theorem keeps_conclude (outcome : Outcome) : Keeps (conclude outcome : Op β Outcome) := by
  apply (keeps_record outcome.code).bind
  intro code
  split
  · exact keeps_pure _
  · exact keeps_pure _

theorem keeps_unsupported : Keeps (unsupported : Op β Outcome) :=
  (keeps_record _).bind fun _ => keeps_pure _

/-- What a backend does to itself is no concern of the guard. -/
theorem keeps_call {α : Type} (operation : β → Reply β α) : Keeps (call operation) := by
  intro stream hGuarded
  refine ⟨⟨hGuarded.window_only, fun hFailure => ?_⟩, fun _ hFailure => hFailure⟩
  obtain ⟨hSame, hCode, hStub, hGuard⟩ := hGuarded.seals hFailure
  exact ⟨hSame, hCode, hStub, hGuard⟩

/-- A backend is handed the window of a healthy stream alone. -/
theorem follows_callOnWindow {α : Type} (hGuarded : stream.Guarded)
    (hHealthy : stream.failure = none)
    (operation : β → Window → Reply (β × Window) (Except Fault α)) :
    ((callOnWindow operation).result stream).2.Follows stream :=
  follows_of_healthy hGuarded hHealthy rfl hHealthy

/-- Serving the stub and recording the failure seals the stream, under the code that it failed
with first. -/
theorem serveStub_seals {α : Type} (hKept : stream.failure.getD code ≠ .success)
    (hCode : code ≠ .success) (next : Code → Op β α) :
    ∃ kept after, after.Sealed (stream.failure.getD code) ∧ after.errorState ≠ .success ∧
      after.capabilities = stream.capabilities ∧
      Action.result (do
        serveStub code
        let kept ← record code
        next kept) stream = (next kept).result after := by
  let served : Stream β :=
    { stream with failure := some (stream.failure.getD code), window := Window.whole stub.length }
  have hServe : (serveStub code).result stream = (.ok (), served) := by
    simp only [serveStub, Action.result_bind, Action.result_state, Action.result_emit,
      Action.result_modify, served]
  by_cases hClean : stream.errorState = .success
  · refine ⟨code, { served with errorState := code }, ⟨rfl, hKept, Nat.le_refl _, .inl hCode⟩,
      hCode, rfl, ?_⟩
    rw [Action.result_bind_of_ok hServe,
      Action.result_bind_of_ok (result_record_of_clean (by exact hClean) code)]
  · refine ⟨stream.errorState, served, ⟨rfl, hKept, Nat.le_refl _, .inl hClean⟩, hClean, rfl, ?_⟩
    rw [Action.result_bind_of_ok hServe,
      Action.result_bind_of_ok (result_record_of_failed (by exact hClean) code)]

theorem keeps_serveStub {α : Type} (hCode : code ≠ .success) {next : Code → Op β α}
    (hNext : ∀ kept, Keeps (next kept)) :
    Keeps (do
      serveStub code
      let kept ← record code
      next kept) := by
  intro stream hGuarded
  have hKept : stream.failure.getD code ≠ .success := by
    cases hFailure : stream.failure with
    | none => exact hCode
    | some kept => exact (hGuarded.seals hFailure).failed
  obtain ⟨kept, after, hSealed, -, hOffered, hServed⟩ := serveStub_seals hKept hCode next
  have hFollows : after.Follows stream := by
    refine hSealed.follows hGuarded (fun kept hFailure => ?_) hOffered
    rw [hFailure, Option.getD_some]
  rw [hServed]
  exact (hNext kept after hFollows.1).trans hFollows

end Primitives

section Window

variable {β : Type} {stream : Stream β} {code : Code}

/-- Reading off the stub brings nothing back: a window that was exhausted stays so. -/
theorem Sealed.of_window {window : Window} (hSealed : stream.Sealed code)
    (hStop : window.stop = stream.window.stop)
    (hExhausted : stream.window.exhausted = true → window.exhausted = true) :
    Sealed { stream with window } code :=
  ⟨hSealed.failure_eq, hSealed.failed, hStop ▸ hSealed.on_stub, hSealed.guarded.imp id hExhausted⟩

theorem keeps_consume (count : Nat) : Keeps (consume count : Op β Unit) := by
  intro stream hGuarded
  rw [consume, Action.result_bind_of_ok (Action.result_state stream)]
  cases hConsume : stream.window.consume count with
  | error fault => exact hGuarded.follows
  | ok window =>
      obtain ⟨hCount, -, hCursor, hStop⟩ := Window.of_consume hConsume
      refine ⟨⟨hGuarded.window_only, fun hFailure => ?_⟩, fun _ hFailure => hFailure⟩
      apply (hGuarded.seals hFailure).of_window hStop
      simp only [Window.exhausted_iff, Window.available] at hCount ⊢
      omega

/-- A reset takes the error away from a sealed stream, and exhausts its window for that. -/
theorem keeps_resetErrorState : Keeps (resetErrorState : Op β Code) := by
  intro stream hGuarded
  rw [resetErrorState, Action.result_bind_of_ok (Action.result_state stream)]
  cases hFailure : stream.failure with
  | none => exact follows_of_healthy hGuarded hFailure rfl hFailure
  | some code =>
      obtain ⟨-, hCode, hStub, -⟩ := hGuarded.seals hFailure
      refine Sealed.follows hGuarded (fun kept hKept => ?_) rfl
        ⟨hFailure, hCode, hStub, .inr (Window.exhausted_exhaust stream.window)⟩
      rw [hFailure] at hKept
      exact (Option.some.inj hKept).symm

variable [Backend β]

theorem keeps_checkRefilled : Keeps (checkRefilled : Op β Unit) := by
  apply keeps_state.bind
  intro stream
  dsimp only
  split
  · exact keeps_stop _
  · split
    · exact keeps_stop _
    · exact keeps_emit _

/-- A failed stream serves its stub again, and a healthy one that fails is sealed from there on. -/
theorem keeps_refill : Keeps (refill : Op β Code) := by
  intro stream hGuarded
  rw [refill, Action.result_bind_of_ok (Action.result_state stream)]
  split
  · exact (keeps_unsupported.bind fun _ => keeps_pure _) stream hGuarded
  · split
    · exact hGuarded.follows
    · cases hFailure : stream.failure with
      | some code =>
          have hCode := (hGuarded.seals hFailure).failed
          exact keeps_serveStub hCode (fun _ => keeps_pure code) stream hGuarded
      | none =>
          apply follows_bind (follows_callOnWindow hGuarded hFailure Backend.refill)
          intro code
          split
          · exact keeps_checkRefilled.bind fun _ => keeps_pure code
          · rename_i hFailing
            rw [Code.isSuccess_iff] at hFailing
            apply (keeps_emit _).bind
            intro _
            simpa only [bind_pure] using keeps_serveStub (β := β) hFailing keeps_pure

theorem keeps_refillIfExhausted : Keeps (refillIfExhausted : Op β Unit) := by
  apply keeps_state.bind
  intro stream
  split
  · exact keeps_refill.bind fun _ => keeps_pure ()
  · exact keeps_pure ()

theorem keeps_peek (count : Nat) : Keeps (peek count : Op β Bytes) := by
  apply keeps_state.bind
  intro stream
  split
  · exact keeps_pure _
  · exact keeps_stop _

theorem keeps_unread : Keeps (unread : Op β Bytes) :=
  keeps_state.bind fun _ => keeps_peek _

theorem keeps_takePiece (count : Nat) : Keeps (takePiece count : Op β Bytes) :=
  keeps_state.bind fun _ => (keeps_peek _).bind fun piece =>
    (keeps_consume piece.length).bind fun _ => keeps_pure piece

theorem keeps_takeBuffered (rounds wanted : Nat) :
    Keeps (takeBuffered rounds wanted : Op β Bytes) := by
  induction rounds generalizing wanted with
  | zero => exact keeps_pure _
  | succ rounds ih =>
      rcases Nat.eq_zero_or_pos wanted with rfl | hWanted
      · exact keeps_pure _
      · rw [takeBuffered_of_pos hWanted]
        apply keeps_refillIfExhausted.bind
        intro _
        apply keeps_state.bind
        intro stream
        split
        · exact (keeps_takePiece wanted).bind fun piece => (ih _).bind fun _ => keeps_pure _
        · exact keeps_pure _

theorem keeps_bufferedRead (count : Nat) : Keeps (bufferedRead count : Op β Transfer) := by
  rw [bufferedRead]
  split
  · exact keeps_pure _
  · apply keeps_state.bind
    intro stream
    split
    · exact (keeps_takeBuffered count count).bind fun _ => keeps_state.bind fun _ => keeps_pure _
    · exact keeps_unsupported.bind fun _ => keeps_pure _

end Window

section Operations

variable {β : Type} [Backend β]

theorem keeps_size : Keeps (size : Op β Outcome) := by
  apply keeps_state.bind
  intro stream
  split
  · exact (keeps_call _).bind keeps_conclude
  · exact keeps_unsupported

theorem keeps_write (source : Bytes) : Keeps (write source : Op β Outcome) := by
  rw [write]
  split
  · exact keeps_pure _
  · apply keeps_state.bind
    intro stream
    split
    · exact (keeps_call _).bind keeps_conclude
    · exact keeps_unsupported

theorem keeps_seek (offset : Int) (origin : Origin) : Keeps (seek offset origin : Op β Outcome) := by
  intro stream hGuarded
  rw [seek, Action.result_bind_of_ok (Action.result_state stream)]
  split
  · cases hFailure : stream.failure with
    | some code =>
        have hCode := (hGuarded.seals hFailure).failed
        exact keeps_serveStub hCode (fun _ => keeps_pure (Outcome.failed code)) stream hGuarded
    | none => exact follows_bind (follows_callOnWindow hGuarded hFailure _) keeps_conclude
  · exact keeps_unsupported stream hGuarded

theorem keeps_close : Keeps (close : Op β Code) := by
  apply keeps_state.bind
  intro stream
  split
  · exact (keeps_call _).bind fun _ => (keeps_emit _).bind fun _ => keeps_pure _
  · exact keeps_pure _

theorem keeps_read (count : Nat) : Keeps (read count : Op β Transfer) := by
  rw [read]
  split
  · exact keeps_pure _
  · apply keeps_state.bind
    intro stream
    dsimp only
    split
    · exact (keeps_call _).bind fun _ => (keeps_conclude _).bind fun _ => keeps_pure _
    · split
      · exact keeps_bufferedRead count
      · exact keeps_unsupported.bind fun _ => keeps_pure _

omit [Backend β] in
theorem keeps_reject {α : Type} (code : Code) (error : Error) :
    Keeps (reject code error : Attempt β α) :=
  (keeps_record code).lift.bind fun _ => keeps_stop _

theorem keeps_readWord (order : ByteOrder) (width : Nat) :
    Keeps (readWord order width : Attempt β (Word width)) := by
  apply (keeps_read width).lift.bind
  intro transfer
  apply (keeps_ofError _).bind
  intro count
  split
  · exact keeps_pure _
  · exact keeps_stop _

theorem keeps_readMember {α : Type} (enumeration : Enumeration α) (order : ByteOrder) :
    Keeps (readMember enumeration order : Attempt β α) := by
  apply (keeps_readWord order enumeration.scalar.width).bind
  intro word
  split
  · exact keeps_pure _
  · exact keeps_reject _ _

end Operations

end Bytestream.Stream

namespace Bytestream.Chunk

variable {β : Type} [Backend β]

open Bytestream.Stream

theorem keeps_readHeader (config : ChunkConfig) :
    Keeps (readHeader config : Attempt β ChunkHeader) := by
  have hFields : Keeps (ChunkHeader.read config.order : Attempt β ChunkHeader) :=
    (keeps_readWord _ _).bind fun _ => (keeps_readWord _ _).bind fun _ =>
      (keeps_readWord _ _).bind fun _ => keeps_pure _
  apply hFields.bind
  intro header
  dsimp only
  split
  · exact keeps_reject _ _
  · exact (keeps_emit _).bind fun _ => keeps_pure header

theorem keeps_takePayload (rounds wanted : Nat) (sum : Word 4) :
    Keeps (takePayload rounds wanted sum : Attempt β (Bytes × Word 4)) := by
  induction rounds generalizing wanted sum with
  | zero => exact keeps_pure _
  | succ rounds ih =>
      rcases Nat.eq_zero_or_pos wanted with rfl | hWanted
      · exact keeps_pure _
      · rw [takePayload_of_pos hWanted]
        apply keeps_state.bind
        intro stream
        have hRound : Keeps (do
            let piece := (← lift unread).take wanted
            lift (consume piece.length)
            let later ← takePayload rounds (wanted - piece.length) (crc32 piece sum)
            return (piece ++ later.1, later.2) : Attempt β (Bytes × Word 4)) :=
          keeps_unread.lift.bind fun _ => (keeps_consume _).lift.bind fun _ =>
            (ih _ _).bind fun _ => keeps_pure _
        dsimp only
        split
        · exact keeps_refill.lift.bind fun _ => (keeps_ofError _).bind fun _ => hRound
        · exact hRound

theorem keeps_readPayload (size : Nat) (seed : Word 4) :
    Keeps (readPayload size seed : Attempt β (Bytes × Word 4)) := by
  apply keeps_state.bind
  intro stream
  split
  · exact (keeps_takePayload _ _ _).bind fun _ => (keeps_emit _).bind fun _ => keeps_pure _
  · exact (keeps_read size).lift.bind fun _ => (keeps_ofError _).bind fun _ => keeps_pure _

theorem keeps_readPayloadVerified [Memory] (header : ChunkHeader) (config : ChunkConfig) :
    Keeps (readPayloadVerified header config : Attempt β (Bytes × Word 4)) := by
  rw [readPayloadVerified]
  dsimp only
  split
  · exact keeps_reject _ _
  · apply (keeps_readPayload _ _).bind
    rintro ⟨payload, computed⟩
    apply (keeps_readWord config.order 4).bind
    intro stored
    split
    · exact (keeps_record _).lift.bind fun _ => (keeps_emit _).bind fun _ => keeps_stop _
    · exact keeps_pure _

theorem keeps_read [Memory] (config : ChunkConfig) : Keeps (Chunk.read config : Attempt β Chunk) :=
  (keeps_readHeader config).bind fun header =>
    (keeps_readPayloadVerified header config).bind fun _ => keeps_pure _

theorem keeps_skip (header : ChunkHeader) : Keeps (skip header : Attempt β Unit) := by
  rw [skip]
  split
  · exact keeps_reject _ _
  · exact (keeps_seek _ _).lift.bind fun _ => (keeps_ofError _).bind fun _ => keeps_pure _

end Bytestream.Chunk
