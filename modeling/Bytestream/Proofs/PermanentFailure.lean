import Bytestream.Backend.ReadOnly
import Bytestream.Proofs.FailedStream

/-!
A stream that failed for good stays failed. No run of operations brings it back or changes its
code, every read from it is refused, and the zeros of its stub are never handed out as data.
-/

namespace Bytestream

/-- A step in the use of a stream: what a stream does itself, and the ways of reading on top. -/
inductive Command : Type 1 where
  | size
  | read (count : Nat)
  | bufferedRead (count : Nat)
  | write (source : Bytes)
  | seek (offset : Int) (origin : Origin)
  | refill
  | consume (count : Nat)
  | resetErrorState
  | readWord (order : ByteOrder) (width : Nat)
  | readMember {α : Type} (enumeration : Enumeration α) (order : ByteOrder)
  | readHeader (config : ChunkConfig)
  | readPayload (header : ChunkHeader) (config : ChunkConfig)
  | readChunk (config : ChunkConfig)
  | skipChunk (header : ChunkHeader)

namespace Command

open Bytestream.Stream

variable {β : Type} [Backend β]

/-- Carries out a command. The user goes on whatever it comes to, short of a fault. -/
def perform [Memory] : Command → Op β Unit
  | size => do let _ ← Stream.size
  | read count => do let _ ← Stream.read count
  | bufferedRead count => do let _ ← Stream.bufferedRead count
  | write source => do let _ ← Stream.write source
  | seek offset origin => do let _ ← Stream.seek offset origin
  | refill => do let _ ← Stream.refill
  | consume count => Stream.consume count
  | resetErrorState => do let _ ← Stream.resetErrorState
  | readWord order width => do let _ ← Action.attempt (Stream.readWord order width)
  | readMember enumeration order => do let _ ← Action.attempt (Stream.readMember enumeration order)
  | readHeader config => do let _ ← Action.attempt (Chunk.readHeader config)
  | readPayload header config => do let _ ← Action.attempt (Chunk.readPayloadVerified header config)
  | readChunk config => do let _ ← Action.attempt (Chunk.read config)
  | skipChunk header => do let _ ← Action.attempt (Chunk.skip header)

/-- Carries out commands in order. -/
def performAll [Memory] : List Command → Op β Unit
  | [] => return ()
  | command :: later => do
      command.perform
      performAll later

/-- What the user owes: bytes are consumed only if they are available, and only an exhausted window
is refilled. -/
def Permitted : Command → Stream β → Prop
  | consume count, stream => count ≤ stream.available
  | refill, stream => stream.window.exhausted = true
  | _, _ => True

theorem keeps_perform [Memory] (command : Command) : Keeps (command.perform : Op β Unit) := by
  cases command with
  | size => exact keeps_size.bind fun _ => keeps_pure ()
  | read count => exact (keeps_read count).bind fun _ => keeps_pure ()
  | bufferedRead count => exact (keeps_bufferedRead count).bind fun _ => keeps_pure ()
  | write source => exact (keeps_write source).bind fun _ => keeps_pure ()
  | seek offset origin => exact (keeps_seek offset origin).bind fun _ => keeps_pure ()
  | refill => exact keeps_refill.bind fun _ => keeps_pure ()
  | consume count => exact keeps_consume count
  | resetErrorState => exact keeps_resetErrorState.bind fun _ => keeps_pure ()
  | readWord order width => exact (keeps_readWord order width).attempt.bind fun _ => keeps_pure ()
  | readMember enumeration order =>
      exact (keeps_readMember enumeration order).attempt.bind fun _ => keeps_pure ()
  | readHeader config => exact (Chunk.keeps_readHeader config).attempt.bind fun _ => keeps_pure ()
  | readPayload header config =>
      exact (Chunk.keeps_readPayloadVerified header config).attempt.bind fun _ => keeps_pure ()
  | readChunk config => exact (Chunk.keeps_read config).attempt.bind fun _ => keeps_pure ()
  | skipChunk header => exact (Chunk.keeps_skip header).attempt.bind fun _ => keeps_pure ()

/-- The guard is kept over every run. The induction is on the commands. -/
theorem keeps_performAll [Memory] (commands : List Command) :
    Keeps (performAll commands : Op β Unit) := by
  induction commands with
  | nil => exact keeps_pure ()
  | cons command later ih => exact command.keeps_perform.bind fun _ => ih

/-- On a stream that failed for good a command never stops at a fault of the program, only at a
misuse. -/
theorem proceeds_of_gone [Memory] {stream : Stream β} {code : Code} (hGone : stream.Gone code)
    {command : Command} (hPermitted : command.Permitted stream) :
    Proceeds command.perform stream := by
  have hDone {α : Type} {operation : Op β α} (hProceeds : Proceeds operation stream) :
      Proceeds (do let _ ← operation) stream := hProceeds.bind fun _ _ => proceeds_pure ()
  have hTransfer {count : Nat} {operation : Nat → Op β Transfer}
      (hNone : operation 0 = pure (.none (.done 0)))
      (hSome : 0 < count → ∃ kept after, kept ≠ .success ∧
        (operation count).result stream = (.ok ⟨.failed kept, []⟩, after)) :
      Proceeds (operation count) stream := by
    rcases Nat.eq_zero_or_pos count with rfl | hCount
    · rw [hNone]
      exact proceeds_pure _
    · obtain ⟨kept, after, -, hRun⟩ := hSome hCount
      exact ⟨_, after, hRun⟩
  cases command with
  | size => exact hDone (proceeds_size stream)
  | read count => exact hDone (hTransfer rfl hGone.read)
  | bufferedRead count => exact hDone (hTransfer rfl hGone.bufferedRead)
  | write source => exact hDone (proceeds_write source stream)
  | seek offset origin =>
      obtain ⟨reported, after, -, hRun⟩ := hGone.seek_fails offset origin
      exact hDone ⟨_, after, hRun⟩
  | refill =>
      obtain ⟨after, hRun, -⟩ := hGone.refill hPermitted
      exact hDone ⟨_, after, hRun⟩
  | consume count =>
      obtain ⟨window, -, hRun⟩ := consume_of_available hPermitted
      exact ⟨_, _, hRun⟩
  | resetErrorState => exact hDone hGone.proceeds_resetErrorState
  | readWord order width => exact hDone (hGone.settles_readWord order width).proceeds
  | readMember enumeration order =>
      exact hDone (hGone.settles_readMember enumeration order).proceeds
  | readHeader config => exact hDone (Settles.proceeds (.inl (hGone.readHeader config)))
  | readPayload header config =>
      exact hDone (Settles.proceeds (.inl (hGone.readPayloadVerified header config)))
  | readChunk config => exact hDone (Settles.proceeds (.inl (hGone.readChunk config)))
  | skipChunk header => exact hDone (Settles.proceeds (.inl (hGone.skipChunk header)))

end Command

namespace Stream

variable {β : Type} [Backend β] {stream after : Stream β} {code : Code}

/-- A read of any bytes yields none, under a failure, and leaves its destination as it was. -/
def ReadsNothing (operation : Nat → Op β Transfer) (stream : Stream β) : Prop :=
  ∀ destination : Bytes, destination ≠ [] →
    ∃ transfer last, (operation destination.length).result stream = (.ok transfer, last) ∧
      transfer.outcome.value = 0 ∧ transfer.outcome.code ≠ .success ∧
      transfer.fill destination = destination

/-- What can still be seen of a stream that failed for good: its code, zeros in its window, and no
data by any way of reading. -/
structure Inert [Memory] (stream : Stream β) (code : Code) : Prop where
  failure_eq : stream.failure = some code
  failed : code ≠ .success
  guarded : stream.errorState ≠ .success ∨ stream.window.exhausted = true
  unread : Stream.unread.result stream = (.ok (List.replicate stream.available 0), stream)
  read : stream.ReadsNothing Stream.read
  bufferedRead : stream.ReadsNothing Stream.bufferedRead
  seek : stream.capabilities.seek = true → ∀ offset origin,
    ∃ last, (Stream.seek offset origin).result stream = (.ok (.failed code), last)
  refill : stream.window.exhausted = true →
    ∃ last, Action.result Stream.refill stream = (.ok code, last)
  readWord : ∀ order width, 0 < width → Refused (Stream.readWord order width) stream
  readMember : ∀ {α : Type} (enumeration : Enumeration α) order, 0 < enumeration.scalar.width →
    Refused (Stream.readMember enumeration order) stream
  readHeader : ∀ config, Refused (Chunk.readHeader config) stream
  readChunk : ∀ config, Refused (Chunk.read config) stream
  readPayload : ∀ header config, Refused (Chunk.readPayloadVerified header config) stream
  proceeds : ∀ command : Command, command.Permitted stream → Proceeds command.perform stream

omit [Backend β] in
theorem readsNothing_of_failed {operation : Nat → Op β Transfer}
    (hFailed : ∀ {count : Nat}, 0 < count → ∃ kept last, kept ≠ .success ∧
      (operation count).result stream = (.ok ⟨.failed kept, []⟩, last)) :
    stream.ReadsNothing operation := by
  intro destination hSome
  obtain ⟨kept, last, hKept, hRun⟩ := hFailed (List.length_pos_iff.mpr hSome)
  refine ⟨_, last, hRun, rfl, hKept, ?_⟩
  rw [Transfer.fill, List.take_nil, List.nil_append]
  rfl

theorem Gone.inert [Memory] (hGone : stream.Gone code) : stream.Inert code where
  failure_eq := hGone.failure_eq
  failed := hGone.isSealed.failed
  guarded := hGone.isSealed.guarded
  unread := hGone.unread
  read := readsNothing_of_failed hGone.read
  bufferedRead := readsNothing_of_failed hGone.bufferedRead
  seek := hGone.seek
  refill hExhausted := by
    obtain ⟨last, hRun, -⟩ := hGone.refill hExhausted
    exact ⟨last, hRun⟩
  readWord order _ hSome := hGone.readWord order hSome
  readMember enumeration order hSome := hGone.readMember enumeration order hSome
  readHeader := hGone.readHeader
  readChunk := hGone.readChunk
  readPayload := hGone.readPayloadVerified
  proceeds _ hPermitted := Command.proceeds_of_gone hGone hPermitted

/-- However the stream is used from here on, it stays inert under this code. -/
def FailedForGood [Memory] (stream : Stream β) (code : Code) : Prop :=
  ∀ commands after, (Command.performAll commands).result stream = (.ok (), after) →
    after.Inert code

theorem Gone.failedForGood [Memory] (hGone : stream.Gone code) : stream.FailedForGood code :=
  fun commands _ hRun => (hGone.of_keeps (Command.keeps_performAll commands) hRun).inert

/-- What becomes of a refill when the backend of a healthy stream was asked. -/
theorem refill_of_call (hOffers : stream.capabilities.bufferedRead = true)
    (hExhausted : stream.window.exhausted = true) (hHealthy : stream.failure = none)
    {reported : Code} (hRefill : Action.result refill stream = (.ok reported, after)) :
    ∃ code, (Backend.refill stream.backend stream.window).value = .ok code ∧
      (code = .success ∧ reported = .success ∨ code ≠ .success ∧ after.failure = some code) := by
  let reply := Backend.refill stream.backend stream.window
  let called : Stream β := { stream with backend := reply.state.1, window := reply.state.2 }
  have hCalled : (callOnWindow Backend.refill).result stream = (reply.value, called) := rfl
  have hUnfailed : called.failure = none := hHealthy
  rw [refill_eq_call hOffers hExhausted hHealthy, Action.result_bind, hCalled] at hRefill
  cases hReply : reply.value with
  | error fault =>
      rw [hReply] at hRefill
      cases hRefill
  | ok code =>
      rw [hReply] at hRefill
      dsimp only at hRefill
      refine ⟨code, rfl, ?_⟩
      by_cases hCode : code = .success
      · rw [if_pos (by rwa [Code.isSuccess_iff]), Action.result_bind] at hRefill
        split at hRefill
        · cases hRefill
          exact .inl ⟨hCode, hCode⟩
        · cases hRefill
      · obtain ⟨kept, last, hSealed, -, -, hServed⟩ :=
          @serveStub_seals β called code Code (by rwa [hUnfailed]) hCode pure
        rw [bind_pure] at hServed
        rw [if_neg (by rwa [Code.isSuccess_iff]),
          Action.result_bind_of_ok (Action.result_emit _ called), hServed] at hRefill
        cases hRefill
        rw [hUnfailed] at hSealed
        exact .inr ⟨hCode, hSealed.failure_eq⟩

/-- A refill that reports a failure leaves one for good: the code that the backend gave, or the one
that the stream had before. -/
theorem failure_of_refill {reported : Code} (hGuarded : stream.Guarded)
    (hRefill : Action.result refill stream = (.ok reported, after))
    (hReported : reported ≠ .success) :
    ∃ code, after.failure = some code ∧ (stream.failure = none →
      (Backend.refill stream.backend stream.window).value = .ok code) := by
  have hExhausted : stream.window.exhausted = true := by
    cases hUnread : stream.window.exhausted with
    | true => rfl
    | false =>
        rw [refill, Action.result_bind_of_ok (Action.result_state stream),
          hGuarded.window_only.2, hUnread] at hRefill
        cases hRefill
  cases hFailure : stream.failure with
  | some code =>
      have hFollows := keeps_refill stream hGuarded
      rw [hRefill] at hFollows
      exact ⟨code, hFollows.2 code hFailure, fun hHealthy => by cases hHealthy⟩
  | none =>
      obtain ⟨code, hCall, ⟨-, hSuccess⟩ | ⟨-, hFailed⟩⟩ :=
        refill_of_call hGuarded.window_only.2 hExhausted hFailure hRefill
      · exact absurd hSuccess hReported
      · exact ⟨code, hFailed, fun _ => hCall⟩

/-- On a stream that is read through its window alone a failed refill is final. From it on, and
likewise wherever a read or any other command met such a failure, no run of commands changes the
code, shows anything but zeros, or reads any data. -/
theorem failure_is_final [Memory] {start reached : Stream β} {earlier : List Command}
    (hOnly : start.capabilities.read = false ∧ start.capabilities.bufferedRead = true)
    (hHealthy : start.failure = none)
    (hReached : (Command.performAll earlier).result start = (.ok (), reached)) :
    (∀ reported last, Action.result refill reached = (.ok reported, last) → reported ≠ .success →
      ∃ code, last.FailedForGood code ∧ (reached.failure = none →
        (Backend.refill reached.backend reached.window).value = .ok code)) ∧
    ∀ code, reached.failure = some code → reached.FailedForGood code := by
  have hFollows := Command.keeps_performAll earlier start (guarded_of_healthy hOnly hHealthy)
  rw [hReached] at hFollows
  have hGuarded := hFollows.1
  refine ⟨fun reported last hRefill hReported => ?_, fun code hFailure => ?_⟩
  · obtain ⟨code, hFailure, hGiven⟩ := failure_of_refill hGuarded hRefill hReported
    have hLast := keeps_refill reached hGuarded
    rw [hRefill] at hLast
    exact ⟨code, Gone.failedForGood ⟨hLast.1, hFailure⟩, hGiven⟩
  · exact Gone.failedForGood ⟨hGuarded, hFailure⟩

/-- A stream on a memory of no bytes, as it is opened. -/
def emptyMemory : Stream ReadOnly where
  backend := ⟨[]⟩
  capabilities := { size := true, seek := true, bufferedRead := true }
  window := Window.empty

/-- A reset does not bring it back, and a payload that could be taken off the stub in full is still
refused: three of its zeros are gone for that, and no chunk was read. -/
theorem failure_is_final_of_emptyMemory :
    (emptyMemory.capabilities.read = false ∧ emptyMemory.capabilities.bufferedRead = true) ∧
      emptyMemory.failure = none ∧
      (Command.performAll []).result emptyMemory = (.ok (), emptyMemory) ∧
      ∃ failed, Action.result refill emptyMemory = (.ok .endOfStream, failed) ∧
        ∃ after, (Command.performAll [.resetErrorState, .refill, .consume 3, .seek 0 .start,
            .consume 3, .readPayload ⟨7, 2, 3⟩ {}]).result failed = (.ok (), after) ∧
          after.available = 10 ∧ after.Inert .endOfStream := by
  have hOnly : emptyMemory.capabilities.read = false ∧
      emptyMemory.capabilities.bufferedRead = true := ⟨rfl, rfl⟩
  have hReached : (Command.performAll []).result emptyMemory = (.ok (), emptyMemory) := rfl
  have hRefill : Action.result refill emptyMemory =
      (.ok .endOfStream, (Action.result refill emptyMemory).2) := rfl
  obtain ⟨code, hFinal, hGiven⟩ := (failure_is_final hOnly rfl hReached).1 _ _ hRefill (by decide)
  obtain rfl : Code.endOfStream = code := Except.ok.inj (hGiven rfl)
  have hInert := hFinal [.resetErrorState, .refill, .consume 3, .seek 0 .start, .consume 3,
    .readPayload ⟨7, 2, 3⟩ {}] _ rfl
  exact ⟨hOnly, rfl, hReached, _, hRefill, _, rfl, rfl, hInert⟩

end Stream

end Bytestream
