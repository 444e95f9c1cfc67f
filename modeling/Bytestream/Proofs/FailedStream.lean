import Bytestream.Proofs.FailureGuard

/-!
What the operations come to on a stream that failed for good. Reads of every kind are refused, also
where zeros of the stub are unread, and none of them stops at a fault.
-/

namespace Bytestream

namespace Stream

section Refusals

variable {β α γ : Type}

/-- The action stops at an error, and not at a fault. -/
def Refused (action : Attempt β α) (stream : Stream β) : Prop :=
  ∃ error last, action.result stream = (.error (.error error), last)

/-- The action stops at no fault. -/
def Settles (action : Attempt β α) (stream : Stream β) : Prop :=
  Refused action stream ∨ ∃ value last, action.result stream = (.ok value, last)

/-- The operation yields a value. -/
def Proceeds (operation : Op β α) (stream : Stream β) : Prop :=
  ∃ value last, operation.result stream = (.ok value, last)

variable {stream last : Stream β}

theorem Refused.bind {first : Attempt β α} (hRefused : Refused first stream)
    (next : α → Attempt β γ) : Refused (first >>= next) stream := by
  obtain ⟨error, last, hRun⟩ := hRefused
  exact ⟨error, last, Action.result_bind_of_error hRun next⟩

theorem refused_bind_of_ok {first : Attempt β α} {next : α → Attempt β γ} {value : α}
    (hFirst : first.result stream = (.ok value, last)) (hNext : Refused (next value) last) :
    Refused (first >>= next) stream := by
  obtain ⟨error, after, hRun⟩ := hNext
  exact ⟨error, after, by rw [Action.result_bind_of_ok hFirst, hRun]⟩

/-- An outcome with a failure stops whatever wanted its value. -/
theorem refused_of_outcome {outcome : Outcome} (hFailed : outcome.code ≠ .success)
    (next : Nat → Attempt β α) : Refused (liftM outcome.toExcept >>= next) stream := by
  rw [Outcome.toExcept_of_failure hFailed]
  exact ⟨_, stream, rfl⟩

theorem Proceeds.bind {first : Op β α} {next : α → Op β γ} (hFirst : Proceeds first stream)
    (hNext : ∀ value last, Proceeds (next value) last) : Proceeds (first >>= next) stream := by
  obtain ⟨value, last, hRun⟩ := hFirst
  obtain ⟨result, after, hRest⟩ := hNext value last
  exact ⟨result, after, by rw [Action.result_bind_of_ok hRun, hRest]⟩

theorem proceeds_pure (value : α) : Proceeds (pure value : Op β α) stream :=
  ⟨value, stream, rfl⟩

theorem Settles.proceeds {action : Attempt β α} (hSettles : Settles action stream) :
    Proceeds (Action.attempt action) stream := by
  rcases hSettles with ⟨error, last, hRun⟩ | ⟨value, last, hRun⟩
  · exact ⟨.error error, last, Action.result_attempt_of_error hRun⟩
  · exact ⟨.ok value, last, Action.result_attempt_of_ok hRun⟩

theorem proceeds_record (code : Code) (stream : Stream β) : Proceeds (record code) stream := by
  by_cases hClean : stream.errorState = .success
  · exact ⟨_, _, result_record_of_clean hClean code⟩
  · exact ⟨_, _, result_record_of_failed hClean code⟩

theorem proceeds_conclude (outcome : Outcome) (stream : Stream β) :
    Proceeds (conclude outcome) stream := by
  apply (proceeds_record outcome.code stream).bind
  intro code last
  split
  · exact proceeds_pure _
  · exact proceeds_pure _

theorem proceeds_unsupported (stream : Stream β) : Proceeds unsupported stream :=
  (proceeds_record _ stream).bind fun _ _ => proceeds_pure _

theorem proceeds_size [Backend β] (stream : Stream β) : Proceeds size stream := by
  rw [Proceeds, size, Action.result_bind_of_ok (Action.result_state stream)]
  split
  · exact Proceeds.bind ⟨_, _, rfl⟩ proceeds_conclude
  · exact proceeds_unsupported stream

theorem proceeds_write [Backend β] (source : Bytes) (stream : Stream β) :
    Proceeds (write source) stream := by
  rw [Proceeds, write]
  split
  · exact proceeds_pure _
  · rw [Action.result_bind_of_ok (Action.result_state stream)]
    split
    · exact Proceeds.bind ⟨_, _, rfl⟩ proceeds_conclude
    · exact proceeds_unsupported stream

theorem refused_reject (code : Code) (error : Error) (stream : Stream β) :
    Refused (reject code error : Attempt β α) stream := by
  obtain ⟨kept, last, hRecord⟩ := proceeds_record code stream
  exact refused_bind_of_ok (result_lift_of_ok hRecord) ⟨error, last, rfl⟩

end Refusals

/-- The stream failed for good with this code, and its guard holds. -/
structure Gone {β : Type} (stream : Stream β) (code : Code) : Prop where
  guarded : stream.Guarded
  failure_eq : stream.failure = some code

namespace Gone

variable {β : Type} {stream after : Stream β} {code : Code}

theorem isSealed (hGone : stream.Gone code) : stream.Sealed code :=
  hGone.guarded.seals hGone.failure_eq

theorem of_follows (hGone : stream.Gone code) (hFollows : after.Follows stream) :
    after.Gone code :=
  ⟨hFollows.1, hFollows.2 code hGone.failure_eq⟩

theorem of_keeps {ε α : Type} {action : Action ε (Stream β) α} (hGone : stream.Gone code)
    (hKeeps : Keeps action) {result : Except ε α} (hRun : action.result stream = (result, after)) :
    after.Gone code := by
  have hFollows := hKeeps stream hGone.guarded
  rw [hRun] at hFollows
  exact hGone.of_follows hFollows

/-- Serving the stub again leaves the stream under an error. -/
theorem serveStub {α : Type} (hGone : stream.Gone code) (next : Code → Op β α) :
    ∃ kept after, after.errorState ≠ .success ∧ Action.result (do
      serveStub code
      let kept ← record code
      next kept) stream = (next kept).result after := by
  have hCode := hGone.isSealed.failed
  have hKept : stream.failure.getD code ≠ .success := by rwa [hGone.failure_eq, Option.getD_some]
  obtain ⟨kept, after, -, hFailed, -, hServed⟩ := serveStub_seals hKept hCode next
  exact ⟨kept, after, hFailed, hServed⟩

variable [Backend β]

/-- A look at the window shows zeros of the stub. -/
theorem peek (hGone : stream.Gone code) {count : Nat} (hCount : count ≤ stream.window.available) :
    (peek count).result stream = (.ok (List.replicate count 0), stream) := by
  have hOrder := stream.window.cursor_le_stop
  have hStub := hGone.isSealed.on_stub
  have hSlice : stream.shownBytes.slice? stream.window.cursor count =
      some (List.replicate count 0) := by
    simp only [Window.available] at hCount
    rw [shownBytes, hGone.failure_eq, Option.isSome_some, if_pos rfl, Bytes.slice?,
      if_pos (by omega), stub, List.drop_replicate, List.take_replicate, Nat.min_eq_left]
    simp only [stub, List.length_replicate] at hStub
    omega
  simp only [Stream.peek, Action.result_bind, Action.result_state, hSlice, Action.result_pure]

theorem unread (hGone : stream.Gone code) :
    unread.result stream = (.ok (List.replicate stream.available 0), stream) := by
  rw [Stream.unread, Action.result_bind_of_ok (Action.result_state stream)]
  exact hGone.peek (Nat.le_refl _)

theorem refill (hGone : stream.Gone code) (hExhausted : stream.window.exhausted = true) :
    ∃ after, Action.result refill stream = (.ok code, after) ∧ after.errorState ≠ .success := by
  obtain ⟨kept, after, hFailed, hServed⟩ := hGone.serveStub fun _ => pure code
  refine ⟨after, ?_, hFailed⟩
  simp only [Stream.refill, Action.result_bind_of_ok (Action.result_state stream),
    hGone.guarded.window_only.2, hExhausted, hGone.failure_eq, Bool.not_true, Bool.false_eq_true,
    if_false]
  rw [hServed, Action.result_pure]

theorem seek (hGone : stream.Gone code) (hOffers : stream.capabilities.seek = true) (offset : Int)
    (origin : Origin) :
    ∃ after, (seek offset origin).result stream = (.ok (.failed code), after) := by
  obtain ⟨kept, after, -, hServed⟩ := hGone.serveStub fun _ => pure (Outcome.failed code)
  refine ⟨after, ?_⟩
  rw [Stream.seek, Action.result_bind_of_ok (Action.result_state stream), if_pos hOffers,
    hGone.failure_eq]
  exact hServed

/-- Whether a seek is offered or not, it goes nowhere. -/
theorem seek_fails (hGone : stream.Gone code) (offset : Int) (origin : Origin) :
    ∃ reported after, reported ≠ .success ∧
      (Stream.seek offset origin).result stream = (.ok (.failed reported), after) := by
  by_cases hOffers : stream.capabilities.seek = true
  · obtain ⟨after, hSeek⟩ := hGone.seek hOffers offset origin
    exact ⟨code, after, hGone.isSealed.failed, hSeek⟩
  · obtain ⟨kept, after, hRecord⟩ := proceeds_record .invalidOperation stream
    refine ⟨.invalidOperation, after, by decide, ?_⟩
    rw [Stream.seek, Action.result_bind_of_ok (Action.result_state stream), if_neg hOffers,
      unsupported, Action.result_bind_of_ok hRecord, Action.result_pure]

omit [Backend β] in
theorem proceeds_resetErrorState (hGone : stream.Gone code) : Proceeds resetErrorState stream := by
  rw [Proceeds, resetErrorState, Action.result_bind_of_ok (Action.result_state stream),
    hGone.failure_eq]
  exact ⟨_, _, rfl⟩

/-- Where the error was reset the window is exhausted, and the refill that a read asks for then
brings the error back. -/
theorem refillIfExhausted (hGone : stream.Gone code) :
    ∃ after, Action.result refillIfExhausted stream = (.ok (), after) ∧
      after.errorState ≠ .success := by
  cases hExhausted : stream.window.exhausted with
  | true =>
      obtain ⟨after, hRefill, hFailed⟩ := hGone.refill hExhausted
      exact ⟨after, refillIfExhausted_of_refill hExhausted hRefill, hFailed⟩
  | false =>
      refine ⟨stream, refillIfExhausted_of_unread hExhausted, hGone.isSealed.guarded.resolve_right ?_⟩
      rw [hExhausted]
      exact Bool.false_ne_true

theorem bufferedRead (hGone : stream.Gone code) {count : Nat} (hSome : 0 < count) :
    ∃ kept after, kept ≠ .success ∧
      (bufferedRead count).result stream = (.ok ⟨.failed kept, []⟩, after) := by
  obtain ⟨after, hRefill, hFailed⟩ := hGone.refillIfExhausted
  have hTaken : (takeBuffered count count).result stream = (.ok [], after) := by
    obtain ⟨rounds, rfl⟩ : ∃ rounds, count = rounds + 1 := ⟨count - 1, by omega⟩
    exact takeBuffered_of_failing hSome hRefill hFailed
  exact ⟨after.errorState, after, hFailed,
    bufferedRead_of_taken hGone.guarded.window_only.2 hSome hTaken⟩

theorem read (hGone : stream.Gone code) {count : Nat} (hSome : 0 < count) :
    ∃ kept after, kept ≠ .success ∧
      (read count).result stream = (.ok ⟨.failed kept, []⟩, after) := by
  rw [read_of_window_only hGone.guarded.window_only hSome]
  exact hGone.bufferedRead hSome

theorem readWord (hGone : stream.Gone code) (order : ByteOrder) {width : Nat} (hSome : 0 < width) :
    Refused (readWord order width) stream := by
  obtain ⟨kept, after, hKept, hRead⟩ := hGone.read hSome
  exact refused_bind_of_ok (result_lift_of_ok hRead) (refused_of_outcome hKept _)

theorem readMember (hGone : stream.Gone code) {α : Type} (enumeration : Enumeration α)
    (order : ByteOrder) (hSome : 0 < enumeration.scalar.width) :
    Refused (readMember enumeration order) stream :=
  (hGone.readWord order hSome).bind _

theorem readHeader (hGone : stream.Gone code) (config : ChunkConfig) :
    Refused (Chunk.readHeader config) stream :=
  ((hGone.readWord config.order (by decide)).bind _).bind _

/-- The payload loop takes unread zeros off the stub. It meets the failure where they run out, and
is done where they do not. -/
theorem takePayload {rounds wanted : Nat} (hGone : stream.Gone code) (hRounds : wanted ≤ rounds)
    (sum : Word 4) : Settles (Chunk.takePayload rounds wanted sum) stream := by
  induction rounds generalizing stream wanted sum with
  | zero =>
      obtain rfl : wanted = 0 := by omega
      exact .inr ⟨_, stream, rfl⟩
  | succ rounds ih =>
      rcases Nat.eq_zero_or_pos wanted with rfl | hWanted
      · exact .inr ⟨_, stream, rfl⟩
      by_cases hEmpty : stream.available = 0
      · have hExhausted : stream.window.exhausted = true := by
          rwa [Window.exhausted_iff]
        obtain ⟨after, hRefill, -⟩ := hGone.refill hExhausted
        exact .inl ⟨_, after, Chunk.takePayload_of_failed_refill hWanted hEmpty hRefill
          hGone.isSealed.failed sum⟩
      · obtain ⟨window, -, hConsume⟩ :=
          consume_of_available (Nat.min_le_right wanted stream.window.available)
        have hLater := hGone.of_keeps (keeps_consume _) hConsume
        have hLength : ((List.replicate stream.available (0 : UInt8)).take wanted).length =
            min wanted stream.window.available := by
          rw [List.length_take, List.length_replicate, available]
        have hFewer : wanted - min wanted stream.window.available ≤ rounds := by
          simp only [available] at hEmpty
          omega
        rw [Settles, Refused, Chunk.takePayload_of_unread hWanted hEmpty hGone.unread hLength
          hConsume]
        rcases ih hLater hFewer (crc32 _ sum) with hRefused | ⟨value, after, hRun⟩
        · exact .inl (hRefused.bind _)
        · exact .inr ⟨_, after, by rw [Action.result_bind_of_ok hRun, Action.result_pure]⟩

theorem readPayload (hGone : stream.Gone code) (size : Nat) (seed : Word 4) :
    Settles (Chunk.readPayload size seed) stream := by
  rw [Settles, Refused, Chunk.readPayload, Action.result_bind_of_ok (Action.result_state stream),
    if_pos hGone.guarded.window_only.2]
  rcases hGone.takePayload (Nat.le_refl size) seed with hRefused | ⟨value, after, hRun⟩
  · exact .inl (hRefused.bind _)
  · exact .inr ⟨value, after, by rw [Action.result_bind_of_ok hRun]; rfl⟩

/-- A payload that was there in full on the stub is still followed by a footer that is not. -/
theorem readPayloadVerified [Memory] (hGone : stream.Gone code) (header : ChunkHeader)
    (config : ChunkConfig) : Refused (Chunk.readPayloadVerified header config) stream := by
  rw [Chunk.readPayloadVerified]
  dsimp only
  split
  · exact refused_reject _ _ stream
  · rcases hGone.readPayload header.dataSize.toNat config.seed with
      hRefused | ⟨value, after, hRun⟩
    · exact hRefused.bind _
    · have hLater := hGone.of_keeps (Chunk.keeps_readPayload _ _) hRun
      exact refused_bind_of_ok hRun ((hLater.readWord config.order (by decide)).bind _)

theorem readChunk [Memory] (hGone : stream.Gone code) (config : ChunkConfig) :
    Refused (Chunk.read config) stream :=
  (hGone.readHeader config).bind _

theorem skipChunk (hGone : stream.Gone code) (header : ChunkHeader) :
    Refused (Chunk.skip header) stream := by
  rw [Chunk.skip]
  split
  · exact refused_reject _ _ stream
  · rename_i offset _
    obtain ⟨reported, after, hFailed, hSeek⟩ := hGone.seek_fails offset .current
    exact refused_bind_of_ok (result_lift_of_ok hSeek) (refused_of_outcome hFailed _)

/-- A word of no bytes is read from any stream. -/
theorem settles_readWord (hGone : stream.Gone code) (order : ByteOrder) (width : Nat) :
    Settles (Stream.readWord order width) stream := by
  rcases Nat.eq_zero_or_pos width with rfl | hSome
  · exact .inr ⟨_, stream, rfl⟩
  · exact .inl (hGone.readWord order hSome)

theorem settles_readMember (hGone : stream.Gone code) {α : Type} (enumeration : Enumeration α)
    (order : ByteOrder) : Settles (Stream.readMember enumeration order) stream := by
  rcases hGone.settles_readWord order enumeration.scalar.width with hRefused | ⟨word, after, hRun⟩
  · exact .inl (hRefused.bind _)
  · rw [Settles, Refused, Stream.readMember, Action.result_bind_of_ok hRun]
    split
    · exact .inr ⟨_, after, rfl⟩
    · exact .inl (refused_reject _ _ after)

end Gone

end Stream

end Bytestream
