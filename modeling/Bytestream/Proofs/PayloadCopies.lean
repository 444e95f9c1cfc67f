import Bytestream.Proofs.WindowBounds

/-!
The two loops that copy off the window. A payload is copied by a loop of its own, which sums each
piece as it goes by and stops at the refill that fails, while a read looks at the error state after
every refill. On a stream without an error both take the same bytes and meet the same end.
-/

namespace Bytestream.Stream

variable {β : Type} [Backend β] [FitsWindow β] {stream : Stream β} {count : Nat}

/-- A piece off the window is cut out of the buffer, as far as it is unread. -/
theorem InBounds.takePiece (hBounds : stream.InBounds) (count : Nat) :
    ∃ behind, behind.InBounds ∧ behind.errorState = stream.errorState ∧
      (Stream.consume (min count stream.available)).result stream = (.ok (), behind) ∧
      (Stream.takePiece count).result stream =
        (.ok ((stream.shownBytes.drop stream.window.cursor).take (min count stream.available)),
          behind) := by
  have hMost : min count stream.available ≤ stream.available := Nat.min_le_right _ _
  have hPeek := hBounds.peek hMost
  obtain ⟨window, hWindow, hConsume⟩ := consume_of_available hMost
  refine ⟨{ stream with window }, ?_, rfl, hConsume, ?_⟩
  · exact hBounds.of_same rfl rfl (Window.of_consume hWindow).2.2.2 rfl
  · rw [Stream.takePiece, Action.result_bind_of_ok (Action.result_state stream),
      Action.result_bind_of_ok hPeek, (length_of_peek hPeek).1, Action.result_bind_of_ok hConsume,
      Action.result_pure]

/-- A round of a payload begins like a round of a read: with a refill where nothing is unread. Where
the refill fails the payload stops with the error that the read then finds in the stream. -/
theorem InBounds.takePayload_begins (hBounds : stream.InBounds)
    (hClean : stream.errorState = .success) {wanted : Nat} (hWanted : 0 < wanted) (rounds : Nat)
    (sum : Word 4) :
    ∃ ready, Action.result Stream.refillIfExhausted stream = (.ok (), ready) ∧ ready.InBounds ∧
      (ready.errorState = .success ∧ ready.available ≠ 0 ∧
          (Chunk.takePayload (rounds + 1) wanted sum).result stream =
            (Chunk.takePayload (rounds + 1) wanted sum).result ready ∨
        ready.errorState ≠ .success ∧
          (Chunk.takePayload (rounds + 1) wanted sum).result stream =
            (.error (.error (Error.ofCode ready.errorState)), ready)) := by
  cases hExhausted : stream.window.exhausted with
  | false =>
      have hSome := (Window.exhausted_eq_false_iff stream.window).mp hExhausted
      exact ⟨stream, refillIfExhausted_of_unread hExhausted, hBounds,
        .inl ⟨hClean, Nat.ne_of_gt hSome, rfl⟩⟩
  | true =>
      have hNone : stream.available = 0 := (Window.exhausted_iff stream.window).mp hExhausted
      obtain ⟨code, ready, hRefill, hReady⟩ := hBounds.refill hExhausted
      have hKept := (refilled_of_result hRefill).errorState_eq
      rw [kept_of_clean hClean] at hKept
      refine ⟨ready, refillIfExhausted_of_refill hExhausted hRefill, hReady, ?_⟩
      by_cases hCode : code = .success
      · subst hCode
        have hSome := Nat.ne_of_gt ((refilled_of_result hRefill).available_pos (.inr (.inl rfl)))
        exact .inl ⟨hKept, hSome, Chunk.takePayload_of_refilled hWanted hNone hRefill hSome sum⟩
      · rw [hKept]
        exact .inr ⟨hCode, Chunk.takePayload_of_failed_refill hWanted hNone hRefill hCode sum⟩

/-- A payload takes what a read of its size would, with the checksum of it, and stops with the error
that the read would leave. The induction is on the rounds, which both loops cut alike. -/
theorem InBounds.takePayload_like_takeBuffered [Memory] (rounds wanted : Nat) (sum : Word 4)
    (hBounds : stream.InBounds) (hClean : stream.errorState = .success) :
    ∃ bytes after, (takeBuffered rounds wanted).result stream = (.ok bytes, after) ∧
      after.InBounds ∧
      (Chunk.takePayload rounds wanted sum).result stream =
        (if after.errorState = .success then .ok (bytes, crc32 bytes sum)
          else .error (.error (Error.ofCode after.errorState)), after) := by
  induction rounds generalizing stream wanted sum with
  | zero =>
      refine ⟨[], stream, rfl, hBounds, ?_⟩
      rw [if_pos hClean, crc32_nil]
      rfl
  | succ rounds ih =>
      rcases Nat.eq_zero_or_pos wanted with rfl | hWanted
      · refine ⟨[], stream, rfl, hBounds, ?_⟩
        rw [if_pos hClean, crc32_nil]
        rfl
      obtain ⟨ready, hRefill, hReady, ⟨hFine, hSome, hRun⟩ | ⟨hFailed, hRun⟩⟩ :=
        hBounds.takePayload_begins hClean hWanted rounds sum
      · obtain ⟨behind, hBehind, hKept, hConsume, hPiece⟩ := hReady.takePiece wanted
        have hLength := length_of_takePiece hPiece
        have hShown := hReady.wellWindowed.unread
        obtain ⟨rest, after, hRest, hAfter, hLater⟩ := ih (wanted - min wanted ready.available)
          (crc32 ((ready.shownBytes.drop ready.window.cursor).take (min wanted ready.available)) sum)
          hBehind (hKept.trans hFine)
        refine ⟨_, after, takeBuffered_of_piece hWanted hRefill hFine hPiece hLength hRest, hAfter, ?_⟩
        rw [hRun, Chunk.takePayload_of_unread hWanted hSome hShown (by rw [List.take_take, hLength])
          hConsume, List.take_take]
        by_cases hLast : after.errorState = .success
        · rw [if_pos hLast] at hLater ⊢
          rw [Action.result_bind_of_ok hLater, Action.result_pure, crc32_append]
        · rw [if_neg hLast] at hLater ⊢
          rw [Action.result_bind_of_error hLater]
      · exact ⟨[], ready, takeBuffered_of_failing hWanted hRefill hFailed, hReady, by
          rw [hRun, if_neg hFailed]⟩

end Bytestream.Stream
