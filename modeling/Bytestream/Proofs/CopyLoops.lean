import Bytestream.Proofs.ErrorState

/-!
The loops that copy off the window. Each round takes at least one byte, so that a loop is over after
as many rounds as bytes are wanted: more rounds change nothing, and it ended with all of them or at
a failure.
-/

namespace Bytestream

namespace Stream

variable {β : Type} [Backend β] {stream after : Stream β} {count : Nat}

theorem length_of_peek {bytes : Bytes} (hRun : (peek count).result stream = (.ok bytes, after)) :
    bytes.length = count ∧ after = stream := by
  rw [peek, Action.result_bind_of_ok (Action.result_state stream)] at hRun
  split at hRun
  · cases hRun
    exact ⟨Bytes.length_of_slice? ‹_›, rfl⟩
  · cases hRun

/-- A piece is as long as what is wanted and unread. -/
theorem length_of_takePiece {piece : Bytes}
    (hRun : (takePiece count).result stream = (.ok piece, after)) :
    piece.length = min count stream.available := by
  rw [takePiece, Action.result_bind_of_ok (Action.result_state stream)] at hRun
  obtain ⟨shown, middle, hShown, hRest⟩ := Action.ok_of_bind hRun
  obtain ⟨hLength, rfl⟩ := length_of_peek hShown
  obtain ⟨_, last, -, hDone⟩ := Action.ok_of_bind hRest
  cases hDone
  exact hLength

/-- A refill that is done brings something in, and the stub is not empty: only a stream without a
window has nothing to show after a refill. -/
theorem Refilled.available_pos {code : Code} (hRefilled : stream.Refilled code after)
    (hOffered : stream.capabilities.bufferedRead = true ∨ code = .success ∨
      after.errorState = .success) : 0 < after.available := by
  have hStub : 0 < (Window.whole stub.length).available := by decide
  cases hRefilled with
  | absent hAbsent =>
      rcases hOffered with hOffers | hCode | hClean
      · exact nomatch hAbsent.symm.trans hOffers
      · cases hCode
      · exact absurd hClean (stream.kept_ne_success (by decide))
  | served => exact hStub
  | filled hHealthy hFilled => exact Nat.sub_pos_of_lt hFilled.cursor_lt
  | failed => exact hStub

theorem available_of_refillIfExhausted
    (hRun : Action.result refillIfExhausted stream = (.ok (), after))
    (hClean : after.errorState = .success) : 0 < after.available := by
  cases hExhausted : stream.window.exhausted with
  | false =>
      rw [refillIfExhausted_of_unread hExhausted] at hRun
      cases hRun
      exact (Window.exhausted_eq_false_iff _).mp hExhausted
  | true =>
      rw [refillIfExhausted, Action.result_bind_of_ok (Action.result_state stream),
        if_pos hExhausted] at hRun
      obtain ⟨code, last, hRefill, hDone⟩ := Action.ok_of_bind hRun
      rw [Action.result_pure] at hDone
      cases hDone
      exact (refilled_of_result hRefill).available_pos (.inr (.inr hClean))

/-- Copying ends without an error only once everything that was wanted was copied. The induction is
on the rounds; each takes at least one byte. -/
theorem length_of_takeBuffered {rounds : Nat} {bytes : Bytes} (hRounds : count ≤ rounds)
    (hRun : (takeBuffered rounds count).result stream = (.ok bytes, after))
    (hClean : after.errorState = .success) : bytes.length = count := by
  induction rounds generalizing stream count bytes with
  | zero =>
      cases hRun
      exact (Nat.le_zero.mp hRounds).symm
  | succ rounds ih =>
      rcases Nat.eq_zero_or_pos count with rfl | hWanted
      · cases hRun
        rfl
      rw [takeBuffered_of_pos hWanted] at hRun
      obtain ⟨_, ready, hRefill, hRound⟩ := Action.ok_of_bind hRun
      rw [Action.result_bind_of_ok (Action.result_state ready)] at hRound
      split at hRound
      · obtain ⟨piece, behind, hPiece, hRest⟩ := Action.ok_of_bind hRound
        obtain ⟨rest, last, hLater, hDone⟩ := Action.ok_of_bind hRest
        cases hDone
        have hSome := available_of_refillIfExhausted hRefill ((Code.isSuccess_iff _).mp ‹_›)
        have hLength := length_of_takePiece hPiece
        rw [List.length_append, ih (by omega) hLater]
        omega
      · cases hRound
        exact absurd ((Code.isSuccess_iff _).mpr hClean) ‹_›

/-- Taking a piece only moves in the window. -/
theorem window_of_takePiece {piece : Bytes}
    (hRun : (takePiece count).result stream = (.ok piece, after)) :
    ∃ window, after = { stream with window } := by
  have hLength := length_of_takePiece hRun
  rw [takePiece, Action.result_bind_of_ok (Action.result_state stream)] at hRun
  obtain ⟨shown, middle, hShown, hRest⟩ := Action.ok_of_bind hRun
  obtain ⟨-, rfl⟩ := length_of_peek hShown
  obtain ⟨_, last, hConsume, hDone⟩ := Action.ok_of_bind hRest
  cases hDone
  obtain ⟨window, -, hStep⟩ :=
    consume_of_available (Nat.le_trans (Nat.le_of_eq hLength) (Nat.min_le_right _ _))
  rw [hStep] at hConsume
  cases hConsume
  exact ⟨window, rfl⟩

theorem errorState_of_takePiece {piece : Bytes}
    (hRun : (takePiece count).result stream = (.ok piece, after)) :
    after.errorState = stream.errorState := by
  obtain ⟨window, rfl⟩ := window_of_takePiece hRun
  rfl

/-- Copying that was stopped by an error did not copy everything. The induction is on the rounds; the
last of them takes all that is still wanted, and nothing is looked for behind it. -/
theorem clean_of_takeBuffered {rounds : Nat} {bytes : Bytes} (hWanted : 0 < count)
    (hRun : (takeBuffered rounds count).result stream = (.ok bytes, after))
    (hWhole : bytes.length = count) : after.errorState = .success := by
  induction rounds generalizing stream count bytes with
  | zero =>
      cases hRun
      exact absurd hWhole (Nat.ne_of_lt hWanted)
  | succ rounds ih =>
      rw [takeBuffered_of_pos hWanted] at hRun
      obtain ⟨_, ready, hRefill, hRound⟩ := Action.ok_of_bind hRun
      rw [Action.result_bind_of_ok (Action.result_state ready)] at hRound
      split at hRound
      · obtain ⟨piece, behind, hPiece, hRest⟩ := Action.ok_of_bind hRound
        obtain ⟨rest, last, hLater, hDone⟩ := Action.ok_of_bind hRest
        rw [Action.result_pure] at hDone
        cases hDone
        rw [List.length_append] at hWhole
        rcases Nat.eq_zero_or_pos (count - piece.length) with hNone | hMore
        · have hNothing : (takeBuffered rounds 0).result behind = (.ok [], behind) := by
            cases rounds <;> rfl
          rw [hNone, hNothing] at hLater
          cases hLater
          rw [errorState_of_takePiece hPiece]
          exact (Code.isSuccess_iff _).mp ‹_›
        · exact ih hMore hLater (by omega)
      · cases hRound
        exact absurd hWhole (Nat.ne_of_lt hWanted)

/-- How many rounds a copy is given does not matter once they are as many as the bytes wanted. -/
theorem takeBuffered_rounds {rounds other : Nat} (hRounds : count ≤ rounds) (hOther : count ≤ other) :
    (takeBuffered rounds count).result stream = (takeBuffered other count).result stream := by
  induction rounds generalizing stream count other with
  | zero =>
      obtain rfl := Nat.le_zero.mp hRounds
      cases other <;> rfl
  | succ rounds ih =>
      rcases Nat.eq_zero_or_pos count with rfl | hWanted
      · cases other <;> rfl
      obtain ⟨other, rfl⟩ : ∃ fewer, other = fewer + 1 := ⟨other - 1, by omega⟩
      rw [takeBuffered_of_pos hWanted, takeBuffered_of_pos hWanted]
      apply Action.result_bind_alike
      intro _ ready hRefill
      rw [Action.result_bind_of_ok (Action.result_state ready),
        Action.result_bind_of_ok (Action.result_state ready)]
      split
      · have hSome := available_of_refillIfExhausted hRefill ((Code.isSuccess_iff _).mp ‹_›)
        apply Action.result_bind_alike
        intro piece behind hPiece
        have hLength := length_of_takePiece hPiece
        exact Action.result_bind_congr (ih (by omega) (by omega)) _
      · rfl

theorem length_of_unread {bytes : Bytes} (hRun : unread.result stream = (.ok bytes, after)) :
    bytes.length = stream.available ∧ after = stream := by
  rw [unread, Action.result_bind_of_ok (Action.result_state stream)] at hRun
  exact length_of_peek hRun

end Stream

namespace Chunk

open Bytestream.Stream (Attempt lift)

variable {β : Type} [Backend β] {stream after : Stream β} {wanted : Nat}

/-- What is wanted and unread. -/
def unreadPiece (wanted : Nat) : Attempt β Bytes := do
  let piece := (← lift Stream.unread).take wanted
  lift (Stream.consume piece.length)
  return piece

/-- One round of a payload: a piece off the window, after a refill where nothing was unread. -/
def payloadPiece (wanted : Nat) : Attempt β Bytes := do
  if (← Action.state).available = 0 then (← lift Stream.refill).toExcept
  unreadPiece wanted

theorem takePayload_of_piece {rounds : Nat} (hWanted : 0 < wanted) (sum : Word 4) :
    (takePayload (rounds + 1) wanted sum : Attempt β (Bytes × Word 4)) = (do
      let piece ← payloadPiece wanted
      let (rest, sum) ← takePayload rounds (wanted - piece.length) (crc32 piece sum)
      return (piece ++ rest, sum)) := by
  rw [takePayload_of_pos hWanted, payloadPiece]
  simp only [unreadPiece, bind_assoc]
  congr 1
  funext stream
  split <;> simp only [bind_assoc, pure_bind]

theorem length_of_unreadPiece {piece : Bytes}
    (hRun : (unreadPiece wanted).result stream = (.ok piece, after)) :
    piece.length = min wanted stream.available := by
  obtain ⟨shown, middle, hShown, hRest⟩ := Action.ok_of_bind hRun
  obtain ⟨hLength, rfl⟩ := Stream.length_of_unread (Stream.ok_of_lift hShown)
  obtain ⟨_, last, -, hDone⟩ := Action.ok_of_bind hRest
  cases hDone
  rw [List.length_take, hLength]

theorem length_of_payloadPiece {piece : Bytes} (hWanted : 0 < wanted)
    (hRun : (payloadPiece wanted).result stream = (.ok piece, after)) :
    0 < piece.length ∧ piece.length ≤ wanted := by
  rw [payloadPiece, Action.result_bind_of_ok (Action.result_state stream)] at hRun
  dsimp only at hRun
  split at hRun
  · obtain ⟨code, ready, hRefill, hChecked⟩ := Action.ok_of_bind hRun
    obtain ⟨_, middle, hCode, hPiece⟩ := Action.ok_of_bind hChecked
    by_cases hDone : code = .success
    · subst hDone
      obtain rfl : ready = middle := (Prod.mk.inj hCode).2
      have hSome := (Stream.refilled_of_result (Stream.ok_of_lift hRefill)).available_pos
          (.inr (.inl rfl))
      rw [length_of_unreadPiece hPiece]
      omega
    · rw [Code.toExcept_of_failure hDone] at hCode
      cases hCode
  · rw [length_of_unreadPiece hRun]
    omega

/-- A payload that was taken is as long as it was to be. The induction is on the rounds; each takes
at least one byte. -/
theorem length_of_takePayload {rounds : Nat} {sum last : Word 4} {payload : Bytes}
    (hRounds : wanted ≤ rounds)
    (hRun : (takePayload rounds wanted sum).result stream = (.ok (payload, last), after)) :
    payload.length = wanted := by
  induction rounds generalizing stream wanted sum payload with
  | zero =>
      cases hRun
      exact (Nat.le_zero.mp hRounds).symm
  | succ rounds ih =>
      rcases Nat.eq_zero_or_pos wanted with rfl | hWanted
      · cases hRun
        rfl
      rw [takePayload_of_piece hWanted] at hRun
      obtain ⟨piece, behind, hPiece, hRest⟩ := Action.ok_of_bind hRun
      obtain ⟨⟨rest, later⟩, _, hLater, hDone⟩ := Action.ok_of_bind hRest
      cases hDone
      obtain ⟨hSome, hMost⟩ := length_of_payloadPiece hWanted hPiece
      rw [List.length_append, ih (by omega) hLater]
      omega

theorem takePayload_rounds {rounds other : Nat} (hRounds : wanted ≤ rounds) (hOther : wanted ≤ other)
    (sum : Word 4) :
    (takePayload rounds wanted sum).result stream = (takePayload other wanted sum).result stream := by
  induction rounds generalizing stream wanted other sum with
  | zero =>
      obtain rfl := Nat.le_zero.mp hRounds
      cases other <;> rfl
  | succ rounds ih =>
      rcases Nat.eq_zero_or_pos wanted with rfl | hWanted
      · cases other <;> rfl
      obtain ⟨other, rfl⟩ : ∃ fewer, other = fewer + 1 := ⟨other - 1, by omega⟩
      rw [takePayload_of_piece hWanted, takePayload_of_piece hWanted]
      apply Action.result_bind_alike
      intro piece behind hPiece
      obtain ⟨hSome, hMost⟩ := length_of_payloadPiece hWanted hPiece
      exact Action.result_bind_congr (ih (by omega) (by omega) _) _

end Chunk

end Bytestream
