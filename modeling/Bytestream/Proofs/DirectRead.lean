import Bytestream.Proofs.Readable

/-!
Backends that copy bytes straight into the destination. One call delivers all that is wanted or
all that is left.
-/

namespace Bytestream

/-- A backend whose reads copy the bytes at its position and move past them. -/
class DirectRead (β : Type) [Backend β] extends Readable β where
  direct_only : (Offering.offers β).read = true ∧ (Offering.offers β).bufferedRead = false
  copies : ∀ {backend : β} {window : Window} {data : Bytes} {position count : Nat},
    Holds backend window data position → 0 < count →
      ∃ after log,
        Backend.read backend count =
          ⟨Transfer.copy count (data.drop position) count, after, log⟩ ∧
        Holds after window data (position + ((data.drop position).take count).length)

variable {β : Type} [Backend β] [DirectRead β]
variable {stream : Stream β} {data : Bytes} {position count : Nat}

/-- A direct read reports the copy that the backend made. -/
theorem Stream.read_delivers_of_direct (hStands : stream.Stands data position .success)
    (hSome : 0 < count) : stream.Delivers (Stream.read count) data position count := by
  obtain ⟨backend, log, hCall, hHolds⟩ := DirectRead.copies hStands.holds hSome
  have hRead : stream.capabilities.read = true := by
    rw [hStands.offered]
    exact DirectRead.direct_only.1
  have hCalled : (Stream.call fun backend : β => Backend.read backend count).result stream =
      (.ok (.copy count (data.drop position) count), { stream with backend }) := by
    simp only [Action.result, Stream.call, hCall]
  have hRun : (Stream.read count).result stream = (.ok (.copy count (data.drop position) count),
      { stream with
        backend
        errorState := (Transfer.copy count (data.drop position) count).outcome.code }) := by
    rw [Stream.read, if_neg (by omega), Action.result_bind_of_ok (Action.result_state stream)]
    dsimp only
    rw [if_pos hRead, Action.result_bind_of_ok hCalled,
      Action.result_bind_of_ok (Stream.result_conclude_of_clean (by exact hStands.errorState_eq) _),
      Action.result_pure]
  refine ⟨_, hRun, ?_, ?_⟩
  · intro hEnough
    rw [Bytes.length_piece hEnough] at hHolds
    refine ⟨hStands.unfailed, hStands.offered, hHolds, ?_⟩
    rw [Transfer.copy_enough (by rwa [List.length_drop])]
    rfl
  · intro hShort
    rw [Transfer.copy_short (by rwa [List.length_drop])]
    rfl

/-- A payload is read with one direct read. -/
theorem Chunk.readPayload_eq_read (hStands : stream.Stands data position .success) (size : Nat)
    (seed : Word 4) :
    (Chunk.readPayload size seed).result stream = Action.result (do
      let transfer ← Stream.lift (Stream.read size)
      let _ ← transfer.outcome.toExcept
      let payload := transfer.fill (List.replicate size 0)
      return (payload, crc32 payload seed)) stream := by
  have hBuffered : stream.capabilities.bufferedRead = false := by
    rw [hStands.offered]
    exact DirectRead.direct_only.2
  rw [Chunk.readPayload, Action.result_bind_of_ok (Action.result_state stream), hBuffered,
    if_neg Bool.false_ne_true]

/-- Copying straight into the destination keeps to the order of the data. -/
instance DirectRead.readsInOrder : ReadsInOrder β where
  read_delivers := Stream.read_delivers_of_direct
  payload_reaches := by
    intro stream data position size seed hStands hEnough
    obtain ⟨after, hRead, hAfter⟩ :=
      Stream.read_reaches_of_delivers hStands (Stream.read_delivers_of_direct hStands) hEnough
    refine ⟨after, ?_, hAfter⟩
    rw [Chunk.readPayload_eq_read hStands,
      Action.result_bind_of_ok (Stream.result_lift_of_ok hRead),
      Outcome.toExcept_of_success (Outcome.code_done size),
      Action.result_bind_of_ok (Action.result_liftM_ok_of_error _ _)]
    dsimp only
    rw [Transfer.fill_piece hEnough, Action.result_pure]
  payload_fails := by
    intro stream data position size seed hStands hShort
    obtain ⟨after, hRead, -, hCode⟩ :=
      Stream.read_delivers_of_direct hStands (by omega : 0 < size)
    rw [Transfer.copy_short (by rwa [List.length_drop])] at hRead
    refine ⟨after, ?_, hCode hShort⟩
    rw [Chunk.readPayload_eq_read hStands,
      Action.result_bind_of_ok (Stream.result_lift_of_ok hRead),
      Outcome.toExcept_of_failure (by exact Code.noConfusion),
      Action.result_bind_of_error (Action.result_liftM_error_of_error _ _)]
    rfl

end Bytestream
