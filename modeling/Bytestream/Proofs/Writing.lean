import Bytestream.Proofs.Offering
import Bytestream.Proofs.Result
import Bytestream.Stream.Codec

/-!
Writing as storing pieces in a byte string, each right behind the one before. What an operation
writes is one piece, however many writes it makes.
-/

namespace Bytestream

namespace Bytes

@[simp] theorem store_nil (bytes : Bytes) (position : Nat) : bytes.store position [] = bytes := rfl

theorem store_of_ne_nil {piece : Bytes} (hPiece : piece ≠ []) (bytes : Bytes) (position : Nat) :
    bytes.store position piece = (bytes.zeroExtend position).overwrite position piece := by
  rw [store, if_neg (by rwa [List.isEmpty_iff])]

theorem zeroExtend_of_le {bytes : Bytes} {length : Nat} (hLength : length ≤ bytes.length) :
    bytes.zeroExtend length = bytes := by
  rw [zeroExtend, Nat.sub_eq_zero_of_le hLength, List.replicate_zero, List.append_nil]

/-- Inside the bytes a piece only replaces what was there. -/
theorem store_of_le {bytes piece : Bytes} {position : Nat} (hPosition : position ≤ bytes.length) :
    bytes.store position piece = bytes.overwrite position piece := by
  by_cases hPiece : piece = []
  · rw [hPiece, store_nil, overwrite, List.append_nil, List.length_nil, Nat.add_zero,
      List.take_append_drop]
  · rw [store_of_ne_nil hPiece, zeroExtend_of_le hPosition]

theorem length_store {piece : Bytes} (hPiece : piece ≠ []) (bytes : Bytes) (position : Nat) :
    (bytes.store position piece).length = max bytes.length (position + piece.length) := by
  rw [store_of_ne_nil hPiece, overwrite]
  simp only [List.length_append, List.length_take, List.length_drop, length_zeroExtend]
  omega

theorem length_le_store (bytes piece : Bytes) (position : Nat) :
    bytes.length ≤ (bytes.store position piece).length := by
  by_cases hPiece : piece = []
  · exact Nat.le_of_eq (by rw [hPiece, store_nil])
  · rw [length_store hPiece]
    exact Nat.le_max_left _ _

theorem drop_zeroExtend (bytes : Bytes) {length count : Nat} (hCount : length ≤ count) :
    (bytes.zeroExtend length).drop count = bytes.drop count := by
  rcases Nat.le_total length bytes.length with hLong | hShort
  · rw [zeroExtend_of_le hLong]
  · rw [List.drop_of_length_le (Nat.le_trans hShort hCount), List.drop_of_length_le]
    rw [length_zeroExtend]
    omega

/-- From the position on there is the piece, and then what was behind it before. -/
theorem drop_store (bytes piece : Bytes) (position : Nat) :
    (bytes.store position piece).drop position = piece ++ bytes.drop (position + piece.length) := by
  by_cases hPiece : piece = []
  · rw [hPiece]
    rfl
  have hFront : ((bytes.zeroExtend position).take position).length = position := by
    rw [List.length_take, length_zeroExtend]
    omega
  rw [store_of_ne_nil hPiece, overwrite, List.append_assoc, List.drop_left' hFront,
    drop_zeroExtend bytes (Nat.le_add_right _ _)]

theorem drop_take_store (bytes piece : Bytes) (position : Nat) :
    ((bytes.store position piece).take (position + piece.length)).drop position = piece := by
  rw [List.drop_take, drop_store, Nat.add_sub_cancel_left, List.take_left]

/-- Two pieces written one behind the other are one piece. -/
theorem store_append (bytes : Bytes) (position : Nat) (first second : Bytes) :
    (bytes.store position first).store (position + first.length) second =
      bytes.store position (first ++ second) := by
  by_cases hFirst : first = []
  · rw [hFirst, store_nil, List.nil_append]
    rfl
  have hReach : position + first.length ≤ (bytes.store position first).length := by
    rw [length_store hFirst]
    exact Nat.le_max_right _ _
  have hPosition : position ≤ (bytes.zeroExtend position).length := by
    rw [length_zeroExtend]
    exact Nat.le_max_right _ _
  have hFront : ((bytes.zeroExtend position).take position ++ first).length =
      position + first.length := by
    rw [List.length_append, List.length_take, Nat.min_eq_left hPosition]
  rw [store_of_le hReach, store_of_ne_nil hFirst, store_of_ne_nil (by simp [hFirst])]
  simp only [overwrite]
  rw [List.take_left' hFront, ← List.drop_drop, List.drop_left' hFront, List.drop_drop,
    List.length_append, Nat.add_assoc, List.append_assoc _ first second]

end Bytes

/-- A backend that stores what is written to it: when it holds some content and stands at a
position in it, and how far a content of some length can be written. -/
class Storage (β : Type) [Backend β] extends Offering β where
  Keeps : β → Bytes → Nat → Prop
  Fits : (length reached : Nat) → Prop
  offers_write : (Offering.offers β).write = true
  fits_mono : ∀ {length longer reached nearer : Nat}, Fits length reached → length ≤ longer →
    nearer ≤ reached → Fits longer nearer
  write_stores : ∀ {backend : β} {content piece : Bytes} {position : Nat},
    Keeps backend content position → piece ≠ [] →
      Fits content.length (position + piece.length) →
      ∃ after log, Backend.write backend piece = ⟨.done piece.length, after, log⟩ ∧
        Keeps after (content.store position piece) (position + piece.length)

namespace Stream

variable {β α γ : Type} [Backend β] [Storage β]

/-- A stream without an error whose backend holds `content` and stands at `position` in it. -/
structure Stores (stream : Stream β) (content : Bytes) (position : Nat) : Prop where
  offered : stream.capabilities = Offering.offers β
  keeps : Storage.Keeps stream.backend content position
  errorState_eq : stream.errorState = .success

/-- Wherever there is room for `piece`, the operation yields `value`, stores exactly that, and does
not fail the stream for good. -/
def Writes (action : Attempt β α) (value : α) (piece : Bytes) : Prop :=
  ∀ (stream : Stream β) (content : Bytes) (position : Nat), stream.Stores content position →
    Storage.Fits β content.length (position + piece.length) →
      ∃ after, action.result stream = (.ok value, after) ∧
        after.Stores (content.store position piece) (position + piece.length) ∧
        after.failure = stream.failure

theorem writes_pure (value : α) : Writes (pure value : Attempt β α) value [] := by
  intro stream content position hStores hFits
  exact ⟨stream, rfl, hStores, rfl⟩

theorem writes_emit (event : Event) : Writes (Action.emit event : Attempt β Unit) () [] := by
  intro stream content position hStores hFits
  exact ⟨stream, rfl, hStores, rfl⟩

/-- What two operations write in sequence is the one piece behind the other. -/
theorem Writes.bind {first : Attempt β α} {next : α → Attempt β γ} {value : α} {answer : γ}
    {piece later : Bytes} (hFirst : Writes first value piece)
    (hNext : Writes (next value) answer later) :
    Writes (first >>= next) answer (piece ++ later) := by
  intro stream content position hStores hFits
  rw [List.length_append, ← Nat.add_assoc] at hFits
  have hLonger := Bytes.length_le_store content piece position
  obtain ⟨middle, hRun, hMiddle, hSpared⟩ :=
    hFirst _ _ _ hStores (Storage.fits_mono hFits (Nat.le_refl _) (Nat.le_add_right _ _))
  obtain ⟨after, hLast, hAfter, hLeft⟩ :=
    hNext _ _ _ hMiddle (Storage.fits_mono hFits hLonger (Nat.le_refl _))
  refine ⟨after, by rw [Action.result_bind_of_ok hRun, hLast], ?_, hLeft.trans hSpared⟩
  rw [← Bytes.store_append, List.length_append, ← Nat.add_assoc]
  exact hAfter

/-- A write with room for all of its source stores it and reports its length. -/
theorem write_stores {stream : Stream β} {content piece : Bytes} {position : Nat}
    (hStores : stream.Stores content position)
    (hFits : Storage.Fits β content.length (position + piece.length)) :
    ∃ after, (write piece).result stream = (.ok (.done piece.length), after) ∧
      after.Stores (content.store position piece) (position + piece.length) ∧
      after.failure = stream.failure := by
  by_cases hPiece : piece = []
  · subst hPiece
    exact ⟨stream, rfl, hStores, rfl⟩
  obtain ⟨backend, log, hCall, hKeeps⟩ := Storage.write_stores hStores.keeps hPiece hFits
  have hCalled : (call (Backend.write · piece)).result stream =
      (.ok (.done piece.length), { stream with backend }) := by
    simp only [Action.result, call, hCall]
  have hWrite : stream.capabilities.write = true := by
    rw [hStores.offered]
    exact Storage.offers_write
  refine ⟨{ stream with backend, errorState := .success }, ?_, ⟨hStores.offered, hKeeps, rfl⟩, rfl⟩
  rw [write, if_neg (by rwa [List.isEmpty_iff]),
    Action.result_bind_of_ok (Action.result_state stream), if_pos hWrite,
    Action.result_bind_of_ok hCalled]
  exact @result_conclude_of_clean β { stream with backend } hStores.errorState_eq _

theorem putWord_writes {width : Nat} (order : ByteOrder) (word : Word width) :
    Writes (putWord order word : Attempt β Unit) () (Word.bytes order word) := by
  intro stream content position hStores hFits
  obtain ⟨after, hWrite, hAfter⟩ := write_stores hStores hFits
  refine ⟨after, ?_, hAfter⟩
  rw [putWord, writeWord, Action.result_bind_of_ok (result_lift_of_ok hWrite),
    Outcome.toExcept_of_success (Outcome.code_done _),
    Action.result_bind_of_ok (Action.result_liftM_ok_of_error _ _), Action.result_pure]

end Stream

end Bytestream
