import Bytestream.Chunk.Writer
import Bytestream.Proofs.Media
import Bytestream.Proofs.Seeking

/-!
Going back in what was written. A storage says where its room ends, and can be moved to every place
in its content, so that bytes which were written before can be replaced later.
-/

namespace Bytestream

/-- In front of a piece there is what was there before, and zeros where there was nothing. -/
theorem Bytes.take_store {piece : Bytes} (hPiece : piece ≠ []) (bytes : Bytes) (position : Nat) :
    (bytes.store position piece).take position = (bytes.zeroExtend position).take position := by
  have hFront : ((bytes.zeroExtend position).take position).length = position := by
    rw [List.length_take, length_zeroExtend, Nat.min_eq_left (Nat.le_max_right _ _)]
  rw [store_of_ne_nil hPiece, overwrite, List.append_assoc, List.take_left' hFront]

/-- Behind a piece there is what was there before. -/
theorem Bytes.drop_store_behind (bytes piece : Bytes) (position : Nat) :
    (bytes.store position piece).drop (position + piece.length) =
      bytes.drop (position + piece.length) := by
  rw [← List.drop_drop, drop_store, List.drop_left]

/-- A part of a piece that is written over later might as well have been written at once. -/
theorem Bytes.store_patch (bytes : Bytes) (position : Nat) {front old new back : Bytes}
    (hSome : 0 < new.length) (hLength : new.length = old.length) :
    (bytes.store position (front ++ old ++ back)).store (position + front.length) new =
      bytes.store position (front ++ new ++ back) := by
  have hPiece : front ++ old ++ back ≠ [] := by
    intro hNone
    have hSum := congrArg List.length hNone
    rw [List.length_append, List.length_append, List.length_nil] at hSum
    omega
  have hOther : front ++ new ++ back ≠ [] := by
    intro hNone
    have hSum := congrArg List.length hNone
    rw [List.length_append, List.length_append, List.length_nil] at hSum
    omega
  have hReach : position + front.length ≤
      (bytes.store position (front ++ old ++ back)).length := by
    rw [length_store hPiece, List.length_append, List.length_append]
    omega
  have hPosition : ((bytes.zeroExtend position).take position ++ front).length =
      position + front.length := by
    rw [List.length_append, List.length_take, length_zeroExtend,
      Nat.min_eq_left (Nat.le_max_right _ _)]
  rw [store_of_le hReach, store_of_ne_nil hPiece, store_of_ne_nil hOther]
  simp only [overwrite, List.append_assoc, List.length_append, hLength]
  rw [← List.append_assoc (List.take _ _) front, List.take_left' hPosition, ← List.drop_drop,
    List.drop_left' hPosition, List.drop_left, List.append_assoc]

/-- A storage that refuses what it has no room for. Room that is left behind a piece was there
before the piece was written. -/
class BoundedStorage (β : Type) [Backend β] [Storage β] : Prop where
  fits_here : ∀ {backend : β} {content : Bytes} {position : Nat},
    Storage.Keeps backend content position → position < magnitudeLimit →
      Storage.Fits β content.length position
  fits_of_longer : ∀ {length reached further : Nat}, Storage.Fits β length reached →
    reached ≤ further → Storage.Fits β (max length reached) further →
      Storage.Fits β length further
  refuses : ∀ {backend : β} {content piece : Bytes} {position : Nat},
    Storage.Keeps backend content position → piece ≠ [] →
      position + piece.length < magnitudeLimit →
      ¬Storage.Fits β content.length (position + piece.length) →
      ∃ outcome after log, Backend.write backend piece = ⟨outcome, after, log⟩ ∧
        outcome.code ≠ .success

/-- A storage that can be moved to every place in its content. -/
class MovableStorage (β : Type) [Backend β] [Storage β] : Prop where
  offers_seek : (Offering.offers β).seek = true
  moves : ∀ {backend : β} {window : Window} {content : Bytes} {position target : Nat}
    {offset : Int} {origin : Origin}, Storage.Keeps backend content position →
      origin.resolve offset position content.length = some target →
      target ≤ content.length ∨ target = position → target < offsetLimit →
      ∃ after log, Backend.seek backend window offset origin =
        ⟨.ok (.done target), (after, window), log⟩ ∧ Storage.Keeps after content target

namespace Stream

variable {β α γ : Type} [Backend β] [Storage β]

/-- Wherever there is no room for `piece`, the operation stops at an error. -/
def Stops (action : Attempt β α) (piece : Bytes) : Prop :=
  ∀ (stream : Stream β) (content : Bytes) (position : Nat), stream.Stores content position →
    stream.failure = none → position + piece.length < magnitudeLimit →
      ¬Storage.Fits β content.length (position + piece.length) →
      ∃ error after, action.result stream = (.error (.error error), after)

/-- On a stream that has not failed the operation yields `value` and stores `piece`, all of it, if
there is room for that, and stops at an error if there is not. -/
def Completes (action : Attempt β α) (value : α) (piece : Bytes) : Prop :=
  ∀ (stream : Stream β) (content : Bytes) (position : Nat), stream.Stores content position →
    stream.failure = none → position + piece.length < magnitudeLimit →
      (Storage.Fits β content.length (position + piece.length) →
        ∃ after, action.result stream = (.ok value, after) ∧
          after.Stores (content.store position piece) (position + piece.length)) ∧
      (¬Storage.Fits β content.length (position + piece.length) →
        ∃ error after, action.result stream = (.error (.error error), after))

/-- A word whose bytes are not all written is an error. -/
theorem putWord_of_refused {β : Type} [Backend β] {stream after : Stream β} {width : Nat}
    {order : ByteOrder} {word : Word width} {outcome : Outcome}
    (hWrite : (write (Word.bytes order word)).result stream = (.ok outcome, after))
    (hCode : outcome.code ≠ .success) :
    (putWord order word).result stream = (.error (.error (.ofCode outcome.code)), after) := by
  rw [putWord, writeWord, Action.result_bind_of_ok (result_lift_of_ok hWrite),
    Outcome.toExcept_of_failure hCode,
    Action.result_bind_of_error (Action.result_liftM_error_of_error _ _)]

section Bounded

variable [BoundedStorage β]

theorem stops_of_nothing (action : Attempt β α) : Stops action [] := by
  intro stream content position hStores _ hBound hFull
  exact absurd (BoundedStorage.fits_here hStores.keeps hBound) hFull

/-- Two operations in sequence stop if the room ends in what either of them writes. -/
theorem Stops.bind {first : Attempt β α} {next : α → Attempt β γ} {value : α}
    {piece later : Bytes} (hFirst : Stops first piece) (hWrites : Writes first value piece)
    (hNext : Stops (next value) later) : Stops (first >>= next) (piece ++ later) := by
  intro stream content position hStores hHealthy hBound hFull
  rw [List.length_append, ← Nat.add_assoc] at hBound hFull
  by_cases hFits : Storage.Fits β content.length (position + piece.length)
  · obtain ⟨middle, hRun, hMiddle, hSpared⟩ := hWrites stream content position hStores hFits
    have hFuller : ¬Storage.Fits β (content.store position piece).length
        (position + piece.length + later.length) := by
      intro hRoom
      apply hFull
      by_cases hPiece : piece = []
      · rwa [hPiece, Bytes.store_nil, ← hPiece] at hRoom
      · rw [Bytes.length_store hPiece] at hRoom
        exact BoundedStorage.fits_of_longer hFits (Nat.le_add_right _ _) hRoom
    obtain ⟨error, after, hLast⟩ :=
      hNext _ _ _ hMiddle (hSpared.trans hHealthy) hBound hFuller
    exact ⟨error, after, by rw [Action.result_bind_of_ok hRun, hLast]⟩
  · obtain ⟨error, after, hRun⟩ := hFirst stream content position hStores hHealthy (by omega) hFits
    exact ⟨error, after, Action.result_bind_of_error hRun next⟩

/-- A write without room for all of its source fails, whatever part of it was stored. -/
theorem write_refused {stream : Stream β} {content piece : Bytes} {position : Nat}
    (hStores : stream.Stores content position) (hBound : position + piece.length < magnitudeLimit)
    (hFull : ¬Storage.Fits β content.length (position + piece.length)) :
    ∃ outcome after, (write piece).result stream = (.ok outcome, after) ∧
      outcome.code ≠ .success := by
  have hPiece : piece ≠ [] := by
    rintro rfl
    exact hFull (BoundedStorage.fits_here hStores.keeps hBound)
  obtain ⟨outcome, backend, log, hCall, hCode⟩ :=
    BoundedStorage.refuses hStores.keeps hPiece hBound hFull
  have hCalled : (call (Backend.write · piece)).result stream =
      (.ok outcome, { stream with backend }) := by
    simp only [Action.result, call, hCall]
  have hWrite : stream.capabilities.write = true := by
    rw [hStores.offered]
    exact Storage.offers_write
  refine ⟨outcome, { stream with backend, errorState := outcome.code }, ?_, hCode⟩
  rw [write, if_neg (by rwa [List.isEmpty_iff]),
    Action.result_bind_of_ok (Action.result_state stream), if_pos hWrite,
    Action.result_bind_of_ok hCalled]
  exact @result_conclude_of_clean β { stream with backend } hStores.errorState_eq _

theorem putWord_stops {width : Nat} (order : ByteOrder) (word : Word width) :
    Stops (putWord order word : Attempt β Unit) (Word.bytes order word) := by
  intro stream content position hStores _ hBound hFull
  obtain ⟨outcome, after, hWrite, hCode⟩ := write_refused hStores hBound hFull
  exact ⟨_, after, putWord_of_refused hWrite hCode⟩

end Bounded

section Movable

variable [MovableStorage β] {stream : Stream β} {content : Bytes} {position target : Nat}

/-- A seek inside the content moves and changes no byte. -/
theorem seek_stores {offset : Int} {origin : Origin} (hStores : stream.Stores content position)
    (hHealthy : stream.failure = none)
    (hTarget : origin.resolve offset position content.length = some target)
    (hInside : target ≤ content.length ∨ target = position) (hLimit : target < offsetLimit) :
    ∃ after, (seek offset origin).result stream = (.ok (.done target), after) ∧
      after.Stores content target ∧ after.failure = none := by
  obtain ⟨backend, log, hCall, hKeeps⟩ :=
    MovableStorage.moves hStores.keeps hTarget hInside hLimit
  have hSeek : stream.capabilities.seek = true := by
    rw [hStores.offered]
    exact MovableStorage.offers_seek
  exact ⟨_, seek_of_call hSeek hHealthy hStores.errorState_eq hCall,
    ⟨hStores.offered, hKeeps, rfl⟩, hHealthy⟩

theorem position_stores (hStores : stream.Stores content position)
    (hHealthy : stream.failure = none) (hLimit : position < offsetLimit) :
    ∃ after, Action.result Stream.position stream = (.ok (.done position), after) ∧
      after.Stores content position ∧ after.failure = none := by
  have hPositions : offsetLimit < positionLimit := by decide
  have hHere : Origin.current.resolve 0 position content.length = some position :=
    toPosition?_eq_some_iff.mpr ⟨Int.add_zero _, Nat.lt_trans hLimit hPositions⟩
  exact seek_stores hStores hHealthy hHere (.inr rfl) hLimit

end Movable

end Stream

/-- Going to a place in the content leaves the content as it is. -/
theorem Chunk.seekTo_stores {β : Type} [Backend β] [Storage β] [MovableStorage β]
    {stream : Stream β} {content : Bytes} {position target : Nat}
    (hStores : stream.Stores content position) (hHealthy : stream.failure = none)
    (hInside : target ≤ content.length) (hLimit : target < offsetLimit) :
    ∃ after, (seekTo target).result stream = (.ok (), after) ∧ after.Stores content target ∧
      after.failure = none := by
  have hPositions : offsetLimit < positionLimit := by decide
  have hThere : Origin.start.resolve target position content.length = some target :=
    toPosition?_eq_some_iff.mpr ⟨Int.zero_add _, Nat.lt_trans hLimit hPositions⟩
  obtain ⟨after, hSeek, hAfter⟩ :=
    Stream.seek_stores hStores hHealthy hThere (.inl hInside) hLimit
  refine ⟨after, ?_, hAfter⟩
  rw [seekTo, toOffset?, if_pos hLimit]
  dsimp only
  rw [Action.result_bind_of_ok (Stream.result_lift_of_ok hSeek),
    Outcome.toExcept_of_success (Outcome.code_done _),
    Action.result_bind_of_ok (Action.result_liftM_ok_of_error _ _), Action.result_pure]

instance : BoundedStorage Region where
  fits_here := by
    rintro region content position ⟨rfl, rfl⟩ -
    exact region.position_le
  fits_of_longer {length reached further} := by
    show reached ≤ length → reached ≤ further → further ≤ max length reached → further ≤ length
    omega
  refuses := by
    rintro region content piece position ⟨rfl, rfl⟩ hPiece - hFull
    have hFull : ¬region.position + piece.length ≤ region.bytes.length := hFull
    show ∃ outcome after log, region.write piece = _ ∧ _
    rw [Region.write]
    split
    · exact ⟨_, _, _, rfl, by decide⟩
    · have hRest : region.rest.length = region.bytes.length - region.position :=
        Cursor.length_rest region.toCursor
      have hShort : (piece.take (min piece.length region.rest.length)).length < piece.length := by
        have hInside := region.position_le
        rw [List.length_take]
        omega
      refine ⟨_, _, _, rfl, ?_⟩
      rw [Transfer.copy, if_pos hShort]
      exact Code.noConfusion

instance : MovableStorage Region where
  offers_seek := rfl
  moves := by
    rintro region window content position target offset origin ⟨rfl, rfl⟩ hTarget hInside -
    have hWithin : target ≤ region.bytes.length := by
      rcases hInside with hInside | rfl
      · exact hInside
      · exact region.position_le
    refine ⟨⟨region.toCursor.moveTo target hWithin⟩, [], ?_, rfl, rfl⟩
    show (Region.seek region offset origin).beside window = _
    rw [Region.seek, hTarget]
    dsimp only
    rw [dif_pos hWithin]
    rfl

instance [Memory] : BoundedStorage Growable where
  fits_here := by
    rintro vector content position ⟨rfl, rfl⟩ -
    exact .inl vector.position_le
  fits_of_longer {length reached further} := by
    show reached ≤ length ∨ reached ≤ reservable → reached ≤ further →
      further ≤ max length reached ∨ further ≤ reservable →
        further ≤ length ∨ further ≤ reservable
    omega
  refuses := by
    rintro vector content piece position ⟨rfl, rfl⟩ - - hFull
    have hHeld : ¬vector.canHold (vector.position + piece.length) := hFull
    refine ⟨.failed .allocationFailure, vector, [], ?_, by decide⟩
    show vector.write piece = _
    rw [Growable.write]
    exact if_neg hHeld

instance [Memory] : MovableStorage Growable where
  offers_seek := rfl
  moves := by
    rintro vector window content position target offset origin ⟨rfl, rfl⟩ hTarget hInside -
    have hWithin : target ≤ vector.bytes.length := by
      rcases hInside with hInside | rfl
      · exact hInside
      · exact vector.position_le
    have hSame : (vector.extend target).bytes = vector.bytes := Bytes.zeroExtend_of_le hWithin
    have hHeld : vector.canHold target := Or.inl hWithin
    refine ⟨⟨(vector.extend target).moveTo target (by rw [hSame]; exact hWithin)⟩, [], ?_, hSame,
      rfl⟩
    show (Growable.seek vector offset origin).beside window = _
    rw [Growable.seek, hTarget]
    dsimp only
    rw [if_pos hHeld]
    rfl

instance : BoundedStorage File where
  fits_here := by
    rintro file content position - hPosition
    exact Nat.le_trans (Nat.le_of_lt hPosition) (by decide)
  fits_of_longer _ _ hFurther := hFurther
  refuses := by
    rintro file content piece position - - hBound hFull
    exact absurd (Nat.le_trans (Nat.le_of_lt hBound) (by decide)) hFull

instance : MovableStorage File where
  offers_seek := rfl
  moves := by
    rintro file window content position target offset origin ⟨rfl, rfl, hOpen⟩ hTarget - hLimit
    refine ⟨{ file with position := target }, [], ?_, rfl, rfl, hOpen⟩
    show (File.seek file offset origin).beside window = _
    rw [File.seek, hTarget]
    dsimp only
    rw [if_pos hLimit]
    rfl

/-- The stream was opened on its backend and has met no error. -/
structure Stream.Healthy {β : Type} [Backend β] (stream : Stream β) : Prop where
  offered : stream.capabilities = Backend.capabilities stream.backend
  unfailed : stream.failure = none
  errorState_eq : stream.errorState = .success

namespace Medium

variable {α : Type}

/-- The medium is open without an error, and a file is one that the system gets on with. It may be
open for reading alone. -/
def Healthy [Memory] : Medium → Prop
  | region stream => stream.Healthy
  | vector stream => stream.Healthy
  | file stream => stream.Healthy ∧ SystemCall.Smooth stream.backend.writes

/-- On this medium the operation yields `value` and stores `piece` if it is ready and has room for
it, and stops at an error otherwise. -/
def Completes [Memory] (medium : Medium) (operation : ∀ {β : Type} [Backend β], Stream.Attempt β α)
    (value : α) (piece : Bytes) : Prop :=
  (medium.Ready ∧ medium.HasRoom piece.length →
    ∃ after, medium.run operation = (.ok value, after) ∧
      after.content = medium.content.store medium.position piece ∧
      after.position = medium.position + piece.length) ∧
  (¬(medium.Ready ∧ medium.HasRoom piece.length) →
    ∃ error after, medium.run operation = (.error (.error error), after))

/-- A completed operation succeeds where there is room, and leaves there what it is said to. -/
theorem Completes.of_ok [Memory] {medium : Medium}
    {operation : ∀ {β : Type} [Backend β], Stream.Attempt β α}
    {value answer : α} {piece : Bytes} (hCompletes : medium.Completes operation value piece)
    (hOk : (medium.run operation).1 = .ok answer) :
    (medium.Ready ∧ medium.HasRoom piece.length) ∧ answer = value ∧
      (medium.run operation).2.content = medium.content.store medium.position piece ∧
      (medium.run operation).2.position = medium.position + piece.length := by
  by_cases hRoom : medium.Ready ∧ medium.HasRoom piece.length
  · obtain ⟨after, hRun, hContent, hPosition⟩ := hCompletes.1 hRoom
    rw [hRun] at hOk ⊢
    cases hOk
    exact ⟨hRoom, rfl, hContent, hPosition⟩
  · obtain ⟨error, after, hRun⟩ := hCompletes.2 hRoom
    rw [hRun] at hOk
    cases hOk

theorem Completes.ok [Memory] {medium : Medium}
    {operation : ∀ {β : Type} [Backend β], Stream.Attempt β α}
    {value : α} {piece : Bytes} (hCompletes : medium.Completes operation value piece)
    (hRoom : medium.Ready ∧ medium.HasRoom piece.length) : (medium.run operation).1 = .ok value := by
  obtain ⟨after, hRun, -⟩ := hCompletes.1 hRoom
  rw [hRun]

theorem completes_of_stores [Memory] {β : Type} [Backend β] [Storage β] {wrap : Stream β → Medium}
    {operation : ∀ {β : Type} [Backend β], Stream.Attempt β α} {value : α} {piece : Bytes}
    {stream : Stream β} (hCompletes : Stream.Completes (operation : Stream.Attempt β α) value piece)
    (hRun : (wrap stream).run operation = (operation.result stream).map id wrap)
    (hShown : ∀ {after content position}, after.Stores content position →
      (wrap after).content = content ∧ (wrap after).position = position)
    (hStores : stream.Stores (wrap stream).content (wrap stream).position)
    (hUnfailed : stream.failure = none)
    (hBound : (wrap stream).position + piece.length < magnitudeLimit)
    (hFits : (wrap stream).Ready ∧ (wrap stream).HasRoom piece.length ↔
      Storage.Fits β (wrap stream).content.length ((wrap stream).position + piece.length)) :
    (wrap stream).Completes operation value piece := by
  obtain ⟨hStored, hStopped⟩ := hCompletes stream _ _ hStores hUnfailed hBound
  refine ⟨fun hRoom => ?_, fun hFull => ?_⟩
  · obtain ⟨after, hOk, hAfter⟩ := hStored (hFits.mp hRoom)
    exact ⟨wrap after, by rw [hRun, hOk]; rfl, hShown hAfter⟩
  · obtain ⟨error, after, hError⟩ := hStopped fun hRoom => hFull (hFits.mpr hRoom)
    exact ⟨error, wrap after, by rw [hRun, hError]; rfl⟩

/-- What every storage completes is what each medium completes, if a file that is not open for
writing stops it. -/
theorem completes_of_storages [Memory] {operation : ∀ {β : Type} [Backend β], Stream.Attempt β α}
    {value : α}
    {piece : Bytes} {medium : Medium}
    (hCompletes : ∀ {β : Type} [Backend β] [Storage β] [BoundedStorage β] [MovableStorage β],
      Stream.Completes (operation : Stream.Attempt β α) value piece)
    (hLocked : ∀ stream : Stream File, stream.Healthy →
      stream.backend.position < magnitudeLimit → stream.backend.access.canWrite = false →
      ∃ error after, operation.result stream = (.error (.error error), after))
    (hHealthy : medium.Healthy) (hBound : medium.position + piece.length < magnitudeLimit) :
    medium.Completes operation value piece := by
  cases medium with
  | region stream =>
      obtain ⟨hOffered, hUnfailed, hClean⟩ := hHealthy
      exact @completes_of_stores α _ Region _ _ region operation _ _ _ hCompletes rfl (·.keeps)
        ⟨hOffered, ⟨rfl, rfl⟩, hClean⟩ hUnfailed hBound (and_iff_right ⟨hOffered, hClean⟩)
  | vector stream =>
      obtain ⟨hOffered, hUnfailed, hClean⟩ := hHealthy
      exact @completes_of_stores α _ Growable _ _ vector operation _ _ _ hCompletes rfl (·.keeps)
        ⟨hOffered, ⟨rfl, rfl⟩, hClean⟩ hUnfailed hBound (and_iff_right ⟨hOffered, hClean⟩)
  | file stream =>
      obtain ⟨hHealthy, hSmooth⟩ := hHealthy
      by_cases hAccess : stream.backend.access.canWrite = true
      · obtain ⟨hOffered, hUnfailed, hClean⟩ := hHealthy
        exact @completes_of_stores α _ File _ _ file operation _ _ _ hCompletes rfl
          (fun hAfter => ⟨hAfter.keeps.1, hAfter.keeps.2.1⟩)
          ⟨hOffered, ⟨rfl, rfl, hAccess, hSmooth⟩, hClean⟩ hUnfailed hBound
          (and_iff_right ⟨hOffered, hClean, hAccess, hSmooth⟩)
      · have hPosition : stream.backend.position < magnitudeLimit :=
          Nat.lt_of_le_of_lt (Nat.le_add_right _ piece.length) hBound
        obtain ⟨error, after, hRun⟩ :=
          hLocked stream hHealthy hPosition (Bool.eq_false_iff.mpr hAccess)
        refine ⟨fun hRoom => absurd hRoom.1.2.2.1 hAccess, fun _ => ⟨error, file after, ?_⟩⟩
        rw [run, hRun]
        rfl

end Medium

/-- A word cannot be put into a file that is not open for writing. -/
theorem Stream.putWord_locked {stream : Stream File} (hHealthy : stream.Healthy)
    (hAccess : stream.backend.access.canWrite = false) {width : Nat} (hWidth : 0 < width)
    (order : ByteOrder) (word : Word width) :
    ∃ error after, (putWord order word).result stream = (.error (.error error), after) := by
  have hSome : Word.bytes order word ≠ [] := by
    rw [← List.length_pos_iff, Word.length_bytes]
    exact hWidth
  have hWrite : stream.capabilities.write = true := by
    rw [hHealthy.offered]
    rfl
  have hCalled : (call (Backend.write · (Word.bytes order word))).result stream =
      (.ok (.failed .unknownError), stream) := by
    simp only [Action.result, call, Backend.write, File.write_refused hAccess hSome]
  refine ⟨.ofCode .unknownError, { stream with errorState := .unknownError }, ?_⟩
  refine @putWord_of_refused File _ _ _ _ _ _ (.failed .unknownError) ?_ Code.noConfusion
  rw [write, if_neg (by rwa [List.isEmpty_iff]), Action.result_bind_of_ok (Action.result_state stream), if_pos hWrite,
    Action.result_bind_of_ok hCalled]
  exact result_conclude_of_clean hHealthy.errorState_eq _

end Bytestream
