import Bytestream.Proofs.ChunkWriting
import Bytestream.Proofs.ErrorState
import Bytestream.Proofs.Media

/-!
Chunks in regions that may be too small for them. A region takes the front part of what is written
to it that there is room for, and refuses the rest. The writes that a chunk is made of lie one behind
the other, so that wherever the room ends, inside a field or between two of them, the region holds the
longest front part of the encoding that fits.
-/

namespace Bytestream

namespace Region

variable {region : Region} {piece : Bytes}

/-- The region with as much of a piece at its position as there is room for. -/
def filled (region : Region) (piece : Bytes) : Region where
  toCursor := region.toCursor.put (piece.take region.rest.length) (by
    have hInside := region.position_le
    rw [List.length_take, Cursor.length_rest]
    omega)

theorem eq_of_parts {other : Region} (hBytes : region.bytes = other.bytes)
    (hPosition : region.position = other.position) : region = other := by
  obtain ⟨⟨bytes, position, hInside⟩⟩ := region
  obtain ⟨⟨_, _, _⟩⟩ := other
  cases hBytes
  cases hPosition
  rfl

theorem bytes_filled (region : Region) (piece : Bytes) :
    (region.filled piece).bytes =
      region.bytes.overwrite region.position (piece.take region.rest.length) := rfl

theorem position_filled (region : Region) (piece : Bytes) :
    (region.filled piece).position =
      region.position + (piece.take region.rest.length).length := rfl

/-- What is behind the piece stays, and a piece that reaches past the end is cut there. -/
theorem bytes_filled_eq (region : Region) (piece : Bytes) :
    (region.filled piece).bytes = region.bytes.take region.position ++
      piece.take (region.bytes.length - region.position) ++
        region.bytes.drop (region.position + piece.length) := by
  have hRoom := Cursor.length_rest region.toCursor
  rw [bytes_filled, Bytes.overwrite, hRoom, List.length_take]
  rcases Nat.le_total piece.length (region.bytes.length - region.position) with hWhole | hShort
  · rw [Nat.min_eq_right hWhole]
  · rw [Nat.min_eq_left hShort, List.drop_of_length_le (by omega), List.drop_of_length_le (by omega)]

theorem position_filled_eq (region : Region) (piece : Bytes) :
    (region.filled piece).position =
      min region.bytes.length (region.position + piece.length) := by
  have hInside := region.position_le
  have hRoom := Cursor.length_rest region.toCursor
  rw [position_filled, hRoom, List.length_take]
  omega

/-- Filling a region leaves the room behind the piece. -/
theorem rest_filled (region : Region) (piece : Bytes) :
    (region.filled piece).rest = region.rest.drop piece.length := by
  have hInside := region.position_le
  have hRoom := Cursor.length_rest region.toCursor
  have hFront : (region.bytes.take region.position ++ piece.take region.rest.length).length =
      region.position + (piece.take region.rest.length).length := by
    rw [List.length_append, List.length_take_of_le hInside]
  change ((region.filled piece).bytes.drop (region.filled piece).position) =
    (region.bytes.drop region.position).drop piece.length
  rw [bytes_filled, position_filled, Bytes.overwrite, List.drop_left' hFront, List.drop_drop]
  rcases Nat.le_total piece.length region.rest.length with hFits | hShort
  · rw [List.take_of_length_le hFits]
  · rw [List.length_take_of_le hShort, List.drop_of_length_le (by omega),
      List.drop_of_length_le (by omega)]

theorem filled_nil (region : Region) : region.filled [] = region := by
  apply eq_of_parts
  · rw [bytes_filled, List.take_nil, Bytes.overwrite, List.append_nil, List.length_nil, Nat.add_zero,
      List.take_append_drop]
  · rw [position_filled, List.take_nil, List.length_nil, Nat.add_zero]

/-- Two pieces one behind the other fill a region like the one piece that they make. -/
theorem filled_append (region : Region) (first second : Bytes) :
    (region.filled first).filled second = region.filled (first ++ second) := by
  have hInside := region.position_le
  have hRoom := Cursor.length_rest region.toCursor
  have hTaken : (first ++ second).take region.rest.length =
      first.take region.rest.length ++ second.take (region.rest.length - first.length) :=
    List.take_append
  apply eq_of_parts
  · have hReach : region.position + (first.take region.rest.length).length ≤
        (region.bytes.overwrite region.position (first.take region.rest.length)).length := by
      rw [Bytes.length_overwrite (by rw [List.length_take]; omega), List.length_take]
      omega
    rw [bytes_filled, bytes_filled, bytes_filled, position_filled, rest_filled, List.length_drop,
      hTaken, ← Bytes.store_of_le hReach, ← Bytes.store_of_le hInside, Bytes.store_append,
      Bytes.store_of_le hInside]
  · rw [position_filled, position_filled, position_filled, rest_filled, List.length_drop, hTaken,
      List.length_append, Nat.add_assoc]

/-- A region without room stays as it is. -/
theorem filled_of_full (hFull : region.rest.length = 0) (piece : Bytes) :
    region.filled piece = region := by
  have hNothing : region.filled piece = region.filled [] := by
    apply eq_of_parts
    · rw [bytes_filled, bytes_filled, hFull, List.take_zero, List.take_zero]
    · rw [position_filled, position_filled, hFull, List.take_zero, List.take_zero]
  rw [hNothing, filled_nil]

/-- A write fills the region and counts what was stored. -/
theorem write_eq_filled (region : Region) (hPiece : piece ≠ []) :
    region.write piece = ⟨.report (piece.take region.rest.length).length
      (if piece.length ≤ region.rest.length then .success else .endOfStream),
      region.filled piece, []⟩ := by
  have hSome := List.length_pos_iff.mpr hPiece
  rw [write]
  by_cases hFull : region.rest.length = 0
  · rw [if_pos (List.isEmpty_iff_length_eq_zero.mpr hFull), filled_of_full hFull, hFull,
      if_neg (by omega), List.take_zero]
    rfl
  · have hCopy : Transfer.copy region.rest.length piece piece.length =
        ⟨.report (piece.take region.rest.length).length
          (if piece.length ≤ region.rest.length then .success else .endOfStream),
          piece.take region.rest.length⟩ := by
      have hFits : piece.length ≤ min region.rest.length piece.length ↔
          piece.length ≤ region.rest.length := by
        omega
      have hFront : piece.take (min piece.length region.rest.length) =
          piece.take region.rest.length := by
        rw [List.take_eq_take_iff]
        omega
      rw [Transfer.copy_eq, hFront]
      simp only [hFits]
    have hMoved := congrArg Transfer.bytes hCopy
    rw [if_neg (by rwa [List.isEmpty_iff_length_eq_zero])]
    dsimp only
    congr 1
    · exact congrArg Transfer.outcome hCopy
    · apply eq_of_parts
      · exact congrArg (region.bytes.overwrite region.position) hMoved
      · exact congrArg (fun moved : Bytes => region.position + moved.length) hMoved

end Region

namespace Stream

variable {α γ : Type} {stream : Stream Region}

/-- The stream after a piece was written to its region, which becomes the end of the stream where the
piece does not fit. -/
def filled (stream : Stream Region) (piece : Bytes) : Stream Region where
  backend := stream.backend.filled piece
  capabilities := stream.capabilities
  window := stream.window
  failure := stream.failure
  errorState := if piece.length ≤ stream.backend.rest.length then .success else .endOfStream

/-- Run without an earlier error, the operation fills the region with `piece`. It yields `value` if
all of the piece fits and stops at the end of the stream if not. -/
def Fills (action : Attempt Region α) (value : α) (piece : Bytes) : Prop :=
  ∀ stream : Stream Region, stream.capabilities = Offering.offers Region →
    stream.errorState = .success → action.result stream =
      (if piece.length ≤ stream.backend.rest.length then .ok value else .error (.error .endOfStream),
        stream.filled piece)

theorem filled_nil (hClean : stream.errorState = .success) : stream.filled [] = stream := by
  obtain ⟨backend, capabilities, window, failure, errorState⟩ := stream
  subst hClean
  rw [filled, List.length_nil, if_pos (Nat.zero_le _), Region.filled_nil]

theorem filled_append {piece : Bytes} (hFits : piece.length ≤ stream.backend.rest.length)
    (later : Bytes) :
    (stream.filled piece).filled later = stream.filled (piece ++ later) := by
  have hRoom : later.length ≤ (stream.backend.filled piece).rest.length ↔
      (piece ++ later).length ≤ stream.backend.rest.length := by
    rw [Region.rest_filled, List.length_drop, List.length_append]
    omega
  simp only [filled, Region.filled_append, hRoom]

/-- Behind a piece that does not fit nothing more is written. -/
theorem filled_append_of_short {piece : Bytes} (hShort : stream.backend.rest.length < piece.length)
    (later : Bytes) : stream.filled (piece ++ later) = stream.filled piece := by
  have hFull : (stream.backend.filled piece).rest.length = 0 := by
    rw [Region.rest_filled, List.length_drop]
    omega
  have hLonger : stream.backend.rest.length < (piece ++ later).length := by
    rw [List.length_append]
    omega
  rw [filled, filled, ← Region.filled_append, Region.filled_of_full hFull,
    if_neg (Nat.not_le_of_gt hLonger), if_neg (Nat.not_le_of_gt hShort)]

theorem fills_pure (value : α) : Fills (pure value) value [] := by
  intro stream hOffered hClean
  rw [filled_nil hClean, List.length_nil, if_pos (Nat.zero_le _), Action.result_pure]

theorem fills_emit (event : Event) : Fills (Action.emit event) () [] := by
  intro stream hOffered hClean
  rw [filled_nil hClean, List.length_nil, if_pos (Nat.zero_le _), Action.result_emit]

/-- What two operations write in sequence fills the region as one piece. The second one is run only
where the first piece fits. -/
theorem Fills.bind {first : Attempt Region α} {next : α → Attempt Region γ} {value : α} {answer : γ}
    {piece later : Bytes} (hFirst : Fills first value piece)
    (hNext : Fills (next value) answer later) :
    Fills (first >>= next) answer (piece ++ later) := by
  intro stream hOffered hClean
  have hRun := hFirst stream hOffered hClean
  by_cases hFits : piece.length ≤ stream.backend.rest.length
  · have hStill : (stream.filled piece).errorState = .success := if_pos hFits
    have hRoom : later.length ≤ (stream.filled piece).backend.rest.length ↔
        (piece ++ later).length ≤ stream.backend.rest.length := by
      show later.length ≤ (stream.backend.filled piece).rest.length ↔ _
      rw [Region.rest_filled, List.length_drop, List.length_append]
      omega
    rw [if_pos hFits] at hRun
    rw [Action.result_bind_of_ok hRun, hNext (stream.filled piece) hOffered hStill, filled_append hFits]
    simp only [hRoom]
  · have hShort := Nat.lt_of_not_le hFits
    rw [if_neg hFits] at hRun
    rw [Action.result_bind_of_error hRun, filled_append_of_short hShort,
      if_neg (by rw [List.length_append]; omega)]

/-- A write stores what there is room for, and writing nothing never asks the region. -/
theorem write_fills (hOffered : stream.capabilities = Offering.offers Region)
    (hClean : stream.errorState = .success) (piece : Bytes) :
    (write piece).result stream = (.ok (.report (piece.take stream.backend.rest.length).length
      (if piece.length ≤ stream.backend.rest.length then .success else .endOfStream)),
      stream.filled piece) := by
  by_cases hPiece : piece = []
  · subst hPiece
    rw [filled_nil hClean, List.take_nil, List.length_nil, if_pos (Nat.zero_le _)]
    rfl
  · have hOffers : stream.capabilities.write = true := by rw [hOffered]; rfl
    have hWrite : Backend.write stream.backend piece = _ :=
      stream.backend.write_eq_filled hPiece
    rw [write_of_offered hPiece hOffers, hWrite, reported, kept, if_pos hClean, if_pos hClean]
    rfl

end Stream

theorem Chunk.putBytes_fills (bytes : Bytes) : Stream.Fills (putBytes bytes) () bytes := by
  intro stream hOffered hClean
  have hWrite := Stream.write_fills hOffered hClean bytes
  rw [putBytes, Action.result_bind_of_ok (Stream.result_lift_of_ok hWrite)]
  by_cases hFits : bytes.length ≤ stream.backend.rest.length
  · rw [if_pos hFits, if_pos hFits, Outcome.toExcept_of_success (Outcome.code_report _ _),
      Action.result_bind_of_ok (Action.result_liftM_ok_of_error _ _), Action.result_pure]
  · rw [if_neg hFits, if_neg hFits, Outcome.toExcept_of_failure (by simp),
      Action.result_bind_of_error (Action.result_liftM_error_of_error _ _)]
    rfl

theorem Stream.putWord_fills {width : Nat} (order : ByteOrder) (word : Word width) :
    Fills (putWord order word) () (Word.bytes order word) :=
  Chunk.putBytes_fills (Word.bytes order word)

theorem ChunkHeader.write_fills (order : ByteOrder) (header : ChunkHeader) :
    Stream.Fills (header.write order) () (header.encode order) := by
  rw [encode, List.append_assoc]
  apply (Stream.putWord_fills order header.typeId).bind
  apply (Stream.putWord_fills order header.version).bind
  exact Stream.putWord_fills order header.dataSize

namespace Chunk

/-- All writes of a chunk together fill a region like one write of its encoding. -/
theorem write_fills (config : ChunkConfig) (draft : ChunkDraft) :
    Stream.Fills (write draft.typeId draft.version draft.payload config) draft.header
      (draft.encode config) := by
  rw [ChunkDraft.encode, List.append_assoc, ← List.append_nil (Word.bytes _ _)]
  apply (ChunkHeader.write_fills config.order draft.header).bind
  apply (putBytes_fills draft.payload).bind
  apply (Stream.putWord_fills config.order (crc32 draft.payload config.seed)).bind
  exact (Stream.fills_emit _).bind (Stream.fills_pure draft.header)

/-- A region takes the encoding of a chunk as far as it has room, wherever in the chunk it ends: the
position ends up behind what was stored, all other bytes stay, and a chunk that does not fit as a
whole is the end of the stream. A vector takes all of it, and grows as far as the chunk reaches past
its end. -/
theorem write_stores_what_fits [Memory] (config : ChunkConfig) (draft : ChunkDraft) :
    (draft.encode config).length = 18 + draft.payload.length ∧
      (∀ stream : Stream Region, stream.capabilities = Backend.capabilities stream.backend →
        stream.errorState = .success →
          let start := stream.backend.position
          let stop := start + (18 + draft.payload.length)
          let length := stream.backend.bytes.length
          ∃ after, (write draft.typeId draft.version draft.payload config).result stream =
              (if stop ≤ length then .ok draft.header else .error (.error .endOfStream), after) ∧
            after.errorState = (if stop ≤ length then .success else .endOfStream) ∧
            after.backend.bytes = stream.backend.bytes.take start ++
              (draft.encode config).take (length - start) ++ stream.backend.bytes.drop stop ∧
            after.backend.position = min length stop ∧
            after.capabilities = stream.capabilities ∧ after.window = stream.window ∧
            after.failure = stream.failure) ∧
      ∀ stream : Stream Growable, stream.capabilities = Backend.capabilities stream.backend →
        stream.errorState = .success →
          let start := stream.backend.position
          let stop := start + (18 + draft.payload.length)
          stream.backend.canHold stop →
            ∃ after, (write draft.typeId draft.version draft.payload config).result stream =
                (.ok draft.header, after) ∧
              after.errorState = .success ∧
              after.backend.bytes = stream.backend.bytes.take start ++ draft.encode config ++
                stream.backend.bytes.drop stop ∧
              after.backend.bytes.length = max stream.backend.bytes.length stop ∧
              after.backend.position = stop := by
  have hLength : (draft.encode config).length = 18 + draft.payload.length :=
    draft.length_encode config
  refine ⟨hLength, fun stream hOffered hClean => ?_, fun stream hOffered hClean => ?_⟩
  · intro start stop length
    have hInside : start ≤ length := stream.backend.position_le
    have hRoom : stream.backend.rest.length = length - start :=
      Cursor.length_rest stream.backend.toCursor
    have hFits : (draft.encode config).length ≤ stream.backend.rest.length ↔ stop ≤ length := by
      omega
    refine ⟨stream.filled (draft.encode config), ?_, ?_, ?_, ?_, rfl, rfl, rfl⟩
    · rw [write_fills config draft stream hOffered hClean]
      simp only [hFits]
    · simp only [Stream.filled, hFits]
    · have hBytes := stream.backend.bytes_filled_eq (draft.encode config)
      rwa [hLength] at hBytes
    · have hPosition := stream.backend.position_filled_eq (draft.encode config)
      rwa [hLength] at hPosition
  · intro start stop hHolds
    have hFits : Storage.Fits Growable stream.backend.bytes.length
        (start + (draft.encode config).length) := by
      rwa [hLength]
    have hSome : draft.encode config ≠ [] := List.ne_nil_of_length_pos (by omega)
    obtain ⟨after, hRun, ⟨-, ⟨hBytes, hPosition⟩, hStill⟩, -⟩ :=
      write_writes config draft stream _ _ ⟨hOffered, ⟨rfl, rfl⟩, hClean⟩ hFits
    refine ⟨after, hRun, hStill, ?_, ?_, ?_⟩
    · rw [hBytes, Bytes.store_of_le stream.backend.position_le, Bytes.overwrite, hLength]
    · rw [hBytes, Bytes.length_store hSome, hLength]
    · rw [hPosition, hLength]

/-- A region that ends inside the payload of a chunk, and a vector that has to grow for it. -/
theorem write_stores_what_fits_cut :
    (∃ after : Stream Region, (write 1 2 [3, 4] .bigEndian).result
        ⟨⟨⟨List.replicate 17 255, 2, by decide⟩⟩, Offering.offers Region, Window.empty, none,
          .success⟩ = (.error (.error .endOfStream), after) ∧
      after.errorState = .endOfStream ∧
      after.backend.bytes = [255, 255, 0, 0, 0, 1, 0, 2, 0, 0, 0, 0, 0, 0, 0, 2, 3] ∧
      after.backend.position = 17) ∧
    ∃ after : Stream Growable, (write 1 2 [3, 4] .bigEndian).result
        ⟨⟨⟨[5, 6, 7], 1, by decide⟩⟩, Offering.offers Growable, Window.empty, none, .success⟩ =
          (.ok ⟨1, 2, 2⟩, after) ∧
      after.backend.bytes.length = 21 := by
  obtain ⟨-, hRegion, hVector⟩ := write_stores_what_fits .bigEndian ⟨1, 2, [3, 4]⟩
  obtain ⟨cut, hCut, hCode, hBytes, hPosition, -⟩ := hRegion
    ⟨⟨⟨List.replicate 17 255, 2, by decide⟩⟩, Offering.offers Region, Window.empty, none, .success⟩
    rfl rfl
  obtain ⟨grown, hGrown, -, -, hLength, -⟩ := hVector
    ⟨⟨⟨[5, 6, 7], 1, by decide⟩⟩, Offering.offers Growable, Window.empty, none, .success⟩ rfl rfl
    (.inr (show 1 + (18 + 2) ≤ reservable by decide))
  exact ⟨⟨cut, hCut, hCode, hBytes.trans (by rfl), hPosition⟩, grown, hGrown, hLength⟩

end Chunk

end Bytestream
