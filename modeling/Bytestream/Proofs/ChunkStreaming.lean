import Bytestream.Proofs.ChunkWriting
import Bytestream.Proofs.Rewriting

/-!
A payload written in pieces. The size that the header first goes without is filled in at the end, so
that a chunk in pieces leaves the same bytes as a chunk written at once, and fails where that fails.
-/

namespace Bytestream

open Bytestream.Stream (Attempt Completes Stops Writes)

namespace ChunkWriter

/-- Writes a chunk with a payload that comes in pieces. -/
def writePieces {β : Type} [Backend β] (typeId : Word 4) (version : Word 2) (pieces : List Bytes)
    (config : ChunkConfig) : Attempt β ChunkHeader := do
  let writer ← begin typeId version config
  let writer ← pieces.foldlM append writer
  writer.finish

/-- The writer of a chunk at `position`, with no payload yet. -/
def started (typeId : Word 4) (version : Word 2) (config : ChunkConfig) (position : Nat) :
    ChunkWriter :=
  ⟨config, ⟨typeId, version, 0⟩, position, config.seed⟩

/-- Writes a whole chunk from where a new writer is to have its header. -/
def writeAll {β : Type} [Backend β] (writer : ChunkWriter) (pieces : List Bytes) :
    Attempt β ChunkHeader := do
  writer.header.write writer.config.order
  let writer ← pieces.foldlM append writer
  writer.finish

/-- The writer after payload bytes, however many pieces they came in. -/
def extended (writer : ChunkWriter) (bytes : Bytes) : ChunkWriter :=
  let dataSize := writer.header.dataSize + BitVec.ofNat _ bytes.length
  { writer with
    header := { writer.header with dataSize }
    sum := crc32 bytes writer.sum }

@[simp] theorem extended_nil (writer : ChunkWriter) : writer.extended [] = writer := by
  simp only [extended, List.length_nil, crc32_nil]
  rw [show (BitVec.ofNat (8 * 8) 0 : Word 8) = 0#64 from rfl, BitVec.add_zero]

theorem extended_append (writer : ChunkWriter) (first second : Bytes) :
    (writer.extended first).extended second = writer.extended (first ++ second) := by
  simp only [extended, crc32_append, List.length_append, BitVec.ofNat_add, BitVec.add_assoc]

/-- A writer that took up the whole payload has the header and the checksum of the draft. -/
theorem extended_started (config : ChunkConfig) (draft : ChunkDraft) (position : Nat) :
    (started draft.typeId draft.version config position).extended draft.payload =
      ⟨config, draft.header, position, crc32 draft.payload config.seed⟩ := by
  simp only [started, extended, ChunkDraft.header]
  rw [show (0 : Word 8) = 0#64 from rfl, BitVec.zero_add]

end ChunkWriter

theorem ChunkDraft.encode_ne_nil (draft : ChunkDraft) (config : ChunkConfig) :
    draft.encode config ≠ [] := by
  apply List.ne_nil_of_length_pos
  rw [length_encode, ChunkHeader.size]
  omega

/-- Filling in the size of a chunk that was written without it leaves the encoding of the draft. -/
theorem ChunkDraft.store_size (draft : ChunkDraft) (config : ChunkConfig) (content : Bytes)
    (position : Nat) :
    (content.store position (ChunkHeader.encode config.order ⟨draft.typeId, draft.version, 0⟩ ++
        draft.payload ++ Word.bytes config.order (crc32 draft.payload config.seed))).store
      (position + ChunkHeader.dataSizeOffset) (Word.bytes config.order draft.header.dataSize) =
      content.store position (draft.encode config) := by
  have hFront : (Word.bytes config.order draft.typeId ++
      Word.bytes config.order draft.version).length = ChunkHeader.dataSizeOffset := by
    rw [List.length_append, Word.length_bytes, Word.length_bytes]
    rfl
  rw [encode, ChunkHeader.encode, ChunkHeader.encode, ← hFront,
    List.append_assoc _ draft.payload, List.append_assoc _ draft.payload]
  apply Bytes.store_patch
  · rw [Word.length_bytes]
    decide
  · rw [Word.length_bytes, Word.length_bytes]

/-- Beginning a chunk is asking for the position and writing a header without a size. -/
theorem ChunkWriter.begin_of_position {β : Type} [Backend β] {stream middle : Stream β}
    {position : Nat} (hSeek : stream.capabilities.seek = true)
    (hPosition : Action.result Stream.position stream = (.ok (.done position), middle))
    (hBound : position < magnitudeLimit) (typeId : Word 4) (version : Word 2)
    (config : ChunkConfig) :
    (begin typeId version config).result stream = Action.result (do
      ChunkHeader.write ⟨typeId, version, 0⟩ config.order
      return started typeId version config position) middle := by
  rw [begin, Action.result_bind_of_ok (Action.result_state stream), if_pos hSeek,
    Action.result_bind_of_ok (Stream.result_lift_of_ok hPosition),
    Outcome.toExcept_of_success (Outcome.code_done _),
    Action.result_bind_of_ok (Action.result_liftM_ok_of_error _ _), Outcome.done,
    Outcome.value_report .success hBound]
  rfl

section Storage

variable {β : Type} [Backend β] [Storage β]

namespace ChunkWriter

theorem append_writes (writer : ChunkWriter) (bytes : Bytes) :
    Writes (writer.append bytes : Attempt β ChunkWriter) (writer.extended bytes) bytes := by
  have hAppend : Writes (writer.append bytes : Attempt β ChunkWriter) (writer.extended bytes)
      (bytes ++ []) :=
    (Chunk.putBytes_writes bytes).bind (Stream.writes_pure (writer.extended bytes))
  rwa [List.append_nil] at hAppend

theorem appendAll_writes (pieces : List Bytes) (writer : ChunkWriter) :
    Writes (pieces.foldlM append writer : Attempt β ChunkWriter) (writer.extended pieces.flatten)
      pieces.flatten := by
  induction pieces generalizing writer with
  | nil =>
      rw [List.flatten_nil, extended_nil]
      exact Stream.writes_pure writer
  | cons piece later ih =>
      rw [List.foldlM_cons, List.flatten_cons, ← extended_append]
      exact (append_writes writer piece).bind (ih (writer.extended piece))

end ChunkWriter

section Bounded

variable [BoundedStorage β]

theorem Chunk.putBytes_stops (bytes : Bytes) : Stops (putBytes bytes : Attempt β Unit) bytes := by
  intro stream content position hStores _ hBound hFull
  obtain ⟨outcome, after, hWrite, hCode⟩ := Stream.write_refused hStores hBound hFull
  refine ⟨.ofCode outcome.code, after, ?_⟩
  rw [putBytes, Action.result_bind_of_ok (Stream.result_lift_of_ok hWrite),
    Outcome.toExcept_of_failure hCode,
    Action.result_bind_of_error (Action.result_liftM_error_of_error _ _)]

theorem ChunkHeader.write_stops (order : ByteOrder) (header : ChunkHeader) :
    Stops (header.write order : Attempt β Unit) (header.encode order) := by
  rw [encode, List.append_assoc]
  apply (Stream.putWord_stops order header.typeId).bind (Stream.putWord_writes order _)
  apply (Stream.putWord_stops order header.version).bind (Stream.putWord_writes order _)
  exact Stream.putWord_stops order header.dataSize

theorem Chunk.write_stops (config : ChunkConfig) (draft : ChunkDraft) :
    Stops (write draft.typeId draft.version draft.payload config : Attempt β ChunkHeader)
      (draft.encode config) := by
  rw [ChunkDraft.encode, List.append_assoc, ← List.append_nil (Word.bytes _ _)]
  apply (ChunkHeader.write_stops config.order draft.header).bind (ChunkHeader.write_writes _ _)
  apply (putBytes_stops draft.payload).bind (putBytes_writes _)
  apply (Stream.putWord_stops config.order (crc32 draft.payload config.seed)).bind
    (Stream.putWord_writes _ _)
  exact Stream.stops_of_nothing _

namespace ChunkWriter

theorem append_stops (writer : ChunkWriter) (bytes : Bytes) :
    Stops (writer.append bytes : Attempt β ChunkWriter) (bytes ++ []) :=
  (Chunk.putBytes_stops bytes).bind (Chunk.putBytes_writes bytes) (Stream.stops_of_nothing _)

theorem appendAll_stops (pieces : List Bytes) (writer : ChunkWriter) :
    Stops (pieces.foldlM append writer : Attempt β ChunkWriter) pieces.flatten := by
  induction pieces generalizing writer with
  | nil => exact Stream.stops_of_nothing _
  | cons piece later ih =>
      have hPiece := append_stops (β := β) writer piece
      rw [List.append_nil] at hPiece
      rw [List.foldlM_cons, List.flatten_cons]
      exact hPiece.bind (append_writes writer piece) (ih (writer.extended piece))

/-- What follows the footer overwrites bytes of the chunk, so only the footer may lack room. -/
theorem finish_stops (writer : ChunkWriter) :
    Stops (writer.finish : Attempt β ChunkHeader)
      (Word.bytes writer.config.order writer.sum ++ []) :=
  (Stream.putWord_stops _ _).bind (Stream.putWord_writes _ _) (Stream.stops_of_nothing _)

theorem writeAll_stops (writer : ChunkWriter) (pieces : List Bytes) :
    Stops (writer.writeAll pieces : Attempt β ChunkHeader)
      (writer.header.encode writer.config.order ++ (pieces.flatten ++
        (Word.bytes writer.config.order (writer.extended pieces.flatten).sum ++ []))) := by
  apply (ChunkHeader.write_stops _ _).bind (ChunkHeader.write_writes _ _)
  apply (appendAll_stops pieces writer).bind (appendAll_writes pieces writer)
  exact finish_stops (writer.extended pieces.flatten)

end ChunkWriter

end Bounded

section Movable

variable [MovableStorage β] {stream : Stream β} {content : Bytes} {position : Nat}

/-- A chunk in pieces is begun with the writer for the position where the stream stands. -/
theorem ChunkWriter.writePieces_eq_writeAll (hStores : stream.Stores content position)
    (hHealthy : stream.failure = none) (hBound : position < magnitudeLimit) (typeId : Word 4)
    (version : Word 2) (pieces : List Bytes) (config : ChunkConfig) :
    ∃ middle, middle.Stores content position ∧ middle.failure = none ∧
      (writePieces typeId version pieces config).result stream =
        ((started typeId version config position).writeAll pieces).result middle := by
  have hLimit : position < offsetLimit := Nat.lt_trans hBound (by decide)
  obtain ⟨middle, hPosition, hMiddle, hUnfailed⟩ :=
    Stream.position_stores hStores hHealthy hLimit
  refine ⟨middle, hMiddle, hUnfailed, ?_⟩
  have hSeek : stream.capabilities.seek = true := by
    rw [hStores.offered]
    exact MovableStorage.offers_seek
  have hBegin := begin_of_position hSeek hPosition hBound typeId version config
  rw [writePieces, Action.result_bind_congr hBegin, bind_assoc]
  rfl

/-- Finishing writes the footer and fills in the size, and then stands behind the footer. -/
theorem ChunkWriter.finish_stores {writer : ChunkWriter} (hStores : stream.Stores content position)
    (hHealthy : stream.failure = none)
    (hHeader : writer.headerPosition + ChunkHeader.size ≤ position)
    (hFits : Storage.Fits β content.length (position + ChunkHeader.footerSize))
    (hBound : position + ChunkHeader.footerSize < magnitudeLimit) :
    ∃ after, writer.finish.result stream = (.ok writer.header, after) ∧
      after.Stores ((content.store position (Word.bytes writer.config.order writer.sum)).store
          (writer.headerPosition + ChunkHeader.dataSizeOffset)
          (Word.bytes writer.config.order writer.header.dataSize))
        (position + ChunkHeader.footerSize) := by
  have hLimits : magnitudeLimit < offsetLimit := by decide
  have hFooterSize : (Word.bytes writer.config.order writer.sum).length = ChunkHeader.footerSize :=
    Word.length_bytes _ _
  have hSizeWidth := Word.length_bytes writer.config.order writer.header.dataSize
  have hSize : ChunkHeader.size = ChunkHeader.dataSizeOffset + 8 := rfl
  rw [← hFooterSize] at hFits hBound ⊢
  have hSome : Word.bytes writer.config.order writer.sum ≠ [] :=
    List.ne_nil_of_length_pos (by rw [hFooterSize]; decide)
  have hReach := Nat.le_max_right content.length
    (position + (Word.bytes writer.config.order writer.sum).length)
  rw [← Bytes.length_store hSome] at hReach
  obtain ⟨footed, hFooter, hFooted, hKept⟩ :=
    Stream.putWord_writes writer.config.order writer.sum stream content position hStores hFits
  obtain ⟨asked, hPosition, hAsked, hUnfailed⟩ :=
    Stream.position_stores hFooted (hKept.trans hHealthy) (Nat.lt_trans hBound hLimits)
  obtain ⟨back, hBack, hThere, hHealthyBack⟩ := Chunk.seekTo_stores hAsked hUnfailed
    (show writer.headerPosition + ChunkHeader.dataSizeOffset ≤ _ by omega) (by omega)
  obtain ⟨filled, hFill, hFilled, hSpared⟩ :=
    Stream.putWord_writes writer.config.order writer.header.dataSize back _ _ hThere
      (Storage.fits_mono hFits (Bytes.length_le_store _ _ _) (by omega))
  obtain ⟨after, hForth, hAfter, -⟩ := Chunk.seekTo_stores hFilled (hSpared.trans hHealthyBack)
    (Nat.le_trans hReach (Bytes.length_le_store _ _ _)) (Nat.lt_trans hBound hLimits)
  refine ⟨after, ?_, hAfter⟩
  rw [finish, ChunkHeader.writeFooter, Action.result_bind_of_ok hFooter,
    Action.result_bind_of_ok (Stream.result_lift_of_ok hPosition),
    Outcome.toExcept_of_success (Outcome.code_done _),
    Action.result_bind_of_ok (Action.result_liftM_ok_of_error _ _),
    Action.result_bind_of_ok hBack, Action.result_bind_of_ok hFill, Outcome.done,
    Outcome.value_report .success hBound, Action.result_bind_of_ok hForth,
    Action.result_bind_of_ok (Action.result_emit _ _), Action.result_pure]

theorem ChunkWriter.writeAll_stores {config : ChunkConfig} {draft : ChunkDraft}
    {pieces : List Bytes} (hPieces : pieces.flatten = draft.payload)
    (hStores : stream.Stores content position) (hHealthy : stream.failure = none)
    (hBound : position + (draft.encode config).length < magnitudeLimit)
    (hFits : Storage.Fits β content.length (position + (draft.encode config).length)) :
    ∃ after, ((started draft.typeId draft.version config position).writeAll pieces).result stream =
        (.ok draft.header, after) ∧
      after.Stores (content.store position (draft.encode config))
        (position + (draft.encode config).length) := by
  have hLength : (draft.encode config).length = (ChunkHeader.encode config.order
      ⟨draft.typeId, draft.version, 0⟩ ++ draft.payload).length + ChunkHeader.footerSize := by
    rw [ChunkDraft.length_encode, List.length_append, ChunkHeader.length_encode]
    omega
  have hBody : Writes (do
      ChunkHeader.write ⟨draft.typeId, draft.version, 0⟩ config.order
      pieces.foldlM append (started draft.typeId draft.version config position) :
        Attempt β ChunkWriter)
      ((started draft.typeId draft.version config position).extended draft.payload)
      (ChunkHeader.encode config.order ⟨draft.typeId, draft.version, 0⟩ ++ draft.payload) := by
    rw [← hPieces]
    exact (ChunkHeader.write_writes _ _).bind (appendAll_writes pieces _)
  rw [hLength, ← Nat.add_assoc] at hFits hBound
  obtain ⟨body, hRun, hFilled, hSpared⟩ := hBody stream content position hStores
    (Storage.fits_mono hFits (Nat.le_refl _) (Nat.le_add_right _ _))
  rw [extended_started] at hRun
  have hHeader : position + ChunkHeader.size ≤ position + (ChunkHeader.encode config.order
      ⟨draft.typeId, draft.version, 0⟩ ++ draft.payload).length := by
    rw [List.length_append, ChunkHeader.length_encode]
    omega
  obtain ⟨after, hFinish, hAfter⟩ := @finish_stores β _ _ _ body _ _
    ⟨config, draft.header, position, crc32 draft.payload config.seed⟩ hFilled
    (hSpared.trans hHealthy) hHeader
    (Storage.fits_mono hFits (Bytes.length_le_store _ _ _) (Nat.le_refl _)) hBound
  refine ⟨after, ?_, ?_⟩
  · rw [writeAll, ← bind_assoc]
    exact (Action.result_bind_of_ok hRun _).trans hFinish
  · rw [Bytes.store_append, ChunkDraft.store_size] at hAfter
    rwa [hLength, ← Nat.add_assoc]

end Movable

variable [BoundedStorage β]

theorem Chunk.write_completes (draft : ChunkDraft) (config : ChunkConfig) :
    Completes (write draft.typeId draft.version draft.payload config : Attempt β ChunkHeader)
      draft.header (draft.encode config) := by
  intro stream content position hStores hHealthy hBound
  refine ⟨fun hFits => ?_, write_stops config draft stream content position hStores hHealthy hBound⟩
  obtain ⟨after, hRun, hAfter, -⟩ :=
    write_writes config draft stream content position hStores hFits
  exact ⟨after, hRun, hAfter⟩

variable [MovableStorage β]

/-- A chunk in pieces is completed as the chunk of all of them at once. -/
theorem ChunkWriter.writePieces_completes {draft : ChunkDraft} {pieces : List Bytes}
    (hPieces : pieces.flatten = draft.payload) (config : ChunkConfig) :
    Completes (writePieces draft.typeId draft.version pieces config : Attempt β ChunkHeader)
      draft.header (draft.encode config) := by
  intro stream content position hStores hHealthy hBound
  obtain ⟨middle, hMiddle, hUnfailed, hRun⟩ := writePieces_eq_writeAll hStores hHealthy
    (Nat.lt_of_le_of_lt (Nat.le_add_right _ _) hBound) draft.typeId draft.version pieces config
  rw [hRun]
  refine ⟨writeAll_stores hPieces hMiddle hUnfailed hBound, fun hFull => ?_⟩
  have hStops := writeAll_stops (β := β) (started draft.typeId draft.version config position) pieces
    middle content position hMiddle hUnfailed
  have hLength : (draft.encode config).length = ChunkHeader.size + (draft.payload.length + 4) := by
    rw [ChunkDraft.length_encode, ChunkHeader.footerSize]
    omega
  rw [List.length_append, List.length_append, List.append_nil, ChunkHeader.length_encode,
    Word.length_bytes, hPieces, ← hLength] at hStops
  exact hStops hBound hFull

end Storage

section Locked

variable {stream : Stream File}

theorem ChunkHeader.write_locked (hHealthy : stream.Healthy)
    (hAccess : stream.backend.access.canWrite = false) (order : ByteOrder)
    (header : ChunkHeader) :
    ∃ error after, (header.write order).result stream = (.error (.error error), after) := by
  obtain ⟨error, after, hPut⟩ :=
    Stream.putWord_locked hHealthy hAccess (by decide) order header.typeId
  exact ⟨error, after, by rw [write, Action.result_bind_of_error hPut]⟩

theorem Chunk.write_locked (hHealthy : stream.Healthy)
    (hAccess : stream.backend.access.canWrite = false) (typeId : Word 4) (version : Word 2)
    (payload : Bytes) (config : ChunkConfig) :
    ∃ error after,
      (write typeId version payload config).result stream = (.error (.error error), after) := by
  obtain ⟨error, after, hHeader⟩ := ChunkHeader.write_locked hHealthy hAccess config.order
    ⟨typeId, version, BitVec.ofNat _ payload.length⟩
  exact ⟨error, after, by rw [write, Action.result_bind_of_error hHeader]⟩

/-- The position of a file can be asked for even where nothing can be written. -/
theorem ChunkWriter.writePieces_locked (hHealthy : stream.Healthy)
    (hPosition : stream.backend.position < magnitudeLimit)
    (hAccess : stream.backend.access.canWrite = false) (typeId : Word 4) (version : Word 2)
    (pieces : List Bytes) (config : ChunkConfig) :
    ∃ error after, (writePieces typeId version pieces config).result stream =
      (.error (.error error), after) := by
  have hLimits : magnitudeLimit < offsetLimit := by decide
  have hCall : Backend.seek stream.backend stream.window 0 .current =
      ⟨.ok (.done stream.backend.position), (stream.backend, stream.window), []⟩ := by
    have hHere : Origin.current.resolve 0 stream.backend.position stream.backend.bytes.length =
        some stream.backend.position :=
      toPosition?_eq_some_iff.mpr ⟨Int.add_zero _, Nat.lt_trans hPosition (by decide)⟩
    show (File.seek stream.backend 0 .current).beside stream.window = _
    rw [File.seek, hHere]
    dsimp only
    rw [if_pos (Nat.lt_trans hPosition hLimits)]
    rfl
  have hSeek : stream.capabilities.seek = true := by
    rw [hHealthy.offered]
    rfl
  have hAsked := Stream.seek_of_call hSeek hHealthy.unfailed hHealthy.errorState_eq hCall
  have hBegin := begin_of_position hSeek hAsked hPosition typeId version config
  obtain ⟨error, after, hHeader⟩ := @ChunkHeader.write_locked
    { stream with errorState := .success } ⟨hHealthy.offered, hHealthy.unfailed, rfl⟩ hAccess
    config.order ⟨typeId, version, 0⟩
  refine ⟨error, after, ?_⟩
  rw [writePieces, Action.result_bind_congr hBegin, bind_assoc]
  exact Action.result_bind_of_error hHeader _

end Locked

namespace Medium

variable {medium : Medium} {draft : ChunkDraft} {config : ChunkConfig}

theorem completes_write [Memory] (hHealthy : medium.Healthy)
    (hBound : medium.position + (draft.encode config).length < magnitudeLimit) :
    medium.Completes (Chunk.write draft.typeId draft.version draft.payload config) draft.header
      (draft.encode config) :=
  completes_of_storages (Chunk.write_completes draft config)
    (fun _ hOpen _ hAccess => Chunk.write_locked hOpen hAccess _ _ _ config) hHealthy hBound

theorem completes_writePieces [Memory] {pieces : List Bytes} (hPieces : pieces.flatten = draft.payload)
    (hHealthy : medium.Healthy)
    (hBound : medium.position + (draft.encode config).length < magnitudeLimit) :
    medium.Completes (ChunkWriter.writePieces draft.typeId draft.version pieces config)
      draft.header (draft.encode config) :=
  completes_of_storages (ChunkWriter.writePieces_completes hPieces config)
    (fun _ hOpen hPosition hAccess =>
      ChunkWriter.writePieces_locked hOpen hPosition hAccess _ _ pieces config) hHealthy hBound

end Medium

/-- A chunk written in pieces is the chunk written at once: one succeeds exactly where the other
does, with the same header, the same content, and the position behind the chunk. Neither touches a
byte in front of the chunk or behind it. -/
theorem ChunkWriter.writePieces_like_write [Memory] {medium : Medium} (hHealthy : medium.Healthy)
    (typeId : Word 4) (version : Word 2) (config : ChunkConfig) (pieces : List Bytes)
    (hBound : medium.position +
      (ChunkHeader.size + ChunkHeader.footerSize + pieces.flatten.length) < magnitudeLimit) :
    let streamed := medium.run (writePieces typeId version pieces config)
    let written := medium.run (Chunk.write typeId version pieces.flatten config)
    let stop := medium.position +
      (ChunkHeader.size + ChunkHeader.footerSize + pieces.flatten.length)
    ((∃ header, streamed.1 = .ok header) ↔ ∃ header, written.1 = .ok header) ∧
      ∀ header, streamed.1 = .ok header →
        header = ⟨typeId, version, BitVec.ofNat _ pieces.flatten.length⟩ ∧
        written.1 = .ok header ∧ streamed.2.content = written.2.content ∧
        streamed.2.position = stop ∧ written.2.position = stop ∧
        streamed.2.content.take medium.position =
          (medium.content.zeroExtend medium.position).take medium.position ∧
        streamed.2.content.drop stop = medium.content.drop stop := by
  intro streamed written stop
  have hLength : (ChunkDraft.encode config ⟨typeId, version, pieces.flatten⟩).length =
      ChunkHeader.size + ChunkHeader.footerSize + pieces.flatten.length :=
    ChunkDraft.length_encode config _
  rw [← hLength] at hBound
  have hStreamed := @Medium.completes_writePieces medium ⟨typeId, version, pieces.flatten⟩ config
    _ pieces rfl hHealthy hBound
  have hWritten := @Medium.completes_write medium ⟨typeId, version, pieces.flatten⟩ config
    _ hHealthy hBound
  have hOk : ∀ header, streamed.1 = .ok header → written.1 = .ok header := by
    intro header hHeader
    obtain ⟨hRoom, hSame, -⟩ := hStreamed.of_ok hHeader
    rw [hSame]
    exact hWritten.ok hRoom
  refine ⟨⟨?_, ?_⟩, ?_⟩
  · rintro ⟨header, hHeader⟩
    exact ⟨header, hOk header hHeader⟩
  · rintro ⟨header, hHeader⟩
    exact ⟨_, hStreamed.ok (hWritten.of_ok hHeader).1⟩
  · intro header hHeader
    obtain ⟨-, hSame, hContent, hPosition⟩ := hStreamed.of_ok hHeader
    obtain ⟨-, -, hContent', hPosition'⟩ := hWritten.of_ok (hOk header hHeader)
    rw [hLength] at hPosition hPosition'
    refine ⟨hSame, hOk header hHeader, hContent.trans hContent'.symm, hPosition, hPosition', ?_, ?_⟩
    · rw [hContent]
      exact Bytes.take_store (ChunkDraft.encode_ne_nil _ config) _ _
    · have hStop : stop = medium.position +
          (ChunkDraft.encode config ⟨typeId, version, pieces.flatten⟩).length := by
        rw [hLength]
      rw [hContent, hStop]
      exact Bytes.drop_store_behind _ _ _

/-- Three bytes in two pieces with nothing between them, into a region with one byte to spare. -/
theorem ChunkWriter.writePieces_like_write_in_region :
    let medium : Medium := .region ⟨⟨⟨List.replicate 24 255, 2, by decide⟩⟩,
      { size := true, read := true, write := true, seek := true }, Window.empty, none, .success⟩
    let streamed := medium.run (writePieces 7 2 [[1, 2], [], [3]] ChunkConfig.bigEndian)
    let written := medium.run (Chunk.write 7 2 [1, 2, 3] ChunkConfig.bigEndian)
    medium.Healthy ∧ streamed.1 = .ok ⟨7, 2, 3⟩ ∧ written.1 = .ok ⟨7, 2, 3⟩ ∧
      streamed.2.content = written.2.content ∧ streamed.2.position = 23 ∧
      streamed.2.content.take 2 = [255, 255] ∧ streamed.2.content.drop 23 = [255] := by
  intro medium streamed written
  have hHealthy : medium.Healthy := ⟨rfl, rfl, rfl⟩
  obtain ⟨hSame, hOk⟩ := writePieces_like_write hHealthy 7 2 ChunkConfig.bigEndian
    [[1, 2], [], [3]] (by decide)
  have hStreamed : streamed.1 = .ok ⟨7, 2, 3⟩ := by rfl
  obtain ⟨-, hWritten, hContent, hPosition, -, hFront, hBehind⟩ := hOk _ hStreamed
  exact ⟨hHealthy, hStreamed, hWritten, hContent, hPosition, hFront, hBehind⟩

end Bytestream
