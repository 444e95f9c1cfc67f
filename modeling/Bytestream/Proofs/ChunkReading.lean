import Bytestream.Proofs.ChunkFormat
import Bytestream.Proofs.Readable

/-!
Reading chunks off any backend that reads in order. What the reader returns and where it stops is
decided by the bytes at the position of the stream, as the format describes them.
-/

namespace Bytestream

variable {β : Type} [Backend β] [Readable β]
variable {stream : Stream β} {data : Bytes} {position : Nat}

namespace Chunk

/-- Behind a header the payload is reserved, read and summed, and then the footer is read. -/
theorem readPayloadVerified_eq [Memory] {β : Type} [Backend β] {config : ChunkConfig}
    {header : ChunkHeader}
    (hReserve : header.dataSize.toNat ≤ reservable) :
    (readPayloadVerified header config : Stream.Attempt β (Bytes × Word 4)) = (do
      let (payload, computed) ← readPayload header.dataSize.toNat config.seed
      let stored ← ChunkHeader.readFooter config.order
      if config.verify && computed ≠ stored then
        let _ ← Stream.lift (Stream.record .invalidData)
        Action.emit (.checksumDiffers header.typeId.toNat stored.toNat computed.toNat)
        Action.stop (.error (.checksumMismatch stored.toNat computed.toNat))
      else return (payload, stored)) := by
  rw [readPayloadVerified]
  exact if_neg (by omega)

theorem readPayloadVerified_unreserved [Memory] {config : ChunkConfig} {header : ChunkHeader}
    (hStands : stream.Stands data position .success)
    (hReserve : reservable < header.dataSize.toNat) :
    stream.Rejects (readPayloadVerified header config) .allocationFailure data position := by
  rw [readPayloadVerified]
  dsimp only
  rw [if_pos hReserve]
  exact Stream.reject_rejects hStands rfl

end Chunk

namespace Stream

/-- A word is the next bytes of its width, read at once. -/
theorem readWord_reaches [ReadsAhead β] {width : Nat} (order : ByteOrder)
    (hStands : stream.Stands data position .success) (hEnough : width ≤ data.length - position)
    (hWidth : width < magnitudeLimit) :
    stream.Reaches (readWord order width)
      (Word.ofBytes order width ((data.drop position).take width)) data (position + width) := by
  obtain ⟨after, hRead, hAfter⟩ := ReadsAhead.read_reaches hStands hEnough
  refine ⟨after, ?_, hAfter⟩
  rw [readWord, Action.result_bind_of_ok (result_lift_of_ok hRead),
    Outcome.toExcept_of_success (Outcome.code_done width),
    Action.result_bind_of_ok (Action.result_liftM_ok_of_error _ _),
    Transfer.fill_piece hEnough, Outcome.done, if_pos (Outcome.value_report _ hWidth), Action.result_pure]

theorem readWord_fails [ReadsInOrder β] {width : Nat} (order : ByteOrder)
    (hStands : stream.Stands data position .success) (hShort : data.length - position < width) :
    stream.Fails (readWord order width) .endOfStream := by
  obtain ⟨after, hRead, -, hCode⟩ :=
    ReadsInOrder.read_delivers hStands (by omega : 0 < width)
  rw [Transfer.copy_short (by rwa [List.length_drop])] at hRead
  refine ⟨after, ?_, hCode hShort⟩
  rw [readWord, Action.result_bind_of_ok (result_lift_of_ok hRead),
    Outcome.toExcept_of_failure (by exact Code.noConfusion),
    Action.result_bind_of_error (Action.result_liftM_error_of_error _ _)]
  rfl

end Stream

namespace ChunkHeader

theorem read_reaches [ReadsAhead β] (order : ByteOrder)
    (hStands : stream.Stands data position .success)
    (hEnough : size ≤ data.length - position) :
    stream.Reaches (read order) (decode order (data.drop position)) data (position + size) := by
  have hSize : size = 4 + 2 + 8 := rfl
  rw [hSize] at hEnough
  apply (Stream.readWord_reaches order hStands (by omega) (by decide)).bind
  intro second hSecond
  apply (Stream.readWord_reaches order hSecond (by omega) (by decide)).bind
  intro third hThird
  apply (Stream.readWord_reaches order hThird (by omega) (by decide)).bind
  intro last hLast
  have hFields : decode order (data.drop position) =
      ⟨Word.ofBytes order 4 ((data.drop position).take 4),
        Word.ofBytes order 2 ((data.drop (position + 4)).take 2),
        Word.ofBytes order 8 ((data.drop (position + 4 + 2)).take 8)⟩ := by
    simp only [decode, dataSizeOffset, List.drop_drop, Nat.add_assoc]
  rw [hFields]
  exact hLast.reaches_pure _

/-- A header that is cut off anywhere ends the data. -/
theorem read_fails [ReadsInOrder β] (order : ByteOrder)
    (hStands : stream.Stands data position .success)
    (hShort : data.length - position < size) :
    stream.Fails (read order : Stream.Attempt β ChunkHeader) .endOfStream := by
  have hSize : size = 4 + 2 + 8 := rfl
  rw [hSize] at hShort
  by_cases hFirst : data.length - position < 4
  · exact (Stream.readWord_fails order hStands hFirst).bind _
  apply (Stream.readWord_reaches order hStands (by omega) (by decide)).bind_fails
  intro second hSecond
  by_cases hMiddle : data.length - (position + 4) < 2
  · exact (Stream.readWord_fails order hSecond hMiddle).bind _
  apply (Stream.readWord_reaches order hSecond (by omega) (by decide)).bind_fails
  intro third hThird
  exact (Stream.readWord_fails order hThird (by omega)).bind _

end ChunkHeader

namespace Chunk

/-- The limit is checked before anything behind the header is touched. -/
theorem readHeader_reaches [ReadsAhead β] {config : ChunkConfig}
    (hStands : stream.Stands data position .success)
    (hEnough : ChunkHeader.size ≤ data.length - position)
    (hMost : (ChunkHeader.decode config.order (data.drop position)).dataSize.toNat ≤
      config.maxDataSize) :
    stream.Reaches (readHeader config) (ChunkHeader.decode config.order (data.drop position)) data
      (position + ChunkHeader.size) := by
  apply (ChunkHeader.read_reaches config.order hStands hEnough).bind
  intro after hAfter
  dsimp only
  rw [if_neg (by omega)]
  exact ⟨after, rfl, hAfter⟩

theorem readHeader_rejects [ReadsAhead β] {config : ChunkConfig}
    (hStands : stream.Stands data position .success)
    (hEnough : ChunkHeader.size ≤ data.length - position)
    (hMost : config.maxDataSize <
      (ChunkHeader.decode config.order (data.drop position)).dataSize.toNat) :
    stream.Rejects (readHeader config)
      (.malformed (.oversizedPayload
        (ChunkHeader.decode config.order (data.drop position)).typeId.toNat
        (ChunkHeader.decode config.order (data.drop position)).dataSize.toNat config.maxDataSize))
      data (position + ChunkHeader.size) := by
  apply (ChunkHeader.read_reaches config.order hStands hEnough).bind_rejects
  intro after hAfter
  dsimp only
  rw [if_pos hMost]
  exact Stream.reject_rejects hAfter rfl

section Payload

variable {config : ChunkConfig} {header : ChunkHeader} {payload : Bytes} {stored : Word 4}

theorem readPayloadVerified_reaches [Memory] [ReadsAhead β]
    (hStands : stream.Stands data position .success)
    (hReserve : header.dataSize.toNat ≤ reservable)
    (hEnough : header.dataSize.toNat + ChunkHeader.footerSize ≤ data.length - position)
    (hPayload : (data.drop position).take header.dataSize.toNat = payload)
    (hStored : Word.ofBytes config.order 4
      ((data.drop (position + header.dataSize.toNat)).take 4) = stored)
    (hSum : config.verify = true → stored = crc32 payload config.seed) :
    stream.Reaches (readPayloadVerified header config) (payload, stored) data
      (position + (header.dataSize.toNat + ChunkHeader.footerSize)) := by
  rw [readPayloadVerified_eq hReserve]
  apply (ReadsAhead.payload_reaches config.seed hStands (by omega)).bind
  intro behind hBehind
  apply (Stream.readWord_reaches config.order hBehind
    (by rw [ChunkHeader.footerSize] at hEnough; omega) (by decide)).bind
  intro after hAfter
  have hRight : ¬(config.verify && crc32 payload config.seed ≠ stored) = true := by
    intro hWrong
    simp only [Bool.and_eq_true, decide_eq_true_eq] at hWrong
    exact hWrong.2 (hSum hWrong.1).symm
  rw [hPayload, hStored, if_neg hRight]
  exact hAfter.reaches_pure _

/-- A wrong checksum is found only once the footer was read, and the stream stays behind it. -/
theorem readPayloadVerified_rejects [Memory] [ReadsAhead β]
    (hStands : stream.Stands data position .success)
    (hReserve : header.dataSize.toNat ≤ reservable)
    (hEnough : header.dataSize.toNat + ChunkHeader.footerSize ≤ data.length - position)
    (hPayload : (data.drop position).take header.dataSize.toNat = payload)
    (hStored : Word.ofBytes config.order 4
      ((data.drop (position + header.dataSize.toNat)).take 4) = stored)
    (hVerify : config.verify = true) (hSum : crc32 payload config.seed ≠ stored) :
    stream.Rejects (readPayloadVerified header config)
      (.checksumMismatch stored.toNat (crc32 payload config.seed).toNat) data
      (position + (header.dataSize.toNat + ChunkHeader.footerSize)) := by
  rw [readPayloadVerified_eq hReserve]
  apply (ReadsAhead.payload_reaches config.seed hStands (by omega)).bind_rejects
  intro behind hBehind
  apply (Stream.readWord_reaches config.order hBehind
    (by rw [ChunkHeader.footerSize] at hEnough; omega) (by decide)).bind_rejects
  intro after hAfter
  have hWrong : (config.verify && crc32 payload config.seed ≠ stored) = true := by
    simp only [hVerify, Bool.true_and, decide_eq_true_eq]
    exact hSum
  rw [hPayload, hStored, if_pos hWrong]
  refine ⟨{ after with errorState := .invalidData }, ?_, hAfter.mark .invalidData⟩
  rw [Action.result_bind_of_ok (Stream.result_lift_of_ok
      (Stream.result_record_of_clean hAfter.errorState_eq .invalidData)),
    Action.result_bind_of_ok (Action.result_emit _ _), Action.result_stop]

/-- A payload or a footer that is cut off ends the data. -/
theorem readPayloadVerified_fails [Memory] [ReadsInOrder β]
    (hStands : stream.Stands data position .success)
    (hReserve : header.dataSize.toNat ≤ reservable)
    (hShort : data.length - position < header.dataSize.toNat + ChunkHeader.footerSize) :
    stream.Fails (readPayloadVerified header config) .endOfStream := by
  rw [readPayloadVerified_eq hReserve]
  by_cases hPayload : data.length - position < header.dataSize.toNat
  · exact (ReadsInOrder.payload_fails config.seed hStands hPayload).bind _
  apply (ReadsAhead.payload_reaches config.seed hStands (by omega)).bind_fails
  intro behind hBehind
  rw [ChunkHeader.footerSize] at hShort
  exact (Stream.readWord_fails config.order hBehind (by omega)).bind _

end Payload

section Read

variable {config : ChunkConfig}

theorem read_rejects_oversized [Memory] [ReadsAhead β] (hStands : stream.Stands data position .success)
    (hEnough : ChunkHeader.size ≤ data.length - position)
    (hMost : config.maxDataSize < (fields config.order (data.drop position)).header.dataSize.toNat) :
    stream.Rejects (read config)
      (.malformed (.oversizedPayload
        (fields config.order (data.drop position)).header.typeId.toNat
        (fields config.order (data.drop position)).header.dataSize.toNat config.maxDataSize))
      data (position + ChunkHeader.size) :=
  (readHeader_rejects hStands hEnough hMost).bind _

theorem read_reaches [Memory] [ReadsAhead β] (hStands : stream.Stands data position .success)
    {chunk : Chunk}
    (hDecode : decode config (data.drop position) = .ok chunk) :
    stream.Reaches (read config) chunk data (position + chunk.header.chunkLength) := by
  obtain ⟨rfl, hWhole, hMost, hReserve, hSum⟩ := decode_eq_ok_iff.mp hDecode
  have hSplit : (fields config.order (data.drop position)).header.chunkLength =
      ChunkHeader.size + ((fields config.order (data.drop position)).header.dataSize.toNat +
        ChunkHeader.footerSize) := by
    rw [ChunkHeader.chunkLength]
    omega
  rw [hSplit, List.length_drop] at hWhole
  rw [hSplit, ← Nat.add_assoc]
  apply (readHeader_reaches hStands (by omega) hMost).bind
  intro behind hBehind
  apply (readPayloadVerified_reaches hBehind hReserve (by omega) ?_ ?_ hSum).bind
  · intro after hAfter
    exact hAfter.reaches_pure _
  · rw [← List.drop_drop]
    rfl
  · rw [← List.drop_drop, ← List.drop_drop]
    rfl

theorem read_rejects_mismatch [Memory] [ReadsAhead β]
    (hStands : stream.Stands data position .success) {chunk : Chunk}
    (hChunk : fields config.order (data.drop position) = chunk)
    (hWhole : chunk.header.chunkLength ≤ data.length - position)
    (hMost : chunk.header.dataSize.toNat ≤ config.maxDataSize)
    (hReserve : chunk.header.dataSize.toNat ≤ reservable) (hVerify : config.verify = true)
    (hSum : crc32 chunk.payload config.seed ≠ chunk.checksum) :
    stream.Rejects (read config)
      (.checksumMismatch chunk.checksum.toNat (crc32 chunk.payload config.seed).toNat) data
      (position + chunk.header.chunkLength) := by
  subst hChunk
  have hSplit : (fields config.order (data.drop position)).header.chunkLength =
      ChunkHeader.size + ((fields config.order (data.drop position)).header.dataSize.toNat +
        ChunkHeader.footerSize) := by
    rw [ChunkHeader.chunkLength]
    omega
  rw [hSplit] at hWhole
  rw [hSplit, ← Nat.add_assoc]
  apply (readHeader_reaches hStands (by omega) hMost).bind_rejects
  intro behind hBehind
  apply (readPayloadVerified_rejects hBehind hReserve (by omega) ?_ ?_ hVerify hSum).bind
  · rw [← List.drop_drop]
    rfl
  · rw [← List.drop_drop, ← List.drop_drop]
    rfl

/-- What keeps the bytes from being a chunk is the error of the reader. -/
theorem read_fails [Memory] [ReadsInOrder β] (hStands : stream.Stands data position .success)
    {error : Error}
    (hDecode : decode config (data.drop position) = .error error) :
    stream.Fails (read config) error := by
  simp only [decode, List.length_drop] at hDecode
  split at hDecode
  · rename_i hShort
    cases hDecode
    exact ((ChunkHeader.read_fails config.order hStands hShort).bind _).bind _
  rename_i hHeader
  split at hDecode
  · rename_i hMost
    cases hDecode
    exact (read_rejects_oversized hStands (by omega) hMost).fails
  rename_i hMost
  split at hDecode
  · rename_i hReserve
    cases hDecode
    apply (readHeader_reaches hStands (by omega) (Nat.le_of_not_lt hMost)).bind_fails
    intro behind hBehind
    exact (readPayloadVerified_unreserved hBehind hReserve).fails.bind _
  rename_i hReserve
  split at hDecode
  · rename_i hShort
    cases hDecode
    apply (readHeader_reaches hStands (by omega) (Nat.le_of_not_lt hMost)).bind_fails
    intro behind hBehind
    rw [ChunkHeader.chunkLength] at hShort
    have hCut : data.length - (position + ChunkHeader.size) <
        (fields config.order (data.drop position)).header.dataSize.toNat +
          ChunkHeader.footerSize := by
      omega
    exact (readPayloadVerified_fails hBehind (Nat.le_of_not_lt hReserve) hCut).bind _
  rename_i hWhole
  split at hDecode
  · rename_i hSum
    cases hDecode
    simp only [Bool.and_eq_true, decide_eq_true_eq] at hSum
    exact (read_rejects_mismatch hStands rfl (Nat.le_of_not_lt hWhole) (Nat.le_of_not_lt hMost)
      (Nat.le_of_not_lt hReserve) hSum.1 hSum.2).fails
  · cases hDecode

/-- What reading chunk after chunk yields where these chunks lie and then `error` is met, with the
error state that it leaves: the first chunks where the rounds are few, and all of them with the
error that ended them where there is a round more. -/
def found (chunks : List Chunk) (error : Error) (rounds : Nat) :
    (List Chunk × Option Error) × Code :=
  if chunks.length < rounds then ((chunks, some error), error.code)
  else ((chunks.take rounds, none), .success)

theorem found_of_lt {chunks : List Chunk} {rounds : Nat} (hRounds : chunks.length < rounds)
    (error : Error) : found chunks error rounds = ((chunks, some error), error.code) :=
  if_pos hRounds

/-- As many rounds as there are chunks do not reach what lies behind them. -/
theorem found_append (chunks more : List Chunk) (error : Error) :
    found (chunks ++ more) error chunks.length = ((chunks, none), .success) := by
  rw [found, if_neg (by rw [List.length_append]; omega), List.take_left]

/-- One chunk more and one round more find that chunk before the others. -/
theorem found_cons (chunk : Chunk) (later : List Chunk) (error : Error) (rounds : Nat) :
    found (chunk :: later) error (rounds + 1) =
      ((chunk :: (found later error rounds).1.1, (found later error rounds).1.2),
        (found later error rounds).2) := by
  simp only [found, List.length_cons, Nat.add_lt_add_iff_right]
  by_cases hRounds : later.length < rounds
  · simp only [if_pos hRounds]
  · simp only [if_neg hRounds, List.take_succ_cons]

/-- Reading chunk after chunk yields what the bytes parse to. -/
theorem readAll_of_parses [Memory] [ReadsInOrder β] {chunks : List Chunk} {error : Error} (rounds : Nat)
    (hStands : stream.Stands data position .success)
    (hParses : Parses config (data.drop position) chunks error) :
    ∃ after, (readAll rounds config).result stream = (.ok (found chunks error rounds).1, after) ∧
      after.errorState = (found chunks error rounds).2 := by
  induction rounds generalizing stream position chunks with
  | zero => exact ⟨stream, rfl, hStands.errorState_eq⟩
  | succ rounds ih =>
      cases hParses with
      | ended hDecode =>
          obtain ⟨after, hRead, hCode⟩ := read_fails hStands hDecode
          refine ⟨after, ?_, hCode⟩
          rw [readAll, Action.result_bind_of_ok (Action.result_attempt_of_error hRead)]
          rfl
      | @chunk _ chunk later _ hDecode hLater =>
          obtain ⟨behind, hRead, hBehind⟩ := read_reaches hStands hDecode
          rw [List.drop_drop] at hLater
          obtain ⟨after, hRest, hCode⟩ := ih hBehind hLater
          rw [found_cons]
          refine ⟨after, ?_, hCode⟩
          rw [readAll, Action.result_bind_of_ok (Action.result_attempt_of_ok hRead)]
          dsimp only
          rw [Action.result_bind_of_ok hRest, Action.result_pure]

end Read

end Chunk

end Bytestream
