import Bytestream.Proofs.ChunkReading
import Bytestream.Proofs.ChunkWriting
import Bytestream.Proofs.Media
import Bytestream.Proofs.ReadableBackends

/-!
What a chunk reader accepts. Over read-only memory every outcome of a read is given by the bytes
that are left, with the position at which it leaves the stream.
-/

namespace Bytestream

/-- A stream over read-only memory at a position in it, where nothing failed for good. -/
def Stream.memory (bytes : Bytes) (position : Nat) (hPosition : position ≤ bytes.length)
    (code : Code) : Stream ReadOnly where
  backend := ⟨bytes⟩
  capabilities := Backend.capabilities (ReadOnly.mk bytes)
  window := ⟨0, position, bytes.length, Nat.zero_le position, hPosition⟩
  errorState := code

theorem Stream.stands_memory {bytes : Bytes} {position : Nat} (hPosition : position ≤ bytes.length)
    (code : Code) : (memory bytes position hPosition code).Stands bytes position code :=
  ⟨rfl, rfl, ⟨rfl, rfl, rfl, rfl⟩, rfl⟩

/-- Where a stream over read-only memory stands says all there is to say of it. -/
theorem Stream.eq_memory_of_stands {stream : Stream ReadOnly} {bytes : Bytes} {position : Nat}
    {code : Code} (hStands : stream.Stands bytes position code) :
    ∃ hPosition, stream = memory bytes position hPosition code := by
  obtain ⟨⟨source⟩, capabilities, ⟨start, cursor, stop, hStart, hCursor⟩, failure, errorState⟩ :=
    stream
  obtain ⟨hUnfailed, hOffered, ⟨hBytes, hFront, hPosition, hStop⟩, hCode⟩ := hStands
  dsimp only at hUnfailed hOffered hBytes hFront hPosition hStop hCode
  subst hUnfailed hOffered hBytes hFront hPosition hStop hCode
  exact ⟨hCursor, rfl⟩

namespace Chunk

section Memory

variable {config : ChunkConfig} {bytes : Bytes} {position : Nat} {chunk : Chunk} {error : Error}

theorem read_memory_of_decode [Memory] (hPosition : position ≤ bytes.length)
    (hDecode : decode config (bytes.drop position) = .ok chunk) :
    ∃ hReached, (read config).result (Stream.memory bytes position hPosition .success) =
      (.ok chunk, Stream.memory bytes (position + chunk.header.chunkLength) hReached .success) := by
  obtain ⟨after, hRead, hAfter⟩ := read_reaches (Stream.stands_memory hPosition .success) hDecode
  obtain ⟨hReached, rfl⟩ := Stream.eq_memory_of_stands hAfter
  exact ⟨hReached, hRead⟩

/-- A reader that yields a chunk was given the bytes of that chunk. -/
theorem decode_of_read_memory [Memory] {hPosition : position ≤ bytes.length} {after : Stream ReadOnly}
    (hRead : (read config).result (Stream.memory bytes position hPosition .success) =
      (.ok chunk, after)) :
    decode config (bytes.drop position) = .ok chunk ∧
      ∃ hReached,
        after = Stream.memory bytes (position + chunk.header.chunkLength) hReached .success := by
  cases hDecode : decode config (bytes.drop position) with
  | ok decoded =>
      obtain ⟨hReached, hRun⟩ := read_memory_of_decode hPosition hDecode
      rw [hRead] at hRun
      cases hRun
      exact ⟨rfl, hReached, rfl⟩
  | error error =>
      obtain ⟨last, hRun, -⟩ := read_fails (Stream.stands_memory hPosition .success) hDecode
      rw [hRead] at hRun
      cases hRun

/-- An error that a reader itself finds leaves the stream behind what it has read. -/
theorem result_memory_of_rejects [Memory] {hPosition : position ≤ bytes.length} {reached : Nat}
    (hRejects : (Stream.memory bytes position hPosition .success).Rejects (read config) error bytes
      reached) :
    ∃ hReached, (read config).result (Stream.memory bytes position hPosition .success) =
      (.error (.error error), Stream.memory bytes reached hReached error.code) := by
  obtain ⟨after, hRead, hAfter⟩ := hRejects
  obtain ⟨hReached, rfl⟩ := Stream.eq_memory_of_stands hAfter
  exact ⟨hReached, hRead⟩

end Memory

/-- A reader over read-only memory accepts exactly the bytes of a chunk: a header, as many payload
bytes as it declares, no more than the limit, and a footer that holds their checksum where it is
compared. It returns those fields and moves behind them, and writing them again makes the same
bytes. What else it meets is told apart in the order of the last four cases. -/
theorem read_accepts_exactly [Memory] (config : ChunkConfig) {bytes rest : Bytes} {position size : Nat}
    {found : Chunk} (hPosition : position ≤ bytes.length) (hRest : bytes.drop position = rest)
    (hFound : fields config.order rest = found) (hSize : found.header.dataSize.toNat = size)
    (hReserve : size ≤ config.maxDataSize → size ≤ reservable) :
    ((∃ chunk after, (read config).result (Stream.memory bytes position hPosition .success) =
        (.ok chunk, after)) ↔
      18 + size ≤ rest.length ∧ size ≤ config.maxDataSize ∧
        (config.verify = false ∨ found.checksum = crc32 found.payload config.seed)) ∧
    (∀ chunk after, (read config).result (Stream.memory bytes position hPosition .success) =
        (.ok chunk, after) →
      chunk = found ∧
      (∃ hReached, after = Stream.memory bytes (position + (18 + size)) hReached .success) ∧
      (config.verify = true →
        Medium.Takes (write found.header.typeId found.header.version found.payload config)
          found.header (rest.take (18 + size)))) ∧
    (rest.length < 14 →
      (Stream.memory bytes position hPosition .success).Fails (read config) .endOfStream) ∧
    (14 ≤ rest.length → config.maxDataSize < size → ∃ hReached,
      (read config).result (Stream.memory bytes position hPosition .success) =
        (.error (.error (.malformed (.oversizedPayload found.header.typeId.toNat size
          config.maxDataSize))), Stream.memory bytes (position + 14) hReached .invalidData)) ∧
    (14 ≤ rest.length → size ≤ config.maxDataSize → rest.length < 18 + size →
      (Stream.memory bytes position hPosition .success).Fails (read config) .endOfStream) ∧
    (18 + size ≤ rest.length → size ≤ config.maxDataSize → config.verify = true →
      found.checksum ≠ crc32 found.payload config.seed → ∃ hReached,
      (read config).result (Stream.memory bytes position hPosition .success) =
        (.error (.error (.checksumMismatch found.checksum.toNat
          (crc32 found.payload config.seed).toNat)),
          Stream.memory bytes (position + (18 + size)) hReached .invalidData)) := by
  subst hRest hSize hFound
  have hStands := Stream.stands_memory hPosition .success
  have hLength : (bytes.drop position).length = bytes.length - position := List.length_drop
  have hDecode := @decode_eq_ok_iff _ config (bytes.drop position)
  refine ⟨⟨?_, ?_⟩, ?_, ?_, ?_, ?_, ?_⟩
  · rintro ⟨chunk, after, hRead⟩
    obtain ⟨rfl, hWhole, hMost, -, hSum⟩ := hDecode.mp (decode_of_read_memory hRead).1
    refine ⟨hWhole, hMost, ?_⟩
    cases hVerify : config.verify with
    | false => exact .inl rfl
    | true => exact .inr (hSum hVerify)
  · rintro ⟨hWhole, hMost, hSum⟩
    have hChecked : config.verify = true →
        (fields config.order (bytes.drop position)).checksum =
          crc32 (fields config.order (bytes.drop position)).payload config.seed := by
      intro hVerify
      rcases hSum with hUnchecked | hSum
      · rw [hUnchecked] at hVerify
        cases hVerify
      · exact hSum
    obtain ⟨hReached, hRead⟩ :=
      read_memory_of_decode hPosition (hDecode.mpr ⟨rfl, hWhole, hMost, hReserve hMost, hChecked⟩)
    exact ⟨_, _, hRead⟩
  · intro chunk after hRead
    obtain ⟨hChunk, hAfter⟩ := decode_of_read_memory hRead
    obtain ⟨rfl, -⟩ := hDecode.mp hChunk
    -- A writer makes the bytes of what was found, and those are the bytes that were consumed.
    refine ⟨rfl, hAfter, fun hVerify => ?_⟩
    have hBytes := encode_of_decode hChunk hVerify
    have hTakes : Medium.Takes _ _ _ := Medium.takes_of_writes
      (write_writes config (fields config.order (bytes.drop position)).draft)
    rw [hBytes, header_draft_of_decode hChunk] at hTakes
    exact hTakes
  · intro hShort
    exact read_fails hStands (by rw [decode]; exact if_pos hShort)
  · intro hHeader hMost
    exact result_memory_of_rejects (read_rejects_oversized hStands (hLength ▸ hHeader) hMost)
  · intro hHeader hMost hShort
    exact read_fails hStands (decode_of_cut hMost (hReserve hMost) hShort)
  · intro hWhole hMost hVerify hSum
    exact result_memory_of_rejects (read_rejects_mismatch hStands rfl (hLength ▸ hWhole) hMost
      (hReserve hMost) hVerify (Ne.symm hSum))

/-- A chunk of two payload bytes with their checksum, behind one byte that is skipped. -/
theorem read_accepts_exactly_two_bytes :
    ∃ chunk after, (read {}).result (Stream.memory
        [9, 1, 0, 0, 0, 2, 0, 2, 0, 0, 0, 0, 0, 0, 0, 104, 105, 172, 42, 147, 216] 1 (by decide)
        .success) = (.ok chunk, after) :=
  (read_accepts_exactly {} (by decide) rfl rfl rfl (by decide)).1.mpr
    ⟨by decide, by decide, .inr (by decide +kernel)⟩

end Chunk

end Bytestream
