import Bytestream.Proofs.ChunkDamage
import Bytestream.Proofs.ChunkStreaming

/-!
Readers with another seed than the writer. Checksums of the same payload continued from different
seeds are different, so that such a reader finds a wrong checksum in every chunk, also in one without
payload.
-/

namespace Bytestream

/-- Whoever reads what the medium holds from `start` up to its position stops at these two checksums
and keeps it as invalid data, over every opening. So does whoever seeks to `start` in the whole of
it. -/
def Medium.Mismatches [Memory] (medium : Medium) (start : Nat) (reader : ChunkConfig)
    (stored computed : Word 4) : Prop :=
  ∀ opening : Opening,
    (∀ rest : Bytes, opening.run ((medium.content.take medium.position).drop start ++ rest)
      (Action.attempt (Chunk.read reader)) =
        .ok (.error (.checksumMismatch stored.toNat computed.toNat), .invalidData)) ∧
    (medium.content.length < offsetLimit → ∀ rounds,
      opening.run medium.content (Chunk.readAllFrom start (rounds + 1) reader) =
        .ok (([], some (.checksumMismatch stored.toNat computed.toNat)), .invalidData))

namespace Chunk

variable {writer reader : ChunkConfig} {draft : ChunkDraft} {medium : Medium}

/-- What a writer makes of a draft is a wrong checksum for every reader with another seed. -/
theorem decode_of_other_seed [Memory] (hOrder : reader.order = writer.order)
    (hSeed : reader.seed ≠ writer.seed) (hVerify : reader.verify = true)
    (hMost : draft.payload.length ≤ reader.maxDataSize)
    (hReserve : draft.payload.length ≤ reservable) (rest : Bytes) :
    decode reader (draft.encode writer ++ rest) =
      .error (.checksumMismatch (crc32 draft.payload writer.seed).toNat
        (crc32 draft.payload reader.seed).toNat) := by
  have hSize : draft.header.dataSize.toNat = draft.payload.length := toNat_ofNat_length hReserve
  have hFooter := Word.length_bytes reader.order (crc32 draft.payload writer.seed)
  have hStored := Word.ofBytes_bytes reader.order (crc32 draft.payload writer.seed)
  have hSum : crc32 draft.payload reader.seed ≠ crc32 draft.payload writer.seed :=
    fun hSame => hSeed (crc32_injective draft.payload hSame)
  have hDecode := decode_append_of_mismatch hSize hFooter hMost hReserve hVerify
    (by rwa [hStored]) rest
  rwa [hStored, hOrder] at hDecode

/-- A medium that was given the encoding of a draft holds a wrong checksum for other seeds. -/
theorem mismatches_of_stored [Memory] {after : Medium} (hOrder : reader.order = writer.order)
    (hSeed : reader.seed ≠ writer.seed) (hVerify : reader.verify = true)
    (hMost : draft.payload.length ≤ reader.maxDataSize)
    (hReserve : draft.payload.length ≤ reservable)
    (hStored : after.content = medium.content.store medium.position (draft.encode writer))
    (hPosition : after.position = medium.position + (draft.encode writer).length) :
    after.Mismatches medium.position reader (crc32 draft.payload writer.seed)
      (crc32 draft.payload reader.seed) := by
  have hDecode := @decode_of_other_seed _ _ draft _ hOrder hSeed hVerify hMost hReserve
  intro opening
  refine ⟨fun rest => ?_, fun hLength rounds => ?_⟩
  · rw [hStored, hPosition, Bytes.drop_take_store]
    exact run_read_of_error opening (hDecode rest)
  · have hInside : medium.position ≤ after.content.length := by
      rw [hStored, Bytes.length_store (draft.encode_ne_nil writer)]
      omega
    have hParses : Parses reader (after.content.drop medium.position) []
        (.checksumMismatch (crc32 draft.payload writer.seed).toNat
          (crc32 draft.payload reader.seed).toNat) := by
      rw [hStored, Bytes.drop_store]
      exact .ended (hDecode _)
    rw [run_readAllFrom opening hInside hLength hParses, found_of_lt (Nat.succ_pos rounds)]
    rfl

/-- A reader with another seed never accepts a chunk. Whatever was written to a medium, at once or in
pieces, a reader with the same byte order that compares checksums stops with the one of the writer
and its own. -/
theorem other_seed_rejects [Memory] (hOrder : reader.order = writer.order)
    (hSeed : reader.seed ≠ writer.seed) (hVerify : reader.verify = true)
    (hMost : draft.payload.length ≤ reader.maxDataSize)
    (hReserve : draft.payload.length ≤ reservable) (hReady : medium.Ready)
    (hRoom : medium.HasRoom (18 + draft.payload.length)) :
    (∃ after, medium.run (write draft.typeId draft.version draft.payload writer) =
        (.ok draft.header, after) ∧
      after.Mismatches medium.position reader (crc32 draft.payload writer.seed)
        (crc32 draft.payload reader.seed)) ∧
    ∀ pieces : List Bytes, pieces.flatten = draft.payload → medium.Healthy →
      medium.position + (18 + draft.payload.length) < magnitudeLimit →
      ∃ after, medium.run (ChunkWriter.writePieces draft.typeId draft.version pieces writer) =
          (.ok draft.header, after) ∧
        after.Mismatches medium.position reader (crc32 draft.payload writer.seed)
          (crc32 draft.payload reader.seed) := by
  have hLength : (draft.encode writer).length = 18 + draft.payload.length :=
    draft.length_encode writer
  rw [← hLength] at hRoom ⊢
  refine ⟨?_, fun pieces hPieces hHealthy hBound => ?_⟩
  · obtain ⟨after, hRun, -, hStored, hPosition⟩ :=
      Medium.takes_of_writes (write_writes writer draft) medium hReady hRoom
    exact ⟨after, hRun,
      mismatches_of_stored hOrder hSeed hVerify hMost hReserve hStored hPosition⟩
  · obtain ⟨after, hRun, hStored, hPosition⟩ :=
      (Medium.completes_writePieces hPieces hHealthy hBound).1 ⟨hReady, hRoom⟩
    exact ⟨after, hRun,
      mismatches_of_stored hOrder hSeed hVerify hMost hReserve hStored hPosition⟩

/-- A new vector. -/
def newVector : Medium :=
  .vector ⟨Growable.ofBytes [], Offering.offers Growable, Window.empty, none, .success⟩

/-- Three bytes are summed on from five, at once and in pieces with nothing in the second one. A reader
that sums them on from six finds the same two checksums in both chunks. -/
theorem other_seed_rejects_three_bytes :
    ∃ atOnce inPieces,
      newVector.run (write 1 2 [1, 2, 3] { seed := 5 }) = (.ok ⟨1, 2, 3⟩, atOnce) ∧
      newVector.run (ChunkWriter.writePieces 1 2 [[1], [], [2, 3]] { seed := 5 }) =
        (.ok ⟨1, 2, 3⟩, inPieces) ∧
      ∀ (after : Medium) (opening : Opening), after = atOnce ∨ after = inPieces →
        opening.run ((after.content.take after.position).drop 0 ++ [9])
          (Action.attempt (read { seed := 6 })) =
            .ok (.error (.checksumMismatch 1400324854 1362230447), .invalidData) := by
  obtain ⟨⟨atOnce, hRun, hMismatches⟩, hPieces⟩ := @other_seed_rejects { seed := 5 } { seed := 6 }
    ⟨1, 2, [1, 2, 3]⟩ newVector _ rfl (by decide) rfl (by decide) (by decide) ⟨rfl, rfl⟩
    (.inr (by decide))
  obtain ⟨inPieces, hRun', hMismatches'⟩ := hPieces [[1], [], [2, 3]] rfl ⟨rfl, rfl, rfl⟩ (by decide)
  have hWriter : (crc32 [1, 2, 3] 5).toNat = 1400324854 := by decide +kernel
  have hReader : (crc32 [1, 2, 3] 6).toNat = 1362230447 := by decide +kernel
  rw [← hWriter, ← hReader]
  refine ⟨atOnce, inPieces, hRun, hRun', ?_⟩
  rintro after opening (rfl | rfl)
  · exact (hMismatches opening).1 [9]
  · exact (hMismatches' opening).1 [9]

end Chunk

end Bytestream
