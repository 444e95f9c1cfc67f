import Bytestream.Proofs.ChunkReading
import Bytestream.Proofs.ChunkWriting
import Bytestream.Proofs.Media
import Bytestream.Proofs.Opening

/-!
Files of chunks. The bytes alone decide which chunks a reader finds and what ends them, and what a
writer was given is what a reader finds, over every medium and through every opening.
-/

namespace Bytestream

namespace Chunk

/-- Seeks to a position from the start, and reads chunks from there. -/
def readAllFrom [Memory] {β : Type} [Backend β] (start rounds : Nat) (config : ChunkConfig) :
    Stream.Op β (List Chunk × Option Error) := do
  let _ ← Stream.seek start .start
  readAll rounds config

section Openings

variable {config : ChunkConfig} {bytes : Bytes} {chunks : List Chunk} {error : Error}

/-- Every opening yields what the bytes parse to. -/
theorem run_readAll [Memory] (opening : Opening) (hParses : Parses config bytes chunks error)
    (rounds : Nat) :
    opening.run bytes (readAll rounds config) = .ok (found chunks error rounds) := by
  apply opening.run_of_stands
  intro β _ _ _ _ stream hStands
  exact readAll_of_parses rounds hStands hParses

/-- A position in the data resolves to itself from the start. -/
theorem resolve_start {start : Nat} (hStart : start < offsetLimit) (position length : Nat) :
    Origin.start.resolve start position length = some start := by
  have hLimit : offsetLimit < positionLimit := by decide
  exact toPosition?_eq_some_iff.mpr ⟨Int.zero_add _, Nat.lt_trans hStart hLimit⟩

/-- Every opening can start at any place in the bytes. -/
theorem run_readAllFrom [Memory] (opening : Opening) {start : Nat} (hStart : start ≤ bytes.length)
    (hLength : bytes.length < offsetLimit) (hParses : Parses config (bytes.drop start) chunks error)
    (rounds : Nat) :
    opening.run bytes (readAllFrom start rounds config) = .ok (found chunks error rounds) := by
  apply opening.run_of_stands
  intro β _ _ _ _ stream hStands
  have hTarget := resolve_start (Nat.lt_of_le_of_lt hStart hLength) 0 bytes.length
  have hOffset : -(offsetLimit : Int) ≤ start := by omega
  obtain ⟨there, hSeek, hThere⟩ := Stream.seek_reaches hStands hTarget hStart hLength hOffset
  rw [readAllFrom, Action.result_bind_of_ok hSeek]
  exact readAll_of_parses rounds hThere hParses

end Openings

/-- All openings of the same bytes find the same chunks, meet the same error behind them, and keep
its class. There are never more chunks than headers and footers fit into the bytes, and where
checksums are compared, writing the chunks again gives the bytes that they were found in. -/
theorem readAll_alike [Memory] (config : ChunkConfig) (bytes : Bytes) :
    ∃ chunks error, chunks.length ≤ bytes.length / 18 ∧
      (∀ (opening : Opening) (rounds : Nat), chunks.length < rounds →
        opening.run bytes (readAll rounds config) = .ok ((chunks, some error), error.code)) ∧
      (config.verify = true → ∃ encoded, encoded <+: bytes ∧
        Medium.Takes (writeEach config (chunks.map draft)) (chunks.map Chunk.header) encoded) := by
  obtain ⟨chunks, error, hParses⟩ := exists_parses config bytes
  refine ⟨chunks, error, hParses.length_le, ?_, ?_⟩
  · intro opening rounds hRounds
    rw [run_readAll opening hParses, found_of_lt hRounds]
  · intro hVerify
    have hTakes : Medium.Takes (writeEach config (chunks.map draft))
        ((chunks.map draft).map ChunkDraft.header)
        ((chunks.map draft).flatMap (ChunkDraft.encode config)) :=
      Medium.takes_of_writes (writeEach_writes config (chunks.map draft))
    rw [hParses.headers] at hTakes
    refine ⟨_, ?_, hTakes⟩
    rw [List.flatMap_map]
    exact hParses.encode_prefix hVerify

/-- Chunks written to any medium are read back through any opening of the written bytes, and a
chunk more than was written is the end of the stream. The same chunks are found by seeking to where
the writer began, in the medium up to where it ended and in the whole medium, where other bytes may
follow. -/
theorem readAll_of_written [Memory] {writer reader : ChunkConfig} {drafts : List ChunkDraft}
    {medium : Medium} (hOrder : reader.order = writer.order) (hSeed : reader.seed = writer.seed)
    (hMost : ∀ draft ∈ drafts, draft.payload.length ≤ reader.maxDataSize)
    (hReserve : ∀ draft ∈ drafts, draft.payload.length ≤ reservable) (hReady : medium.Ready)
    (hRoom : medium.HasRoom (drafts.flatMap (ChunkDraft.encode writer)).length) :
    ∃ after, medium.run (writeEach writer drafts) = (.ok (drafts.map ChunkDraft.header), after) ∧
      after.Ready ∧ ∀ opening : Opening,
        opening.run ((after.content.take after.position).drop medium.position)
            (readAll (drafts.length + 1) reader) =
          .ok ((drafts.map (ChunkDraft.chunk reader.seed), some .endOfStream), .endOfStream) ∧
        (medium.position ≤ after.content.length → after.content.length < offsetLimit →
          opening.run (after.content.take after.position)
              (readAllFrom medium.position (drafts.length + 1) reader) =
            .ok ((drafts.map (ChunkDraft.chunk reader.seed), some .endOfStream), .endOfStream) ∧
          opening.run after.content (readAllFrom medium.position drafts.length reader) =
            .ok ((drafts.map (ChunkDraft.chunk reader.seed), none), .success)) := by
  obtain ⟨after, hRun, hAfter, hStored, hPosition⟩ :=
    Medium.takes_of_writes (writeEach_writes writer drafts) medium hReady hRoom
  have hAlone := parses_encode_alone hOrder hSeed hMost hReserve
  obtain ⟨more, error, hRest⟩ := exists_parses reader (medium.content.drop
    (medium.position + (drafts.flatMap (ChunkDraft.encode writer)).length))
  have hWhole := parses_encode hOrder hSeed hMost hReserve hRest
  rw [← Bytes.drop_store, ← hStored] at hWhole
  have hCount : drafts.length = (drafts.map (ChunkDraft.chunk writer.seed)).length :=
    (List.length_map _).symm
  rw [← Bytes.drop_take_store medium.content (drafts.flatMap (ChunkDraft.encode writer))
    medium.position, ← hStored, ← hPosition] at hAlone
  rw [hSeed, hCount]
  refine ⟨after, hRun, hAfter, fun opening => ⟨?_, fun hStart hLength => ⟨?_, ?_⟩⟩⟩
  · rw [run_readAll opening hAlone, found_of_lt (Nat.lt_succ_self _)]
    rfl
  · have hInside : medium.position ≤ (after.content.take after.position).length := by
      rw [List.length_take]
      omega
    have hShorter : (after.content.take after.position).length < offsetLimit := by
      rw [List.length_take]
      omega
    rw [run_readAllFrom opening hInside hShorter hAlone, found_of_lt (Nat.lt_succ_self _)]
    rfl
  · rw [run_readAllFrom opening hStart hLength hWhole, found_append]

/-- Two chunks, the second one without payload, written to a file of one byte behind a gap. -/
theorem readAll_of_written_behind_gap :
    ∃ after : Medium,
      (Medium.file ⟨.opened [7] .readWrite 3, Offering.offers File, Window.empty, none, .success⟩).run
          (writeEach .bigEndian [⟨1, 2, [3, 4, 5]⟩, ⟨6, 7, []⟩]) =
        (.ok [⟨1, 2, 3⟩, ⟨6, 7, 0⟩], after) ∧
      ∀ opening : Opening,
        opening.run ((after.content.take after.position).drop 3) (readAll 3 .bigEndian) =
          .ok (([⟨⟨1, 2, 3⟩, [3, 4, 5], crc32 [3, 4, 5] 0⟩, ⟨⟨6, 7, 0⟩, [], crc32 [] 0⟩],
            some .endOfStream), .endOfStream) := by
  obtain ⟨after, hRun, -, hRead⟩ := @readAll_of_written _ .bigEndian .bigEndian
    [⟨1, 2, [3, 4, 5]⟩, ⟨6, 7, []⟩]
    (.file ⟨.opened [7] .readWrite 3, Offering.offers File, Window.empty, none, .success⟩)
    rfl rfl (by decide) (by decide) ⟨rfl, rfl, rfl, SystemCall.smooth_nil⟩
    (show 3 + 39 ≤ File.sizeLimit by decide)
  exact ⟨after, hRun, fun opening => (hRead opening).1⟩

end Chunk

end Bytestream
