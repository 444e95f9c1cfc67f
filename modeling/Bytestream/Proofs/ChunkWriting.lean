import Bytestream.Chunk.Writer
import Bytestream.Proofs.ChunkFormat
import Bytestream.Proofs.Writing

/-!
Writing chunks to any storage. The writes of a chunk add up to its encoding, and the chunks of a
list lie one behind the other.
-/

namespace Bytestream

variable {β : Type} [Backend β]

/-- Writes a chunk for each draft in order, and yields their headers. -/
def Chunk.writeEach (config : ChunkConfig) :
    List ChunkDraft → Stream.Attempt β (List ChunkHeader)
  | [] => return []
  | draft :: later => do
      let header ← write draft.typeId draft.version draft.payload config
      let headers ← writeEach config later
      return header :: headers

variable [Storage β]

theorem ChunkHeader.write_writes (order : ByteOrder) (header : ChunkHeader) :
    Stream.Writes (header.write order : Stream.Attempt β Unit) () (header.encode order) := by
  rw [encode, List.append_assoc]
  exact (Stream.putWord_writes order header.typeId).bind
    ((Stream.putWord_writes order header.version).bind
      (Stream.putWord_writes order header.dataSize))

namespace Chunk

theorem putBytes_writes (bytes : Bytes) :
    Stream.Writes (putBytes bytes : Stream.Attempt β Unit) () bytes := by
  intro stream content position hStores hFits
  obtain ⟨after, hWrite, hAfter⟩ := Stream.write_stores hStores hFits
  refine ⟨after, ?_, hAfter⟩
  rw [putBytes, Action.result_bind_of_ok (Stream.result_lift_of_ok hWrite),
    Outcome.toExcept_of_success (Outcome.code_done _),
    Action.result_bind_of_ok (Action.result_liftM_ok_of_error _ _), Action.result_pure]

/-- One chunk is written as header, payload and footer. -/
theorem write_writes (config : ChunkConfig) (draft : ChunkDraft) :
    Stream.Writes (write draft.typeId draft.version draft.payload config : Stream.Attempt β _)
      draft.header (draft.encode config) := by
  have hPieces : draft.encode config = draft.header.encode config.order ++ (draft.payload ++
      (Word.bytes config.order (crc32 draft.payload config.seed) ++ ([] ++ []))) := by
    rw [ChunkDraft.encode, List.append_nil, List.append_nil, List.append_assoc]
  rw [hPieces]
  apply (ChunkHeader.write_writes config.order draft.header).bind
  apply (putBytes_writes draft.payload).bind
  apply (Stream.putWord_writes config.order (crc32 draft.payload config.seed)).bind
  apply (Stream.writes_emit _).bind
  exact Stream.writes_pure draft.header

/-- Successive writes leave the encodings of the drafts one behind the other. -/
theorem writeEach_writes (config : ChunkConfig) (drafts : List ChunkDraft) :
    Stream.Writes (writeEach config drafts : Stream.Attempt β _)
      (drafts.map ChunkDraft.header) (drafts.flatMap (ChunkDraft.encode config)) := by
  induction drafts with
  | nil => exact Stream.writes_pure []
  | cons draft later ih =>
      rw [List.flatMap_cons, ← List.append_nil (later.flatMap _)]
      apply (write_writes config draft).bind
      apply ih.bind
      exact Stream.writes_pure (draft.header :: later.map ChunkDraft.header)

end Chunk

end Bytestream
