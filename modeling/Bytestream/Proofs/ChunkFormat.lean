import Bytestream.Chunk.Reader

/-!
Chunks as byte strings, without any stream: the bytes that stand for a chunk, the fields that bytes
stand for, and which bytes are a chunk at all.
-/

namespace Bytestream

namespace ChunkHeader

/-- The three fields in order. -/
def encode (order : ByteOrder) (header : ChunkHeader) : Bytes :=
  Word.bytes order header.typeId ++ Word.bytes order header.version ++
    Word.bytes order header.dataSize

/-- The fields at the front of a byte string. -/
def decode (order : ByteOrder) (bytes : Bytes) : ChunkHeader where
  typeId := Word.ofBytes order 4 (bytes.take 4)
  version := Word.ofBytes order 2 ((bytes.drop 4).take 2)
  dataSize := Word.ofBytes order 8 ((bytes.drop dataSizeOffset).take 8)

@[simp] theorem length_encode (order : ByteOrder) (header : ChunkHeader) :
    (header.encode order).length = size := by
  simp only [encode, List.length_append, Word.length_bytes]
  rfl

theorem decode_encode (order : ByteOrder) (header : ChunkHeader) (rest : Bytes) :
    decode order (header.encode order ++ rest) = header := by
  have hTypeId := Word.length_bytes order header.typeId
  have hVersion := Word.length_bytes order header.version
  have hDataSize := Word.length_bytes order header.dataSize
  have hFields : header.encode order ++ rest = Word.bytes order header.typeId ++
      (Word.bytes order header.version ++ (Word.bytes order header.dataSize ++ rest)) := by
    simp only [encode, List.append_assoc]
  have hSplit : dataSizeOffset = 4 + 2 := rfl
  simp only [decode, hFields, hSplit]
  rw [← List.drop_drop, List.drop_left' hTypeId, List.drop_left' hVersion, List.take_left' hTypeId,
    List.take_left' hVersion, List.take_left' hDataSize]
  simp only [Word.ofBytes_bytes]

/-- A whole header is the bytes of its fields. -/
theorem encode_decode (order : ByteOrder) {bytes : Bytes} (hWhole : size ≤ bytes.length) :
    (decode order bytes).encode order = bytes.take size := by
  have hSize : size = 4 + (2 + 8) := rfl
  have hOffset : dataSizeOffset = 4 + 2 := rfl
  rw [hSize] at hWhole
  simp only [encode, decode]
  rw [Word.bytes_ofBytes, Word.bytes_ofBytes, Word.bytes_ofBytes, hSize, hOffset, List.take_add,
    List.take_add, List.drop_drop, List.append_assoc]
  all_goals
    simp only [List.length_take, List.length_drop, hOffset]
    omega

end ChunkHeader

/-- What a writer is given to make a chunk of. -/
structure ChunkDraft where
  typeId : Word 4
  version : Word 2
  payload : Bytes
deriving DecidableEq

namespace ChunkDraft

/-- The header in front of the payload. -/
def header (draft : ChunkDraft) : ChunkHeader :=
  ⟨draft.typeId, draft.version, BitVec.ofNat _ draft.payload.length⟩

/-- The bytes of the chunk: header, payload, and the checksum of the payload. -/
def encode (config : ChunkConfig) (draft : ChunkDraft) : Bytes :=
  draft.header.encode config.order ++ draft.payload ++
    Word.bytes config.order (crc32 draft.payload config.seed)

/-- The chunk that a reader finds. -/
def chunk (seed : Word 4) (draft : ChunkDraft) : Chunk :=
  ⟨draft.header, draft.payload, crc32 draft.payload seed⟩

@[simp] theorem length_encode (config : ChunkConfig) (draft : ChunkDraft) :
    (draft.encode config).length =
      ChunkHeader.size + ChunkHeader.footerSize + draft.payload.length := by
  simp only [encode, List.length_append, ChunkHeader.length_encode, Word.length_bytes,
    ChunkHeader.footerSize]
  omega

end ChunkDraft

namespace Chunk

/-- What a writer would have been given for this chunk. -/
def draft (chunk : Chunk) : ChunkDraft :=
  ⟨chunk.header.typeId, chunk.header.version, chunk.payload⟩

/-- The header, payload and footer at the front of a byte string, whether or not they make up a
chunk. -/
def fields (order : ByteOrder) (bytes : Bytes) : Chunk :=
  let header := ChunkHeader.decode order bytes
  let behind := bytes.drop ChunkHeader.size
  ⟨header, behind.take header.dataSize.toNat,
    Word.ofBytes order 4 ((behind.drop header.dataSize.toNat).take 4)⟩

/-- The chunk at the front of a byte string, or what keeps the bytes from being one. The causes are
in the order in which a reader meets them. -/
def decode [Memory] (config : ChunkConfig) (bytes : Bytes) : Except Error Chunk :=
  let chunk := fields config.order bytes
  let size := chunk.header.dataSize.toNat
  let computed := crc32 chunk.payload config.seed
  if bytes.length < ChunkHeader.size then .error .endOfStream
  else if config.maxDataSize < size then
    .error (.malformed (.oversizedPayload chunk.header.typeId.toNat size config.maxDataSize))
  else if reservable < size then .error .allocationFailure
  else if bytes.length < chunk.header.chunkLength then .error .endOfStream
  else if config.verify && computed ≠ chunk.checksum then
    .error (.checksumMismatch chunk.checksum.toNat computed.toNat)
  else .ok chunk

/-- The bytes are a chunk exactly when they are long enough, the payload is within the limits, and
the checksum is right or not asked for. -/
theorem decode_eq_ok_iff [Memory] {config : ChunkConfig} {bytes : Bytes} {chunk : Chunk} :
    decode config bytes = .ok chunk ↔
      chunk = fields config.order bytes ∧ chunk.header.chunkLength ≤ bytes.length ∧
        chunk.header.dataSize.toNat ≤ config.maxDataSize ∧
        chunk.header.dataSize.toNat ≤ reservable ∧
        (config.verify = true → chunk.checksum = crc32 chunk.payload config.seed) := by
  have hLeast (header : ChunkHeader) : ChunkHeader.size ≤ header.chunkLength := by
    rw [ChunkHeader.chunkLength]
    omega
  simp only [decode]
  constructor
  · intro hDecode
    split at hDecode
    · cases hDecode
    split at hDecode
    · cases hDecode
    split at hDecode
    · cases hDecode
    split at hDecode
    · cases hDecode
    split at hDecode
    · cases hDecode
    rename_i hHeader hMost hReserve hWhole hSum
    cases hDecode
    refine ⟨rfl, by omega, by omega, by omega, fun hVerify => ?_⟩
    simp only [hVerify, Bool.true_and, decide_eq_true_eq, ne_eq, Decidable.not_not] at hSum
    exact hSum.symm
  · rintro ⟨rfl, hWhole, hMost, hReserve, hSum⟩
    have hHeader := hLeast (fields config.order bytes).header
    have hRight : ¬(config.verify && crc32 (fields config.order bytes).payload config.seed ≠
        (fields config.order bytes).checksum) = true := by
      intro hWrong
      simp only [Bool.and_eq_true, decide_eq_true_eq] at hWrong
      exact hWrong.2 (hSum hWrong.1).symm
    rw [if_neg (by omega), if_neg (by omega), if_neg (by omega), if_neg (by omega), if_neg hRight]

/-- Bytes are found damaged once they were found whole and within the limits. -/
theorem of_decode_mismatch [Memory] {config : ChunkConfig} {bytes : Bytes} {stored computed : Nat}
    (hDecode : decode config bytes = .error (.checksumMismatch stored computed)) :
    (fields config.order bytes).header.chunkLength ≤ bytes.length ∧
      (fields config.order bytes).header.dataSize.toNat ≤ config.maxDataSize ∧
      (fields config.order bytes).header.dataSize.toNat ≤ reservable ∧ config.verify = true ∧
      crc32 (fields config.order bytes).payload config.seed ≠ (fields config.order bytes).checksum ∧
      (fields config.order bytes).checksum.toNat = stored ∧
      (crc32 (fields config.order bytes).payload config.seed).toNat = computed := by
  simp only [decode] at hDecode
  split at hDecode
  · cases hDecode
  split at hDecode
  · cases hDecode
  split at hDecode
  · cases hDecode
  split at hDecode
  · cases hDecode
  split at hDecode
  · rename_i hMost hReserve hWhole hSum
    cases hDecode
    simp only [Bool.and_eq_true, decide_eq_true_eq] at hSum
    exact ⟨by omega, by omega, by omega, hSum.1, hSum.2, rfl, rfl⟩
  · cases hDecode

/-- Bytes that are cut off behind an acceptable header end the data. -/
theorem decode_of_cut [Memory] {config : ChunkConfig} {bytes : Bytes}
    (hMost : (fields config.order bytes).header.dataSize.toNat ≤ config.maxDataSize)
    (hReserve : (fields config.order bytes).header.dataSize.toNat ≤ reservable)
    (hShort : bytes.length < (fields config.order bytes).header.chunkLength) :
    decode config bytes = .error .endOfStream := by
  simp only [decode]
  by_cases hHeader : bytes.length < ChunkHeader.size
  · rw [if_pos hHeader]
  · rw [if_neg hHeader, if_neg (by omega), if_neg (by omega), if_pos hShort]

/-- A payload that can be reserved has a size that the size field holds. -/
theorem toNat_ofNat_length [Memory] {payload : Bytes} (hReserve : payload.length ≤ reservable) :
    (BitVec.ofNat (8 * 8) payload.length).toNat = payload.length := by
  rw [BitVec.toNat_ofNat, Nat.mod_eq_of_lt]
  exact Nat.lt_trans (Nat.lt_of_le_of_lt hReserve Memory.reservable_lt) (by decide)

/-- Header, payload and footer are found where they were put, if the header has the right size. -/
theorem fields_of_parts {header : ChunkHeader} {payload footer : Bytes} (order : ByteOrder)
    (hSize : header.dataSize.toNat = payload.length)
    (hFooter : footer.length = 4) (rest : Bytes) :
    fields order (header.encode order ++ payload ++ footer ++ rest) =
      ⟨header, payload, Word.ofBytes order 4 footer⟩ := by
  rw [List.append_assoc, List.append_assoc, fields]
  simp only [ChunkHeader.decode_encode, hSize]
  rw [List.drop_left' (ChunkHeader.length_encode _ _), List.take_left' rfl, List.drop_left' rfl,
    List.take_left' hFooter]

/-- What a writer makes of a draft is read as the chunk of that draft, whatever follows it. -/
theorem decode_encode [Memory] {writer reader : ChunkConfig} {draft : ChunkDraft}
    (hOrder : reader.order = writer.order) (hSeed : reader.seed = writer.seed)
    (hMost : draft.payload.length ≤ reader.maxDataSize)
    (hReserve : draft.payload.length ≤ reservable) (rest : Bytes) :
    decode reader (draft.encode writer ++ rest) = .ok (draft.chunk writer.seed) := by
  have hSize : draft.header.dataSize.toNat = draft.payload.length := toNat_ofNat_length hReserve
  have hFooter := Word.length_bytes writer.order (crc32 draft.payload writer.seed)
  have hFields : fields reader.order (draft.encode writer ++ rest) = draft.chunk writer.seed := by
    rw [hOrder, ChunkDraft.encode, fields_of_parts writer.order hSize hFooter, Word.ofBytes_bytes]
    rfl
  rw [decode_eq_ok_iff, hFields, List.length_append, ChunkDraft.length_encode]
  refine ⟨rfl, ?_, ?_, ?_, fun _ => by rw [hSeed]; rfl⟩
  · show ChunkHeader.size + ChunkHeader.footerSize + draft.header.dataSize.toNat ≤ _
    omega
  · show draft.header.dataSize.toNat ≤ _
    omega
  · show draft.header.dataSize.toNat ≤ _
    omega

theorem length_payload_of_decode [Memory] {config : ChunkConfig} {bytes : Bytes} {chunk : Chunk}
    (hDecode : decode config bytes = .ok chunk) :
    chunk.payload.length = chunk.header.dataSize.toNat := by
  obtain ⟨rfl, hWhole, -⟩ := decode_eq_ok_iff.mp hDecode
  rw [ChunkHeader.chunkLength] at hWhole
  simp only [fields, List.length_take, List.length_drop]
  rw [fields] at hWhole
  dsimp only at hWhole
  omega

/-- A chunk that was read has the header that a writer would give it. -/
theorem header_draft_of_decode [Memory] {config : ChunkConfig} {bytes : Bytes} {chunk : Chunk}
    (hDecode : decode config bytes = .ok chunk) : chunk.draft.header = chunk.header := by
  rw [ChunkDraft.header]
  simp only [draft, length_payload_of_decode hDecode, BitVec.ofNat_toNat, BitVec.setWidth_eq]

/-- Checked bytes that are a chunk are exactly what a writer makes of it. -/
theorem encode_of_decode [Memory] {config : ChunkConfig} {bytes : Bytes} {chunk : Chunk}
    (hDecode : decode config bytes = .ok chunk) (hVerify : config.verify = true) :
    chunk.draft.encode config = bytes.take chunk.header.chunkLength := by
  obtain ⟨hChunk, hWhole, -, -, hSum⟩ := decode_eq_ok_iff.mp hDecode
  have hSplit : chunk.header.chunkLength =
      ChunkHeader.size + (chunk.header.dataSize.toNat + ChunkHeader.footerSize) := by
    rw [ChunkHeader.chunkLength]
    omega
  rw [ChunkDraft.encode, header_draft_of_decode hDecode]
  show chunk.header.encode config.order ++ chunk.payload ++
    Word.bytes config.order (crc32 chunk.payload config.seed) = _
  rw [← hSum hVerify, hSplit, List.take_add, List.take_add, List.append_assoc]
  rw [hSplit] at hWhole
  subst hChunk
  congr 1
  · exact ChunkHeader.encode_decode config.order (by omega)
  · congr 1
    simp only [fields]
    apply Word.bytes_ofBytes
    simp only [List.length_take, List.length_drop]
    rw [fields] at hWhole
    dsimp only [ChunkHeader.footerSize] at hWhole
    omega

/-- The bytes are these chunks one after another, and what follows them is no chunk because of
`error`. -/
inductive Parses [Memory] (config : ChunkConfig) : Bytes → List Chunk → Error → Prop where
  | ended {bytes : Bytes} {error : Error} (hDecode : decode config bytes = .error error) :
      Parses config bytes [] error
  | chunk {bytes : Bytes} {chunk : Chunk} {later : List Chunk} {error : Error}
      (hDecode : decode config bytes = .ok chunk)
      (hLater : Parses config (bytes.drop chunk.header.chunkLength) later error) :
      Parses config bytes (chunk :: later) error

/-- Every byte string can be parsed, since every chunk takes bytes off it. -/
theorem exists_parses [Memory] (config : ChunkConfig) (bytes : Bytes) :
    ∃ chunks error, Parses config bytes chunks error := by
  -- The induction is on how many bytes are left, since a chunk can be of any length.
  generalize hLength : bytes.length = length
  induction length using Nat.strongRecOn generalizing bytes with
  | ind length ih =>
      cases hDecode : decode config bytes with
      | error error => exact ⟨[], error, .ended hDecode⟩
      | ok chunk =>
          obtain ⟨-, hWhole, -⟩ := decode_eq_ok_iff.mp hDecode
          have hSome : 0 < chunk.header.chunkLength := by
            rw [ChunkHeader.chunkLength, ChunkHeader.size]
            omega
          obtain ⟨later, error, hLater⟩ :=
            ih (length - chunk.header.chunkLength) (by omega)
              (bytes.drop chunk.header.chunkLength) (by rw [List.length_drop, hLength])
          exact ⟨chunk :: later, error, .chunk hDecode hLater⟩

/-- No chunk is shorter than its header and footer. -/
theorem Parses.length_le [Memory] {config : ChunkConfig} {bytes : Bytes} {chunks : List Chunk}
    {error : Error} (hParses : Parses config bytes chunks error) :
    chunks.length ≤ bytes.length / (ChunkHeader.size + ChunkHeader.footerSize) := by
  rw [Nat.le_div_iff_mul_le (by decide)]
  induction hParses with
  | ended hDecode => simp
  | @chunk bytes chunk later error hDecode hLater ih =>
      obtain ⟨-, hWhole, -⟩ := decode_eq_ok_iff.mp hDecode
      rw [ChunkHeader.chunkLength] at hWhole
      rw [List.length_drop, ChunkHeader.chunkLength] at ih
      rw [List.length_cons, Nat.succ_mul]
      omega

/-- Where checksums are compared, writing the chunks again gives the bytes that they were read
from. -/
theorem Parses.encode_prefix [Memory] {config : ChunkConfig} {bytes : Bytes} {chunks : List Chunk}
    {error : Error} (hParses : Parses config bytes chunks error) (hVerify : config.verify = true) :
    chunks.flatMap (fun chunk => chunk.draft.encode config) <+: bytes := by
  induction hParses with
  | ended hDecode => exact List.nil_prefix
  | @chunk bytes chunk later error hDecode hLater ih =>
      obtain ⟨rest, hRest⟩ := ih
      refine ⟨rest, ?_⟩
      rw [List.flatMap_cons, List.append_assoc, hRest, encode_of_decode hDecode hVerify,
        List.take_append_drop]

theorem Parses.headers [Memory] {config : ChunkConfig} {bytes : Bytes} {chunks : List Chunk}
    {error : Error}
    (hParses : Parses config bytes chunks error) :
    (chunks.map draft).map ChunkDraft.header = chunks.map Chunk.header := by
  induction hParses with
  | ended hDecode => rfl
  | chunk hDecode hLater ih =>
      rw [List.map_cons, List.map_cons, List.map_cons, header_draft_of_decode hDecode, ih]

/-- Encoded drafts parse to their chunks, and parsing goes on with what lies behind them. -/
theorem parses_encode [Memory] {writer reader : ChunkConfig} (hOrder : reader.order = writer.order)
    (hSeed : reader.seed = writer.seed) {drafts : List ChunkDraft}
    (hMost : ∀ draft ∈ drafts, draft.payload.length ≤ reader.maxDataSize)
    (hReserve : ∀ draft ∈ drafts, draft.payload.length ≤ reservable) {rest : Bytes}
    {more : List Chunk} {error : Error} (hRest : Parses reader rest more error) :
    Parses reader (drafts.flatMap (ChunkDraft.encode writer) ++ rest)
      (drafts.map (ChunkDraft.chunk writer.seed) ++ more) error := by
  induction drafts with
  | nil => exact hRest
  | cons draft later ih =>
      rw [List.flatMap_cons, List.map_cons, List.append_assoc, List.cons_append]
      have hReserved := hReserve draft List.mem_cons_self
      have hLength : (draft.chunk writer.seed).header.chunkLength =
          (draft.encode writer).length := by
        rw [ChunkDraft.length_encode, ChunkHeader.chunkLength]
        show _ + draft.header.dataSize.toNat = _
        rw [show draft.header.dataSize.toNat = draft.payload.length from
          toNat_ofNat_length hReserved]
      refine .chunk (decode_encode hOrder hSeed (hMost draft List.mem_cons_self) hReserved _) ?_
      rw [hLength, List.drop_left]
      exact ih (fun other hOther => hMost other (List.mem_cons_of_mem _ hOther))
        (fun other hOther => hReserve other (List.mem_cons_of_mem _ hOther))

/-- Encoded drafts alone parse to their chunks, and then the data has ended. -/
theorem parses_encode_alone [Memory] {writer reader : ChunkConfig}
    (hOrder : reader.order = writer.order)
    (hSeed : reader.seed = writer.seed) {drafts : List ChunkDraft}
    (hMost : ∀ draft ∈ drafts, draft.payload.length ≤ reader.maxDataSize)
    (hReserve : ∀ draft ∈ drafts, draft.payload.length ≤ reservable) :
    Parses reader (drafts.flatMap (ChunkDraft.encode writer))
      (drafts.map (ChunkDraft.chunk writer.seed)) .endOfStream := by
  have hNothing : Parses reader [] [] .endOfStream := .ended rfl
  have hAlone := parses_encode hOrder hSeed hMost hReserve hNothing
  rwa [List.append_nil, List.append_nil] at hAlone

end Chunk

end Bytestream
