import Bytestream.Proofs.ChecksumDetection
import Bytestream.Proofs.ChunkFiles

/-!
Damaged chunks. Damage to up to four consecutive payload bytes, or to the footer, leaves the header
as it was written, so that a reader gets as far as the footer and finds the checksum wrong.
-/

namespace Bytestream

/-- `damaged` is as long as `bytes` and differs from it somewhere, but nowhere outside of the
`count` bytes from `first` on. -/
structure Bytes.DiffersWithin (bytes damaged : Bytes) (first count : Nat) : Prop where
  length_eq : damaged.length = bytes.length
  ne : damaged ≠ bytes
  before : damaged.take first = bytes.take first
  behind : damaged.drop (first + count) = bytes.drop (first + count)

namespace Bytes.DiffersWithin

variable {bytes damaged : Bytes} {first count : Nat}

theorem crc32_ne (hDiffers : bytes.DiffersWithin damaged first count) (hShort : count ≤ 4)
    (seed : Word 4) : crc32 damaged seed ≠ crc32 bytes seed := by
  have hParts (whole : Bytes) : whole.take first ++ (whole.drop first).take count ++
      whole.drop (first + count) = whole := by
    rw [List.append_assoc, ← List.drop_drop, List.take_append_drop, List.take_append_drop]
  have hWindow : ((damaged.drop first).take count).length =
      ((bytes.drop first).take count).length := by
    rw [List.length_take, List.length_take, List.length_drop, List.length_drop,
      hDiffers.length_eq]
  have hChanged : (damaged.drop first).take count ≠ (bytes.drop first).take count := by
    intro hSame
    apply hDiffers.ne
    rw [← hParts damaged, ← hParts bytes, hDiffers.before, hDiffers.behind, hSame]
  have hSum := @crc32_ne_of_window (bytes.take first) _ _ (bytes.drop (first + count)) seed
    hWindow (Nat.le_trans (List.length_take_le ..) hShort) hChanged
  rw [hParts bytes, ← hDiffers.before, ← hDiffers.behind, hParts damaged] at hSum
  exact hSum

/-- Damage inside the middle one of three parts is damage to that part. -/
theorem middle {head body tail : Bytes}
    (hDiffers : Bytes.DiffersWithin (head ++ body ++ tail) damaged first count)
    (hFirst : head.length ≤ first) (hLast : first + count ≤ head.length + body.length) :
    ∃ changed, damaged = head ++ changed ++ tail ∧
      body.DiffersWithin changed (first - head.length) count := by
  obtain ⟨hLength, hNe, hBefore, hBehind⟩ := hDiffers
  have hWhole : damaged.length = head.length + body.length + tail.length := by
    rw [hLength, List.length_append, List.length_append]
  have hHead : damaged.take head.length = head := by
    have hFront := congrArg (List.take head.length) hBefore
    rwa [List.take_take, List.take_take, Nat.min_eq_left hFirst, List.append_assoc,
      List.take_left] at hFront
  have hTail : damaged.drop (head.length + body.length) = tail := by
    have hRest := congrArg (List.drop (head.length + body.length - (first + count))) hBehind
    rw [List.drop_drop, List.drop_drop, Nat.add_sub_cancel' hLast, ← List.length_append,
      List.drop_left] at hRest
    rw [← List.length_append]
    exact hRest
  obtain ⟨changed, hParts⟩ : ∃ changed, damaged = head ++ changed ++ tail := by
    refine ⟨(damaged.drop head.length).take body.length, ?_⟩
    conv => lhs; rw [← List.take_append_drop head.length damaged,
      ← List.take_append_drop body.length (damaged.drop head.length), List.drop_drop]
    rw [hHead, hTail, List.append_assoc]
  have hSize : changed.length = body.length := by
    have hSum := congrArg List.length hParts
    rw [hWhole, List.length_append, List.length_append] at hSum
    omega
  refine ⟨changed, hParts, hSize, ?_, ?_, ?_⟩
  · rintro rfl
    exact hNe hParts
  · have hFront := congrArg (List.drop head.length) hBefore
    rwa [List.drop_take, List.drop_take, hParts, List.append_assoc, List.append_assoc,
      List.drop_left, List.drop_left, List.take_append_of_le_length (by omega),
      List.take_append_of_le_length (by omega)] at hFront
  · have hSplit : first + count = head.length + (first - head.length + count) := by omega
    rw [hParts, hSplit, List.append_assoc, List.append_assoc, List.drop_length_add_append,
      List.drop_length_add_append, List.drop_append_of_le_length (by omega),
      List.drop_append_of_le_length (by omega)] at hBehind
    exact List.append_cancel_right hBehind

end Bytes.DiffersWithin

namespace Chunk

/-- Under a right header a payload and a footer that do not go together are a wrong checksum,
whatever follows them. -/
theorem decode_append_of_mismatch [Memory] {reader : ChunkConfig} {header : ChunkHeader}
    {payload footer : Bytes} (hSize : header.dataSize.toNat = payload.length)
    (hFooter : footer.length = 4) (hMost : payload.length ≤ reader.maxDataSize)
    (hReserve : payload.length ≤ reservable) (hVerify : reader.verify = true)
    (hSum : crc32 payload reader.seed ≠ Word.ofBytes reader.order 4 footer) (rest : Bytes) :
    decode reader (header.encode reader.order ++ payload ++ footer ++ rest) =
      .error (.checksumMismatch (Word.ofBytes reader.order 4 footer).toNat
        (crc32 payload reader.seed).toNat) := by
  have hFields := fields_of_parts reader.order hSize hFooter rest
  have hLength : (header.encode reader.order ++ payload ++ footer ++ rest).length =
      header.chunkLength + rest.length := by
    rw [List.length_append, List.length_append, List.length_append, ChunkHeader.length_encode,
      hFooter, ChunkHeader.chunkLength, hSize, ChunkHeader.footerSize]
    omega
  have hHeader : ChunkHeader.size ≤ header.chunkLength := by
    rw [ChunkHeader.chunkLength]
    omega
  have hWrong : (reader.verify && crc32 payload reader.seed ≠
      Word.ofBytes reader.order 4 footer) = true := by
    simp only [hVerify, Bool.true_and, decide_eq_true_eq]
    exact hSum
  simp only [decode, hFields]
  rw [if_neg (by omega), if_neg (by omega), if_neg (by omega), if_neg (by omega), if_pos hWrong]

theorem decode_of_mismatch [Memory] {reader : ChunkConfig} {header : ChunkHeader}
    {payload footer : Bytes}
    (hSize : header.dataSize.toNat = payload.length) (hFooter : footer.length = 4)
    (hMost : payload.length ≤ reader.maxDataSize) (hReserve : payload.length ≤ reservable)
    (hVerify : reader.verify = true)
    (hSum : crc32 payload reader.seed ≠ Word.ofBytes reader.order 4 footer) :
    decode reader (header.encode reader.order ++ payload ++ footer) =
      .error (.checksumMismatch (Word.ofBytes reader.order 4 footer).toNat
        (crc32 payload reader.seed).toNat) := by
  have hDecode := decode_append_of_mismatch hSize hFooter hMost hReserve hVerify hSum []
  rwa [List.append_nil] at hDecode

/-- What keeps the bytes from being a chunk is what a reader stops at, over every opening. -/
theorem run_read_of_error [Memory] {config : ChunkConfig} {bytes : Bytes} {error : Error}
    (opening : Opening) (hDecode : decode config bytes = .error error) :
    opening.run bytes (Action.attempt (read config)) = .ok (.error error, error.code) := by
  apply opening.run_of_stands
  intro β _ _ _ _ stream hStands
  obtain ⟨after, hRead, hCode⟩ := read_fails hStands hDecode
  exact ⟨after, Action.result_attempt_of_error hRead, hCode⟩

/-- What a writer made of a draft is a wrong checksum for every reader with the settings of the
writer, once up to four consecutive bytes of the payload were changed, or some of the footer. -/
theorem decode_of_damage [Memory] {writer reader : ChunkConfig} {draft : ChunkDraft} {damaged : Bytes}
    {first count : Nat} (hOrder : reader.order = writer.order) (hSeed : reader.seed = writer.seed)
    (hVerify : reader.verify = true) (hMost : draft.payload.length ≤ reader.maxDataSize)
    (hReserve : draft.payload.length ≤ reservable)
    (hDiffers : (draft.encode writer).DiffersWithin damaged first count)
    (hWhere : 14 ≤ first ∧ first + count ≤ 14 + draft.payload.length ∧ count ≤ 4 ∨
      first = 14 + draft.payload.length ∧ count = 4) :
    decode reader damaged = .error (.checksumMismatch
      (Word.ofBytes reader.order 4 (damaged.drop (14 + draft.payload.length))).toNat
      (crc32 ((damaged.drop 14).take draft.payload.length) reader.seed).toNat) := by
  have hSize : draft.header.dataSize.toNat = draft.payload.length := toNat_ofNat_length hReserve
  have hHeader : (draft.header.encode writer.order).length = 14 := ChunkHeader.length_encode _ _
  have hFooter := Word.length_bytes writer.order (crc32 draft.payload writer.seed)
  have hStored := Word.ofBytes_bytes writer.order (crc32 draft.payload writer.seed)
  rw [ChunkDraft.encode] at hDiffers
  rcases hWhere with ⟨hFirst, hLast, hShort⟩ | ⟨rfl, rfl⟩
  · obtain ⟨payload, rfl, hPayload⟩ := hDiffers.middle (by omega) (by omega)
    have hLength := hPayload.length_eq
    have hFront : (draft.header.encode writer.order ++ payload).length =
        14 + draft.payload.length := by
      rw [List.length_append, hHeader, hLength]
    rw [List.drop_left' hFront, List.append_assoc, List.drop_left' hHeader,
      List.take_left' hLength, ← List.append_assoc, ← hOrder]
    rw [← hOrder] at hFooter hStored
    apply decode_of_mismatch (hSize.trans hLength.symm) hFooter (hLength ▸ hMost)
      (hLength ▸ hReserve) hVerify
    rw [hStored, ← hSeed]
    exact hPayload.crc32_ne hShort reader.seed
  · rw [← List.append_nil (_ ++ _ ++ _)] at hDiffers
    have hFront : (draft.header.encode writer.order ++ draft.payload).length =
        14 + draft.payload.length := by
      rw [List.length_append, hHeader]
    obtain ⟨footer, rfl, hChanged⟩ := hDiffers.middle (by omega) (by omega)
    have hLength := hChanged.length_eq.trans hFooter
    rw [List.append_nil, List.drop_left' hFront, List.append_assoc, List.drop_left' hHeader,
      List.take_left, ← List.append_assoc, ← hOrder]
    apply decode_of_mismatch hSize hLength hMost hReserve hVerify
    -- The footer of the writer is the only one that holds the checksum.
    intro hSame
    apply hChanged.ne
    rw [← hOrder, ← hSeed, hSame, Word.bytes_ofBytes reader.order hLength]

/-- Short corruption is always detected. When up to four consecutive bytes of the payload of a
written chunk were changed, or any of the four of its footer, a reader with the same byte order and
seed that compares checksums stops with both of them and keeps it as invalid data, over every
opening of the damaged bytes. -/
theorem read_detects_damage [Memory] {writer reader : ChunkConfig} {draft : ChunkDraft}
    {medium : Medium}
    (hOrder : reader.order = writer.order) (hSeed : reader.seed = writer.seed)
    (hVerify : reader.verify = true) (hMost : draft.payload.length ≤ reader.maxDataSize)
    (hReserve : draft.payload.length ≤ reservable) (hReady : medium.Ready)
    (hRoom : medium.HasRoom (18 + draft.payload.length)) :
    ∃ (after : Medium) (written : Bytes), medium.run (write draft.typeId draft.version draft.payload writer) =
        (.ok draft.header, after) ∧
      (after.content.take after.position).drop medium.position = written ∧
      written.length = 18 + draft.payload.length ∧
      ∀ (damaged : Bytes) (first count : Nat), written.DiffersWithin damaged first count →
        (14 ≤ first ∧ first + count ≤ 14 + draft.payload.length ∧ count ≤ 4 ∨
          first = 14 + draft.payload.length ∧ count = 4) →
        ∀ opening : Opening, opening.run damaged (Action.attempt (read reader)) =
          .ok (.error (.checksumMismatch
            (Word.ofBytes reader.order 4 (damaged.drop (14 + draft.payload.length))).toNat
            (crc32 ((damaged.drop 14).take draft.payload.length) reader.seed).toNat),
            .invalidData) := by
  have hLength : (draft.encode writer).length = 18 + draft.payload.length :=
    ChunkDraft.length_encode writer draft
  rw [← hLength] at hRoom
  obtain ⟨after, hRun, hAfter, hStored, hPosition⟩ :=
    Medium.takes_of_writes (write_writes writer draft) medium hReady hRoom
  refine ⟨after, draft.encode writer, hRun, ?_, hLength, ?_⟩
  · rw [hStored, hPosition, Bytes.drop_take_store]
  · intro damaged first count hDiffers hWhere opening
    exact run_read_of_error opening
      (decode_of_damage hOrder hSeed hVerify hMost hReserve hDiffers hWhere)

/-- One bit of the second payload byte was changed behind the writer's back. -/
theorem read_detects_damage_one_bit :
    ∃ after, (Medium.vector ⟨Growable.ofBytes [], Offering.offers Growable, Window.empty, none,
        .success⟩).run (write 1 2 [104, 105] {}) = (.ok ⟨1, 2, 2⟩, after) ∧
      after.content = [1, 0, 0, 0, 2, 0, 2, 0, 0, 0, 0, 0, 0, 0, 104, 105, 172, 42, 147, 216] ∧
      ∀ opening : Opening, opening.run
          [1, 0, 0, 0, 2, 0, 2, 0, 0, 0, 0, 0, 0, 0, 104, 107, 172, 42, 147, 216]
          (Action.attempt (read {})) =
        .ok (.error (.checksumMismatch 3633523372 916278144), .invalidData) := by
  obtain ⟨after, written, hRun, hWritten, hLength, hDetects⟩ := @read_detects_damage _ {} {}
    ⟨1, 2, [104, 105]⟩ (.vector ⟨Growable.ofBytes [], Offering.offers Growable, Window.empty, none,
      .success⟩) rfl rfl rfl (by decide) (by decide) ⟨rfl, rfl⟩ (.inr (by decide))
  have hContent : after.content =
      [1, 0, 0, 0, 2, 0, 2, 0, 0, 0, 0, 0, 0, 0, 104, 105, 172, 42, 147, 216] :=
    (congrArg (fun reached => reached.2.content) hRun).symm.trans (by decide +kernel)
  have hPosition : after.position = 20 :=
    (congrArg (fun reached => reached.2.position) hRun).symm.trans (by decide +kernel)
  rw [hContent, hPosition] at hWritten
  have hDamaged : written.DiffersWithin
      [1, 0, 0, 0, 2, 0, 2, 0, 0, 0, 0, 0, 0, 0, 104, 107, 172, 42, 147, 216] 15 1 :=
    hWritten ▸ ⟨rfl, by decide, rfl, rfl⟩
  have hStored : (Word.ofBytes .little 4 [172, 42, 147, 216]).toNat = 3633523372 := by
    decide +kernel
  have hComputed : (crc32 [104, 107] 0).toNat = 916278144 := by
    decide +kernel
  refine ⟨after, hRun, hContent, fun opening => ?_⟩
  rw [← hStored, ← hComputed]
  exact hDetects _ 15 1 hDamaged (.inl (by decide)) opening

end Chunk

end Bytestream
