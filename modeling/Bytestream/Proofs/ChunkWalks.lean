import Bytestream.Proofs.ChunkFiles

/-!
Walks from chunk to chunk. A walk looks at every header and reads or skips what lies behind it.
Skipping leaves a stream where reading does, so no decision changes what the walk meets later.
-/

namespace Bytestream

/-- A chunk as a walk met it: the header, and the payload with its checksum if they were read. -/
structure Visit where
  header : ChunkHeader
  body : Option (Bytes × Word 4)
deriving DecidableEq

namespace ChunkDraft

/-- The visit to the chunk of this draft. -/
def visit (seed : Word 4) (wanted : ChunkHeader → Bool) (draft : ChunkDraft) : Visit where
  header := draft.header
  body := if wanted draft.header then some (draft.payload, crc32 draft.payload seed) else none

/-- Every size below the offsets is what the size field says of it. -/
theorem toNat_dataSize {draft : ChunkDraft} (hLength : draft.payload.length < offsetLimit) :
    draft.header.dataSize.toNat = draft.payload.length := by
  show (BitVec.ofNat (8 * 8) draft.payload.length).toNat = draft.payload.length
  rw [BitVec.toNat_ofNat, Nat.mod_eq_of_lt]
  exact Nat.lt_trans hLength (by decide)

end ChunkDraft

namespace Chunk

/-- Reads a header and, where it is wanted, what lies behind it. The rest is skipped. -/
def visit [Memory] {β : Type} [Backend β] (wanted : ChunkHeader → Bool) (config : ChunkConfig) :
    Stream.Attempt β Visit := do
  let header ← readHeader config
  if wanted header then
    let body ← readPayloadVerified header config
    return ⟨header, some body⟩
  else
    skip header
    return ⟨header, none⟩

/-- Visits chunk after chunk until a visit fails, at most `rounds` of them, and yields the visits
with the error that ended them. What is wanted may depend on how many chunks came before. -/
def walk [Memory] {β : Type} [Backend β] (wanted : Nat → ChunkHeader → Bool) (config : ChunkConfig)
    (rounds : Nat) : Stream.Op β (List Visit × Option Error) := do
  match rounds with
  | 0 => return ([], none)
  | rounds + 1 =>
      match ← Action.attempt (visit (wanted 0) config) with
      | .error error => return ([], some error)
      | .ok met =>
          let (later, ended) ← walk (fun index => wanted (index + 1)) config rounds
          return (met :: later, ended)

section Skipping

variable {β : Type} [Backend β] [Readable β]
variable {stream : Stream β} {data : Bytes} {position : Nat}

/-- Skipping a chunk that is there goes behind its footer, however much of it was buffered. -/
theorem skip_reaches [SeeksWithin β] {header : ChunkHeader}
    (hStands : stream.Stands data position .success)
    (hInside : header.dataSize.toNat + ChunkHeader.footerSize ≤ data.length - position)
    (hLength : data.length < offsetLimit) :
    stream.Reaches (skip header) () data
      (position + (header.dataSize.toNat + ChunkHeader.footerSize)) := by
  have hSome : 0 < ChunkHeader.footerSize := by decide
  have hLimit : offsetLimit < positionLimit := by decide
  generalize hCount : header.dataSize.toNat + ChunkHeader.footerSize = count at *
  have hOffset : toOffset? count = some (count : Int) := if_pos (by omega)
  have hTarget : Origin.current.resolve count position data.length = some (position + count) :=
    toPosition?_eq_some_iff.mpr ⟨(Int.natCast_add position count).symm, by omega⟩
  obtain ⟨after, hSeek, hAfter⟩ :=
    Stream.seek_reaches hStands hTarget (by omega) hLength (by omega)
  refine ⟨after, ?_, hAfter⟩
  rw [skip, hCount, hOffset]
  dsimp only
  rw [Action.result_bind_of_ok (Stream.result_lift_of_ok hSeek),
    Outcome.toExcept_of_success (Outcome.code_done _),
    Action.result_bind_of_ok (Action.result_liftM_ok_of_error _ _), Action.result_pure]

variable {writer reader : ChunkConfig} {wanted : ChunkHeader → Bool}

/-- A chunk that lies at a position is found there part by part. -/
theorem parts_of_encode {draft : ChunkDraft} {rest : Bytes} (hOrder : reader.order = writer.order)
    (hSeed : reader.seed = writer.seed)
    (hHere : data.drop position = draft.encode writer ++ rest) :
    ChunkHeader.decode reader.order (data.drop position) = draft.header ∧
      (data.drop (position + ChunkHeader.size)).take draft.payload.length = draft.payload ∧
      Word.ofBytes reader.order 4
          ((data.drop (position + ChunkHeader.size + draft.payload.length)).take 4) =
        crc32 draft.payload reader.seed := by
  have hParts : data.drop position = draft.header.encode reader.order ++ (draft.payload ++
      (Word.bytes reader.order (crc32 draft.payload reader.seed) ++ rest)) := by
    rw [hHere, ChunkDraft.encode, hOrder, hSeed, List.append_assoc, List.append_assoc]
  have hBehind : data.drop (position + ChunkHeader.size) = draft.payload ++
      (Word.bytes reader.order (crc32 draft.payload reader.seed) ++ rest) := by
    rw [← List.drop_drop, hParts, List.drop_left' (ChunkHeader.length_encode _ _)]
  refine ⟨by rw [hParts, ChunkHeader.decode_encode], by rw [hBehind, List.take_left], ?_⟩
  rw [← List.drop_drop, hBehind, List.drop_left, List.take_left' (Word.length_bytes _ _),
    Word.ofBytes_bytes]

/-- A visit goes from the start of a chunk to its end, whether the chunk is read or skipped. -/
theorem visit_reaches [Memory] [ReadsInOrder β] [SeeksWithin β] {draft : ChunkDraft} {rest : Bytes}
    (hOrder : reader.order = writer.order) (hSeed : reader.seed = writer.seed)
    (hMost : draft.payload.length ≤ reader.maxDataSize)
    (hReserve : wanted draft.header = true → draft.payload.length ≤ reservable)
    (hStands : stream.Stands data position .success) (hLength : data.length < offsetLimit)
    (hHere : data.drop position = draft.encode writer ++ rest) :
    stream.Reaches (visit wanted reader) (draft.visit reader.seed wanted) data
      (position + (draft.encode writer).length) := by
  obtain ⟨hHeader, hPayload, hFooter⟩ := parts_of_encode hOrder hSeed hHere
  have hWhole := congrArg List.length hHere
  rw [List.length_drop, List.length_append, ChunkDraft.length_encode] at hWhole
  have hSize : draft.header.dataSize.toNat = draft.payload.length :=
    ChunkDraft.toNat_dataSize (by omega)
  have hEnd : position + (draft.encode writer).length = position + ChunkHeader.size +
      (draft.header.dataSize.toNat + ChunkHeader.footerSize) := by
    rw [ChunkDraft.length_encode, hSize]
    omega
  have hFirst : stream.Reaches (readHeader reader)
      (ChunkHeader.decode reader.order (data.drop position)) data (position + ChunkHeader.size) :=
    readHeader_reaches hStands (by omega) (by rwa [hHeader, hSize])
  rw [hHeader] at hFirst
  rw [hEnd]
  apply hFirst.bind
  intro behind hBehind
  -- Either way the stream comes to stand at the end that was computed from the header.
  cases hWanted : wanted draft.header with
  | true =>
      have hVisit : draft.visit reader.seed wanted =
          ⟨draft.header, some (draft.payload, crc32 draft.payload reader.seed)⟩ := by
        rw [ChunkDraft.visit, if_pos hWanted]
      rw [← hSize] at hPayload hFooter
      rw [if_pos rfl, hVisit]
      apply (readPayloadVerified_reaches hBehind (by rw [hSize]; exact hReserve hWanted)
        (by omega) hPayload hFooter (fun _ => rfl)).bind
      intro after hAfter
      exact hAfter.reaches_pure _
  | false =>
      have hVisit : draft.visit reader.seed wanted = ⟨draft.header, none⟩ := by
        rw [ChunkDraft.visit, if_neg (by rw [hWanted]; exact Bool.false_ne_true)]
      rw [if_neg Bool.false_ne_true, hVisit]
      apply (skip_reaches hBehind (by omega) hLength).bind
      intro after hAfter
      exact hAfter.reaches_pure _

/-- Where no header is left there is nothing to decide on. -/
theorem visit_fails [Memory] [ReadsInOrder β] (hStands : stream.Stands data position .success)
    (hEnd : data.length ≤ position) : stream.Fails (visit wanted reader) .endOfStream := by
  have hShort : data.length - position < ChunkHeader.size := by
    rw [ChunkHeader.size]
    omega
  exact ((ChunkHeader.read_fails reader.order hStands hShort).bind _).bind _

end Skipping

/-- Whatever is read and whatever is skipped, a walk meets the chunks in order and then the end.
The induction is on the chunks; each visit moves on by exactly one of them. -/
theorem walk_reaches_end [Memory] {β : Type} [Backend β] [Readable β] [ReadsInOrder β] [SeeksWithin β]
    {stream : Stream β} {data : Bytes} {position rounds : Nat} {writer reader : ChunkConfig}
    {wanted : Nat → ChunkHeader → Bool} {drafts : List ChunkDraft}
    (hOrder : reader.order = writer.order) (hSeed : reader.seed = writer.seed)
    (hMost : ∀ draft ∈ drafts, draft.payload.length ≤ reader.maxDataSize)
    (hReserve : ∀ index draft, drafts[index]? = some draft → wanted index draft.header = true →
      draft.payload.length ≤ reservable)
    (hStands : stream.Stands data position .success) (hLength : data.length < offsetLimit)
    (hHere : data.drop position = drafts.flatMap (ChunkDraft.encode writer))
    (hRounds : drafts.length < rounds) :
    ∃ after, (walk wanted reader rounds).result stream =
        (.ok (drafts.mapIdx fun index => ChunkDraft.visit reader.seed (wanted index),
          some .endOfStream), after) ∧
      after.errorState = .endOfStream := by
  induction drafts generalizing stream position rounds wanted with
  | nil =>
      obtain ⟨rounds, rfl⟩ : ∃ fewer, rounds = fewer + 1 := ⟨rounds - 1, by
        rw [List.length_nil] at hRounds
        omega⟩
      obtain ⟨after, hVisit, hCode⟩ : stream.Fails (visit (wanted 0) reader) .endOfStream :=
        visit_fails hStands (List.drop_eq_nil_iff.mp hHere)
      refine ⟨after, ?_, hCode⟩
      rw [walk, Action.result_bind_of_ok (Action.result_attempt_of_error hVisit)]
      rfl
  | cons draft later ih =>
      obtain ⟨rounds, rfl⟩ : ∃ fewer, rounds = fewer + 1 := ⟨rounds - 1, by omega⟩
      rw [List.flatMap_cons] at hHere
      obtain ⟨behind, hVisit, hBehind⟩ := visit_reaches hOrder hSeed
        (hMost draft List.mem_cons_self) (hReserve 0 draft rfl) hStands hLength hHere
      have hNext : data.drop (position + (draft.encode writer).length) =
          later.flatMap (ChunkDraft.encode writer) := by
        rw [← List.drop_drop, hHere, List.drop_left]
      -- The later chunks are decided on by their index, which counts from the second chunk here.
      obtain ⟨after, hLater, hCode⟩ := ih
        (fun other hOther => hMost other (List.mem_cons_of_mem _ hOther))
        (fun index other hOther => hReserve (index + 1) other hOther) hBehind hNext
        (Nat.lt_of_succ_lt_succ hRounds)
      refine ⟨after, ?_, hCode⟩
      rw [walk, Action.result_bind_of_ok (Action.result_attempt_of_ok hVisit), List.mapIdx_cons]
      dsimp only
      rw [Action.result_bind_of_ok hLater, Action.result_pure]

/-- Chunks written to any medium are met in order by every walk through every opening of the
written bytes, whichever of them it reads and whichever it skips. What it reads is what was
written, and behind the last chunk the stream has ended. -/
theorem walk_of_written [Memory] {writer reader : ChunkConfig} {drafts : List ChunkDraft}
    {wanted : Nat → ChunkHeader → Bool} {medium : Medium}
    (hOrder : reader.order = writer.order) (hSeed : reader.seed = writer.seed)
    (hMost : ∀ draft ∈ drafts, draft.payload.length ≤ reader.maxDataSize)
    (hReserve : ∀ index draft, drafts[index]? = some draft → wanted index draft.header = true →
      draft.payload.length ≤ reservable) (hReady : medium.Ready)
    (hRoom : medium.HasRoom (drafts.flatMap (ChunkDraft.encode writer)).length)
    (hLength : (drafts.flatMap (ChunkDraft.encode writer)).length < offsetLimit) :
    ∃ after, medium.run (writeEach writer drafts) = (.ok (drafts.map ChunkDraft.header), after) ∧
      ∀ (opening : Opening) (rounds : Nat), drafts.length < rounds →
        opening.run ((after.content.take after.position).drop medium.position)
            (walk wanted reader rounds) =
          .ok ((drafts.mapIdx fun index draft =>
              ⟨draft.header,
                if wanted index draft.header then
                  some (draft.payload, crc32 draft.payload reader.seed)
                else none⟩,
            some .endOfStream), .endOfStream) := by
  obtain ⟨after, hRun, -, hStored, hPosition⟩ :=
    Medium.takes_of_writes (writeEach_writes writer drafts) medium hReady hRoom
  refine ⟨after, hRun, fun opening rounds hRounds => ?_⟩
  rw [hStored, hPosition, Bytes.drop_take_store]
  apply opening.run_of_stands
  intro β _ _ _ _ stream hStands
  exact walk_reaches_end hOrder hSeed hMost hReserve hStands hLength List.drop_zero hRounds

/-- Three chunks in a file, of which only those with an odd index or without payload are read. -/
theorem walk_of_written_by_index :
    ∃ after : Medium,
      (Medium.file ⟨.opened [] .readWrite 0, Offering.offers File, Window.empty, none, .success⟩).run
          (writeEach .bigEndian [⟨1, 2, [3, 4, 5]⟩, ⟨6, 7, [8]⟩, ⟨9, 10, []⟩]) =
        (.ok [⟨1, 2, 3⟩, ⟨6, 7, 1⟩, ⟨9, 10, 0⟩], after) ∧
      ∀ opening : Opening,
        opening.run ((after.content.take after.position).drop 0)
            (walk (fun index header => index % 2 = 1 || header.dataSize = 0) .bigEndian 4) =
          .ok (([⟨⟨1, 2, 3⟩, none⟩, ⟨⟨6, 7, 1⟩, some ([8], crc32 [8] 0)⟩,
            ⟨⟨9, 10, 0⟩, some ([], crc32 [] 0)⟩], some .endOfStream), .endOfStream) := by
  obtain ⟨after, hRun, hWalk⟩ := @walk_of_written _ .bigEndian .bigEndian
    [⟨1, 2, [3, 4, 5]⟩, ⟨6, 7, [8]⟩, ⟨9, 10, []⟩]
    (fun index header => index % 2 = 1 || header.dataSize = 0)
    (.file ⟨.opened [] .readWrite 0, Offering.offers File, Window.empty, none, .success⟩)
    rfl rfl (by decide)
    (fun index draft hDraft _ => by
      have hMember := List.mem_of_getElem? hDraft
      simp only [List.mem_cons, List.not_mem_nil, or_false] at hMember
      rcases hMember with rfl | rfl | rfl <;> decide)
    ⟨rfl, rfl, rfl, SystemCall.smooth_nil⟩ (show 0 + 58 ≤ File.sizeLimit by decide) (by decide)
  exact ⟨after, hRun, fun opening => hWalk opening 4 (by decide)⟩

end Chunk

end Bytestream
