import Bytestream.Proofs.BufferedSupply
import Bytestream.Proofs.ChunkReading
import Bytestream.Proofs.PayloadCopies
import Bytestream.Proofs.ReadableBackends

/-!
Reading what a stream has left to give. As far as that goes every buffered stream reads like a
stream on a byte string, whatever its refills bring in and whatever ends them, so that what the
bytes say of chunks holds of the stream. A damaged chunk leaves it right behind the damage.
-/

namespace Bytestream

variable {β : Type} [Backend β] [FitsWindow β]

/-- A backend stands where the rest of the data is what it supplies, with a window that fits. -/
@[reducible] def Readable.supplied (β : Type) [Backend β] [FitsWindow β] (ended : Code) :
    Readable β where
  offers := { size := true, seek := true, bufferedRead := true }
  capabilities_eq := FitsWindow.offers
  Holds backend window data position :=
    FitsWindow.Fits backend window ∧ Supplies backend window (data.drop position) ended

/-- A backend whose refills use something up, so that they come to an end. -/
class Drains (β : Type) [Backend β] [FitsWindow β] where
  left : β → Window → Nat
  refill_lt : ∀ {backend later : β} {window moved : Window} {log : List Event},
    FitsWindow.Fits backend window → window.exhausted = true →
      Backend.refill backend window = ⟨.ok .success, (later, moved), log⟩ →
        left later moved.exhaust < left backend window

instance : Drains ReadOnly where
  left _ _ := 0
  refill_lt _ _ hRefill := nomatch hRefill

/-- A piece that is handed out is taken off what lies behind the window. -/
theorem Pieces.left_of_refill {source later : Pieces} {window moved : Window} {log : List Event}
    (hFits : FitsWindow.Fits source window) (_ : window.exhausted = true)
    (hRefill : Backend.refill source window = ⟨.ok .success, (later, moved), log⟩) :
    later.bytes.length - moved.exhaust.stop < source.bytes.length - window.stop := by
  obtain ⟨length, hNext, hPositive⟩ := Pieces.exists_nextLength hFits.2
  simp only [Backend.refill, Pieces.refill, hNext] at hRefill
  split at hRefill
  · cases hRefill
  · cases hRefill
    simp only [Window.exhaust, Window.run]
    omega

instance : Drains Pieces where
  left source window := source.bytes.length - window.stop
  refill_lt := Pieces.left_of_refill

/-- A read moves a source past what it gave. -/
theorem Source.left_of_read {source after : Source} {taken : Bytes} {count : Nat}
    (hRead : source.read count = (some taken, after)) :
    after.bytes.length - after.position + taken.length = source.bytes.length - source.position := by
  obtain ⟨most, -, hTaken, hBytes, hPosition⟩ := taken_of_read hRead
  have hLength := congrArg List.length hTaken
  rw [List.length_take, rest, List.length_drop] at hLength
  rw [hBytes, hPosition]
  omega

instance : Drains BufferedReader where
  left reader _ := reader.source.bytes.length - reader.source.position
  refill_lt := by
    intro reader later window moved log hFits hExhausted hRefill
    change reader.refill window = _ at hRefill
    cases hRead : reader.source.read reader.buffer.length with
    | mk taken source =>
        cases taken with
        | none =>
            rw [BufferedReader.refill_of_failed hFits hExhausted hRead] at hRefill
            cases hRefill
        | some taken =>
            rw [BufferedReader.refill_of_exhausted hFits hExhausted hRead] at hRefill
            split at hRefill
            · cases hRefill
            · cases hRefill
              have hGiven : taken ≠ [] := by simpa using ‹¬taken.isEmpty = true›
              have hSome := List.length_pos_iff.mpr hGiven
              have hLeft := Source.left_of_read hRead
              dsimp only
              omega

/-- There is always an answer to what a backend supplies. The induction is on what its refills have
left to use up. -/
theorem exists_supplies [Drains β] {backend : β} {window : Window}
    (hFits : FitsWindow.Fits backend window) : ∃ bytes ended, Supplies backend window bytes ended := by
  induction hLeft : Drains.left backend window.exhaust using Nat.strongRecOn
    generalizing backend window with
  | _ left ih =>
      have hExhausted := Window.exhausted_exhaust window
      have hIdle : FitsWindow.Fits backend window.exhaust := FitsWindow.moved hFits rfl
      have hShown := Window.slice?_of_inside (FitsWindow.stop_le hFits)
      obtain ⟨code, hAnswer, hDone⟩ := FitsWindow.refill hIdle hExhausted
      cases hRefill : Backend.refill backend window.exhaust with
      | mk answer reached log =>
          rw [hRefill] at hAnswer hDone
          obtain rfl : answer = .ok code := hAnswer
          by_cases hCode : code = .success
          · obtain ⟨hFilled, hLater⟩ := hDone hCode
            subst hCode
            obtain ⟨rest, ended, hRest⟩ :=
              ih _ (hLeft ▸ Drains.refill_lt hIdle hExhausted hRefill) hLater rfl
            exact ⟨_, ended, .refilled hShown hRefill hFilled.cursor_eq hFilled.cursor_lt
              hFilled.inside hRest⟩
          · exact ⟨_, code, .ended hShown hRefill hCode⟩

namespace Stream

variable {stream : Stream β} {data bytes : Bytes} {position count : Nat} {ended : Code}

theorem InBounds.window_only (hBounds : stream.InBounds) :
    stream.capabilities.read = false ∧ stream.capabilities.bufferedRead = true := by
  rw [hBounds.offered]
  exact ⟨rfl, rfl⟩

theorem InBounds.takeBuffered (hBounds : stream.InBounds) {rounds : Nat} {after : Stream β}
    (hTaken : (Stream.takeBuffered rounds count).result stream = (.ok bytes, after)) :
    after.InBounds := by
  have hEnds := orderly_inBounds.takeBuffered rounds count stream hBounds
  rw [hTaken] at hEnds
  exact hEnds

/-- A healthy stream has something left to give, or nothing, until it fails. -/
theorem InBounds.exists_feeds [Drains β] (hBounds : stream.InBounds)
    (hHealthy : stream.failure = none) (hClean : stream.errorState = .success) :
    ∃ bytes ended, stream.Feeds bytes ended := by
  obtain ⟨bytes, ended, hSupplies⟩ := exists_supplies (hBounds.healthy hHealthy)
  exact ⟨bytes, ended, hHealthy, hBounds.window_only, hSupplies, hClean⟩

/-- To stand in the data is to have the rest of it left to give. -/
theorem stands_supplied_iff :
    @Stands β _ (Readable.supplied β ended) stream data position .success ↔
      stream.InBounds ∧ stream.Feeds (data.drop position) ended := by
  let := Readable.supplied β ended
  constructor
  · rintro ⟨hHealthy, hOffered, ⟨hFits, hSupplies⟩, hClean⟩
    have hBounds : stream.InBounds :=
      ⟨hOffered, fun _ => hFits, fun code hFailed => by rw [hHealthy] at hFailed; cases hFailed⟩
    exact ⟨hBounds, hHealthy, hBounds.window_only, hSupplies, hClean⟩
  · rintro ⟨hBounds, hFeeds⟩
    exact ⟨hFeeds.unfailed, hBounds.offered, ⟨hBounds.healthy hFeeds.unfailed, hFeeds.supplies⟩,
      hFeeds.errorState_eq⟩

/-- Copying what is there comes to the first of the bytes and leaves the others. -/
theorem Feeds.takeBuffered (hFeeds : stream.Feeds bytes ended) (hBounds : stream.InBounds)
    (hEnough : count ≤ bytes.length) :
    ∃ after, (Stream.takeBuffered count count).result stream = (.ok (bytes.take count), after) ∧
      after.InBounds ∧ after.Feeds (bytes.drop count) ended := by
  obtain ⟨after, hTaken, hDrawn⟩ := takeBuffered_feeds (Nat.le_refl count) hFeeds
  exact ⟨after, hTaken, hBounds.takeBuffered hTaken, hDrawn.1 hEnough⟩

/-- Both ways to read keep to the order of what is supplied. A payload is copied by another loop than
a read, which comes to the same. -/
theorem readsAhead_supplied [Memory] (ended : Code) : @ReadsAhead β _ (Readable.supplied β ended) := by
  let := Readable.supplied β ended
  constructor
  · intro stream data position count hStands hEnough
    obtain ⟨hBounds, hFeeds⟩ := stands_supplied_iff.mp hStands
    rcases Nat.eq_zero_or_pos count with rfl | hSome
    · exact ⟨stream, rfl, hStands⟩
    have hThere : count ≤ (data.drop position).length := by rwa [List.length_drop]
    obtain ⟨after, hTaken, hAfter, hLeft⟩ := hFeeds.takeBuffered hBounds hThere
    rw [List.drop_drop] at hLeft
    refine ⟨after, ?_, stands_supplied_iff.mpr ⟨hAfter, hLeft⟩⟩
    rw [read_of_window_only hBounds.window_only hSome,
      bufferedRead_of_taken hBounds.window_only.2 hSome hTaken, hLeft.errorState_eq,
      Bytes.length_piece hEnough]
    rfl
  · intro stream data position size seed hStands hEnough
    obtain ⟨hBounds, hFeeds⟩ := stands_supplied_iff.mp hStands
    have hThere : size ≤ (data.drop position).length := by rwa [List.length_drop]
    obtain ⟨after, hTaken, hAfter, hLeft⟩ := hFeeds.takeBuffered hBounds hThere
    rw [List.drop_drop] at hLeft
    obtain ⟨piece, last, hCopied, -, hPayload⟩ :=
      hBounds.takePayload_like_takeBuffered size size seed hFeeds.errorState_eq
    rw [hTaken] at hCopied
    cases hCopied
    rw [if_pos hLeft.errorState_eq] at hPayload
    refine ⟨after, ?_, stands_supplied_iff.mpr ⟨hAfter, hLeft⟩⟩
    rw [Chunk.readPayload, Action.result_bind_of_ok (Action.result_state stream),
      if_pos hBounds.window_only.2, Action.result_bind_of_ok hPayload,
      Action.result_bind_of_ok (Action.result_emit _ after), Action.result_pure]

end Stream

namespace Chunk

variable {stream : Stream β} {bytes : Bytes} {ended : Code} {config : ChunkConfig}

/-- A chunk at the front of what is left is read, and leaves what lies behind it. -/
theorem read_feeds [Memory] {chunk : Chunk} (hBounds : stream.InBounds)
    (hFeeds : stream.Feeds bytes ended)
    (hDecode : decode config bytes = .ok chunk) :
    ∃ after, (read config).result stream = (.ok chunk, after) ∧ after.InBounds ∧
      after.Feeds (bytes.drop chunk.header.chunkLength) ended := by
  let := Readable.supplied β ended
  let : ReadsAhead β := Stream.readsAhead_supplied ended
  have hStands : stream.Stands bytes 0 .success := Stream.stands_supplied_iff.mpr ⟨hBounds, hFeeds⟩
  obtain ⟨after, hRead, hAfter⟩ := read_reaches hStands hDecode
  rw [Nat.zero_add] at hAfter
  exact ⟨after, hRead, Stream.stands_supplied_iff.mp hAfter⟩

/-- A damaged chunk is found out once all of it was read, so that the stream has just what lies behind
it left, as soon as the error is off it. -/
theorem read_feeds_mismatch [Memory] {stored computed : Nat} (hBounds : stream.InBounds)
    (hFeeds : stream.Feeds bytes ended)
    (hDecode : decode config bytes = .error (.checksumMismatch stored computed)) :
    ∃ after, (read config).result stream =
        (.error (.error (.checksumMismatch stored computed)), after) ∧
      after.errorState = .invalidData ∧ after.failure = none ∧ after.InBounds ∧
      { after with errorState := .success }.Feeds
        (bytes.drop (fields config.order bytes).header.chunkLength) ended := by
  let := Readable.supplied β ended
  let : ReadsAhead β := Stream.readsAhead_supplied ended
  have hStands : stream.Stands bytes 0 .success := Stream.stands_supplied_iff.mpr ⟨hBounds, hFeeds⟩
  obtain ⟨hWhole, hMost, hReserve, hVerify, hSum, rfl, rfl⟩ := of_decode_mismatch hDecode
  obtain ⟨after, hRead, hAfter⟩ :=
    read_rejects_mismatch hStands rfl hWhole hMost hReserve hVerify hSum
  obtain ⟨hInside, hLeft⟩ := Stream.stands_supplied_iff.mp (hAfter.mark .success)
  rw [List.drop_zero, Nat.zero_add] at hLeft
  exact ⟨after, hRead, hAfter.errorState_eq, hAfter.unfailed,
    hInside.of_same rfl rfl rfl rfl, hLeft⟩

end Chunk

end Bytestream
