import Bytestream.Proofs.BufferedDelivery
import Bytestream.Proofs.HandleTransfers
import Bytestream.Proofs.SourceFailures

/-!
Draining a stream through its handle: reading into one buffer after another until a read says that the
data has ended, or fails. A read that was stopped by a failure behind some bytes counts the bytes, so
that the failure has to come up in the read after it.
-/

namespace Bytestream

/-- A source lets all of its bytes through, unless a read of it fails before. -/
theorem Source.supply_ends (source : Source) (room : Nat) :
    (source.supply room).2 = .endOfStream ∧ (source.supply room).1 = source.rest.length ∨
      (source.supply room).2 = .readError := by
  rw [Source.supply]
  split
  · exact (SourceRead.supply_cases room source.reads source.rest.length).imp_right And.left
  · exact .inr rfl

namespace Stream

section Draining

variable {β : Type} [Backend β]

/-- Reads into one destination after another, in at most `rounds` reads. Yields the bytes that the
reads counted, and how the last of them ended the loop if one did. -/
def Handle.drain (rounds : Nat) (destinations : Nat → Bytes) :
    Op β (Bytes × Option (Except HandleFailure Unit)) := do
  match rounds with
  | 0 => return ([], none)
  | rounds + 1 =>
      let (answer, filled) ← read (destinations 0)
      match answer with
      | .error failure => return ([], some (.error failure))
      | .ok 0 => return ([], some (.ok ()))
      | .ok count =>
          let (rest, ended) ← drain rounds fun round => destinations (round + 1)
          return (filled.take count ++ rest, ended)

/-- Reads hand out these bytes one after another, however they are cut, and then report `ended`. Of a
stream that was asked for `total` bytes so far, `states total` is what a read relies on. -/
def HandsOut (states : Nat → Stream β → Prop) (bytes : Bytes) (ended : Code) : Prop :=
  ∀ {total count : Nat} {stream : Stream β}, states total stream → 0 < count →
    ∃ after, (Stream.read count).result stream =
        (.ok ⟨.report ((bytes.drop total).take count).length
          (if total + count ≤ bytes.length then .success else ended),
          (bytes.drop total).take count⟩, after) ∧
      states (total + count) after

variable {states : Nat → Stream β → Prop} {bytes : Bytes} {ended : Code} {total : Nat}
  {stream : Stream β} {destinations : Nat → Bytes}

/-- The answer of a handle to the read that nothing is left for. -/
def Handle.endingOf (ended : Code) : Except HandleFailure Unit :=
  if ended = .endOfStream then .ok () else .error (.stream ended)

/-- One read of the loop that nothing is left for ends it. -/
theorem Handle.drain_ended {after : Stream β} (hEnded : ended ≠ .success)
    (hRun : (Stream.read (destinations 0).length).result stream =
      (.ok ⟨.report 0 ended, []⟩, after)) (rounds : Nat) :
    (drain (rounds + 1) destinations).result stream =
      (.ok ([], some (endingOf ended)), after) := by
  have hRead := read_answers hRun (Nat.zero_le _)
  rw [drain, Action.result_bind_of_ok hRead, endingOf]
  cases ended with
  | success => exact absurd rfl hEnded
  | endOfStream => rfl
  | _ => rfl

/-- One read of the loop that counts some bytes leaves the rest to the later ones. -/
theorem Handle.drain_some {middle after : Stream β} {piece rest : Bytes} {code : Code}
    {ending : Option (Except HandleFailure Unit)} {rounds : Nat} (hSome : 0 < piece.length)
    (hMost : piece.length ≤ (destinations 0).length) (hBound : piece.length < magnitudeLimit)
    (hRun : (Stream.read (destinations 0).length).result stream =
      (.ok ⟨.report piece.length code, piece⟩, middle))
    (hRest : (drain rounds fun round => destinations (round + 1)).result middle =
      (.ok (rest, ending), after)) :
    (drain (rounds + 1) destinations).result stream = (.ok (piece ++ rest, ending), after) := by
  have hRead := read_answers hRun hMost
  have hValue : (Outcome.report piece.length code).value = piece.length :=
    Outcome.value_report code hBound
  rw [readAnswer, if_pos (by rwa [hValue]), hValue] at hRead
  rw [drain, Action.result_bind_of_ok hRead]
  obtain ⟨count, hCount⟩ : ∃ count, piece.length = count + 1 := ⟨piece.length - 1, by omega⟩
  rw [hCount]
  show Action.result (do
    let later ← drain rounds fun round => destinations (round + 1)
    return ((piece ++ (destinations 0).drop (count + 1)).take (count + 1) ++ later.1, later.2))
    middle = _
  rw [Action.result_bind_of_ok hRest, Action.result_pure, ← hCount, List.take_left]

/-- The loop ends with all of the bytes that are left, once more reads than bytes were allowed. The
induction is on how many are left: a read that counts none ends the loop, and any other one leaves
fewer. -/
theorem Handle.drain_handsOut (hLaw : HandsOut states bytes ended) (hEnded : ended ≠ .success)
    (hState : states total stream) (hSome : ∀ round, destinations round ≠ [])
    (hBounds : ∀ round, min (destinations round).length bytes.length < magnitudeLimit) :
    ∃ asked after, states asked after ∧ bytes.length < asked ∧
      ∀ rounds, bytes.length - total < rounds → (drain rounds destinations).result stream =
        (.ok (bytes.drop total, some (endingOf ended)), after) := by
  induction hLeft : bytes.length - total using Nat.strongRecOn
    generalizing total stream destinations with
  | _ left ih =>
      have hCount := List.length_pos_iff.mpr (hSome 0)
      have hBound := hBounds 0
      obtain ⟨middle, hRun, hMiddle⟩ := hLaw hState hCount
      rcases Nat.lt_or_ge total bytes.length with hMore | hNone
      · have hPiece : ((bytes.drop total).take (destinations 0).length).length =
            min (destinations 0).length (bytes.length - total) := by
          rw [List.length_take, List.length_drop]
        obtain ⟨asked, after, hAfter, hAsked, hRest⟩ :=
          ih (bytes.length - (total + (destinations 0).length)) (by omega) hMiddle
            (fun round => hSome (round + 1)) (fun round => hBounds (round + 1)) rfl
        refine ⟨asked, after, hAfter, hAsked, fun rounds hRounds => ?_⟩
        obtain ⟨fewer, rfl⟩ : ∃ fewer, rounds = fewer + 1 := ⟨rounds - 1, by omega⟩
        have hAll := drain_some (by omega) (by omega) (by omega) hRun (hRest fewer (by omega))
        rwa [← List.drop_drop, List.take_append_drop] at hAll
      · have hNothing : bytes.drop total = [] := List.drop_of_length_le hNone
        rw [hNothing, List.take_nil, if_neg (by omega)] at hRun
        refine ⟨_, middle, hMiddle, by omega, fun rounds hRounds => ?_⟩
        obtain ⟨fewer, rfl⟩ : ∃ fewer, rounds = fewer + 1 := ⟨rounds - 1, by omega⟩
        rw [hNothing]
        exact drain_ended hEnded hRun fewer

/-- A stream that is opened on the backend is drained by any loop of reads into buffers with room,
after no more reads than one for each byte and one. The bytes are the front part of the data, all of
it unless the loop ends with a failure, and that is so exactly if `failed` says that a read below the
backend failed. -/
def Drained (backend : β) (data : Bytes) (failed : β → Prop) : Prop :=
  ∃ start log, ofBackend backend = .ok (start, log) ∧ ∀ destinations : Nat → Bytes,
    (∀ round, destinations round ≠ []) →
    (∀ round, min (destinations round).length data.length < magnitudeLimit) →
      ∃ bytes ending after,
        (∀ rounds, data.length < rounds →
          (Handle.drain rounds destinations).result start = (.ok (bytes, some ending), after)) ∧
        bytes <+: data ∧
        ((∃ failure, ending = .error failure) ↔ failed after.backend) ∧
        (ending = .ok () → bytes = data)

theorem drained_of_handsOut {backend : β} {window : Window} {data : Bytes} {failed : β → Prop}
    (hWindow : Backend.initialWindow backend = .ok window)
    (hLaw : HandsOut states bytes ended) (hStart : states 0 (opened backend window))
    (hFront : bytes <+: data)
    (hEnds : ∀ asked after, states asked after → bytes.length < asked →
      ended = .endOfStream ∧ bytes = data ∧ ¬failed after.backend ∨
        ended = .readError ∧ failed after.backend) : Drained backend data failed := by
  obtain ⟨log, hOpened⟩ := ofBackend_of_window hWindow
  refine ⟨_, log, hOpened, fun destinations hSome hBounds => ?_⟩
  have hLength := hFront.length_le
  have hEnded : ended ≠ .success := by
    obtain ⟨last, -, hLast⟩ := hLaw hStart (Nat.succ_pos bytes.length)
    obtain ⟨rfl, -⟩ | ⟨rfl, -⟩ := hEnds _ last hLast (by omega)
    · decide
    · decide
  obtain ⟨asked, after, hAfter, hAsked, hRun⟩ := Handle.drain_handsOut hLaw hEnded hStart hSome
    fun round => Nat.lt_of_le_of_lt (by omega) (hBounds round)
  refine ⟨bytes, Handle.endingOf ended, after, fun rounds hRounds => hRun rounds (by omega), hFront, ?_⟩
  obtain ⟨rfl, hAll, hFine⟩ | ⟨rfl, hFailed⟩ := hEnds asked after hAfter hAsked
  · exact ⟨iff_of_false (fun ⟨_, hFailure⟩ => nomatch hFailure) hFine, fun _ => hAll⟩
  · exact ⟨iff_of_true ⟨_, rfl⟩ hFailed, fun hDone => nomatch hDone⟩

end Draining

section Windows

variable {β : Type} [Backend β] {bytes : Bytes} {ended : Code}

theorem Drawn.handsOut :
    HandsOut (fun total (stream : Stream β) => stream.Drawn bytes ended total) bytes ended := by
  intro total count stream hDrawn hSome
  rw [read_of_window_only hDrawn.window_only hSome]
  exact hDrawn.bufferedRead hSome

/-- A stream that is just opened has all of its supply to give. -/
theorem drawn_opened {backend : β} {window : Window}
    (hOnly : (Backend.capabilities backend).read = false ∧
      (Backend.capabilities backend).bufferedRead = true)
    (hSupplies : Supplies backend window bytes ended) :
    (opened backend window).Drawn bytes ended 0 :=
  ⟨fun _ => ⟨rfl, hOnly, hSupplies, rfl⟩, fun hShort => absurd hShort (Nat.not_lt_zero _)⟩

theorem drained_of_windowRead [WindowRead β] {backend : β} {window : Window} {data : Bytes}
    (hWindow : Backend.initialWindow backend = .ok window)
    (hHolds : Readable.Holds backend window data 0) : Drained backend data (fun _ => False) := by
  have hOnly : (Backend.capabilities backend).read = false ∧
      (Backend.capabilities backend).bufferedRead = true := by
    rw [Offering.capabilities_eq]
    exact WindowRead.window_only
  exact drained_of_handsOut hWindow Drawn.handsOut
    (drawn_opened hOnly (WindowRead.supplies hHolds)) List.prefix_rfl
    fun _ _ _ _ => .inl ⟨rfl, rfl, id⟩

end Windows

section Direct

variable {β : Type} [Backend β] [DirectRead β] {data : Bytes} {position : Nat}

/-- A stream that stood at `position` in its data and was asked for `total` bytes behind that. -/
structure Copied (stream : Stream β) (data : Bytes) (position total : Nat) : Prop where
  offered : stream.capabilities = Offering.offers β
  holds : Readable.Holds stream.backend stream.window data
    (position + min total (data.length - position))
  errorState_eq : stream.errorState =
    if total ≤ data.length - position then .success else .endOfStream

omit [DirectRead β] in
theorem read_of_reply {stream : Stream β} {count : Nat} {transfer : Transfer} {backend : β}
    {log : List Event} (hSome : 0 < count) (hOffers : stream.capabilities.read = true)
    (hCall : Backend.read stream.backend count = ⟨transfer, backend, log⟩) :
    (read count).result stream =
      (.ok ⟨stream.reported transfer.outcome, transfer.bytes⟩,
        { stream with backend, errorState := stream.kept transfer.outcome.code }) := by
  rw [read_of_offered hSome hOffers, hCall]

/-- A direct read goes on where the reads before it stopped, also behind the end of the data. -/
theorem Copied.handsOut :
    HandsOut (fun total (stream : Stream β) => stream.Copied data position total)
      (data.drop position) .endOfStream := by
  intro total count stream ⟨hOffered, hHolds, hCode⟩ hSome
  have hRead : stream.capabilities.read = true := by
    rw [hOffered]
    exact DirectRead.direct_only.1
  obtain ⟨backend, log, hCall, hAfter⟩ := DirectRead.copies hHolds hSome
  have hLeft : data.drop (position + min total (data.length - position)) =
      (data.drop position).drop total := by
    rw [List.drop_drop]
    rcases Nat.le_total total (data.length - position) with hWithin | hBehind
    · rw [Nat.min_eq_left hWithin]
    · rw [List.drop_of_length_le (by omega), List.drop_of_length_le (by omega)]
  have hMoved : (((data.drop position).drop total).take count).length =
      min count (data.length - position - total) := by
    rw [List.length_take, List.length_drop, List.length_drop]
  have hCopy : Transfer.copy count ((data.drop position).drop total) count =
      ⟨.report (((data.drop position).drop total).take count).length
        (if total + count ≤ data.length - position then .success else .endOfStream),
        ((data.drop position).drop total).take count⟩ := by
    have hEnough : count ≤ min count ((data.drop position).drop total).length ↔
        total + count ≤ data.length - position := by
      rw [List.length_drop, List.length_drop]
      omega
    rw [Transfer.copy_eq, Nat.min_self]
    simp only [hEnough]
  rw [hLeft, hCopy] at hCall
  rw [hLeft, hMoved] at hAfter
  have hRun := read_of_reply hSome hRead hCall
  -- Behind the end the error of an earlier read takes the place of the same code.
  have hSame (moved : Nat) : stream.reported (.report moved
      (if total + count ≤ data.length - position then .success else .endOfStream)) =
        .report moved (if total + count ≤ data.length - position then .success else .endOfStream) := by
    rw [reported, hCode]
    by_cases hClean : total ≤ data.length - position
    · rw [if_pos hClean, if_pos rfl]
    · rw [if_neg hClean, if_neg (by decide), if_neg (by omega : ¬total + count ≤ _)]
      rfl
  rw [hSame, ← List.length_drop] at hRun
  refine ⟨_, hRun, hOffered, ?_, ?_⟩
  · have hReached : position + min (total + count) (data.length - position) =
        position + min total (data.length - position) +
          min count (data.length - position - total) := by
      omega
    rw [hReached]
    exact hAfter
  · rw [List.length_drop, Outcome.code_report, kept, hCode]
    by_cases hClean : total ≤ data.length - position
    · rw [if_pos hClean, if_pos rfl]
    · rw [if_neg hClean, if_neg (by decide), if_neg (by omega)]

theorem drained_of_directRead {backend : β} {window : Window}
    (hWindow : Backend.initialWindow backend = .ok window)
    (hHolds : Readable.Holds backend window data position) :
    Drained backend (data.drop position) (fun _ => False) := by
  refine drained_of_handsOut hWindow Copied.handsOut ⟨Offering.capabilities_eq backend, ?_, ?_⟩
    List.prefix_rfl fun _ _ _ _ => .inl ⟨rfl, rfl, id⟩
  · rw [Nat.zero_min, Nat.add_zero]
    exact hHolds
  · exact (if_pos (Nat.zero_le _)).symm

end Direct

section Buffered

theorem drained_of_bufferedReader {reader : BufferedReader} (hRoom : 0 < reader.capacity)
    (hSome : .atMost 0 ∉ reader.source.reads) :
    Drained reader reader.source.rest
      (fun after => reader.source.FailedBetween after.source) := by
  have hShown : reader.buffer.slice? Window.empty.cursor Window.empty.available = some [] :=
    if_pos (Nat.zero_le _)
  have hSupplies := @BufferedReader.supplies reader Window.empty [] hShown (Nat.zero_le _) hRoom hSome
  rw [List.nil_append] at hSupplies
  have hLaw : HandsOut (fun total stream =>
      stream.Drawn (reader.source.rest.take (reader.source.supply reader.capacity).1)
          (reader.source.supply reader.capacity).2 total ∧ stream.Tracks reader.source)
      (reader.source.rest.take (reader.source.supply reader.capacity).1)
      (reader.source.supply reader.capacity).2 := by
    intro total count stream ⟨hDrawn, hTracks⟩ hSome
    obtain ⟨after, hRun, hAfter⟩ := hDrawn.handsOut hSome
    rw [read_of_window_only hDrawn.window_only hSome] at hRun ⊢
    exact ⟨after, hRun, hAfter, hTracks.bufferedRead hSome hRun⟩
  refine drained_of_handsOut rfl hLaw
    ⟨drawn_opened ⟨rfl, rfl⟩ hSupplies, .of_opened rfl rfl rfl rfl⟩ (List.take_prefix _ _) ?_
  rintro asked after ⟨hDrawn, hTracks⟩ hShort
  obtain ⟨-, -, hCode, hFailed⟩ := hDrawn.2 hShort
  have hRead := hTracks.failedBetween_iff (hCode ▸ hFailed)
  rw [hCode] at hRead
  obtain ⟨hEnded, hAll⟩ | hEnded := reader.source.supply_ends reader.capacity
  · rw [hAll, List.take_length]
    refine .inl ⟨hEnded, rfl, ?_⟩
    rw [hRead, hEnded]
    decide
  · exact .inr ⟨hEnded, hRead.mpr hEnded⟩

end Buffered

/-- Draining yields exactly the data and never takes a failure for its end: on a region, a vector and
a file that can be read and whose calls the system gets on with, from wherever they stand, on memory,
on data in pieces, and on a buffered reader of any capacity over any source that gives at least one
byte where it gives any. Only there a read can fail, and the loop ends with a failure exactly if one
did. -/
theorem draining_yields_the_data [Memory] :
    (∀ region : Region, Drained region (region.bytes.drop region.position) fun _ => False) ∧
    (∀ vector : Growable, Drained vector (vector.bytes.drop vector.position) fun _ => False) ∧
    (∀ file : File, file.access.canRead = true → SystemCall.Smooth file.reads →
      Drained file (file.bytes.drop file.position) fun _ => False) ∧
    (∀ bytes, Drained (ReadOnly.mk bytes) bytes fun _ => False) ∧
    (∀ source : Pieces, source.pattern ≠ [] → Drained source source.bytes fun _ => False) ∧
    ∀ reader : BufferedReader, 0 < reader.capacity → .atMost 0 ∉ reader.source.reads →
      Drained reader reader.source.rest fun after =>
        reader.source.FailedBetween after.source := by
  refine ⟨fun region => ?_, fun vector => ?_, fun file hAccess hSmooth => ?_, fun bytes => ?_,
    fun source hPattern => ?_, fun reader hRoom hSome => drained_of_bufferedReader hRoom hSome⟩
  · exact @drained_of_directRead Region _ _ _ _ region Window.empty rfl ⟨rfl, rfl⟩
  · exact @drained_of_directRead Growable _ _ _ _ vector Window.empty rfl ⟨rfl, rfl⟩
  · exact @drained_of_directRead File _ _ _ _ file Window.empty rfl
      ⟨rfl, rfl, hAccess, hSmooth⟩
  · exact @drained_of_windowRead ReadOnly _ _ ⟨bytes⟩ _ _ rfl ⟨rfl, rfl, rfl, rfl⟩
  · exact @drained_of_windowRead Pieces _ _ source _ _ rfl ⟨rfl, rfl, Nat.zero_le _, hPattern⟩

/-- A reader whose source gives two bytes, is interrupted, gives one and fails. -/
def failingReader : BufferedReader where
  source := {
    bytes := [1, 2, 3, 4, 5]
    limit := offsetLimit
    reads := [.atMost 2, .interrupted, .atMost 1, .failed] }
  buffer := [0, 0, 0, 0]

/-- The failure comes up in the third read, behind one that counts the single byte in front of it. -/
theorem draining_yields_the_data_until_failure :
    0 < failingReader.capacity ∧ .atMost 0 ∉ failingReader.source.reads ∧
      ∃ start log after, ofBackend failingReader = .ok (start, log) ∧
        (Handle.drain 6 fun _ => [9, 9]).result start =
          (.ok ([1, 2, 3], some (.error (.stream .readError))), after) ∧
        failingReader.source.FailedBetween after.backend.source := by
  have hRoom : 0 < failingReader.capacity := by decide
  have hSome : .atMost 0 ∉ failingReader.source.reads := by decide
  obtain ⟨start, log, hOpened, hDrained⟩ :=
    draining_yields_the_data.2.2.2.2.2 failingReader hRoom hSome
  obtain ⟨bytes, ending, after, hRun, -, hFailed, -⟩ :=
    hDrained (fun _ => [9, 9]) (fun _ => nofun) (fun _ => by decide)
  have hLoop : ((Handle.drain 6 fun _ => [9, 9]).result (opened failingReader Window.empty)).1 =
      .ok ([1, 2, 3], some (.error (.stream .readError))) := rfl
  obtain rfl : opened failingReader Window.empty = start := by
    cases hOpened
    rfl
  have hSix := hRun 6 (by decide)
  rw [hSix] at hLoop
  cases hLoop
  exact ⟨hRoom, hSome, _, log, after, hOpened, hSix, hFailed.mp ⟨_, rfl⟩⟩

end Stream

end Bytestream
