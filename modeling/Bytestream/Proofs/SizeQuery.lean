import Bytestream.Proofs.HandleTransfers

/-!
Asking a buffered reader for its length. The reader goes to the end of its source to find it, and back
to where it was, which its window and its reads do not notice. Only a source that goes to its end and
fails on the way back is left there: then the window is all that the reader still has to give, and no
reset brings the rest of the data back.
-/

namespace Bytestream

namespace Source

variable {source : Source}

/-- The source at another position, with other seeks to come. -/
def relocate (source : Source) (position : Nat) (seeks : List Bool) : Source :=
  { source with position, seeks }

/-- The source with other seeks to come. -/
def reschedule (source : Source) (seeks : List Bool) : Source :=
  source.relocate source.position seeks

/-- A query of the length that goes to the end and does not come back. -/
def Strands (source : Source) : Prop :=
  ∃ position length there back last, source.seek 0 .current = (some position, there) ∧
    there.seek 0 .finish = (some length, back) ∧ back.seek position .start = (none, last)

/-- A seek goes where it resolves to, or leaves the source in place. Either way it uses up one entry
of the schedule. -/
theorem seek_cases (source : Source) (offset : Int) (origin : Origin) :
    (∃ target, origin.resolve offset source.position source.bytes.length = some target ∧
        source.seek offset origin = (some target, source.relocate target source.seeks.tail)) ∨
      source.seek offset origin = (none, source.reschedule source.seeks.tail) := by
  rw [seek]
  dsimp only
  split
  · rename_i target _ hTarget
    split
    · exact .inl ⟨target, hTarget, rfl⟩
    · exact .inr rfl
  · exact .inr rfl

/-- What a read takes does not depend on the seeks to come. -/
theorem read_reschedule (source : Source) (seeks : List Bool) (count : Nat) :
    (source.reschedule seeks).read count =
      ((source.read count).1, (source.read count).2.reschedule seeks) := by
  obtain ⟨bytes, position, limit, readable, reads, old⟩ := source
  cases readable with
  | false => rfl
  | true =>
      simp only [read, reschedule, relocate, if_true]
      cases reads.dropWhile (· = .interrupted) with
      | nil => rfl
      | cons next later => cases next <;> rfl

theorem rest_relocate_length (source : Source) (seeks : List Bool) :
    (source.relocate source.bytes.length seeks).rest = [] := List.drop_length

/-- At its end a source gives nothing, if it does not fail. -/
theorem read_of_end (hEnd : source.rest = []) {taken : Bytes} {after : Source} {count : Nat}
    (hRead : source.read count = (some taken, after)) : taken = [] := by
  obtain ⟨most, -, hTaken, -⟩ := taken_of_read hRead
  rw [hTaken, hEnd, List.take_nil]

end Source

namespace BufferedReader

/-- The reader with other seeks of its source to come. -/
def reschedule (reader : BufferedReader) (seeks : List Bool) : BufferedReader :=
  { reader with source := reader.source.reschedule seeks }

/-- A query of the length leaves the reader as it was, but for the schedule, unless it strands the
source at its end. -/
theorem size_cases (reader : BufferedReader) :
    (¬reader.source.Strands ∧ ∃ seeks, reader.size.state = reader.reschedule seeks) ∨
      reader.source.Strands ∧ reader.size.value = .failed .unknownError ∧
        ∃ seeks, reader.size.state =
          { reader with source := reader.source.relocate reader.source.bytes.length seeks } := by
  rcases reader.source.seek_cases 0 .current with ⟨here, hHere, hFirst⟩ | hFirst
  · obtain rfl := Origin.resolve_current hHere
    generalize hThere : reader.source.relocate reader.source.position reader.source.seeks.tail = there
      at hFirst
    rcases there.seek_cases 0 .finish with ⟨length, hFinish, hSecond⟩ | hSecond
    · obtain rfl : length = there.bytes.length := Origin.eq_of_resolve (Int.add_zero _) hFinish
      generalize hBack : there.relocate there.bytes.length there.seeks.tail = back at hSecond
      rcases back.seek_cases reader.source.position .start with ⟨start, hStart, hThird⟩ | hThird
      · obtain rfl : start = reader.source.position :=
          Origin.eq_of_resolve (Int.zero_add _) hStart
        refine .inl ⟨?_, back.seeks.tail, ?_⟩
        · rintro ⟨_, _, _, _, _, hOne, hTwo, hThree⟩
          cases hFirst.symm.trans hOne
          cases hSecond.symm.trans hTwo
          cases hThird.symm.trans hThree
        · simp only [size, hFirst, hSecond, hThird]
          subst hThere hBack
          rfl
      · refine .inr ⟨⟨_, _, _, _, _, hFirst, hSecond, hThird⟩, ?_, back.seeks.tail, ?_⟩
        · simp only [size, hFirst, hSecond, hThird]
        · simp only [size, hFirst, hSecond, hThird]
          subst hThere hBack
          rfl
    · refine .inl ⟨?_, there.seeks.tail, ?_⟩
      · rintro ⟨_, _, _, _, _, hOne, hTwo, -⟩
        cases hFirst.symm.trans hOne
        cases hSecond.symm.trans hTwo
      · simp only [size, hFirst, hSecond]
        subst hThere
        rfl
  · refine .inl ⟨?_, reader.source.seeks.tail, ?_⟩
    · rintro ⟨_, _, _, _, _, hOne, -⟩
      cases hFirst.symm.trans hOne
    · simp only [size, hFirst]
      rfl

/-- A refill does what it does whatever the seeks to come. -/
theorem refill_reschedule (reader : BufferedReader) (seeks : List Bool) (window : Window) :
    (reader.reschedule seeks).refill window =
      ⟨(reader.refill window).value, ((reader.refill window).state.1.reschedule seeks,
        (reader.refill window).state.2), (reader.refill window).log⟩ := by
  simp only [refill, reschedule, capacity, readFailureReason, Source.read_reschedule]
  split
  · rfl
  · cases reader.source.read _ with
    | mk taken source =>
        cases taken with
        | none => rfl
        | some taken =>
            dsimp only
            rcases Bool.eq_false_or_eq_true
              (((reader.buffer.drop window.cursor).take window.available).isEmpty &&
                taken.isEmpty) with hEnded | hFilled
            · simp only [hEnded, if_true]
            · simp only [hFilled, Bool.false_eq_true, if_false]

/-- A reader whose source stands at its end supplies what its window shows, and nothing more. -/
theorem supplies_of_end {reader : BufferedReader} {window : Window}
    (hInside : window.stop ≤ reader.capacity) (hEnd : reader.source.rest = []) :
    ∃ ended, Supplies reader window ((reader.buffer.drop window.cursor).take window.available)
      ended := by
  have hShown := Window.slice?_of_inside hInside
  have hExhausted := Window.exhausted_exhaust window
  have hIdle : window.exhaust.stop ≤ reader.capacity := hInside
  cases hRead : reader.source.read reader.capacity with
  | mk taken source =>
      cases taken with
      | none =>
          exact ⟨.readError, .ended hShown (refill_of_failed hIdle hExhausted hRead) (by decide)⟩
      | some taken =>
          obtain rfl := Source.read_of_end hEnd hRead
          have hRefill := refill_of_exhausted hIdle hExhausted hRead
          rw [if_pos List.isEmpty_nil] at hRefill
          exact ⟨.endOfStream, .ended hShown hRefill (by decide)⟩

end BufferedReader

namespace Stream

open Bytestream.Fetch (performAll)

/-- The stream with other seeks of its source to come. -/
def reschedule (stream : Stream BufferedReader) (seeks : List Bool) : Stream BufferedReader :=
  { stream with backend := stream.backend.reschedule seeks }

/-- Two streams that differ in the seeks of the source to come, if at all. -/
def Rescheduled (stream other : Stream BufferedReader) : Prop :=
  stream.InBounds ∧ ∃ seeks, other = stream.reschedule seeks

variable {stream : Stream BufferedReader}

theorem InBounds.reschedule (hBounds : stream.InBounds) (seeks : List Bool) :
    (stream.reschedule seeks).InBounds :=
  ⟨hBounds.offered, hBounds.healthy, hBounds.failed⟩

theorem cleared_reschedule (stream : Stream BufferedReader) (seeks : List Bool) :
    (stream.reschedule seeks).cleared = stream.cleared.reschedule seeks := by
  by_cases hHealthy : stream.failure = none
  · rw [cleared_of_healthy hHealthy, cleared_of_healthy (by exact hHealthy)]
    rfl
  · rw [cleared_of_failed hHealthy, cleared_of_failed (by exact hHealthy)]
    rfl

/-- No read of the stream asks the source to seek. -/
theorem correspondingReads_rescheduled :
    CorrespondingReads Rescheduled (fun _ _ _ => False) where
  capabilities := by
    rintro stream _ ⟨-, seeks, rfl⟩
    rfl
  available := by
    rintro stream _ ⟨-, seeks, rfl⟩
    rfl
  errorState := by
    rintro stream _ ⟨-, seeks, rfl⟩
    rfl
  record code := by
    rintro stream _ ⟨hBounds, seeks, rfl⟩
    rw [result_record, result_record]
    exact ⟨rfl, hBounds.of_same rfl rfl rfl rfl, seeks, rfl⟩
  readDirect := by
    rintro stream _ count ⟨hBounds, -⟩ - hDirect
    exact nomatch hDirect.symm.trans hBounds.window_only.1
  peek := by
    rintro stream _ count ⟨hBounds, seeks, rfl⟩ hCount
    rw [hBounds.peek hCount, (hBounds.reschedule seeks).peek hCount]
    exact ⟨rfl, hBounds, seeks, rfl⟩
  consume := by
    rintro stream _ count ⟨hBounds, seeks, rfl⟩ hCount
    obtain ⟨window, hWindow, hConsume⟩ := consume_of_available hCount
    obtain ⟨window', hWindow', hConsume'⟩ :=
      @consume_of_available _ (stream.reschedule seeks) _ hCount
    obtain rfl : window = window' := Except.ok.inj (hWindow.symm.trans hWindow')
    rw [hConsume, hConsume']
    exact ⟨rfl, hBounds.of_same rfl rfl (Window.of_consume hWindow).2.2.2 rfl, seeks, rfl⟩
  refill := by
    rintro stream _ ⟨hBounds, seeks, rfl⟩ hExhausted
    have hOffers := hBounds.window_only.2
    cases hFailure : stream.failure with
    | some code =>
        rw [refill_of_served hOffers hExhausted hFailure,
          refill_of_served (by exact hOffers) (by exact hExhausted) (by exact hFailure)]
        exact ⟨rfl, hBounds.of_stub rfl rfl hFailure, seeks, rfl⟩
    | none =>
        have hSame : Backend.refill (stream.reschedule seeks).backend
            (stream.reschedule seeks).window = _ :=
          stream.backend.refill_reschedule seeks stream.window
        obtain ⟨code, hAnswer, hDone⟩ := FitsWindow.refill (hBounds.healthy hFailure) hExhausted
        by_cases hCode : code = .success
        · obtain ⟨hFilled, hFits⟩ := hDone hCode
          subst hCode
          rw [refill_of_filled hOffers hExhausted hFailure hAnswer hFilled,
            refill_of_filled (by exact hOffers) (by exact hExhausted) (by exact hFailure)
              (by rw [hSame]; exact hAnswer)
              (by rw [hSame]; exact ⟨hFilled.cursor_eq, hFilled.cursor_lt, hFilled.inside⟩), hSame]
          exact ⟨rfl, hBounds.of_fits rfl hFailure hFits, seeks, rfl⟩
        · rw [refill_of_rejected hOffers hExhausted hFailure hCode hAnswer,
            refill_of_rejected (by exact hOffers) (by exact hExhausted) (by exact hFailure) hCode
              (by rw [hSame]; exact hAnswer), hSame]
          exact ⟨rfl, hBounds.of_stub rfl rfl rfl, seeks, rfl⟩

/-- Whatever seeks are still to come, once the errors are reset the streams read alike. -/
theorem InBounds.same_rescheduled [Memory] (hBounds : stream.InBounds) (seeks : List Bool) :
    stream.SameOnceReset (stream.reschedule seeks) := by
  intro later
  have hAgree := Fetch.alike_performAll correspondingReads_rescheduled later stream.cleared
    (stream.reschedule seeks).cleared ⟨hBounds.cleared, seeks, stream.cleared_reschedule seeks⟩
  rcases hFirst : (performAll later).result stream.cleared with ⟨_ | _, _⟩ <;>
    rcases hSecond : (performAll later).result (stream.reschedule seeks).cleared with ⟨_ | _, _⟩ <;>
    rw [hFirst, hSecond] at hAgree
  · exact hAgree.2.elim
  · exact hAgree.elim
  · exact hAgree.elim
  · exact congrArg Except.ok hAgree.1

/-- What a query of the length did to a stream. It left the window alone. Where the source came back
the stream stands where it stood, and reads as if it had not been asked. Where the source was left
at its end the stream stands in front of it by what is unread, and has only that left to give. -/
structure SizeAccount [Memory] (stream after : Stream BufferedReader) : Prop where
  window_eq : after.window = stream.window
  shown_eq : after.shownBytes = stream.shownBytes
  healthy : after.failure = none
  place_eq : ¬stream.backend.source.Strands → after.place = stream.place
  alike : ¬stream.backend.source.Strands → stream.SameOnceReset after
  failed : stream.backend.source.Strands → after.errorState ≠ .success
  stranded_place : stream.backend.source.Strands →
    after.place = stream.backend.source.bytes.length - stream.available
  stranded_feeds : stream.backend.source.Strands → ∃ ended,
    after.cleared.Feeds ((stream.shownBytes.drop stream.window.cursor).take stream.available) ended

theorem InBounds.account_of_return [Memory] (hBounds : stream.InBounds)
    (hHealthy : stream.failure = none)
    (hCame : ¬stream.backend.source.Strands) (seeks : List Bool) (code : Code) :
    stream.SizeAccount { stream.reschedule seeks with errorState := code } where
  window_eq := rfl
  shown_eq := rfl
  healthy := hHealthy
  place_eq _ := by
    rw [place_of_healthy hHealthy, place_of_healthy (by exact hHealthy)]
    rfl
  alike _ later := by
    rw [hBounds.same_rescheduled seeks later, cleared_of_healthy (by exact hHealthy),
      cleared_of_healthy (by exact hHealthy)]
  failed hStrands := absurd hStrands hCame
  stranded_place hStrands := absurd hStrands hCame
  stranded_feeds hStrands := absurd hStrands hCame

theorem InBounds.account_of_stranding [Memory] (hBounds : stream.InBounds)
    (hHealthy : stream.failure = none)
    (hStrands : stream.backend.source.Strands) (seeks : List Bool) {code : Code}
    (hFailed : code ≠ .success) :
    stream.SizeAccount { stream with
      backend := { stream.backend with
        source := stream.backend.source.relocate stream.backend.source.bytes.length seeks }
      errorState := code } where
  window_eq := rfl
  shown_eq := rfl
  healthy := hHealthy
  place_eq hCame := absurd hStrands hCame
  alike hCame := absurd hStrands hCame
  failed _ := hFailed
  stranded_place _ := by
    rw [place_of_healthy (by exact hHealthy)]
    rfl
  stranded_feeds _ := by
    have hShown : stream.shownBytes = stream.backend.buffer := by
      rw [shownBytes, hHealthy, if_neg (by decide)]
      rfl
    obtain ⟨ended, hSupplies⟩ := @BufferedReader.supplies_of_end
      { stream.backend with
        source := stream.backend.source.relocate stream.backend.source.bytes.length seeks }
      stream.window (hBounds.healthy hHealthy) (stream.backend.source.rest_relocate_length seeks)
    rw [cleared_of_healthy (by exact hHealthy), hShown]
    exact ⟨ended, hHealthy, hBounds.window_only, hSupplies, rfl⟩

theorem InBounds.size_account [Memory] (hBounds : stream.InBounds) (hHealthy : stream.failure = none) :
    ∃ outcome after, Action.result size stream = (.ok outcome, after) ∧
      stream.SizeAccount after := by
  have hOffers : stream.capabilities.size = true := by rw [hBounds.offered]
  refine ⟨_, _, size_of_offered hOffers, ?_⟩
  change stream.SizeAccount { stream with
    backend := stream.backend.size.state
    errorState := stream.kept stream.backend.size.value.code }
  rcases stream.backend.size_cases with ⟨hCame, seeks, hState⟩ | ⟨hStrands, hValue, seeks, hState⟩
  · rw [hState]
    exact hBounds.account_of_return hHealthy hCame seeks _
  · rw [hState, hValue]
    exact hBounds.account_of_stranding hHealthy hStrands seeks (stream.kept_ne_success (by decide))

/-- A query of the length of a healthy stream on a buffered reader, whatever the source and whichever
of its seeks fail, moves the stream only where the source does not come back from its end. -/
theorem size_moves_only_when_stranded [Memory] (reader : BufferedReader) :
    ∃ start log, ofBackend reader = .ok (start, log) ∧
      ∀ reached, start.Reachable Use.Permitted reached → reached.failure = none →
        ∃ outcome after, Action.result size reached = (.ok outcome, after) ∧
          reached.SizeAccount after := by
  obtain ⟨start, log, hOpened, hBounds⟩ :=
    @inBounds_of_fits _ _ _ _ reader Window.empty rfl (Nat.zero_le _)
  exact ⟨start, log, hOpened, fun reached hReached hHealthy =>
    (hBounds reached hReached).size_account hHealthy⟩

/-- Eight bytes behind a buffer of four. The first two of the seeks that a query of the length makes
succeed, and the third does what is asked here. -/
def eightBytes (comesBack : Bool) : BufferedReader :=
  let source := Source.memory [1, 2, 3, 4, 5, 6, 7, 8]
  .ofSource { source with seeks := [true, true, comesBack] } 4

/-- A source that comes back is asked behind two bytes that were read. The six bytes behind them are
read as they would have been. -/
theorem size_moves_only_when_stranded_and_back :
    ∃ start log reached outcome after, ofBackend (eightBytes true) = .ok (start, log) ∧
      start.Reachable Use.Permitted reached ∧ reached.failure = none ∧
      Action.result size reached = (.ok outcome, after) ∧ after.place = 2 ∧
      ((performAll [.read 6]).result after.cleared).1 =
        .ok [.bytes ⟨.done 6, [3, 4, 5, 6, 7, 8]⟩] := by
  obtain ⟨start, log, hOpened, hAccount⟩ := size_moves_only_when_stranded (eightBytes true)
  have hReached : start.Reachable Use.Permitted _ := .used (.operation (.read 2)) .start trivial
  cases hOpened
  obtain ⟨outcome, after, hSize, hDid⟩ := hAccount _ hReached rfl
  refine ⟨_, _, _, outcome, after, rfl, hReached, rfl, hSize, ?_⟩
  rcases BufferedReader.size_cases _ with ⟨hCame, -⟩ | ⟨-, hValue, -⟩
  · exact ⟨hDid.place_eq hCame, (hDid.alike hCame [.read 6]).symm⟩
  · exact absurd (hValue : Outcome.done 8 = .failed .unknownError) (by decide)

/-- Where the source fails on the way back, the two bytes in the window are the last that the stream
gives, although six are left of the data. -/
theorem size_strands_source :
    ∃ start log reached after, ofBackend (eightBytes false) = .ok (start, log) ∧
      start.Reachable Use.Permitted reached ∧ reached.failure = none ∧
      Action.result size reached = (.ok (.failed .unknownError), after) ∧
      ((performAll [.read 6]).result reached.cleared).1 =
        .ok [.bytes ⟨.done 6, [3, 4, 5, 6, 7, 8]⟩] ∧
      ((performAll [.read 6]).result after.cleared).1 =
        .ok [.bytes ⟨.report 2 .endOfStream, [3, 4]⟩] :=
  ⟨_, _, _, _, rfl, .used (.operation (.read 2)) .start trivial, rfl, rfl, rfl, rfl⟩

end Stream

end Bytestream
