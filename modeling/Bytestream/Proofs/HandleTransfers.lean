import Bytestream.Proofs.DirectTransfers

/-!
The counts of a byte handle. Who moves bytes through one takes a count for what was moved, and a
failure for a sign that nothing was. The stream underneath asks its backend first and reports under
its own error afterwards, which keeps to that with one exception: under an error a transfer that the
backend made in full is answered like one that was refused with the error.
-/

namespace Bytestream

namespace Stream.Handle

/-- What a read answers where the stream reports this outcome. -/
def readAnswer (outcome : Outcome) : Except HandleFailure Nat :=
  if 0 < outcome.value then .ok outcome.value
  else
    match outcome.code with
    | .success | .endOfStream => .ok 0
    | code => .error (.stream code)

/-- What a write answers where the stream reports this outcome. -/
def writeAnswer (outcome : Outcome) : Except HandleFailure Nat :=
  if 0 < outcome.value then .ok outcome.value
  else
    match outcome.code with
    | .success => .ok 0
    | code => .error (.stream code)

/-- The answer counts what was moved, and is a failure only where nothing was. -/
def Counts (moved : Nat) : Except HandleFailure Nat → Prop
  | .ok count => moved = count
  | .error _ => moved = 0

theorem counts_readAnswer (outcome : Outcome) : Counts outcome.value (readAnswer outcome) := by
  rw [readAnswer]
  split
  · exact rfl
  · split <;> exact Nat.eq_zero_of_not_pos ‹_›

theorem counts_writeAnswer (outcome : Outcome) : Counts outcome.value (writeAnswer outcome) := by
  rw [writeAnswer]
  split
  · exact rfl
  · split <;> exact Nat.eq_zero_of_not_pos ‹_›

variable {β : Type} [Backend β] {stream after : Stream β}

theorem read_answers {destination : Bytes} {transfer : Transfer}
    (hRun : (Stream.read destination.length).result stream = (.ok transfer, after))
    (hMost : transfer.bytes.length ≤ destination.length) :
    (read destination).result stream =
      (.ok (readAnswer transfer.outcome,
        transfer.bytes ++ destination.drop transfer.bytes.length), after) := by
  have hFill : transfer.fill destination =
      transfer.bytes ++ destination.drop transfer.bytes.length := by
    rw [Transfer.fill, List.take_of_length_le hMost]
  rw [read, Action.result_bind_of_ok hRun, readAnswer, ← hFill]
  dsimp only
  split
  · rfl
  · cases transfer.outcome.code <;> rfl

theorem write_answers {source : Bytes} {outcome : Outcome}
    (hRun : (Stream.write source).result stream = (.ok outcome, after)) :
    (write source).result stream = (.ok (writeAnswer outcome), after) := by
  rw [write, Action.result_bind_of_ok hRun, writeAnswer]
  split
  · rfl
  · cases outcome.code <;> rfl

/-- How a transfer of `moved` bytes is answered: it is counted, or, under an error, all of the
`wanted` bytes were moved and the answer is the one to a transfer that was refused with the error. -/
def Answered (stream : Stream β) (answerOf : Outcome → Except HandleFailure Nat) (moved wanted : Nat)
    (answer : Except HandleFailure Nat) : Prop :=
  Counts moved answer ∨
    stream.errorState ≠ .success ∧ moved = wanted ∧ answer = answerOf (.failed stream.errorState)

omit [Backend β] in
/-- The stream counts what its backend counts, unless an error makes nothing of a success. -/
theorem answered_of_reported {answerOf : Outcome → Except HandleFailure Nat} {outcome : Outcome}
    {moved wanted : Nat} (hCounts : ∀ outcome, Counts outcome.value (answerOf outcome))
    (hMoved : outcome.value = moved) (hWhole : outcome.code = .success → moved = wanted) :
    Answered stream answerOf moved wanted (answerOf (stream.reported outcome)) := by
  subst hMoved
  rw [reported]
  split
  · exact .inl (hCounts outcome)
  · rename_i hFailed
    split
    · rename_i hDone
      exact .inr ⟨hFailed, hWhole hDone, rfl⟩
    · exact .inl (hCounts (outcome.withCode stream.errorState))

end Stream.Handle

namespace Stream

open Bytestream.Fetch (performAll)
open Bytestream.Stream.Handle (Answered Counts readAnswer writeAnswer)

section Streams

variable {β : Type} [Backend β] [Placed β] {stream after : Stream β}

/-- The stream where a system below its backend does other things in the calls to come. -/
def under (stream : Stream β) (calls : Placed.Calls β) : Stream β :=
  { stream with backend := Placed.under calls stream.backend }

/-- Whatever is read of the two once their errors are reset, they answer alike. -/
def SameOnceReset [Memory] (stream other : Stream β) : Prop :=
  ∀ later, ((performAll later).result stream.cleared).1 = ((performAll later).result other.cleared).1

/-- What a read of `wanted` bytes takes: the bytes where the stream stands, or, through a window, the
first of those that the stream has left to give. Under an error or behind a final failure nothing is
taken through a window. -/
def Gives (stream : Stream β) (wanted : Nat) (taken : Bytes) : Prop :=
  if stream.capabilities.read = true then
    taken = ((Stored.content stream.backend).drop stream.place.toNat).take taken.length
  else if stream.failure = none ∧ stream.errorState = .success then
    ∃ bytes ended, stream.Feeds bytes ended ∧ taken = bytes.take wanted
  else taken = []

/-- What a write through a handle did: it stored a piece from the front of its source where the stream
stood, moved behind it, and answered with the length of the piece. -/
structure WriteAccount (stream after : Stream β) (source piece : Bytes)
    (answer : Except HandleFailure Nat) : Prop where
  front : piece = source.take piece.length
  content_eq : Stored.content after.backend =
    (Stored.content stream.backend).store stream.place.toNat piece
  place_eq : after.place = stream.place + piece.length
  answered : Answered stream writeAnswer piece.length source.length answer

/-- What a read of `wanted` bytes through a handle did: it took what there is, moved behind that, and
answered with the number of bytes that it took. Where it took nothing it left no trace that a reset
does not clear: whatever the calls to come do, later reads give the same. -/
structure ReadAccount [Memory] (stream after : Stream β) (wanted : Nat) (taken : Bytes)
    (answer : Except HandleFailure Nat) : Prop where
  most : taken.length ≤ wanted
  gives : stream.Gives wanted taken
  content_eq : Stored.content after.backend = Stored.content stream.backend
  place_eq : after.place = stream.place + taken.length
  idle : taken = [] → ∀ calls, (stream.under calls).SameOnceReset (after.under calls)
  answered : Answered stream readAnswer taken.length wanted answer

/-- Every transfer through a handle of the stream is accounted for, and a stream whose error was reset
tells where it stands, if it tells a position at all. -/
structure Accountable [Memory] (stream : Stream β) : Prop where
  write : ∀ source : Bytes, source ≠ [] → source.length < magnitudeLimit → ∃ answer after piece,
    (Handle.write source).result stream = (.ok answer, after) ∧
      stream.WriteAccount after source piece answer
  read : ∀ destination : Bytes, destination ≠ [] → destination.length < magnitudeLimit →
    ∃ answer after taken,
      (Handle.read destination).result stream =
        (.ok (answer, taken ++ destination.drop taken.length), after) ∧
      stream.ReadAccount after destination.length taken answer
  position : ∀ outcome after, Action.result position stream.cleared = (.ok outcome, after) →
    outcome.code = .success →
      ∃ target : Nat, (target : Int) = stream.place ∧ outcome = .done target

/-- A position that a stream without an error tells is the place where it stands. -/
theorem place_of_position (hOffers : stream.capabilities.seek = true)
    (hFinal : stream.failure ≠ some .success) {outcome : Outcome}
    (hRun : Action.result position stream.cleared = (.ok outcome, after))
    (hDone : outcome.code = .success) :
    ∃ target : Nat, (target : Int) = stream.place ∧ outcome = .done target := by
  have hClean := errorState_cleared stream
  rw [position] at hRun
  cases hFailure : stream.failure with
  | some code =>
      rw [cleared_of_failed (by rw [hFailure]; exact nofun),
        seek_of_failure (by exact hOffers) (by exact hFailure)] at hRun
      cases hRun
      exact absurd (hDone ▸ hFailure) hFinal
  | none =>
      rw [cleared_of_healthy hFailure] at hRun hClean
      rw [place_of_healthy hFailure]
      cases hAnswer : (Backend.seek stream.backend stream.window 0 .current).value with
      | error fault =>
          rw [seek_of_breach (by exact hOffers) (by exact hFailure) (by exact hAnswer)] at hRun
          cases hRun
      | ok answer =>
          rw [seek_of_answered (by exact hOffers) (by exact hFailure) (by exact hAnswer), reported,
            if_pos hClean] at hRun
          cases hRun
          exact Placed.located hAnswer hDone

/-- A stream on the backend opens, and wherever permitted uses take it, its handle accounts for what
it moves. -/
def StaysAccountable [Memory] (backend : β) : Prop :=
  ∃ start log, ofBackend backend = .ok (start, log) ∧
    ∀ reached, start.Reachable Use.Permitted reached → reached.Accountable

end Streams

section Direct

variable {β : Type} [Backend β] [Offering β] [Placed β] [MovesDirectly β] {stream : Stream β}

/-- A direct write is the backend's, and its answer the stream's. -/
theorem Intact.writes (hIntact : stream.Intact) {source : Bytes} (hSome : source ≠ [])
    (hFits : source.length < magnitudeLimit) : ∃ answer after piece,
      (Handle.write source).result stream = (.ok answer, after) ∧
        stream.WriteAccount after source piece answer := by
  have hHealthy := hIntact.healthy
  have hOffers : stream.capabilities.write = true := by
    rw [hIntact.offered, MovesDirectly.writes_offered]
  obtain ⟨piece, hWrote⟩ := MovesDirectly.writes stream.backend stream.window hSome hFits
  refine ⟨_, _, piece, Handle.write_answers (write_of_offered hSome hOffers), hWrote.front, ?_, ?_, ?_⟩
  · rw [place_of_healthy hHealthy]
    exact hWrote.content_eq
  · rw [place_of_healthy hHealthy, place_of_healthy (by exact hHealthy)]
    exact hWrote.place_eq
  · exact Handle.answered_of_reported Handle.counts_writeAnswer hWrote.value_eq fun hDone =>
      congrArg List.length (hWrote.whole hDone)

/-- So is a direct read. Where it took nothing the backend is as it was. -/
theorem Intact.reads [Memory] (hIntact : stream.Intact) {destination : Bytes} (hSome : destination ≠ [])
    (hFits : destination.length < magnitudeLimit) : ∃ answer after taken,
      (Handle.read destination).result stream =
        (.ok (answer, taken ++ destination.drop taken.length), after) ∧
      stream.ReadAccount after destination.length taken answer := by
  have hHealthy := hIntact.healthy
  have hOffers : stream.capabilities.read = true := by
    rw [hIntact.offered, MovesDirectly.reads_offered]
  have hCount := List.length_pos_iff.mpr hSome
  obtain ⟨taken, hTook⟩ := MovesDirectly.reads stream.backend stream.window hCount hFits
  obtain rfl := hTook.bytes_eq
  refine ⟨_, _, _, Handle.read_answers (read_of_offered hCount hOffers) hTook.most, hTook.most, ?_, ?_,
    ?_, fun hNone calls later => ?_, ?_⟩
  · rw [Gives, if_pos hOffers, place_of_healthy hHealthy]
    exact hTook.front
  · exact Stored.read stream.backend destination.length
  · rw [place_of_healthy hHealthy, place_of_healthy (by exact hHealthy)]
    exact hTook.place_eq
  · rw [cleared_of_healthy (by exact hHealthy), cleared_of_healthy (by exact hHealthy), under, under,
      hTook.idle hNone calls]
  · exact Handle.answered_of_reported Handle.counts_readAnswer hTook.value_eq hTook.whole

theorem Intact.accountable [Memory] (hIntact : stream.Intact) : stream.Accountable where
  write _ hSome hFits := hIntact.writes hSome hFits
  read _ hSome hFits := hIntact.reads hSome hFits
  position outcome after hRun hDone := by
    refine place_of_position ?_ ?_ hRun hDone
    · rw [hIntact.offered, MovesDirectly.seeks_offered]
    · rw [hIntact.healthy]
      exact nofun

theorem staysAccountable_of_direct [Memory] {backend : β} {window : Window}
    (hWindow : Backend.initialWindow backend = .ok window) : StaysAccountable backend := by
  obtain ⟨log, hOpened⟩ := ofBackend_of_window hWindow
  exact ⟨_, log, hOpened, fun reached hReached =>
    (intact_of_reachable MovesDirectly.unbuffered hReached).accountable⟩

end Direct

section Windows

variable {β : Type} [Backend β] [FitsWindow β] {stream : Stream β}

/-- A refill leaves nothing that shows once the error of the stream is reset. -/
theorem InBounds.same_once_reset [Memory] (hBounds : stream.InBounds) :
    stream.SameOnceReset stream.refreshed := by
  intro later
  obtain ⟨answers, last, last', hRun, hRun', -⟩ :=
    @Fetch.performAll_alike _ _ _ _ _ _ later hBounds.cleared hBounds.refreshed.cleared
      hBounds.refreshed_cleared.symm (by rw [errorState_cleared, errorState_cleared])
  rw [hRun, hRun']

/-- A stream under an error or behind a final failure is under an error when a read has looked for
something unread. -/
theorem InBounds.failed_refreshed (hBounds : stream.InBounds) (hGuarded : stream.Guarded)
    (hFailed : ¬(stream.failure = none ∧ stream.errorState = .success)) :
    stream.refreshed.errorState ≠ .success := by
  by_cases hClean : stream.errorState = .success
  · intro hStill
    have hHealthy := hBounds.healthy_refreshed hGuarded hStill
    cases hFailure : stream.failure with
    | none => exact hFailed ⟨hFailure, hClean⟩
    | some code =>
        have hKept := (keeps_refillIfExhausted stream hGuarded).2 code hFailure
        exact nomatch hKept.symm.trans hHealthy
  · rwa [hBounds.errorState_refreshed hClean]

variable [Placed β]

/-- Nothing is written to a stream that is read through its window. -/
theorem InBounds.writes (hBounds : stream.InBounds) {source : Bytes} (hSome : source ≠ []) :
    ∃ answer after piece, (Handle.write source).result stream = (.ok answer, after) ∧
      stream.WriteAccount after source piece answer := by
  have hAbsent : stream.capabilities.write = false := by rw [hBounds.offered]
  have hRefused := (write_of_absent hSome hAbsent).trans stream.result_unsupported
  exact ⟨_, _, [], Handle.write_answers hRefused, rfl, rfl, (Int.add_zero _).symm, .inl rfl⟩

theorem InBounds.content_of_takeBuffered (hBounds : stream.InBounds) {rounds count : Nat}
    {taken : Bytes} {after : Stream β}
    (hTaken : (Stream.takeBuffered rounds count).result stream = (.ok taken, after)) :
    Stored.content after.backend = Stored.content stream.backend := by
  have hUnwritten : stream.Unwritten stream.capabilities (Stored.content stream.backend) := by
    refine ⟨rfl, fun hDirect => ?_, rfl⟩
    exact nomatch hDirect.symm.trans hBounds.window_only.2
  have hEnds := Action.alike_self.mp
    (orderlyReads_unwritten.corresponding.takeBuffered rounds count) stream hUnwritten
  rw [hTaken] at hEnds
  exact Unwritten.content_eq hEnds

/-- A read through the window takes the first of what the stream has left, and nothing where it has
failed. -/
theorem InBounds.gives [Drains β] (hBounds : stream.InBounds) (hGuarded : stream.Guarded)
    {count : Nat} (hSome : 0 < count) {taken : Bytes} {after : Stream β}
    (hTaken : (Stream.takeBuffered count count).result stream = (.ok taken, after)) :
    stream.Gives count taken := by
  rw [Gives, if_neg (by rw [hBounds.window_only.1]; decide)]
  split
  · rename_i hReady
    obtain ⟨bytes, ended, hFeeds⟩ := hBounds.exists_feeds hReady.1 hReady.2
    obtain ⟨last, hRun, -⟩ := takeBuffered_feeds (Nat.le_refl count) hFeeds
    rw [hTaken] at hRun
    cases hRun
    exact ⟨bytes, ended, hFeeds, rfl⟩
  · rename_i hFailed
    obtain ⟨rounds, rfl⟩ : ∃ rounds, count = rounds + 1 := ⟨count - 1, by omega⟩
    rw [takeBuffered_of_failing hSome hBounds.result_refillIfExhausted
      (hBounds.failed_refreshed hGuarded hFailed)] at hTaken
    cases hTaken
    rfl

variable [WindowPlaced β]

theorem under_eq (stream : Stream β) (calls : Placed.Calls β) : stream.under calls = stream := by
  rw [under, WindowPlaced.under_eq]

/-- A read through the window is answered by the number of bytes that it copied, whatever stopped it. -/
theorem InBounds.reads [Memory] [Drains β] (hBounds : stream.InBounds) (hGuarded : stream.Guarded)
    {destination : Bytes} (hSome : destination ≠ []) (hFits : destination.length < magnitudeLimit) :
    ∃ answer after taken,
      (Handle.read destination).result stream =
        (.ok (answer, taken ++ destination.drop taken.length), after) ∧
      stream.ReadAccount after destination.length taken answer := by
  have hCount := List.length_pos_iff.mpr hSome
  obtain ⟨taken, after, hTaken, hMost, hPlace, hIdle⟩ :=
    hBounds.takeBuffered_moves destination.length destination.length hGuarded
  have hRead := bufferedRead_of_taken hBounds.window_only.2 hCount hTaken
  rw [← read_of_window_only hBounds.window_only hCount] at hRead
  have hValue : (Outcome.report taken.length after.errorState).value = taken.length :=
    Outcome.value_report _ (Nat.lt_of_le_of_lt hMost hFits)
  refine ⟨_, after, taken, Handle.read_answers hRead hMost, hMost, hBounds.gives hGuarded hCount hTaken,
    hBounds.content_of_takeBuffered hTaken, hPlace, fun hNone calls => ?_, .inl ?_⟩
  · rw [under_eq, under_eq]
    rcases hIdle hNone with rfl | rfl
    · exact fun _ => rfl
    · exact hBounds.same_once_reset
  · have hCounts := Handle.counts_readAnswer (Outcome.report taken.length after.errorState)
    rwa [hValue] at hCounts

theorem InBounds.accountable [Memory] [Drains β] (hBounds : stream.InBounds)
    (hGuarded : stream.Guarded) :
    stream.Accountable where
  write _ hSome _ := hBounds.writes hSome
  read _ hSome hFits := hBounds.reads hGuarded hSome hFits
  position outcome after hRun hDone := by
    refine place_of_position ?_ (fun hFinal => ?_) hRun hDone
    · rw [hBounds.offered]
    · exact (hGuarded.seals hFinal).failed rfl

theorem staysAccountable_of_fits [Memory] [Drains β] {backend : β} {window : Window}
    (hWindow : Backend.initialWindow backend = .ok window)
    (hFits : FitsWindow.Fits backend window) : StaysAccountable backend := by
  obtain ⟨log, hOpened⟩ := ofBackend_of_window hWindow
  have hStart : (opened backend window).InBounds := inBounds_opened hFits
  have hSound := guarded_of_healthy hStart.window_only rfl
  refine ⟨_, log, hOpened, fun reached hReached => InBounds.accountable ?_ ?_⟩
  · exact orderly_inBounds.reachable (fun _ _ hFault => hFault.elim) hStart hReached
  · exact orderly_guarded.reachable (fun _ _ hStopped => hStopped) hSound hReached

end Windows

/-- On a region, a vector, a file of any access whatever the calls of the system do, memory, a buffered
reader of any capacity over any source, and data in pieces, wherever a stream was taken: what its handle
answers accounts for what it moved, and the stream stands behind that. -/
theorem transfers_are_accounted [Memory] :
    (∀ region : Region, StaysAccountable region) ∧
    (∀ vector : Growable, StaysAccountable vector) ∧
    (∀ file : File, StaysAccountable file) ∧
    (∀ bytes, StaysAccountable (ReadOnly.mk bytes)) ∧
    (∀ reader : BufferedReader, StaysAccountable reader) ∧
    ∀ source : Pieces, source.pattern ≠ [] → StaysAccountable source :=
  ⟨fun _ => staysAccountable_of_direct rfl,
    fun _ => staysAccountable_of_direct rfl,
    fun _ => staysAccountable_of_direct rfl,
    fun bytes => @staysAccountable_of_fits ReadOnly _ ReadOnly.fitsWhole _ ReadOnly.windowPlaced
      _ ReadOnly.drainsWhole ⟨bytes⟩ _ rfl rfl,
    fun _ => staysAccountable_of_fits rfl (Nat.zero_le _),
    fun source hPattern => by
      apply staysAccountable_of_fits rfl
      exact ⟨Nat.zero_le source.bytes.length, hPattern⟩⟩

/-- Four bytes are asked of three that come in pairs. The three are counted although the data ended
behind them, and the stream stands at three, where it failed for good. -/
theorem transfers_are_accounted_in_pairs :
    openedInPairs.backend.pattern ≠ [] ∧ ∃ log after,
      ofBackend openedInPairs.backend = .ok (openedInPairs, log) ∧
      (Handle.read [9, 9, 9, 9]).result openedInPairs = (.ok (.ok 3, [1, 2, 3, 9]), after) ∧
      after.failure = some .endOfStream ∧ after.place = 3 := by
  have hPattern : openedInPairs.backend.pattern ≠ [] := by decide
  obtain ⟨-, -, -, -, -, hPieces⟩ := transfers_are_accounted
  obtain ⟨start, log, hOpened, hAccountable⟩ := hPieces openedInPairs.backend hPattern
  obtain rfl : openedInPairs = start := by
    cases hOpened
    rfl
  obtain ⟨answer, after, taken, hRun, hAccount⟩ :=
    (hAccountable _ .start).read [9, 9, 9, 9] nofun (by decide)
  have hRead : ∃ last, (Handle.read [9, 9, 9, 9]).result openedInPairs =
      (.ok (.ok 3, [1, 2, 3, 9]), last) ∧ last.failure = some .endOfStream := ⟨_, rfl, rfl⟩
  obtain ⟨last, hLast, hFailure⟩ := hRead
  obtain ⟨⟨rfl, hFilled⟩, rfl⟩ : (answer = .ok 3 ∧ _) ∧ after = last := by
    rw [hLast] at hRun
    simpa [Prod.ext_iff, eq_comm] using hRun
  have hThree : taken.length = 3 := hAccount.answered.resolve_right fun hPassed => hPassed.1 rfl
  refine ⟨hPattern, log, after, hOpened, hLast, hFailure, ?_⟩
  rw [hAccount.place_eq, hThree]
  rfl

/-- A refill is no operation of a vector, which becomes its error. The write behind it is answered by
that error, and both of its bytes are stored all the same. -/
theorem write_stores_under_error :
    ∃ start log sticky after, ofBackend (Growable.ofBytes []) = .ok (start, log) ∧
      start.Reachable Use.Permitted sticky ∧
      (Handle.write [1, 2]).result sticky = (.ok (.error (.stream .invalidOperation)), after) ∧
      sticky.backend.bytes = [] ∧ after.backend.bytes = [1, 2] ∧
      sticky.place = 0 ∧ after.place = 2 :=
  ⟨_, _, _, _, rfl, .used (.operation .refill) .start rfl, rfl, rfl, rfl, rfl, rfl⟩

end Stream

end Bytestream
