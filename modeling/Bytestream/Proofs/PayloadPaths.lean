import Bytestream.Proofs.Places

/-!
The two ways to a payload of a stream with a window. One copies it off the window, piece by piece, and
asks only what a refill answers; the other is a read into zeros, which looks at the error state before
every piece. On a stream without an error they are the same. Under an error both are refused with it,
and only the read leaves the payload where it is.
-/

namespace Bytestream

namespace Chunk

variable {β : Type} [Backend β]

/-- Reads `size` payload bytes with a single read into zeros, and sums them. -/
def readPayloadPlain (size : Nat) (seed : Word 4) : Stream.Attempt β (Bytes × Word 4) := do
  let transfer ← Stream.lift (Stream.read size)
  let _ ← transfer.outcome.toExcept
  let payload := transfer.fill (List.replicate size 0)
  return (payload, crc32 payload seed)

/-- Compares the checksum of a payload with the one in the footer behind it, if it is to be verified. -/
def verifyPayload (header : ChunkHeader) (config : ChunkConfig) (read : Bytes × Word 4) :
    Stream.Attempt β (Bytes × Word 4) := do
  let stored ← ChunkHeader.readFooter config.order
  if config.verify && read.2 ≠ stored then
    let _ ← Stream.lift (Stream.record .invalidData)
    Action.emit (.checksumDiffers header.typeId.toNat stored.toNat read.2.toNat)
    Action.stop (.error (.checksumMismatch stored.toNat read.2.toNat))
  else return (read.1, stored)

/-- A payload that is read at once, with the footer behind it. -/
def readPlainVerified [Memory] (header : ChunkHeader) (config : ChunkConfig) :
    Stream.Attempt β (Bytes × Word 4) := do
  let size := header.dataSize.toNat
  if reservable < size then Stream.reject .allocationFailure .allocationFailure
  else verifyPayload header config (← readPayloadPlain size config.seed)

theorem readPayloadVerified_of_reserved [Memory] {header : ChunkHeader} {config : ChunkConfig}
    (hReserve : header.dataSize.toNat ≤ reservable) :
    (readPayloadVerified header config : Stream.Attempt β (Bytes × Word 4)) =
      readPayload header.dataSize.toNat config.seed >>= verifyPayload header config :=
  if_neg (Nat.not_lt_of_ge hReserve)

theorem readPlainVerified_of_reserved [Memory] {header : ChunkHeader} {config : ChunkConfig}
    (hReserve : header.dataSize.toNat ≤ reservable) :
    (readPlainVerified header config : Stream.Attempt β (Bytes × Word 4)) =
      readPayloadPlain header.dataSize.toNat config.seed >>= verifyPayload header config :=
  if_neg (Nat.not_lt_of_ge hReserve)

end Chunk

namespace Stream

variable {β : Type} [Backend β] [FitsWindow β] {stream : Stream β}

/-- Without an error the two come to the same payload, the same error and the same stream. -/
theorem InBounds.readPayload_like_plain [Memory] (hBounds : stream.InBounds)
    (hClean : stream.errorState = .success) (size : Nat) (seed : Word 4) :
    (Chunk.readPayload size seed).result stream =
      (Chunk.readPayloadPlain size seed).result stream := by
  rw [Chunk.readPayload, Action.result_bind_of_ok (Action.result_state stream),
    if_pos hBounds.window_only.2]
  rcases Nat.eq_zero_or_pos size with rfl | hSome
  · change (Except.ok ([], seed), stream) = (.ok ([], crc32 [] seed), stream)
    rw [crc32_nil]
  obtain ⟨bytes, after, hTaken, -, hPayload⟩ :=
    hBounds.takePayload_like_takeBuffered size size seed hClean
  have hRead := bufferedRead_of_taken hBounds.window_only.2 hSome hTaken
  rw [← read_of_window_only hBounds.window_only hSome] at hRead
  rw [Chunk.readPayloadPlain, Action.result_bind_of_ok (result_lift_of_ok hRead)]
  by_cases hFine : after.errorState = .success
  · have hLength := length_of_takeBuffered (Nat.le_refl size) hTaken hFine
    rw [if_pos hFine] at hPayload
    rw [Action.result_bind_of_ok hPayload, Action.result_bind_of_ok (Action.result_emit _ after),
      Outcome.toExcept_of_success hFine,
      Action.result_bind_of_ok (Action.result_liftM_ok_of_error _ _),
      Transfer.fill_whole (by rw [hLength, List.length_replicate])]
  · rw [if_neg hFine] at hPayload
    rw [Action.result_bind_of_error hPayload, Outcome.toExcept_of_failure hFine]
    rfl

/-- A footer is refused under an error, and so is a payload that was read before it. -/
theorem InBounds.verifyPayload_refused (hBounds : stream.InBounds)
    (hFailed : stream.errorState ≠ .success) (header : ChunkHeader) (config : ChunkConfig)
    (read : Bytes × Word 4) :
    (Chunk.verifyPayload header config read).result stream =
      (.error (.error (Error.ofCode stream.errorState)), stream.refreshed) :=
  Action.result_bind_of_error (hBounds.readWord_refused config.order (by decide) hFailed) _

/-- Under an error a plain read takes nothing of the payload. -/
theorem InBounds.readPlainVerified_refused [Memory] (hBounds : stream.InBounds)
    (hFailed : stream.errorState ≠ .success) {header : ChunkHeader} (config : ChunkConfig)
    (hReserve : header.dataSize.toNat ≤ reservable) :
    (Chunk.readPlainVerified header config).result stream =
      (.error (.error (Error.ofCode stream.errorState)), stream.refreshed) := by
  rw [Chunk.readPlainVerified_of_reserved hReserve]
  rcases Nat.eq_zero_or_pos header.dataSize.toNat with hNone | hSome
  · have hEmpty : (Chunk.readPayloadPlain 0 config.seed).result stream =
        (.ok ([], crc32 [] config.seed), stream) := rfl
    rw [hNone, Action.result_bind_of_ok hEmpty]
    exact hBounds.verifyPayload_refused hFailed header config _
  · have hRead := hBounds.bufferedRead_refused hSome hFailed
    rw [← read_of_window_only hBounds.window_only hSome] at hRead
    refine Action.result_bind_of_error ?_ _
    rw [Chunk.readPayloadPlain, Action.result_bind_of_ok (result_lift_of_ok hRead),
      Outcome.toExcept_of_failure (by exact hFailed)]
    rfl

section Sticky

variable {bytes : Bytes} {ended : Code} {wanted : Nat}

/-- A round of a payload begins with a refill where nothing is unread, and stops where that fails.
Whether there is an error does not matter. -/
theorem InBounds.takePayload_starts (hBounds : stream.InBounds) (hHealthy : stream.failure = none)
    (hSupplies : Supplies stream.backend stream.window bytes ended) (hWanted : 0 < wanted)
    (rounds : Nat) (sum : Word 4) :
    (stream.refreshed.failure = none ∧ stream.refreshed.available ≠ 0 ∧
        Supplies stream.refreshed.backend stream.refreshed.window bytes ended ∧
        (Chunk.takePayload (rounds + 1) wanted sum).result stream =
          (Chunk.takePayload (rounds + 1) wanted sum).result stream.refreshed) ∨
      bytes = [] ∧ (Chunk.takePayload (rounds + 1) wanted sum).result stream =
        (.error (.error (Error.ofCode stream.refreshed.errorState)), stream.refreshed) := by
  have hOffers := hBounds.window_only.2
  cases hExhausted : stream.window.exhausted with
  | false =>
      have hSome := Nat.ne_of_gt ((Window.exhausted_eq_false_iff stream.window).mp hExhausted)
      rw [refreshed_of_unread hExhausted]
      exact .inl ⟨hHealthy, hSome, hSupplies, rfl⟩
  | true =>
      have hWindow := Window.eq_exhaust hExhausted
      have hNone : stream.available = 0 := (Window.exhausted_iff stream.window).mp hExhausted
      cases hSupplies with
      | ended hShown hCall hCode =>
          rw [← hWindow] at hCall
          have hRefill := refill_of_rejected hOffers hExhausted hHealthy hCode (by rw [hCall])
          rw [refreshed_of_refill hExhausted hRefill]
          refine .inr ⟨?_, ?_⟩
          · rw [← List.length_eq_zero_iff, Bytes.length_of_slice? hShown]
            exact hNone
          · exact Chunk.takePayload_of_failed_refill hWanted hNone hRefill
              (stream.kept_ne_success hCode) sum
      | refilled hShown hCall hCursor hMore hInside hRest =>
          rw [← hWindow] at hCall
          have hRefill := refill_of_success hOffers hExhausted hHealthy hCall hCursor hMore hInside
          have hEmpty := Bytes.length_of_slice? hShown
          have hSome := Nat.ne_of_gt (Nat.sub_pos_of_lt hMore)
          obtain rfl := List.length_eq_zero_iff.mp (hEmpty.trans hNone)
          rw [refreshed_of_refill hExhausted hRefill]
          exact .inl ⟨hHealthy, hSome, hRest,
            Chunk.takePayload_of_refilled hWanted hNone hRefill hSome sum⟩

variable [Placed β] [WindowPlaced β]

/-- A step over unread bytes moves the stream behind them and leaves the others. -/
theorem InBounds.consume_moves (hBounds : stream.InBounds) (hHealthy : stream.failure = none)
    (hSupplies : Supplies stream.backend stream.window bytes ended) {count : Nat}
    (hCount : count ≤ stream.available) :
    ∃ behind, (Stream.consume count).result stream = (.ok (), behind) ∧ behind.InBounds ∧
      behind.failure = none ∧ behind.errorState = stream.errorState ∧
      Supplies behind.backend behind.window (bytes.drop count) ended ∧
      behind.place = stream.place + count := by
  obtain ⟨window, hWindow, hConsume⟩ := consume_of_available hCount
  refine ⟨_, hConsume, hBounds.of_same rfl rfl (Window.of_consume hWindow).2.2.2 rfl, hHealthy, rfl,
    hSupplies.consume hWindow, ?_⟩
  rw [place_of_healthy hHealthy, place_of_healthy (by exact hHealthy)]
  exact WindowPlaced.consumed hWindow

/-- Under an error a payload is taken all the same, as far as there are bytes for it, and the stream
is moved behind them. The induction is on the rounds; where the bytes run out the payload stops with
the error that the stream keeps. -/
theorem InBounds.takePayload_under_error [Memory] {rounds : Nat} (hBounds : stream.InBounds)
    (hHealthy : stream.failure = none) (hFailed : stream.errorState ≠ .success)
    (hSupplies : Supplies stream.backend stream.window bytes ended) (hRounds : wanted ≤ rounds)
    (sum : Word 4) :
    ∃ answer after, (Chunk.takePayload rounds wanted sum).result stream = (answer, after) ∧
      ((∃ taken, answer = .ok taken) ∨
        answer = .error (.error (Error.ofCode stream.errorState))) ∧
      after.InBounds ∧ after.errorState = stream.errorState ∧
      after.place = stream.place + min wanted bytes.length := by
  induction rounds generalizing stream bytes wanted sum with
  | zero =>
      obtain rfl : wanted = 0 := Nat.le_zero.mp hRounds
      exact ⟨_, stream, rfl, .inl ⟨_, rfl⟩, hBounds, rfl, by omega⟩
  | succ rounds ih =>
      rcases Nat.eq_zero_or_pos wanted with rfl | hWanted
      · exact ⟨_, stream, rfl, .inl ⟨_, rfl⟩, hBounds, rfl, by omega⟩
      have hReady := hBounds.refreshed
      have hKept := hBounds.errorState_refreshed hFailed
      have hPlace := hBounds.place_refreshed
      rcases hBounds.takePayload_starts hHealthy hSupplies hWanted rounds sum with
        ⟨hFine, hSome, hRest, hRun⟩ | ⟨rfl, hRun⟩
      · have hUnread := hReady.wellWindowed.unread
        have hThere : stream.refreshed.available ≤ bytes.length := hRest.available_le
        obtain ⟨behind, hConsume, hInside, hBehind, hState, hLeft, hStep⟩ :=
          hReady.consume_moves hFine hRest (Nat.min_le_right wanted stream.refreshed.available)
        rw [hKept] at hState
        have hFewer : wanted - min wanted stream.refreshed.available ≤ rounds := by omega
        obtain ⟨answer, after, hLater, hAnswer, hAfter, hLast, hMoved⟩ :=
          ih hInside hBehind (by rwa [hState]) hLeft hFewer _
        rw [Chunk.takePayload_of_unread hWanted hSome hUnread
          (by rw [List.length_take, (length_of_unread hUnread).1]) hConsume] at hRun
        have hTotal : after.place = stream.place + min wanted bytes.length := by
          rw [hMoved, hStep, hPlace, List.length_drop]
          omega
        rw [hState] at hAnswer hLast
        rcases hAnswer with ⟨taken, rfl⟩ | rfl
        · rw [Action.result_bind_of_ok hLater] at hRun
          exact ⟨_, after, hRun, .inl ⟨_, rfl⟩, hAfter, hLast, hTotal⟩
        · rw [Action.result_bind_of_error hLater] at hRun
          exact ⟨_, after, hRun, .inr rfl, hAfter, hLast, hTotal⟩
      · rw [hKept] at hRun
        exact ⟨_, _, hRun, .inr rfl, hReady, hKept, by rw [hPlace, List.length_nil]; omega⟩

/-- Off the window the payload is taken under an error, as far as it goes, and the call refused. -/
theorem InBounds.readPayloadVerified_refused [Memory] (hBounds : stream.InBounds)
    (hHealthy : stream.failure = none) (hFailed : stream.errorState ≠ .success)
    (hSupplies : Supplies stream.backend stream.window bytes ended) {header : ChunkHeader}
    (config : ChunkConfig) (hReserve : header.dataSize.toNat ≤ reservable) :
    ∃ after, (Chunk.readPayloadVerified header config).result stream =
        (.error (.error (Error.ofCode stream.errorState)), after) ∧
      after.errorState = stream.errorState ∧
      after.place = stream.place + min header.dataSize.toNat bytes.length := by
  obtain ⟨answer, after, hRun, hAnswer, hInside, hState, hPlace⟩ :=
    hBounds.takePayload_under_error hHealthy hFailed hSupplies
      (Nat.le_refl header.dataSize.toNat) config.seed
  rw [Chunk.readPayloadVerified_of_reserved hReserve, Chunk.readPayload, bind_assoc,
    Action.result_bind_of_ok (Action.result_state stream), if_pos hBounds.window_only.2]
  rcases hAnswer with ⟨taken, rfl⟩ | rfl
  · have hStill : after.errorState ≠ .success := by rwa [hState]
    have hRefused := hInside.verifyPayload_refused hStill header config taken
    rw [hState] at hRefused
    refine ⟨after.refreshed, ?_, ?_, ?_⟩
    · rw [bind_assoc, Action.result_bind_of_ok hRun, bind_assoc,
        Action.result_bind_of_ok (Action.result_emit _ after), pure_bind, hRefused]
    · rw [hInside.errorState_refreshed hStill, hState]
    · rw [hInside.place_refreshed, hPlace]
  · refine ⟨after, ?_, hState, hPlace⟩
    rw [bind_assoc, Action.result_bind_of_error hRun]

end Sticky

/-- How the two ways to a payload compare. Without an error they are the same, in what they answer
and in the stream that they leave. Under an error both are refused with it and keep it. Then the read
leaves the stream where it stands, and off the window the payload is passed, as far as there are
bytes for it. -/
structure PathsCompare [Memory] [Placed β] (stream : Stream β) (header : ChunkHeader)
    (config : ChunkConfig) :
    Prop where
  clean : stream.errorState = .success →
    (Chunk.readPayloadVerified header config).result stream =
      (Chunk.readPlainVerified header config).result stream
  sticky : stream.errorState ≠ .success → header.dataSize.toNat ≤ reservable →
    ∃ bytes ended copied plain, Supplies stream.backend stream.window bytes ended ∧
      (Chunk.readPayloadVerified header config).result stream =
        (.error (.error (Error.ofCode stream.errorState)), copied) ∧
      (Chunk.readPlainVerified header config).result stream =
        (.error (.error (Error.ofCode stream.errorState)), plain) ∧
      copied.errorState = stream.errorState ∧ plain.errorState = stream.errorState ∧
      copied.place = stream.place + min header.dataSize.toNat bytes.length ∧
      plain.place = stream.place

section Comparison

variable [Placed β] [WindowPlaced β] [Drains β]

theorem InBounds.pathsCompare [Memory] (hBounds : stream.InBounds) (hHealthy : stream.failure = none)
    (header : ChunkHeader) (config : ChunkConfig) : stream.PathsCompare header config where
  clean hClean := by
    by_cases hReserve : header.dataSize.toNat ≤ reservable
    · rw [Chunk.readPayloadVerified_of_reserved hReserve,
        Chunk.readPlainVerified_of_reserved hReserve]
      exact Action.result_bind_congr (hBounds.readPayload_like_plain hClean _ _) _
    · rw [Chunk.readPayloadVerified, Chunk.readPlainVerified]
      dsimp only
      rw [if_pos (Nat.lt_of_not_le hReserve), if_pos (Nat.lt_of_not_le hReserve)]
  sticky hFailed hReserve := by
    obtain ⟨bytes, ended, hSupplies⟩ := exists_supplies (hBounds.healthy hHealthy)
    obtain ⟨copied, hCopied, hState, hPlace⟩ :=
      hBounds.readPayloadVerified_refused hHealthy hFailed hSupplies config hReserve
    exact ⟨bytes, ended, copied, stream.refreshed, hSupplies, hCopied,
      hBounds.readPlainVerified_refused hFailed config hReserve, hState,
      hBounds.errorState_refreshed hFailed, hPlace, hBounds.place_refreshed⟩

end Comparison

/-- A stream on the backend opens, and wherever permitted uses take it, as long as it did not fail for
good, the two ways to a payload compare. -/
def PathsStayCompared [Memory] [Placed β] (backend : β) (header : ChunkHeader) (config : ChunkConfig) :
    Prop :=
  ∃ start log, ofBackend backend = .ok (start, log) ∧
    ∀ reached, start.Reachable Use.Permitted reached → reached.failure = none →
      reached.PathsCompare header config

theorem pathsStayCompared_of_fits [Memory] [Placed β] [WindowPlaced β] [Drains β] {backend : β}
    {window : Window} (hWindow : Backend.initialWindow backend = .ok window)
    (hFits : FitsWindow.Fits backend window) (header : ChunkHeader) (config : ChunkConfig) :
    PathsStayCompared backend header config := by
  obtain ⟨start, log, hOpened, hBounds⟩ := inBounds_of_fits hWindow hFits
  exact ⟨start, log, hOpened, fun reached hReached hHealthy =>
    (hBounds reached hReached).pathsCompare hHealthy header config⟩

/-- On memory, on a buffered reader of any capacity over any source, and on data in pieces: a payload
off the window is the payload that a read gives, with the same error and the same stream behind it,
unless the stream is under an error. Then the call fails alike, and only off the window the payload is
passed. -/
theorem payload_paths_compare [Memory] (header : ChunkHeader) (config : ChunkConfig) :
    (∀ bytes, PathsStayCompared (ReadOnly.mk bytes) header config) ∧
    (∀ reader : BufferedReader, PathsStayCompared reader header config) ∧
    ∀ source : Pieces, source.pattern ≠ [] → PathsStayCompared source header config :=
  ⟨fun bytes => @pathsStayCompared_of_fits ReadOnly _ ReadOnly.fitsWhole _ _
      ReadOnly.windowPlaced ReadOnly.drainsWhole ⟨bytes⟩ _ rfl rfl header config,
    fun _ => pathsStayCompared_of_fits rfl (Nat.zero_le _) header config,
    fun source hPattern => by
      refine pathsStayCompared_of_fits rfl ?_ header config
      exact ⟨Nat.zero_le source.bytes.length, hPattern⟩⟩

/-- Three bytes come in pairs, and a payload of two is asked for. The footer behind it is cut off,
which both ways find. -/
theorem payload_paths_compare_in_pairs :
    openedInPairs.backend.pattern ≠ [] ∧ ∃ log after,
      ofBackend openedInPairs.backend = .ok (openedInPairs, log) ∧
      (Chunk.readPayloadVerified ⟨7, 2, 2⟩ {}).result openedInPairs =
        (.error (.error .endOfStream), after) ∧
      (Chunk.readPlainVerified ⟨7, 2, 2⟩ {}).result openedInPairs =
        (.error (.error .endOfStream), after) := by
  have hPattern : openedInPairs.backend.pattern ≠ [] := by decide
  obtain ⟨start, log, hOpened, hCompare⟩ :=
    (payload_paths_compare ⟨7, 2, 2⟩ {}).2.2 openedInPairs.backend hPattern
  obtain rfl : openedInPairs = start := by
    cases hOpened
    rfl
  have hSame := (hCompare _ .start rfl).clean rfl
  have hCopied : ∃ after, (Chunk.readPayloadVerified ⟨7, 2, 2⟩ {}).result openedInPairs =
      (.error (.error .endOfStream), after) := ⟨_, rfl⟩
  obtain ⟨after, hCopied⟩ := hCopied
  exact ⟨hPattern, log, after, hOpened, hCopied, hSame.symm.trans hCopied⟩

/-- Eight bytes in memory refuse a write. A payload of two is then refused both ways with the same
error, and only the one that is copied off the window is passed. -/
theorem payload_is_passed_under_error :
    ∃ start log sticky copied plain,
      ofBackend (ReadOnly.mk [1, 2, 3, 4, 5, 6, 7, 8]) = .ok (start, log) ∧
      start.Reachable Use.Permitted sticky ∧ sticky.failure = none ∧ sticky.place = 0 ∧
      (Chunk.readPayloadVerified ⟨1, 1, 2⟩ {}).result sticky =
        (.error (.error .invalidOperation), copied) ∧
      (Chunk.readPlainVerified ⟨1, 1, 2⟩ {}).result sticky =
        (.error (.error .invalidOperation), plain) ∧
      copied.place = 2 ∧ plain.place = 0 :=
  ⟨_, _, _, _, _, rfl, .used (.operation (.write [0])) .start trivial, rfl, rfl, rfl, rfl, rfl, rfl⟩

end Stream

end Bytestream
