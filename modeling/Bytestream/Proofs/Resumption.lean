import Bytestream.Proofs.BackendSupply
import Bytestream.Proofs.SuppliedReading

/-!
Going on after an error. While a stream keeps an error every read is refused, and yet a refused read
may refill the window, move the source below it, or find that nothing more will come. None of that
shows once the error is reset: what the reads after the reset come to is what they would have come
to without the refused ones.
-/

namespace Bytestream

/-- A call that reads: bytes, a word, a header or a chunk. -/
inductive Fetch where
  | read (count : Nat)
  | bufferedRead (count : Nat)
  | word (order : ByteOrder) (width : Nat)
  | header (config : ChunkConfig)
  | chunk (config : ChunkConfig)

/-- What such a call answers. -/
inductive Fetched where
  | bytes (transfer : Transfer)
  | word {width : Nat} (answer : Except Error (Word width))
  | header (answer : Except Error ChunkHeader)
  | chunk (answer : Except Error Chunk)

namespace Fetch

/-- The call asks for nothing. -/
def IsEmpty : Fetch → Prop
  | read count => count = 0
  | bufferedRead count => count = 0
  | word _ width => width = 0
  | header _ => False
  | chunk _ => False

/-- Makes the call, and goes on from an error of the data. -/
def perform [Memory] {β : Type} [Backend β] : Fetch → Stream.Op β Fetched
  | read count => do return .bytes (← Stream.read count)
  | bufferedRead count => do return .bytes (← Stream.bufferedRead count)
  | word order width => do return .word (← Action.attempt (Stream.readWord order width))
  | header config => do return .header (← Action.attempt (Chunk.readHeader config))
  | chunk config => do return .chunk (← Action.attempt (Chunk.read config))

/-- Makes the calls in order. -/
def performAll [Memory] {β : Type} [Backend β] : List Fetch → Stream.Op β (List Fetched)
  | [] => return []
  | fetch :: later => do
      let answer ← fetch.perform
      let answers ← performAll later
      return answer :: answers

/-- Resets the error, and makes the calls in order. -/
def resume [Memory] {β : Type} [Backend β] (later : List Fetch) :
    Stream.Op β (Code × List Fetched) := do
  let code ← Stream.resetErrorState
  let answers ← performAll later
  return (code, answers)

/-- The answer of a call that is refused with a code: no byte moves, and nothing is parsed. -/
def refusal (code : Code) : Fetch → Fetched
  | read _ => .bytes (.none (.failed code))
  | bufferedRead _ => .bytes (.none (.failed code))
  | word _ width => @Fetched.word width (.error (Error.ofCode code))
  | header _ => .header (.error (Error.ofCode code))
  | chunk _ => .chunk (.error (Error.ofCode code))

end Fetch

namespace Stream

section Refills

variable {β : Type} [Backend β]

/-- The stream as a read finds it: with something unread, if only of the stub. -/
def refreshed (stream : Stream β) : Stream β := (Action.result refillIfExhausted stream).2

/-- The stream without its error. -/
def cleared (stream : Stream β) : Stream β := (Action.result resetErrorState stream).2

variable {stream : Stream β}

theorem refreshed_of_unread (hUnread : stream.window.exhausted = false) :
    stream.refreshed = stream := by
  rw [refreshed, refillIfExhausted_of_unread hUnread]

theorem refreshed_of_refill {after : Stream β} {code : Code}
    (hExhausted : stream.window.exhausted = true)
    (hRefill : Action.result refill stream = (.ok code, after)) : stream.refreshed = after := by
  rw [refreshed, refillIfExhausted_of_refill hExhausted hRefill]

omit [Backend β] in
theorem cleared_of_healthy (hHealthy : stream.failure = none) :
    stream.cleared = { stream with errorState := .success } := by
  rw [cleared, result_resetErrorState_of_healthy hHealthy]

omit [Backend β] in
theorem cleared_of_failed (hFailed : stream.failure ≠ none) :
    stream.cleared = { stream with window := stream.window.exhaust, errorState := .success } := by
  rw [cleared, result_resetErrorState_of_failed hFailed]

omit [Backend β] in
theorem result_resetErrorState (stream : Stream β) :
    Action.result resetErrorState stream = (.ok stream.errorState, stream.cleared) := by
  by_cases hHealthy : stream.failure = none
  · rw [cleared, result_resetErrorState_of_healthy hHealthy]
  · rw [cleared, result_resetErrorState_of_failed hHealthy]

omit [Backend β] in
theorem errorState_cleared (stream : Stream β) : stream.cleared.errorState = .success := by
  by_cases hHealthy : stream.failure = none
  · rw [cleared_of_healthy hHealthy]
  · rw [cleared_of_failed hHealthy]

/-- After a reset a read of a stream that failed for good meets the failure, whatever the window was. -/
theorem refreshed_cleared_of_failure {code : Code}
    (hOffers : stream.capabilities.bufferedRead = true) (hFailure : stream.failure = some code) :
    stream.cleared.refreshed =
      { stream with window := Window.whole stub.length, errorState := code } := by
  rw [cleared_of_failed (by rw [hFailure]; exact nofun)]
  have hExhausted := Window.exhausted_exhaust stream.window
  rw [refreshed_of_refill (by exact hExhausted) (refill_of_served (by exact hOffers)
    (by exact hExhausted) (by exact hFailure))]
  rfl

end Refills

section Bounded

variable {β : Type} [Backend β] [FitsWindow β] {stream : Stream β} {count : Nat}

theorem InBounds.result_refillIfExhausted (hBounds : stream.InBounds) :
    Action.result Stream.refillIfExhausted stream = (.ok (), stream.refreshed) := by
  obtain ⟨after, hRun, -⟩ := hBounds.refillIfExhausted
  rw [refreshed, hRun]

theorem InBounds.refreshed (hBounds : stream.InBounds) : stream.refreshed.InBounds := by
  obtain ⟨after, hRun, hAfter⟩ := hBounds.refillIfExhausted
  rwa [Stream.refreshed, hRun]

theorem InBounds.cleared (hBounds : stream.InBounds) : stream.cleared.InBounds := by
  have hEnds := orderly_inBounds.resetErrorState stream hBounds
  rwa [result_resetErrorState] at hEnds

theorem InBounds.unread_refreshed (hBounds : stream.InBounds) :
    stream.refreshed.window.exhausted = false := by
  cases hExhausted : stream.window.exhausted with
  | false => rwa [refreshed_of_unread hExhausted]
  | true =>
      obtain ⟨code, after, hRefill, -⟩ := hBounds.refill hExhausted
      rw [refreshed_of_refill hExhausted hRefill]
      exact (Window.exhausted_eq_false_iff _).mpr
        ((refilled_of_result hRefill).available_pos (.inl hBounds.window_only.2))

theorem InBounds.refreshed_refreshed (hBounds : stream.InBounds) :
    stream.refreshed.refreshed = stream.refreshed :=
  refreshed_of_unread hBounds.unread_refreshed

theorem InBounds.errorState_refreshed (hBounds : stream.InBounds)
    (hFailed : stream.errorState ≠ .success) : stream.refreshed.errorState = stream.errorState :=
  errorState_of_refillIfExhausted hFailed hBounds.result_refillIfExhausted

/-- What a read finds of a stream that has nothing unread: its final failure once more, what the
backend brought in, or a failure of the backend that is final from here on. -/
theorem InBounds.refreshed_of_exhausted (hBounds : stream.InBounds)
    (hExhausted : stream.window.exhausted = true) :
    (∃ code, stream.failure = some code ∧ stream.refreshed =
        { stream with window := Window.whole stub.length, errorState := stream.kept code }) ∨
      ∃ code, stream.failure = none ∧
        (Backend.refill stream.backend stream.window).value = .ok code ∧
        (code = .success ∧
            (Backend.refill stream.backend stream.window).state.2.FilledFrom
              (Backend.refill stream.backend stream.window).state.1 ∧
            stream.refreshed =
              stream.afterCall (Backend.refill stream.backend stream.window).state ∨
          code ≠ .success ∧ stream.refreshed = { stream with
            backend := (Backend.refill stream.backend stream.window).state.1
            window := Window.whole stub.length
            failure := some code
            errorState := stream.kept code }) := by
  have hOffers := hBounds.window_only.2
  rcases Option.eq_none_or_eq_some stream.failure with hHealthy | ⟨code, hFailure⟩
  · obtain ⟨code, hAnswer, hDone⟩ := FitsWindow.refill (hBounds.healthy hHealthy) hExhausted
    refine .inr ⟨code, hHealthy, hAnswer, ?_⟩
    by_cases hCode : code = .success
    · obtain ⟨hFilled, -⟩ := hDone hCode
      subst hCode
      exact .inl ⟨rfl, hFilled, refreshed_of_refill hExhausted
        (refill_of_filled hOffers hExhausted hHealthy hAnswer hFilled)⟩
    · exact .inr ⟨hCode, refreshed_of_refill hExhausted
        (refill_of_rejected hOffers hExhausted hHealthy hCode hAnswer)⟩
  · exact .inl ⟨code, hFailure,
      refreshed_of_refill hExhausted (refill_of_served hOffers hExhausted hFailure)⟩

/-- A refill under an error and a reset come to what the reset and a refill do. Where the refill
fails it fails for good, and the refill behind the reset meets the failure that it left. -/
theorem InBounds.refreshed_cleared (hBounds : stream.InBounds) :
    stream.refreshed.cleared.refreshed = stream.cleared.refreshed := by
  cases hExhausted : stream.window.exhausted with
  | false => rw [refreshed_of_unread hExhausted]
  | true =>
      have hOffers := hBounds.window_only.2
      rcases hBounds.refreshed_of_exhausted hExhausted with
        ⟨code, hFailure, hRefreshed⟩ | ⟨code, hHealthy, hAnswer, hFilled | hFailed⟩
      · rw [hRefreshed, refreshed_cleared_of_failure hOffers hFailure,
          refreshed_cleared_of_failure (by exact hOffers) (by exact hFailure)]
      · obtain ⟨rfl, hFilled, hRefreshed⟩ := hFilled
        have hUnread := (Window.exhausted_eq_false_iff _).mpr (Nat.sub_pos_of_lt hFilled.cursor_lt)
        have hIdle : { stream with errorState := .success }.refreshed = { stream.afterCall
            (Backend.refill stream.backend stream.window).state with errorState := .success } :=
          refreshed_of_refill hExhausted
            (refill_of_filled hOffers hExhausted hHealthy hAnswer hFilled)
        rw [hRefreshed, cleared_of_healthy (by exact hHealthy), cleared_of_healthy hHealthy, hIdle]
        exact refreshed_of_unread hUnread
      · obtain ⟨hCode, hRefreshed⟩ := hFailed
        have hIdle : { stream with errorState := .success }.refreshed = { stream with
            backend := (Backend.refill stream.backend stream.window).state.1
            window := Window.whole stub.length
            failure := some code
            errorState := code } :=
          refreshed_of_refill hExhausted
            (refill_of_rejected hOffers hExhausted hHealthy hCode hAnswer)
        rw [hRefreshed, refreshed_cleared_of_failure (by exact hOffers) rfl,
          cleared_of_healthy hHealthy, hIdle]

/-- A read makes sure that something is unread before it looks at anything else. -/
theorem InBounds.bufferedRead_refreshed (hBounds : stream.InBounds) (hSome : 0 < count) :
    (bufferedRead count).result stream = (bufferedRead count).result stream.refreshed := by
  obtain ⟨rounds, rfl⟩ : ∃ rounds, count = rounds + 1 := ⟨count - 1, by omega⟩
  have hSame : Action.result Stream.refillIfExhausted stream =
      Action.result Stream.refillIfExhausted stream.refreshed := by
    rw [hBounds.result_refillIfExhausted, hBounds.refreshed.result_refillIfExhausted,
      hBounds.refreshed_refreshed]
  have hTaken : (Stream.takeBuffered (rounds + 1) (rounds + 1)).result stream =
      (Stream.takeBuffered (rounds + 1) (rounds + 1)).result stream.refreshed := by
    rw [takeBuffered_of_pos hSome]
    exact Action.result_bind_congr hSame _
  rw [bufferedRead, if_neg (Nat.ne_of_gt hSome),
    Action.result_bind_of_ok (Action.result_state stream),
    Action.result_bind_of_ok (Action.result_state stream.refreshed),
    if_pos hBounds.window_only.2, if_pos hBounds.refreshed.window_only.2]
  exact Action.result_bind_congr hTaken _

/-- Under an error a read is refused. All that it did is to look for something unread. -/
theorem InBounds.bufferedRead_refused (hBounds : stream.InBounds) (hSome : 0 < count)
    (hFailed : stream.errorState ≠ .success) :
    (bufferedRead count).result stream =
      (.ok (.none (.failed stream.errorState)), stream.refreshed) := by
  obtain ⟨rounds, rfl⟩ : ∃ rounds, count = rounds + 1 := ⟨count - 1, by omega⟩
  have hKept := hBounds.errorState_refreshed hFailed
  rw [bufferedRead_of_taken hBounds.window_only.2 hSome (takeBuffered_of_failing hSome
    hBounds.result_refillIfExhausted (by rwa [hKept])), hKept]
  rfl

theorem InBounds.readWord_refreshed (hBounds : stream.InBounds) (order : ByteOrder)
    (hSome : 0 < count) :
    (readWord order count).result stream = (readWord order count).result stream.refreshed := by
  apply Action.result_bind_congr
  rw [lift, Action.result_mapStop, Action.result_mapStop, read_of_window_only hBounds.window_only hSome,
    read_of_window_only hBounds.refreshed.window_only hSome, hBounds.bufferedRead_refreshed hSome]

theorem InBounds.readWord_refused (hBounds : stream.InBounds) (order : ByteOrder)
    (hSome : 0 < count) (hFailed : stream.errorState ≠ .success) :
    (readWord order count).result stream =
      (.error (.error (Error.ofCode stream.errorState)), stream.refreshed) := by
  have hRead := hBounds.bufferedRead_refused hSome hFailed
  rw [← read_of_window_only hBounds.window_only hSome] at hRead
  rw [readWord, Action.result_bind_of_ok (result_lift_of_ok hRead),
    Outcome.toExcept_of_failure (by exact hFailed)]
  rfl

end Bounded

end Stream

namespace Fetch

open Bytestream.Stream

variable {β : Type} [Backend β] [FitsWindow β] {stream other : Stream β} {fetch : Fetch}

omit [FitsWindow β] in
/-- A call that asks for nothing answers the same of every stream, and leaves it as it is. -/
theorem perform_of_empty [Memory] (hEmpty : fetch.IsEmpty) :
    ∃ answer, ∀ stream : Stream β, fetch.perform.result stream = (.ok answer, stream) := by
  cases fetch with
  | read count => exact hEmpty ▸ ⟨_, fun _ => rfl⟩
  | bufferedRead count => exact hEmpty ▸ ⟨_, fun _ => rfl⟩
  | word order width =>
      obtain rfl : width = 0 := hEmpty
      exact ⟨_, fun _ => rfl⟩
  | header config => exact hEmpty.elim
  | chunk config => exact hEmpty.elim

/-- What a call comes to depends on the stream only as far as a read finds it. -/
theorem perform_refreshed [Memory] (hBounds : stream.InBounds) (hSome : ¬fetch.IsEmpty) :
    fetch.perform.result stream = fetch.perform.result stream.refreshed := by
  have hAttempt {α : Type} {action : Attempt β α} {answer : Except Error α → Fetched}
      (hSame : action.result stream = action.result stream.refreshed) :
      Action.result (do return answer (← Action.attempt action) : Op β Fetched) stream =
        Action.result (do return answer (← Action.attempt action) : Op β Fetched)
          stream.refreshed :=
    Action.result_bind_congr (by rw [Action.result_attempt, Action.result_attempt, hSame]) _
  cases fetch with
  | read count =>
      have hCount : 0 < count := Nat.pos_of_ne_zero hSome
      apply Action.result_bind_congr
      rw [read_of_window_only hBounds.window_only hCount,
        read_of_window_only hBounds.refreshed.window_only hCount,
        hBounds.bufferedRead_refreshed hCount]
  | bufferedRead count =>
      exact Action.result_bind_congr (hBounds.bufferedRead_refreshed (Nat.pos_of_ne_zero hSome)) _
  | word order width =>
      exact hAttempt (hBounds.readWord_refreshed order (Nat.pos_of_ne_zero hSome))
  | header config =>
      exact hAttempt (Action.result_bind_congr (Action.result_bind_congr
        (hBounds.readWord_refreshed config.order (by decide)) _) _)
  | chunk config =>
      exact hAttempt (Action.result_bind_congr (Action.result_bind_congr (Action.result_bind_congr
        (hBounds.readWord_refreshed config.order (by decide)) _) _) _)

/-- Under an error a call is refused with the error. -/
theorem perform_refused [Memory] (hBounds : stream.InBounds) (hFailed : stream.errorState ≠ .success)
    (hSome : ¬fetch.IsEmpty) :
    fetch.perform.result stream = (.ok (fetch.refusal stream.errorState), stream.refreshed) := by
  have hAttempt {α : Type} {action : Attempt β α} {answer : Except Error α → Fetched}
      (hRun : action.result stream =
        (.error (.error (Error.ofCode stream.errorState)), stream.refreshed)) :
      Action.result (do return answer (← Action.attempt action) : Op β Fetched) stream =
        (.ok (answer (.error (Error.ofCode stream.errorState))), stream.refreshed) := by
    exact Action.result_bind_of_ok (Action.result_attempt_of_error hRun) _
  cases fetch with
  | read count =>
      have hCount : 0 < count := Nat.pos_of_ne_zero hSome
      exact Action.result_bind_of_ok (read_of_window_only hBounds.window_only hCount ▸
        hBounds.bufferedRead_refused hCount hFailed) _
  | bufferedRead count =>
      exact Action.result_bind_of_ok
        (hBounds.bufferedRead_refused (Nat.pos_of_ne_zero hSome) hFailed) _
  | word order width =>
      exact hAttempt (hBounds.readWord_refused order (Nat.pos_of_ne_zero hSome) hFailed)
  | header config =>
      exact hAttempt (Action.result_bind_of_error (Action.result_bind_of_error
        (hBounds.readWord_refused config.order (by decide) hFailed) _) _)
  | chunk config =>
      exact hAttempt (Action.result_bind_of_error (Action.result_bind_of_error
        (Action.result_bind_of_error
          (hBounds.readWord_refused config.order (by decide) hFailed) _) _) _)

section Correspondence

variable {γ : Type} [Backend γ] {related : Stream β → Stream γ → Prop}
variable {faults : Fault → Stream β → Stream γ → Prop}

omit [FitsWindow β] in
/-- Streams on which reading ends alike answer every call alike. -/
theorem alike_perform [Memory] (hSame : CorrespondingReads related faults) (fetch : Fetch) :
    Action.Alike related faults fetch.perform fetch.perform := by
  have hAttempt {α : Type} {first : Attempt β α} {second : Attempt γ α}
      (answer : Except Error α → Fetched)
      (hAlike : Action.Alike related (stopsRelated related faults) first second) :
      Action.Alike related faults
        (do return answer (← Action.attempt first)) (do return answer (← Action.attempt second)) :=
    (hAlike.attempt fun _ _ _ hKept => hKept).bind fun _ => Action.alike_pure _
  cases fetch with
  | read count => exact (hSame.read count).bind fun _ => Action.alike_pure _
  | bufferedRead count => exact (hSame.bufferedRead count).bind fun _ => Action.alike_pure _
  | word order width => exact hAttempt .word (hSame.readWord order width)
  | header config => exact hAttempt .header (hSame.coupledReads.readHeader config)
  | chunk config => exact hAttempt .chunk (hSame.coupledReads.readChunk config)

omit [FitsWindow β] in
/-- And so they answer any number of calls. -/
theorem alike_performAll [Memory] (hSame : CorrespondingReads related faults) (fetches : List Fetch) :
    Action.Alike related faults (performAll fetches) (performAll fetches) := by
  induction fetches with
  | nil => exact Action.alike_pure _
  | cons fetch later ih =>
      exact (alike_perform hSame fetch).bind fun _ => ih.bind fun _ => Action.alike_pure _

end Correspondence

/-- A call always answers, and leaves the stream in bounds. -/
theorem perform_inBounds [Memory] (hBounds : stream.InBounds) (fetch : Fetch) :
    ∃ answer after, fetch.perform.result stream = (.ok answer, after) ∧ after.InBounds := by
  have hMaintains : Action.Maintains InBounds (fun _ _ => False)
      (fetch.perform : Op β Fetched) :=
    Action.alike_self.mp (alike_perform (@orderly_inBounds β _ _).toOrderlyReads.corresponding fetch)
  have hEnds := hMaintains stream hBounds
  obtain ⟨answer, after, hRun⟩ := proceeds_of_ends hEnds
  rw [hRun] at hEnds
  exact ⟨answer, after, hRun, hEnds⟩

/-- Any number of calls are refused under an error. They change nothing, but for what a read does to
find something unread. The induction is on the calls; after the first of them something is. -/
theorem performAll_refused [Memory] {refused : List Fetch} (hBounds : stream.InBounds)
    (hFailed : stream.errorState ≠ .success) (hSome : ∀ fetch ∈ refused, ¬fetch.IsEmpty) :
    ∃ after, (performAll refused).result stream =
        (.ok (refused.map (refusal stream.errorState)), after) ∧
      (after = stream ∨ after = stream.refreshed) := by
  induction refused generalizing stream with
  | nil => exact ⟨stream, rfl, .inl rfl⟩
  | cons fetch later ih =>
      rw [List.forall_mem_cons] at hSome
      have hKept := hBounds.errorState_refreshed hFailed
      have hRefused := perform_refused hBounds hFailed hSome.1
      obtain ⟨after, hRun, hAfter⟩ := ih hBounds.refreshed (by rwa [hKept]) hSome.2
      rw [hKept] at hRun
      refine ⟨after, ?_, .inr (hAfter.elim id fun hAgain => ?_)⟩
      · rw [performAll, Action.result_bind_of_ok hRefused, Action.result_bind_of_ok hRun]
        rfl
      · rw [hAgain, hBounds.refreshed_refreshed]

/-- Two streams that a read finds alike answer every run of calls alike. The induction is on the
calls; the first that asks for anything leaves one and the same stream of both. -/
theorem performAll_alike [Memory] {later : List Fetch} (hBounds : stream.InBounds)
    (hOther : other.InBounds)
    (hSame : stream.refreshed = other.refreshed) (hState : stream.errorState = other.errorState) :
    ∃ answers last last', (performAll later).result stream = (.ok answers, last) ∧
      (performAll later).result other = (.ok answers, last') ∧
      last.errorState = last'.errorState := by
  induction later generalizing stream other with
  | nil => exact ⟨[], stream, other, rfl, rfl, hState⟩
  | cons fetch later ih =>
      by_cases hEmpty : fetch.IsEmpty
      · obtain ⟨answer, hAnswer⟩ := perform_of_empty (β := β) hEmpty
        obtain ⟨answers, last, last', hRun, hRun', hLast⟩ := ih hBounds hOther hSame hState
        refine ⟨answer :: answers, last, last', ?_, ?_, hLast⟩
        · rw [performAll, Action.result_bind_of_ok (hAnswer stream), Action.result_bind_of_ok hRun]
          rfl
        · rw [performAll, Action.result_bind_of_ok (hAnswer other), Action.result_bind_of_ok hRun']
          rfl
      · obtain ⟨answer, after, hRun, hAfter⟩ := perform_inBounds hBounds fetch
        have hRun' : fetch.perform.result other = (.ok answer, after) := by
          rw [perform_refreshed hOther hEmpty, ← hSame, ← perform_refreshed hBounds hEmpty, hRun]
        obtain ⟨answers, last, last', hLater, hLater', hLast⟩ := ih hAfter hAfter rfl rfl
        refine ⟨answer :: answers, last, last', ?_, ?_, hLast⟩
        · rw [performAll, Action.result_bind_of_ok hRun, Action.result_bind_of_ok hLater]
          rfl
        · rw [performAll, Action.result_bind_of_ok hRun', Action.result_bind_of_ok hLater']
          rfl

/-- Once the error is reset nothing shows of the calls that were refused. -/
theorem resume_alike [Memory] (later : List Fetch) {after : Stream β} (hBounds : stream.InBounds)
    (hFailed : stream.errorState ≠ .success) (hAfter : after = stream ∨ after = stream.refreshed) :
    ∃ answers last last', (resume later).result after = (.ok (stream.errorState, answers), last) ∧
      (resume later).result stream = (.ok (stream.errorState, answers), last') ∧
      last.errorState = last'.errorState := by
  have hKept : after.errorState = stream.errorState := by
    rcases hAfter with rfl | rfl
    · rfl
    · exact hBounds.errorState_refreshed hFailed
  have hInside : after.InBounds := by
    rcases hAfter with rfl | rfl
    · exact hBounds
    · exact hBounds.refreshed
  have hSame : after.cleared.refreshed = stream.cleared.refreshed := by
    rcases hAfter with rfl | rfl
    · rfl
    · exact hBounds.refreshed_cleared
  obtain ⟨answers, last, last', hRun, hRun', hLast⟩ :=
    @performAll_alike _ _ _ _ _ _ later hInside.cleared hBounds.cleared hSame
      (by rw [errorState_cleared, errorState_cleared])
  refine ⟨answers, last, last', ?_, ?_, hLast⟩
  · rw [resume, Action.result_bind_of_ok (result_resetErrorState after),
      Action.result_bind_of_ok hRun, Action.result_pure, hKept]
  · rw [resume, Action.result_bind_of_ok (result_resetErrorState stream),
      Action.result_bind_of_ok hRun', Action.result_pure]

end Fetch

namespace Stream

open Bytestream.Fetch (performAll refusal resume)

variable {β : Type} [Backend β] [FitsWindow β] {stream : Stream β}

/-- A damaged chunk is passed: however often a chunk was asked for in vain, after a reset the one
behind the damage is read. -/
theorem InBounds.passes_damage [Memory] (hBounds : stream.InBounds) {bytes : Bytes} {ended : Code}
    {config reader : ChunkConfig} {stored computed : Nat} {next : Chunk} (tries : List ChunkConfig)
    (hFeeds : stream.Feeds bytes ended)
    (hDamaged : Chunk.decode config bytes = .error (.checksumMismatch stored computed))
    (hNext : Chunk.decode reader
      (bytes.drop (Chunk.fields config.order bytes).header.chunkLength) = .ok next) :
    ∃ after last,
      (performAll (.chunk config :: tries.map .chunk)).result stream =
        (.ok (.chunk (.error (.checksumMismatch stored computed)) ::
          tries.map fun _ => .chunk (.error .invalidData)), after) ∧
      (resume [.chunk reader]).result after = (.ok (.invalidData, [.chunk (.ok next)]), last) := by
  obtain ⟨damaged, hRead, hCode, hHealthy, hInside, hLeft⟩ :=
    Chunk.read_feeds_mismatch hBounds hFeeds hDamaged
  have hFailed : damaged.errorState ≠ .success := by
    rw [hCode]
    exact nofun
  -- The calls in between leave the stream as the damage did, or as a read would find it there.
  obtain ⟨after, hRefused, hAfter⟩ := @Fetch.performAll_refused _ _ _ _ _ (tries.map .chunk) hInside
    hFailed (by simp [Fetch.IsEmpty])
  obtain ⟨answers, last, last', hLater, hDirect, -⟩ :=
    Fetch.resume_alike [.chunk reader] hInside hFailed hAfter
  rw [hCode, List.map_map] at hRefused
  -- Right after the damage a reset is all that it takes to read on.
  have hThere : damaged.cleared.Feeds _ ended := cleared_of_healthy hHealthy ▸ hLeft
  obtain ⟨behind, hNextRead, -, -⟩ := Chunk.read_feeds hInside.cleared hThere hNext
  have hAnswer : (Fetch.chunk reader).perform.result damaged.cleared =
      (.ok (.chunk (.ok next)), behind) :=
    Action.result_bind_of_ok (Action.result_attempt_of_ok hNextRead) _
  rw [resume, Action.result_bind_of_ok (result_resetErrorState damaged), performAll, bind_assoc,
    Action.result_bind_of_ok hAnswer] at hDirect
  cases hDirect
  refine ⟨after, last, ?_, by rw [hLater, hCode]⟩
  have hMet : (Fetch.chunk config).perform.result stream =
      (.ok (.chunk (.error (.checksumMismatch stored computed))), damaged) :=
    Action.result_bind_of_ok (Action.result_attempt_of_error hRead) _
  rw [performAll, Action.result_bind_of_ok hMet, Action.result_bind_of_ok hRefused]
  rfl

/-- How a stream goes on from an error. Under it any reads are refused and take nothing, and behind
the reset every read answers as it would have without them. A healthy stream has certain bytes left
to give, and where a chunk that is damaged lies in front of one that is not, the reset after the
damage leads to that one. -/
structure Resumable [Memory] (stream : Stream β) : Prop where
  resumes : ∀ refused later : List Fetch, stream.errorState ≠ .success →
    (∀ fetch ∈ refused, ¬fetch.IsEmpty) → ∃ after answers last last',
      (performAll refused).result stream =
        (.ok (refused.map (refusal stream.errorState)), after) ∧
      (resume later).result after = (.ok (stream.errorState, answers), last) ∧
      (resume later).result stream = (.ok (stream.errorState, answers), last') ∧
      last.errorState = last'.errorState
  supplied : stream.failure = none → stream.errorState = .success →
    ∃ bytes ended, stream.Feeds bytes ended
  passes : ∀ (bytes : Bytes) (ended : Code) (config reader : ChunkConfig) (stored computed : Nat)
    (tries : List ChunkConfig) (next : Chunk), stream.Feeds bytes ended →
      Chunk.decode config bytes = .error (.checksumMismatch stored computed) →
      Chunk.decode reader
        (bytes.drop (Chunk.fields config.order bytes).header.chunkLength) = .ok next →
      ∃ after last,
        (performAll (.chunk config :: tries.map .chunk)).result stream =
          (.ok (.chunk (.error (.checksumMismatch stored computed)) ::
            tries.map fun _ => .chunk (.error .invalidData)), after) ∧
        (resume [.chunk reader]).result after = (.ok (.invalidData, [.chunk (.ok next)]), last)

theorem InBounds.resumable [Memory] [Drains β] (hBounds : stream.InBounds) : stream.Resumable where
  resumes refused later hFailed hSome := by
    obtain ⟨after, hRefused, hAfter⟩ := Fetch.performAll_refused hBounds hFailed hSome
    obtain ⟨answers, last, last', hLater, hDirect, hLast⟩ :=
      Fetch.resume_alike later hBounds hFailed hAfter
    exact ⟨after, answers, last, last', hRefused, hLater, hDirect, hLast⟩
  supplied := hBounds.exists_feeds
  passes _ _ _ _ _ _ tries _ hFeeds hDamaged hNext :=
    hBounds.passes_damage tries hFeeds hDamaged hNext

/-- A stream on the backend opens, and wherever permitted uses take it, it can go on from an error. -/
def StaysResumable [Memory] (backend : β) : Prop :=
  ∃ start log, ofBackend backend = .ok (start, log) ∧
    ∀ reached, start.Reachable Use.Permitted reached → reached.Resumable

theorem staysResumable_of_fits [Memory] [Drains β] {backend : β} {window : Window}
    (hWindow : Backend.initialWindow backend = .ok window)
    (hFits : FitsWindow.Fits backend window) : StaysResumable backend := by
  obtain ⟨start, log, hOpened, hBounds⟩ := inBounds_of_fits hWindow hFits
  exact ⟨start, log, hOpened, fun reached hReached => (hBounds reached hReached).resumable⟩

/-- On memory, on a buffered reader of any capacity over any source, and on data in pieces, whatever
the stream was used for: reads that are refused under an error leave no trace that a reset does not
clear, although they may have moved the source or failed the stream for good. -/
theorem refusals_leave_no_trace [Memory] :
    (∀ bytes, StaysResumable (ReadOnly.mk bytes)) ∧
    (∀ reader : BufferedReader, StaysResumable reader) ∧
    ∀ source : Pieces, source.pattern ≠ [] → StaysResumable source :=
  ⟨fun _ => staysResumable_of_fits rfl (Nat.le_refl _),
    fun _ => staysResumable_of_fits rfl (Nat.zero_le _),
    fun source hPattern => by
      apply staysResumable_of_fits rfl
      exact ⟨Nat.zero_le source.bytes.length, hPattern⟩⟩

/-- A chunk with a wrong checksum in front of one with a right one, both without a payload, each
handed out in a piece of its own. -/
def damagedThenSound : Pieces where
  bytes := [1, 0, 0, 0, 1, 0, 0, 0, 0, 0, 0, 0, 0, 0, 9, 0, 0, 0,
    2, 0, 0, 0, 1, 0, 0, 0, 0, 0, 0, 0, 0, 0, 0, 0, 0, 0]
  pattern := [18]
  pattern_pos := by decide

/-- Where the first chunk ends the window is exhausted, so that the two reads in vain bring in the
second one. -/
theorem refusals_leave_no_trace_behind_damage :
    damagedThenSound.pattern ≠ [] ∧ ∃ start log after last,
      ofBackend damagedThenSound = .ok (start, log) ∧
      (performAll [.chunk {}, .chunk {}, .chunk .bigEndian]).result start =
        (.ok [.chunk (.error (.checksumMismatch 9 0)), .chunk (.error .invalidData),
          .chunk (.error .invalidData)], after) ∧
      (resume [.chunk {}]).result after =
        (.ok (.invalidData, [.chunk (.ok ⟨⟨2, 1, 0⟩, [], 0⟩)]), last) := by
  have hPattern : damagedThenSound.pattern ≠ [] := by decide
  obtain ⟨start, log, hOpened, hResumable⟩ := refusals_leave_no_trace.2.2 damagedThenSound hPattern
  have hSupplies : Supplies damagedThenSound Window.empty damagedThenSound.bytes .endOfStream := by
    have hHolds : Readable.Holds damagedThenSound Window.empty damagedThenSound.bytes 0 :=
      ⟨rfl, rfl, Nat.zero_le _, hPattern⟩
    exact WindowRead.supplies hHolds
  have hFeeds : start.Feeds damagedThenSound.bytes .endOfStream := by
    cases hOpened
    exact ⟨rfl, ⟨rfl, rfl⟩, hSupplies, rfl⟩
  obtain ⟨after, last, hRefused, hResumed⟩ := (hResumable start .start).passes _ _ {} {} 9 0
    [{}, .bigEndian] ⟨⟨2, 1, 0⟩, [], 0⟩ hFeeds rfl rfl
  exact ⟨hPattern, start, log, after, last, hOpened, hRefused, hResumed⟩

end Stream

end Bytestream
