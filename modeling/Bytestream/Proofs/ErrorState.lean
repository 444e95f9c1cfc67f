import Bytestream.Proofs.Seeking
import Bytestream.Proofs.Usage

/-!
What an operation leaves as the error state. Whatever a stream does, the code that it reports is the
one that it keeps, unless it kept an earlier failure: then that one stays, and bytes are no longer
taken off the window.
-/

namespace Bytestream

/-- What a backend owes with a refill that it reports as done: a window that shows at least one byte
of its buffer and nothing beside it. -/
structure Window.FilledFrom {β : Type} [Backend β] (window : Window) (backend : β) : Prop where
  cursor_eq : window.cursor = window.start
  cursor_lt : window.cursor < window.stop
  inside : window.stop ≤ (Backend.buffer backend).length

namespace Stream

section Recording

variable {β : Type} (stream : Stream β)

/-- The error state once a code has been reported to it: the first failure stays. -/
def kept (code : Code) : Code :=
  if stream.errorState = .success then code else stream.errorState

/-- The outcome of a backend call as the stream reports it. Under an earlier failure a success counts
for nothing, and a failure for what it moved. -/
def reported (outcome : Outcome) : Outcome :=
  if stream.errorState = .success then outcome
  else if outcome.code = .success then .failed stream.errorState
  else outcome.withCode stream.errorState

/-- The stream with what a call made of its backend and its window. -/
def afterCall (made : β × Window) : Stream β := { stream with backend := made.1, window := made.2 }

variable {stream}

theorem kept_of_clean (hClean : stream.errorState = .success) (code : Code) :
    stream.kept code = code := if_pos hClean

theorem kept_of_failed (hFailed : stream.errorState ≠ .success) (code : Code) :
    stream.kept code = stream.errorState := if_neg hFailed

variable (stream)

@[simp] theorem kept_success : stream.kept .success = stream.errorState := by
  rw [kept]
  split
  · exact Eq.symm ‹_›
  · rfl

@[simp] theorem kept_kept (code : Code) : stream.kept (stream.kept code) = stream.kept code := by
  simp only [kept]
  split <;> rfl

theorem kept_ne_success {code : Code} (hCode : code ≠ .success) : stream.kept code ≠ .success := by
  rw [kept]
  split <;> assumption

theorem kept_code_reported (outcome : Outcome) :
    stream.kept (stream.reported outcome).code = stream.kept outcome.code := by
  rw [kept, kept, reported]
  split <;> rfl

theorem result_record (code : Code) :
    (record code).result stream =
      (.ok (stream.kept code), { stream with errorState := stream.kept code }) := by
  by_cases hClean : stream.errorState = .success
  · rw [result_record_of_clean hClean, kept_of_clean hClean]
  · rw [result_record_of_failed hClean, kept_of_failed hClean]

theorem result_conclude (outcome : Outcome) :
    (conclude outcome).result stream =
      (.ok (stream.reported outcome), { stream with errorState := stream.kept outcome.code }) := by
  by_cases hClean : stream.errorState = .success
  · rw [result_conclude_of_clean hClean, reported, if_pos hClean, kept_of_clean hClean]
  · rw [conclude, Action.result_bind_of_ok (stream.result_record outcome.code), reported,
      if_neg hClean, kept_of_failed hClean]
    by_cases hDone : outcome.code = .success
    · simp [Outcome.isDone, Code.isSuccess, hDone, hClean]
    · simp [Outcome.isDone, Code.isSuccess, hDone]

theorem result_unsupported :
    unsupported.result stream = (.ok (.failed .invalidOperation),
      { stream with errorState := stream.kept .invalidOperation }) := by
  rw [unsupported, Action.result_bind_of_ok (stream.result_record .invalidOperation),
    Action.result_pure]

theorem result_resetErrorState_of_healthy {stream : Stream β} (hHealthy : stream.failure = none) :
    Action.result resetErrorState stream =
      (.ok stream.errorState, { stream with errorState := .success }) := by
  rw [resetErrorState, Action.result_bind_of_ok (Action.result_state stream), if_neg (by simp [hHealthy])]
  rfl

theorem result_resetErrorState_of_failed {stream : Stream β} (hFailed : stream.failure ≠ none) :
    Action.result resetErrorState stream =
      (.ok stream.errorState,
        { stream with window := stream.window.exhaust, errorState := .success }) := by
  rw [resetErrorState, Action.result_bind_of_ok (Action.result_state stream),
    if_pos (Option.isSome_iff_ne_none.mpr hFailed)]
  rfl

theorem result_callOnWindow {α : Type} (operation : β → Window → Reply (β × Window) (Except Fault α)) :
    (callOnWindow operation).result stream =
      ((operation stream.backend stream.window).value,
        stream.afterCall (operation stream.backend stream.window).state) := rfl

theorem result_call_conclude (operation : β → Reply β Outcome) :
    Action.result (do conclude (← call operation)) stream =
      (.ok (stream.reported (operation stream.backend).value), { stream with
        backend := (operation stream.backend).state
        errorState := stream.kept (operation stream.backend).value.code }) :=
  result_conclude { stream with backend := (operation stream.backend).state } _

/-- Serving the stub and reporting a code keeps the code of the failure that the stream had, if it
had one. -/
theorem result_serveStub_record {α : Type} (code : Code) (next : Code → Op β α) :
    Action.result (do
      serveStub code
      let kept ← record code
      next kept) stream = (next (stream.kept code)).result { stream with
        failure := some (stream.failure.getD code)
        window := Window.whole stub.length
        errorState := stream.kept code } := by
  have hServe : (serveStub code).result stream = (.ok (), { stream with
      failure := some (stream.failure.getD code), window := Window.whole stub.length }) := by
    simp only [serveStub, Action.result_bind, Action.result_state, Action.result_emit,
      Action.result_modify]
  rw [Action.result_bind_of_ok hServe, Action.result_bind_of_ok (result_record _ code)]
  rfl

end Recording

section Equations

variable {β : Type} [Backend β] {stream : Stream β}

theorem size_of_offered (hOffers : stream.capabilities.size = true) :
    Action.result size stream =
      (.ok (stream.reported (Backend.size stream.backend).value), { stream with
        backend := (Backend.size stream.backend).state
        errorState := stream.kept (Backend.size stream.backend).value.code }) := by
  rw [size, Action.result_bind_of_ok (Action.result_state stream), if_pos hOffers]
  exact stream.result_call_conclude Backend.size

theorem size_of_absent (hAbsent : stream.capabilities.size = false) :
    Action.result size stream = Action.result unsupported stream := by
  rw [size, Action.result_bind_of_ok (Action.result_state stream), hAbsent]
  rfl

theorem write_of_offered {source : Bytes} (hSome : source ≠ [])
    (hOffers : stream.capabilities.write = true) :
    (write source).result stream =
      (.ok (stream.reported (Backend.write stream.backend source).value), { stream with
        backend := (Backend.write stream.backend source).state
        errorState := stream.kept (Backend.write stream.backend source).value.code }) := by
  rw [write, if_neg (by rwa [List.isEmpty_iff]),
    Action.result_bind_of_ok (Action.result_state stream), if_pos hOffers]
  exact stream.result_call_conclude (Backend.write · source)

theorem write_of_absent {source : Bytes} (hSome : source ≠ [])
    (hAbsent : stream.capabilities.write = false) :
    (write source).result stream = Action.result unsupported stream := by
  rw [write, if_neg (by rwa [List.isEmpty_iff]),
    Action.result_bind_of_ok (Action.result_state stream), hAbsent]
  rfl

theorem read_of_offered {count : Nat} (hSome : 0 < count) (hOffers : stream.capabilities.read = true) :
    (read count).result stream =
      (.ok { (Backend.read stream.backend count).value with
          outcome := stream.reported (Backend.read stream.backend count).value.outcome },
        { stream with
          backend := (Backend.read stream.backend count).state
          errorState := stream.kept (Backend.read stream.backend count).value.outcome.code }) := by
  have hCall : (call (Backend.read · count)).result stream =
      (.ok (Backend.read stream.backend count).value,
        { stream with backend := (Backend.read stream.backend count).state }) := rfl
  rw [read, if_neg (Nat.ne_of_gt hSome), Action.result_bind_of_ok (Action.result_state stream)]
  dsimp only
  rw [if_pos hOffers, Action.result_bind_of_ok hCall,
    Action.result_bind_of_ok (result_conclude _ _), Action.result_pure]
  rfl

theorem read_of_absent {count : Nat} (hSome : 0 < count) (hAbsent : stream.capabilities.read = false)
    (hUnbuffered : stream.capabilities.bufferedRead = false) :
    (read count).result stream = Action.result (do return .none (← unsupported)) stream := by
  rw [read, if_neg (Nat.ne_of_gt hSome), Action.result_bind_of_ok (Action.result_state stream)]
  dsimp only
  rw [hAbsent, hUnbuffered]
  rfl

theorem bufferedRead_of_absent {count : Nat} (hSome : 0 < count)
    (hAbsent : stream.capabilities.bufferedRead = false) :
    (bufferedRead count).result stream = Action.result (do return .none (← unsupported)) stream := by
  rw [bufferedRead, if_neg (Nat.ne_of_gt hSome),
    Action.result_bind_of_ok (Action.result_state stream), hAbsent]
  rfl

theorem seek_of_absent (hAbsent : stream.capabilities.seek = false) (offset : Int) (origin : Origin) :
    (seek offset origin).result stream = Action.result unsupported stream := by
  rw [seek, Action.result_bind_of_ok (Action.result_state stream), hAbsent]
  rfl

/-- A seek on a stream that failed for good reports the failure and shows the stub again. -/
theorem seek_of_failure {code : Code} (hOffers : stream.capabilities.seek = true)
    (hFailure : stream.failure = some code) (offset : Int) (origin : Origin) :
    (seek offset origin).result stream = (.ok (.failed code), { stream with
      window := Window.whole stub.length
      errorState := stream.kept code }) := by
  rw [seek, Action.result_bind_of_ok (Action.result_state stream), if_pos hOffers, hFailure]
  refine (stream.result_serveStub_record code fun _ => pure (Outcome.failed code)).trans ?_
  rw [Action.result_pure, hFailure, Option.getD_some]

/-- A seek that the backend answers is reported like any other backend call. -/
theorem seek_of_answered {offset : Int} {origin : Origin} {outcome : Outcome}
    (hOffers : stream.capabilities.seek = true) (hHealthy : stream.failure = none)
    (hAnswer : (Backend.seek stream.backend stream.window offset origin).value = .ok outcome) :
    (seek offset origin).result stream = (.ok (stream.reported outcome),
      { stream.afterCall (Backend.seek stream.backend stream.window offset origin).state with
        errorState := stream.kept outcome.code }) := by
  rw [seek_eq_call hOffers hHealthy, Action.result_bind, result_callOnWindow, hAnswer]
  exact result_conclude _ outcome

/-- A seek that the backend breaks off stops the stream where it is. -/
theorem seek_of_breach {offset : Int} {origin : Origin} {fault : Fault}
    (hOffers : stream.capabilities.seek = true) (hHealthy : stream.failure = none)
    (hBreach : (Backend.seek stream.backend stream.window offset origin).value = .error fault) :
    (seek offset origin).result stream = (.error fault,
      stream.afterCall (Backend.seek stream.backend stream.window offset origin).state) := by
  rw [seek_eq_call hOffers hHealthy, Action.result_bind, result_callOnWindow, hBreach]

end Equations

section Refills

variable {β : Type} [Backend β] {stream after : Stream β} {code : Code}

/-- The ways in which a refill returns: it is not offered, the stream failed for good before, the
backend brought something in, or it failed. -/
inductive Refilled (stream : Stream β) : Code → Stream β → Prop where
  | absent (hAbsent : stream.capabilities.bufferedRead = false) :
      Refilled stream .invalidOperation
        { stream with errorState := stream.kept .invalidOperation }
  | served {code : Code} (hFailure : stream.failure = some code) :
      Refilled stream code { stream with
        window := Window.whole stub.length
        errorState := stream.kept code }
  | filled (hHealthy : stream.failure = none)
      (hFilled : (Backend.refill stream.backend stream.window).state.2.FilledFrom
        (Backend.refill stream.backend stream.window).state.1) :
      Refilled stream .success
        (stream.afterCall (Backend.refill stream.backend stream.window).state)
  | failed {code : Code} (hHealthy : stream.failure = none) (hCode : code ≠ .success) :
      Refilled stream (stream.kept code) { stream with
        backend := (Backend.refill stream.backend stream.window).state.1
        window := Window.whole stub.length
        failure := some code
        errorState := stream.kept code }

theorem Refilled.errorState_eq (hRefilled : stream.Refilled code after) :
    after.errorState = stream.kept code := by
  cases hRefilled with
  | absent => rfl
  | served => rfl
  | filled => exact stream.kept_success.symm
  | failed => exact (stream.kept_kept _).symm

theorem refill_of_absent (hAbsent : stream.capabilities.bufferedRead = false) :
    Action.result refill stream =
      (.ok .invalidOperation, { stream with errorState := stream.kept .invalidOperation }) := by
  rw [refill, Action.result_bind_of_ok (Action.result_state stream), hAbsent]
  exact Action.result_bind_of_ok stream.result_unsupported _

theorem refill_of_unread (hOffers : stream.capabilities.bufferedRead = true)
    (hUnread : stream.window.exhausted = false) :
    Action.result refill stream = (.error (.refillUnexhausted stream.available), stream) := by
  rw [refill, Action.result_bind_of_ok (Action.result_state stream), hOffers, hUnread]
  rfl

/-- A stream that failed for good meets the failure again. -/
theorem refill_of_served (hOffers : stream.capabilities.bufferedRead = true)
    (hExhausted : stream.window.exhausted = true) (hFailure : stream.failure = some code) :
    Action.result refill stream = (.ok code, { stream with
      window := Window.whole stub.length
      errorState := stream.kept code }) := by
  rw [refill, Action.result_bind_of_ok (Action.result_state stream), hOffers, hExhausted, hFailure]
  refine (stream.result_serveStub_record code fun _ => pure code).trans ?_
  rw [Action.result_pure, hFailure, Option.getD_some]

/-- A refill that the backend breaks off stops the stream where it is. -/
theorem refill_of_breach {fault : Fault} (hOffers : stream.capabilities.bufferedRead = true)
    (hExhausted : stream.window.exhausted = true) (hHealthy : stream.failure = none)
    (hBreach : (Backend.refill stream.backend stream.window).value = .error fault) :
    Action.result refill stream =
      (.error fault, stream.afterCall (Backend.refill stream.backend stream.window).state) := by
  rw [refill_eq_call hOffers hExhausted hHealthy, Action.result_bind, result_callOnWindow, hBreach]

/-- A refill that fails is final. -/
theorem refill_of_rejected (hOffers : stream.capabilities.bufferedRead = true)
    (hExhausted : stream.window.exhausted = true) (hHealthy : stream.failure = none)
    (hCode : code ≠ .success)
    (hAnswer : (Backend.refill stream.backend stream.window).value = .ok code) :
    Action.result refill stream = (.ok (stream.kept code), { stream with
      backend := (Backend.refill stream.backend stream.window).state.1
      window := Window.whole stub.length
      failure := some code
      errorState := stream.kept code }) := by
  rw [refill_eq_call hOffers hExhausted hHealthy, Action.result_bind, result_callOnWindow, hAnswer]
  dsimp only
  rw [if_neg (by rwa [Code.isSuccess_iff]), Action.result_bind_of_ok (Action.result_emit _ _)]
  have hServed := result_serveStub_record
    (stream.afterCall (Backend.refill stream.backend stream.window).state) code pure
  rw [bind_pure] at hServed
  rw [hServed, Action.result_pure]
  simp only [afterCall, hHealthy, Option.getD_none]
  rfl

/-- The check of a refill only looks at the stream, and passes exactly where the window shows
something of the buffer. -/
theorem result_checkRefilled (stream : Stream β) :
    stream.window.FilledFrom stream.backend ∧ checkRefilled.result stream = (.ok (), stream) ∨
      ¬stream.window.FilledFrom stream.backend ∧
        ∃ fault, checkRefilled.result stream = (.error fault, stream) := by
  rw [checkRefilled, Action.result_bind_of_ok (Action.result_state stream)]
  dsimp only
  split
  · exact .inr ⟨fun hFilled => by have := hFilled.cursor_lt; have := hFilled.cursor_eq; omega, _, rfl⟩
  · split
    · exact .inr ⟨fun hFilled => by have := hFilled.inside; omega, _, rfl⟩
    · exact .inl ⟨⟨by omega, by omega, by omega⟩, rfl⟩

/-- A refill that the backend reports as done is checked. -/
theorem refill_of_done (hOffers : stream.capabilities.bufferedRead = true)
    (hExhausted : stream.window.exhausted = true) (hHealthy : stream.failure = none)
    (hAnswer : (Backend.refill stream.backend stream.window).value = .ok .success) :
    Action.result refill stream = Action.result (do
      checkRefilled
      return .success) (stream.afterCall (Backend.refill stream.backend stream.window).state) := by
  rw [refill_eq_call hOffers hExhausted hHealthy, Action.result_bind, result_callOnWindow, hAnswer]
  rfl

/-- A refill that is done as it should be leaves what the backend made of the stream. -/
theorem refill_of_filled (hOffers : stream.capabilities.bufferedRead = true)
    (hExhausted : stream.window.exhausted = true) (hHealthy : stream.failure = none)
    (hAnswer : (Backend.refill stream.backend stream.window).value = .ok .success)
    (hFilled : (Backend.refill stream.backend stream.window).state.2.FilledFrom
      (Backend.refill stream.backend stream.window).state.1) :
    Action.result refill stream =
      (.ok .success, stream.afterCall (Backend.refill stream.backend stream.window).state) := by
  rw [refill_of_done hOffers hExhausted hHealthy hAnswer]
  rcases result_checkRefilled
    (stream.afterCall (Backend.refill stream.backend stream.window).state) with
    ⟨-, hPassed⟩ | ⟨hUnfilled, -⟩
  · rw [Action.result_bind_of_ok hPassed, Action.result_pure]
  · exact absurd hFilled hUnfilled

theorem refilled_of_call (hOffers : stream.capabilities.bufferedRead = true)
    (hExhausted : stream.window.exhausted = true) (hHealthy : stream.failure = none)
    (hRun : Action.result refill stream = (.ok code, after)) : stream.Refilled code after := by
  cases hAnswer : (Backend.refill stream.backend stream.window).value with
  | error fault =>
      rw [refill_of_breach hOffers hExhausted hHealthy hAnswer] at hRun
      cases hRun
  | ok answer =>
      by_cases hCode : answer = .success
      · rw [refill_of_done hOffers hExhausted hHealthy (hCode ▸ hAnswer)] at hRun
        obtain ⟨_, last, hCheck, hDone⟩ := Action.ok_of_bind hRun
        cases hDone
        rcases result_checkRefilled
          (stream.afterCall (Backend.refill stream.backend stream.window).state) with
          ⟨hFilled, hPassed⟩ | ⟨-, fault, hStopped⟩
        · rw [hPassed] at hCheck
          cases hCheck
          exact .filled hHealthy hFilled
        · rw [hStopped] at hCheck
          cases hCheck
      · rw [refill_of_rejected hOffers hExhausted hHealthy hCode hAnswer] at hRun
        cases hRun
        exact .failed hHealthy hCode

theorem refilled_of_result (hRun : Action.result refill stream = (.ok code, after)) :
    stream.Refilled code after := by
  cases hOffers : stream.capabilities.bufferedRead with
  | false =>
      rw [refill_of_absent hOffers] at hRun
      cases hRun
      exact .absent hOffers
  | true =>
      cases hExhausted : stream.window.exhausted with
      | false =>
          rw [refill_of_unread hOffers hExhausted] at hRun
          cases hRun
      | true =>
          cases hFailure : stream.failure with
          | none => exact refilled_of_call hOffers hExhausted hFailure hRun
          | some kept =>
              rw [refill_of_served hOffers hExhausted hFailure] at hRun
              cases hRun
              exact .served hFailure

/-- A refill of a healthy stream returns in one of its ways, or stops where the backend left off. -/
theorem refill_returns_or_stops (hOffers : stream.capabilities.bufferedRead = true)
    (hExhausted : stream.window.exhausted = true) (hHealthy : stream.failure = none) :
    (∃ code after, Action.result refill stream = (.ok code, after) ∧ stream.Refilled code after) ∨
      ∃ fault, Action.result refill stream =
        (.error fault, stream.afterCall (Backend.refill stream.backend stream.window).state) := by
  cases hRun : Action.result refill stream with
  | mk value after =>
      cases value with
      | ok code => exact .inl ⟨code, after, rfl, refilled_of_result hRun⟩
      | error fault =>
          refine .inr ⟨fault, ?_⟩
          cases hAnswer : (Backend.refill stream.backend stream.window).value with
          | error breach =>
              rw [refill_of_breach hOffers hExhausted hHealthy hAnswer] at hRun
              cases hRun
              rfl
          | ok code =>
              by_cases hCode : code = .success
              · rw [refill_of_done hOffers hExhausted hHealthy (hCode ▸ hAnswer)] at hRun
                rcases result_checkRefilled
                  (stream.afterCall (Backend.refill stream.backend stream.window).state) with
                  ⟨-, hPassed⟩ | ⟨-, unfilled, hStopped⟩
                · rw [Action.result_bind_of_ok hPassed] at hRun
                  cases hRun
                · rw [Action.result_bind_of_error hStopped] at hRun
                  cases hRun
                  rfl
              · rw [refill_of_rejected hOffers hExhausted hHealthy hCode hAnswer] at hRun
                cases hRun

theorem errorState_of_refillIfExhausted (hFailed : stream.errorState ≠ .success)
    (hRun : Action.result refillIfExhausted stream = (.ok (), after)) :
    after.errorState = stream.errorState := by
  cases hExhausted : stream.window.exhausted with
  | false =>
      rw [refillIfExhausted_of_unread hExhausted] at hRun
      cases hRun
      rfl
  | true =>
      rw [refillIfExhausted, Action.result_bind_of_ok (Action.result_state stream),
        if_pos hExhausted] at hRun
      obtain ⟨code, last, hRefill, hDone⟩ := Action.ok_of_bind hRun
      rw [Action.result_pure] at hDone
      cases hDone
      rw [(refilled_of_result hRefill).errorState_eq, kept_of_failed hFailed]

end Refills

section Copies

variable {β : Type} [Backend β] {stream after : Stream β} {count : Nat}

/-- Under an error nothing is taken off the window, whatever it shows. -/
theorem takeBuffered_under_error {rounds : Nat} {bytes : Bytes} (hWanted : 0 < count)
    (hFailed : stream.errorState ≠ .success)
    (hRun : (takeBuffered (rounds + 1) count).result stream = (.ok bytes, after)) :
    bytes = [] ∧ after.errorState = stream.errorState := by
  have hRound := hRun
  rw [takeBuffered_of_pos hWanted] at hRound
  obtain ⟨_, last, hRefill, -⟩ := Action.ok_of_bind hRound
  have hKept := errorState_of_refillIfExhausted hFailed hRefill
  rw [takeBuffered_of_failing hWanted hRefill (by rwa [hKept])] at hRun
  cases hRun
  exact ⟨rfl, hKept⟩

/-- A read through the window reports the error state that it leaves. -/
theorem taken_of_bufferedRead {transfer : Transfer} (hSome : 0 < count)
    (hOffers : stream.capabilities.bufferedRead = true)
    (hRun : (bufferedRead count).result stream = (.ok transfer, after)) :
    ∃ bytes, (takeBuffered count count).result stream = (.ok bytes, after) ∧
      transfer = ⟨.report bytes.length after.errorState, bytes⟩ := by
  rw [bufferedRead, if_neg (Nat.ne_of_gt hSome),
    Action.result_bind_of_ok (Action.result_state stream), if_pos hOffers] at hRun
  obtain ⟨bytes, last, hTaken, hDone⟩ := Action.ok_of_bind hRun
  cases hDone
  exact ⟨bytes, hTaken, rfl⟩

/-- Under an error a read through the window moves nothing and reports the error. -/
theorem bufferedRead_under_error {transfer : Transfer} (hSome : 0 < count)
    (hOffers : stream.capabilities.bufferedRead = true) (hFailed : stream.errorState ≠ .success)
    (hRun : (bufferedRead count).result stream = (.ok transfer, after)) :
    transfer = .none (.failed stream.errorState) ∧ after.errorState = stream.errorState := by
  obtain ⟨bytes, hTaken, rfl⟩ := taken_of_bufferedRead hSome hOffers hRun
  obtain ⟨rounds, rfl⟩ : ∃ rounds, count = rounds + 1 := ⟨count - 1, by omega⟩
  obtain ⟨rfl, hKept⟩ := takeBuffered_under_error hSome hFailed hTaken
  exact ⟨by rw [hKept]; rfl, hKept⟩

end Copies

section Steps

variable {β : Type} [Backend β] {stream after : Stream β} {outcome : Outcome} {transfer : Transfer}
variable {count : Nat}

omit [Backend β] in
theorem errorState_of_unsupported (hRun : Action.result unsupported stream = (.ok outcome, after)) :
    after.errorState = stream.kept outcome.code := by
  rw [result_unsupported] at hRun
  cases hRun
  rfl

theorem errorState_of_size (hRun : Action.result size stream = (.ok outcome, after)) :
    after.errorState = stream.kept outcome.code := by
  cases hOffers : stream.capabilities.size with
  | false => exact errorState_of_unsupported (size_of_absent hOffers ▸ hRun)
  | true =>
      rw [size_of_offered hOffers] at hRun
      cases hRun
      exact (stream.kept_code_reported _).symm

theorem errorState_of_write {source : Bytes}
    (hRun : (write source).result stream = (.ok outcome, after)) :
    after.errorState = stream.kept outcome.code := by
  by_cases hNone : source = []
  · subst hNone
    cases hRun
    exact stream.kept_success.symm
  · cases hOffers : stream.capabilities.write with
    | false => exact errorState_of_unsupported (write_of_absent hNone hOffers ▸ hRun)
    | true =>
        rw [write_of_offered hNone hOffers] at hRun
        cases hRun
        exact (stream.kept_code_reported _).symm

theorem errorState_of_seek {offset : Int} {origin : Origin}
    (hRun : (seek offset origin).result stream = (.ok outcome, after)) :
    after.errorState = stream.kept outcome.code := by
  cases hOffers : stream.capabilities.seek with
  | false => exact errorState_of_unsupported (seek_of_absent hOffers offset origin ▸ hRun)
  | true =>
      cases hFailure : stream.failure with
      | some code =>
          rw [seek_of_failure hOffers hFailure] at hRun
          cases hRun
          rfl
      | none =>
          cases hAnswer : (Backend.seek stream.backend stream.window offset origin).value with
          | error fault =>
              rw [seek_of_breach hOffers hFailure hAnswer] at hRun
              cases hRun
          | ok answer =>
              rw [seek_of_answered hOffers hFailure hAnswer] at hRun
              cases hRun
              exact (stream.kept_code_reported _).symm

omit [Backend β] in
/-- A refused transfer moves nothing. -/
theorem errorState_of_refused_transfer
    (hRun : Action.result (do return Transfer.none (← unsupported)) stream = (.ok transfer, after)) :
    after.errorState = stream.kept transfer.outcome.code := by
  rw [Action.result_bind_of_ok stream.result_unsupported, Action.result_pure] at hRun
  cases hRun
  rfl

theorem errorState_of_bufferedRead
    (hRun : (bufferedRead count).result stream = (.ok transfer, after)) :
    after.errorState = stream.kept transfer.outcome.code := by
  rcases Nat.eq_zero_or_pos count with rfl | hSome
  · cases hRun
    exact stream.kept_success.symm
  · cases hOffers : stream.capabilities.bufferedRead with
    | false => exact errorState_of_refused_transfer (bufferedRead_of_absent hSome hOffers ▸ hRun)
    | true =>
        by_cases hClean : stream.errorState = .success
        · obtain ⟨bytes, -, rfl⟩ := taken_of_bufferedRead hSome hOffers hRun
          exact (kept_of_clean hClean _).symm
        · obtain ⟨rfl, hKept⟩ := bufferedRead_under_error hSome hOffers hClean hRun
          rw [hKept, kept_of_failed hClean]

theorem errorState_of_read (hRun : (read count).result stream = (.ok transfer, after)) :
    after.errorState = stream.kept transfer.outcome.code := by
  rcases Nat.eq_zero_or_pos count with rfl | hSome
  · cases hRun
    exact stream.kept_success.symm
  · cases hDirect : stream.capabilities.read with
    | true =>
        rw [read_of_offered hSome hDirect] at hRun
        cases hRun
        exact (stream.kept_code_reported _).symm
    | false =>
        cases hOffers : stream.capabilities.bufferedRead with
        | false =>
            exact errorState_of_refused_transfer (read_of_absent hSome hDirect hOffers ▸ hRun)
        | true =>
            exact errorState_of_bufferedRead (read_of_window_only ⟨hDirect, hOffers⟩ hSome ▸ hRun)

end Steps

end Stream

/-- What every operation of the stream does to the error state: it keeps the code that the operation
reports, unless it kept an earlier one. -/
theorem Operation.errorState_of_perform {β : Type} [Backend β] {stream after : Stream β}
    {outcome : Outcome} (operation : Operation)
    (hRun : operation.perform.result stream = (.ok outcome, after)) :
    after.errorState = stream.kept outcome.code := by
  -- Reads and refills yield more than an outcome, or less; the rest is what the stream reports.
  have hOutcome {α : Type} {action : Stream.Op β α} {outcomeOf : α → Outcome}
      (hRecords : ∀ {value}, action.result stream = (.ok value, after) →
        after.errorState = stream.kept (outcomeOf value).code)
      (hDone : Action.result (do return outcomeOf (← action)) stream = (.ok outcome, after)) :
      after.errorState = stream.kept outcome.code := by
    obtain ⟨value, last, hAction, hYielded⟩ := Action.ok_of_bind hDone
    cases hYielded
    exact hRecords hAction
  cases operation with
  | size => exact Stream.errorState_of_size hRun
  | read count => exact hOutcome Stream.errorState_of_read hRun
  | bufferedRead count => exact hOutcome Stream.errorState_of_bufferedRead hRun
  | write source => exact Stream.errorState_of_write hRun
  | seek offset origin => exact Stream.errorState_of_seek hRun
  | position => exact Stream.errorState_of_seek hRun
  | refill =>
      exact hOutcome (fun hRefill => (Stream.refilled_of_result hRefill).errorState_eq) hRun

end Bytestream
