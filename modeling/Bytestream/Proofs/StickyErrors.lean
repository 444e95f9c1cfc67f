import Bytestream.Backend.Region
import Bytestream.Proofs.ErrorState

/-!
The first failure of a stream sticks. From it on every operation reports its code, whatever the
backend makes of the call, and the only magnitude that still shows is what a failing call of that
very operation moved.
-/

namespace Bytestream

/-- A refill of this stream, if its backend is asked for one, is answered within the contract. -/
def Stream.RefillHonoured {β : Type} [Backend β] (stream : Stream β) : Prop :=
  ∃ code, (Backend.refill stream.backend stream.window).value = .ok code ∧
    (code = .success → (Backend.refill stream.backend stream.window).state.2.FilledFrom
      (Backend.refill stream.backend stream.window).state.1)

/-- The backend leaves the window valid when it seeks. -/
def Stream.SeekHonoured {β : Type} [Backend β] (stream : Stream β) (offset : Int)
    (origin : Origin) : Prop :=
  ∃ outcome, (Backend.seek stream.backend stream.window offset origin).value = .ok outcome

namespace Operation

/-- What a list of operations reports, in order. Each meets the stream that those before it left. -/
def performAll {β : Type} [Backend β] : List Operation → Stream.Op β (List Outcome)
  | [] => pure []
  | operation :: later => do
      let outcome ← operation.perform
      let outcomes ← performAll later
      return outcome :: outcomes

/-- The transfer has nothing to move. -/
def IsEmpty : Operation → Prop
  | read count | bufferedRead count => count = 0
  | write source => source = []
  | _ => False

/-- The operation is supported under these capabilities. -/
def Supported (capabilities : Capabilities) : Operation → Prop
  | size => capabilities.size = true
  | read _ => capabilities.canRead = true
  | bufferedRead _ | refill => capabilities.bufferedRead = true
  | write _ => capabilities.write = true
  | seek _ _ | position => capabilities.seek = true

section Answers

variable {β : Type} [Backend β]

/-- The outcome of the backend call that the operation makes by itself. Reads through the window
copy from it and have no such call. -/
def ownOutcome? (stream : Stream β) : Operation → Option Outcome
  | size => some (Backend.size stream.backend).value
  | read count =>
      if stream.capabilities.read then some (Backend.read stream.backend count).value.outcome
      else none
  | bufferedRead _ | refill => none
  | write source => some (Backend.write stream.backend source).value
  | seek offset origin => (Backend.seek stream.backend stream.window offset origin).value.toOption
  | position => (Backend.seek stream.backend stream.window 0 .current).value.toOption

/-- What a failing backend call of the operation moved, and zero without one. -/
def movedByFailure (stream : Stream β) (operation : Operation) : Nat :=
  match operation.ownOutcome? stream with
  | some outcome => if outcome.code = .success then 0 else outcome.value
  | none => 0

/-- The backend keeps to the contract of the window in the call that the operation makes. -/
def Honoured (stream : Stream β) : Operation → Prop
  | size | write _ => True
  | read _ =>
      stream.capabilities.read = false → stream.window.exhausted = true → stream.RefillHonoured
  | bufferedRead _ | refill => stream.window.exhausted = true → stream.RefillHonoured
  | seek offset origin => stream.SeekHonoured offset origin
  | position => stream.SeekHonoured 0 .current

/-- The operation reports the error of the stream with what its own failing call moved. It stops
short of that only where the backend breaches the contract of the window in that call. -/
def ReportsError (stream : Stream β) (operation : Operation) : Prop :=
  (∃ outcome after, operation.perform.result stream = (.ok outcome, after) ∧
    outcome.code = stream.errorState ∧ outcome.value = operation.movedByFailure stream) ∨
  ¬operation.Honoured stream ∧ ∃ fault after,
    operation.perform.result stream = (.error fault, after) ∧
      after.errorState = stream.errorState

end Answers

end Operation

namespace Stream

variable {β : Type} [Backend β] {stream after : Stream β}

/-- The stream is under this error for good, as far as no reset takes it away. -/
structure StuckAt (stream : Stream β) (code : Code) : Prop where
  errorState_eq : stream.errorState = code
  later : ∀ operations outcomes after,
    (Operation.performAll operations).result stream = (.ok outcomes, after) →
      after.errorState = code
  unsupported : ∀ operation : Operation, ¬operation.IsEmpty →
    ¬operation.Supported stream.capabilities →
      operation.perform.result stream = (.ok (.failed .invalidOperation), stream)
  supported : stream.failure = none → ∀ operation : Operation, operation ≠ .refill →
    ¬operation.IsEmpty → operation.Supported stream.capabilities → operation.ReportsError stream

omit [Backend β] in
/-- What is kept of two codes is kept of the first of them that is a failure. -/
theorem kept_of_errorState {middle : Stream β} {first : Code}
    (hFirst : middle.errorState = stream.kept first) (later : Code) :
    middle.kept later = stream.kept (if first = .success then later else first) := by
  by_cases hClean : stream.errorState = .success
  · rw [kept_of_clean hClean] at hFirst
    rw [kept_of_clean hClean, kept, hFirst]
  · rw [kept_of_failed hClean] at hFirst
    rw [kept_of_failed (by rwa [hFirst]), kept_of_failed hClean, hFirst]

/-- A refill of an exhausted window that did not fail for good yet stops only where the backend
breaches the contract, and keeps the error state there. -/
theorem refill_returns_or_breaches (hOffers : stream.capabilities.bufferedRead = true)
    (hExhausted : stream.window.exhausted = true) (hHealthy : stream.failure = none) :
    (∃ code after, Action.result refill stream = (.ok code, after)) ∨
    ¬stream.RefillHonoured ∧ ∃ fault after, Action.result refill stream = (.error fault, after) ∧
      after.errorState = stream.errorState := by
  cases hAnswer : (Backend.refill stream.backend stream.window).value with
  | error fault =>
      refine .inr ⟨?_, fault, _, refill_of_breach hOffers hExhausted hHealthy hAnswer, rfl⟩
      rintro ⟨code, hCode, -⟩
      rw [hAnswer] at hCode
      cases hCode
  | ok code =>
      by_cases hCode : code = .success
      · subst hCode
        rw [refill_of_done hOffers hExhausted hHealthy hAnswer]
        rcases result_checkRefilled
          (stream.afterCall (Backend.refill stream.backend stream.window).state) with
          ⟨-, hPassed⟩ | ⟨hUnfilled, fault, hStopped⟩
        · exact .inl ⟨_, _, Action.result_bind_of_ok hPassed _⟩
        · refine .inr ⟨?_, fault, _, Action.result_bind_of_error hStopped _, rfl⟩
          rintro ⟨code, hCode, hFilled⟩
          rw [hAnswer] at hCode
          cases hCode
          exact hUnfilled (hFilled rfl)
      · exact .inl ⟨_, _, refill_of_rejected hOffers hExhausted hHealthy hCode hAnswer⟩

section UnderError

variable (hFailed : stream.errorState ≠ .success)

include hFailed

omit [Backend β] in
/-- Under an error the outcome of a backend call shows the error, and of a failure what it moved. -/
theorem reported_under_error (outcome : Outcome) :
    (stream.reported outcome).code = stream.errorState ∧
      (stream.reported outcome).value = if outcome.code = .success then 0 else outcome.value := by
  rw [reported, if_neg hFailed]
  by_cases hDone : outcome.code = .success
  · rw [if_pos hDone, if_pos hDone]
    exact ⟨rfl, rfl⟩
  · rw [if_neg hDone, if_neg hDone]
    exact ⟨rfl, rfl⟩

omit [Backend β] in
theorem unsupported_under_error :
    Action.result unsupported stream = (.ok (.failed .invalidOperation), stream) := by
  rw [result_unsupported, kept_of_failed hFailed]

/-- A read through the window under an error asks for a refill where nothing is unread, and copies
nothing. -/
theorem bufferedRead_reports {count : Nat} (hSome : 0 < count)
    (hOffers : stream.capabilities.bufferedRead = true) (hHealthy : stream.failure = none) :
    (∃ after, (bufferedRead count).result stream =
      (.ok (.none (.failed stream.errorState)), after)) ∨
    ¬(stream.window.exhausted = true → stream.RefillHonoured) ∧ ∃ fault after,
      (bufferedRead count).result stream = (.error fault, after) ∧
        after.errorState = stream.errorState := by
  obtain ⟨rounds, rfl⟩ : ∃ rounds, count = rounds + 1 := ⟨count - 1, by omega⟩
  have hRead {ready : Stream β} (hReady : Action.result refillIfExhausted stream = (.ok (), ready)) :
      (bufferedRead (rounds + 1)).result stream =
        (.ok (.none (.failed stream.errorState)), ready) := by
    have hKept := errorState_of_refillIfExhausted hFailed hReady
    rw [bufferedRead_of_taken hOffers hSome
      (takeBuffered_of_failing hSome hReady (by rwa [hKept])), hKept]
    rfl
  cases hExhausted : stream.window.exhausted with
  | false => exact .inl ⟨stream, hRead (refillIfExhausted_of_unread hExhausted)⟩
  | true =>
      rcases refill_returns_or_breaches hOffers hExhausted hHealthy with
        ⟨code, ready, hRefill⟩ | ⟨hBreach, fault, last, hRefill, hKept⟩
      · exact .inl ⟨ready, hRead (refillIfExhausted_of_refill hExhausted hRefill)⟩
      · refine .inr ⟨fun hHonoured => hBreach (hHonoured rfl), fault, last, ?_, hKept⟩
        have hRound : Action.result refillIfExhausted stream = (.error fault, last) := by
          rw [refillIfExhausted, Action.result_bind_of_ok (Action.result_state stream),
            if_pos hExhausted, Action.result_bind_of_error hRefill]
        rw [bufferedRead, if_neg (Nat.ne_of_gt hSome),
          Action.result_bind_of_ok (Action.result_state stream), if_pos hOffers]
        apply Action.result_bind_of_error
        rw [takeBuffered_of_pos hSome, Action.result_bind_of_error hRound]

end UnderError

end Stream

namespace Operation

variable {β : Type} [Backend β] {start stream after reached : Stream β}

/-- The first code that is a failure, and success where there is none. -/
def firstFailure (outcomes : List Outcome) : Code :=
  ((outcomes.map Outcome.code).find? (· ≠ .success)).getD .success

theorem firstFailure_cons (outcome : Outcome) (later : List Outcome) :
    firstFailure (outcome :: later) =
      if outcome.code = .success then firstFailure later else outcome.code := by
  by_cases hDone : outcome.code = .success <;> simp [firstFailure, hDone]

/-- A run keeps the first failure that it reports, unless the stream kept one from before. The
induction is on the operations, with the step for each. -/
theorem errorState_of_performAll {operations : List Operation} {outcomes : List Outcome}
    (hRun : (performAll operations).result stream = (.ok outcomes, after)) :
    after.errorState = stream.kept (firstFailure outcomes) := by
  induction operations generalizing stream outcomes with
  | nil =>
      cases hRun
      exact stream.kept_success.symm
  | cons operation later ih =>
      obtain ⟨outcome, middle, hFirst, hRest⟩ := Action.ok_of_bind hRun
      obtain ⟨others, last, hLater, hDone⟩ := Action.ok_of_bind hRest
      cases hDone
      rw [ih hLater, Stream.kept_of_errorState (operation.errorState_of_perform hFirst),
        firstFailure_cons]

section UnderError

variable (hFailed : stream.errorState ≠ .success)

include hFailed

theorem refused_under_error {operation : Operation} (hSome : ¬operation.IsEmpty)
    (hAbsent : ¬operation.Supported stream.capabilities) :
    operation.perform.result stream = (.ok (.failed .invalidOperation), stream) := by
  have hRefused := Stream.unsupported_under_error hFailed
  have hTransfer : Action.result (do return Transfer.none (← Stream.unsupported)) stream =
      (.ok (.none (.failed .invalidOperation)), stream) :=
    Action.result_bind_of_ok hRefused _
  cases operation with
  | size => rw [perform, Stream.size_of_absent (by simpa [Supported] using hAbsent), hRefused]
  | read count =>
      obtain ⟨hDirect, hBuffered⟩ : stream.capabilities.read = false ∧
          stream.capabilities.bufferedRead = false := by
        simpa [Supported, Capabilities.canRead] using hAbsent
      have hRead := Stream.read_of_absent (Nat.pos_of_ne_zero hSome) hDirect hBuffered
      exact Action.result_bind_of_ok (hRead.trans hTransfer) _
  | bufferedRead count =>
      have hRead := Stream.bufferedRead_of_absent (Nat.pos_of_ne_zero hSome)
        (by simpa [Supported] using hAbsent)
      exact Action.result_bind_of_ok (hRead.trans hTransfer) _
  | write source =>
      rw [perform, Stream.write_of_absent hSome (by simpa [Supported] using hAbsent), hRefused]
  | seek offset origin =>
      rw [perform, Stream.seek_of_absent (by simpa [Supported] using hAbsent), hRefused]
  | position =>
      rw [perform, Stream.position, Stream.seek_of_absent (by simpa [Supported] using hAbsent),
        hRefused]
  | refill =>
      have hRefill := Stream.refill_of_absent (by simpa [Supported] using hAbsent)
      rw [Stream.kept_of_failed hFailed] at hRefill
      exact Action.result_bind_of_ok hRefill _

/-- A read through the window makes no call that moves anything by itself. -/
theorem bufferedRead_reportsError {count : Nat} (hSome : 0 < count)
    (hOffers : stream.capabilities.bufferedRead = true) (hHealthy : stream.failure = none) :
    (bufferedRead count).ReportsError stream := by
  rcases Stream.bufferedRead_reports hFailed hSome hOffers hHealthy with
    ⟨after, hRead⟩ | ⟨hBreach, fault, last, hRead, hKept⟩
  · exact .inl ⟨_, after, Action.result_bind_of_ok hRead _, rfl, rfl⟩
  · exact .inr ⟨hBreach, fault, last, Action.result_bind_of_error hRead _, hKept⟩

theorem read_reportsError {count : Nat} (hSome : 0 < count)
    (hOffers : stream.capabilities.canRead = true) (hHealthy : stream.failure = none) :
    (read count).ReportsError stream := by
  cases hDirect : stream.capabilities.read with
  | true =>
      obtain ⟨hCode, hValue⟩ := Stream.reported_under_error hFailed
        (Backend.read stream.backend count).value.outcome
      refine .inl ⟨_, _, Action.result_bind_of_ok (Stream.read_of_offered hSome hDirect) _, hCode, ?_⟩
      rw [movedByFailure, ownOutcome?, if_pos hDirect]
      exact hValue
  | false =>
      have hBuffered : stream.capabilities.bufferedRead = true := by
        simpa [Capabilities.canRead, hDirect] using hOffers
      have hSame := Stream.read_of_window_only ⟨hDirect, hBuffered⟩ hSome
      rcases Stream.bufferedRead_reports hFailed hSome hBuffered hHealthy with
        ⟨after, hRead⟩ | ⟨hBreach, fault, last, hRead, hKept⟩
      · refine .inl ⟨_, after, Action.result_bind_of_ok (hSame.trans hRead) _, rfl, ?_⟩
        rw [movedByFailure, ownOutcome?, hDirect]
        rfl
      · exact .inr ⟨fun hHonoured => hBreach (hHonoured hDirect), fault, last,
          Action.result_bind_of_error (hSame.trans hRead) _, hKept⟩

theorem seek_reportsError (offset : Int) (origin : Origin)
    (hOffers : stream.capabilities.seek = true) (hHealthy : stream.failure = none) :
    (seek offset origin).ReportsError stream := by
  cases hAnswer : (Backend.seek stream.backend stream.window offset origin).value with
  | error fault =>
      refine .inr ⟨?_, fault, _, Stream.seek_of_breach hOffers hHealthy hAnswer, rfl⟩
      rintro ⟨outcome, hOutcome⟩
      rw [hAnswer] at hOutcome
      cases hOutcome
  | ok outcome =>
      obtain ⟨hCode, hValue⟩ := Stream.reported_under_error hFailed outcome
      refine .inl ⟨_, _, Stream.seek_of_answered hOffers hHealthy hAnswer, hCode, ?_⟩
      rw [movedByFailure, ownOutcome?, hAnswer]
      exact hValue

/-- Every operation that is supported reports the error, one case for each. -/
theorem reportsError_of_supported {operation : Operation} (hHealthy : stream.failure = none)
    (hOther : operation ≠ .refill) (hSome : ¬operation.IsEmpty)
    (hOffers : operation.Supported stream.capabilities) : operation.ReportsError stream := by
  cases operation with
  | size =>
      obtain ⟨hCode, hValue⟩ := Stream.reported_under_error hFailed (Backend.size stream.backend).value
      exact .inl ⟨_, _, Stream.size_of_offered hOffers, hCode, hValue⟩
  | read count => exact read_reportsError hFailed (Nat.pos_of_ne_zero hSome) hOffers hHealthy
  | bufferedRead count =>
      exact bufferedRead_reportsError hFailed (Nat.pos_of_ne_zero hSome) hOffers hHealthy
  | write source =>
      obtain ⟨hCode, hValue⟩ := Stream.reported_under_error hFailed
        (Backend.write stream.backend source).value
      exact .inl ⟨_, _, Stream.write_of_offered hSome hOffers, hCode, hValue⟩
  | seek offset origin => exact seek_reportsError hFailed offset origin hOffers hHealthy
  | position => exact seek_reportsError hFailed 0 .current hOffers hHealthy
  | refill => exact absurd rfl hOther

end UnderError

/-- On a stream that starts without an error, the error state is the first failure that any of the
operations so far reported. Once there is one it stays, whatever follows, and every operation shows
it. -/
theorem first_failure_sticks {operations : List Operation} {outcomes : List Outcome}
    (hClean : start.errorState = .success)
    (hRun : (performAll operations).result start = (.ok outcomes, reached)) :
    reached.errorState = firstFailure outcomes ∧
      (firstFailure outcomes ≠ .success → reached.StuckAt (firstFailure outcomes)) := by
  have hFirst : reached.errorState = firstFailure outcomes := by
    rw [errorState_of_performAll hRun, Stream.kept_of_clean hClean]
  refine ⟨hFirst, fun hFailure => ?_⟩
  have hFailed : reached.errorState ≠ .success := by rwa [hFirst]
  refine ⟨hFirst, fun later others after hLater => ?_, fun operation hSome hAbsent => ?_,
    fun hHealthy operation hOther hSome hOffers => ?_⟩
  · rw [errorState_of_performAll hLater, Stream.kept_of_failed hFailed, hFirst]
  · exact refused_under_error hFailed hSome hAbsent
  · exact reportsError_of_supported hFailed hHealthy hOther hSome hOffers

/-- A stream on a region of two bytes, as it is opened. -/
def twoByteRegion : Stream Region where
  backend := Region.ofBytes [0, 0]
  capabilities := { size := true, read := true, write := true, seek := true }
  window := Window.empty

/-- A region has no window to refill. The write of three bytes after that stores two and says so,
but shows the refused refill as its code. -/
theorem first_failure_sticks_over_write :
    twoByteRegion.errorState = .success ∧ ∃ reached,
      (performAll [.write [], .refill]).result twoByteRegion =
        (.ok [.done 0, .failed .invalidOperation], reached) ∧
      reached.StuckAt .invalidOperation ∧ ∃ outcome after,
        (write [1, 2, 3]).perform.result reached = (.ok outcome, after) ∧
          outcome.code = .invalidOperation ∧ outcome.value = 2 ∧ after.backend.bytes = [1, 2] := by
  have hRun : (performAll [.write [], .refill]).result twoByteRegion =
      (.ok [.done 0, .failed .invalidOperation],
        { twoByteRegion with errorState := .invalidOperation }) := rfl
  have hStuck := (first_failure_sticks rfl hRun).2 (by decide)
  refine ⟨rfl, _, hRun, hStuck, ?_⟩
  rcases hStuck.supported rfl (.write [1, 2, 3]) (by simp) (by simp [IsEmpty]) rfl with
    ⟨outcome, after, hWrite, hCode, hValue⟩ | ⟨hBreach, -⟩
  · refine ⟨outcome, after, hWrite, hCode, hValue.trans rfl, ?_⟩
    cases hWrite
    rfl
  · exact absurd trivial hBreach

end Operation

end Bytestream
