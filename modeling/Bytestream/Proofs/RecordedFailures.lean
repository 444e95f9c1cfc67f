import Bytestream.Proofs.CopyLoops
import Bytestream.Proofs.Discipline

/-!
Failures of the codec and the chunk layer. Whichever part of a call finds out that it cannot go on,
the stream keeps the class of the error that the caller gets, and a call that succeeds leaves no
error behind.
-/

namespace Bytestream

open Bytestream.Action (Maintains)

theorem Error.code_ne_success (error : Error) : error.code ≠ .success := by
  cases error <;> simp [code]

/-- A backend that reports a read of fewer bytes than were asked for as a failure. -/
def ReportsShort (β : Type) [Backend β] : Prop :=
  ∀ (backend : β) (count : Nat), 0 < count → count < magnitudeLimit →
    (Backend.read backend count).value.outcome.code = .success →
      (Backend.read backend count).value.outcome.value = count

namespace Stream

section Full

variable {β : Type} [Backend β] {stream after : Stream β} {count : Nat}

/-- A read that reports no failure on a stream without one read everything. -/
theorem read_full {transfer : Transfer} (hReports : ReportsShort β)
    (hStart : stream.errorState = .success) (hCount : count < magnitudeLimit)
    (hRun : (read count).result stream = (.ok transfer, after))
    (hDone : transfer.outcome.code = .success) : transfer.outcome.value = count := by
  rcases Nat.eq_zero_or_pos count with rfl | hSome
  · cases hRun
    rfl
  · cases hDirect : stream.capabilities.read with
    | true =>
        rw [read_of_offered hSome hDirect] at hRun
        cases hRun
        rw [reported, if_pos hStart] at hDone ⊢
        exact hReports stream.backend count hSome hCount hDone
    | false =>
        cases hOffers : stream.capabilities.bufferedRead with
        | false =>
            rw [read_of_absent hSome hDirect hOffers,
              Action.result_bind_of_ok stream.result_unsupported] at hRun
            cases hRun
            cases hDone
        | true =>
            rw [read_of_window_only ⟨hDirect, hOffers⟩ hSome] at hRun
            obtain ⟨bytes, hTaken, rfl⟩ := taken_of_bufferedRead hSome hOffers hRun
            have hLength := length_of_takeBuffered (Nat.le_refl count) hTaken hDone
            exact (Outcome.value_report _ (by rwa [hLength])).trans hLength

end Full

section Recorded

variable {β : Type} {α γ : Type}

/-- The stream has no error. -/
def Clean (stream : Stream β) : Prop := stream.errorState = .success

/-- The stream keeps the class of the error that stopped a call. -/
def Recorded : Stop → Stream β → Prop
  | .error error, stream => stream.errorState = error.code ∧ error.code ≠ .success
  | .fault _, _ => True

/-- An operation whose outcome the stream keeps may be followed by what needs a success: its failure
is the error that stops the call. -/
theorem maintains_outcome {operation : Op β α} {outcomeOf : α → Outcome} {next : α → Nat → Attempt β γ}
    (hRecords : ∀ {stream after value}, operation.result stream = (.ok value, after) →
      after.errorState = stream.kept (outcomeOf value).code)
    (hNext : ∀ {stream after value}, stream.Clean → operation.result stream = (.ok value, after) →
      (outcomeOf value).code = .success → after.Clean →
        Action.Ends Clean Recorded ((next value (outcomeOf value).value).result after)) :
    Maintains Clean Recorded (do
      let value ← lift operation
      let number ← (outcomeOf value).toExcept
      next value number) := by
  intro stream hClean
  cases hRun : operation.result stream with
  | mk value after =>
      cases value with
      | error fault =>
          rw [lift, Action.result_bind, Action.result_mapStop, hRun]
          trivial
      | ok value =>
          have hKept := hRecords hRun
          rw [kept_of_clean hClean] at hKept
          rw [Action.result_bind_of_ok (result_lift_of_ok hRun)]
          by_cases hDone : (outcomeOf value).code = .success
          · rw [Outcome.toExcept_of_success hDone,
              Action.result_bind_of_ok (Action.result_liftM_ok_of_error _ _)]
            exact hNext hClean hRun hDone (hKept.trans hDone)
          · have hClass := Code.code_ofCode _ hDone
            rw [Outcome.toExcept_of_failure hDone,
              Action.result_bind_of_error (Action.result_liftM_error_of_error _ _)]
            exact ⟨by rw [hKept, hClass], Error.code_ne_success _⟩

/-- Nothing but a success is needed of the outcome. -/
theorem maintains_outcome_pure {operation : Op β α} {outcomeOf : α → Outcome}
    {result : α → γ}
    (hRecords : ∀ {stream after value}, operation.result stream = (.ok value, after) →
      after.errorState = stream.kept (outcomeOf value).code) :
    Maintains Clean Recorded (do
      let value ← lift operation
      let _ ← (outcomeOf value).toExcept
      return result value) :=
  maintains_outcome hRecords fun _ _ _ hClean => hClean

theorem maintains_reject (error : Error) :
    Maintains Clean Recorded (reject error.code error : Attempt β α) := by
  intro stream hClean
  have hRecord := result_lift_of_ok (stream.result_record error.code)
  rw [reject, Action.result_bind_of_ok hRecord, kept_of_clean hClean]
  exact ⟨rfl, Error.code_ne_success error⟩

variable [Backend β]

/-- A word is read whole, or the read that cut it short said so. -/
theorem readWord_recorded (hReports : ReportsShort β) (order : ByteOrder) {width : Nat}
    (hWidth : width < magnitudeLimit) :
    Maintains Clean Recorded (readWord order width : Attempt β _) := by
  refine maintains_outcome errorState_of_read fun hClean hRun hDone hAfter => ?_
  rw [if_pos (read_full hReports hClean hWidth hRun hDone)]
  exact hAfter

theorem refill_recorded : Maintains Clean Recorded (do
    let code ← lift refill
    code.toExcept : Attempt β Unit) := by
  intro stream hClean
  cases hRun : Action.result refill stream with
  | mk value after =>
      cases value with
      | error fault =>
          rw [lift, Action.result_bind, Action.result_mapStop, hRun]
          trivial
      | ok code =>
          have hKept := (refilled_of_result hRun).errorState_eq
          rw [kept_of_clean hClean] at hKept
          rw [Action.result_bind_of_ok (result_lift_of_ok hRun)]
          by_cases hDone : code = .success
          · subst hDone
            exact hKept
          · rw [Code.toExcept_of_failure hDone, Action.result_liftM_error_of_error]
            exact ⟨by rw [hKept, Code.code_ofCode code hDone], Error.code_ne_success _⟩

theorem unread_recorded : Maintains Clean Recorded (lift unread : Attempt β Bytes) := by
  intro stream hClean
  cases hRun : unread.result stream with
  | mk value after =>
      rw [lift, Action.result_mapStop, hRun]
      cases value with
      | error fault => trivial
      | ok bytes =>
          obtain ⟨-, rfl⟩ := length_of_unread hRun
          exact hClean

omit [Backend β] in
theorem consume_recorded {stream : Stream β} {count : Nat} (hClean : stream.Clean)
    (hCount : count ≤ stream.available) :
    Action.Ends Clean Recorded ((lift (consume count)).result stream) := by
  obtain ⟨window, -, hConsume⟩ := consume_of_available hCount
  rw [result_lift_of_ok hConsume]
  exact hClean

/-- Every transfer that calls are made of keeps its failure on the stream. -/
theorem disciplined_recorded (hReports : ReportsShort β) :
    Disciplined (Clean (β := β)) Recorded where
  readWord order _ hWidth := readWord_recorded hReports order hWidth
  putBytes _ := maintains_outcome_pure errorState_of_write
  seek offset origin := by
    have hSeek := @maintains_outcome β Outcome Nat (seek offset origin) id (fun _ => pure)
      errorState_of_seek fun _ _ _ hClean => hClean
    simp only [bind_pure] at hSeek
    exact hSeek
  readPayload size seed :=
    maintains_readPayload size seed refill_recorded unread_recorded consume_recorded
      (maintains_outcome_pure errorState_of_read)
  reject error := maintains_reject error

end Recorded

end Stream

section BuiltIn

theorem Transfer.value_of_copy {source : Bytes} {count : Nat} (hCount : count < magnitudeLimit)
    (hDone : (copy count source count).outcome.code = .success) :
    (copy count source count).outcome.value = count := by
  rcases Nat.lt_or_ge source.length count with hShort | hEnough
  · rw [copy_short hShort] at hDone
    cases hDone
  · rw [copy_enough hEnough]
    exact Outcome.value_report .success hCount

theorem Region.reportsShort : ReportsShort Region :=
  fun _ _ _ hCount hDone => Transfer.value_of_copy hCount hDone

theorem Growable.reportsShort [Memory] : ReportsShort Growable :=
  fun _ _ _ hCount hDone => Transfer.value_of_copy hCount hDone

theorem File.reportsShort : ReportsShort File := by
  intro file count _ hCount hDone
  change (file.read count).value.outcome.code = .success at hDone
  change (file.read count).value.outcome.value = count
  obtain ⟨taken, code, after, log, hRead, -, -, hWhole⟩ := file.read_takes count
  rw [hRead] at hDone ⊢
  rw [← hWhole.mp hDone, Outcome.value_report _ (by rwa [hWhole.mp hDone])]

/-- Where there is no direct read, none succeeds. -/
theorem ReadOnly.reportsShort : ReportsShort ReadOnly := fun _ _ _ _ hDone => by cases hDone

theorem BufferedReader.reportsShort : ReportsShort BufferedReader := fun _ _ _ _ hDone => by
  cases hDone

theorem Pieces.reportsShort : ReportsShort Pieces := fun _ _ _ _ hDone => by cases hDone

end BuiltIn

namespace Call

/-- The call leaves the error that it stopped at with the stream, and none if it succeeded. -/
def Accounts [Memory] {β : Type} [Backend β] (call : Call) (stream : Stream β) : Prop :=
  (∀ after, call.perform.result stream = (.ok (), after) → after.errorState = .success) ∧
  ∀ error after, call.perform.result stream = (.error (.error error), after) →
    after.errorState = error.code ∧ after.errorState ≠ .success

/-- Every failure of a call is kept under its own class by a stream that had none, whichever of the
checks found it, and a call that succeeds leaves none. A backend only has to say so where it reads
less than it was asked for, as those at hand do. -/
theorem failures_are_recorded [Memory] :
    (ReportsShort Region ∧ ReportsShort Growable ∧ ReportsShort File ∧ ReportsShort ReadOnly ∧
      ReportsShort BufferedReader ∧ ReportsShort Pieces) ∧
    ∀ (β : Type) [Backend β], ReportsShort β → ∀ stream : Stream β, stream.errorState = .success →
      ∀ call : Call, call.Accounts stream := by
  refine ⟨⟨Region.reportsShort, Growable.reportsShort, File.reportsShort, ReadOnly.reportsShort,
    BufferedReader.reportsShort, Pieces.reportsShort⟩, ?_⟩
  intro β _ hReports stream hClean call
  have hEnds := (Stream.disciplined_recorded hReports).perform call stream hClean
  refine ⟨fun after hRun => ?_, fun error after hRun => ?_⟩
  · rw [hRun] at hEnds
    exact hEnds
  · rw [hRun] at hEnds
    exact ⟨hEnds.1, hEnds.1 ▸ hEnds.2⟩

/-- A chunk without a payload, behind whose header a footer of one stands instead of zero. -/
def badFooter : Stream ReadOnly where
  backend := ⟨[7, 0, 0, 0, 2, 0, 0, 0, 0, 0, 0, 0, 0, 0, 1, 0, 0, 0]⟩
  capabilities := { size := true, seek := true, bufferedRead := true }
  window := Window.whole 18

/-- The mismatch is found once everything was read, and is bad data to the stream as well. -/
theorem failures_are_recorded_of_mismatch :
    ReportsShort ReadOnly ∧ badFooter.errorState = .success ∧ ∃ after,
      (readChunk {}).perform.result badFooter = (.error (.error (.checksumMismatch 1 0)), after) ∧
        after.errorState = .invalidData ∧ after.available = 0 := by
  have hReports := failures_are_recorded.1.2.2.2.1
  have hRun : (readChunk {}).perform.result badFooter =
      (.error (.error (.checksumMismatch 1 0)), ((readChunk {}).perform.result badFooter).2) := rfl
  have hRecorded := (failures_are_recorded.2 ReadOnly hReports badFooter rfl (readChunk {})).2 _ _ hRun
  exact ⟨hReports, rfl, _, hRun, hRecorded.1, rfl⟩

end Call

end Bytestream
