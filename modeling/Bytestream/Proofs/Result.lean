import Bytestream.Stream

/-!
What an action ends with, apart from what it logged. No operation reads the log, so results of
parts determine results of the whole.
-/

namespace Bytestream.Action

variable {ε δ σ α β : Type}

/-- The value or the reason for stopping, with the state that was reached. -/
def result (action : Action ε σ α) (state : σ) : Except ε α × σ :=
  ((action state).value, (action state).state)

@[simp] theorem result_pure (value : α) (state : σ) :
    (pure value : Action ε σ α).result state = (.ok value, state) := rfl

@[simp] theorem result_stop (reason : ε) (state : σ) :
    (stop reason : Action ε σ α).result state = (.error reason, state) := rfl

@[simp] theorem result_state (state : σ) :
    (Action.state : Action ε σ σ).result state = (.ok state, state) := rfl

@[simp] theorem result_modify (change : σ → σ) (state : σ) :
    (modify change : Action ε σ Unit).result state = (.ok (), change state) := rfl

@[simp] theorem result_emit (event : Event) (state : σ) :
    (emit event : Action ε σ Unit).result state = (.ok (), state) := rfl

@[simp] theorem result_liftM_ok (value : α) (state : σ) :
    (liftM (.ok value : Except ε α) : Action ε σ α).result state = (.ok value, state) := rfl

@[simp] theorem result_liftM_ok_of_error (value : α) (state : σ) :
    (liftM (.ok value : Except Error α) : Action Stop σ α).result state = (.ok value, state) := rfl

@[simp] theorem result_liftM_error_of_error (error : Error) (state : σ) :
    (liftM (.error error : Except Error α) : Action Stop σ α).result state =
      (.error (.error error), state) := rfl

@[simp] theorem result_liftM_ok_of_fault (value : α) (state : σ) :
    (liftM (.ok value : Except Fault α) : Action Stop σ α).result state = (.ok value, state) := rfl

@[simp] theorem result_liftM_error_of_fault (fault : Fault) (state : σ) :
    (liftM (.error fault : Except Fault α) : Action Stop σ α).result state =
      (.error (.fault fault), state) := rfl

theorem result_bind (action : Action ε σ α) (next : α → Action ε σ β) (state : σ) :
    (action >>= next).result state =
      match action.result state with
      | (.ok value, middle) => (next value).result middle
      | (.error reason, middle) => (.error reason, middle) := by
  show (Action.bind action next).result state = _
  simp only [result, Action.bind]
  cases hRun : action state with
  | mk value middle log => cases value <;> rfl

/-- An action that yields hands its value and its state on. -/
theorem result_bind_of_ok {action : Action ε σ α} {state middle : σ} {value : α}
    (hFirst : action.result state = (.ok value, middle)) (next : α → Action ε σ β) :
    (action >>= next).result state = (next value).result middle := by
  rw [result_bind, hFirst]

/-- What comes after an action that stopped is not run. -/
theorem result_bind_of_error {action : Action ε σ α} {state middle : σ} {reason : ε}
    (hFirst : action.result state = (.error reason, middle)) (next : α → Action ε σ β) :
    (action >>= next).result state = (.error reason, middle) := by
  rw [result_bind, hFirst]

/-- Two actions in sequence that yield went through the value and the state of the first. -/
theorem ok_of_bind {action : Action ε σ α} {next : α → Action ε σ β} {state after : σ} {value : β}
    (hRun : (action >>= next).result state = (.ok value, after)) :
    ∃ first middle, action.result state = (.ok first, middle) ∧
      (next first).result middle = (.ok value, after) := by
  rw [result_bind] at hRun
  cases hFirst : action.result state with
  | mk first middle =>
      rw [hFirst] at hRun
      cases first with
      | ok first => exact ⟨first, middle, rfl, hRun⟩
      | error reason => cases hRun

/-- What follows an action depends only on its value and the state it leaves. -/
theorem result_bind_congr {action other : Action ε σ α} {state state' : σ}
    (hSame : action.result state = other.result state') (next : α → Action ε σ β) :
    (action >>= next).result state = (other >>= next).result state' := by
  rw [result_bind, hSame, result_bind]

/-- Two actions that go on alike from wherever the first step leads end alike. -/
theorem result_bind_alike {action : Action ε σ α} {next other : α → Action ε σ β} {state : σ}
    (hAlike : ∀ value middle, action.result state = (.ok value, middle) →
      (next value).result middle = (other value).result middle) :
    (action >>= next).result state = (action >>= other).result state := by
  rw [result_bind, result_bind]
  cases hFirst : action.result state with
  | mk value middle =>
      cases value with
      | ok value => exact hAlike value middle hFirst
      | error reason => rfl

theorem result_mapStop (rename : δ → ε) (action : Action δ σ α) (state : σ) :
    (action.mapStop rename).result state =
      ((action.result state).1.mapError rename, (action.result state).2) := by
  simp only [result, mapStop]
  cases hRun : action state with
  | mk value after log => cases value <;> rfl

/-- A recoverable error becomes a value and leaves the state that was reached. A fault stays one. -/
theorem result_attempt (action : Action Stop σ α) (state : σ) :
    (attempt action).result state =
      match action.result state with
      | (.ok value, after) => (.ok (.ok value), after)
      | (.error (.error error), after) => (.ok (.error error), after)
      | (.error (.fault fault), after) => (.error fault, after) := by
  simp only [result, attempt]
  cases hReply : action state with
  | mk value after log =>
      cases value with
      | ok value => rfl
      | error reason => cases reason <;> rfl

theorem result_attempt_of_ok {action : Action Stop σ α} {state after : σ} {value : α}
    (hRun : action.result state = (.ok value, after)) :
    (attempt action).result state = (.ok (.ok value), after) := by
  rw [result_attempt, hRun]

theorem result_attempt_of_error {action : Action Stop σ α} {state after : σ} {error : Error}
    (hRun : action.result state = (.error (.error error), after)) :
    (attempt action).result state = (.ok (.error error), after) := by
  rw [result_attempt, hRun]

/-- An action that was attempted yielded its value or met the error that is now the value. -/
theorem result_of_attempt {action : Action Stop σ α} {state after : σ} {answer : Except Error α}
    (hRun : (attempt action).result state = (.ok answer, after)) :
    action.result state = (answer.mapError .error, after) := by
  rw [result_attempt] at hRun
  cases hAction : action.result state with
  | mk value last =>
      rw [hAction] at hRun
      rcases value with (error | fault) | value <;> cases hRun <;> rfl

/-- What only looks at the value of an action leaves the state that the action left. -/
theorem state_of_bind {action : Action ε σ α} {next : α → Action ε σ β}
    (hNext : ∀ value middle, ((next value).result middle).2 = middle) (state : σ) :
    ((action >>= next).result state).2 = (action.result state).2 := by
  rw [result_bind]
  match action.result state with
  | (.ok value, middle) => exact hNext value middle
  | (.error _, _) => rfl

/-- An action leaves the same state whether or not what runs it goes on from an error. -/
theorem state_of_attempt (action : Action Stop σ α) (state : σ) :
    ((attempt action).result state).2 = (action.result state).2 := by
  rw [result_attempt]
  match action.result state with
  | (.ok _, _) => rfl
  | (.error (.error _), _) => rfl
  | (.error (.fault _), _) => rfl

theorem state_of_computed (computed : Except Error α) (state : σ) :
    ((liftM computed : Action Stop σ α).result state).2 = state := by
  cases computed <;> rfl

end Bytestream.Action

namespace Bytestream.Code

theorem toExcept_of_failure {code : Code} (hCode : code ≠ .success) :
    code.toExcept = .error (Error.ofCode code) := by
  simp [toExcept, error?, hCode]

end Bytestream.Code

namespace Bytestream.Outcome

theorem toExcept_of_success {outcome : Outcome} (hCode : outcome.code = .success) :
    outcome.toExcept = .ok outcome.value := by
  simp [toExcept, Code.error?, hCode]

theorem toExcept_of_failure {outcome : Outcome} (hCode : outcome.code ≠ .success) :
    outcome.toExcept = .error (Error.ofCode outcome.code) := by
  simp [toExcept, Code.error?, hCode]

end Bytestream.Outcome

namespace Bytestream.Stream

variable {β α : Type}

/-- The first code to be recorded is kept. -/
theorem result_record_of_clean {stream : Stream β} (hClean : stream.errorState = .success)
    (code : Code) :
    (record code).result stream = (.ok code, { stream with errorState := code }) := by
  simp only [record, Action.result_bind, Action.result_state, hClean, Code.isSuccess, decide_true,
    if_true, Action.result_modify, Action.result_pure]

theorem result_record_of_failed {stream : Stream β} (hFailed : stream.errorState ≠ .success)
    (code : Code) :
    (record code).result stream = (.ok stream.errorState, stream) := by
  have hKept : ¬stream.errorState.isSuccess = true := by rwa [Code.isSuccess_iff]
  rw [record, Action.result_bind_of_ok (Action.result_state stream), if_neg hKept,
    Action.result_pure]

/-- Without an earlier failure an outcome is reported as the backend gave it. -/
theorem result_conclude_of_clean {stream : Stream β} (hClean : stream.errorState = .success)
    (outcome : Outcome) :
    (conclude outcome).result stream =
      (.ok outcome, { stream with errorState := outcome.code }) := by
  rw [conclude, Action.result_bind_of_ok (result_record_of_clean hClean outcome.code)]
  have hKept : ¬(outcome.isDone && !outcome.code.isSuccess) = true := by
    simp [Outcome.isDone]
  rw [if_neg hKept, Action.result_pure]
  rfl

theorem result_lift_of_ok {operation : Op β α} {stream after : Stream β} {value : α}
    (hRun : operation.result stream = (.ok value, after)) :
    (lift operation).result stream = (.ok value, after) := by
  rw [lift, Action.result_mapStop, hRun]
  rfl

theorem ok_of_lift {operation : Op β α} {stream after : Stream β} {value : α}
    (hRun : (lift operation).result stream = (.ok value, after)) :
    operation.result stream = (.ok value, after) := by
  rw [lift, Action.result_mapStop] at hRun
  cases hOperation : operation.result stream with
  | mk value last =>
      rw [hOperation] at hRun
      cases value <;> cases hRun
      rfl

end Bytestream.Stream
