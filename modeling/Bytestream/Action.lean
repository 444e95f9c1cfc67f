import Bytestream.Error
import Bytestream.Event

/-!
Operations that change a state, may stop early, and log. A stop keeps the state that had been
reached, since a stream that failed half-way is still there to be asked and reset. The log is an
output and not a part of the state: no operation can depend on what was logged before it.
-/

namespace Bytestream

/-- What one operation leaves behind: its value, the state afterwards, and what it logged. -/
structure Reply (σ α : Type) where
  value : α
  state : σ
  log : List Event := []

/-- An operation on a state that yields an `α` or stops with an `ε`. -/
def Action (ε σ α : Type) : Type := σ → Reply σ (Except ε α)

/-- Why an operation stopped: the caller can recover from an error, and not from a fault. -/
inductive Stop where
  | error (error : Error)
  | fault (fault : Fault)
deriving DecidableEq

namespace Action

variable {ε σ α β : Type}

/-- Runs an action from a state. -/
def run (action : Action ε σ α) (state : σ) : Reply σ (Except ε α) := action state

/-- Yields a value and changes nothing. -/
protected def pure (value : α) : Action ε σ α := fun state => ⟨.ok value, state, []⟩

/-- Runs the first action, then the second on its value and state. A stop of the first is a stop
of both, and logs are joined in order. -/
protected def bind (first : Action ε σ α) (second : α → Action ε σ β) : Action ε σ β :=
  fun state =>
    match first state with
    | ⟨.error stop, middle, log⟩ => ⟨.error stop, middle, log⟩
    | ⟨.ok value, middle, log⟩ =>
        let rest := second value middle
        ⟨rest.value, rest.state, log ++ rest.log⟩

instance : Monad (Action ε σ) where
  pure := Action.pure
  bind := Action.bind

/-- Stops. -/
def stop (reason : ε) : Action ε σ α := fun state => ⟨.error reason, state, []⟩

/-- Yields the state. -/
def state : Action ε σ σ := fun state => ⟨.ok state, state, []⟩

/-- Replaces the state. -/
def replace (state : σ) : Action ε σ Unit := fun _ => ⟨.ok (), state, []⟩

/-- Changes the state. -/
def modify (change : σ → σ) : Action ε σ Unit := fun state => ⟨.ok (), change state, []⟩

/-- Appends an entry to the log. -/
def emit (event : Event) : Action ε σ Unit := fun state => ⟨.ok (), state, [event]⟩

/-- Yields the value of a pure computation, or stops where it failed. -/
def ofExcept : Except ε α → Action ε σ α
  | .ok value => Action.pure value
  | .error reason => stop reason

/-- Renames the reason for stopping. -/
def mapStop {δ : Type} (rename : δ → ε) (action : Action δ σ α) : Action ε σ α := fun state =>
  match action state with
  | ⟨.ok value, after, log⟩ => ⟨.ok value, after, log⟩
  | ⟨.error reason, after, log⟩ => ⟨.error (rename reason), after, log⟩

/-- Goes on where the action met a recoverable error, with that error as its value. -/
def attempt (action : Action Stop σ α) : Action Fault σ (Except Error α) := fun state =>
  match action state with
  | ⟨.ok value, after, log⟩ => ⟨.ok (.ok value), after, log⟩
  | ⟨.error (.error error), after, log⟩ => ⟨.ok (.error error), after, log⟩
  | ⟨.error (.fault fault), after, log⟩ => ⟨.error fault, after, log⟩

instance : MonadLift (Except ε) (Action ε σ) := ⟨ofExcept⟩

instance : MonadLift (Except Error) (Action Stop σ) := ⟨fun result => mapStop .error (ofExcept result)⟩

instance : MonadLift (Except Fault) (Action Stop σ) := ⟨fun result => mapStop .fault (ofExcept result)⟩

/-- Joining logs is associative and an empty log joins as nothing, so actions obey the laws of
sequencing. -/
instance : LawfulMonad (Action ε σ) := LawfulMonad.mk' (Action ε σ)
  (fun action => by
    funext state
    change Action.bind action _ state = _
    unfold Action.bind
    split <;> rename_i hRun <;> simp [hRun, Action.pure])
  (fun value next => by
    funext state
    rfl)
  (fun action next last => by
    funext state
    change Action.bind (Action.bind action next) last state =
      Action.bind action (fun value => Action.bind (next value) last) state
    unfold Action.bind
    cases hRun : action state with
    | mk value middle log =>
        cases value with
        | error reason => rfl
        | ok value =>
            simp only
            cases hNext : next value middle with
            | mk value middle log' => cases value <;> simp)

end Action

end Bytestream
