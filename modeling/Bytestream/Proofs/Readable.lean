import Bytestream.Proofs.Offering
import Bytestream.Proofs.Result
import Bytestream.Chunk.Reader

/-!
Reading as moving along a byte string. A backend that can be read says when it stands at a place in
some data; the laws below say that reads hand out the bytes behind that place, in order, and that
only the end of the data stops them. How the bytes are brought in does not show.
-/

namespace Bytestream

/-- When a backend with a window on it stands `position` bytes into `data`. -/
class Readable (β : Type) [Backend β] extends Offering β where
  Holds : β → Window → Bytes → Nat → Prop

theorem Bytes.length_piece {bytes : Bytes} {position count : Nat}
    (hInside : count ≤ bytes.length - position) :
    ((bytes.drop position).take count).length = count := by
  rw [List.length_take, List.length_drop]
  omega

namespace Transfer

/-- Bytes that fill their destination leave nothing of what was there. -/
theorem fill_whole {outcome : Outcome} {bytes destination : Bytes}
    (hLength : bytes.length = destination.length) : fill ⟨outcome, bytes⟩ destination = bytes := by
  rw [fill, hLength, List.drop_length, List.append_nil, ← hLength, List.take_length]

theorem fill_piece {bytes : Bytes} {position count : Nat}
    (hInside : count ≤ bytes.length - position) (outcome : Outcome) :
    fill ⟨outcome, (bytes.drop position).take count⟩ (List.replicate count 0) =
      (bytes.drop position).take count :=
  fill_whole (by rw [Bytes.length_piece hInside, List.length_replicate])

/-- A copy succeeds exactly if both sides have as much as is wanted. -/
theorem copy_eq (room : Nat) (source : Bytes) (wanted : Nat) :
    copy room source wanted = ⟨.report (source.take (min wanted room)).length
      (if wanted ≤ min room source.length then .success else .endOfStream),
      source.take (min wanted room)⟩ := by
  rw [copy]
  congr 2
  by_cases hEnough : wanted ≤ min room source.length
  · rw [if_pos hEnough, if_neg (by rw [List.length_take]; omega)]
  · rw [if_neg hEnough, if_pos (by rw [List.length_take]; omega)]

/-- Where the source has enough, all that is wanted is copied. -/
theorem copy_enough {source : Bytes} {count : Nat} (hEnough : count ≤ source.length) :
    copy count source count = ⟨.done count, source.take count⟩ := by
  rw [copy, Nat.min_self, List.length_take, Nat.min_eq_left hEnough, if_neg (Nat.lt_irrefl count)]
  rfl

theorem copy_short {source : Bytes} {count : Nat} (hShort : source.length < count) :
    copy count source count = ⟨.report source.length .endOfStream, source⟩ := by
  rw [copy, Nat.min_self, List.take_of_length_le (Nat.le_of_lt hShort), if_pos hShort]

end Transfer

namespace Stream

variable {ε β α γ : Type}

/-- The operation stops with `error`, and its class is what the stream keeps. -/
def Fails (stream : Stream β) (action : Attempt β α) (error : Error) : Prop :=
  ∃ after, action.result stream = (.error (.error error), after) ∧ after.errorState = error.code

theorem Fails.bind {action : Attempt β α} {stream : Stream β} {error : Error}
    (hFirst : stream.Fails action error) (next : α → Attempt β γ) :
    stream.Fails (action >>= next) error := by
  obtain ⟨after, hRun, hCode⟩ := hFirst
  exact ⟨after, Action.result_bind_of_error hRun next, hCode⟩

variable [Backend β] [Readable β]

/-- A healthy stream that stands `position` bytes into `data` under the error state `code`. -/
structure Stands (stream : Stream β) (data : Bytes) (position : Nat) (code : Code) : Prop where
  unfailed : stream.failure = none
  offered : stream.capabilities = Offering.offers β
  holds : Readable.Holds stream.backend stream.window data position
  errorState_eq : stream.errorState = code

/-- The operation yields `value` and leaves the stream without an error at `position`. -/
def Reaches (stream : Stream β) (action : Action ε (Stream β) α) (value : α) (data : Bytes)
    (position : Nat) : Prop :=
  ∃ after, action.result stream = (.ok value, after) ∧ after.Stands data position .success

/-- The operation stops with `error` and leaves a healthy stream at `position`. -/
def Rejects (stream : Stream β) (action : Attempt β α) (error : Error) (data : Bytes)
    (position : Nat) : Prop :=
  ∃ after, action.result stream = (.error (.error error), after) ∧
    after.Stands data position error.code

/-- The operation hands out the `count` bytes at `position`, or as many as are left of them. Only
the end of the data makes them fewer, and then it is what the stream keeps. -/
def Delivers (stream : Stream β) (action : Op β Transfer) (data : Bytes) (position count : Nat) :
    Prop :=
  ∃ after, action.result stream = (.ok (.copy count (data.drop position) count), after) ∧
    (count ≤ data.length - position → after.Stands data (position + count) .success) ∧
    (data.length - position < count → after.errorState = .endOfStream)

variable {stream : Stream β} {data : Bytes} {position middle : Nat} {code : Code} {error : Error}

theorem Stands.mark (hStands : stream.Stands data position code) (other : Code) :
    { stream with errorState := other }.Stands data position other :=
  ⟨hStands.unfailed, hStands.offered, hStands.holds, rfl⟩

theorem Stands.reaches_pure (hStands : stream.Stands data position .success) (value : α) :
    stream.Reaches (pure value : Action ε (Stream β) α) value data position :=
  ⟨stream, rfl, hStands⟩

theorem Reaches.bind {action : Action ε (Stream β) α} {next : α → Action ε (Stream β) γ}
    {value : α} {answer : γ} (hFirst : stream.Reaches action value data middle)
    (hNext : ∀ after : Stream β, after.Stands data middle .success →
      after.Reaches (next value) answer data position) :
    stream.Reaches (action >>= next) answer data position := by
  obtain ⟨after, hRun, hStands⟩ := hFirst
  obtain ⟨last, hLast, hEnd⟩ := hNext after hStands
  exact ⟨last, by rw [Action.result_bind_of_ok hRun, hLast], hEnd⟩

theorem Reaches.bind_fails {action : Attempt β α} {next : α → Attempt β γ} {value : α}
    (hFirst : stream.Reaches action value data middle)
    (hNext : ∀ after : Stream β, after.Stands data middle .success →
      after.Fails (next value) error) :
    stream.Fails (action >>= next) error := by
  obtain ⟨after, hRun, hStands⟩ := hFirst
  obtain ⟨last, hLast, hEnd⟩ := hNext after hStands
  exact ⟨last, by rw [Action.result_bind_of_ok hRun, hLast], hEnd⟩

theorem Reaches.bind_rejects {action : Attempt β α} {next : α → Attempt β γ} {value : α}
    (hFirst : stream.Reaches action value data middle)
    (hNext : ∀ after : Stream β, after.Stands data middle .success →
      after.Rejects (next value) error data position) :
    stream.Rejects (action >>= next) error data position := by
  obtain ⟨after, hRun, hStands⟩ := hFirst
  obtain ⟨last, hLast, hEnd⟩ := hNext after hStands
  exact ⟨last, by rw [Action.result_bind_of_ok hRun, hLast], hEnd⟩

theorem Rejects.bind {action : Attempt β α} (hFirst : stream.Rejects action error data position)
    (next : α → Attempt β γ) : stream.Rejects (action >>= next) error data position := by
  obtain ⟨after, hRun, hStands⟩ := hFirst
  exact ⟨after, Action.result_bind_of_error hRun next, hStands⟩

theorem Rejects.fails {action : Attempt β α} (hRejects : stream.Rejects action error data position) :
    stream.Fails action error := by
  obtain ⟨after, hRun, hStands⟩ := hRejects
  exact ⟨after, hRun, hStands.errorState_eq⟩

/-- An error that a reader itself finds leaves the stream where it is. -/
theorem reject_rejects {code : Code} (hStands : stream.Stands data position .success)
    (hCode : error.code = code) :
    stream.Rejects (reject code error : Attempt β α) error data position := by
  subst hCode
  refine ⟨{ stream with errorState := error.code }, ?_, hStands.mark error.code⟩
  rw [reject, Action.result_bind_of_ok (result_lift_of_ok
    (result_record_of_clean hStands.errorState_eq error.code)), Action.result_stop]

theorem Delivers.reaches {action : Op β Transfer} {count : Nat}
    (hDelivers : stream.Delivers action data position count)
    (hEnough : count ≤ data.length - position) :
    stream.Reaches action ⟨.done count, (data.drop position).take count⟩ data (position + count) := by
  obtain ⟨after, hRun, hFar, -⟩ := hDelivers
  refine ⟨after, ?_, hFar hEnough⟩
  rw [hRun, Transfer.copy_enough (by rwa [List.length_drop])]

/-- Where enough data is left a read takes all of it. Reading nothing does not ask the backend. -/
theorem read_reaches_of_delivers {count : Nat} (hStands : stream.Stands data position .success)
    (hDelivers : 0 < count → stream.Delivers (read count) data position count)
    (hEnough : count ≤ data.length - position) :
    stream.Reaches (read count) ⟨.done count, (data.drop position).take count⟩ data
      (position + count) := by
  rcases Nat.eq_zero_or_pos count with rfl | hSome
  · exact ⟨stream, rfl, hStands⟩
  · exact (hDelivers hSome).reaches hEnough

end Stream

/-- The laws of a readable backend. Both ways to read a payload keep to the order of the data. -/
class ReadsInOrder (β : Type) [Backend β] [Readable β] : Prop where
  read_delivers : ∀ {stream : Stream β} {data : Bytes} {position count : Nat},
    stream.Stands data position .success → 0 < count →
      stream.Delivers (Stream.read count) data position count
  payload_reaches : ∀ {stream : Stream β} {data : Bytes} {position size : Nat} (seed : Word 4),
    stream.Stands data position .success → size ≤ data.length - position →
      stream.Reaches (Chunk.readPayload size seed)
        ((data.drop position).take size, crc32 ((data.drop position).take size) seed) data
        (position + size)
  payload_fails : ∀ {stream : Stream β} {data : Bytes} {position size : Nat} (seed : Word 4),
    stream.Stands data position .success → data.length - position < size →
      stream.Fails (Chunk.readPayload size seed) .endOfStream

/-- The laws of reading where enough data is left, which leave open what happens at its end. -/
class ReadsAhead (β : Type) [Backend β] [Readable β] : Prop where
  read_reaches : ∀ {stream : Stream β} {data : Bytes} {position count : Nat},
    stream.Stands data position .success → count ≤ data.length - position →
      stream.Reaches (Stream.read count) ⟨.done count, (data.drop position).take count⟩ data
        (position + count)
  payload_reaches : ∀ {stream : Stream β} {data : Bytes} {position size : Nat} (seed : Word 4),
    stream.Stands data position .success → size ≤ data.length - position →
      stream.Reaches (Chunk.readPayload size seed)
        ((data.drop position).take size, crc32 ((data.drop position).take size) seed) data
        (position + size)

instance ReadsInOrder.readsAhead {β : Type} [Backend β] [Readable β] [ReadsInOrder β] :
    ReadsAhead β where
  read_reaches hStands hEnough :=
    Stream.read_reaches_of_delivers hStands (read_delivers hStands) hEnough
  payload_reaches := payload_reaches

end Bytestream
