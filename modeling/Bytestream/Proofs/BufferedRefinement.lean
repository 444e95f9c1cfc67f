import Bytestream.Proofs.Opening

/-!
A buffered reader is a plain cursor to its clients. Whatever is asked of it gets the answer that
the bytes and the position give, which is the one that the file itself would give, however the
bytes came into the buffer and however many of them are waiting there.
-/

namespace Bytestream

/-- What can be asked of a stream over a file, with a buffer or without one. -/
inductive Request where
  | read (count : Nat)
  | seek (offset : Int) (origin : Origin)
  | position
  | size

namespace Request

/-- Asks a stream. An answer without bytes is an outcome alone. -/
def perform {β : Type} [Backend β] : Request → Stream.Op β Transfer
  | read count => Stream.read count
  | seek offset origin => do return .none (← Stream.seek offset origin)
  | position => do return .none (← Stream.position)
  | size => do return .none (← Stream.size)

/-- The answer of a cursor that is `cursor` bytes into `data`. -/
def answer (data : Bytes) (cursor : Nat) : Request → Transfer
  | read count => Transfer.copy count (data.drop cursor) count
  | seek offset origin =>
      match origin.resolve offset cursor data.length with
      | some target => .none (.done target)
      | none => .none (.failed .seekError)
  | position => .none (.done cursor)
  | size => .none (.done data.length)

/-- Where the cursor is after the request. -/
def next (data : Bytes) (cursor : Nat) : Request → Nat
  | read count => cursor + ((data.drop cursor).take count).length
  | seek offset origin => (origin.resolve offset cursor data.length).getD cursor
  | position | size => cursor

end Request

namespace Stream

variable {β : Type} [Backend β] [Readable β]
variable {stream : Stream β} {data : Bytes} {position : Nat}

/-- A read answers with what is left of the bytes that it asks for. -/
theorem read_answers [ReadsInOrder β] (hStands : stream.Stands data position .success)
    (count : Nat) :
    ∃ after, (read count).result stream =
        (.ok (Transfer.copy count (data.drop position) count), after) ∧
      ((Transfer.copy count (data.drop position) count).outcome.code = .success →
        after.Stands data (position + ((data.drop position).take count).length) .success) := by
  rcases Nat.eq_zero_or_pos count with rfl | hSome
  · exact ⟨stream, rfl, fun _ => hStands⟩
  obtain ⟨after, hRun, hFar, hShort⟩ := ReadsInOrder.read_delivers hStands hSome
  refine ⟨after, hRun, fun hDone => ?_⟩
  by_cases hEnough : count ≤ data.length - position
  · rw [Bytes.length_piece hEnough]
    exact hFar hEnough
  · rw [Transfer.copy_short (by rw [List.length_drop]; omega)] at hDone
    cases hDone

variable [FileLike β]

theorem size_reaches (hStands : stream.Stands data position .success)
    (hPosition : position < offsetLimit) (hLength : data.length < offsetLimit) :
    stream.Reaches size (.done data.length) data position := by
  obtain ⟨backend, log, hCall, hHolds⟩ := FileLike.measures hStands.holds hPosition hLength
  have hSize : stream.capabilities.size = true := by
    rw [hStands.offered]
    exact FileLike.seek_size_offered.2
  have hCalled : (call Backend.size).result stream =
      (.ok (.done data.length), { stream with backend }) := by
    simp only [Action.result, call, hCall]
  refine ⟨{ stream with backend, errorState := .success }, ?_, hStands.unfailed, hStands.offered,
    hHolds, rfl⟩
  rw [size, Action.result_bind_of_ok (Action.result_state stream), if_pos hSize,
    Action.result_bind_of_ok hCalled]
  exact @result_conclude_of_clean β { stream with backend } hStands.errorState_eq _

/-- A seek to an offset goes there, also past the end of the data. -/
theorem seek_goes {offset : Int} {origin : Origin} {target : Nat}
    (hStands : stream.Stands data position .success) (hPosition : position < offsetLimit)
    (hLength : data.length < offsetLimit)
    (hTarget : origin.resolve offset position data.length = some target)
    (hLimit : target < offsetLimit) :
    stream.Reaches (seek offset origin) (.done target) data target := by
  have hSum := (toPosition?_eq_some_iff.mp hTarget).1
  have hOffset : -(offsetLimit : Int) ≤ offset := by
    cases origin <;> simp only [Origin.base] at hSum <;> omega
  obtain ⟨backend, window, log, hCall, hHolds⟩ :=
    FileLike.goes hStands.holds hTarget hLimit hLength hOffset
  exact ⟨_, seek_of_call (seek_of_stands hStands) hStands.unfailed hStands.errorState_eq hCall,
    hStands.unfailed, hStands.offered, hHolds, rfl⟩

end Stream

/-- Every request to a healthy stream is answered as by a cursor in its data. -/
theorem Request.perform_answers {β : Type} [Backend β] [Readable β] [ReadsInOrder β] [FileLike β]
    {stream : Stream β} {data : Bytes} {position : Nat} (request : Request)
    (hStands : stream.Stands data position .success) (hPosition : position < magnitudeLimit)
    (hLength : data.length < magnitudeLimit)
    (hNext : request.next data position < magnitudeLimit) :
    ∃ after, request.perform.result stream = (.ok (request.answer data position), after) ∧
      ((request.answer data position).outcome.code = .success →
        after.Stands data (request.next data position) .success) := by
  have hLimit : magnitudeLimit < offsetLimit := by decide
  have hOffset := Nat.lt_trans hPosition hLimit
  have hSize := Nat.lt_trans hLength hLimit
  cases request with
  | read count => exact Stream.read_answers hStands count
  | seek offset origin =>
      simp only [answer, next] at hNext ⊢
      cases hTarget : origin.resolve offset position data.length with
      | some target =>
          rw [hTarget, Option.getD_some] at hNext
          obtain ⟨after, hSeek, hAfter⟩ :=
            Stream.seek_goes hStands hOffset hSize hTarget (Nat.lt_trans hNext hLimit)
          exact ⟨after, by rw [perform, Action.result_bind_of_ok hSeek]; rfl, fun _ => hAfter⟩
      | none =>
          obtain ⟨backend, window, log, hCall⟩ := FileLike.refuses hStands.holds hTarget
          have hSeek := Stream.seek_of_call (Stream.seek_of_stands hStands) hStands.unfailed
            hStands.errorState_eq hCall
          refine ⟨_, by rw [perform, Action.result_bind_of_ok hSeek]; rfl, ?_⟩
          intro hDone
          cases hDone
  | position =>
      have hHere : Origin.current.resolve 0 position data.length = some position :=
        toPosition?_eq_some_iff.mpr ⟨Int.add_zero _, Nat.lt_trans hOffset (by decide)⟩
      obtain ⟨after, hSeek, hAfter⟩ := Stream.seek_goes hStands hOffset hSize hHere hOffset
      refine ⟨after, ?_, fun _ => hAfter⟩
      rw [perform, Stream.position, Action.result_bind_of_ok hSeek]
      rfl
  | size =>
      obtain ⟨after, hAsked, hAfter⟩ := Stream.size_reaches hStands hOffset hSize
      exact ⟨after, by rw [perform, Action.result_bind_of_ok hAsked]; rfl, fun _ => hAfter⟩

/-- A buffered stream and a stream over the plain file were opened on the same bytes and have been
asked the same, and nothing has failed. Where the buffered one was refilled the other has nothing
to do, and where bytes were consumed from the buffer the other moved over them. The number is
where a cursor in the bytes would be. -/
inductive Alongside (source : Source) (capacity : Nat) (access : FileAccess) :
    Nat → Stream BufferedReader → Stream File → Prop where
  | opened {buffered : Stream BufferedReader} {direct : Stream File} {log later : List Event}
      (hBuffered : Stream.ofBackend (BufferedReader.ofSource source capacity) =
        .ok (buffered, log))
      (hDirect : Stream.ofBackend (File.opened source.bytes access source.position) =
        .ok (direct, later)) :
      Alongside source capacity access source.position buffered direct
  | asked {position : Nat} {buffered after : Stream BufferedReader} {direct moved : Stream File}
      {request : Request} {answer reply : Transfer}
      (hBefore : Alongside source capacity access position buffered direct)
      (hNext : request.next source.bytes position < magnitudeLimit)
      (hBuffered : request.perform.result buffered = (.ok answer, after))
      (hDone : answer.outcome.code = .success)
      (hDirect : request.perform.result direct = (.ok reply, moved)) :
      Alongside source capacity access (request.next source.bytes position) after moved
  | refilled {position : Nat} {buffered after : Stream BufferedReader} {direct : Stream File}
      (hBefore : Alongside source capacity access position buffered direct)
      (hExhausted : buffered.window.exhausted = true)
      (hRefill : Action.result Stream.refill buffered = (.ok .success, after)) :
      Alongside source capacity access position after direct
  | consumed {position count : Nat} {buffered after : Stream BufferedReader}
      {direct moved : Stream File} {outcome : Outcome}
      (hBefore : Alongside source capacity access position buffered direct)
      (hCount : count ≤ buffered.available)
      (hConsume : (Stream.consume count).result buffered = (.ok (), after))
      (hAdvance : (Stream.seek count .current).result direct = (.ok outcome, moved)) :
      Alongside source capacity access (position + count) after moved

namespace Alongside

variable {source : Source} {capacity : Nat} {access : FileAccess} {position : Nat}
variable {buffered : Stream BufferedReader} {direct : Stream File}

theorem advance_reaches {data : Bytes} {count : Nat} (hStands : direct.Stands data position .success)
    (hLength : data.length < magnitudeLimit) (hPosition : position < magnitudeLimit)
    (hCount : count ≤ data.length - position) :
    direct.Reaches (Stream.seek count .current) (.done (position + count)) data
      (position + count) := by
  have hLimit : magnitudeLimit < offsetLimit := by decide
  have hPositions : offsetLimit < positionLimit := by decide
  have hTarget : Origin.current.resolve count position data.length = some (position + count) :=
    toPosition?_eq_some_iff.mpr ⟨rfl, by omega⟩
  exact Stream.seek_goes hStands (by omega) (by omega) hTarget (by omega)

/-- The coupling that every step keeps: both streams are healthy and stand where the cursor is. -/
theorem coupled (hReliable : source.Reliable) (hAccess : access.canRead = true)
    (hLength : source.bytes.length < magnitudeLimit) (hStart : source.position < magnitudeLimit)
    (hRun : Alongside source capacity access position buffered direct) :
    buffered.Stands source.bytes position .success ∧
      direct.Stands source.bytes position .success ∧ position < magnitudeLimit := by
  induction hRun with
  | opened hBuffered hDirect =>
      cases hBuffered
      cases hDirect
      exact ⟨⟨rfl, rfl, BufferedReader.holds_ofSource hReliable capacity, rfl⟩,
        ⟨rfl, rfl, ⟨rfl, rfl, hAccess, SystemCall.smooth_nil⟩, rfl⟩, hStart⟩
  | @asked position buffered after direct moved request answer reply hBefore hNext hBuffered hDone
      hDirect ih =>
      -- Both streams give the answer of the cursor, so the file succeeds where the buffer does.
      obtain ⟨hThere, hFile, hPosition⟩ := ih
      obtain ⟨later, hAnswer, hLater⟩ := request.perform_answers hThere hPosition hLength hNext
      obtain ⟨last, hReply, hLast⟩ := request.perform_answers hFile hPosition hLength hNext
      rw [hBuffered] at hAnswer
      rw [hDirect] at hReply
      cases hAnswer
      cases hReply
      exact ⟨hLater hDone, hLast hDone, hNext⟩
  | @refilled position buffered after direct hBefore hExhausted hRefill ih =>
      obtain ⟨hThere, hFile, hPosition⟩ := ih
      refine ⟨?_, hFile, hPosition⟩
      -- A refill at the end of the bytes would have failed.
      by_cases hMore : position < source.bytes.length
      · obtain ⟨later, hRun, hLater, -⟩ := Stream.refill_reaches hThere hExhausted hMore
        rw [hRefill] at hRun
        cases hRun
        exact hLater
      · obtain ⟨later, hRun, -⟩ := Stream.refill_ended hThere hExhausted (Nat.le_of_not_lt hMore)
        rw [hRefill] at hRun
        cases hRun
  | @consumed position count buffered after direct moved outcome hBefore hCount hConsume hAdvance
      ih =>
      obtain ⟨hThere, hFile, hPosition⟩ := ih
      have hUnread := Stream.available_le_of_stands hThere
      have hLeft : count ≤ source.bytes.length - position := Nat.le_trans hCount hUnread
      obtain ⟨later, hRun, hLater⟩ := Stream.consume_reaches hThere hCount
      obtain ⟨last, hMove, hLast⟩ := advance_reaches hFile hLength hPosition hLeft
      rw [hConsume] at hRun
      rw [hAdvance] at hMove
      cases hRun
      cases hMove
      exact ⟨hLater, hLast, by omega⟩

/-- Wherever two streams have come alongside each other, the buffer shows the bytes at the cursor,
and every request gets the answer of the cursor from both of them, the first one that fails as well
as all before it. A refill fails only at the end of the bytes, and consuming shown bytes is moving
over them. -/
theorem refines_cursor (hReliable : source.Reliable) (hAccess : access.canRead = true)
    (hLength : source.bytes.length < magnitudeLimit) (hStart : source.position < magnitudeLimit)
    (hRun : Alongside source capacity access position buffered direct) :
    buffered.available ≤ source.bytes.length - position ∧
    Stream.unread.result buffered =
      (.ok ((source.bytes.drop position).take buffered.available), buffered) ∧
    (∀ request : Request, request.next source.bytes position < magnitudeLimit →
      ∃ after moved,
        request.perform.result buffered = (.ok (request.answer source.bytes position), after) ∧
        request.perform.result direct = (.ok (request.answer source.bytes position), moved)) ∧
    (buffered.window.exhausted = true → ∃ after, Action.result Stream.refill buffered =
      (.ok (if position < source.bytes.length then .success else .endOfStream), after)) ∧
    (∀ count, count ≤ buffered.available → ∃ after moved,
      (Stream.consume count).result buffered = (.ok (), after) ∧
      (Stream.seek count .current).result direct = (.ok (.done (position + count)), moved)) := by
  obtain ⟨hThere, hFile, hPosition⟩ := coupled hReliable hAccess hLength hStart hRun
  have hUnread : buffered.available ≤ source.bytes.length - position :=
    Stream.available_le_of_stands hThere
  refine ⟨hUnread, ?_, ?_, ?_, ?_⟩
  · rw [Stream.unread, Action.result_bind_of_ok (Action.result_state buffered)]
    exact Stream.peek_of_stands hThere (Nat.le_refl _)
  · intro request hNext
    obtain ⟨after, hAnswer, -⟩ := request.perform_answers hThere hPosition hLength hNext
    obtain ⟨moved, hReply, -⟩ := request.perform_answers hFile hPosition hLength hNext
    exact ⟨after, moved, hAnswer, hReply⟩
  · intro hExhausted
    by_cases hMore : position < source.bytes.length
    · obtain ⟨after, hRefill, -⟩ := Stream.refill_reaches hThere hExhausted hMore
      exact ⟨after, by rw [hRefill, if_pos hMore]⟩
    · obtain ⟨after, hRefill, -⟩ :=
        Stream.refill_ended hThere hExhausted (Nat.le_of_not_lt hMore)
      exact ⟨after, by rw [hRefill, if_neg hMore]⟩
  · intro count hCount
    obtain ⟨after, hConsume, -⟩ := Stream.consume_reaches hThere hCount
    obtain ⟨moved, hAdvance, -⟩ :=
      advance_reaches hFile hLength hPosition (Nat.le_trans hCount hUnread)
    exact ⟨after, moved, hConsume, hAdvance⟩

/-- Three bytes from the second on, over a source that is interrupted and then gives one byte, are
read alongside a file: one byte first, and then whatever is asked. -/
theorem refines_cursor_behind_read :
    ∃ buffered direct, Alongside ⟨[1, 2, 3], 1, offsetLimit, true, [.interrupted, .atMost 1], []⟩
        2 .readOnly 2 buffered direct ∧
      Stream.unread.result buffered = (.ok ([3].take buffered.available), buffered) ∧
      ∀ request : Request, request.next [1, 2, 3] 2 < magnitudeLimit → ∃ after moved,
        request.perform.result buffered = (.ok (request.answer [1, 2, 3] 2), after) ∧
        request.perform.result direct = (.ok (request.answer [1, 2, 3] 2), moved) := by
  have hReliable :
      Source.Reliable ⟨[1, 2, 3], 1, offsetLimit, true, [.interrupted, .atMost 1], []⟩ :=
    ⟨rfl, by simp [SourceRead.Progresses], by simp, Nat.le_refl _⟩
  have hOpened := @refines_cursor _ 2 .readOnly _ _ _ hReliable rfl (by decide) (by decide)
    (.opened rfl rfl)
  obtain ⟨buffered, direct, hBuffered, hDirect⟩ := hOpened.2.2.1 (.read 1) (by decide)
  have hRun := Alongside.asked (.opened rfl rfl) (by decide) hBuffered rfl hDirect
  have hBehind := refines_cursor hReliable rfl (by decide) (by decide) hRun
  exact ⟨buffered, direct, hRun, hBehind.2.1, hBehind.2.2.1⟩

end Alongside

end Bytestream
