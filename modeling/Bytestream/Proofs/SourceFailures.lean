import Bytestream.Proofs.BufferedReading
import Bytestream.Proofs.CopyLoops
import Bytestream.Proofs.PermanentFailure

/-!
Failed reads of the source below a buffer. A stream that is only read keeps a read error exactly if a
read of its source failed, so that the end of the data never passes for a failure, nor a failure for
the end.
-/

namespace Bytestream

namespace Source

/-- The source came to `after` by reads that used up these entries of its schedule. -/
structure Made (before after : Source) (made : List SourceRead) : Prop where
  reads_eq : before.reads = made ++ after.reads
  readable_eq : after.readable = before.readable

/-- A read of the source failed on the way to `after`, if there was any: one that its schedule has
fail, or the first one where it is not readable. -/
def FailedBetween (before after : Source) : Prop :=
  before.readable = false ∨ ∃ made, before.Made after made ∧ .failed ∈ made

variable {before middle after : Source} {made more : List SourceRead}

theorem made_refl (source : Source) : source.Made source [] := ⟨rfl, rfl⟩

theorem Made.append (hFirst : before.Made middle made) (hNext : middle.Made after more) :
    before.Made after (made ++ more) := by
  refine ⟨?_, hNext.readable_eq.trans hFirst.readable_eq⟩
  rw [hFirst.reads_eq, hNext.reads_eq, List.append_assoc]

theorem Made.failedBetween_iff (hMade : before.Made after made) :
    before.FailedBetween after ↔ before.readable = false ∨ .failed ∈ made := by
  refine or_congr_right ⟨?_, fun hFailed => ⟨made, hMade, hFailed⟩⟩
  rintro ⟨others, hOthers, hFailed⟩
  rwa [List.append_cancel_right (hMade.reads_eq.symm.trans hOthers.reads_eq)]

/-- A read uses up the interruptions in front and the entry that answers it, and fails where that
entry does. -/
theorem made_of_read {source later : Source} {room : Nat} {answer : Option Bytes}
    (hRead : source.read room = (answer, later)) :
    ∃ made, source.Made later made ∧
      (answer = none ↔ source.readable = false ∨ .failed ∈ made) := by
  have hSplit := List.takeWhile_append_dropWhile (p := (· = SourceRead.interrupted))
    (l := source.reads)
  have hWaits : .failed ∉ source.reads.takeWhile (· = .interrupted) := fun hFailed => by
    have hWait := List.all_eq_true.mp List.all_takeWhile _ hFailed
    simp at hWait
  have hUsed {entry : SourceRead} {rest : List SourceRead}
      (hReads : source.reads.dropWhile (· = .interrupted) = entry :: rest) :
      source.reads = (source.reads.takeWhile (· = .interrupted) ++ [entry]) ++ rest := by
    rw [List.append_assoc, List.singleton_append, ← hReads, hSplit]
  have hReading := source.reading room
  rw [hRead] at hReading
  cases hReading with
  | refused hReadable => exact ⟨[], made_refl source, by simp [hReadable]⟩
  | failed hReadable hReads => exact ⟨_, ⟨hUsed hReads, rfl⟩, by simp⟩
  | scheduled hReadable hReads => exact ⟨_, ⟨hUsed hReads, rfl⟩, by simp [hReadable, hWaits]⟩
  | unscheduled hReadable hReads =>
      rw [hReads] at hSplit
      exact ⟨_, ⟨hSplit.symm, rfl⟩, by simp [hReadable, hWaits]⟩

end Source

/-- A refill reads the source once and passes its failure on, as nothing else. -/
theorem BufferedReader.made_of_refill {reader : BufferedReader} {window : Window} {code : Code}
    (hAnswer : (reader.refill window).value = .ok code) :
    ∃ made, reader.source.Made (reader.refill window).state.1.source made ∧
      (code = .readError ↔ reader.source.readable = false ∨ .failed ∈ made) := by
  rw [refill] at hAnswer ⊢
  split at hAnswer
  · cases hAnswer
  · rename_i hInside
    rw [if_neg hInside]
    dsimp only at hAnswer ⊢
    cases hRead : reader.source.read
        (reader.capacity - ((reader.buffer.drop window.cursor).take window.available).length) with
    | mk answer later =>
        obtain ⟨made, hMade, hFailed⟩ := Source.made_of_read hRead
        rw [hRead] at hAnswer
        cases answer with
        | none =>
            cases hAnswer
            exact ⟨made, hMade, by simpa using hFailed⟩
        | some added =>
            have hGiven : ¬(reader.source.readable = false ∨ .failed ∈ made) := by
              rw [← hFailed]
              exact Option.some_ne_none added
            dsimp only at hAnswer ⊢
            split at hAnswer <;> rename_i hNothing
            · cases hAnswer
              rw [if_pos hNothing]
              exact ⟨made, hMade, iff_of_false (by decide) hGiven⟩
            · cases hAnswer
              rw [if_neg hNothing]
              exact ⟨made, hMade, iff_of_false (by decide) hGiven⟩

namespace Stream

section Copying

variable {β : Type} [Backend β] {good : Stream β → Prop} {stream after : Stream β}

/-- Copying off the window does nothing to the stream but to refill and to move in the window. The
induction is on the rounds. -/
theorem takeBuffered_keeps
    (hRefill : ∀ {stream after : Stream β} {code : Code}, good stream →
      stream.window.exhausted = true → Action.result refill stream = (.ok code, after) → good after)
    (hMove : ∀ {stream : Stream β} (window : Window), good stream → good { stream with window })
    {rounds count : Nat} {bytes : Bytes} (hGood : good stream)
    (hRun : (takeBuffered rounds count).result stream = (.ok bytes, after)) : good after := by
  induction rounds generalizing stream count bytes with
  | zero =>
      cases hRun
      exact hGood
  | succ rounds ih =>
      rcases Nat.eq_zero_or_pos count with rfl | hWanted
      · cases hRun
        exact hGood
      rw [takeBuffered_of_pos hWanted] at hRun
      obtain ⟨_, ready, hReady, hRound⟩ := Action.ok_of_bind hRun
      have hStill : good ready := by
        cases hExhausted : stream.window.exhausted with
        | false =>
            rw [refillIfExhausted_of_unread hExhausted] at hReady
            cases hReady
            exact hGood
        | true =>
            rw [refillIfExhausted, Action.result_bind_of_ok (Action.result_state stream),
              if_pos hExhausted] at hReady
            obtain ⟨code, last, hRefilled, hDone⟩ := Action.ok_of_bind hReady
            cases hDone
            exact hRefill hGood hExhausted hRefilled
      rw [Action.result_bind_of_ok (Action.result_state ready)] at hRound
      split at hRound
      · obtain ⟨piece, behind, hPiece, hRest⟩ := Action.ok_of_bind hRound
        obtain ⟨rest, last, hLater, hDone⟩ := Action.ok_of_bind hRest
        cases hDone
        obtain ⟨window, rfl⟩ := window_of_takePiece hPiece
        exact ih (hMove window hStill) hLater
      · cases hRound
        exact hStill

end Copying

/-- What the reads of its source, counted from `start`, have made of a stream: it has no error as long
as none of them failed, and once it has one that is a read error exactly if some read did. -/
structure Tracks (start : Source) (stream : Stream BufferedReader) : Prop where
  offered : stream.capabilities.bufferedRead = true
  made : ∃ made, start.Made stream.backend.source made ∧
    (stream.failure = none ∧ stream.errorState = .success ∧ .failed ∉ made ∨
      stream.failure ≠ none ∧ stream.errorState ≠ .success ∧
        (stream.errorState = .readError ↔ start.readable = false ∨ .failed ∈ made))

namespace Tracks

variable {start : Source} {stream after : Stream BufferedReader}

theorem of_opened {stream : Stream BufferedReader} (hStart : stream.backend.source = start)
    (hOffers : stream.capabilities.bufferedRead = true) (hHealthy : stream.failure = none)
    (hClean : stream.errorState = .success) : Tracks start stream :=
  ⟨hOffers, [], hStart ▸ Source.made_refl _, .inl ⟨hHealthy, hClean, List.not_mem_nil⟩⟩

theorem move (hTracks : Tracks start stream) (window : Window) :
    Tracks start { stream with window } :=
  ⟨hTracks.offered, hTracks.made⟩

/-- One refill: the source is read only where nothing has failed yet. -/
theorem refill {code : Code} (hTracks : Tracks start stream)
    (hExhausted : stream.window.exhausted = true)
    (hRun : Action.result Stream.refill stream = (.ok code, after)) : Tracks start after := by
  obtain ⟨hOffers, made, hMade, hFine | hFailed⟩ := hTracks
  · obtain ⟨hHealthy, hClean, hNone⟩ := hFine
    obtain ⟨answer, hAnswer, hBecame⟩ := refill_of_call hOffers hExhausted hHealthy hRun
    obtain ⟨more, hMore, hRead⟩ := BufferedReader.made_of_refill hAnswer
    have hAll := hMade.append hMore
    rw [hMade.readable_eq] at hRead
    cases refilled_of_result hRun with
    | absent hAbsent => exact nomatch hAbsent.symm.trans hOffers
    | served hFailure => exact nomatch hHealthy.symm.trans hFailure
    | filled _ hFilled =>
        obtain ⟨rfl, -⟩ := hBecame.resolve_right fun hBad => nomatch hHealthy.symm.trans hBad.2
        have hFine := (not_congr hRead).mp nofun
        refine ⟨hOffers, _, hAll, .inl ⟨hHealthy, hClean, fun hIn => ?_⟩⟩
        exact (List.mem_append.mp hIn).elim hNone fun hLater => hFine (.inr hLater)
    | failed _ hCode =>
        obtain ⟨-, hSame⟩ := hBecame.resolve_left fun hDone =>
          stream.kept_ne_success hCode hDone.2
        cases hSame
        have hKept := kept_of_clean hClean answer
        refine ⟨hOffers, _, hAll, .inr ⟨nofun, by rwa [hKept], ?_⟩⟩
        rw [hKept, hRead, List.mem_append, or_iff_right hNone]
  · obtain ⟨hSealed, hKept, hRead⟩ := hFailed
    cases refilled_of_result hRun with
    | absent hAbsent => exact nomatch hAbsent.symm.trans hOffers
    | served hFailure =>
        refine ⟨hOffers, made, hMade, .inr ⟨hSealed, ?_⟩⟩
        rw [kept_of_failed hKept]
        exact ⟨hKept, hRead⟩
    | filled hHealthy => exact absurd hHealthy hSealed
    | failed hHealthy => exact absurd hHealthy hSealed

/-- And so does every read through the window. -/
theorem bufferedRead {count : Nat} {transfer : Transfer} (hTracks : Tracks start stream)
    (hSome : 0 < count)
    (hRun : (Stream.bufferedRead count).result stream = (.ok transfer, after)) :
    Tracks start after := by
  obtain ⟨bytes, hTaken, -⟩ := taken_of_bufferedRead hSome hTracks.offered hRun
  exact takeBuffered_keeps (fun hGood => hGood.refill) (fun window hGood => hGood.move window)
    hTracks hTaken

theorem failedBetween_iff (hTracks : Tracks start stream) (hFailed : stream.errorState ≠ .success) :
    start.FailedBetween stream.backend.source ↔ stream.errorState = .readError := by
  obtain ⟨-, made, hMade, hFine | ⟨-, -, hRead⟩⟩ := hTracks
  · exact absurd hFine.2.1 hFailed
  · rw [hMade.failedBetween_iff, hRead]

end Tracks

end Stream

end Bytestream
