import Bytestream.Proofs.BufferedReading
import Bytestream.Proofs.ReadableBackends

/-!
Seeking. Whatever a backend keeps between its window and its data, a seek that resolves to a place
in the data goes there, and reading goes on from there. Files and readers in front of files can
also be moved past the end.
-/

namespace Bytestream

/-- A backend that can be moved to every place in its data. -/
class SeeksWithin (β : Type) [Backend β] [Readable β] : Prop where
  seek_offered : (Offering.offers β).seek = true
  moves : ∀ {backend : β} {window : Window} {data : Bytes} {position target : Nat} {offset : Int}
    {origin : Origin}, Readable.Holds backend window data position →
      origin.resolve offset position data.length = some target → target ≤ data.length →
      data.length < offsetLimit → -offsetLimit ≤ offset →
      ∃ later moved log,
        Backend.seek backend window offset origin = ⟨.ok (.done target), (later, moved), log⟩ ∧
        Readable.Holds later moved data target

/-- A backend that can be moved and measured as a file can: to every offset, in the data or past
it, and not in front of it. -/
class FileLike (β : Type) [Backend β] [Readable β] : Prop where
  seek_size_offered : (Offering.offers β).seek = true ∧ (Offering.offers β).size = true
  goes : ∀ {backend : β} {window : Window} {data : Bytes} {position target : Nat} {offset : Int}
    {origin : Origin}, Readable.Holds backend window data position →
      origin.resolve offset position data.length = some target → target < offsetLimit →
      data.length < offsetLimit → -offsetLimit ≤ offset →
      ∃ later moved log,
        Backend.seek backend window offset origin = ⟨.ok (.done target), (later, moved), log⟩ ∧
        Readable.Holds later moved data target
  refuses : ∀ {backend : β} {window : Window} {data : Bytes} {position : Nat} {offset : Int}
    {origin : Origin}, Readable.Holds backend window data position →
      origin.resolve offset position data.length = none →
      ∃ later moved log,
        Backend.seek backend window offset origin =
          ⟨.ok (.failed .seekError), (later, moved), log⟩
  measures : ∀ {backend : β} {window : Window} {data : Bytes} {position : Nat},
    Readable.Holds backend window data position → position < offsetLimit →
      data.length < offsetLimit →
      ∃ later log, Backend.size backend = ⟨.done data.length, later, log⟩ ∧
        Readable.Holds later window data position

/-- Every place in the data of a file is an offset. -/
instance FileLike.seeksWithin {β : Type} [Backend β] [Readable β] [FileLike β] : SeeksWithin β where
  seek_offered := FileLike.seek_size_offered.1
  moves hHolds hTarget hInside hLength hOffset :=
    FileLike.goes hHolds hTarget (Nat.lt_of_le_of_lt hInside hLength) hLength hOffset

namespace Stream

variable {β : Type} [Backend β] {stream : Stream β} {offset : Int} {origin : Origin}

/-- A seek asks the backend of a healthy stream. -/
theorem seek_eq_call (hOffers : stream.capabilities.seek = true)
    (hHealthy : stream.failure = none) :
    (seek offset origin).result stream = Action.result (do
      conclude (← callOnWindow (Backend.seek · · offset origin))) stream := by
  rw [seek, Action.result_bind_of_ok (Action.result_state stream), if_pos hOffers, hHealthy]

/-- What the backend makes of a seek is what the stream reports, if nothing failed before. -/
theorem seek_of_call {backend : β} {window : Window} {outcome : Outcome} {log : List Event}
    (hOffers : stream.capabilities.seek = true) (hHealthy : stream.failure = none)
    (hClean : stream.errorState = .success)
    (hCall : Backend.seek stream.backend stream.window offset origin =
      ⟨.ok outcome, (backend, window), log⟩) :
    (seek offset origin).result stream =
      (.ok outcome, { stream with backend, window, errorState := outcome.code }) := by
  have hCalled : (callOnWindow (Backend.seek · · offset origin)).result stream =
      (.ok outcome, { stream with backend, window }) := by
    simp only [Action.result, callOnWindow, hCall]
  rw [seek_eq_call hOffers hHealthy, Action.result_bind_of_ok hCalled]
  exact @result_conclude_of_clean β { stream with backend, window } hClean outcome

variable [Readable β] [SeeksWithin β] {data : Bytes} {position target : Nat}

theorem seek_of_stands {code : Code} (hStands : stream.Stands data position code) :
    stream.capabilities.seek = true := by
  rw [hStands.offered]
  exact SeeksWithin.seek_offered

/-- A seek inside the data reports where it went and keeps the stream healthy. -/
theorem seek_reaches (hStands : stream.Stands data position .success)
    (hTarget : origin.resolve offset position data.length = some target)
    (hInside : target ≤ data.length) (hLength : data.length < offsetLimit)
    (hOffset : -offsetLimit ≤ offset) :
    stream.Reaches (seek offset origin) (.done target) data target := by
  obtain ⟨backend, window, log, hCall, hHolds⟩ :=
    SeeksWithin.moves hStands.holds hTarget hInside hLength hOffset
  exact ⟨_, seek_of_call (seek_of_stands hStands) hStands.unfailed hStands.errorState_eq hCall,
    hStands.unfailed, hStands.offered, hHolds, rfl⟩

end Stream

instance : FileLike BufferedReader where
  seek_size_offered := ⟨rfl, rfl⟩
  goes := by
    intro reader window data position target offset origin hHolds hTarget hLimit hLength hOffset
    obtain ⟨later, hSeek, hLater⟩ :=
      BufferedReader.Holds.seek hHolds hTarget hLimit hLength hOffset
    exact ⟨later, Window.empty, [], hSeek, hLater⟩
  refuses := by
    intro reader window data position offset origin hHolds hTarget
    obtain ⟨later, hSeek⟩ := BufferedReader.Holds.seek_refused hHolds hTarget
    exact ⟨later, window, [], hSeek⟩
  measures := by
    intro reader window data position hHolds hPosition hLength
    obtain ⟨later, hSize, hLater⟩ := BufferedReader.Holds.size hHolds hLength hPosition
    exact ⟨later, [], hSize, hLater⟩

instance : FileLike File where
  seek_size_offered := ⟨rfl, rfl⟩
  goes := by
    rintro file window data position target offset origin ⟨rfl, rfl, hReads⟩ hTarget hLimit - -
    refine ⟨{ file with position := target }, window, [], ?_, rfl, rfl, hReads⟩
    show (File.seek file offset origin).beside window = _
    rw [File.seek, hTarget]
    dsimp only
    rw [if_pos hLimit]
    rfl
  refuses := by
    rintro file window data position offset origin ⟨rfl, rfl, -⟩ hTarget
    refine ⟨file, window, [], ?_⟩
    show (File.seek file offset origin).beside window = _
    rw [File.seek, hTarget]
    rfl
  measures := by
    rintro file window data position ⟨rfl, rfl, hReads⟩ - -
    exact ⟨file, [], rfl, rfl, rfl, hReads⟩

instance : SeeksWithin Region where
  seek_offered := rfl
  moves := by
    rintro region window data position target offset origin ⟨rfl, rfl⟩ hTarget hInside - -
    refine ⟨⟨region.toCursor.moveTo target hInside⟩, window, [], ?_, rfl, rfl⟩
    show (Region.seek region offset origin).beside window = _
    rw [Region.seek, hTarget]
    dsimp only
    rw [dif_pos hInside]
    rfl

instance [Memory] : SeeksWithin Growable where
  seek_offered := rfl
  moves := by
    rintro vector window data position target offset origin ⟨rfl, rfl⟩ hTarget hInside - -
    have hHeld : vector.canHold target := Or.inl hInside
    have hSame : (vector.extend target).bytes = vector.bytes := by
      show vector.bytes ++ List.replicate (target - vector.bytes.length) 0 = vector.bytes
      rw [Nat.sub_eq_zero_of_le hInside, List.replicate_zero, List.append_nil]
    refine ⟨⟨(vector.extend target).moveTo target (by rw [hSame]; exact hInside)⟩, window, [], ?_,
      hSame, rfl⟩
    show (Growable.seek vector offset origin).beside window = _
    rw [Growable.seek, hTarget]
    dsimp only
    rw [if_pos hHeld]
    rfl

instance : SeeksWithin ReadOnly where
  seek_offered := rfl
  moves := by
    rintro source window data position target offset origin ⟨rfl, hStart, rfl, hStop⟩ hTarget
      hInside - -
    refine ⟨source, ⟨0, target, source.bytes.length, Nat.zero_le target, hInside⟩, [], ?_, rfl,
      rfl, rfl, rfl⟩
    show ReadOnly.seek source window offset origin = _
    rw [ReadOnly.seek, hTarget]
    dsimp only
    rw [dif_pos hInside]

instance : SeeksWithin Pieces where
  seek_offered := rfl
  moves := by
    rintro source window data position target offset origin ⟨rfl, rfl, hStop, hPattern⟩ hTarget
      hInside - -
    refine ⟨source, Window.run target 0, [], ?_, rfl, rfl, hInside, hPattern⟩
    show Pieces.seek source window offset origin = _
    rw [Pieces.seek, hTarget]
    dsimp only
    rw [if_pos hInside]

end Bytestream
