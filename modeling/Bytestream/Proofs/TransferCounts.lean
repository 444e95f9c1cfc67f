import Bytestream.Backend.Simple
import Bytestream.Proofs.WindowContent

/-!
What a transfer reports. It reports how many bytes it moved, and success if and only if those were all.
That is decided in several places: where bytes are copied, where a file is read or written, where a
window is copied off, and where an earlier error takes the place of the code. In none of them does a
success stand for less than was asked for, nor a failure for all of it.
-/

namespace Bytestream

/-- The outcome of a transfer of `wanted` bytes: it counts no more than those, and is a success if and
only if it counts all of them. -/
structure Outcome.Tells (outcome : Outcome) (wanted : Nat) : Prop where
  most : outcome.value ≤ wanted
  whole_iff : outcome.code = .success ↔ outcome.value = wanted

section Outcomes

variable {wanted : Nat}

theorem Outcome.tells_failed {code : Code} (hSome : 0 < wanted) (hCode : code ≠ .success) :
    (failed code).Tells wanted where
  most := Nat.zero_le wanted
  whole_iff := iff_of_false hCode (Nat.ne_of_lt hSome)

theorem Outcome.tells_done (hFits : wanted < magnitudeLimit) : (done wanted).Tells wanted where
  most := Nat.le_of_eq (value_report .success hFits)
  whole_iff := iff_of_true rfl (value_report .success hFits)

/-- A count with a code that is a success just where everything is counted. -/
theorem Outcome.tells_report {moved : Nat} {code : Code} (hFits : wanted < magnitudeLimit)
    (hMost : moved ≤ wanted) (hWhole : code = .success ↔ moved = wanted) :
    (report moved code).Tells wanted := by
  have hValue := value_report code (Nat.lt_of_le_of_lt hMost hFits)
  constructor
  · rwa [hValue]
  · rwa [hValue, code_report]

theorem Transfer.tells_copy {room : Nat} {source : Bytes} (hFits : wanted < magnitudeLimit) :
    (copy room source wanted).outcome.Tells wanted := by
  have hMost : (source.take (min wanted room)).length ≤ wanted := by
    rw [List.length_take]
    omega
  refine Outcome.tells_report hFits hMost ?_
  split
  · exact iff_of_false (by decide) (Nat.ne_of_lt ‹_›)
  · exact iff_of_true rfl (Nat.le_antisymm hMost (Nat.le_of_not_lt ‹_›))

/-- An earlier error takes the place of the code, and a success with it loses its count. -/
theorem Stream.tells_reported {β : Type} (stream : Stream β) {outcome : Outcome} (hSome : 0 < wanted)
    (hTells : outcome.Tells wanted) : (stream.reported outcome).Tells wanted := by
  rw [reported]
  split
  · exact hTells
  · rename_i hFailed
    split
    · exact Outcome.tells_failed hSome hFailed
    · rename_i hShort
      exact ⟨hTells.most, iff_of_false hFailed fun hWhole => hShort (hTells.whole_iff.mpr hWhole)⟩

end Outcomes

/-- A backend whose transfers tell. One that it does not offer is refused. -/
class TellsTransfers (β : Type) [Backend β] : Prop where
  reads : ∀ (backend : β) {count : Nat}, 0 < count → count < magnitudeLimit →
    (Backend.read backend count).value.outcome.Tells count
  writes : ∀ (backend : β) {source : Bytes}, source ≠ [] → source.length < magnitudeLimit →
    (Backend.write backend source).value.Tells source.length

instance : TellsTransfers Region where
  reads _ _ _ hFits := Transfer.tells_copy hFits
  writes := by
    intro region source hSome hFits
    change (region.write source).value.Tells source.length
    rw [Region.write]
    split
    · exact Outcome.tells_failed (List.length_pos_iff.mpr hSome) (by decide)
    · exact Transfer.tells_copy hFits

instance [Memory] : TellsTransfers Growable where
  reads _ _ _ hFits := Transfer.tells_copy hFits
  writes := by
    intro vector source hSome hFits
    change (vector.write source).value.Tells source.length
    rw [Growable.write]
    split
    · exact Outcome.tells_done hFits
    · exact Outcome.tells_failed (List.length_pos_iff.mpr hSome) (by decide)

instance : TellsTransfers File where
  reads := by
    intro file count _ hFits
    change (file.read count).value.outcome.Tells count
    obtain ⟨taken, code, after, log, hRead, -, hMost, hWhole⟩ := file.read_takes count
    rw [hRead]
    exact Outcome.tells_report hFits hMost hWhole
  writes := by
    intro file source _ hFits
    change (file.write source).value.Tells source.length
    obtain ⟨piece, code, after, log, hWrite, -, hMost, hWhole⟩ := file.write_puts source
    rw [hWrite]
    exact Outcome.tells_report hFits hMost hWhole

instance : TellsTransfers Sink where
  reads _ _ hSome _ := Outcome.tells_failed hSome (by decide)
  writes _ _ _ hFits := Outcome.tells_done hFits

namespace Stream

section Accounts

variable {β : Type} [Backend β] {stream after : Stream β} {destination source : Bytes}
variable {transfer : Transfer} {outcome : Outcome}

/-- Every read into a buffer that is not empty yields, and this holds of the buffer, of what the read
yields and of the stream that it leaves. -/
def EachRead (stream : Stream β) (read : Nat → Op β Transfer)
    (holds : Bytes → Transfer → Stream β → Prop) : Prop :=
  ∀ destination : Bytes, destination ≠ [] → destination.length < magnitudeLimit →
    ∃ transfer after, (read destination.length).result stream = (.ok transfer, after) ∧
      holds destination transfer after

/-- The same of every write of a buffer that is not empty. -/
def EachWrite (stream : Stream β) (holds : Bytes → Outcome → Stream β → Prop) : Prop :=
  ∀ source : Bytes, source ≠ [] → source.length < magnitudeLimit →
    ∃ outcome after, (Stream.write source).result stream = (.ok outcome, after) ∧
      holds source outcome after

omit [Backend β] in
theorem EachRead.imp {read : Nat → Op β Transfer} {holds other : Bytes → Transfer → Stream β → Prop}
    (hEach : stream.EachRead read holds)
    (hOther : ∀ destination transfer after, holds destination transfer after →
      other destination transfer after) : stream.EachRead read other := by
  intro destination hSome hFits
  obtain ⟨transfer, after, hRun, hHolds⟩ := hEach destination hSome hFits
  exact ⟨transfer, after, hRun, hOther destination transfer after hHolds⟩

theorem EachWrite.imp {holds other : Bytes → Outcome → Stream β → Prop}
    (hEach : stream.EachWrite holds)
    (hOther : ∀ source outcome after, holds source outcome after → other source outcome after) :
    stream.EachWrite other := by
  intro source hSome hFits
  obtain ⟨outcome, after, hRun, hHolds⟩ := hEach source hSome hFits
  exact ⟨outcome, after, hRun, hOther source outcome after hHolds⟩

variable [Placed β]

/-- The outcome of a transfer of `wanted` bytes tells, and unless there was an error before the stream
has moved as far as it counts. -/
structure Reports (stream : Stream β) (wanted : Nat) (outcome : Outcome) (after : Stream β) : Prop where
  tells : outcome.Tells wanted
  advances : stream.errorState = .success → after.place = stream.place + outcome.value

/-- Every transfer of the stream is reported as it is, and the place that it moves is the position that
a query finds, if it finds any. -/
structure ReportsTransfers (stream : Stream β) : Prop where
  read : stream.EachRead Stream.read fun destination transfer after =>
    stream.Reports destination.length transfer.outcome after
  bufferedRead : stream.EachRead Stream.bufferedRead fun destination transfer after =>
    stream.Reports destination.length transfer.outcome after
  write : stream.EachWrite fun source outcome after => stream.Reports source.length outcome after
  position : stream.errorState = .success → ∀ outcome after,
    Action.result position stream = (.ok outcome, after) → outcome.code = .success →
      ∃ target : Nat, (target : Int) = stream.place ∧ outcome = .done target

/-- A read put as many bytes as it counts at the front of its destination, those that lie where the
stream stood. The rest of the destination is as it was, and so is the data. -/
structure Filled (stream : Stream β) (destination : Bytes) (transfer : Transfer)
    (after : Stream β) : Prop where
  there : transfer.outcome.value ≤ (Stored.content stream.backend).length - stream.place.toNat
  fill_eq : transfer.fill destination =
    ((Stored.content stream.backend).drop stream.place.toNat).take transfer.outcome.value ++
      destination.drop transfer.outcome.value
  content_eq : Stored.content after.backend = Stored.content stream.backend

/-- A write stored as many bytes as it counts, those at the front of its source, where the stream stood. -/
def Emptied (stream : Stream β) (source : Bytes) (outcome : Outcome) (after : Stream β) : Prop :=
  Stored.content after.backend =
    (Stored.content stream.backend).store stream.place.toNat (source.take outcome.value)

/-- Every transfer of the stream moves the bytes that it counts, from or to where the stream stands. -/
structure MovesTransfers (stream : Stream β) : Prop where
  standing : 0 ≤ stream.place
  read : stream.EachRead Stream.read stream.Filled
  bufferedRead : stream.EachRead Stream.bufferedRead stream.Filled
  write : stream.EachWrite stream.Emptied

/-- A stream on the backend opens, and reports its transfers wherever permitted uses take it. Wherever
uses that are allowed take it without an error, it moves the bytes that it reports. -/
def TransfersWhole [Memory] (allowed : Use → Stream β → Prop) (backend : β) : Prop :=
  ∃ start log, ofBackend backend = .ok (start, log) ∧
    (∀ reached, start.Reachable Use.Permitted reached → reached.ReportsTransfers) ∧
    ∀ reached, start.Reachable allowed reached → reached.errorState = .success →
      reached.MovesTransfers

/-- A read that stored bytes from where the stream stood, and counts them. -/
theorem Filled.of_front (hValue : transfer.outcome.value = transfer.bytes.length)
    (hMost : transfer.bytes.length ≤ destination.length)
    (hFront : transfer.bytes =
      ((Stored.content stream.backend).drop stream.place.toNat).take transfer.bytes.length)
    (hContent : Stored.content after.backend = Stored.content stream.backend) :
    stream.Filled destination transfer after where
  there := by
    have hThere := congrArg List.length hFront
    rw [List.length_take, List.length_drop] at hThere
    omega
  fill_eq := by rw [Transfer.fill, hValue, List.take_of_length_le hMost, ← hFront]
  content_eq := hContent

/-- A refusal counts nothing, and moves nothing. -/
theorem Reports.refused {wanted : Nat} {code : Code} (hSome : 0 < wanted) (hCode : code ≠ .success)
    (hPlace : after.place = stream.place) : stream.Reports wanted (.failed code) after where
  tells := Outcome.tells_failed hSome hCode
  advances _ := by rw [hPlace, Outcome.value_failed, Int.natCast_zero, Int.add_zero]

/-- A position that is reported under no error is where the stream stands. -/
theorem located_of_position (hClean : stream.errorState = .success)
    (hFinal : stream.failure ≠ some .success)
    (hRun : Action.result position stream = (.ok outcome, after)) (hDone : outcome.code = .success) :
    ∃ target : Nat, (target : Int) = stream.place ∧ outcome = .done target := by
  cases hOffers : stream.capabilities.seek with
  | false =>
      rw [position, seek_of_absent hOffers, result_unsupported] at hRun
      cases hRun
      cases hDone
  | true =>
      cases hFailure : stream.failure with
      | some code =>
          rw [position, seek_of_failure hOffers hFailure] at hRun
          cases hRun
          exact absurd (hDone ▸ hFailure) hFinal
      | none =>
          have hCleared : stream.cleared = stream := by
            rw [cleared_of_healthy hFailure, ← hClean]
          rw [← hCleared] at hRun
          exact place_of_position hOffers hFinal hRun hDone

end Accounts

section Refusals

variable {β : Type} [Backend β] {stream : Stream β} {count : Nat}

/-- A read that is not offered is refused. -/
theorem read_unoffered (hSome : 0 < count) (hAbsent : stream.capabilities.read = false)
    (hUnbuffered : stream.capabilities.bufferedRead = false) :
    (Stream.read count).result stream = (.ok (.none (.failed .invalidOperation)),
      { stream with errorState := stream.kept .invalidOperation }) := by
  rw [read_of_absent hSome hAbsent hUnbuffered, Action.result_bind_of_ok stream.result_unsupported,
    Action.result_pure]

theorem bufferedRead_unoffered (hSome : 0 < count)
    (hUnbuffered : stream.capabilities.bufferedRead = false) :
    (Stream.bufferedRead count).result stream = (.ok (.none (.failed .invalidOperation)),
      { stream with errorState := stream.kept .invalidOperation }) := by
  rw [bufferedRead_of_absent hSome hUnbuffered, Action.result_bind_of_ok stream.result_unsupported,
    Action.result_pure]

theorem write_unoffered {source : Bytes} (hSome : source ≠ [])
    (hAbsent : stream.capabilities.write = false) :
    (Stream.write source).result stream = (.ok (.failed .invalidOperation),
      { stream with errorState := stream.kept .invalidOperation }) :=
  (write_of_absent hSome hAbsent).trans stream.result_unsupported

end Refusals

end Stream

/-- A backend without a window whose transfers, where it offers them, move it by what they transfer. -/
class MovesAsOffered (β : Type) [Backend β] [Offering β] [Placed β] : Prop where
  unbuffered : (Offering.offers β).bufferedRead = false
  standing : ∀ (backend : β) (window : Window), 0 ≤ Placed.place backend window
  writes : (Offering.offers β).write = true → ∀ (backend : β) (window : Window) {source : Bytes},
    source ≠ [] → source.length < magnitudeLimit →
      ∃ piece, Wrote backend window source piece (Backend.write backend source)
  reads : (Offering.offers β).read = true → ∀ (backend : β) (window : Window) {count : Nat},
    0 < count → count < magnitudeLimit →
      ∃ taken, Took backend window count taken (Backend.read backend count)

theorem movesAsOffered_of_direct {β : Type} [Backend β] [Offering β] [Placed β] [MovesDirectly β]
    (hStanding : ∀ (backend : β) (window : Window), 0 ≤ Placed.place backend window) :
    MovesAsOffered β where
  unbuffered := MovesDirectly.unbuffered
  standing := hStanding
  writes _ := MovesDirectly.writes
  reads _ := MovesDirectly.reads

instance : MovesAsOffered Region := movesAsOffered_of_direct fun _ _ => Int.natCast_nonneg _

instance [Memory] : MovesAsOffered Growable := movesAsOffered_of_direct fun _ _ => Int.natCast_nonneg _

instance : MovesAsOffered File := movesAsOffered_of_direct fun _ _ => Int.natCast_nonneg _

instance : Offering Sink where
  offers := { write := true }
  capabilities_eq _ := rfl

/-- A sink stands at the end of what it has collected, and cannot be asked for its position. -/
instance : Placed Sink where
  content sink := sink.bytes
  read _ _ := rfl
  refill _ _ := rfl
  place sink _ := sink.bytes.length
  spent sink := sink.bytes.length
  located hSeek hCode := by
    cases hSeek
    cases hCode

/-- What is stored at the end of bytes is appended to them. -/
theorem Bytes.store_length (bytes piece : Bytes) :
    bytes.store bytes.length piece = bytes ++ piece := by
  by_cases hNone : piece = []
  · rw [hNone, store_nil, List.append_nil]
  · rw [store_of_ne_nil hNone, zeroExtend_of_le (Nat.le_refl _), overwrite, List.take_length,
      List.drop_of_length_le (Nat.le_add_right _ _), List.append_nil]

instance : MovesAsOffered Sink where
  unbuffered := rfl
  standing _ _ := Int.natCast_nonneg _
  writes _ sink _ source _ hFits :=
    ⟨source, .stored hFits rfl (Bytes.store_length sink.bytes source).symm
      (congrArg Nat.cast List.length_append)⟩
  reads hOffers := nomatch hOffers

namespace Stream

section Unbuffered

variable {β : Type} [Backend β] [Offering β] [Placed β] [MovesAsOffered β] {stream : Stream β}

theorem Intact.unbuffered (hIntact : stream.Intact) : stream.capabilities.bufferedRead = false := by
  rw [hIntact.offered, MovesAsOffered.unbuffered]

variable [TellsTransfers β]

/-- A read is the backend's if it offers one, and is reported under the error that there was before. -/
theorem Intact.reads_whole (hIntact : stream.Intact) :
    stream.EachRead Stream.read fun destination transfer after =>
      stream.Reports destination.length transfer.outcome after ∧
        (stream.errorState = .success → stream.Filled destination transfer after) := by
  intro destination hSome hFits
  have hHealthy := hIntact.healthy
  have hHere := place_of_healthy hHealthy
  have hCount := List.length_pos_iff.mpr hSome
  cases hOffers : stream.capabilities.read with
  | false =>
      exact ⟨_, _, read_unoffered hCount hOffers hIntact.unbuffered, .refused hCount (by decide) rfl,
        fun _ => .of_front rfl (Nat.zero_le _) rfl rfl⟩
  | true =>
      obtain ⟨taken, hTook⟩ := MovesAsOffered.reads (hIntact.offered ▸ hOffers) stream.backend
        stream.window hCount hFits
      obtain rfl := hTook.bytes_eq
      refine ⟨_, _, read_of_offered hCount hOffers, ⟨?_, fun hClean => ?_⟩, fun hClean => ?_⟩
      · exact stream.tells_reported hCount (TellsTransfers.reads stream.backend hCount hFits)
      · rw [reported, if_pos hClean, hTook.value_eq, hHere, place_of_healthy (by exact hHealthy)]
        exact hTook.place_eq
      · rw [reported, if_pos hClean]
        refine .of_front hTook.value_eq hTook.most ?_ (Stored.read stream.backend destination.length)
        rw [hHere]
        exact hTook.front

/-- So is a write. -/
theorem Intact.writes_whole (hIntact : stream.Intact) :
    stream.EachWrite fun source outcome after => stream.Reports source.length outcome after ∧
      (stream.errorState = .success → stream.Emptied source outcome after) := by
  intro source hSome hFits
  have hHealthy := hIntact.healthy
  have hHere := place_of_healthy hHealthy
  have hCount := List.length_pos_iff.mpr hSome
  cases hOffers : stream.capabilities.write with
  | false =>
      exact ⟨_, _, write_unoffered hSome hOffers, .refused hCount (by decide) rfl, fun _ => rfl⟩
  | true =>
      obtain ⟨piece, hWrote⟩ := MovesAsOffered.writes (hIntact.offered ▸ hOffers) stream.backend
        stream.window hSome hFits
      refine ⟨_, _, write_of_offered hSome hOffers, ⟨?_, fun hClean => ?_⟩, fun hClean => ?_⟩
      · exact stream.tells_reported hCount (TellsTransfers.writes stream.backend hSome hFits)
      · rw [reported, if_pos hClean, hWrote.value_eq, hHere, place_of_healthy (by exact hHealthy)]
        exact hWrote.place_eq
      · rw [Emptied, reported, if_pos hClean, hHere, hWrote.value_eq, ← hWrote.front]
        exact hWrote.content_eq

theorem Intact.reportsTransfers (hIntact : stream.Intact) : stream.ReportsTransfers where
  read := hIntact.reads_whole.imp fun _ _ _ hWhole => hWhole.1
  bufferedRead _ hSome _ := by
    have hCount := List.length_pos_iff.mpr hSome
    exact ⟨_, _, bufferedRead_unoffered hCount hIntact.unbuffered, .refused hCount (by decide) rfl⟩
  write := hIntact.writes_whole.imp fun _ _ _ hWhole => hWhole.1
  position hClean _ _ := by
    refine located_of_position hClean ?_
    rw [hIntact.healthy]
    exact nofun

theorem Intact.movesTransfers (hIntact : stream.Intact) (hClean : stream.errorState = .success) :
    stream.MovesTransfers where
  standing := by
    rw [place_of_healthy hIntact.healthy]
    exact MovesAsOffered.standing stream.backend stream.window
  read := hIntact.reads_whole.imp fun _ _ _ hWhole => hWhole.2 hClean
  bufferedRead _ hSome _ :=
    ⟨_, _, bufferedRead_unoffered (List.length_pos_iff.mpr hSome) hIntact.unbuffered,
      .of_front rfl (Nat.zero_le _) rfl rfl⟩
  write := hIntact.writes_whole.imp fun _ _ _ hWhole => hWhole.2 hClean

theorem transfersWhole_of_unbuffered [Memory] {backend : β} {window : Window}
    (hWindow : Backend.initialWindow backend = .ok window) :
    TransfersWhole Use.Permitted backend := by
  obtain ⟨log, hOpened⟩ := ofBackend_of_window hWindow
  exact ⟨_, log, hOpened,
    fun reached hReached => (intact_of_reachable MovesAsOffered.unbuffered hReached).reportsTransfers,
    fun reached hReached => (intact_of_reachable MovesAsOffered.unbuffered hReached).movesTransfers⟩

end Unbuffered

section Windows

variable {β : Type} [Backend β] [FitsWindow β] {stream : Stream β}

/-- What every read through the window comes to, every read does. -/
theorem InBounds.eachRead (hBounds : stream.InBounds) {holds : Bytes → Transfer → Stream β → Prop}
    (hEach : stream.EachRead Stream.bufferedRead holds) : stream.EachRead Stream.read holds := by
  intro destination hSome hFits
  rw [read_of_window_only hBounds.window_only (List.length_pos_iff.mpr hSome)]
  exact hEach destination hSome hFits

variable [Placed β] [WindowPlaced β]

/-- A read through the window counts what it copied, which is all that is wanted unless an error stopped
it, and the stream has moved behind that. -/
theorem InBounds.bufferedRead_copies (hBounds : stream.InBounds) (hGuarded : stream.Guarded) :
    stream.EachRead Stream.bufferedRead fun destination transfer after =>
      stream.Reports destination.length transfer.outcome after ∧
        transfer.outcome.value = transfer.bytes.length ∧
        (Stream.takeBuffered destination.length destination.length).result stream =
          (.ok transfer.bytes, after) := by
  intro destination hSome hFits
  have hCount := List.length_pos_iff.mpr hSome
  obtain ⟨taken, after, hTaken, hMost, hPlace, -⟩ :=
    hBounds.takeBuffered_moves destination.length destination.length hGuarded
  have hWhole : after.errorState = .success ↔ taken.length = destination.length :=
    ⟨length_of_takeBuffered (Nat.le_refl _) hTaken, clean_of_takeBuffered hCount hTaken⟩
  have hValue : (Outcome.report taken.length after.errorState).value = taken.length :=
    Outcome.value_report _ (Nat.lt_of_le_of_lt hMost hFits)
  refine ⟨_, after, bufferedRead_of_taken hBounds.window_only.2 hCount hTaken, ⟨?_, fun _ => ?_⟩,
    hValue, hTaken⟩
  · exact Outcome.tells_report hFits hMost hWhole
  · rw [hPlace, hValue]

theorem InBounds.reportsTransfers (hBounds : stream.InBounds) (hGuarded : stream.Guarded) :
    stream.ReportsTransfers := by
  have hReads := (hBounds.bufferedRead_copies hGuarded).imp fun _ _ _ hCopies => hCopies.1
  constructor
  case bufferedRead => exact hReads
  case read => exact hBounds.eachRead hReads
  case write =>
    intro source hSome hFits
    exact ⟨_, _, write_unoffered hSome (by rw [hBounds.offered]),
      .refused (List.length_pos_iff.mpr hSome) (by decide) rfl⟩
  case position =>
    exact fun hClean _ _ =>
      located_of_position hClean fun hFinal => (hGuarded.seals hFinal).failed rfl

variable [KeepsAligned β]

/-- A faithful stream copies the bytes that lie where it stands. -/
theorem Faithful.movesTransfers (hFaithful : stream.Faithful) (hGuarded : stream.Guarded) :
    stream.MovesTransfers := by
  have hBounds := hFaithful.toInBounds
  have hReads : stream.EachRead Stream.bufferedRead stream.Filled := by
    apply (hBounds.bufferedRead_copies hGuarded).imp
    rintro destination transfer after ⟨hReports, hValue, hTaken⟩
    exact .of_front hValue (hValue ▸ hReports.tells.most)
      (hFaithful.takeBuffered_front hGuarded hTaken) (hBounds.content_of_takeBuffered hTaken)
  constructor
  case standing => exact hFaithful.standing
  case bufferedRead => exact hReads
  case read => exact hBounds.eachRead hReads
  case write =>
    intro source hSome hFits
    exact ⟨_, _, write_unoffered hSome (by rw [hBounds.offered]), rfl⟩

/-- The run of a stream that is read through its window: it reports its transfers within its bounds, and
moves what it reports as long as it is faithful. -/
theorem transfersWhole_of_window [Memory] {allowed : Use → Stream β → Prop} {backend : β}
    {window : Window}
    (hWindow : Backend.initialWindow backend = .ok window)
    (hFits : FitsWindow.Fits backend window) (hAligned : Aligned backend window)
    (hPermitted : ∀ use stream, allowed use stream → use.Permitted stream)
    (hSize : ∀ stream : Stream β, allowed (.operation .size) stream → stream.failure = none →
      Aligned stream.backend stream.window →
        Aligned (Backend.size stream.backend).state stream.window) :
    TransfersWhole allowed backend := by
  obtain ⟨log, hOpened⟩ := ofBackend_of_window hWindow
  have hStart : (opened backend window).Faithful :=
    ⟨inBounds_opened hFits, fun _ => hAligned⟩
  have hSound := guarded_of_healthy hStart.toInBounds.window_only rfl
  refine ⟨_, log, hOpened, fun reached hReached => ?_, fun reached hReached _ => ?_⟩
  · have hBounds := orderly_inBounds.reachable (fun _ _ hFault => hFault.elim) hStart.toInBounds hReached
    exact hBounds.reportsTransfers
      (orderly_guarded.reachable (fun _ _ hStopped => hStopped) hSound hReached)
  · refine (hStart.reachable hPermitted hSize hReached).movesTransfers ?_
    exact orderly_guarded.toOrderlyCalls.reachable (fun _ _ hStopped => hStopped) hPermitted
      (fun stream hGuarded _ => orderly_guarded.size stream hGuarded) hSound hReached

end Windows

/-- Whatever was done with a stream before, and whether it is under an error or has failed for good: a
transfer reports success if and only if it moved everything. A stream that is not under an error moves
by what it reports, and the bytes are those from or to where it stands: on a buffered reader as long as
no query of the length has left the source at its end in front of unread bytes, and on a region, on
memory, on a vector, on a file of any access whatever the calls of the system do, on data in pieces and
on a sink always. -/
theorem transfers_succeed_when_whole [Memory] (reader : BufferedReader) :
    TransfersWhole Settled reader ∧
    (∀ region : Region, TransfersWhole Use.Permitted region) ∧
    (∀ bytes, TransfersWhole Use.Permitted (ReadOnly.mk bytes)) ∧
    (∀ vector : Growable, TransfersWhole Use.Permitted vector) ∧
    (∀ file : File, TransfersWhole Use.Permitted file) ∧
    (∀ source : Pieces, source.pattern ≠ [] → TransfersWhole Use.Permitted source) ∧
    ∀ sink : Sink, TransfersWhole Use.Permitted sink :=
  ⟨transfersWhole_of_window rfl (Nat.zero_le _) (reader.aligned_of_exhausted rfl)
      (fun _ _ hSettled => hSettled.1) fun _ hSettled => aligned_of_size hSettled,
    fun _ => transfersWhole_of_unbuffered rfl,
    fun bytes => @transfersWhole_of_window ReadOnly _ ReadOnly.fitsWhole _ ReadOnly.windowPlaced
      ReadOnly.keepsAligned _ _ ⟨bytes⟩ _ rfl rfl (ReadOnly.aligned _ _)
      (fun _ _ hPermitted => hPermitted) fun _ _ _ _ => ReadOnly.aligned _ _,
    fun _ => transfersWhole_of_unbuffered rfl,
    fun _ => transfersWhole_of_unbuffered rfl,
    fun source hPattern => by
      refine transfersWhole_of_window rfl ?_ (Pieces.aligned _ _) (fun _ _ hPermitted => hPermitted)
        fun _ _ _ _ => Pieces.aligned _ _
      exact ⟨Nat.zero_le source.bytes.length, hPattern⟩,
    fun _ => transfersWhole_of_unbuffered rfl⟩

/-- Four bytes are asked of three that come in pairs. Three are counted, which is no success, and they
are what the front of the destination holds. A reader whose source comes back from its end goes on with
the bytes behind the two that were read before. -/
theorem transfers_succeed_when_whole_in_pairs :
    (openedInPairs.backend.pattern ≠ [] ∧ ∃ transfer after,
      (Stream.read 4).result openedInPairs = (.ok transfer, after) ∧
      transfer.outcome.value = 3 ∧ transfer.outcome.code ≠ .success ∧
      transfer.fill [9, 9, 9, 9] = [1, 2, 3, 9] ∧ after.place = 3) ∧
    ∃ start log asked transfer after, ofBackend (eightBytes true) = .ok (start, log) ∧
      start.Reachable Settled asked ∧ asked.place = 2 ∧
      (Stream.read 2).result asked = (.ok transfer, after) ∧ transfer.fill [0, 0] = [3, 4] := by
  obtain ⟨⟨start, log, hOpened, -, hReader⟩, -, -, -, -, hPieces, -⟩ :=
    transfers_succeed_when_whole (eightBytes true)
  constructor
  · have hPattern : openedInPairs.backend.pattern ≠ [] := by decide
    obtain ⟨start, log, hPairs, hReports, hMoves⟩ := hPieces openedInPairs.backend hPattern
    cases hPairs
    obtain ⟨transfer, after, hRun, hCounts⟩ :=
      (hReports openedInPairs .start).read [9, 9, 9, 9] nofun (by decide)
    obtain ⟨_, _, hSame, hFilled⟩ :=
      (hMoves openedInPairs .start rfl).read [9, 9, 9, 9] nofun (by decide)
    cases hRun.symm.trans hSame
    have hThree : transfer.outcome.value = 3 := by
      cases hRun
      rfl
    refine ⟨hPattern, transfer, after, hRun, hThree, fun hDone => ?_, ?_, ?_⟩
    · exact absurd (hThree.symm.trans (hCounts.tells.whole_iff.mp hDone)) (by decide)
    · rw [hFilled.fill_eq, hThree]
      rfl
    · rw [hCounts.advances rfl, hThree]
      rfl
  · cases hOpened
    have hBehind : Reachable Settled (opened (eightBytes true) Window.empty) _ :=
      Reachable.start.used (.operation (.read 2)) ⟨trivial, nofun⟩
    have hAsked := hBehind.used (.operation .size) ⟨trivial, fun _ _ _ hStrands => by
      rcases BufferedReader.size_cases _ with ⟨hCame, -⟩ | ⟨-, hValue, -⟩
      · exact hCame hStrands
      · exact absurd (hValue : Outcome.done 8 = .failed .unknownError) (by decide)⟩
    obtain ⟨transfer, after, hRun, hFilled⟩ := (hReader _ hAsked rfl).read [0, 0] nofun (by decide)
    have hTwo : transfer.outcome.value = 2 := by
      cases hRun
      rfl
    refine ⟨_, _, _, transfer, after, rfl, hAsked, rfl, hRun, ?_⟩
    rw [hFilled.fill_eq, hTwo]
    rfl

/-- A query of the length leaves the source of a reader at its end behind two unread bytes. The stream is
told to stand at six then, and a read of two bytes from there takes those at two. -/
theorem stranded_reader_reads_elsewhere :
    ∃ start log stranded after, ofBackend (eightBytes false) = .ok (start, log) ∧
      start.Reachable Use.Permitted stranded ∧ stranded.errorState = .success ∧
      (Action.result position stranded).1 = .ok (.done 6) ∧
      (Stream.read 2).result stranded = (.ok ⟨.done 2, [3, 4]⟩, after) ∧
      (Action.result position after).1 = .ok (.done 8) ∧
      ((Stored.content stranded.backend).drop 6).take 2 = [7, 8] ∧ ¬stranded.MovesTransfers := by
  have hReached : Reachable Use.Permitted (opened (eightBytes false) Window.empty) _ :=
    ((Reachable.start.used (.operation (.read 2)) trivial).used (.operation .size) trivial).used
      .resetErrorState trivial
  refine ⟨_, _, _, _, rfl, hReached, rfl, rfl, rfl, rfl, rfl, fun hMoves => ?_⟩
  obtain ⟨transfer, after, hRun, hFilled⟩ := hMoves.read [0, 0] nofun (by decide)
  cases hRun
  exact absurd hFilled.fill_eq (by decide)

end Stream

end Bytestream
