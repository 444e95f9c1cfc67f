import Bytestream.Proofs.SizeQuery

/-!
Where a seek goes. It goes to the exact sum of where its origin lies and the offset, if the backend can
be moved there, and nowhere otherwise: a seek that fails leaves the bytes, the place and what is unread
as they are, so that after a reset the stream reads as if it had not been moved. No sum wraps around,
since the sum is a place of the data or it is refused.
-/

namespace Bytestream

/-- What an offset from this origin comes to, for a stream at `place` in `length` bytes. -/
def Origin.sum (origin : Origin) (place : Int) (length : Nat) (offset : Int) : Int :=
  match origin with
  | .start => offset
  | .current => place + offset
  | .finish => length + offset

theorem Origin.resolve_eq_some_iff {origin : Origin} {offset : Int} {position length target : Nat} :
    origin.resolve offset position length = some target ↔
      origin.sum position length offset = target ∧ target < positionLimit := by
  rw [resolve, toPosition?_eq_some_iff]
  cases origin with
  | start => rw [base, sum, Int.natCast_zero, Int.zero_add]
  | current => exact Iff.rfl
  | finish => exact Iff.rfl

/-- What a backend makes of a seek: it goes to the sum and has the bytes that it is to have there, or it
refuses, stays as it is and cannot be moved to where the sum is. -/
inductive Sought {β : Type} [Backend β] [Placed β] (reaches : β → Nat → Prop)
    (grown : Bytes → Nat → Bytes) (backend : β) (window : Window) (sum : Int) :
    Reply (β × Window) (Except Fault Outcome) → Prop where
  | gone {target : Nat} {moved : β × Window} (hSum : sum = target) (hReaches : reaches backend target)
      (hPlace : Placed.place moved.1 moved.2 = target)
      (hContent : Stored.content moved.1 = grown (Stored.content backend) target) :
      Sought reaches grown backend window sum ⟨.ok (.done target), moved, []⟩
  | refused {code : Code} (hCode : code ≠ .success)
      (hUnreached : ∀ target : Nat, sum = target → target < positionLimit → ¬reaches backend target) :
      Sought reaches grown backend window sum ⟨.ok (.failed code), (backend, window), []⟩

/-- A backend that answers every seek in one of the two ways. -/
class SeeksExactly (β : Type) [Backend β] [Placed β] where
  reaches : β → Nat → Prop
  grown : Bytes → Nat → Bytes
  sought : ∀ (backend : β) (window : Window) (offset : Int) (origin : Origin),
    Sought reaches grown backend window
      (origin.sum (Placed.place backend window) (Stored.content backend).length offset)
      (Backend.seek backend window offset origin)

section Backends

variable {β : Type} [Backend β] [Placed β] {reaches : β → Nat → Prop} {grown : Bytes → Nat → Bytes}
variable {backend : β} {window : Window} {offset : Int} {origin : Origin} {position length : Nat}

/-- A sum that is no position is refused. -/
theorem Sought.unresolved {code : Code} (hCode : code ≠ .success)
    (hNone : origin.resolve offset position length = none) :
    Sought reaches grown backend window (origin.sum position length offset)
      ⟨.ok (.failed code), (backend, window), []⟩ := by
  refine .refused hCode fun target hSum hPosition => ?_
  rw [Origin.resolve_eq_some_iff.mpr ⟨hSum, hPosition⟩] at hNone
  cases hNone

/-- So is one that the backend cannot be moved to. -/
theorem Sought.outside {code : Code} {target : Nat} (hCode : code ≠ .success)
    (hTarget : origin.resolve offset position length = some target)
    (hOutside : ¬reaches backend target) :
    Sought reaches grown backend window (origin.sum position length offset)
      ⟨.ok (.failed code), (backend, window), []⟩ := by
  refine .refused hCode fun other hSum _ => ?_
  obtain rfl : target = other := by
    have hSame := (Origin.resolve_eq_some_iff.mp hTarget).1.symm.trans hSum
    exact Int.ofNat_inj.mp hSame
  exact hOutside

end Backends

theorem Cursor.length_put (cursor : Cursor) (piece : Bytes)
    (hFits : cursor.position + piece.length ≤ cursor.bytes.length) :
    (cursor.put piece hFits).bytes.length = cursor.bytes.length :=
  Bytes.length_overwrite hFits

instance : SeeksExactly Region where
  reaches region target := target ≤ region.bytes.length
  grown bytes _ := bytes
  sought := by
    intro region window offset origin
    change Sought _ _ region window (origin.sum region.position region.bytes.length offset)
      ((region.seek offset origin).beside window)
    rw [Region.seek]
    split
    · rename_i target hTarget
      split
      · rename_i hInside
        exact .gone (Origin.resolve_eq_some_iff.mp hTarget).1 hInside rfl rfl
      · exact .outside (by decide) hTarget ‹_›
    · exact .unresolved (by decide) ‹_›

instance [Memory] : SeeksExactly Growable where
  reaches vector target := vector.canHold target
  grown bytes target := bytes.zeroExtend target
  sought := by
    intro vector window offset origin
    change Sought _ _ vector window (origin.sum vector.position vector.bytes.length offset)
      ((vector.seek offset origin).beside window)
    rw [Growable.seek]
    split
    · exact .unresolved (by decide) ‹_›
    · rename_i target hTarget
      split
      · rename_i hHeld
        exact .gone (Origin.resolve_eq_some_iff.mp hTarget).1 hHeld rfl rfl
      · exact .outside (by decide) hTarget ‹_›

instance : SeeksExactly File where
  reaches _ target := target < offsetLimit
  grown bytes _ := bytes
  sought := by
    intro file window offset origin
    change Sought _ _ file window (origin.sum file.position file.bytes.length offset)
      ((file.seek offset origin).beside window)
    rw [File.seek]
    split
    · rename_i target hTarget
      split
      · rename_i hInside
        exact .gone (Origin.resolve_eq_some_iff.mp hTarget).1 hInside rfl rfl
      · exact .outside (by decide) hTarget ‹_›
    · exact .unresolved (by decide) ‹_›

instance : SeeksExactly ReadOnly where
  reaches source target := target ≤ source.bytes.length
  grown bytes _ := bytes
  sought := by
    intro source window offset origin
    change Sought _ _ source window (origin.sum window.cursor source.bytes.length offset)
      (source.seek window offset origin)
    rw [ReadOnly.seek]
    split
    · rename_i target hTarget
      split
      · rename_i hInside
        exact .gone (Origin.resolve_eq_some_iff.mp hTarget).1 hInside rfl rfl
      · exact .outside (by decide) hTarget ‹_›
    · exact .unresolved (by decide) ‹_›

instance : SeeksExactly Pieces where
  reaches source target := target ≤ source.bytes.length
  grown bytes _ := bytes
  sought := by
    intro source window offset origin
    change Sought _ _ source window (origin.sum window.cursor source.bytes.length offset)
      (source.seek window offset origin)
    rw [Pieces.seek]
    split
    · rename_i target hTarget
      split
      · rename_i hInside
        exact .gone (Origin.resolve_eq_some_iff.mp hTarget).1 hInside rfl rfl
      · exact .outside (by decide) hTarget ‹_›
    · exact .unresolved (by decide) ‹_›

/-- A reader moves with its source and drops its window, or stays as it is but for the schedule of the
source, and keeps its window. -/
theorem BufferedReader.seek_cases (reader : BufferedReader) (window : Window) (offset : Int)
    (origin : Origin) :
    (∃ shifted target, sourceOffset? window offset origin = some shifted ∧
        origin.resolve shifted reader.source.position reader.source.bytes.length = some target ∧
        reader.source.seek shifted origin =
          (some target, reader.source.relocate target reader.source.seeks.tail) ∧
        reader.seek window offset origin = ⟨.ok (.done target),
          ({ reader with source := reader.source.relocate target reader.source.seeks.tail },
            Window.empty), []⟩) ∨
      (∀ shifted target later, sourceOffset? window offset origin = some shifted →
        reader.source.seek shifted origin ≠ (some target, later)) ∧
        ∃ seeks, reader.seek window offset origin =
          ⟨.ok (.failed .seekError), (reader.reschedule seeks, window), []⟩ := by
  cases hShifted : sourceOffset? window offset origin with
  | none =>
      refine .inr ⟨nofun, reader.source.seeks, ?_⟩
      rw [seek, hShifted]
      rfl
  | some shifted =>
      rcases reader.source.seek_cases shifted origin with ⟨target, hTarget, hGone⟩ | hStayed
      · refine .inl ⟨shifted, target, rfl, hTarget, hGone, ?_⟩
        simp only [seek, hShifted, hGone]
      · refine .inr ⟨?_, reader.source.seeks.tail, ?_⟩
        · rintro other target later hOther hGone
          cases hOther
          rw [hStayed] at hGone
          cases hGone
        · simp only [seek, hShifted, hStayed]
          rfl

namespace Stream

section Accounts

variable {β : Type} [Backend β] [Placed β] {stream after : Stream β}

/-- Where a seek of the stream is to go. -/
def aim (stream : Stream β) (offset : Int) (origin : Origin) : Int :=
  origin.sum stream.place (Stored.content stream.backend).length offset

/-- The stream stores the same bytes, stands at the same place and shows the same as unread, and once the
errors are reset it reads the same. -/
structure LeftAlone [Memory] (stream after : Stream β) : Prop where
  content_eq : Stored.content after.backend = Stored.content stream.backend
  place_eq : after.place = stream.place
  window_eq : after.window = stream.window
  shown_eq : after.shownBytes = stream.shownBytes
  failure_eq : after.failure = stream.failure
  alike : stream.SameOnceReset after

/-- What a seek of a healthy stream without an error ends in. -/
inductive SeekEnds [Memory] (stream : Stream β) (grown : Bytes → Nat → Bytes) (offset : Int)
    (origin : Origin) :
    Outcome → Stream β → Prop where
  /-- It has gone where it was to go, and reports that place. -/
  | gone {target : Nat} {after : Stream β} (hAim : stream.aim offset origin = target)
      (hPlace : after.place = target)
      (hContent : Stored.content after.backend = grown (Stored.content stream.backend) target)
      (hClean : after.failure = none ∧ after.errorState = .success) :
      SeekEnds stream grown offset origin (.done target) after
  /-- It has failed and done nothing but to report that. -/
  | refused {code : Code} {after : Stream β} (hCode : code ≠ .success) (hReported : after.errorState = code)
      (hAlone : stream.LeftAlone after) :
      SeekEnds stream grown offset origin (.failed code) after

/-- A reported error alone leaves no trace that a reset does not clear. -/
theorem leftAlone_recorded [Memory] (stream : Stream β) (code : Code) :
    stream.LeftAlone { stream with errorState := code } where
  content_eq := rfl
  place_eq := rfl
  window_eq := rfl
  shown_eq := rfl
  failure_eq := rfl
  alike later := by
    have hSame : stream.cleared = ({ stream with errorState := code } : Stream β).cleared := by
      by_cases hHealthy : stream.failure = none
      · rw [cleared_of_healthy hHealthy, cleared_of_healthy (by exact hHealthy)]
      · rw [cleared_of_failed hHealthy, cleared_of_failed (by exact hHealthy)]
    rw [hSame]

/-- The seek of a stream ends as its backend answers it, and succeeds if and only if the backend can be
moved to where it is to go. -/
theorem seek_ends [Memory] [SeeksExactly β] (hOffers : stream.capabilities.seek = true)
    (hHealthy : stream.failure = none) (hClean : stream.errorState = .success)
    (hPositions : ∀ target, SeeksExactly.reaches stream.backend target → target < positionLimit)
    (offset : Int) (origin : Origin) :
    ∃ outcome after, (seek offset origin).result stream = (.ok outcome, after) ∧
      stream.SeekEnds (SeeksExactly.grown β) offset origin outcome after ∧
      (outcome.code = .success ↔ ∃ target : Nat, stream.aim offset origin = target ∧
        SeeksExactly.reaches stream.backend target) := by
  have hSought := SeeksExactly.sought stream.backend stream.window offset origin
  have hAim : stream.aim offset origin = origin.sum
      (Placed.place stream.backend stream.window) (Stored.content stream.backend).length offset := by
    rw [aim, place_of_healthy hHealthy]
  rw [← hAim] at hSought
  generalize hReply : Backend.seek stream.backend stream.window offset origin = reply at hSought
  cases hSought with
  | @gone target moved hSum hReaches hPlace hContent =>
      refine ⟨_, _, seek_of_answered hOffers hHealthy (by rw [hReply]), ?_, ?_⟩
      · rw [reported, if_pos hClean, kept_of_clean hClean, hReply]
        refine .gone hSum ?_ hContent ⟨hHealthy, rfl⟩
        rw [place_of_healthy (by exact hHealthy)]
        exact hPlace
      · rw [reported, if_pos hClean]
        exact iff_of_true rfl ⟨target, hSum, hReaches⟩
  | refused hCode hUnreached =>
      refine ⟨_, _, seek_of_answered hOffers hHealthy (by rw [hReply]), ?_, ?_⟩
      · rw [reported, if_pos hClean, kept_of_clean hClean, hReply]
        exact .refused hCode rfl (stream.leftAlone_recorded _)
      · rw [reported, if_pos hClean]
        refine iff_of_false hCode ?_
        rintro ⟨target, hSum, hReaches⟩
        exact hUnreached target hSum (hPositions target hReaches) hReaches

end Accounts

section Opened

variable {β : Type} [Backend β]

/-- A property of the stored bytes that no call of the backend breaks. -/
structure KeptByCalls (β : Type) [Backend β] [Stored β] (good : Bytes → Prop) : Prop where
  size : ∀ backend : β, good (Stored.content backend) →
    good (Stored.content (Backend.size backend).state)
  write : ∀ (backend : β) source, good (Stored.content backend) →
    good (Stored.content (Backend.write backend source).state)
  seek : ∀ (backend : β) window offset origin, good (Stored.content backend) →
    good (Stored.content (Backend.seek backend window offset origin).state.1)
  close : ∀ backend : β, good (Stored.content backend) →
    good (Stored.content (Backend.close backend).state)

/-- What no call of the backend breaks, no use of the stream does. -/
theorem orderly_content [Stored β] {good : Bytes → Prop} (hKept : KeptByCalls β good) :
    Orderly (fun stream : Stream β => good (Stored.content stream.backend))
      (fun _ stream => good (Stored.content stream.backend)) where
  record code stream hGood := by
    rw [result_record]
    exact hGood
  readDirect {stream count} hGood hSome hDirect := by
    rw [read_of_offered hSome hDirect]
    change good (Stored.content (Backend.read stream.backend count).state)
    rwa [Stored.read]
  peek {stream count} hGood _ := by
    rw [peek, Action.result_bind_of_ok (Action.result_state stream)]
    split
    · exact hGood
    · exact hGood
  consume hGood hCount := by
    obtain ⟨window, -, hConsume⟩ := consume_of_available hCount
    rw [hConsume]
    exact hGood
  refill {stream} hGood hExhausted := by
    cases hOffers : stream.capabilities.bufferedRead with
    | false =>
        rw [refill_of_absent hOffers]
        exact hGood
    | true =>
        have hUnwritten : stream.Unwritten stream.capabilities (Stored.content stream.backend) :=
          ⟨rfl, fun hAbsent => absurd (hOffers.symm.trans hAbsent) (by decide), rfl⟩
        refine Action.ends_of_state ?_
        rwa [(hUnwritten.refill hExhausted).content_eq]
  size stream hGood := by
    cases hOffers : stream.capabilities.size with
    | false =>
        rw [size_of_absent hOffers, result_unsupported]
        exact hGood
    | true =>
        rw [size_of_offered hOffers]
        exact hKept.size stream.backend hGood
  write source stream hGood := by
    by_cases hNone : source = []
    · subst hNone
      exact hGood
    cases hOffers : stream.capabilities.write with
    | false =>
        rw [write_of_absent hNone hOffers, result_unsupported]
        exact hGood
    | true =>
        rw [write_of_offered hNone hOffers]
        exact hKept.write stream.backend source hGood
  seek offset origin stream hGood := by
    obtain ⟨-, -, hBackend⟩ := backend_of_seek stream offset origin
    refine Action.ends_of_state ?_
    rcases hBackend with hSame | hMoved
    · rwa [hSame]
    · rw [hMoved]
      exact hKept.seek stream.backend stream.window offset origin hGood
  close stream hGood := by
    rw [close, Action.result_bind_of_ok (Action.result_state stream)]
    split
    · exact hKept.close stream.backend hGood
    · exact hGood
  resetErrorState stream hGood := by
    refine Action.ends_of_state ?_
    change good (Stored.content stream.cleared.backend)
    by_cases hHealthy : stream.failure = none
    · rwa [cleared_of_healthy hHealthy]
    · rwa [cleared_of_failed hHealthy]

/-- A stream on the backend opens, and wherever permitted uses take it, as long as it is healthy and
without an error its seeks end as they should, and succeed if and only if they are possible. -/
def SeeksStayExact [Memory] [Placed β] (backend : β) (grown : Bytes → Nat → Bytes)
    (possible : Stream β → Int → Origin → Prop) : Prop :=
  ∃ start log, ofBackend backend = .ok (start, log) ∧
    ∀ reached, start.Reachable Use.Permitted reached → reached.failure = none →
      reached.errorState = .success → ∀ offset origin,
        ∃ outcome after, (seek offset origin).result reached = (.ok outcome, after) ∧
          reached.SeekEnds grown offset origin outcome after ∧
          (outcome.code = .success ↔ possible reached offset origin)

/-- A stream that is to go to a place which its backend reaches. -/
def Within [Placed β] (reaches : β → Nat → Prop) (stream : Stream β) (offset : Int)
    (origin : Origin) : Prop :=
  ∃ target : Nat, stream.aim offset origin = target ∧ reaches stream.backend target

variable [Placed β] [SeeksExactly β] {backend : β} {window : Window} {good : Bytes → Prop}

theorem seeksStayExact_of_offered [Memory] (hWindow : Backend.initialWindow backend = .ok window)
    (hGood : good (Stored.content backend)) (hKept : KeptByCalls β good)
    (hOffers : ∀ reached, (opened backend window).Reachable Use.Permitted reached →
      reached.capabilities.seek = true)
    (hPositions : ∀ (backend : β) (target : Nat), good (Stored.content backend) →
      SeeksExactly.reaches backend target → target < positionLimit) :
    SeeksStayExact backend (SeeksExactly.grown β) (Within SeeksExactly.reaches) := by
  obtain ⟨log, hOpened⟩ := ofBackend_of_window hWindow
  refine ⟨_, log, hOpened, fun reached hReached hHealthy hClean offset origin => ?_⟩
  have hContent := (orderly_content hKept).reachable (fun _ _ hStopped => hStopped) hGood hReached
  exact seek_ends (hOffers reached hReached) hHealthy hClean
    (fun target => hPositions reached.backend target hContent) offset origin

theorem seeksStayExact_of_direct [Memory] [Offering β] [MovesDirectly β]
    (hWindow : Backend.initialWindow backend = .ok window) (hGood : good (Stored.content backend))
    (hKept : KeptByCalls β good)
    (hPositions : ∀ (backend : β) (target : Nat), good (Stored.content backend) →
      SeeksExactly.reaches backend target → target < positionLimit) :
    SeeksStayExact backend (SeeksExactly.grown β) (Within SeeksExactly.reaches) := by
  refine seeksStayExact_of_offered hWindow hGood hKept (fun reached hReached => ?_) hPositions
  rw [(intact_of_reachable MovesDirectly.unbuffered hReached).offered, MovesDirectly.seeks_offered]

theorem seeksStayExact_of_fits [Memory] [FitsWindow β]
    (hWindow : Backend.initialWindow backend = .ok window)
    (hFits : FitsWindow.Fits backend window) (hGood : good (Stored.content backend))
    (hKept : KeptByCalls β good)
    (hPositions : ∀ (backend : β) (target : Nat), good (Stored.content backend) →
      SeeksExactly.reaches backend target → target < positionLimit) :
    SeeksStayExact backend (SeeksExactly.grown β) (Within SeeksExactly.reaches) := by
  refine seeksStayExact_of_offered hWindow hGood hKept (fun reached hReached => ?_) hPositions
  rw [(orderly_inBounds.reachable (fun _ _ hFault => hFault.elim) (inBounds_opened hFits)
    hReached).offered]

end Opened

section Readers

variable {stream : Stream BufferedReader}

theorem InBounds.leftAlone_rescheduled [Memory] (hBounds : stream.InBounds)
    (hHealthy : stream.failure = none)
    (seeks : List Bool) (code : Code) :
    stream.LeftAlone { stream.reschedule seeks with errorState := code } where
  content_eq := rfl
  place_eq := by
    rw [place_of_healthy hHealthy, place_of_healthy (by exact hHealthy)]
    rfl
  window_eq := rfl
  shown_eq := rfl
  failure_eq := rfl
  alike later := by
    rw [hBounds.same_rescheduled seeks later, cleared_of_healthy (by exact hHealthy),
      cleared_of_healthy (by exact hHealthy)]

/-- The source goes where it is asked to go with the reader in front of it. -/
def SourceGoes (stream : Stream BufferedReader) (offset : Int) (origin : Origin) : Prop :=
  ∃ shifted target later,
    BufferedReader.sourceOffset? stream.window offset origin = some shifted ∧
      stream.backend.source.seek shifted origin = (some target, later)

/-- An offset that counts from the reader leads where the one for its source does. -/
theorem sum_of_sourceOffset {window : Window} {offset shifted : Int} {origin : Origin}
    {position length : Nat}
    (hShifted : BufferedReader.sourceOffset? window offset origin = some shifted) :
    origin.sum position length shifted = origin.sum (position - window.available) length offset := by
  cases origin with
  | start =>
      simp only [BufferedReader.sourceOffset?, Option.ite_none_left_eq_some, Option.some.injEq]
        at hShifted
      exact hShifted.2.symm
  | current =>
      simp only [BufferedReader.sourceOffset?, Option.ite_none_right_eq_some, Option.some.injEq]
        at hShifted
      simp only [Origin.sum, ← hShifted.2]
      omega
  | finish =>
      cases hShifted
      rfl

/-- The reader goes with its source. Where the source fails it stays, and so does the window. -/
theorem InBounds.seek_ends [Memory] (hBounds : stream.InBounds) (hHealthy : stream.failure = none)
    (hClean : stream.errorState = .success) (offset : Int) (origin : Origin) :
    ∃ outcome after, (Stream.seek offset origin).result stream = (.ok outcome, after) ∧
      stream.SeekEnds (fun bytes _ => bytes) offset origin outcome after ∧
      (outcome.code = .success ↔ stream.SourceGoes offset origin) := by
  have hOffers : stream.capabilities.seek = true := by rw [hBounds.offered]
  have hAim : stream.aim offset origin = origin.sum
      (stream.backend.source.position - stream.window.available) stream.backend.source.bytes.length
      offset := by
    rw [aim, place_of_healthy hHealthy]
    rfl
  rcases stream.backend.seek_cases stream.window offset origin with
    ⟨shifted, target, hShifted, hTarget, hSource, hReply⟩ | ⟨hRefused, seeks, hReply⟩
  · refine ⟨_, _, seek_of_answered hOffers hHealthy (congrArg Reply.value hReply), ?_, ?_⟩
    · rw [reported, if_pos hClean, kept_of_clean hClean]
      change stream.SeekEnds _ offset origin _ { stream.afterCall
        (stream.backend.seek stream.window offset origin).state with errorState := .success }
      rw [hReply]
      refine .gone ?_ ?_ rfl ⟨hHealthy, rfl⟩
      · rw [hAim, ← sum_of_sourceOffset hShifted]
        exact (Origin.resolve_eq_some_iff.mp hTarget).1
      · rw [place_of_healthy (by exact hHealthy)]
        exact Int.sub_zero _
    · rw [reported, if_pos hClean]
      exact iff_of_true rfl ⟨shifted, target, _, hShifted, hSource⟩
  · refine ⟨_, _, seek_of_answered hOffers hHealthy (congrArg Reply.value hReply), ?_, ?_⟩
    · rw [reported, if_pos hClean, kept_of_clean hClean]
      change stream.SeekEnds _ offset origin _ { stream.afterCall
        (stream.backend.seek stream.window offset origin).state with errorState := .seekError }
      rw [hReply]
      exact .refused (by decide) rfl (hBounds.leftAlone_rescheduled hHealthy seeks _)
    · rw [reported, if_pos hClean]
      refine iff_of_false (by decide) ?_
      rintro ⟨shifted, target, later, hShifted, hSource⟩
      exact hRefused shifted target later hShifted hSource

end Readers

section Lengths

/-- The end of the bytes is a position. -/
def Addressable (bytes : Bytes) : Prop := bytes.length < positionLimit

/-- A seek breaks no property of the bytes that the places it reaches do not break. -/
theorem content_of_seek {β : Type} [Backend β] [Placed β] [SeeksExactly β] {good : Bytes → Prop}
    (hGrown : ∀ (backend : β) (target : Nat), good (Stored.content backend) →
      SeeksExactly.reaches backend target →
        good (SeeksExactly.grown β (Stored.content backend) target))
    (backend : β) (window : Window) (offset : Int) (origin : Origin)
    (hGood : good (Stored.content backend)) :
    good (Stored.content (Backend.seek backend window offset origin).state.1) := by
  have hSought := SeeksExactly.sought backend window offset origin
  generalize Backend.seek backend window offset origin = reply at hSought
  cases hSought with
  | gone hSum hReaches hPlace hContent =>
      change good (Stored.content _)
      rw [hContent]
      exact hGrown backend _ hGood hReaches
  | refused => exact hGood

theorem keptByCalls_region : KeptByCalls Region Addressable where
  size _ hShort := hShort
  write := by
    intro region source hShort
    change Addressable (region.write source).state.bytes
    rw [Region.write]
    split
    · exact hShort
    · simp only [Addressable, Cursor.length_put]
      exact hShort
  seek := content_of_seek fun _ _ hShort _ => hShort
  close _ hShort := hShort

/-- A vector grows to no length that memory cannot be had for. -/
theorem lt_positionLimit_of_canHold [Memory] {vector : Growable} {length : Nat}
    (hShort : Addressable vector.bytes) (hHeld : vector.canHold length) :
    length < positionLimit := by
  have hMemory : reservable < positionLimit := Nat.lt_trans Memory.reservable_lt (by decide)
  rw [Addressable] at hShort
  rw [Growable.canHold] at hHeld
  omega

theorem keptByCalls_vector [Memory] : KeptByCalls Growable Addressable where
  size _ hShort := hShort
  write := by
    intro vector source hShort
    change Addressable (vector.write source).state.bytes
    rw [Growable.write]
    split
    · rename_i hHeld
      have hExtended := vector.toCursor.length_extend (vector.position + source.length)
      refine Nat.lt_of_le_of_lt (Nat.le_of_eq (Cursor.length_put _ _ ?_)) ?_
      · rw [hExtended]
        exact Nat.le_max_right _ _
      · rw [hExtended]
        exact Nat.max_lt.mpr ⟨hShort, lt_positionLimit_of_canHold hShort hHeld⟩
    · exact hShort
  seek := content_of_seek fun vector target hShort hHeld => by
    change (vector.bytes.zeroExtend target).length < positionLimit
    rw [Bytes.length_zeroExtend]
    exact Nat.max_lt.mpr ⟨hShort, lt_positionLimit_of_canHold hShort hHeld⟩
  close _ hShort := hShort

theorem keptByCalls_memory : KeptByCalls ReadOnly Addressable where
  size _ hShort := hShort
  write _ _ hShort := hShort
  seek := content_of_seek fun _ _ hShort _ => hShort
  close _ hShort := hShort

theorem keptByCalls_pieces : KeptByCalls Pieces Addressable where
  size _ hShort := hShort
  write _ _ hShort := hShort
  seek := content_of_seek fun _ _ hShort _ => hShort
  close _ hShort := hShort

/-- Nothing that a file stores keeps it from being moved to any offset. -/
theorem keptByCalls_true {β : Type} [Backend β] [Stored β] : KeptByCalls β fun _ => True :=
  ⟨fun _ _ => trivial, fun _ _ _ => trivial, fun _ _ _ _ _ => trivial, fun _ _ => trivial⟩

end Lengths

theorem seeksStayExact_of_reader [Memory] (reader : BufferedReader) :
    SeeksStayExact reader (fun bytes _ => bytes) SourceGoes := by
  obtain ⟨start, log, hOpened, hBounds⟩ :=
    @inBounds_of_fits _ _ _ _ reader Window.empty rfl (Nat.zero_le _)
  exact ⟨start, log, hOpened, fun reached hReached hHealthy hClean offset origin =>
    (hBounds reached hReached).seek_ends hHealthy hClean offset origin⟩

/-- By any offset from any origin, wherever a healthy stream without an error was taken: on a region, on
memory and on data in pieces a seek succeeds if and only if it is to go to the end or before and not
before the start, on a vector if and only if it can hold as much, on a file if and only if an offset is
as large, and on a buffered reader if and only if the source can be moved. Then it has gone where it was
to go, with nothing changed but the zeros that a vector grows by. A seek that fails has no effect. -/
theorem seeks_go_exactly [Memory] :
    (∀ region : Region, Addressable region.bytes →
      SeeksStayExact region (fun bytes _ => bytes)
        (Within fun region target => target ≤ region.bytes.length)) ∧
    (∀ bytes, Addressable bytes →
      SeeksStayExact (ReadOnly.mk bytes) (fun bytes _ => bytes)
        (Within fun source target => target ≤ source.bytes.length)) ∧
    (∀ vector : Growable, Addressable vector.bytes →
      SeeksStayExact vector Bytes.zeroExtend (Within Growable.canHold)) ∧
    (∀ file : File,
      SeeksStayExact file (fun bytes _ => bytes) (Within fun _ target => target < offsetLimit)) ∧
    (∀ source : Pieces, source.pattern ≠ [] → Addressable source.bytes →
      SeeksStayExact source (fun bytes _ => bytes)
        (Within fun source target => target ≤ source.bytes.length)) ∧
    ∀ reader : BufferedReader, SeeksStayExact reader (fun bytes _ => bytes) SourceGoes :=
  ⟨fun _ hShort => seeksStayExact_of_direct rfl hShort keptByCalls_region
      fun _ _ hLength hInside => Nat.lt_of_le_of_lt hInside hLength,
    fun bytes hShort => seeksStayExact_of_fits rfl (Nat.le_refl bytes.length) hShort keptByCalls_memory
      fun _ _ hLength hInside => Nat.lt_of_le_of_lt hInside hLength,
    fun _ hShort => seeksStayExact_of_direct rfl hShort keptByCalls_vector
      fun _ _ hLength hHeld => lt_positionLimit_of_canHold hLength hHeld,
    fun _ => seeksStayExact_of_direct rfl trivial keptByCalls_true
      fun _ _ _ hOffset => Nat.lt_trans hOffset (by decide),
    fun source hPattern hShort => by
      refine seeksStayExact_of_fits rfl ?_ hShort keptByCalls_pieces
        fun _ _ hLength hInside => Nat.lt_of_le_of_lt hInside hLength
      exact ⟨Nat.zero_le source.bytes.length, hPattern⟩,
    seeksStayExact_of_reader⟩

/-- The stream on three bytes in pairs behind the first of them, with the second unread in its window. -/
def behindFirst : Stream Pieces :=
  ((Use.operation (.read 1)).perform.result openedInPairs).2

/-- Two bytes on from there is the end, where a seek goes. Two bytes back is before the start, and the
seek that fails there has no effect. -/
theorem seeks_go_exactly_in_pairs :
    openedInPairs.backend.pattern ≠ [] ∧ Addressable openedInPairs.backend.bytes ∧
      openedInPairs.Reachable Use.Permitted behindFirst ∧ behindFirst.failure = none ∧
      behindFirst.errorState = .success ∧ behindFirst.place = 1 ∧
      (∃ after, (seek 2 .current).result behindFirst = (.ok (.done 3), after) ∧ after.place = 3) ∧
      ∃ code after, (seek (-2) .current).result behindFirst = (.ok (.failed code), after) ∧
        behindFirst.LeftAlone after := by
  have hPattern : openedInPairs.backend.pattern ≠ [] := by decide
  have hShort : Addressable openedInPairs.backend.bytes := by
    rw [Addressable]
    decide
  have hReached : openedInPairs.Reachable Use.Permitted behindFirst :=
    .used (.operation (.read 1)) .start trivial
  obtain ⟨-, -, -, -, hPieces, -⟩ := seeks_go_exactly
  obtain ⟨start, log, hOpened, hSeeks⟩ := hPieces openedInPairs.backend hPattern hShort
  obtain rfl : openedInPairs = start := by
    cases hOpened
    rfl
  refine ⟨hPattern, hShort, hReached, rfl, rfl, rfl, ?_, ?_⟩
  · obtain ⟨outcome, after, hRun, hEnds, hDone⟩ := hSeeks behindFirst hReached rfl rfl 2 .current
    have hWithin : outcome.code = .success := hDone.mpr ⟨3, rfl, by decide⟩
    cases hEnds with
    | gone hAim hPlace =>
        cases Int.ofNat_inj.mp hAim
        exact ⟨after, hRun, hPlace⟩
    | refused hCode => exact absurd hWithin hCode
  · obtain ⟨outcome, after, hRun, hEnds, -⟩ := hSeeks behindFirst hReached rfl rfl (-2) .current
    cases hEnds with
    | gone hAim => cases hAim
    | refused hCode hReported hAlone => exact ⟨_, after, hRun, hAlone⟩

end Stream

end Bytestream
