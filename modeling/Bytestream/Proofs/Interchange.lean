import Bytestream.Proofs.BufferedRefinement
import Bytestream.Proofs.ErrorState
import Bytestream.Proofs.Rewriting

/-!
The writable media do not tell each other apart. A vector, a file and a region are one byte array
with a cursor as long as no seek goes past the bytes and there is room for every write: whatever is
read, written, sought and asked, and whatever failed before, each step gives the same answer.
-/

namespace Bytestream

/-- One step in the use of a medium. -/
inductive Task where
  | ask (request : Request)
  | write (source : Bytes)
  | resetErrorState

namespace Task

variable {β : Type} [Backend β]

/-- Takes the step. An answer without bytes is an outcome alone, and that to a reset is the code that
was cleared. -/
def perform : Task → Stream.Op β Transfer
  | ask request => request.perform
  | write source => do return .none (← Stream.write source)
  | resetErrorState => do return .none (.failed (← Stream.resetErrorState))

/-- Takes steps in order, and yields each answer with the error state behind it. -/
def performAll : List Task → Stream.Op β (List (Transfer × Code))
  | [] => return []
  | task :: later => do
      let answer ← task.perform
      let code := (← Action.state).errorState
      return (answer, code) :: (← performAll later)

/-- A seek stays in the bytes, or is refused everywhere because it goes to no position. -/
def Inside : Task → Growable → Prop
  | ask (.seek offset origin), vector => ∀ target,
      origin.resolve offset vector.position vector.bytes.length = some target →
        target ≤ vector.bytes.length
  | _, _ => True

/-- Memory for what a write needs can be had. -/
def Allocates [Memory] : Task → Growable → Prop
  | write source, vector => vector.canHold (vector.position + source.length)
  | _, _ => True

/-- A write ends in the first `length` bytes. -/
def EndsWithin (length : Nat) : Task → Growable → Prop
  | write source, vector => vector.position + source.length ≤ length
  | _, _ => True

/-- Each step of a run on a vector is taken where it is allowed. -/
def Along [Memory] (allowed : Task → Growable → Prop) : List Task → Stream Growable → Prop
  | [], _ => True
  | task :: later, stream =>
      allowed task stream.backend ∧ Along allowed later (task.perform.result stream).2

end Task

/-- A backend that is a byte array with a cursor: what it holds and where it stands, and which writes
it takes in full. -/
class ByteMedium (β : Type) [Backend β] extends Offering β where
  At : β → Bytes → Nat → Prop
  Takes : (length reached : Nat) → Prop
  offers_all : (Offering.offers β).read = true ∧ (Offering.offers β).write = true ∧
    (Offering.offers β).seek = true ∧ (Offering.offers β).size = true
  takes_lt : ∀ {length reached : Nat}, Takes length reached → length < offsetLimit →
    reached < offsetLimit
  copies : ∀ {backend : β} {content : Bytes} {position count : Nat}, At backend content position →
    0 < count → ∃ after log,
      Backend.read backend count = ⟨Transfer.copy count (content.drop position) count, after, log⟩ ∧
      At after content (position + ((content.drop position).take count).length)
  stores : ∀ {backend : β} {content piece : Bytes} {position : Nat}, At backend content position →
    piece ≠ [] → Takes content.length (position + piece.length) → ∃ after log,
      Backend.write backend piece = ⟨.done piece.length, after, log⟩ ∧
      At after (content.store position piece) (position + piece.length)
  moves : ∀ {backend : β} {window : Window} {content : Bytes} {position target : Nat} {offset : Int}
    {origin : Origin}, At backend content position →
      origin.resolve offset position content.length = some target → target ≤ content.length →
      content.length < offsetLimit → ∃ after log,
        Backend.seek backend window offset origin = ⟨.ok (.done target), (after, window), log⟩ ∧
        At after content target
  refuses : ∀ {backend : β} {window : Window} {content : Bytes} {position : Nat} {offset : Int}
    {origin : Origin}, At backend content position →
      origin.resolve offset position content.length = none → ∃ log,
        Backend.seek backend window offset origin =
          ⟨.ok (.failed .seekError), (backend, window), log⟩
  measures : ∀ {backend : β} {content : Bytes} {position : Nat}, At backend content position →
    ∃ log, Backend.size backend = ⟨.done content.length, backend, log⟩

namespace Stream

section Answers

variable {β : Type} [Backend β] [ByteMedium β] {stream after : Stream β}
variable {content : Bytes} {position : Nat}

/-- The stream is healthy and stands in `content`, at its end at most. -/
structure StandsAt (stream : Stream β) (content : Bytes) (position : Nat) : Prop where
  offered : stream.capabilities = Offering.offers β
  unfailed : stream.failure = none
  at_cursor : ByteMedium.At stream.backend content position
  position_le : position ≤ content.length
  length_lt : content.length < offsetLimit

/-- The backend comes to `own`, which the stream reports under its error state, and stands at
`position` in `content` after that. -/
def Answers (stream : Stream β) (operation : Op β Transfer) (own : Transfer) (content : Bytes)
    (position : Nat) : Prop :=
  ∃ after, operation.result stream =
      (.ok { own with outcome := stream.reported own.outcome }, after) ∧
    after.StandsAt content position ∧ after.errorState = stream.kept own.outcome.code

theorem read_answered (hStands : stream.StandsAt content position) {count : Nat}
    (hSome : 0 < count) :
    stream.Answers (read count) (Transfer.copy count (content.drop position) count) content
      (position + ((content.drop position).take count).length) := by
  have hOffers : stream.capabilities.read = true := by
    rw [hStands.offered]
    exact ByteMedium.offers_all.1
  obtain ⟨backend, log, hCall, hAt⟩ := ByteMedium.copies hStands.at_cursor hSome
  have hInside := hStands.position_le
  refine ⟨{ stream with
    backend, errorState := stream.kept (Transfer.copy count (content.drop position) count).outcome.code },
    ?_, ⟨hStands.offered, hStands.unfailed, hAt, ?_, hStands.length_lt⟩, rfl⟩
  · rw [read_of_offered hSome hOffers, hCall]
  · rw [List.length_take, List.length_drop]
    omega

theorem write_answered (hStands : stream.StandsAt content position) {source : Bytes}
    (hSome : source ≠ [])
    (hTakes : ByteMedium.Takes β content.length (position + source.length)) :
    stream.Answers (do return .none (← write source)) (.none (.done source.length))
      (content.store position source) (position + source.length) := by
  have hOffers : stream.capabilities.write = true := by
    rw [hStands.offered]
    exact ByteMedium.offers_all.2.1
  obtain ⟨backend, log, hCall, hAt⟩ := ByteMedium.stores hStands.at_cursor hSome hTakes
  have hReach := ByteMedium.takes_lt hTakes hStands.length_lt
  have hLength := hStands.length_lt
  refine ⟨{ stream with backend, errorState := stream.kept .success }, ?_,
    ⟨hStands.offered, hStands.unfailed, hAt, ?_, ?_⟩, rfl⟩
  · rw [Action.result_bind_of_ok (write_of_offered hSome hOffers), hCall]
    rfl
  · rw [Bytes.length_store hSome]
    exact Nat.le_max_right _ _
  · rw [Bytes.length_store hSome]
    omega

theorem seek_answered (hStands : stream.StandsAt content position) {offset : Int} {origin : Origin}
    (hInside : ∀ target, origin.resolve offset position content.length = some target →
      target ≤ content.length) :
    stream.Answers (do return .none (← seek offset origin))
      ((Request.seek offset origin).answer content position) content
      ((Request.seek offset origin).next content position) := by
  have hOffers : stream.capabilities.seek = true := by
    rw [hStands.offered]
    exact ByteMedium.offers_all.2.2.1
  have hSeek {backend : β} {outcome : Outcome} {log : List Event}
      (hCall : Backend.seek stream.backend stream.window offset origin =
        ⟨.ok outcome, (backend, stream.window), log⟩) :
      Action.result (do return Transfer.none (← seek offset origin)) stream =
        (.ok (Transfer.none (stream.reported outcome)),
          { stream with backend, errorState := stream.kept outcome.code }) := by
    have hAnswer : (Backend.seek stream.backend stream.window offset origin).value = .ok outcome := by
      rw [hCall]
    rw [Action.result_bind_of_ok (seek_of_answered hOffers hStands.unfailed hAnswer), hCall]
    rfl
  rw [Request.answer, Request.next]
  cases hTarget : origin.resolve offset position content.length with
  | none =>
      obtain ⟨log, hCall⟩ := @ByteMedium.refuses _ _ _ _ stream.window _ _ _ _
        hStands.at_cursor hTarget
      exact ⟨_, hSeek hCall, ⟨hStands.offered, hStands.unfailed, hStands.at_cursor,
        hStands.position_le, hStands.length_lt⟩, rfl⟩
  | some target =>
      have hReach := hInside target hTarget
      obtain ⟨backend, log, hCall, hAt⟩ := @ByteMedium.moves _ _ _ _ stream.window _ _ _ _ _
        hStands.at_cursor hTarget hReach hStands.length_lt
      exact ⟨_, hSeek hCall, ⟨hStands.offered, hStands.unfailed, hAt, hReach, hStands.length_lt⟩,
        rfl⟩

theorem size_answered (hStands : stream.StandsAt content position) :
    stream.Answers (do return .none (← size)) (.none (.done content.length)) content position := by
  have hOffers : stream.capabilities.size = true := by
    rw [hStands.offered]
    exact ByteMedium.offers_all.2.2.2
  obtain ⟨log, hCall⟩ := ByteMedium.measures hStands.at_cursor
  refine ⟨{ stream with errorState := stream.kept .success }, ?_,
    ⟨hStands.offered, hStands.unfailed, hStands.at_cursor, hStands.position_le,
      hStands.length_lt⟩, rfl⟩
  rw [Action.result_bind_of_ok (size_of_offered hOffers), hCall]
  rfl

end Answers

section Pairs

variable {β γ : Type} [Backend β] [ByteMedium β] [Backend γ] [ByteMedium γ]
variable {stream : Stream β} {other : Stream γ} {content : Bytes} {position : Nat}

/-- Two streams over media that hold the same bytes stand at the same place in them, under the same
error state. -/
structure InStep (content : Bytes) (position : Nat) (stream : Stream β) (other : Stream γ) :
    Prop where
  first : stream.StandsAt content position
  second : other.StandsAt content position
  errorState_eq : stream.errorState = other.errorState

/-- Streams in step that give one answer and are in step again. -/
def StepsAlike (operation : Op β Transfer) (operation' : Op γ Transfer) (stream : Stream β)
    (other : Stream γ) (content : Bytes) (position : Nat) : Prop :=
  ∃ answer after after', operation.result stream = (.ok answer, after) ∧
    operation'.result other = (.ok answer, after') ∧ InStep content position after after'

/-- What the backends come to alike the streams report alike, as they are under one error state. -/
theorem Answers.stepsAlike {operation : Op β Transfer} {operation' : Op γ Transfer} {own : Transfer}
    (hSame : stream.errorState = other.errorState)
    (hFirst : stream.Answers operation own content position)
    (hSecond : other.Answers operation' own content position) :
    StepsAlike operation operation' stream other content position := by
  obtain ⟨after, hRun, hStands, hCode⟩ := hFirst
  obtain ⟨after', hRun', hStands', hCode'⟩ := hSecond
  have hReported : stream.reported own.outcome = other.reported own.outcome := by
    rw [reported, reported, hSame]
  have hKept : stream.kept own.outcome.code = other.kept own.outcome.code := by
    rw [kept, kept, hSame]
  refine ⟨_, after, after', hRun, ?_, hStands, hStands', by rw [hCode, hCode', hKept]⟩
  rw [hRun', hReported]

theorem StandsAt.unmarked (hStands : stream.StandsAt content position) (code : Code) :
    { stream with errorState := code }.StandsAt content position :=
  ⟨hStands.offered, hStands.unfailed, hStands.at_cursor, hStands.position_le, hStands.length_lt⟩

/-- One step on streams in step. A read of nothing and a write of nothing ask neither backend. -/
theorem InStep.perform (hInStep : InStep content position stream other) (task : Task)
    (hSeek : ∀ offset origin, task = .ask (.seek offset origin) → ∀ target,
      origin.resolve offset position content.length = some target → target ≤ content.length)
    (hWrite : ∀ source, task = .write source → source ≠ [] →
      ByteMedium.Takes β content.length (position + source.length) ∧
        ByteMedium.Takes γ content.length (position + source.length)) :
    ∃ content' position', content.length ≤ content'.length ∧
      StepsAlike task.perform task.perform stream other content' position' := by
  obtain ⟨hFirst, hSecond, hSame⟩ := hInStep
  cases task with
  | ask request =>
      cases request with
      | read count =>
          rcases Nat.eq_zero_or_pos count with rfl | hSome
          · exact ⟨content, position, Nat.le_refl _, _, stream, other, rfl, rfl, hFirst, hSecond,
              hSame⟩
          · exact ⟨content, _, Nat.le_refl _,
              (read_answered hFirst hSome).stepsAlike hSame (read_answered hSecond hSome)⟩
      | seek offset origin =>
          have hInside := hSeek offset origin rfl
          exact ⟨content, _, Nat.le_refl _,
            (seek_answered hFirst hInside).stepsAlike hSame (seek_answered hSecond hInside)⟩
      | position =>
          have hInside : ∀ target, Origin.current.resolve 0 position content.length = some target →
              target ≤ content.length := by
            intro target hTarget
            have hSum := (toPosition?_eq_some_iff.mp hTarget).1
            have hHere := hFirst.position_le
            simp only [Origin.base] at hSum
            omega
          exact ⟨content, _, Nat.le_refl _,
            (seek_answered hFirst hInside).stepsAlike hSame (seek_answered hSecond hInside)⟩
      | size =>
          exact ⟨content, position, Nat.le_refl _,
            (size_answered hFirst).stepsAlike hSame (size_answered hSecond)⟩
  | write source =>
      by_cases hNone : source = []
      · subst hNone
        exact ⟨content, position, Nat.le_refl _, _, stream, other, rfl, rfl, hFirst, hSecond, hSame⟩
      · obtain ⟨hTakes, hTakes'⟩ := hWrite source rfl hNone
        exact ⟨_, _, Bytes.length_le_store content source position,
          (write_answered hFirst hNone hTakes).stepsAlike hSame
            (write_answered hSecond hNone hTakes')⟩
  | resetErrorState =>
      refine ⟨content, position, Nat.le_refl _, .none (.failed stream.errorState),
        { stream with errorState := .success }, { other with errorState := .success }, ?_, ?_,
        hFirst.unmarked _, hSecond.unmarked _, rfl⟩
      · rw [Task.perform, Action.result_bind_of_ok (result_resetErrorState_of_healthy hFirst.unfailed)]
        rfl
      · rw [Task.perform, Action.result_bind_of_ok (result_resetErrorState_of_healthy hSecond.unfailed), hSame]
        rfl

end Pairs

end Stream

instance : ByteMedium Region where
  At region content position := region.bytes = content ∧ region.position = position
  Takes length reached := reached ≤ length
  offers_all := ⟨rfl, rfl, rfl, rfl⟩
  takes_lt := Nat.lt_of_le_of_lt
  copies hAt hSome := @DirectRead.copies _ _ _ _ Window.empty _ _ _ hAt hSome
  stores hAt hPiece hTakes := Storage.write_stores hAt hPiece hTakes
  moves hAt hTarget hInside hLength :=
    MovableStorage.moves hAt hTarget (.inl hInside) (Nat.lt_of_le_of_lt hInside hLength)
  refuses := by
    rintro region window content position offset origin ⟨rfl, rfl⟩ hTarget
    refine ⟨[], ?_⟩
    show (region.seek offset origin).beside window = _
    rw [Region.seek, hTarget]
    rfl
  measures := by
    rintro region content position ⟨rfl, rfl⟩
    exact ⟨[], rfl⟩

instance [Memory] : ByteMedium Growable where
  At vector content position := vector.bytes = content ∧ vector.position = position
  Takes length reached := reached ≤ length ∨ reached ≤ reservable
  offers_all := ⟨rfl, rfl, rfl, rfl⟩
  takes_lt := by
    have hLimit : reservable < offsetLimit := Memory.reservable_lt
    omega
  copies hAt hSome := @DirectRead.copies _ _ _ _ Window.empty _ _ _ hAt hSome
  stores hAt hPiece hTakes := Storage.write_stores hAt hPiece hTakes
  moves hAt hTarget hInside hLength :=
    MovableStorage.moves hAt hTarget (.inl hInside) (Nat.lt_of_le_of_lt hInside hLength)
  refuses := by
    rintro vector window content position offset origin ⟨rfl, rfl⟩ hTarget
    refine ⟨[], ?_⟩
    show (vector.seek offset origin).beside window = _
    rw [Growable.seek, hTarget]
    rfl
  measures := by
    rintro vector content position ⟨rfl, rfl⟩
    exact ⟨[], rfl⟩

instance : ByteMedium File where
  At file content position :=
    file.bytes = content ∧ file.position = position ∧ file.access = .readWrite ∧
      SystemCall.Smooth file.reads ∧ SystemCall.Smooth file.writes
  Takes _ reached := reached ≤ File.sizeLimit
  offers_all := ⟨rfl, rfl, rfl, rfl⟩
  takes_lt := by
    have hLimit : File.sizeLimit < offsetLimit := by decide
    omega
  copies := by
    rintro file content position count ⟨rfl, rfl, hAccess, hReads, hWrites⟩ -
    obtain ⟨later, hLater, hRead⟩ := File.read_copies (by rw [hAccess]; rfl) hReads count
    refine ⟨_, [], hRead, rfl, ?_, hAccess, hReads.of_suffix hLater, hWrites⟩
    simp only [Transfer.copy, Nat.min_self]
  stores := by
    rintro file content piece position ⟨rfl, rfl, hAccess, hReads, hWrites⟩ - hTakes
    obtain ⟨later, hLater, hWrite⟩ :=
      File.write_completes (by rw [hAccess]; rfl) hWrites hTakes
    exact ⟨_, [], hWrite, rfl, rfl, hAccess, hReads, hWrites.of_suffix hLater⟩
  moves := by
    rintro file window content position target offset origin ⟨rfl, rfl, hOpen⟩ hTarget hInside
      hLength
    refine ⟨{ file with position := target }, [], ?_, rfl, rfl, hOpen⟩
    show (file.seek offset origin).beside window = _
    rw [File.seek, hTarget]
    dsimp only
    rw [if_pos (Nat.lt_of_le_of_lt hInside hLength)]
    rfl
  refuses := by
    rintro file window content position offset origin ⟨rfl, rfl, -⟩ hTarget
    refine ⟨[], ?_⟩
    show (file.seek offset origin).beside window = _
    rw [File.seek, hTarget]
    rfl
  measures := by
    rintro file content position ⟨rfl, rfl, -⟩
    exact ⟨[], rfl⟩

namespace Task

open Bytestream.Stream

/-- Wherever a step is taken in step with a vector, both media have room for what it writes. -/
def Fits [Memory] (γ : Type) [Backend γ] [ByteMedium γ] (allowed : Task → Growable → Prop)
    (initial : Nat) :
    Prop :=
  ∀ task vector, allowed task vector → initial ≤ vector.bytes.length →
    vector.bytes.length < offsetLimit → task.Inside vector ∧ task.Allocates vector ∧
      ∀ source, task = .write source →
        ByteMedium.Takes γ vector.bytes.length (vector.position + source.length)

/-- Streams in step give the same answers through a whole run, and hold the same bytes after it. The
induction is on the steps. -/
theorem performAll_inStep [Memory] {γ : Type} [Backend γ] [ByteMedium γ]
    {allowed : Task → Growable → Prop}
    {initial : Nat} (hFits : Fits γ allowed initial) {tasks : List Task} {vector : Stream Growable}
    {other : Stream γ} {content : Bytes} {position : Nat}
    (hInStep : InStep content position vector other) (hInitial : initial ≤ content.length)
    (hAllowed : Along allowed tasks vector) :
    ∃ answers after after' last end', (performAll tasks).result vector = (.ok answers, after) ∧
      (performAll tasks).result other = (.ok answers, after') ∧ InStep last end' after after' := by
  induction tasks generalizing vector other content position with
  | nil => exact ⟨[], vector, other, content, position, rfl, rfl, hInStep⟩
  | cons task later ih =>
      obtain ⟨hHere, hLater⟩ := hAllowed
      obtain ⟨hContent, hPosition⟩ := hInStep.first.at_cursor
      have hLength := hInStep.first.length_lt
      rw [← hContent] at hInitial hLength
      obtain ⟨hInside, hAllocates, hTakes⟩ := hFits task vector.backend hHere hInitial hLength
      rw [hContent] at hInitial
      obtain ⟨content', position', hGrown, answer, middle, middle', hRun, hRun', hMiddle⟩ :=
        hInStep.perform task
          (by
            rintro offset origin rfl
            rw [← hContent, ← hPosition]
            exact hInside)
          (by
            rintro source rfl hSome
            rw [← hContent, ← hPosition]
            exact ⟨hAllocates, hTakes source rfl⟩)
      rw [hRun] at hLater
      obtain ⟨answers, after, after', last, end', hRest, hRest', hLast⟩ :=
        ih hMiddle (Nat.le_trans hInitial hGrown) hLater
      refine ⟨(answer, middle.errorState) :: answers, after, after', last, end', ?_, ?_, hLast⟩
      · rw [performAll, Action.result_bind_of_ok hRun,
          Action.result_bind_of_ok (Action.result_state middle), Action.result_bind_of_ok hRest,
          Action.result_pure]
      · rw [performAll, Action.result_bind_of_ok hRun',
          Action.result_bind_of_ok (Action.result_state middle'), Action.result_bind_of_ok hRest',
          Action.result_pure, hMiddle.errorState_eq]

theorem along_and [Memory] {first second : Task → Growable → Prop} {tasks : List Task}
    {stream : Stream Growable} (hFirst : Along first tasks stream)
    (hSecond : Along second tasks stream) :
    Along (fun task vector => first task vector ∧ second task vector) tasks stream := by
  induction tasks generalizing stream with
  | nil => trivial
  | cons task later ih => exact ⟨⟨hFirst.1, hSecond.1⟩, ih hFirst.2 hSecond.2⟩

theorem inStep_of_opened [Memory] {γ : Type} [Backend γ] [ByteMedium γ] {content : Bytes}
    {backend : γ} (hLength : content.length < offsetLimit)
    (hAt : ByteMedium.At backend content 0) :
    InStep content 0
      ⟨Growable.ofBytes content, Offering.offers Growable, Window.empty, none, .success⟩
      ⟨backend, Offering.offers γ, Window.empty, none, .success⟩ :=
  ⟨⟨rfl, rfl, ⟨rfl, rfl⟩, Nat.zero_le _, hLength⟩, ⟨rfl, rfl, hAt, Nat.zero_le _, hLength⟩, rfl⟩

/-- A file has room for whatever memory can be had for. -/
theorem fits_file [Memory] (initial : Nat) :
    Fits File (fun task vector => task.Inside vector ∧ task.Allocates vector) initial := by
  rintro task vector ⟨hInside, hAllocates⟩ - hLength
  refine ⟨hInside, hAllocates, ?_⟩
  rintro source rfl
  have hLimit : reservable < offsetLimit := Memory.reservable_lt
  have hSize : offsetLimit = File.sizeLimit + 1 := by decide
  have hHeld : vector.position + source.length ≤ vector.bytes.length ∨
      vector.position + source.length ≤ reservable := hAllocates
  show vector.position + source.length ≤ File.sizeLimit
  omega

/-- A region has room for what ends within its bytes. -/
theorem fits_region [Memory] (initial : Nat) :
    Fits Region (fun task vector => (task.Inside vector ∧ task.Allocates vector) ∧
      task.EndsWithin initial vector) initial := by
  rintro task vector ⟨⟨hInside, hAllocates⟩, hWithin⟩ hInitial -
  refine ⟨hInside, hAllocates, ?_⟩
  rintro source rfl
  exact Nat.le_trans hWithin hInitial

/-- A stream on a vector and one on a file that were opened on the same bytes cannot be told apart as
long as no seek goes past the bytes and memory can be had for every write: each step gives the same
outcome, the same bytes and the same error state, and in the end they hold the same bytes. As long as
no write ends behind the bytes that were there at first, neither can a stream on a region. No byte
string is longer than the greatest offset. -/
theorem media_interchangeable [Memory] {content : Bytes} {tasks : List Task} {vector : Stream Growable}
    {file : Stream File} {log log' : List Event} (hLength : content.length < offsetLimit)
    (hVector : ofBackend (Growable.ofBytes content) = .ok (vector, log))
    (hFile : ofBackend (File.opened content .readWrite 0) = .ok (file, log'))
    (hInside : Along Inside tasks vector) (hAllocates : Along Allocates tasks vector) :
    ∃ answers vector' file', (performAll tasks).result vector = (.ok answers, vector') ∧
      (performAll tasks).result file = (.ok answers, file') ∧
      file'.backend.bytes = vector'.backend.bytes ∧
      ∀ region log'', ofBackend (Region.ofBytes content) = .ok (region, log'') →
        Along (EndsWithin content.length) tasks vector →
        ∃ region', (performAll tasks).result region = (.ok answers, region') ∧
          region'.backend.bytes = vector'.backend.bytes := by
  cases hVector
  cases hFile
  have hAllowed := along_and hInside hAllocates
  have hAtFile : ByteMedium.At (File.opened content .readWrite 0) content 0 :=
    ⟨rfl, rfl, rfl, SystemCall.smooth_nil, SystemCall.smooth_nil⟩
  obtain ⟨answers, vector', file', last, cursor, hRun, hRun', hEnd⟩ :=
    performAll_inStep (fits_file content.length) (inStep_of_opened hLength hAtFile) (Nat.le_refl _)
      hAllowed
  refine ⟨answers, vector', file', hRun, hRun', ?_, ?_⟩
  · rw [hEnd.first.at_cursor.1, hEnd.second.at_cursor.1]
  · intro region log'' hRegion hWithin
    cases hRegion
    have hAtRegion : ByteMedium.At (Region.ofBytes content) content 0 := ⟨rfl, rfl⟩
    obtain ⟨again, again', region', last, cursor, hRun', hRegion, hEnd⟩ :=
      performAll_inStep (fits_region content.length) (inStep_of_opened hLength hAtRegion)
        (Nat.le_refl _) (along_and hAllowed hWithin)
    obtain ⟨rfl, rfl⟩ : answers = again ∧ vector' = again' := by
      have hSame := hRun.symm.trans hRun'
      simpa using hSame
    exact ⟨region', hRegion, by rw [hEnd.first.at_cursor.1, hEnd.second.at_cursor.1]⟩

/-- A read, a seek in front of the bytes, a write under the error that this leaves, and after a reset
a read that runs into the end. -/
def mixedRun : List Task :=
  [.ask (.read 2), .ask (.seek (-1) .start), .write [7], .resetErrorState, .ask (.seek 0 .start),
    .ask (.read 4), .ask .size]

/-- The write is reported as the failure that was kept, and its byte is there all the same. -/
theorem media_interchangeable_mixedRun :
    ∃ vector vector' file file' region region' log log' log'' answers,
      ofBackend (Growable.ofBytes [1, 2, 3]) = .ok (vector, log) ∧
      ofBackend (File.opened [1, 2, 3] .readWrite 0) = .ok (file, log') ∧
      ofBackend (Region.ofBytes [1, 2, 3]) = .ok (region, log'') ∧
      (performAll mixedRun).result vector = (.ok answers, vector') ∧
      (performAll mixedRun).result file = (.ok answers, file') ∧
      (performAll mixedRun).result region = (.ok answers, region') ∧
      answers = [(⟨.done 2, [1, 2]⟩, .success), (.none (.failed .seekError), .seekError),
        (.none (.failed .seekError), .seekError), (.none (.failed .seekError), .success),
        (.none (.done 0), .success), (⟨.report 3 .endOfStream, [1, 2, 7]⟩, .endOfStream),
        (.none (.failed .endOfStream), .endOfStream)] ∧
      file'.backend.bytes = vector'.backend.bytes ∧ region'.backend.bytes = vector'.backend.bytes := by
  let opened : Stream Growable :=
    ⟨Growable.ofBytes [1, 2, 3], Offering.offers Growable, Window.empty, none, .success⟩
  have hInside : Along Inside mixedRun opened := by
    refine ⟨trivial, ?_, trivial, trivial, ?_, trivial, trivial, trivial⟩
    · intro target hTarget
      have hSum := (toPosition?_eq_some_iff.mp hTarget).1
      simp only [Origin.base] at hSum
      omega
    · intro target hTarget
      have hSum := (toPosition?_eq_some_iff.mp hTarget).1
      simp only [Origin.base] at hSum
      omega
  have hAllocates : Along Allocates mixedRun opened :=
    ⟨trivial, trivial, .inl (by decide : 2 + 1 ≤ 3), trivial, trivial, trivial, trivial, trivial⟩
  have hWithin : Along (EndsWithin 3) mixedRun opened :=
    ⟨trivial, trivial, (by decide : 2 + 1 ≤ 3), trivial, trivial, trivial, trivial, trivial⟩
  obtain ⟨answers, vector', file', hRun, hFile, hSame, hRegion⟩ :=
    @media_interchangeable _ [1, 2, 3] mixedRun _ _ _ _ (by decide) rfl rfl hInside hAllocates
  obtain ⟨region', hRun', hSame'⟩ := hRegion _ _ rfl hWithin
  have hAnswers : answers = _ := (Except.ok.inj (Prod.mk.inj hRun).1).symm
  exact ⟨_, vector', _, file', _, region', _, _, _, answers, rfl, rfl, rfl, hRun, hFile, hRun',
    hAnswers, hSame, hSame'⟩

end Task

end Bytestream
