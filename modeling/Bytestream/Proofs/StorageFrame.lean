import Bytestream.Proofs.Discipline
import Bytestream.Proofs.PermanentFailure
import Bytestream.Proofs.Writing

/-!
What reading leaves of the bytes that a backend stores. No way of reading chunks writes, so that the
bytes change only where a backend is moved over them, which is when a chunk is skipped. Most backends
refuse to be moved past their bytes or let the position stand there. A vector grows instead, by the
zeros that reach as far as the skip.
-/

namespace Bytestream

/-- A backend with bytes that neither a read nor a refill changes. -/
class Stored (β : Type) [Backend β] where
  content : β → Bytes
  read : ∀ (backend : β) count, content (Backend.read backend count).state = content backend
  refill : ∀ (backend : β) window,
    content (Backend.refill backend window).state.1 = content backend

/-- A backend whose bytes stay the same wherever it is moved. -/
class FixedStorage (β : Type) [Backend β] extends Stored β where
  seek : ∀ (backend : β) window offset origin,
    content (Backend.seek backend window offset origin).state.1 = content backend

instance : FixedStorage Region where
  content region := region.bytes
  read _ _ := rfl
  refill _ _ := rfl
  seek := by
    intro region window offset origin
    show (region.seek offset origin).state.bytes = region.bytes
    rw [Region.seek]
    split
    · split <;> rfl
    · rfl

instance [Memory] : Stored Growable where
  content vector := vector.bytes
  read _ _ := rfl
  refill _ _ := rfl

instance : FixedStorage File where
  content file := file.bytes
  read := by
    intro file count
    obtain ⟨taken, code, after, log, hRead, ⟨-, later, -, rfl⟩, -⟩ := file.read_takes count
    exact congrArg (fun reply => reply.state.bytes) hRead
  refill _ _ := rfl
  seek := by
    intro file window offset origin
    show (file.seek offset origin).state.bytes = file.bytes
    rw [File.seek]
    split
    · split <;> rfl
    · rfl

instance : FixedStorage ReadOnly where
  content source := source.bytes
  read _ _ := rfl
  refill _ _ := rfl
  seek := by
    intro source window offset origin
    show (source.seek window offset origin).state.1.bytes = source.bytes
    rw [ReadOnly.seek]
    split
    · split <;> rfl
    · rfl

instance : FixedStorage Pieces where
  content source := source.bytes
  read _ _ := rfl
  refill := by
    intro source window
    show (source.refill window).state.1.bytes = source.bytes
    rw [Pieces.refill]
    split
    · rfl
    · split <;> rfl
  seek := by
    intro source window offset origin
    show (source.seek window offset origin).state.1.bytes = source.bytes
    rw [Pieces.seek]
    split
    · split <;> rfl
    · rfl

theorem Source.bytes_of_read {source after : Source} {count : Nat} {taken : Option Bytes}
    (hRead : source.read count = (taken, after)) : after.bytes = source.bytes := by
  rw [read] at hRead
  split at hRead
  · split at hRead <;> cases hRead <;> rfl
  · cases hRead
    rfl

theorem Source.bytes_of_seek {source after : Source} {offset : Int} {origin : Origin}
    {moved : Option Nat} (hSeek : source.seek offset origin = (moved, after)) :
    after.bytes = source.bytes := by
  rw [seek] at hSeek
  dsimp only at hSeek
  split at hSeek
  · split at hSeek <;> cases hSeek <;> rfl
  · cases hSeek
    rfl

/-- The bytes are those of the source, whatever the buffer in front of it holds. -/
instance : FixedStorage BufferedReader where
  content reader := reader.source.bytes
  read _ _ := rfl
  refill := by
    intro reader window
    show (reader.refill window).state.1.source.bytes = reader.source.bytes
    rw [BufferedReader.refill]
    split
    · rfl
    · dsimp only
      split <;> rename_i hRead
      · exact Source.bytes_of_read hRead
      · split
        · exact Source.bytes_of_read hRead
        · exact Source.bytes_of_read hRead
  seek := by
    intro reader window offset origin
    show (reader.seek window offset origin).state.1.source.bytes = reader.source.bytes
    rw [BufferedReader.seek]
    split
    · rfl
    · split <;> rename_i hSeek
      · exact Source.bytes_of_seek hSeek
      · exact Source.bytes_of_seek hSeek

namespace Stream

variable {β : Type} {stream after : Stream β} {capabilities : Capabilities} {content : Bytes}

/-- The stream offers what it did, still stores the same bytes, and can only have failed for good in
a refill. -/
structure Unwritten [Backend β] [Stored β] (capabilities : Capabilities) (content : Bytes)
    (stream : Stream β) : Prop where
  offered : stream.capabilities = capabilities
  unfailed : capabilities.bufferedRead = false → stream.failure = none
  content_eq : Stored.content stream.backend = content

variable [Backend β]

theorem Refilled.backend_eq {code : Code} (hRefilled : stream.Refilled code after) :
    after.backend = stream.backend ∨
      after.backend = (Backend.refill stream.backend stream.window).state.1 := by
  cases hRefilled with
  | absent => exact .inl rfl
  | served => exact .inl rfl
  | filled => exact .inr rfl
  | failed => exact .inr rfl

theorem Refilled.capabilities_eq {code : Code} (hRefilled : stream.Refilled code after) :
    after.capabilities = stream.capabilities := by
  cases hRefilled <;> rfl

section Reads

variable [Stored β]

theorem Unwritten.of_backend (hUnwritten : stream.Unwritten capabilities content)
    (hOffered : after.capabilities = stream.capabilities) (hFailure : after.failure = stream.failure)
    (hBackend : Stored.content after.backend = Stored.content stream.backend) :
    after.Unwritten capabilities content := by
  refine ⟨hOffered.trans hUnwritten.offered, fun hDirect => ?_, hBackend.trans hUnwritten.content_eq⟩
  rw [hFailure]
  exact hUnwritten.unfailed hDirect

/-- A refill leaves the bytes alone however it ends. Only a stream with a window can fail in it. -/
theorem Unwritten.refill (hUnwritten : stream.Unwritten capabilities content)
    (hExhausted : stream.window.exhausted = true) :
    (Action.result refill stream).2.Unwritten capabilities content := by
  cases hOffers : stream.capabilities.bufferedRead with
  | false =>
      rw [refill_of_absent hOffers]
      exact hUnwritten.of_backend rfl rfl rfl
  | true =>
      have hWindow : capabilities.bufferedRead ≠ false := by
        rw [← hUnwritten.offered, hOffers]
        decide
      have hKept {other : Stream β} (hOffered : other.capabilities = stream.capabilities)
          (hBackend : Stored.content other.backend = Stored.content stream.backend) :
          other.Unwritten capabilities content :=
        ⟨hOffered.trans hUnwritten.offered, fun hDirect => absurd hDirect hWindow,
          hBackend.trans hUnwritten.content_eq⟩
      cases hFailure : stream.failure with
      | some code =>
          rw [refill_of_served hOffers hExhausted hFailure]
          exact hKept rfl rfl
      | none =>
          rcases refill_returns_or_stops hOffers hExhausted hFailure with
            ⟨code, after, hRun, hRefilled⟩ | ⟨fault, hRun⟩
          · rw [hRun]
            apply hKept hRefilled.capabilities_eq
            rcases hRefilled.backend_eq with hSame | hAsked
            · rw [hSame]
            · rw [hAsked]
              exact Stored.refill stream.backend stream.window
          · rw [hRun]
            exact hKept rfl (Stored.refill stream.backend stream.window)

theorem orderlyReads_unwritten :
    OrderlyReads (Unwritten (β := β) capabilities content)
      (fun _ => Unwritten capabilities content) where
  record code stream hUnwritten := by
    rw [result_record]
    exact hUnwritten.of_backend rfl rfl rfl
  readDirect {stream count} hUnwritten hSome hDirect := by
    rw [read_of_offered hSome hDirect]
    exact hUnwritten.of_backend rfl rfl (Stored.read stream.backend count)
  peek {stream count} hUnwritten _ := by
    rw [peek, Action.result_bind_of_ok (Action.result_state stream)]
    split
    · exact hUnwritten
    · exact hUnwritten
  consume hUnwritten hCount := by
    obtain ⟨window, -, hConsume⟩ := consume_of_available hCount
    rw [hConsume]
    exact hUnwritten.of_backend rfl rfl rfl
  refill {stream} hUnwritten hExhausted := by
    have hAfter := hUnwritten.refill hExhausted
    cases hRun : Action.result Stream.refill stream with
    | mk value after =>
        rw [hRun] at hAfter
        cases value <;> exact hAfter

omit [Backend β] [Stored β] in
/-- What holds of a stream between the reads that an action is made of, and wherever they stop, holds
when the whole of it is over. -/
theorem good_of_agree {α : Type} {good : Stream β → Prop} {run : Except Stop α × Stream β}
    (hAgree : Action.Agree (Action.SameGood good)
      (stopsRelated (Action.SameGood good) (Action.SameStop fun _ => good)) run run) :
    good run.2 := by
  match run, hAgree with
  | (.ok _, _), hAgree => exact hAgree.2.2
  | (.error (.error _), _), hAgree => exact hAgree.2.2
  | (.error (.fault _), _), hAgree => exact hAgree.2.2

end Reads

/-- A seek moves the backend or leaves it as it is. -/
theorem backend_of_seek (stream : Stream β) (offset : Int) (origin : Origin) :
    ((seek offset origin).result stream).2.capabilities = stream.capabilities ∧
      ((seek offset origin).result stream).2.failure = stream.failure ∧
      (((seek offset origin).result stream).2.backend = stream.backend ∨
        ((seek offset origin).result stream).2.backend =
          (Backend.seek stream.backend stream.window offset origin).state.1) := by
  cases hOffers : stream.capabilities.seek with
  | false =>
      rw [seek_of_absent hOffers, result_unsupported]
      exact ⟨rfl, rfl, .inl rfl⟩
  | true =>
      cases hFailure : stream.failure with
      | some code =>
          rw [seek_of_failure hOffers hFailure]
          exact ⟨rfl, hFailure, .inl rfl⟩
      | none =>
          cases hAnswer : (Backend.seek stream.backend stream.window offset origin).value with
          | error fault =>
              rw [seek_of_breach hOffers hFailure hAnswer]
              exact ⟨rfl, hFailure, .inr rfl⟩
          | ok outcome =>
              rw [seek_of_answered hOffers hFailure hAnswer]
              exact ⟨rfl, hFailure, .inr rfl⟩

theorem Unwritten.seek [FixedStorage β] (hUnwritten : stream.Unwritten capabilities content)
    (offset : Int) (origin : Origin) :
    ((seek offset origin).result stream).2.Unwritten capabilities content := by
  obtain ⟨hOffered, hFailure, hBackend⟩ := backend_of_seek stream offset origin
  apply hUnwritten.of_backend hOffered hFailure
  rcases hBackend with hSame | hMoved
  · rw [hSame]
  · rw [hMoved]
    exact FixedStorage.seek stream.backend stream.window offset origin

omit [Backend β] in
theorem state_of_lift {α : Type} (operation : Op β α) (stream : Stream β) :
    ((lift operation).result stream).2 = (operation.result stream).2 := by
  rw [lift, Action.result_mapStop]

/-- A skip is a seek, and a refusal where no offset is as long as the chunk. -/
theorem skip_of_offset {header : ChunkHeader} {offset : Int}
    (hOffset : toOffset? (header.dataSize.toNat + ChunkHeader.footerSize) = some offset)
    (stream : Stream β) :
    ((Chunk.skip header).result stream).2 = ((seek offset .current).result stream).2 := by
  rw [Chunk.skip, hOffset, Action.state_of_bind, state_of_lift]
  intro outcome middle
  rw [Action.state_of_bind, Action.state_of_computed]
  exact fun _ _ => rfl

theorem skip_of_no_offset {header : ChunkHeader}
    (hOffset : toOffset? (header.dataSize.toNat + ChunkHeader.footerSize) = none)
    (stream : Stream β) :
    ((Chunk.skip header).result stream).2 =
      { stream with errorState := stream.kept .seekError } := by
  rw [Chunk.skip, hOffset, reject,
    Action.result_bind_of_ok (result_lift_of_ok (stream.result_record .seekError))]
  rfl

end Stream

namespace Command

open Bytestream.Stream

/-- The commands of a reader: to read, with or without a chunk, to skip a chunk, and to clear the
error state. -/
inductive Reads : Command → Prop where
  | read (count : Nat) : Reads (.read count)
  | bufferedRead (count : Nat) : Reads (.bufferedRead count)
  | readHeader (config : ChunkConfig) : Reads (.readHeader config)
  | readPayload (header : ChunkHeader) (config : ChunkConfig) : Reads (.readPayload header config)
  | readChunk (config : ChunkConfig) : Reads (.readChunk config)
  | skipChunk (header : ChunkHeader) : Reads (.skipChunk header)
  | resetErrorState : Reads .resetErrorState

variable {β : Type} [Backend β]

section Steps

variable [Stored β] {capabilities : Capabilities} {content moved : Bytes} {stream : Stream β}

/-- A reader leaves the bytes alone as long as its skips do. -/
theorem unwritten_of_perform [Memory] {command : Command} (hReads : command.Reads)
    (hUnwritten : stream.Unwritten capabilities content)
    (hSkips : ∀ header, command = .skipChunk header →
      ((Chunk.skip header).result stream).2.Unwritten capabilities content) :
    (command.perform.result stream).2.Unwritten capabilities content := by
  have hOrderly : OrderlyReads (Unwritten (β := β) capabilities content)
      (fun _ => Unwritten capabilities content) := orderlyReads_unwritten
  have hSame := hOrderly.corresponding
  have hCoupled := hSame.coupledReads
  -- What a command yields is dropped, and so is the error that it stops at.
  have hAttempt {α : Type} {action : Attempt β α}
      (hLeft : (action.result stream).2.Unwritten capabilities content) :
      (Action.result (do let _ ← Action.attempt action : Op β Unit) stream).2.Unwritten
        capabilities content := by
    rw [Action.state_of_bind (fun _ _ => rfl), Action.state_of_attempt]
    exact hLeft
  have hTransfer {operation : Op β Transfer}
      (hAlike : Action.Alike (Action.SameGood (Unwritten capabilities content))
        (Action.SameStop fun _ => Unwritten capabilities content) operation operation) :
      (Action.result (do let _ ← operation : Op β Unit) stream).2.Unwritten capabilities content := by
    rw [Action.state_of_bind (fun _ _ => rfl), ← state_of_lift]
    exact good_of_agree (CorrespondingReads.lift hAlike stream stream ⟨rfl, hUnwritten⟩)
  cases hReads with
  | read count => exact hTransfer (hSame.read count)
  | bufferedRead count => exact hTransfer (hSame.bufferedRead count)
  | readHeader config =>
      exact hAttempt (good_of_agree (hCoupled.readHeader config stream stream ⟨rfl, hUnwritten⟩))
  | readPayload header config =>
      exact hAttempt (good_of_agree
        (hCoupled.readPayloadVerified header config stream stream ⟨rfl, hUnwritten⟩))
  | readChunk config =>
      exact hAttempt (good_of_agree (hCoupled.readChunk config stream stream ⟨rfl, hUnwritten⟩))
  | skipChunk header => exact hAttempt (hSkips header rfl)
  | resetErrorState =>
      rw [perform, Action.state_of_bind (fun _ _ => rfl), Stream.resetErrorState,
        Action.result_bind_of_ok (Action.result_state stream)]
      split
      · exact hUnwritten.of_backend rfl rfl rfl
      · exact hUnwritten.of_backend rfl rfl rfl

end Steps

/-- A backend whose bytes stay the same wherever it is moved keeps them through every run of a
reader. The induction is on the commands. -/
theorem unwritten_of_performAll [Memory] [FixedStorage β] {capabilities : Capabilities}
    {content : Bytes}
    {stream : Stream β} {commands : List Command} (hReads : ∀ command ∈ commands, command.Reads)
    (hUnwritten : stream.Unwritten capabilities content) :
    ((performAll commands).result stream).2.Unwritten capabilities content := by
  induction commands generalizing stream with
  | nil => exact hUnwritten
  | cons command later ih =>
      rw [List.forall_mem_cons] at hReads
      have hStep := unwritten_of_perform hReads.1 hUnwritten fun header _ => by
        cases hOffset : toOffset? (header.dataSize.toNat + ChunkHeader.footerSize) with
        | some offset =>
            rw [skip_of_offset hOffset]
            exact hUnwritten.seek offset .current
        | none =>
            rw [skip_of_no_offset hOffset]
            exact hUnwritten.of_backend rfl rfl rfl
      rw [performAll, Action.result_bind]
      match hRun : command.perform.result stream, hStep with
      | (.ok (), middle), hStep => exact ih hReads.2 hStep
      | (.error _, _), hStep => exact hStep

end Command

namespace Growable

/-- Where a seek moves the vector: to its target, as far as memory can be had up to there. -/
def reach? [Memory] (vector : Growable) (offset : Int) (origin : Origin) : Option Nat := do
  let target ← origin.resolve offset vector.position vector.bytes.length
  if vector.canHold target then some target else none

/-- A seek appends the zeros up to where it moves the vector, and changes nothing else. -/
theorem bytes_of_seek [Memory] (vector : Growable) (offset : Int) (origin : Origin) :
    (vector.seek offset origin).state.bytes =
      vector.bytes.zeroExtend ((vector.reach? offset origin).getD 0) := by
  have hStill : vector.bytes = vector.bytes.zeroExtend 0 :=
    (Bytes.zeroExtend_of_le (Nat.zero_le _)).symm
  rw [seek, reach?]
  cases origin.resolve offset vector.position vector.bytes.length with
  | none => exact hStill
  | some target =>
      by_cases hHeld : vector.canHold target
      · simp only [Option.bind_eq_bind, Option.bind_some, if_pos hHeld]
        rfl
      · simp only [Option.bind_eq_bind, Option.bind_some, if_neg hHeld]
        exact hStill

end Growable

theorem Bytes.zeroExtend_zeroExtend (bytes : Bytes) (length longer : Nat) :
    (bytes.zeroExtend length).zeroExtend longer = bytes.zeroExtend (max length longer) := by
  simp only [zeroExtend, List.length_append, List.length_replicate, List.append_assoc,
    List.replicate_append_replicate]
  congr 2
  omega

namespace Command

open Bytestream.Stream

/-- How far a command moves a vector by a skip, if it does. -/
def reach [Memory] : Command → Growable → Nat
  | skipChunk header, vector =>
      match toOffset? (header.dataSize.toNat + ChunkHeader.footerSize) with
      | some offset => (vector.reach? offset .current).getD 0
      | none => 0
  | _, _ => 0

/-- The furthest place that any skip of a run moves a vector to. -/
def furthest [Memory] : List Command → Stream Growable → Nat
  | [], _ => 0
  | command :: later, stream =>
      match command.perform.result stream with
      | (.ok _, middle) => max (command.reach stream.backend) (furthest later middle)
      | (.error _, _) => command.reach stream.backend

/-- A skip on a vector appends the zeros up to where it goes, and no other command of a reader changes
anything. -/
theorem extended_of_perform [Memory] {stream : Stream Growable} {content : Bytes} {command : Command}
    (hReads : command.Reads)
    (hUnwritten : stream.Unwritten (Offering.offers Growable) content) :
    (command.perform.result stream).2.Unwritten (Offering.offers Growable)
      (content.zeroExtend (command.reach stream.backend)) := by
  by_cases hSkip : ∃ header, command = .skipChunk header
  · obtain ⟨header, rfl⟩ := hSkip
    rw [perform, Action.state_of_bind (fun _ _ => rfl), Action.state_of_attempt, reach]
    cases hOffset : toOffset? (header.dataSize.toNat + ChunkHeader.footerSize) with
    | none =>
        rw [skip_of_no_offset hOffset]
        dsimp only
        rw [Bytes.zeroExtend_of_le (Nat.zero_le _)]
        exact hUnwritten.of_backend rfl rfl rfl
    | some offset =>
        have hOffers : stream.capabilities.seek = true := by
          rw [hUnwritten.offered]
          rfl
        rw [skip_of_offset hOffset, seek_of_answered hOffers (hUnwritten.unfailed rfl) rfl,
          ← hUnwritten.content_eq]
        exact ⟨hUnwritten.offered, hUnwritten.unfailed, stream.backend.bytes_of_seek offset .current⟩
  · have hStill : command.reach stream.backend = 0 := by
      cases hReads with
      | skipChunk header => exact absurd ⟨header, rfl⟩ hSkip
      | _ => rfl
    rw [hStill, Bytes.zeroExtend_of_le (Nat.zero_le _)]
    exact unwritten_of_perform hReads hUnwritten fun header hCommand =>
      absurd ⟨header, hCommand⟩ hSkip

/-- What a run of a reader leaves of a vector. The induction is on the commands, and each of them adds
the zeros up to where it goes. -/
theorem extended_of_performAll [Memory] {stream : Stream Growable} {content : Bytes}
    {commands : List Command} (hReads : ∀ command ∈ commands, command.Reads)
    (hUnwritten : stream.Unwritten (Offering.offers Growable) content) :
    ((performAll commands).result stream).2.Unwritten (Offering.offers Growable)
      (content.zeroExtend (furthest commands stream)) := by
  induction commands generalizing stream content with
  | nil =>
      rw [furthest, Bytes.zeroExtend_of_le (Nat.zero_le _)]
      exact hUnwritten
  | cons command later ih =>
      rw [List.forall_mem_cons] at hReads
      have hStep := extended_of_perform hReads.1 hUnwritten
      rw [performAll, Action.result_bind, furthest]
      match command.perform.result stream, hStep with
      | (.ok (), middle), hStep =>
          dsimp only
          rw [← Bytes.zeroExtend_zeroExtend]
          exact ih hReads.2 hStep
      | (.error _, _), hStep => exact hStep

end Command

namespace Command

open Bytestream.Stream

/-- A stream on each backend opens, and a run of the commands leaves the backend with the content that
it had. -/
def LeavesContent [Memory] {β : Type} [Backend β] (commands : List Command) (content : β → Bytes) :
    Prop :=
  ∀ backend, ∃ start log, ofBackend backend = .ok (start, log) ∧
    content ((performAll commands).result start).2.backend = content backend

theorem unwritten_of_window {β : Type} [Backend β] [Stored β] (backend : β) (window : Window) :
    Unwritten (Backend.capabilities backend) (Stored.content backend) (opened backend window) :=
  ⟨rfl, fun _ => rfl, rfl⟩

theorem leavesContent_of_fixed [Memory] {β : Type} [Backend β] [FixedStorage β]
    {commands : List Command}
    (hReads : ∀ command ∈ commands, command.Reads)
    (hOpens : ∀ backend : β, ∃ window, Backend.initialWindow backend = .ok window) :
    LeavesContent commands (Stored.content : β → Bytes) := by
  intro backend
  obtain ⟨window, hWindow⟩ := hOpens backend
  obtain ⟨log, hOpened⟩ := ofBackend_of_window hWindow
  exact ⟨_, log, hOpened,
    (unwritten_of_performAll hReads (unwritten_of_window backend window)).content_eq⟩

/-- Every run of chunk reads, skips and resets, whatever its calls come to, leaves the bytes of a
region, a memory, a file, the source of a buffered reader and data in pieces as they were. A vector
keeps its bytes and grows by zeros up to the furthest place that a skip moved it to. -/
theorem reading_keeps_content [Memory] {commands : List Command}
    (hReads : ∀ command ∈ commands, command.Reads) :
    LeavesContent commands (fun region : Region => region.bytes) ∧
    LeavesContent commands ReadOnly.bytes ∧
    LeavesContent commands File.bytes ∧
    LeavesContent commands (fun reader : BufferedReader => reader.source.bytes) ∧
    LeavesContent commands Pieces.bytes ∧
    ∀ vector : Growable, ∃ start log, ofBackend vector = .ok (start, log) ∧
      ((performAll commands).result start).2.backend.bytes =
        vector.bytes.zeroExtend (furthest commands start) :=
  ⟨leavesContent_of_fixed hReads fun _ => ⟨_, rfl⟩,
    leavesContent_of_fixed hReads fun _ => ⟨_, rfl⟩,
    leavesContent_of_fixed hReads fun _ => ⟨_, rfl⟩,
    leavesContent_of_fixed hReads fun _ => ⟨_, rfl⟩,
    leavesContent_of_fixed hReads fun _ => ⟨_, rfl⟩,
    fun vector => ⟨_, _, rfl,
      (extended_of_performAll hReads (unwritten_of_window vector Window.empty)).content_eq⟩⟩

/-- The fourteen bytes of a header that promises a payload of one. -/
def headerAlone : Growable := Growable.ofBytes [1, 0, 0, 0, 1, 0, 1, 0, 0, 0, 0, 0, 0, 0]

/-- To read that header and skip its chunk. -/
def skipBehindHeader : List Command := [.readHeader {}, .skipChunk ⟨1, 1, 1⟩]

/-- A vector that holds the header and nothing else grows by the missing payload and footer. -/
theorem reading_keeps_content_behind_header :
    (∀ command ∈ skipBehindHeader, command.Reads) ∧ ∃ start log,
      ofBackend headerAlone = .ok (start, log) ∧
      ((performAll skipBehindHeader).result start).2.backend.bytes =
        headerAlone.bytes ++ [0, 0, 0, 0, 0] := by
  have hReads : ∀ command ∈ skipBehindHeader, command.Reads := by
    intro command hCommand
    simp only [skipBehindHeader, List.mem_cons, List.not_mem_nil, or_false] at hCommand
    rcases hCommand with rfl | rfl
    · exact .readHeader {}
    · exact .skipChunk ⟨1, 1, 1⟩
  obtain ⟨-, -, -, -, -, hVector⟩ := reading_keeps_content hReads
  obtain ⟨start, log, hOpened, hBytes⟩ := hVector headerAlone
  cases hOpened
  exact ⟨hReads, _, _, rfl, hBytes⟩

/-- The skip takes the very header that was read, succeeds, and changes the stored bytes. -/
theorem skip_grows_vector :
    ∃ start log behind after, ofBackend headerAlone = .ok (start, log) ∧
      (Chunk.readHeader {}).result start = (.ok ⟨1, 1, 1⟩, behind) ∧
      behind.backend.bytes = headerAlone.bytes ∧
      (Chunk.skip ⟨1, 1, 1⟩).result behind = (.ok (), after) ∧
      after.backend.bytes ≠ headerAlone.bytes :=
  ⟨_, _, _, _, rfl, rfl, rfl, rfl, by decide⟩

end Command

end Bytestream
