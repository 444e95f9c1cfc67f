import Bytestream.Proofs.Seeking

/-!
Every way to open a byte string for reading. What is proved of a stream that stands at the start of
its data holds for each of them, whatever the buffer, the schedule or the pattern.
-/

namespace Bytestream

/-- A way to open a byte string for reading. Files and the sources below a buffer may be slow and
interrupted, and pieces may be cut at any repeating pattern of positive lengths. -/
inductive Opening where
  | region
  | readOnly
  | vector
  | file (access : FileAccess) (reads : List SystemCall) (hAccess : access.canRead = true)
      (hReads : SystemCall.Smooth reads)
  | buffered (capacity limit : Nat) (reads : List SourceRead) (hLimit : offsetLimit ≤ limit)
      (hReads : ∀ read ∈ reads, read.Progresses)
  | pieces (pattern : List Nat) (hPattern : pattern ≠ [])
      (hPositive : ∀ length ∈ pattern, 0 < length)

/-- Runs an operation on a stream that was just opened, and yields what it yields with the error
state that it leaves behind. -/
def Stream.launch {β α : Type} [Backend β] (backend : β) (operation : Op β α) :
    Except Fault (α × Code) := do
  let (stream, _) ← ofBackend backend
  match operation.result stream with
  | (.ok value, after) => return (value, after.errorState)
  | (.error fault, _) => .error fault

namespace Opening

/-- Opens the bytes and runs an operation on the new stream. -/
def run [Memory] {α : Type} (opening : Opening) (bytes : Bytes)
    (operation : ∀ {β : Type} [Backend β], Stream.Op β α) : Except Fault (α × Code) :=
  match opening with
  | region => Stream.launch (Region.ofBytes bytes) operation
  | readOnly => Stream.launch (ReadOnly.mk bytes) operation
  | vector => Stream.launch (Growable.ofBytes bytes) operation
  | file access reads _ _ => Stream.launch { File.opened bytes access 0 with reads } operation
  | buffered capacity limit reads _ _ =>
      Stream.launch (BufferedReader.ofSource { bytes, limit, reads } capacity) operation
  | pieces pattern _ _ => do Stream.launch (← Pieces.ofPattern bytes pattern) operation

end Opening

/-- What an operation yields on a new stream is what opening the stream for it yields. -/
theorem Stream.launch_of_result {β α : Type} [Backend β] {backend : β} {window : Window}
    {operation : Op β α} {value : α} {after : Stream β}
    (hWindow : Backend.initialWindow backend = .ok window)
    (hRun : operation.result ⟨backend, Backend.capabilities backend, window, none, .success⟩ =
      (.ok value, after)) :
    launch backend operation = .ok (value, after.errorState) := by
  simp only [launch, ofBackend, hWindow, bind, Except.bind, pure, Except.pure, hRun]

/-- A backend that holds its data at its initial window stands at its start once it is opened. -/
theorem Stream.launch_of_stands {β α : Type} [Backend β] [Readable β] {backend : β}
    {window : Window} {operation : Op β α} {bytes : Bytes} {value : α} {code : Code}
    (hRun : ∀ stream : Stream β, stream.Stands bytes 0 .success →
      ∃ after, operation.result stream = (.ok value, after) ∧ after.errorState = code)
    (hWindow : Backend.initialWindow backend = .ok window)
    (hHolds : Readable.Holds backend window bytes 0) :
    launch backend operation = .ok (value, code) := by
  obtain ⟨after, hResult, rfl⟩ :=
    hRun ⟨backend, Backend.capabilities backend, window, none, .success⟩
      ⟨rfl, Offering.capabilities_eq backend, hHolds, rfl⟩
  exact launch_of_result hWindow hResult

/-- The buffer of a new reader shows nothing, so the reader is where its source is. -/
theorem BufferedReader.holds_ofSource {source : Source} (hReliable : source.Reliable)
    (capacity : Nat) :
    (ofSource source capacity).Holds Window.empty source.bytes source.position := by
  refine ⟨hReliable, rfl, rfl, Nat.zero_le _, ?_, rfl⟩
  rw [ofSource, List.length_replicate]
  omega

/-- What every readable backend that stands at the start of the data does is what each opening of
the data does. -/
theorem Opening.run_of_stands [Memory] {α : Type} (opening : Opening) {bytes : Bytes}
    {operation : ∀ {β : Type} [Backend β], Stream.Op β α} {value : α} {code : Code}
    (hRun : ∀ {β : Type} [Backend β] [Readable β] [ReadsInOrder β] [SeeksWithin β]
      (stream : Stream β), stream.Stands bytes 0 .success →
        ∃ after, operation.result stream = (.ok value, after) ∧ after.errorState = code) :
    opening.run bytes operation = .ok (value, code) := by
  cases opening with
  | region => exact Stream.launch_of_stands hRun rfl ⟨rfl, rfl⟩
  | readOnly => exact Stream.launch_of_stands hRun rfl ⟨rfl, rfl, rfl, rfl⟩
  | vector => exact Stream.launch_of_stands hRun rfl ⟨rfl, rfl⟩
  | file access reads hAccess hReads =>
      exact Stream.launch_of_stands hRun rfl ⟨rfl, rfl, hAccess, hReads⟩
  | buffered capacity limit reads hLimit hReads =>
      have hReliable : Source.Reliable { bytes, limit, reads } :=
        ⟨rfl, hReads, fun _ hSeek => absurd hSeek List.not_mem_nil, hLimit⟩
      exact Stream.launch_of_stands hRun rfl (BufferedReader.holds_ofSource hReliable capacity)
  | pieces pattern hPattern hPositive =>
      have hSource : Pieces.ofPattern bytes pattern =
          .ok { bytes, pattern, pattern_pos := hPositive } := dif_pos hPositive
      rw [run, hSource]
      show Stream.launch (Pieces.mk bytes pattern 0 hPositive) operation = _
      exact Stream.launch_of_stands hRun rfl ⟨rfl, rfl, Nat.zero_le _, hPattern⟩

end Bytestream
