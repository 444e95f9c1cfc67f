import Bytestream.Proofs.BackendSupply
import Bytestream.Proofs.Opening
import Mathlib.Data.List.Defs

/-!
Runs of reads through a window. Three ways of cutting meet in a run: by the counts of the reads, by
the refills, and by the source below a buffer, which may fail besides. How far a run gets is settled
when the stream is opened, and how it is cut into reads does not show in the bytes.
-/

namespace Bytestream

/-- A read or a buffered read, with the destination that it is to fill. -/
structure ReadCall where
  buffered : Bool
  destination : Bytes

/-- What one call leaves: its outcome, and the destination as it is then. -/
structure Delivery where
  outcome : Outcome
  destination : Bytes

/-- The bytes that the outcome counts. -/
def Delivery.bytes (delivery : Delivery) : Bytes :=
  delivery.destination.take delivery.outcome.value

namespace ReadCall

/-- How many bytes the calls ask for in all. -/
def requested : List ReadCall → Nat
  | [] => 0
  | call :: later => call.destination.length + requested later

/-- Makes the call. -/
def perform {β : Type} [Backend β] (call : ReadCall) : Stream.Op β Transfer :=
  if call.buffered then Stream.bufferedRead call.destination.length
  else Stream.read call.destination.length

/-- Makes the calls in order. -/
def performEach {β : Type} [Backend β] : List ReadCall → Stream.Op β (List Delivery)
  | [] => return []
  | call :: later => do
      let transfer ← call.perform
      let deliveries ← performEach later
      return ⟨transfer.outcome, transfer.fill call.destination⟩ :: deliveries

/-- The call touched no byte of its destination but those it counts, and reports `ended` exactly if
they are fewer than it asked for. -/
structure Answered (ended : Code) (call : ReadCall) (delivery : Delivery) : Prop where
  length_eq : delivery.destination.length = call.destination.length
  counted : delivery.outcome.value ≤ call.destination.length
  spared : delivery.destination.drop delivery.outcome.value =
    call.destination.drop delivery.outcome.value
  code_eq : delivery.outcome.code =
    if delivery.outcome.value < call.destination.length then ended else .success

theorem Answered.length_bytes {ended : Code} {call : ReadCall} {delivery : Delivery}
    (hAnswered : call.Answered ended delivery) : delivery.bytes.length = delivery.outcome.value := by
  rw [Delivery.bytes, List.length_take, hAnswered.length_eq, Nat.min_eq_left hAnswered.counted]

/-- A transfer of counted bytes is an answer, and delivers just those bytes. -/
theorem answered_of_bytes {call : ReadCall} {bytes : Bytes} {code ended : Code}
    (hFits : bytes.length ≤ call.destination.length) (hBound : bytes.length < magnitudeLimit)
    (hCode : code = if bytes.length < call.destination.length then ended else .success) :
    let transfer : Transfer := ⟨.report bytes.length code, bytes⟩
    call.Answered ended ⟨transfer.outcome, transfer.fill call.destination⟩ ∧
      Delivery.bytes ⟨transfer.outcome, transfer.fill call.destination⟩ = bytes := by
  intro transfer
  have hValue : transfer.outcome.value = bytes.length := Outcome.value_report code hBound
  have hFill : transfer.fill call.destination = bytes ++ call.destination.drop bytes.length := by
    simp only [Transfer.fill, transfer, List.take_of_length_le hFits]
  refine ⟨⟨Transfer.length_fill hFits, ?_, ?_, ?_⟩, ?_⟩
  · rwa [hValue]
  · rw [hValue, hFill, List.drop_left]
  · rw [hValue]
    exact hCode
  · rw [Delivery.bytes, hValue, hFill, List.take_left]

variable {β : Type} [Backend β] {stream : Stream β} {bytes : Bytes} {ended : Code} {total : Nat}

/-- A call hands out what comes next, however the calls before it were cut. -/
theorem perform_drawn (hDrawn : stream.Drawn bytes ended total) {call : ReadCall}
    (hBound : min call.destination.length bytes.length < magnitudeLimit) :
    ∃ transfer after, call.perform.result stream = (.ok transfer, after) ∧
      after.Drawn bytes ended (total + call.destination.length) ∧
      call.Answered ended ⟨transfer.outcome, transfer.fill call.destination⟩ ∧
      Delivery.bytes ⟨transfer.outcome, transfer.fill call.destination⟩ =
        (bytes.drop total).take call.destination.length := by
  rcases Nat.eq_zero_or_pos call.destination.length with hNone | hSome
  · have hRun : call.perform.result stream = (.ok ⟨.report 0 .success, []⟩, stream) := by
      rw [perform, hNone]
      cases call.buffered <;> rfl
    obtain ⟨hAnswered, hBytes⟩ := @answered_of_bytes call [] .success ended (Nat.zero_le _)
      (by decide) (by rw [hNone]; rfl)
    refine ⟨_, stream, hRun, by rwa [hNone], hAnswered, ?_⟩
    rw [hNone, List.take_zero]
    exact hBytes
  · obtain ⟨after, hRun, hAfter⟩ := hDrawn.bufferedRead hSome
    have hMade : call.perform.result stream =
        (Stream.bufferedRead call.destination.length).result stream := by
      rw [perform]
      split
      · rfl
      · exact Stream.read_of_window_only hDrawn.window_only hSome
    have hCode : (if total + call.destination.length ≤ bytes.length then .success else ended) =
        if ((bytes.drop total).take call.destination.length).length < call.destination.length
          then ended else .success := by
      rw [List.length_take, List.length_drop]
      by_cases hEnough : total + call.destination.length ≤ bytes.length
      · rw [if_pos hEnough, if_neg (by omega)]
      · rw [if_neg hEnough, if_pos (by omega)]
    have hCounted : ((bytes.drop total).take call.destination.length).length < magnitudeLimit := by
      rw [List.length_take, List.length_drop]
      omega
    obtain ⟨hAnswered, hBytes⟩ := answered_of_bytes (List.length_take_le _ _) hCounted hCode
    exact ⟨_, after, hMade.trans hRun, hAfter, hAnswered, hBytes⟩

/-- The run of a list of calls: together they deliver what one call for all of it would, and none is
short before the bytes are too few for all. The induction is on the calls. -/
theorem performEach_drawn {calls : List ReadCall} (hDrawn : stream.Drawn bytes ended total)
    (hBounds : ∀ call ∈ calls, min call.destination.length bytes.length < magnitudeLimit) :
    ∃ deliveries after, (performEach calls).result stream = (.ok deliveries, after) ∧
      after.Drawn bytes ended (total + requested calls) ∧
      List.Forall₂ (fun call delivery => call.Answered ended delivery ∧
        (delivery.outcome.value < call.destination.length →
          bytes.length < total + requested calls)) calls deliveries ∧
      deliveries.flatMap Delivery.bytes = (bytes.drop total).take (requested calls) := by
  induction calls generalizing stream total with
  | nil => exact ⟨[], stream, rfl, hDrawn, .nil, rfl⟩
  | cons call later ih =>
      obtain ⟨transfer, middle, hCall, hMiddle, hAnswered, hBytes⟩ :=
        perform_drawn hDrawn (hBounds call List.mem_cons_self)
      obtain ⟨deliveries, after, hRun, hAfter, hAll, hRest⟩ :=
        ih hMiddle fun call hCall => hBounds call (List.mem_cons_of_mem _ hCall)
      rw [Nat.add_assoc] at hAfter hAll
      refine ⟨_, after, ?_, hAfter, .cons ⟨hAnswered, ?_⟩ hAll, ?_⟩
      · rw [performEach, Action.result_bind_of_ok hCall, Action.result_bind_of_ok hRun,
          Action.result_pure]
      · intro hShort
        have hCount := congrArg List.length hBytes
        rw [hAnswered.length_bytes, List.length_take, List.length_drop] at hCount
        rw [requested]
        omega
      · rw [List.flatMap_cons, hBytes, hRest, requested, List.take_add, List.drop_drop]

end ReadCall

/-- A new stream feeds what its backend supplies. -/
theorem Stream.launch_of_supplies {β α : Type} [Backend β] {backend : β} {window : Window}
    {bytes : Bytes} {ended : Code} {operation : Op β α} {expected : α → Code → Prop}
    (hRun : ∀ stream : Stream β, stream.Feeds bytes ended →
      ∃ value after, operation.result stream = (.ok value, after) ∧
        expected value after.errorState)
    (hOnly : (Backend.capabilities backend).read = false ∧
      (Backend.capabilities backend).bufferedRead = true)
    (hWindow : Backend.initialWindow backend = .ok window)
    (hSupplies : Supplies backend window bytes ended) :
    ∃ value code, launch backend operation = .ok (value, code) ∧ expected value code := by
  obtain ⟨value, after, hResult, hExpected⟩ :=
    hRun ⟨backend, Backend.capabilities backend, window, none, .success⟩
      ⟨rfl, hOnly, hSupplies, rfl⟩
  exact ⟨value, after.errorState, launch_of_result hWindow hResult, hExpected⟩

/-- A way to open a byte string for reads through a window. Pieces may be cut at any repeating pattern
of positive lengths. The source below a buffer may be slow, interrupted, and fail, but while there is
data a read of it that does not fail gives some. -/
inductive WindowOpening where
  | readOnly
  | pieces (pattern : List Nat) (hPattern : pattern ≠ [])
      (hPositive : ∀ length ∈ pattern, 0 < length)
  | buffered (capacity limit : Nat) (readable : Bool) (reads : List SourceRead)
      (hReads : .atMost 0 ∉ reads)

namespace WindowOpening

/-- Some read of the source can fail. -/
def SourceFails : WindowOpening → Prop
  | readOnly => False
  | pieces _ _ _ => False
  | buffered _ _ readable reads _ => readable = false ∨ .failed ∈ reads

/-- How many bytes of the data can be read, and what ends them. -/
def supply (opening : WindowOpening) (data : Bytes) : Nat × Code :=
  match opening with
  | readOnly => (data.length, .endOfStream)
  | pieces _ _ _ => (data.length, .endOfStream)
  | buffered capacity limit readable reads _ =>
      Source.supply { bytes := data, limit, readable, reads } (max capacity 1)

/-- Opens the bytes and runs an operation on the new stream. -/
def run {α : Type} (opening : WindowOpening) (bytes : Bytes)
    (operation : ∀ {β : Type} [Backend β], Stream.Op β α) : Except Fault (α × Code) :=
  match opening with
  | readOnly => Stream.launch (ReadOnly.mk bytes) operation
  | pieces pattern _ _ => do Stream.launch (← Pieces.ofPattern bytes pattern) operation
  | buffered capacity limit readable reads _ =>
      Stream.launch (BufferedReader.ofSource { bytes, limit, readable, reads } capacity) operation

/-- All of the data can be read, unless the source fails before. -/
theorem supply_cases (opening : WindowOpening) (data : Bytes) :
    (opening.supply data).2 = .endOfStream ∧ (opening.supply data).1 = data.length ∨
      (opening.supply data).2 = .readError ∧ (opening.supply data).1 ≤ data.length ∧
        opening.SourceFails := by
  cases opening with
  | readOnly => exact .inl ⟨rfl, rfl⟩
  | pieces pattern hPattern hPositive => exact .inl ⟨rfl, rfl⟩
  | buffered capacity limit readable reads hReads =>
      rw [supply, Source.supply]
      cases readable with
      | false => exact .inr ⟨rfl, Nat.zero_le _, .inl rfl⟩
      | true => exact (SourceRead.supply_cases _ reads data.length).imp_right fun hFailed =>
          ⟨hFailed.1, hFailed.2.1, .inr hFailed.2.2⟩

/-- What an operation yields on every stream that feeds the readable part of the data is what it
yields on the new stream. -/
theorem run_of_feeds (opening : WindowOpening) (data : Bytes) {α : Type}
    {operation : ∀ {β : Type} [Backend β], Stream.Op β α} {expected : α → Code → Prop}
    (hRun : ∀ {β : Type} [Backend β] (stream : Stream β),
      stream.Feeds (data.take (opening.supply data).1) (opening.supply data).2 →
      ∃ value after, operation.result stream = (.ok value, after) ∧
        expected value after.errorState) :
    ∃ value code, opening.run data operation = .ok (value, code) ∧ expected value code := by
  cases opening with
  | readOnly =>
      have hHolds : Readable.Holds (ReadOnly.mk data) (Window.whole data.length) data 0 :=
        ⟨rfl, rfl, rfl, rfl⟩
      simp only [supply, List.take_length] at hRun
      exact Stream.launch_of_supplies hRun ⟨rfl, rfl⟩ rfl (WindowRead.supplies hHolds)
  | pieces pattern hPattern hPositive =>
      have hSource : Pieces.ofPattern data pattern =
          .ok { bytes := data, pattern, pattern_pos := hPositive } := dif_pos hPositive
      have hHolds : Readable.Holds (Pieces.mk data pattern 0 hPositive) Window.empty data 0 :=
        ⟨rfl, rfl, Nat.zero_le _, hPattern⟩
      simp only [supply, List.take_length] at hRun
      rw [run, hSource]
      exact Stream.launch_of_supplies hRun ⟨rfl, rfl⟩ rfl (WindowRead.supplies hHolds)
  | buffered capacity limit readable reads hReads =>
      let reader := BufferedReader.ofSource { bytes := data, limit, readable, reads } capacity
      have hCapacity : reader.capacity = max capacity 1 := List.length_replicate
      have hShown : reader.buffer.slice? Window.empty.cursor Window.empty.available = some [] :=
        if_pos (Nat.zero_le _)
      have hSupplies := @BufferedReader.supplies reader Window.empty [] hShown (Nat.zero_le _)
        (by omega) hReads
      rw [hCapacity] at hSupplies
      exact Stream.launch_of_supplies hRun ⟨rfl, rfl⟩ rfl hSupplies

/-- Reads lose, duplicate and invent nothing. The opening and the data settle how much can be read and
what ends it: all of the data and its end, or less and a failure of the source. Every run of reads
then delivers the front part of the data that it asks for, as far as that goes, so that how the run
is cut into calls does not show. Each call counts what it stored, leaves the rest of its destination
alone, and is short only once all that can be read was delivered. Unless a read of the source has
failed, a run within the data gets all that it asks for. The bound keeps counts within the magnitude
of an outcome, and holds of all calls where the data is that short. -/
theorem reads_deliver_in_order (opening : WindowOpening) (data : Bytes) {calls : List ReadCall}
    (hBounds : ∀ call ∈ calls, min call.destination.length data.length < magnitudeLimit) :
    let reach := (opening.supply data).1
    let ended := (opening.supply data).2
    let total := ReadCall.requested calls
    (ended = .endOfStream ∧ reach = data.length ∨
        ended = .readError ∧ reach ≤ data.length ∧ opening.SourceFails) ∧
      ∃ deliveries code, opening.run data (ReadCall.performEach calls) = .ok (deliveries, code) ∧
        code = (if total ≤ reach then .success else ended) ∧
        deliveries.flatMap Delivery.bytes = data.take (min total reach) ∧
        List.Forall₂ (fun call delivery => call.Answered ended delivery ∧
          (delivery.outcome.value < call.destination.length → reach < total)) calls deliveries ∧
        (¬opening.SourceFails ∨ code ≠ .readError → total ≤ data.length →
          deliveries.flatMap Delivery.bytes = data.take total) := by
  intro reach ended total
  have hEnding := opening.supply_cases data
  refine ⟨hEnding, opening.run_of_feeds data fun stream hFeeds => ?_⟩
  have hReach : (data.take reach).length = reach := by
    rw [List.length_take, Nat.min_eq_left]
    obtain ⟨-, hAll⟩ | ⟨-, hSome, -⟩ := hEnding
    · exact Nat.le_of_eq hAll
    · exact hSome
  have hFresh : stream.Drawn (data.take reach) ended 0 :=
    ⟨fun _ => hFeeds, fun hShort => absurd hShort (Nat.not_lt_zero _)⟩
  obtain ⟨deliveries, after, hResult, hAfter, hAll, hBytes⟩ :=
    ReadCall.performEach_drawn hFresh fun call hCall => by
      have hBound := hBounds call hCall
      rw [List.length_take]
      omega
  have hCode := hAfter.errorState_eq
  rw [hReach, Nat.zero_add] at hCode hAll
  rw [List.drop_zero, List.take_take] at hBytes
  refine ⟨deliveries, after, hResult, hCode, hBytes, hAll, fun hFine hWithin => ?_⟩
  have hEnough : total ≤ reach := by
    apply Nat.le_of_not_lt
    intro hShort
    rw [if_neg (Nat.not_le_of_gt hShort)] at hCode
    obtain ⟨-, hAll⟩ | ⟨hEnded, -, hFails⟩ := hEnding
    · exact absurd (Nat.le_trans hWithin (Nat.le_of_eq hAll.symm)) (Nat.not_le_of_gt hShort)
    · exact hFine.elim (· hFails) (· (hCode.trans hEnded))
  rw [hBytes, Nat.min_eq_left hEnough]

/-- A source that gives two bytes, is interrupted, gives one, and fails: five bytes are asked for in
two calls with nothing asked for between them, and three come. -/
theorem reads_deliver_in_order_until_failure :
    let data : Bytes := [1, 2, 3, 4, 5, 6]
    let opening : WindowOpening :=
      .buffered 4 100 true [.atMost 2, .interrupted, .atMost 1, .failed] (by decide)
    let calls : List ReadCall := [⟨false, [9]⟩, ⟨true, []⟩, ⟨true, [9, 9, 9, 9]⟩]
    (∀ call ∈ calls, min call.destination.length data.length < magnitudeLimit) ∧
      ∃ deliveries code, opening.run data (ReadCall.performEach calls) =
          .ok (deliveries, code) ∧
        code = .readError ∧ deliveries.flatMap Delivery.bytes = [1, 2, 3] := by
  intro data opening calls
  have hBounds : ∀ call ∈ calls, min call.destination.length data.length < magnitudeLimit := by
    decide
  obtain ⟨-, deliveries, code, hRun, hCode, hBytes, -⟩ :=
    opening.reads_deliver_in_order data hBounds
  have hSupply : opening.supply data = (3, .readError) := by rfl
  rw [hSupply] at hCode hBytes
  exact ⟨hBounds, deliveries, code, hRun, hCode, hBytes⟩

end WindowOpening

end Bytestream
