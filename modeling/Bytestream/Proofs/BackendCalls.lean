import Bytestream.Backend.ReadOnly
import Bytestream.Proofs.Correspondence

/-!
What a stream owes to its backend. Whatever the backend answers and however the stream is used, a
call reaches it only for an operation that it advertised, with something to transfer, and with an
exhausted window where a refill is asked for. A failing refill is the last one, and no seek comes
after it either.
-/

namespace Bytestream

/-- A call that reached a backend, with the window that a seek or a refill was handed, and with what
a refill was answered. -/
inductive CallRecord where
  | size
  | read (count : Nat)
  | write (source : Bytes)
  | seek (window : Window) (offset : Int) (origin : Origin)
  | close
  | refill (window : Window) (answer : Except Fault Code)

namespace CallRecord

/-- A backend with these capabilities may be called like this. -/
def Allowed (capabilities : Capabilities) : CallRecord → Prop
  | size => capabilities.size = true
  | read count => capabilities.read = true ∧ 0 < count
  | write source => capabilities.write = true ∧ source ≠ []
  | seek _ _ _ => capabilities.seek = true
  | close => capabilities.close = true
  | refill window _ => capabilities.bufferedRead = true ∧ window.exhausted = true

/-- The call is a refill that returned a failure. -/
def FailsRefill : CallRecord → Prop
  | refill _ (.ok code) => code ≠ .success
  | _ => False

/-- The call hands the window to the backend. -/
def HandsWindow : CallRecord → Prop
  | seek _ _ _ | refill _ _ => True
  | _ => False

end CallRecord

/-- The calls are allowed one by one, and none behind a failing refill hands the window out again. -/
structure CallsWithin (capabilities : Capabilities) (calls : List CallRecord) : Prop where
  allowed : ∀ call ∈ calls, call.Allowed capabilities
  final : calls.Pairwise fun earlier later => earlier.FailsRefill → ¬later.HandsWindow

theorem CallsWithin.append {capabilities : Capabilities} {calls : List CallRecord}
    {call : CallRecord} (hWithin : CallsWithin capabilities calls)
    (hAllowed : call.Allowed capabilities)
    (hFinal : call.HandsWindow → ∀ earlier ∈ calls, ¬earlier.FailsRefill) :
    CallsWithin capabilities (calls ++ [call]) := by
  constructor
  · intro other hOther
    rcases List.mem_append.mp hOther with hEarlier | hLast
    · exact hWithin.allowed other hEarlier
    · rw [List.mem_singleton.mp hLast]
      exact hAllowed
  · refine List.pairwise_append.mpr ⟨hWithin.final, List.pairwise_singleton _ call, ?_⟩
    intro earlier hEarlier last hLast hFails
    rw [List.mem_singleton.mp hLast]
    exact fun hHands => hFinal hHands earlier hEarlier hFails

/-- A backend with the calls that reached it, in order. -/
structure Traced (β : Type) where
  backend : β
  calls : List CallRecord := []

namespace Traced

variable {β : Type}

/-- A reply with the call that it answers on record. -/
def note {α : Type} (traced : Traced β) (call : CallRecord) (reply : Reply β α) :
    Reply (Traced β) α :=
  ⟨reply.value, ⟨reply.state, traced.calls ++ [call]⟩, reply.log⟩

/-- The same for a call that was handed the window. -/
def noteOnWindow {α : Type} (traced : Traced β) (call : CallRecord) (reply : Reply (β × Window) α) :
    Reply (Traced β × Window) α :=
  ⟨reply.value, (⟨reply.state.1, traced.calls ++ [call]⟩, reply.state.2), reply.log⟩

/-- The backend answers as it does without the record. -/
instance [Backend β] : Backend (Traced β) where
  kind := Backend.kind β
  capabilities traced := Backend.capabilities traced.backend
  size traced := traced.note .size (Backend.size traced.backend)
  read traced count := traced.note (.read count) (Backend.read traced.backend count)
  write traced source := traced.note (.write source) (Backend.write traced.backend source)
  seek traced window offset origin :=
    traced.noteOnWindow (.seek window offset origin)
      (Backend.seek traced.backend window offset origin)
  close traced := traced.note .close (Backend.close traced.backend)
  initialWindow traced := Backend.initialWindow traced.backend
  buffer traced := Backend.buffer traced.backend
  refill traced window :=
    let reply := Backend.refill traced.backend window
    traced.noteOnWindow (.refill window reply.value) reply

end Traced

namespace Stream

variable {β : Type} [Backend β]

/-- The calls so far were within the bounds, and the stream knows if a refill failed. -/
structure Mannered (capabilities : Capabilities) (stream : Stream (Traced β)) : Prop where
  capabilities_eq : stream.capabilities = capabilities
  within : CallsWithin capabilities stream.backend.calls
  known : stream.failure = none → ∀ call ∈ stream.backend.calls, ¬call.FailsRefill

section Steps

variable {capabilities : Capabilities} {stream after : Stream (Traced β)} {call : CallRecord}

omit [Backend β] in
/-- What calls no backend keeps the record as it is. -/
theorem Mannered.of_same (hMannered : stream.Mannered capabilities)
    (hOffered : after.capabilities = stream.capabilities)
    (hCalls : after.backend.calls = stream.backend.calls)
    (hFailure : after.failure = stream.failure) : after.Mannered capabilities :=
  ⟨hOffered.trans hMannered.capabilities_eq, hCalls ▸ hMannered.within,
    hCalls ▸ hFailure ▸ hMannered.known⟩

omit [Backend β] in
/-- One more call. It hands out the window only on a stream that did not fail for good, and the
stream has failed for good afterwards if the call is a failing refill. -/
theorem Mannered.of_call (hMannered : stream.Mannered capabilities)
    (hOffered : after.capabilities = stream.capabilities)
    (hCalls : after.backend.calls = stream.backend.calls ++ [call])
    (hAllowed : call.Allowed stream.capabilities)
    (hHands : call.HandsWindow → stream.failure = none)
    (hKnown : after.failure = none → stream.failure = none ∧ ¬call.FailsRefill) :
    after.Mannered capabilities := by
  refine ⟨hOffered.trans hMannered.capabilities_eq, ?_, fun hHealthy => ?_⟩
  · rw [hCalls]
    exact hMannered.within.append (hMannered.capabilities_eq ▸ hAllowed) fun hMoves =>
      hMannered.known (hHands hMoves)
  · obtain ⟨hBefore, hLast⟩ := hKnown hHealthy
    intro other hOther
    rw [hCalls] at hOther
    rcases List.mem_append.mp hOther with hEarlier | hNew
    · exact hMannered.known hBefore other hEarlier
    · rw [List.mem_singleton.mp hNew]
      exact hLast

end Steps

/-- The stream without the record. -/
def untraced (stream : Stream (Traced β)) : Stream β where
  backend := stream.backend.backend
  capabilities := stream.capabilities
  window := stream.window
  failure := stream.failure
  errorState := stream.errorState

/-- The traced stream is in order, and the other is the same without the record. -/
structure Mirrors (capabilities : Capabilities) (traced : Stream (Traced β)) (plain : Stream β) :
    Prop where
  mannered : traced.Mannered capabilities
  untraced_eq : traced.untraced = plain

section Operations

open Bytestream.Action (Agree Alike)

variable {capabilities : Capabilities} {stream : Stream (Traced β)}

/-- Wherever the operation stops, the record is within its bounds and has changed nothing. -/
abbrev Mirrored {α : Type} (capabilities : Capabilities) (traced : Op (Traced β) α) (plain : Op β α) :
    Prop :=
  Alike (Mirrors capabilities) (fun _ => Mirrors capabilities) traced plain

omit [Backend β] in
theorem mirrored_record (code : Code) :
    Mirrored (β := β) capabilities (record code) (record code) := by
  rintro stream _ ⟨hMannered, rfl⟩
  rw [result_record, result_record]
  exact ⟨rfl, hMannered.of_same rfl rfl rfl, rfl⟩

omit [Backend β] in
theorem mirrored_unsupported : Mirrored (β := β) capabilities unsupported unsupported :=
  (mirrored_record _).bind fun _ => Action.alike_pure _

omit [Backend β] in
/-- A call that has nothing to do with the window. -/
theorem Mannered.reported {backend : Traced β} (hMannered : stream.Mannered capabilities)
    (call : CallRecord) (hCalls : backend.calls = stream.backend.calls ++ [call])
    (hAllowed : call.Allowed stream.capabilities) (hHands : ¬call.HandsWindow)
    (errorState : Code) : Mannered capabilities { stream with backend, errorState } := by
  refine hMannered.of_call rfl hCalls hAllowed (fun hMoves => absurd hMoves hHands) fun hHealthy => ?_
  refine ⟨hHealthy, fun hFails => hHands ?_⟩
  cases call with
  | refill => trivial
  | size | read | write | seek | close => exact hFails.elim

theorem mirrored_size : Mirrored (β := β) capabilities size size := by
  rintro stream _ ⟨hMannered, rfl⟩
  cases hOffers : stream.capabilities.size with
  | false =>
      have hPlain : stream.untraced.capabilities.size = false := hOffers
      rw [size_of_absent hOffers, size_of_absent hPlain]
      exact mirrored_unsupported stream _ ⟨hMannered, rfl⟩
  | true =>
      have hPlain : stream.untraced.capabilities.size = true := hOffers
      rw [size_of_offered hOffers, size_of_offered hPlain]
      exact ⟨rfl, hMannered.reported .size rfl hOffers id _, rfl⟩

theorem mirrored_write (source : Bytes) :
    Mirrored (β := β) capabilities (write source) (write source) := by
  rintro stream _ ⟨hMannered, rfl⟩
  by_cases hNone : source = []
  · subst hNone
    exact ⟨rfl, hMannered, rfl⟩
  · cases hOffers : stream.capabilities.write with
    | false =>
        have hPlain : stream.untraced.capabilities.write = false := hOffers
        rw [write_of_absent hNone hOffers, write_of_absent hNone hPlain]
        exact mirrored_unsupported stream _ ⟨hMannered, rfl⟩
    | true =>
        have hPlain : stream.untraced.capabilities.write = true := hOffers
        rw [write_of_offered hNone hOffers, write_of_offered hNone hPlain]
        exact ⟨rfl, hMannered.reported (.write source) rfl ⟨hOffers, hNone⟩ id _, rfl⟩

theorem mirrored_readDirect {count : Nat} (hMannered : stream.Mannered capabilities)
    (hSome : 0 < count) (hOffers : stream.capabilities.read = true) :
    Agree (Mirrors capabilities) (fun _ => Mirrors capabilities) ((read count).result stream)
      ((read count).result stream.untraced) := by
  have hPlain : stream.untraced.capabilities.read = true := hOffers
  rw [read_of_offered hSome hOffers, read_of_offered hSome hPlain]
  exact ⟨rfl, hMannered.reported (.read count) rfl ⟨hOffers, hSome⟩ id _, rfl⟩

theorem mirrored_close : Mirrored (β := β) capabilities close close := by
  apply Action.alike_of_state
  rintro stream _ ⟨hMannered, rfl⟩
  cases hOffers : stream.capabilities.close with
  | false =>
      have hPlain : stream.untraced.capabilities.close = false := hOffers
      rw [hPlain]
      exact ⟨rfl, hMannered, rfl⟩
  | true =>
      have hPlain : stream.untraced.capabilities.close = true := hOffers
      rw [hPlain]
      exact ⟨rfl, hMannered.reported .close rfl hOffers id stream.errorState, rfl⟩

/-- A stream that failed for good reports it and leaves the backend alone. -/
theorem mirrored_seek (offset : Int) (origin : Origin) :
    Mirrored (β := β) capabilities (seek offset origin) (seek offset origin) := by
  rintro stream _ ⟨hMannered, rfl⟩
  cases hOffers : stream.capabilities.seek with
  | false =>
      have hPlain : stream.untraced.capabilities.seek = false := hOffers
      rw [seek_of_absent hOffers, seek_of_absent hPlain]
      exact mirrored_unsupported stream _ ⟨hMannered, rfl⟩
  | true =>
      have hPlain : stream.untraced.capabilities.seek = true := hOffers
      cases hFailure : stream.failure with
      | some code =>
          have hFailed : stream.untraced.failure = some code := hFailure
          rw [seek_of_failure hOffers hFailure, seek_of_failure hPlain hFailed]
          exact ⟨rfl, hMannered.of_same rfl rfl rfl, rfl⟩
      | none =>
          have hHealthy : stream.untraced.failure = none := hFailure
          cases hAnswer : (Backend.seek stream.backend stream.window offset origin).value with
          | error fault =>
              rw [seek_of_breach hOffers hFailure hAnswer, seek_of_breach hPlain hHealthy hAnswer]
              exact ⟨rfl, hMannered.of_call rfl rfl hOffers (fun _ => hFailure)
                fun _ => ⟨hFailure, id⟩, rfl⟩
          | ok outcome =>
              rw [seek_of_answered hOffers hFailure hAnswer,
                seek_of_answered hPlain hHealthy hAnswer]
              exact ⟨rfl, hMannered.of_call rfl rfl hOffers (fun _ => hFailure)
                fun _ => ⟨hFailure, id⟩, rfl⟩

/-- The check of a refill makes no call. -/
theorem mirrored_checkRefilled : Mirrored (β := β) capabilities checkRefilled checkRefilled := by
  apply Action.alike_of_state
  rintro stream _ ⟨hMannered, rfl⟩
  have hWindow : stream.untraced.window = stream.window := rfl
  have hBuffer : Backend.buffer stream.untraced.backend = Backend.buffer stream.backend := rfl
  rw [hWindow, hBuffer]
  dsimp only
  split
  · exact ⟨rfl, hMannered, rfl⟩
  · split
    · exact ⟨rfl, hMannered, rfl⟩
    · exact ⟨rfl, hMannered, rfl⟩

/-- A refill that the backend is asked for goes on record with its answer, and a failure of it is
kept before anything else is done. -/
theorem mirrored_refill_call (hMannered : stream.Mannered capabilities)
    (hOffers : stream.capabilities.bufferedRead = true)
    (hExhausted : stream.window.exhausted = true) (hHealthy : stream.failure = none) :
    Agree (Mirrors capabilities) (fun _ => Mirrors capabilities) (Action.result refill stream)
      (Action.result refill stream.untraced) := by
  have hOffersPlain : stream.untraced.capabilities.bufferedRead = true := hOffers
  have hExhaustedPlain : stream.untraced.window.exhausted = true := hExhausted
  have hHealthyPlain : stream.untraced.failure = none := hHealthy
  have hAllowed : CallRecord.Allowed stream.capabilities
      (.refill stream.window (Backend.refill stream.backend stream.window).value) :=
    ⟨hOffers, hExhausted⟩
  have hAsked (hAnswer : ¬CallRecord.FailsRefill
      (.refill stream.window (Backend.refill stream.backend stream.window).value)) :
      Mannered capabilities
        (stream.afterCall (Backend.refill stream.backend stream.window).state) :=
    hMannered.of_call rfl rfl hAllowed (fun _ => hHealthy) fun _ => ⟨hHealthy, hAnswer⟩
  cases hAnswer : (Backend.refill stream.backend stream.window).value with
  | error fault =>
      rw [refill_of_breach hOffers hExhausted hHealthy hAnswer,
        refill_of_breach hOffersPlain hExhaustedPlain hHealthyPlain hAnswer]
      exact ⟨rfl, hAsked (by rw [hAnswer]; exact id), rfl⟩
  | ok code =>
      by_cases hCode : code = .success
      · subst hCode
        have hAfter := hAsked (by rw [hAnswer]; exact fun hFails => hFails rfl)
        rw [refill_of_done hOffers hExhausted hHealthy hAnswer,
          refill_of_done hOffersPlain hExhaustedPlain hHealthyPlain hAnswer]
        exact (mirrored_checkRefilled _ _ ⟨hAfter, rfl⟩).bind fun _ => Action.alike_pure _
      · rw [refill_of_rejected hOffers hExhausted hHealthy hCode hAnswer,
          refill_of_rejected hOffersPlain hExhaustedPlain hHealthyPlain hCode hAnswer]
        exact ⟨rfl, hMannered.of_call rfl rfl hAllowed (fun _ => hHealthy) nofun, rfl⟩

/-- The backend is asked for a refill of an exhausted window alone, and not after one failed. -/
theorem mirrored_refill : Mirrored (β := β) capabilities refill refill := by
  rintro stream _ ⟨hMannered, rfl⟩
  cases hOffers : stream.capabilities.bufferedRead with
  | false =>
      have hOffersPlain : stream.untraced.capabilities.bufferedRead = false := hOffers
      rw [refill_of_absent hOffers, refill_of_absent hOffersPlain]
      exact ⟨rfl, hMannered.of_same rfl rfl rfl, rfl⟩
  | true =>
      have hOffersPlain : stream.untraced.capabilities.bufferedRead = true := hOffers
      cases hExhausted : stream.window.exhausted with
      | false =>
          have hExhaustedPlain : stream.untraced.window.exhausted = false := hExhausted
          rw [refill_of_unread hOffers hExhausted, refill_of_unread hOffersPlain hExhaustedPlain]
          exact ⟨rfl, hMannered, rfl⟩
      | true =>
          have hExhaustedPlain : stream.untraced.window.exhausted = true := hExhausted
          cases hFailure : stream.failure with
          | none => exact mirrored_refill_call hMannered hOffers hExhausted hFailure
          | some code =>
              have hFailed : stream.untraced.failure = some code := hFailure
              rw [refill_of_served hOffers hExhausted hFailure,
                refill_of_served hOffersPlain hExhaustedPlain hFailed]
              exact ⟨rfl, hMannered.of_same rfl rfl rfl, rfl⟩

omit [Backend β] in
theorem mirrored_resetErrorState :
    Mirrored (β := β) capabilities resetErrorState resetErrorState := by
  apply Action.alike_of_state
  rintro stream _ ⟨hMannered, rfl⟩
  have hFailure : stream.untraced.failure = stream.failure := rfl
  rw [hFailure]
  split
  · exact ⟨rfl, hMannered.of_same rfl rfl rfl, rfl⟩
  · exact ⟨rfl, hMannered.of_same rfl rfl rfl, rfl⟩

theorem mirrored_peek (count : Nat) :
    Mirrored (β := β) capabilities (peek count) (peek count) := by
  apply Action.alike_of_state
  rintro stream _ ⟨hMannered, rfl⟩
  have hWindow : stream.untraced.window = stream.window := rfl
  have hShown : stream.untraced.shownBytes = stream.shownBytes := rfl
  rw [hWindow, hShown]
  split
  · exact ⟨rfl, hMannered, rfl⟩
  · exact ⟨rfl, hMannered, rfl⟩

omit [Backend β] in
theorem mirrored_consume (count : Nat) :
    Mirrored (β := β) capabilities (consume count) (consume count) := by
  apply Action.alike_of_state
  rintro stream _ ⟨hMannered, rfl⟩
  have hWindow : stream.untraced.window = stream.window := rfl
  rw [hWindow]
  cases stream.window.consume count with
  | ok window => exact ⟨rfl, hMannered.of_same rfl rfl rfl, rfl⟩
  | error fault => exact ⟨rfl, hMannered, rfl⟩

/-- Everything a stream is made of is mirrored, whatever it comes to. -/
theorem corresponds_mirrors :
    Corresponds (Mirrors (β := β) capabilities) (fun _ => Mirrors capabilities) where
  capabilities hMirrors := by rw [← hMirrors.untraced_eq]; rfl
  available hMirrors := by rw [← hMirrors.untraced_eq]; rfl
  errorState hMirrors := by rw [← hMirrors.untraced_eq]; rfl
  record := mirrored_record
  size := mirrored_size
  write := mirrored_write
  seek := mirrored_seek
  close := mirrored_close
  resetErrorState := mirrored_resetErrorState
  readDirect := by
    rintro stream _ count ⟨hMannered, rfl⟩ hSome hDirect
    exact mirrored_readDirect hMannered hSome hDirect
  peek hMirrors _ := mirrored_peek _ _ _ hMirrors
  consume hMirrors _ := mirrored_consume _ _ _ hMirrors
  refill hMirrors _ := mirrored_refill _ _ hMirrors

/-- Whatever a traced stream is used for, the record stays within its bounds, and the stream without
it comes to the same. -/
theorem Mirrors.perform [Memory] {plain : Stream β} (hMirrors : stream.Mirrors capabilities plain)
    (use : Use) :
    ∃ value traced after, use.perform.result stream = (value, traced) ∧
      use.perform.result plain = (value, after) ∧ traced.Mirrors capabilities after := by
  have hAgree := corresponds_mirrors.perform hMirrors use
    (fun _ => mirrored_refill _ _ hMirrors) fun count _ => mirrored_consume count _ _ hMirrors
  cases hTraced : use.perform.result stream with
  | mk value traced =>
      cases hPlain : use.perform.result plain with
      | mk value' after =>
          rw [hTraced, hPlain] at hAgree
          cases value <;> cases value'
          case ok.ok => exact ⟨_, _, _, rfl, by rw [hAgree.1], hAgree.2⟩
          case error.error => exact ⟨_, _, _, rfl, by rw [hAgree.1], hAgree.2⟩
          case ok.error => exact hAgree.elim
          case error.ok => exact hAgree.elim

end Operations

/-- A stream opens without a call, traced or not. -/
theorem mirrors_of_opened {backend : β} {start : Stream β} {log : List Event}
    (hOpened : ofBackend backend = .ok (start, log)) :
    ∃ traced, ofBackend (Traced.mk backend []) = .ok (traced, log) ∧
      traced.Mirrors (Backend.capabilities backend) start := by
  rw [ofBackend] at hOpened
  cases hWindow : Backend.initialWindow backend with
  | error fault =>
      rw [hWindow] at hOpened
      cases hOpened
  | ok window =>
      rw [hWindow] at hOpened
      cases hOpened
      refine ⟨⟨⟨backend, []⟩, Backend.capabilities backend, window, none, .success⟩, ?_,
        ⟨rfl, ⟨fun _ hCall => absurd hCall List.not_mem_nil, .nil⟩,
          fun _ _ hCall => absurd hCall List.not_mem_nil⟩, rfl⟩
      rw [ofBackend]
      show (Backend.initialWindow backend >>= _) = _
      rw [hWindow]
      rfl

/-- The stream after these uses in order, wherever each of them stops. -/
def afterAll [Memory] (uses : List Use) (stream : Stream β) : Stream β :=
  uses.foldl (fun stream use => (use.perform.result stream).2) stream

theorem Mirrors.afterAll [Memory] {capabilities : Capabilities} {traced : Stream (Traced β)}
    {plain : Stream β} (hMirrors : traced.Mirrors capabilities plain) (uses : List Use) :
    (afterAll uses traced).Mirrors capabilities (afterAll uses plain) := by
  induction uses generalizing traced plain with
  | nil => exact hMirrors
  | cons use later ih =>
      obtain ⟨value, middle, after, hTraced, hPlain, hAfter⟩ := hMirrors.perform use
      simp only [Stream.afterAll, List.foldl_cons, hTraced, hPlain]
      exact ih hAfter

/-- On every backend, whatever it answers, and through every run of uses, whatever becomes of them:
with a record of its calls the run is the same, and the calls on record are within what the backend
advertised and what its contract says, with nothing that hands the window out again behind a failing
refill. -/
theorem calls_are_within [Memory] {backend : β} {start : Stream β} {log : List Event}
    (hOpened : ofBackend backend = .ok (start, log)) :
    ∃ traced, ofBackend (Traced.mk backend []) = .ok (traced, log) ∧ ∀ uses,
      (afterAll uses traced).untraced = afterAll uses start ∧
      CallsWithin (Backend.capabilities backend) (afterAll uses traced).backend.calls := by
  obtain ⟨traced, hTraced, hMirrors⟩ := mirrors_of_opened hOpened
  refine ⟨traced, hTraced, fun uses => ?_⟩
  have hAfter := hMirrors.afterAll uses
  exact ⟨hAfter.untraced_eq, hAfter.mannered.within⟩

/-- A stream on memory of no bytes, as it is opened. -/
def openedEmpty : Stream ReadOnly where
  backend := ⟨[]⟩
  capabilities := { size := true, seek := true, bufferedRead := true }
  window := Window.whole 0

/-- The same with a record of the calls. -/
def tracedEmpty : Stream (Traced ReadOnly) where
  backend := ⟨⟨[]⟩, []⟩
  capabilities := { size := true, seek := true, bufferedRead := true }
  window := Window.whole 0

/-- Memory of no bytes fails at the first refill. After a reset the stream is moved, refilled and
read again, and none of that reaches the memory; only its size can still be asked for. -/
theorem calls_are_within_after_refill :
    ∃ log, ofBackend (ReadOnly.mk []) = .ok (openedEmpty, log) ∧
      (afterAll [.operation .refill, .resetErrorState, .operation (.seek 0 .start), .resetErrorState,
        .operation (.read 4), .operation .size] tracedEmpty).backend.calls =
          [.refill (Window.whole 0) (.ok .endOfStream), .size] ∧
      CallsWithin { size := true, seek := true, bufferedRead := true }
        [.refill (Window.whole 0) (.ok .endOfStream), .size] := by
  have hOpened : ofBackend (ReadOnly.mk []) = .ok (openedEmpty, _) := rfl
  obtain ⟨traced, hTraced, hRuns⟩ := calls_are_within hOpened
  obtain rfl : tracedEmpty = traced := by
    cases hTraced
    rfl
  have hCalls := (hRuns [.operation .refill, .resetErrorState, .operation (.seek 0 .start),
    .resetErrorState, .operation (.read 4), .operation .size]).2
  exact ⟨_, hOpened, rfl, hCalls⟩

end Stream

end Bytestream
