import Bytestream.Proofs.Media
import Bytestream.Proofs.Places

/-!
What a backend that is read and written directly does with one transfer: it moves bytes from or to the
place where it stands, moves behind them, and says how many they were. Where it says that it is done
they were all, and where there were none it is as it was, up to what calls of the system are to come.
-/

namespace Bytestream

namespace Transfer

variable {room wanted : Nat} {source : Bytes}

theorem front_copy : (copy room source wanted).bytes =
    source.take (copy room source wanted).bytes.length := by
  rw [copy, List.length_take, List.take_eq_take_iff]
  omega

theorem length_copy_le : (copy room source wanted).bytes.length ≤ wanted := by
  rw [length_bytes_copy]
  omega

theorem value_copy (hWanted : wanted < magnitudeLimit) :
    (copy room source wanted).outcome.value = (copy room source wanted).bytes.length :=
  Outcome.value_report _ (Nat.lt_of_le_of_lt length_copy_le hWanted)

theorem whole_of_copy (hDone : (copy room source wanted).outcome.code = .success) :
    (copy room source wanted).bytes.length = wanted := by
  refine Nat.le_antisymm length_copy_le (Nat.le_of_not_lt fun hShort => ?_)
  rw [copy] at hDone hShort
  rw [Outcome.code_report, if_pos hShort] at hDone
  cases hDone

end Transfer

/-- A write that stored the first of the source where the backend stood, and moved behind it. -/
structure Wrote {β : Type} [Backend β] [Placed β] (backend : β) (window : Window)
    (source piece : Bytes) (reply : Reply β Outcome) : Prop where
  front : piece = source.take piece.length
  value_eq : reply.value.value = piece.length
  whole : reply.value.code = .success → piece = source
  content_eq : Stored.content reply.state =
    (Stored.content backend).store (Placed.place backend window).toNat piece
  place_eq : Placed.place reply.state window = Placed.place backend window + piece.length

/-- A read that took what lies where the backend stood, and moved behind it. -/
structure Took {β : Type} [Backend β] [Placed β] (backend : β) (window : Window) (count : Nat)
    (taken : Bytes) (reply : Reply β Transfer) : Prop where
  bytes_eq : reply.value.bytes = taken
  value_eq : reply.value.outcome.value = taken.length
  most : taken.length ≤ count
  whole : reply.value.outcome.code = .success → taken.length = count
  front : taken =
    ((Stored.content backend).drop (Placed.place backend window).toNat).take taken.length
  place_eq : Placed.place reply.state window = Placed.place backend window + taken.length
  idle : taken = [] →
    ∀ calls : Placed.Calls β, Placed.under calls reply.state = Placed.under calls backend

section Calls

variable {β : Type} [Backend β] [Placed β] {backend after : β} {window : Window} {position count : Nat}
variable {code : Code} {log : List Event} {source : Bytes}

theorem Wrote.refused (hCode : code ≠ .success) :
    Wrote backend window source [] ⟨.failed code, backend, log⟩ where
  front := rfl
  value_eq := rfl
  whole hDone := absurd hDone hCode
  content_eq := rfl
  place_eq := (Int.add_zero _).symm

theorem Wrote.stored (hFits : source.length < magnitudeLimit)
    (hPlace : Placed.place backend window = position)
    (hContent : Stored.content after = (Stored.content backend).store position source)
    (hAfter : Placed.place after window = (position + source.length : Nat)) :
    Wrote backend window source source ⟨.done source.length, after, log⟩ where
  front := List.take_length.symm
  value_eq := Outcome.value_report .success hFits
  whole _ := rfl
  content_eq := by rw [hPlace, Int.toNat_natCast, hContent]
  place_eq := by rw [hAfter, hPlace, Int.natCast_add]

theorem Took.copied (hCount : count < magnitudeLimit)
    (hPlace : Placed.place backend window = position)
    (hAfter : Placed.place after window = (position +
      (Transfer.copy count ((Stored.content backend).drop position) count).bytes.length : Nat))
    (hIdle : (Transfer.copy count ((Stored.content backend).drop position) count).bytes = [] →
      after = backend) :
    Took backend window count
      (Transfer.copy count ((Stored.content backend).drop position) count).bytes
      ⟨.copy count ((Stored.content backend).drop position) count, after, log⟩ where
  bytes_eq := rfl
  value_eq := Transfer.value_copy hCount
  most := Transfer.length_copy_le
  whole := Transfer.whole_of_copy
  front := by
    rw [hPlace, Int.toNat_natCast]
    exact Transfer.front_copy
  place_eq := by rw [hAfter, hPlace, Int.natCast_add]
  idle hNone calls := congrArg (Placed.under calls) (hIdle hNone)

end Calls

/-- A backend that is read and written directly, and moves by what it transfers. -/
class MovesDirectly (β : Type) [Backend β] [Offering β] [Placed β] : Prop where
  reads_offered : (Offering.offers β).read = true
  writes_offered : (Offering.offers β).write = true
  seeks_offered : (Offering.offers β).seek = true
  unbuffered : (Offering.offers β).bufferedRead = false
  writes : ∀ (backend : β) (window : Window) {source : Bytes}, source ≠ [] →
    source.length < magnitudeLimit →
      ∃ piece, Wrote backend window source piece (Backend.write backend source)
  reads : ∀ (backend : β) (window : Window) {count : Nat}, 0 < count → count < magnitudeLimit →
    ∃ taken, Took backend window count taken (Backend.read backend count)

theorem Cursor.read_nothing {cursor : Cursor} {count : Nat}
    (hNone : (cursor.read count).1.bytes = []) : (cursor.read count).2 = cursor := by
  obtain ⟨bytes, position, hInside⟩ := cursor
  rw [read] at hNone
  dsimp only at hNone
  simp only [read, hNone, List.length_nil, Nat.add_zero]

instance : MovesDirectly Region where
  reads_offered := rfl
  writes_offered := rfl
  seeks_offered := rfl
  unbuffered := rfl
  writes := by
    intro region window source hSome hFits
    show ∃ piece, Wrote region window source piece (region.write source)
    rw [Region.write]
    split
    · exact ⟨[], .refused nofun⟩
    · refine ⟨(Transfer.copy region.rest.length source source.length).bytes, ?_⟩
      exact {
        front := Transfer.front_copy
        value_eq := Transfer.value_copy hFits
        whole := fun hDone => by
          rw [Transfer.front_copy, Transfer.whole_of_copy hDone, List.take_length]
        content_eq := (Bytes.store_of_le region.position_le).symm
        place_eq := Int.natCast_add _ _ }
  reads := by
    intro region window count _ hCount
    exact ⟨_, .copied hCount rfl rfl fun hNone =>
      congrArg Region.mk (Cursor.read_nothing hNone)⟩

instance [Memory] : MovesDirectly Growable where
  reads_offered := rfl
  writes_offered := rfl
  seeks_offered := rfl
  unbuffered := rfl
  writes := by
    intro vector window source _ hFits
    show ∃ piece, Wrote vector window source piece (vector.write source)
    by_cases hRoom : vector.canHold (vector.position + source.length)
    · obtain ⟨after, hWrite, hBytes, hPosition⟩ := Growable.write_stores hRoom
      rw [hWrite]
      exact ⟨source, .stored hFits rfl hBytes (congrArg Nat.cast hPosition)⟩
    · rw [Growable.write, if_neg hRoom]
      exact ⟨[], .refused nofun⟩
  reads := by
    intro vector window count _ hCount
    exact ⟨_, .copied hCount rfl rfl fun hNone =>
      congrArg Growable.mk (Cursor.read_nothing hNone)⟩

instance : MovesDirectly File where
  reads_offered := rfl
  writes_offered := rfl
  seeks_offered := rfl
  unbuffered := rfl
  writes := by
    intro file window source _ hFits
    show ∃ piece, Wrote file window source piece (file.write source)
    obtain ⟨piece, code, after, log, hWrite, ⟨hFront, -, later, -, rfl⟩, hMost, hWhole⟩ :=
      file.write_puts source
    rw [hWrite]
    exact ⟨piece, {
      front := hFront
      value_eq := Outcome.value_report _ (Nat.lt_of_le_of_lt hMost hFits)
      whole := fun hDone => by rw [hFront, hWhole.mp hDone, List.take_length]
      content_eq := rfl
      place_eq := Int.natCast_add _ _ }⟩
  reads := by
    intro file window count _ hCount
    show ∃ taken, Took file window count taken (file.read count)
    obtain ⟨taken, code, after, log, hRead, ⟨hFront, later, -, rfl⟩, hMost, hWhole⟩ :=
      file.read_takes count
    rw [hRead]
    exact ⟨taken, {
      bytes_eq := rfl
      value_eq := Outcome.value_report _ (Nat.lt_of_le_of_lt hMost hCount)
      most := hMost
      whole := hWhole.mp
      front := hFront
      place_eq := Int.natCast_add _ _
      idle := fun hNone calls => by rw [hNone]; rfl }⟩

namespace Stream

variable {β : Type} [Backend β] [Offering β] {stream after : Stream β}

/-- A stream that offers what its backend does and did not fail for good. -/
structure Intact (stream : Stream β) : Prop where
  offered : stream.capabilities = Offering.offers β
  healthy : stream.failure = none

theorem Intact.of_same (hIntact : stream.Intact) (hOffered : after.capabilities = stream.capabilities)
    (hFailure : after.failure = stream.failure) : after.Intact :=
  ⟨hOffered.trans hIntact.offered, hFailure.trans hIntact.healthy⟩

/-- Only a refill fails a stream for good, and without a window there is none. -/
theorem orderly_intact (hUnbuffered : (Offering.offers β).bufferedRead = false) :
    Orderly (Intact (β := β)) (fun _ => Intact) where
  record code stream hIntact := by
    rw [result_record]
    exact hIntact.of_same rfl rfl
  readDirect hIntact hSome hDirect := by
    rw [read_of_offered hSome hDirect]
    exact hIntact.of_same rfl rfl
  peek {stream count} hIntact _ := by
    rw [peek, Action.result_bind_of_ok (Action.result_state stream)]
    split
    · exact hIntact
    · exact hIntact
  consume hIntact hCount := by
    obtain ⟨window, -, hConsume⟩ := consume_of_available hCount
    rw [hConsume]
    exact hIntact.of_same rfl rfl
  refill {stream} hIntact _ := by
    rw [refill_of_absent (by rw [hIntact.offered, hUnbuffered])]
    exact hIntact.of_same rfl rfl
  size stream hIntact := by
    cases hOffers : stream.capabilities.size with
    | false =>
        rw [size_of_absent hOffers, result_unsupported]
        exact hIntact.of_same rfl rfl
    | true =>
        rw [size_of_offered hOffers]
        exact hIntact.of_same rfl rfl
  write source stream hIntact := by
    by_cases hNone : source = []
    · subst hNone
      exact hIntact
    cases hOffers : stream.capabilities.write with
    | false =>
        rw [write_of_absent hNone hOffers, result_unsupported]
        exact hIntact.of_same rfl rfl
    | true =>
        rw [write_of_offered hNone hOffers]
        exact hIntact.of_same rfl rfl
  seek offset origin stream hIntact := by
    obtain ⟨hOffered, hFailure, -⟩ := backend_of_seek stream offset origin
    exact Action.ends_of_state (hIntact.of_same hOffered hFailure)
  close stream hIntact := by
    rw [close, Action.result_bind_of_ok (Action.result_state stream)]
    split
    · exact hIntact.of_same rfl rfl
    · exact hIntact
  resetErrorState stream hIntact := by
    rw [result_resetErrorState_of_healthy hIntact.healthy]
    exact hIntact.of_same rfl rfl

theorem intact_of_reachable [Memory] {backend : β} {window : Window} {reached : Stream β}
    (hUnbuffered : (Offering.offers β).bufferedRead = false)
    (hReached : (opened backend window).Reachable Use.Permitted reached) : reached.Intact :=
  (orderly_intact hUnbuffered).reachable (fun _ _ hStopped => hStopped)
    ⟨Offering.capabilities_eq backend, rfl⟩ hReached

end Stream

end Bytestream
