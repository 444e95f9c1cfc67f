import Bytestream.Proofs.ChunkReading
import Bytestream.Proofs.Media
import Bytestream.Proofs.Opening
import Bytestream.Slice

/-!
Sequences of scalars, each with a type and a byte order of its own. On a stream and on a byte string
they have the same bytes, and what is left of those after a cut decides alone how many of the
scalars are read back.
-/

namespace Bytestream

/-- A place for a scalar: its type, and which end of it comes first. A place is as wide as an
outcome can count. -/
structure Slot where
  order : ByteOrder
  scalar : Scalar
  narrow : scalar.width < magnitudeLimit
deriving DecidableEq

/-- A place with the bits of the scalar that is stored there. -/
structure Entry extends Slot where
  word : Word scalar.width
deriving DecidableEq

/-- How many bytes of a word are less significant than the byte at `index` of its byte form. -/
def ByteOrder.significance (order : ByteOrder) (width index : Nat) : Nat :=
  match order with
  | .little => index
  | .big => width - 1 - index

namespace Bytes

theorem getElem?_digits {width index : Nat} (n : Nat) (hIndex : index < width) :
    (digits width n)[index]? = some (UInt8.ofNat (n >>> (8 * index))) := by
  induction width generalizing n index with
  | zero => omega
  | succ width ih =>
      cases index with
      | zero => rfl
      | succ index =>
          have hShift : n >>> (8 * (index + 1)) = (n / 256) >>> (8 * index) := by
            rw [Nat.mul_succ, Nat.add_comm, Nat.shiftRight_add, Nat.shiftRight_eq_div_pow n 8]
          rw [digits, List.getElem?_cons_succ, ih (n / 256) (by omega), hShift]

end Bytes

/-- A digit in base 256 is eight bits of the word. -/
theorem Word.ofNat_digit {width : Nat} (word : Word width) (place : Nat) :
    UInt8.ofNat (word.toNat >>> (8 * place)) = UInt8.ofBitVec (word.extractLsb' (8 * place) 8) := by
  apply UInt8.toNat_inj.mp
  rw [UInt8.toNat_ofNat', UInt8.toNat_ofBitVec, BitVec.extractLsb'_toNat]

/-- A byte of a word is the eight bits of its significance. -/
theorem Word.getElem?_bytes {width index : Nat} (order : ByteOrder) (word : Word width)
    (hIndex : index < width) :
    (Word.bytes order word)[index]? =
      some (UInt8.ofBitVec (word.extractLsb' (8 * order.significance width index) 8)) := by
  cases order with
  | little =>
      rw [Word.bytes, Bytes.getElem?_digits _ hIndex, Word.ofNat_digit]
      rfl
  | big =>
      rw [Word.bytes, List.getElem?_reverse (by rwa [Bytes.length_digits]), Bytes.length_digits,
        Bytes.getElem?_digits _ (by omega), Word.ofNat_digit]
      rfl

namespace Entry

/-- The byte form of an entry. -/
def bytes (entry : Entry) : Bytes := Word.bytes entry.order entry.word

/-- The byte forms of entries, one behind the other. -/
def encode (entries : List Entry) : Bytes := entries.flatMap bytes

@[simp] theorem length_bytes (entry : Entry) : entry.bytes.length = entry.scalar.width :=
  Word.length_bytes entry.order entry.word

theorem encode_cons (entry : Entry) (later : List Entry) :
    encode (entry :: later) = entry.bytes ++ encode later := List.flatMap_cons

theorem encode_append (first second : List Entry) :
    encode (first ++ second) = encode first ++ encode second := List.flatMap_append

/-- The error of a reader that has not found room for all entries, if any are left. -/
def ended (left : List Entry) (error : Error) : Option Error :=
  if left.isEmpty then none else some error

/-- Any number of bytes holds some of the entries whole and ends inside the next one. -/
theorem exists_split (entries : List Entry) (count : Nat) :
    ∃ whole rest, entries = whole ++ rest ∧ (encode whole).length ≤ count ∧
      ∀ next ∈ rest.head?, count < (encode whole).length + next.scalar.width := by
  induction entries generalizing count with
  | nil => exact ⟨[], [], rfl, Nat.zero_le _, fun next hNext => nomatch hNext⟩
  | cons entry later ih =>
      by_cases hFits : entry.scalar.width ≤ count
      · obtain ⟨whole, rest, rfl, hWhole, hCut⟩ := ih (count - entry.scalar.width)
        have hLength : (encode (entry :: whole)).length =
            entry.scalar.width + (encode whole).length := by
          rw [encode_cons, List.length_append, length_bytes]
        refine ⟨entry :: whole, rest, rfl, by omega, fun next hNext => ?_⟩
        have hLeft := hCut next hNext
        omega
      · refine ⟨[], entry :: later, rfl, Nat.zero_le _, fun next hNext => ?_⟩
        cases hNext
        exact Nat.lt_of_not_le (by rwa [encode, List.flatMap_nil, List.length_nil, Nat.zero_add])

/-- The first bytes of entries are the whole entries among them and what is left of the next. -/
theorem take_encode {whole : List Entry} {count : Nat} (rest : List Entry)
    (hWhole : (encode whole).length ≤ count) :
    (encode (whole ++ rest)).take count =
      encode whole ++ (encode rest).take (count - (encode whole).length) := by
  rw [encode_append, List.take_append, List.take_of_length_le hWhole]

/-- Of an entry that is cut off, all that is left of the bytes is there. -/
theorem length_take_encode {whole later : List Entry} {next : Entry} {count : Nat}
    (hCut : count < (encode whole).length + next.scalar.width) :
    ((encode (next :: later)).take (count - (encode whole).length)).length =
      count - (encode whole).length := by
  rw [List.length_take, encode_cons, List.length_append, length_bytes]
  omega

end Entry

namespace Stream

variable {β : Type} [Backend β]

/-- Writes entries in order. -/
def putEntries : List Entry → Attempt β Unit
  | [] => return ()
  | entry :: later => do
      putWord entry.order entry.word
      putEntries later

/-- Reads an entry for each slot until one fails, and yields those that were read with the error
that ended them. -/
def readEntries : List Slot → Op β (List Entry × Option Error)
  | [] => return ([], none)
  | slot :: later => do
      match ← Action.attempt (readWord slot.order slot.scalar.width) with
      | .error error => return ([], some error)
      | .ok word =>
          let (entries, ended) ← readEntries later
          return (⟨slot, word⟩ :: entries, ended)

theorem putEntries_writes [Storage β] (entries : List Entry) :
    Writes (putEntries entries : Attempt β Unit) () (Entry.encode entries) := by
  induction entries with
  | nil => exact writes_pure ()
  | cons entry later ih =>
      rw [Entry.encode_cons]
      exact (putWord_writes entry.order entry.word).bind ih

/-- Reading goes on behind slots that were all read. -/
theorem readEntries_append {slots more : List Slot} {first second : List Entry}
    {ended : Option Error} {stream middle after : Stream β}
    (hFirst : (readEntries slots).result stream = (.ok (first, none), middle))
    (hSecond : (readEntries more).result middle = (.ok (second, ended), after)) :
    (readEntries (slots ++ more)).result stream = (.ok (first ++ second, ended), after) := by
  induction slots generalizing stream first with
  | nil =>
      cases hFirst
      exact hSecond
  | cons slot later ih =>
      rw [readEntries] at hFirst
      obtain ⟨answer, behind, hWord, hRest⟩ := Action.ok_of_bind hFirst
      cases answer with
      | error error => cases hRest
      | ok word =>
          obtain ⟨⟨entries, stopped⟩, last, hLater, hEnd⟩ := Action.ok_of_bind hRest
          cases hEnd
          rw [List.cons_append, readEntries, Action.result_bind_of_ok hWord]
          dsimp only
          rw [Action.result_bind_of_ok (ih hLater), Action.result_pure]
          rfl

variable [Readable β] [ReadsInOrder β] {stream : Stream β} {data tail : Bytes} {position : Nat}

/-- Entries that lie at the position are read bit for bit. -/
theorem readEntries_reaches {whole : List Entry} (hStands : stream.Stands data position .success)
    (hHere : data.drop position = Entry.encode whole ++ tail) :
    stream.Reaches (readEntries (whole.map Entry.toSlot)) (whole, none) data
      (position + (Entry.encode whole).length) := by
  induction whole generalizing stream position with
  | nil => exact hStands.reaches_pure _
  | cons entry later ih =>
      rw [Entry.encode_cons, List.append_assoc] at hHere
      have hLength := congrArg List.length hHere
      rw [List.length_drop, List.length_append, Entry.length_bytes] at hLength
      have hWord : Word.ofBytes entry.order entry.scalar.width
          ((data.drop position).take entry.scalar.width) = entry.word := by
        rw [hHere, List.take_left' entry.length_bytes, Entry.bytes, Word.ofBytes_bytes]
      obtain ⟨behind, hRead, hBehind⟩ :=
        readWord_reaches entry.order hStands (by omega) entry.narrow
      have hNext : data.drop (position + entry.scalar.width) = Entry.encode later ++ tail := by
        rw [← List.drop_drop, hHere, List.drop_left' entry.length_bytes]
      obtain ⟨after, hLater, hAfter⟩ := ih hBehind hNext
      rw [hWord] at hRead
      refine ⟨after, ?_, ?_⟩
      · rw [List.map_cons, readEntries,
          Action.result_bind_of_ok (Action.result_attempt_of_ok hRead)]
        dsimp only
        rw [Action.result_bind_of_ok hLater, Action.result_pure]
      · rwa [Entry.encode_cons, List.length_append, Entry.length_bytes, ← Nat.add_assoc]

/-- The first entry that is cut off ends the stream. -/
theorem readEntries_of_lies {whole rest : List Entry}
    (hStands : stream.Stands data position .success)
    (hHere : data.drop position = Entry.encode whole ++ tail)
    (hTail : ∀ next ∈ rest.head?, tail.length < next.scalar.width) :
    ∃ after, (readEntries ((whole ++ rest).map Entry.toSlot)).result stream =
        (.ok (whole, Entry.ended rest .endOfStream), after) ∧
      after.errorState = (Entry.ended rest .endOfStream).elim .success Error.code := by
  obtain ⟨middle, hWhole, hMiddle⟩ := readEntries_reaches hStands hHere
  -- Behind the whole entries nothing more is yielded, so the empty list is put behind them.
  rw [List.map_append, ← List.append_nil whole]
  cases rest with
  | nil =>
      exact ⟨middle, readEntries_append (by rwa [List.append_nil]) rfl, hMiddle.errorState_eq⟩
  | cons next later =>
      have hLength := congrArg List.length hHere
      rw [List.length_drop, List.length_append] at hLength
      have hCut := hTail next rfl
      obtain ⟨after, hRead, hCode⟩ :=
        readWord_fails next.order hMiddle (by omega : _ < next.scalar.width)
      refine ⟨after, readEntries_append (by rwa [List.append_nil]) ?_, hCode⟩
      rw [List.map_cons, readEntries,
        Action.result_bind_of_ok (Action.result_attempt_of_error hRead)]
      rfl

/-- A word that is cut off leaves the destination as it was. -/
theorem readWordInto_short {width : Nat} (order : ByteOrder) (initial : Word width)
    (hStands : stream.Stands data position .success) (hShort : data.length - position < width) :
    ∃ after, (readWordInto order initial).result stream =
        (.ok (.report (data.length - position) .endOfStream, initial), after) ∧
      after.errorState = .endOfStream := by
  obtain ⟨after, hRead, -, hCode⟩ :=
    ReadsInOrder.read_delivers hStands (by omega : 0 < width)
  rw [Transfer.copy_short (by rwa [List.length_drop]), List.length_drop] at hRead
  refine ⟨after, ?_, hCode hShort⟩
  rw [readWordInto, Action.result_bind_of_ok hRead, Action.result_pure]
  rfl

end Stream

namespace Bytes

/-- Stores entries from an offset on, and yields the bytes with the offset behind the entries. -/
def writeEntriesAt (bytes : Bytes) (offset : Nat) : List Entry → Except Error (Bytes × Nat)
  | [] => return (bytes, offset)
  | entry :: later => do
      let (written, next) ← bytes.writeAt entry.order offset entry.word
      written.writeEntriesAt next later

/-- Reads an entry for each slot from an offset on until one fails, and yields those that were read
and the offset that was reached, with the error that ended them. -/
def readEntriesAt (bytes : Bytes) (offset : Nat) : List Slot → (List Entry × Nat) × Option Error
  | [] => (([], offset), none)
  | slot :: later =>
      match bytes.readAt slot.order slot.scalar.width offset with
      | .error error => (([], offset), some error)
      | .ok (word, next) =>
          let ((entries, reached), ended) := bytes.readEntriesAt next later
          ((⟨slot, word⟩ :: entries, reached), ended)

/-- A string with room for all entries takes them one behind the other. -/
theorem writeEntriesAt_of_room {entries : List Entry} {bytes : Bytes} {offset : Nat}
    (hRoom : offset + (Entry.encode entries).length ≤ bytes.length) :
    bytes.writeEntriesAt offset entries =
      .ok (bytes.overwrite offset (Entry.encode entries),
        offset + (Entry.encode entries).length) := by
  induction entries generalizing bytes offset with
  | nil =>
      rw [← store_of_le (by omega)]
      rfl
  | cons entry later ih =>
      rw [Entry.encode_cons, List.length_append, Entry.length_bytes] at hRoom
      have hKept : (bytes.overwrite offset entry.bytes).length = bytes.length :=
        length_overwrite (by rw [Entry.length_bytes]; omega)
      have hWrite : bytes.writeAt entry.order offset entry.word =
          .ok (bytes.overwrite offset entry.bytes, offset + entry.scalar.width) :=
        if_pos (by omega)
      have hStored := store_append bytes offset entry.bytes (Entry.encode later)
      rw [Entry.length_bytes, store_of_le (by omega : offset ≤ bytes.length),
        store_of_le (by omega), store_of_le (by omega)] at hStored
      rw [writeEntriesAt, hWrite]
      show (bytes.overwrite offset entry.bytes).writeEntriesAt _ later = _
      rw [ih (by omega), hStored, Entry.encode_cons, List.length_append, Entry.length_bytes,
        Nat.add_assoc]

/-- Entries that lie at the offset are read bit for bit, and the first one that is cut off is out of
bounds. -/
theorem readEntriesAt_of_lies {whole rest : List Entry} {bytes tail : Bytes} {offset : Nat}
    (hOffset : offset ≤ bytes.length) (hHere : bytes.drop offset = Entry.encode whole ++ tail)
    (hTail : ∀ next ∈ rest.head?, tail.length < next.scalar.width) :
    bytes.readEntriesAt offset ((whole ++ rest).map Entry.toSlot) =
      ((whole, offset + (Entry.encode whole).length), Entry.ended rest .outOfBounds) := by
  induction whole generalizing offset with
  | nil =>
      have hLength := congrArg List.length hHere
      rw [List.length_drop, List.length_append] at hLength
      cases rest with
      | nil => rfl
      | cons next later =>
          have hCut := hTail next rfl
          have hShort : ¬offset + next.scalar.width ≤ bytes.length := by
            simp only [Entry.encode, List.flatMap_nil, List.length_nil] at hLength
            omega
          have hRead : bytes.readAt next.order next.scalar.width offset = .error .outOfBounds := by
            rw [readAt, slice?, if_neg hShort]
          rw [List.nil_append, List.map_cons, readEntriesAt, hRead]
          rfl
  | cons entry later ih =>
      rw [Entry.encode_cons, List.append_assoc] at hHere
      have hLength := congrArg List.length hHere
      rw [List.length_drop, List.length_append, Entry.length_bytes] at hLength
      have hRead : bytes.readAt entry.order entry.scalar.width offset =
          .ok (entry.word, offset + entry.scalar.width) := by
        rw [readAt, slice?, if_pos (by omega), hHere, List.take_left' entry.length_bytes]
        simp only [Entry.bytes, Word.ofBytes_bytes]
      have hNext : bytes.drop (offset + entry.scalar.width) = Entry.encode later ++ tail := by
        rw [← List.drop_drop, hHere, List.drop_left' entry.length_bytes]
      rw [List.cons_append, List.map_cons, readEntriesAt, hRead]
      dsimp only
      rw [ih (by omega) hNext, Entry.encode_cons, List.length_append, Entry.length_bytes,
        Nat.add_assoc]

end Bytes

namespace Entry

/-- What every opening of the first bytes of entries reads, and what it makes of the entry that is
cut off. -/
theorem run_readEntries_take [Memory] {whole rest : List Entry} {count : Nat}
    (hWhole : (encode whole).length ≤ count)
    (hCut : ∀ next ∈ rest.head?, count < (encode whole).length + next.scalar.width)
    (opening : Opening) :
    opening.run ((encode (whole ++ rest)).take count)
        (Stream.readEntries ((whole ++ rest).map toSlot)) =
      .ok ((whole, ended rest .endOfStream), (ended rest .endOfStream).elim .success Error.code) ∧
    ∀ next ∈ rest.head?, ∀ initial : Word next.scalar.width,
      opening.run ((encode (whole ++ rest)).take count) (do
          let _ ← Stream.readEntries (whole.map toSlot)
          Stream.readWordInto next.order initial) =
        .ok ((.report (count - (encode whole).length) .endOfStream, initial), .endOfStream) := by
  rw [take_encode rest hWhole]
  refine ⟨?_, fun next hNext initial => ?_⟩
  · apply opening.run_of_stands
    intro β _ _ _ _ stream hStands
    refine Stream.readEntries_of_lies hStands List.drop_zero fun next hNext => ?_
    have hShort := hCut next hNext
    rw [List.length_take]
    omega
  · obtain ⟨later, rfl⟩ : ∃ later, rest = next :: later := List.head?_eq_some_iff.mp hNext
    have hShort := hCut next rfl
    have hLeft : ((encode (next :: later)).take (count - (encode whole).length)).length =
        count - (encode whole).length := length_take_encode hShort
    apply opening.run_of_stands
    intro β _ _ _ _ stream hStands
    obtain ⟨middle, hRead, hMiddle⟩ := Stream.readEntries_reaches hStands List.drop_zero
    obtain ⟨after, hInto, hCode⟩ := Stream.readWordInto_short next.order initial hMiddle
      (by rw [List.length_append, hLeft]; omega)
    refine ⟨after, ?_, hCode⟩
    rw [Action.result_bind_of_ok hRead, hInto, List.length_append, hLeft, Nat.zero_add,
      Nat.add_sub_cancel_left]

/-- Entries are written to an empty vector and into a string with room for them as the same bytes,
in which every byte is eight bits of its word, chosen by the byte order. A reader of the first bytes
of those, on a stream or on the string, finds bit for bit the entries that are whole there and then
the end, and a destination for the next one stays as it was. -/
theorem sequence_round_trips [Memory] {entries : List Entry}
    (hReserve : (encode entries).length ≤ reservable) :
    (∀ entry ∈ entries, ∀ index < entry.scalar.width,
      entry.bytes[index]? = some (UInt8.ofBitVec (entry.word.extractLsb'
        (8 * entry.order.significance entry.scalar.width index) 8))) ∧
    (∃ after : Stream Growable,
      (Stream.putEntries entries).result
          ⟨Growable.ofBytes [], Offering.offers Growable, Window.empty, none, .success⟩ =
        (.ok (), after) ∧
      after.backend.bytes = entries.flatMap bytes ∧
      after.backend.position = (encode entries).length ∧ after.errorState = .success) ∧
    (∀ (room : Bytes) (offset : Nat), offset + (encode entries).length ≤ room.length →
      room.writeEntriesAt offset entries =
        .ok (room.overwrite offset (entries.flatMap bytes),
          offset + (encode entries).length)) ∧
    ∀ count, ∃ whole rest, entries = whole ++ rest ∧ (encode whole).length ≤ count ∧
      (∀ next ∈ rest.head?, count < (encode whole).length + next.scalar.width) ∧
      (∀ opening : Opening,
        opening.run ((encode entries).take count) (Stream.readEntries (entries.map toSlot)) =
          .ok ((whole, ended rest .endOfStream),
            (ended rest .endOfStream).elim .success Error.code) ∧
        ∀ next ∈ rest.head?, ∀ initial : Word next.scalar.width,
          opening.run ((encode entries).take count) (do
              let _ ← Stream.readEntries (whole.map toSlot)
              Stream.readWordInto next.order initial) =
            .ok ((.report (count - (encode whole).length) .endOfStream, initial), .endOfStream)) ∧
      Bytes.readEntriesAt ((encode entries).take count) 0 (entries.map toSlot) =
        ((whole, (encode whole).length), ended rest .outOfBounds) ∧
      Error.outOfBounds.code = Error.endOfStream.code := by
  refine ⟨fun entry _ index hIndex => Word.getElem?_bytes entry.order entry.word hIndex, ?_, ?_, ?_⟩
  · obtain ⟨after, hRun, hAfter, -⟩ := Stream.putEntries_writes entries
      ⟨Growable.ofBytes [], Offering.offers Growable, Window.empty, none, .success⟩ [] 0
      ⟨rfl, ⟨rfl, rfl⟩, rfl⟩ (.inr (by rwa [Nat.zero_add]))
    refine ⟨after, hRun, ?_, ?_, hAfter.errorState_eq⟩
    · rw [hAfter.keeps.1, Bytes.store_of_le (Nat.zero_le _), Bytes.overwrite, List.take_nil,
        List.nil_append, List.drop_nil, List.append_nil]
      rfl
    · rw [hAfter.keeps.2, Nat.zero_add]
  · exact fun room offset hRoom => Bytes.writeEntriesAt_of_room hRoom
  · intro count
    obtain ⟨whole, rest, rfl, hWhole, hCut⟩ := exists_split entries count
    refine ⟨whole, rest, rfl, hWhole, hCut, run_readEntries_take hWhole hCut, ?_, rfl⟩
    rw [take_encode rest hWhole, Bytes.readEntriesAt_of_lies (Nat.zero_le _) List.drop_zero,
      Nat.zero_add]
    intro next hNext
    have hShort := hCut next hNext
    rw [List.length_take]
    omega

/-- A count, a number that is none, and minus one. -/
def countNanMinusOne : List Entry :=
  [⟨⟨.big, .unsigned 2, by decide⟩, 0x0102⟩, ⟨⟨.little, .floating 4, by decide⟩, 0x7FC00001⟩,
    ⟨⟨.little, .signed 1, by decide⟩, -1⟩]

/-- Cut inside the second of three entries, the bytes hold the first one alone. -/
theorem sequence_round_trips_cut_in_nan :
    (encode countNanMinusOne).length ≤ reservable ∧
      countNanMinusOne.flatMap bytes = [1, 2, 1, 0, 0xC0, 0x7F, 0xFF] ∧
      (∃ after : Stream Growable,
        (Stream.putEntries countNanMinusOne).result
            ⟨Growable.ofBytes [], Offering.offers Growable, Window.empty, none, .success⟩ =
          (.ok (), after) ∧ after.backend.bytes = [1, 2, 1, 0, 0xC0, 0x7F, 0xFF]) ∧
      (∀ opening : Opening,
        opening.run [1, 2, 1, 0, 0xC0] (Stream.readEntries (countNanMinusOne.map toSlot)) =
          .ok ((countNanMinusOne.take 1, some .endOfStream), .endOfStream)) ∧
      Bytes.readEntriesAt [1, 2, 1, 0, 0xC0] 0 (countNanMinusOne.map toSlot) =
        ((countNanMinusOne.take 1, 2), some .outOfBounds) := by
  have hReserve : (encode countNanMinusOne).length ≤ reservable := by decide
  have hBytes : countNanMinusOne.flatMap bytes = [1, 2, 1, 0, 0xC0, 0x7F, 0xFF] := by decide
  obtain ⟨-, ⟨after, hRun, hStored, -⟩, -, hReads⟩ := sequence_round_trips hReserve
  obtain ⟨whole, rest, hParts, hWhole, hCut, hOpened, hSlice, -⟩ := hReads 5
  -- The two conditions on the split leave only one place for it.
  obtain ⟨rfl, rfl⟩ : whole = countNanMinusOne.take 1 ∧ rest = countNanMinusOne.drop 1 := by
    rcases whole with _ | ⟨first, _ | ⟨second, more⟩⟩
    · subst hParts
      exact absurd (hCut _ rfl) (by decide)
    · cases hParts
      exact ⟨rfl, rfl⟩
    · simp only [countNanMinusOne, List.cons_append, List.cons.injEq] at hParts
      obtain ⟨rfl, rfl, -⟩ := hParts
      simp only [encode_cons, List.length_append, length_bytes, Scalar.unsigned,
        Scalar.floating] at hWhole
      omega
  exact ⟨hReserve, hBytes, ⟨after, hRun, hStored.trans hBytes⟩, fun opening => (hOpened opening).1,
    hSlice⟩

end Entry

end Bytestream
