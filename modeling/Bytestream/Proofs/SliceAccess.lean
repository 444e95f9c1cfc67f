import Bytestream.Proofs.ArenaSteps
import Bytestream.Proofs.ScalarSequences

/-!
Access to the words of a byte string at an offset that moves on. A word is read or written whole and
the offset is then behind it, or the string and the offset stay as they are. So the words of a
sequence of writes lie one behind the other, and none of them is written over.
-/

namespace Bytestream

/-- The sum of two numbers of 64 bits, none where it wraps around. -/
def Word.checkedAdd? (first second : Word 8) : Option (Word 8) :=
  if first.uaddOverflow second then none else some (first + second)

theorem Word.checkedAdd?_eq_some_iff {first second sum : Word 8} :
    checkedAdd? first second = some sum ↔ first.toNat + second.toNat = sum.toNat := by
  rw [checkedAdd?]
  cases hWraps : first.uaddOverflow second with
  | false =>
      have hExact := BitVec.toNat_add_of_not_uaddOverflow (by simpa using hWraps)
      rw [if_neg (by decide), Option.some.injEq, ← BitVec.toNat_inj, hExact]
  | true =>
      simp only [BitVec.uaddOverflow, decide_eq_true_eq] at hWraps
      have hSum := sum.isLt
      rw [if_pos rfl]
      exact iff_of_false (nomatch ·) (by omega)

/-- Reads the word of a slot at the offset and moves the offset behind it. -/
def Slot.readNext (slot : Slot) : Action Error (Bytes × Nat) (Word slot.scalar.width) := do
  let (bytes, offset) ← Action.state
  let (word, behind) ← bytes.readAt slot.order slot.scalar.width offset
  Action.replace (bytes, behind)
  return word

/-- Writes an entry at the offset and moves the offset behind it. -/
def Entry.writeNext (entry : Entry) : Action Error (Bytes × Nat) Unit := do
  let (bytes, offset) ← Action.state
  let written ← bytes.writeAt entry.order offset entry.word
  Action.replace written

/-- One write of a sequence: the entry, the offset that it found, and how it was answered. -/
structure Tried where
  entry : Entry
  offset : Nat
  answer : Except Error Unit

/-- Tries to write entries at an offset that moves on. A refusal does not end the sequence. -/
def Entry.writeEach : List Entry → Bytes × Nat → List Tried × (Bytes × Nat)
  | [], state => ([], state)
  | entry :: later, state =>
      let (answer, behind) := entry.writeNext.result state
      let (tried, last) := writeEach later behind
      (⟨entry, state.2, answer⟩ :: tried, last)

namespace Bytes

variable {bytes : Bytes} {offset : Nat} {slot : Slot}

/-- Of a byte string whose length is a number of 64 bits, a word lies inside exactly if the end of
the word is such a number too and not past the end of the string. -/
theorem inside_iff_checkedAdd? (hLength : bytes.length < positionLimit) (slot : Slot)
    (place : Word 8) :
    place.toNat + slot.scalar.width ≤ bytes.length ↔
      ∃ behind, Word.checkedAdd? place (BitVec.ofNat _ slot.scalar.width) = some behind ∧
        behind.toNat ≤ bytes.length := by
  have hLimit : magnitudeLimit ≤ positionLimit := by decide
  have hWidth : (BitVec.ofNat (8 * 8) slot.scalar.width).toNat = slot.scalar.width :=
    Nat.mod_eq_of_lt (Nat.lt_of_lt_of_le slot.narrow hLimit)
  simp only [Word.checkedAdd?_eq_some_iff, hWidth]
  constructor
  · intro hInside
    have hEnd : (BitVec.ofNat (8 * 8) (place.toNat + slot.scalar.width)).toNat =
        place.toNat + slot.scalar.width :=
      Nat.mod_eq_of_lt (Nat.lt_of_le_of_lt hInside hLength)
    exact ⟨_, hEnd.symm, by rwa [hEnd]⟩
  · rintro ⟨behind, hEnd, hInside⟩
    rwa [hEnd]

/-- Writing what lies at a place over it changes nothing. -/
theorem overwrite_slice {size : Nat} (hInside : offset + size ≤ bytes.length) :
    bytes.overwrite offset ((bytes.drop offset).take size) = bytes := by
  have hLength : ((bytes.drop offset).take size).length = size := by
    rw [List.length_take, List.length_drop]
    omega
  rw [overwrite, hLength, List.append_assoc, ← List.drop_drop, List.take_append_drop,
    List.take_append_drop]

theorem readAt_of_inside (hInside : offset + slot.scalar.width ≤ bytes.length) :
    bytes.readAt slot.order slot.scalar.width offset =
      .ok (Word.ofBytes slot.order slot.scalar.width ((bytes.drop offset).take slot.scalar.width),
        offset + slot.scalar.width) := by
  rw [readAt, slice?, if_pos hInside]

theorem readAt_of_outside (hOutside : bytes.length < offset + slot.scalar.width) :
    bytes.readAt slot.order slot.scalar.width offset = .error .outOfBounds := by
  rw [readAt, slice?, if_neg (Nat.not_le.mpr hOutside)]

theorem writeAt_of_inside (entry : Entry) (hInside : offset + entry.scalar.width ≤ bytes.length) :
    bytes.writeAt entry.order offset entry.word =
      .ok (bytes.overwrite offset entry.bytes, offset + entry.scalar.width) :=
  if_pos hInside

theorem writeAt_of_outside (entry : Entry)
    (hOutside : bytes.length < offset + entry.scalar.width) :
    bytes.writeAt entry.order offset entry.word = .error .outOfBounds :=
  if_neg (Nat.not_le.mpr hOutside)

/-- What was read is written back as the bytes that it was read from. -/
theorem writeAt_of_readAt (hInside : offset + slot.scalar.width ≤ bytes.length) :
    bytes.writeAt slot.order offset (Word.ofBytes slot.order slot.scalar.width
        ((bytes.drop offset).take slot.scalar.width)) =
      .ok (bytes, offset + slot.scalar.width) := by
  have hLength : ((bytes.drop offset).take slot.scalar.width).length = slot.scalar.width := by
    rw [List.length_take, List.length_drop]
    omega
  rw [writeAt, if_pos hInside, Word.bytes_ofBytes slot.order hLength, overwrite_slice hInside]

end Bytes

section Moving

variable {bytes : Bytes} {offset : Nat}

theorem Slot.result_readNext_of_inside {slot : Slot}
    (hInside : offset + slot.scalar.width ≤ bytes.length) :
    slot.readNext.result (bytes, offset) =
      (.ok (Word.ofBytes slot.order slot.scalar.width ((bytes.drop offset).take slot.scalar.width)),
        (bytes, offset + slot.scalar.width)) := by
  rw [readNext, Action.result_bind_of_ok (Action.result_state _)]
  dsimp only
  rw [Bytes.readAt_of_inside hInside]
  rfl

theorem Slot.result_readNext_of_outside {slot : Slot}
    (hOutside : bytes.length < offset + slot.scalar.width) :
    slot.readNext.result (bytes, offset) = (.error .outOfBounds, (bytes, offset)) := by
  rw [readNext, Action.result_bind_of_ok (Action.result_state _)]
  dsimp only
  rw [Bytes.readAt_of_outside hOutside]
  rfl

theorem Entry.result_writeNext_of_inside {entry : Entry}
    (hInside : offset + entry.scalar.width ≤ bytes.length) :
    entry.writeNext.result (bytes, offset) =
      (.ok (), (bytes.overwrite offset entry.bytes, offset + entry.scalar.width)) := by
  rw [writeNext, Action.result_bind_of_ok (Action.result_state _)]
  dsimp only
  rw [Bytes.writeAt_of_inside entry hInside]
  rfl

theorem Entry.result_writeNext_of_outside {entry : Entry}
    (hOutside : bytes.length < offset + entry.scalar.width) :
    entry.writeNext.result (bytes, offset) = (.error .outOfBounds, (bytes, offset)) := by
  rw [writeNext, Action.result_bind_of_ok (Action.result_state _)]
  dsimp only
  rw [Bytes.writeAt_of_outside entry hOutside]
  rfl

end Moving

namespace Tried

/-- Where the offset was after the write. -/
def behind (write : Tried) : Nat :=
  match write.answer with
  | .ok () => write.offset + write.entry.scalar.width
  | .error _ => write.offset

/-- The write was answered by whether its entry fits, and what was written still reads back. -/
inductive Settled (write : Tried) (length : Nat) (after : Bytes) : Prop
  | written (hInside : write.offset + write.entry.scalar.width ≤ length)
      (hAnswer : write.answer = .ok ())
      (hRead : after.readAt write.entry.order write.entry.scalar.width write.offset =
        .ok (write.entry.word, write.offset + write.entry.scalar.width))
  | refused (hOutside : length < write.offset + write.entry.scalar.width)
      (hAnswer : write.answer = .error .outOfBounds)

end Tried

/-- What a sequence of writes leaves: every entry that fits at the offset it found is there in the
end, each behind the ones before, and outside of the range that the offset passed over nothing has
changed. -/
structure WrittenInOrder (before after : Bytes × Nat) (tried : List Tried) : Prop where
  length_eq : after.1.length = before.1.length
  offset_le : before.2 ≤ after.2
  outside : ∀ index, ¬(before.2 ≤ index ∧ index < after.2) → after.1[index]? = before.1[index]?
  settled : ∀ write ∈ tried, write.Settled before.1.length after.1
  begins : ∀ write ∈ tried, before.2 ≤ write.offset
  ordered : tried.Pairwise fun earlier later => earlier.behind ≤ later.offset

namespace WrittenInOrder

variable {bytes : Bytes} {offset : Nat} {entry : Entry} {after : Bytes × Nat} {tried : List Tried}

/-- An entry that fits is not written over by what is written behind it. -/
theorem step_of_inside (hInside : offset + entry.scalar.width ≤ bytes.length)
    (hLater : WrittenInOrder
      (bytes.overwrite offset entry.bytes, offset + entry.scalar.width) after tried) :
    WrittenInOrder (bytes, offset) after (⟨entry, offset, .ok ()⟩ :: tried) := by
  have hFits : offset + entry.bytes.length ≤ bytes.length := by rwa [Entry.length_bytes]
  have hKept := Bytes.length_overwrite hFits
  have hBehind : offset + entry.scalar.width ≤ after.2 := hLater.offset_le
  have hLength : after.1.length = bytes.length := hLater.length_eq.trans hKept
  refine ⟨hLength, by dsimp only; omega, fun index hIndex => ?_,
    List.forall_mem_cons.mpr ⟨.written hInside rfl (Bytes.readAt_of_bytes ?_), ?_⟩,
    List.forall_mem_cons.mpr ⟨Nat.le_refl _, fun write hWrite => ?_⟩,
    .cons hLater.begins hLater.ordered⟩
  · dsimp only at hIndex ⊢
    rw [hLater.outside index (by dsimp only; omega),
      Bytes.getElem?_overwrite_outside hFits (by rw [Entry.length_bytes]; omega)]
  · have hThere := Bytes.slice?_overwrite hFits
    rw [Entry.length_bytes] at hThere
    have hRoom : offset + entry.scalar.width ≤ after.1.length := by omega
    exact Bytes.slice?_of_same hThere hRoom
      fun index _ (hLast : index < offset + entry.scalar.width) =>
        hLater.outside index (by dsimp only; omega)
  · rw [← hKept]
    exact hLater.settled
  · exact Nat.le_trans (Nat.le_add_right _ _) (hLater.begins write hWrite)

/-- A refusal leaves no trace. -/
theorem step_of_outside (hOutside : bytes.length < offset + entry.scalar.width)
    (hLater : WrittenInOrder (bytes, offset) after tried) :
    WrittenInOrder (bytes, offset) after (⟨entry, offset, .error .outOfBounds⟩ :: tried) where
  length_eq := hLater.length_eq
  offset_le := hLater.offset_le
  outside := hLater.outside
  settled := List.forall_mem_cons.mpr ⟨.refused hOutside rfl, hLater.settled⟩
  begins := List.forall_mem_cons.mpr ⟨Nat.le_refl _, hLater.begins⟩
  ordered := .cons hLater.begins hLater.ordered

end WrittenInOrder

/-- The induction is on the entries: each step leaves everything in front of its offset alone. -/
theorem Entry.writeEach_in_order (entries : List Entry) (bytes : Bytes) (offset : Nat) :
    (writeEach entries (bytes, offset)).1.map Tried.entry = entries ∧
      WrittenInOrder (bytes, offset) (writeEach entries (bytes, offset)).2
        (writeEach entries (bytes, offset)).1 := by
  induction entries generalizing bytes offset with
  | nil =>
      exact ⟨rfl, rfl, Nat.le_refl _, fun _ _ => rfl, List.forall_mem_nil _,
        List.forall_mem_nil _, .nil⟩
  | cons entry later ih =>
      rcases Nat.lt_or_ge bytes.length (offset + entry.scalar.width) with hOutside | hInside
      · obtain ⟨hEntries, hOrder⟩ := ih bytes offset
        rw [writeEach, result_writeNext_of_outside hOutside]
        exact ⟨congrArg (entry :: ·) hEntries, hOrder.step_of_outside hOutside⟩
      · obtain ⟨hEntries, hOrder⟩ :=
          ih (bytes.overwrite offset entry.bytes) (offset + entry.scalar.width)
        rw [writeEach, result_writeNext_of_inside hInside]
        exact ⟨congrArg (entry :: ·) hEntries, hOrder.step_of_inside hInside⟩

/-- The second of three writes does not fit and leaves the offset to the third. -/
example :
    Entry.writeEach [⟨⟨.big, .unsigned 2, by decide⟩, 0x0102⟩, ⟨⟨.big, .unsigned 4, by decide⟩, 0⟩,
        ⟨⟨.big, .unsigned 1, by decide⟩, 9⟩] ([7, 7, 7, 7, 7], 1) =
      ([⟨⟨⟨.big, .unsigned 2, by decide⟩, 0x0102⟩, 1, .ok ()⟩,
          ⟨⟨⟨.big, .unsigned 4, by decide⟩, 0⟩, 3, .error .outOfBounds⟩,
          ⟨⟨⟨.big, .unsigned 1, by decide⟩, 9⟩, 3, .ok ()⟩],
        ([7, 1, 2, 9, 7], 4)) := rfl

/-- At every offset, however large, a word is read and written exactly if it lies inside the string.
Numbers are added without wrapping around there, which is what a checked addition of 64 bits comes
to. A word that does not lie inside is refused, and neither the string nor the offset has changed. A
word that does is written to its own bytes alone, reads back bit for bit, and is written back as it
was read. In a sequence of writes at an offset that moves on, no write disturbs an earlier one. -/
theorem Bytes.access_is_whole (bytes : Bytes) (offset : Nat) :
    (∀ slot : Slot, offset + slot.scalar.width ≤ bytes.length →
      (∃ word, bytes.readAt slot.order slot.scalar.width offset =
          .ok (word, offset + slot.scalar.width) ∧
        slot.readNext.result (bytes, offset) = (.ok word, (bytes, offset + slot.scalar.width)) ∧
        bytes.writeAt slot.order offset word = .ok (bytes, offset + slot.scalar.width)) ∧
      ∀ word : Word slot.scalar.width, ∃ written,
        bytes.writeAt slot.order offset word = .ok (written, offset + slot.scalar.width) ∧
        (Entry.writeNext ⟨slot, word⟩).result (bytes, offset) =
          (.ok (), (written, offset + slot.scalar.width)) ∧
        written.length = bytes.length ∧
        (∀ index, ¬(offset ≤ index ∧ index < offset + slot.scalar.width) →
          written[index]? = bytes[index]?) ∧
        written.readAt slot.order slot.scalar.width offset =
          .ok (word, offset + slot.scalar.width)) ∧
    (∀ slot : Slot, bytes.length < offset + slot.scalar.width →
      bytes.readAt slot.order slot.scalar.width offset = .error .outOfBounds ∧
      slot.readNext.result (bytes, offset) = (.error .outOfBounds, (bytes, offset)) ∧
      ∀ word : Word slot.scalar.width,
        bytes.writeAt slot.order offset word = .error .outOfBounds ∧
        (Entry.writeNext ⟨slot, word⟩).result (bytes, offset) =
          (.error .outOfBounds, (bytes, offset))) ∧
    (∀ slot : Slot, bytes.length < positionLimit → ∀ place : Word 8,
      place.toNat + slot.scalar.width ≤ bytes.length ↔
        ∃ behind, Word.checkedAdd? place (BitVec.ofNat _ slot.scalar.width) = some behind ∧
          behind.toNat ≤ bytes.length) ∧
    ∀ entries : List Entry,
      (Entry.writeEach entries (bytes, offset)).1.map Tried.entry = entries ∧
      WrittenInOrder (bytes, offset) (Entry.writeEach entries (bytes, offset)).2
        (Entry.writeEach entries (bytes, offset)).1 := by
  refine ⟨fun slot hInside => ⟨⟨_, readAt_of_inside hInside,
      Slot.result_readNext_of_inside hInside, writeAt_of_readAt hInside⟩, fun word => ?_⟩,
    fun slot hOutside => ⟨readAt_of_outside hOutside, Slot.result_readNext_of_outside hOutside,
      fun word => ⟨writeAt_of_outside ⟨slot, word⟩ hOutside,
        Entry.result_writeNext_of_outside hOutside⟩⟩,
    fun slot hLength place => inside_iff_checkedAdd? hLength slot place,
    fun entries => Entry.writeEach_in_order entries bytes offset⟩
  have hLength := Entry.length_bytes ⟨slot, word⟩
  have hFits : offset + (Entry.bytes ⟨slot, word⟩).length ≤ bytes.length := by rwa [hLength]
  have hWrite := writeAt_of_inside ⟨slot, word⟩ hInside
  refine ⟨_, hWrite, Entry.result_writeNext_of_inside hInside, length_overwrite hFits,
    fun index hOutside => ?_, readAt_of_writeAt hWrite⟩
  exact getElem?_overwrite_outside hFits (by rwa [hLength])

end Bytestream
