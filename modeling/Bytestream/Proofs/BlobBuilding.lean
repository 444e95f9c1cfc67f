import Bytestream.Proofs.ArenaSteps

/-!
Builds of a blob: any steps one after the other, as long as none of them faults. What a build
appended stays where it is if later steps overwrite no more than what was reserved for it, and a
record stays stored if no later step overwrites it. So a reference that was stored finds what was
appended at its target, whichever of the two came first.
-/

namespace Bytestream

namespace Bytes

variable {size count : Nat} {values : List Bytes}

theorem length_flatten_of_sizes (hSizes : ∀ value ∈ values, value.length = size) :
    values.flatten.length = values.length * size := by
  induction values with
  | nil => rw [List.length_nil, Nat.zero_mul, List.flatten_nil, List.length_nil]
  | cons value values ih =>
      rw [List.forall_mem_cons] at hSizes
      rw [List.flatten_cons, List.length_append, hSizes.1, ih hSizes.2, List.length_cons,
        Nat.add_mul, Nat.one_mul, Nat.add_comm]

theorem length_flatten_take (hSizes : ∀ value ∈ values, value.length = size)
    (hCount : count ≤ values.length) : (values.take count).flatten.length = count * size := by
  rw [length_flatten_of_sizes fun value hValue => hSizes value (List.mem_of_mem_take hValue),
    List.length_take_of_le hCount]

/-- The leading elements come first where elements lie side by side. -/
theorem slice?_flatten (hSizes : ∀ value ∈ values, value.length = size)
    (hCount : count ≤ values.length) :
    slice? values.flatten 0 (count * size) = some (values.take count).flatten := by
  have hWhole : values.flatten = (values.take count).flatten ++ (values.drop count).flatten := by
    rw [← List.flatten_append, List.take_append_drop]
  refine slice?_eq_some_iff.mpr ⟨?_, ?_⟩
  · rw [Nat.zero_add, length_flatten_of_sizes hSizes]
    exact Nat.mul_le_mul_right size hCount
  · rw [List.drop_zero, hWhole, List.take_left' (length_flatten_take hSizes hCount)]

/-- An element lies where the ones in front of it end. -/
theorem slice?_flatten_getElem {index : Nat} {value : Bytes}
    (hSizes : ∀ value ∈ values, value.length = size) (hValue : values[index]? = some value) :
    slice? values.flatten (index * size) size = some value := by
  obtain ⟨hIndex, rfl⟩ := List.getElem?_eq_some_iff.mp hValue
  have hSize := hSizes _ (List.getElem_mem hIndex)
  have hFront := length_flatten_take hSizes (Nat.le_of_lt hIndex)
  have hWhole : values.flatten =
      (values.take index).flatten ++ (values[index] ++ (values.drop (index + 1)).flatten) := by
    rw [← List.flatten_cons, List.getElem_cons_drop, ← List.flatten_append, List.take_append_drop]
  refine slice?_eq_some_iff.mpr ⟨?_, ?_⟩
  · rw [hWhole, List.length_append, List.length_append, hFront, hSize]
    omega
  · rw [hWhole, List.drop_left' hFront, List.take_left' hSize]

end Bytes

namespace ElementRun

theorem next?_cons {size count : Nat} {value rest : Bytes} (hSize : value.length = size) :
    next? ⟨value ++ rest, size, count + 1⟩ = some (value, ⟨rest, size, count⟩) := by
  rw [next?, List.take_left' hSize, List.drop_left' hSize]

/-- A run over elements that lie side by side yields them. -/
theorem toList_flatten {size : Nat} {values : List Bytes}
    (hSizes : ∀ value ∈ values, value.length = size) :
    toList ⟨values.flatten, size, values.length⟩ = values := by
  have hTake : (take values.length ⟨values.flatten, size, values.length⟩).1 = values := by
    induction values with
    | nil => rfl
    | cons value values ih =>
        rw [List.forall_mem_cons] at hSizes
        rw [List.length_cons, List.flatten_cons, take, next?_cons hSizes.1]
        exact congrArg (value :: ·) (ih hSizes.2)
  exact hTake

end ElementRun

namespace Arena

/-- One step of a build. The values that a step appends have the size of its elements. -/
inductive Step where
  | align (alignment : Nat)
  | alloc (size alignment : Nat)
  | pushAll (element : Element) (values : List Bytes)
      (hSizes : ∀ value ∈ values, value.length = element.size)
  | patch (width position : Nat) (word : Word width)
  | writePointer (scalar : Scalar) (stride position : Nat) (target : Option Nat)
  | writeArray (countWidth : Nat) (scalar : Scalar) (stride position target count : Nat)

namespace Step

/-- The step that appends one value, which is a run of values like any other. -/
def push (element : Element) (value : Bytes) (hSize : value.length = element.size) : Step :=
  pushAll element [value] (List.forall_mem_singleton.mpr hSize)

/-- Does the step and yields the position that it appended or stored at. -/
def perform : Step → Arena Nat
  | align alignment => Arena.align alignment
  | alloc size alignment => Arena.alloc size alignment
  | pushAll element values _ => Arena.pushAll element values
  | patch _ position word => do
      Arena.patch position word
      return position
  | writePointer scalar stride position target => do
      let _ ← Arena.writePointer scalar stride position target
      return position
  | writeArray countWidth scalar stride position target count => do
      let _ ← Arena.writeArray countWidth scalar stride position target count
      return position

/-- The positions and sizes of the pieces that the step overwrites, in order. -/
def writes : Step → List (Nat × Nat)
  | align _ | alloc _ _ | pushAll _ _ _ => []
  | patch width position _ => [(position, width)]
  | writePointer scalar _ position _ => [(position, Pointer.size scalar)]
  | writeArray countWidth scalar _ position _ _ =>
      [(position, countWidth),
        (ArrayRecord.pointerPosition countWidth position, Pointer.size scalar)]

end Step

/-- A step that was done, with the length of the blob before it and with what it answered. -/
structure Performed where
  step : Step
  length : Nat
  answer : Except Error Nat

namespace Performed

/-- The byte at `index` was overwritten. A piece that does not fit is not written. -/
def Touches (performed : Performed) (index : Nat) : Prop :=
  ∃ write ∈ performed.step.writes, write.1 + write.2 ≤ performed.length ∧
    write.1 ≤ index ∧ index < write.1 + write.2

/-- The position and the size of what the step reserved. -/
def region? (performed : Performed) : Option (Nat × Nat) :=
  match performed.step, performed.answer with
  | .alloc size _, .ok position => some (position, size)
  | _, _ => none

/-- The byte at `index` was reserved. -/
def Reserves (performed : Performed) (index : Nat) : Prop :=
  ∃ region ∈ performed.region?, region.1 ≤ index ∧ index < region.1 + region.2

theorem alloc_of_region? {performed : Performed} {region : Nat × Nat}
    (hRegion : performed.region? = some region) :
    ∃ alignment, performed.step = .alloc region.2 alignment ∧ performed.answer = .ok region.1 := by
  obtain ⟨step, length, answer⟩ := performed
  cases step <;> cases answer <;> cases hRegion
  exact ⟨_, rfl, rfl⟩

end Performed

/-- Does steps one after the other and yields what was done. An error is an answer like any other,
a fault ends the build. -/
def build : List Step → Action Fault Bytes (List Performed)
  | [] => return []
  | step :: steps => do
      let length := (← Action.state).length
      let answer ← Action.attempt step.perform
      return ⟨step, length, answer⟩ :: (← build steps)

/-- Every byte that was overwritten had been reserved before. -/
def WritesInside (events : List Performed) : Prop :=
  ∀ past event later, events = past ++ event :: later → ∀ index, event.Touches index →
    ∃ earlier ∈ past, earlier.Reserves index

/-- Nothing of the `size` bytes at `position` was overwritten. -/
def Untouched (events : List Performed) (position size : Nat) : Prop :=
  ∀ event ∈ events, ∀ index, position ≤ index → index < position + size → ¬event.Touches index

section Conditions

variable {events : List Performed} {event : Performed}

theorem writesInside_nil : WritesInside [] := by
  intro past event later hSplit
  cases past <;> cases hSplit

/-- A step that writes its pieces into regions that were reserved may come next. -/
theorem WritesInside.concat (hEvents : WritesInside events)
    (hEvent : ∀ write ∈ event.step.writes, ∃ earlier ∈ events, ∃ region ∈ earlier.region?,
      region.1 ≤ write.1 ∧ write.1 + write.2 ≤ region.1 + region.2) :
    WritesInside (events ++ [event]) := by
  intro past other later hSplit
  rcases List.eq_nil_or_concat later with rfl | ⟨later, last, rfl⟩
  · obtain ⟨rfl, hSame⟩ := List.append_inj' hSplit rfl
    cases hSame
    rintro index ⟨write, hWrite, -, hInside⟩
    obtain ⟨earlier, hEarlier, region, hRegion, hBounds⟩ := hEvent write hWrite
    exact ⟨earlier, hEarlier, region, hRegion, by omega, by omega⟩
  · rw [List.concat_eq_append, ← List.cons_append, ← List.append_assoc] at hSplit
    obtain ⟨rfl, -⟩ := List.append_inj' hSplit rfl
    exact hEvents past other later rfl

/-- Pieces that lie apart from a place leave it alone. -/
theorem untouched_of_apart {position size : Nat}
    (hApart : ∀ event ∈ events, ∀ write ∈ event.step.writes,
      write.1 + write.2 ≤ position ∨ position + size ≤ write.1) :
    Untouched events position size := by
  rintro event hEvent index hFirst hLast ⟨write, hWrite, -, hInside⟩
  have hOutside := hApart event hEvent write hWrite
  omega

end Conditions

section Steps

variable {blob after : Bytes} {answer : Except Error Nat}

/-- An action whose value is not used, and that did not fault, left what it leaves alone. -/
theorem parts_of_answer {α : Type} {action : Arena α} {position : Nat}
    (hRun : (action >>= fun _ => pure position).result blob = (answer.mapError .error, after)) :
    (action.result blob).2 = after ∧ (action.result blob).1.isOk = answer.isOk ∧
      ∀ fault, (action.result blob).1 ≠ .error (.fault fault) := by
  rw [Action.result_bind] at hRun
  generalize action.result blob = reached at hRun ⊢
  obtain ⟨(error | fault) | value, middle⟩ := reached <;> cases answer <;> cases hRun <;>
    exact ⟨rfl, rfl, nofun⟩

namespace Step

theorem overwritten_patch {width position : Nat} {word : Word width}
    (hRun : (patch width position word).perform.result blob = (answer.mapError .error, after)) :
    Bytes.Overwritten blob [(position, Word.bytes .little word)] answer.isOk after := by
  obtain ⟨rfl, hOk, -⟩ := parts_of_answer hRun
  exact hOk ▸ Arena.overwritten_patch position word blob

theorem overwritten_writePointer {scalar : Scalar} {stride position : Nat} {target : Option Nat}
    (hRun : (writePointer scalar stride position target).perform.result blob =
      (answer.mapError .error, after)) :
    ∃ pointer : Pointer scalar stride, Pointer.toTarget position target = .ok pointer ∧
      Bytes.Overwritten blob [(position, Word.bytes .little pointer.stored)] answer.isOk after := by
  obtain ⟨rfl, hOk, hRegular⟩ := parts_of_answer hRun
  cases hPointer : (Pointer.toTarget position target : Except Fault (Pointer scalar stride)) with
  | error fault => exact absurd (result_writePointer_of_fault hPointer blob) (hRegular fault)
  | ok pointer => exact ⟨pointer, rfl, hOk ▸ Arena.overwritten_writePointer hPointer blob⟩

theorem overwritten_writeArray {countWidth : Nat} {scalar : Scalar}
    {stride position target count : Nat}
    (hRun : (writeArray countWidth scalar stride position target count).perform.result blob =
      (answer.mapError .error, after)) :
    ∃ record : ArrayRecord countWidth scalar stride,
      ArrayRecord.between position target count = .ok record ∧
        Bytes.Overwritten blob [(position, Word.bytes .little record.count),
          (ArrayRecord.pointerPosition countWidth position,
            Word.bytes .little record.elements.stored)] answer.isOk after := by
  obtain ⟨rfl, hOk, hRegular⟩ := parts_of_answer hRun
  cases hRecord : (ArrayRecord.between position target count :
      Except Fault (ArrayRecord countWidth scalar stride)) with
  | error fault => exact absurd (result_writeArray_of_fault hRecord blob) (hRegular fault)
  | ok record => exact ⟨record, rfl, hOk ▸ Arena.overwritten_writeArray hRecord blob⟩

/-- A step changes only the bytes that it overwrites. -/
theorem keeps {step : Step} (hRun : step.perform.result blob = (answer.mapError .error, after)) :
    Bytes.Keeps (Performed.Touches ⟨step, blob.length, answer⟩) blob after := by
  -- Every step either appends or overwrites pieces in order.
  have hAppended {content : Bytes} (hAppended : Appended blob content (step.perform.result blob)) :
      Bytes.Keeps (Performed.Touches ⟨step, blob.length, answer⟩) blob after := by
    rw [hRun] at hAppended
    obtain ⟨zeros, -, rfl⟩ := hAppended.parts
    rw [List.append_assoc]
    exact .append _
  have hOverwritten {pieces : List (Nat × Bytes)}
      (hOverwritten : Bytes.Overwritten blob pieces answer.isOk after)
      (hWrites : step.writes = pieces.map fun write => (write.1, write.2.length)) :
      Bytes.Keeps (Performed.Touches ⟨step, blob.length, answer⟩) blob after := by
    refine hOverwritten.keeps.mono fun index hTouches => ?_
    obtain ⟨write, hWrite, hInside⟩ := hTouches
    exact ⟨_, hWrites ▸ List.mem_map_of_mem hWrite, hInside⟩
  cases step with
  | align alignment => exact hAppended (appended_align alignment blob)
  | alloc size alignment => exact hAppended (appended_alloc size alignment blob)
  | pushAll element values hSizes => exact hAppended (appended_pushAll element values blob)
  | patch width position word =>
      refine hOverwritten (overwritten_patch hRun) ?_
      simp only [writes, List.map_cons, List.map_nil, Word.length_bytes]
  | writePointer scalar stride position target =>
      obtain ⟨pointer, -, hPointer⟩ := overwritten_writePointer hRun
      refine hOverwritten hPointer ?_
      simp only [writes, List.map_cons, List.map_nil, Word.length_bytes, Pointer.size]
  | writeArray countWidth scalar stride position target count =>
      obtain ⟨record, -, hRecord⟩ := overwritten_writeArray hRun
      refine hOverwritten hRecord ?_
      simp only [writes, List.map_cons, List.map_nil, Word.length_bytes, Pointer.size]

end Step

end Steps

/-- What was done from one blob to another. -/
inductive Builds : Bytes → List Performed → Bytes → Prop
  | done (blob : Bytes) : Builds blob [] blob
  | step {blob middle after : Bytes} {step : Step} {answer : Except Error Nat}
      {later : List Performed}
      (hFirst : step.perform.result blob = (answer.mapError .error, middle))
      (hLater : Builds middle later after) :
      Builds blob (⟨step, blob.length, answer⟩ :: later) after

theorem builds_of_build {steps : List Step} {blob after : Bytes} {events : List Performed}
    (hBuild : (build steps).result blob = (.ok events, after)) : Builds blob events after := by
  induction steps generalizing blob events with
  | nil =>
      cases hBuild
      exact .done blob
  | cons step steps ih =>
      rw [build, Action.result_bind_of_ok (Action.result_state blob)] at hBuild
      obtain ⟨answer, middle, hAttempt, hRest⟩ := Action.ok_of_bind hBuild
      obtain ⟨later, last, hLater, hEvents⟩ := Action.ok_of_bind hRest
      cases hEvents
      exact .step (Action.result_of_attempt hAttempt) (ih hLater)

namespace Builds

variable {blob after : Bytes} {events past later : List Performed}

theorem split (hBuilds : Builds blob (past ++ later) after) :
    ∃ middle, Builds blob past middle ∧ Builds middle later after := by
  induction past generalizing blob with
  | nil => exact ⟨blob, .done blob, hBuilds⟩
  | cons event past ih =>
      cases hBuilds with
      | step hFirst hLater =>
          obtain ⟨middle, hPast, hLater⟩ := ih hLater
          exact ⟨middle, .step hFirst hPast, hLater⟩

/-- A build changes only the bytes that one of its steps overwrote. -/
theorem keeps (hBuilds : Builds blob events after) :
    Bytes.Keeps (fun index => ∃ event ∈ events, event.Touches index) blob after := by
  induction hBuilds with
  | done => exact .refl
  | step hFirst hLater ih =>
      refine ((Step.keeps hFirst).trans ih).mono fun index hChanged => ?_
      rcases hChanged with hTouches | ⟨event, hEvent, hTouches⟩
      · exact ⟨_, List.mem_cons_self .., hTouches⟩
      · exact ⟨event, List.mem_cons_of_mem _ hEvent, hTouches⟩

/-- What a build reserves lies between where the blob ended before it and where it ends after it. -/
theorem reserved (hBuilds : Builds blob events after) :
    ∀ event ∈ events, ∀ index, event.Reserves index →
      blob.length ≤ index ∧ index < after.length := by
  induction hBuilds with
  | done => nofun
  | @step blob middle after step answer later hFirst hLater ih =>
      intro event hEvent index hReserves
      rcases List.mem_cons.mp hEvent with rfl | hEvent
      · obtain ⟨⟨position, size⟩, hRegion, hInside⟩ := hReserves
        obtain ⟨alignment, rfl, rfl⟩ := Performed.alloc_of_region? hRegion
        have hAppended := appended_alloc size alignment blob
        rw [show (alloc size alignment).result blob = _ from hFirst] at hAppended
        obtain ⟨zeros, hAnswer, hMiddle⟩ := hAppended.parts
        have hPosition : position = blob.length + zeros.length := Except.ok.inj hAnswer
        have hLength := hLater.keeps.length_le
        rw [hMiddle] at hLength
        simp only [List.length_append, List.length_replicate] at hLength
        omega
      · have hLength := (Step.keeps hFirst).length_le
        have hBounds := ih event hEvent index hReserves
        omega

/-- A piece that no later step overwrites is still there in the end. -/
theorem slice?_of_untouched {position size : Nat} {piece : Bytes}
    (hBuilds : Builds blob events after) (hSlice : blob.slice? position size = some piece)
    (hUntouched : Untouched events position size) : after.slice? position size = some piece :=
  hBuilds.keeps.slice? hSlice fun index hFirst hLast ⟨event, hEvent, hTouches⟩ =>
    hUntouched event hEvent index hFirst hLast hTouches

/-- What was appended as elements is never overwritten by a build that writes inside of what it
reserved: whatever was reserved before lies in front of it, and whatever later lies behind it. -/
theorem pushed_remains {element : Element} {values : List Bytes}
    {hSizes : ∀ value ∈ values, value.length = element.size} {length target : Nat}
    (hBuilds : Builds blob (past ++ ⟨.pushAll element values hSizes, length, .ok target⟩ :: later)
      after)
    (hInside : WritesInside
      (past ++ ⟨.pushAll element values hSizes, length, .ok target⟩ :: later)) :
    after.slice? target values.flatten.length = some values.flatten := by
  obtain ⟨before, hPast, hRest⟩ := hBuilds.split
  cases hRest with
  | @step _ middle _ _ _ _ hPush hLater =>
      have hAppended := appended_pushAll element values before
      rw [show (Arena.pushAll element values).result before = _ from hPush] at hAppended
      obtain ⟨zeros, hTarget, rfl⟩ := hAppended.parts
      cases hTarget
      refine hLater.slice?_of_untouched ?_ fun event hEvent index hFirst hLast hTouches => ?_
      · refine Bytes.slice?_eq_some_iff.mpr ⟨by simp only [List.length_append]; omega, ?_⟩
        rw [List.drop_left' List.length_append, List.take_length]
      · obtain ⟨between, rest, rfl⟩ := List.append_of_mem hEvent
        obtain ⟨earlier, hEarlier, hReserves⟩ := hInside
          (past ++ ⟨.pushAll element values hSizes, before.length, .ok _⟩ :: between) event rest
          (by rw [List.append_assoc, List.cons_append]) index hTouches
        -- What a later step overwrites was reserved before the values, which then lie behind it, or
        -- after them, and then they lie in front of it.
        rcases List.mem_append.mp hEarlier with hEarlier | hEarlier
        · have hBounds := hPast.reserved earlier hEarlier index hReserves
          omega
        · rcases List.mem_cons.mp hEarlier with rfl | hEarlier
          · obtain ⟨region, hRegion, -⟩ := hReserves
            cases hRegion
          · obtain ⟨last, hBetween, -⟩ := hLater.split
            have hBounds := hBetween.reserved earlier hEarlier index hReserves
            simp only [List.length_append] at hBounds
            omega

section Records

variable {countWidth : Nat} {scalar : Scalar} {stride position length answered : Nat}

/-- A pointer that was stored and not overwritten is read in the end. -/
theorem pointer_remains {target : Option Nat}
    (hBuilds : Builds blob
      (past ++ ⟨.writePointer scalar stride position target, length, .ok answered⟩ :: later) after)
    (hUntouched : Untouched later position (Pointer.size scalar)) :
    ∃ pointer : Pointer scalar stride, Pointer.toTarget position target = .ok pointer ∧
      Pointer.readAt after position = .ok pointer := by
  obtain ⟨before, -, hRest⟩ := hBuilds.split
  cases hRest with
  | step hStore hLater =>
      obtain ⟨pointer, hPointer, hStored⟩ := Step.overwritten_writePointer hStore
      refine ⟨pointer, hPointer, Pointer.readAt_of_bytes (hLater.slice?_of_untouched ?_ hUntouched)⟩
      have hSlice := hStored.slice? (List.pairwise_singleton _ _) _ (List.mem_singleton_self _)
      rwa [Word.length_bytes] at hSlice

/-- An array record that was stored and not overwritten is read in the end. -/
theorem record_remains {target count : Nat}
    (hBuilds : Builds blob
      (past ++ ⟨.writeArray countWidth scalar stride position target count, length, .ok answered⟩ ::
        later) after)
    (hUntouched : Untouched later position (ArrayRecord.size countWidth scalar)) :
    ∃ record : ArrayRecord countWidth scalar stride,
      ArrayRecord.between position target count = .ok record ∧
        ArrayRecord.readAt after position = .ok record := by
  obtain ⟨before, -, hRest⟩ := hBuilds.split
  cases hRest with
  | step hStore hLater =>
      obtain ⟨record, hRecord, hStored⟩ := Step.overwritten_writeArray hStore
      have hSlices := hStored.slice? (List.pairwise_pair.mpr (Nat.le_of_eq (by
        rw [Word.length_bytes, ArrayRecord.pointerPosition])))
      have hCount := hSlices _ (List.mem_cons_self ..)
      have hElements := hSlices _ (List.mem_cons_of_mem _ (List.mem_singleton_self _))
      rw [Word.length_bytes] at hCount hElements
      refine ⟨record, hRecord, ArrayRecord.readAt_eq_ok_iff.mpr ⟨?_, ?_⟩⟩
      · exact Bytes.readAt_of_bytes (hLater.slice?_of_untouched hCount fun event hEvent index
          hFirst hLast => hUntouched event hEvent index hFirst (by rw [ArrayRecord.size]; omega))
      · refine Pointer.readAt_of_bytes (hLater.slice?_of_untouched hElements fun event hEvent index
          hFirst hLast => ?_)
        rw [ArrayRecord.pointerPosition] at hFirst hLast
        exact hUntouched event hEvent index (by omega) (by rw [ArrayRecord.size]; omega)

end Records

end Builds

section ReadBack

variable {steps : List Step} {events : List Performed} {blob : Bytes}

/-- The leading elements of what was appended are read at its position in the end. -/
theorem slice?_of_pushed {element : Element} {values : List Bytes}
    {hSizes : ∀ value ∈ values, value.length = element.size} {length target count : Nat}
    (hBuild : (build steps).result [] = (.ok events, blob)) (hInside : WritesInside events)
    (hPushed : ⟨.pushAll element values hSizes, length, .ok target⟩ ∈ events)
    (hCount : count ≤ values.length) :
    blob.slice? target (count * element.size) = some (values.take count).flatten := by
  obtain ⟨past, later, rfl⟩ := List.append_of_mem hPushed
  exact Bytes.slice?_trans ((builds_of_build hBuild).pushed_remains hInside)
    (Bytes.slice?_flatten hSizes hCount)

/-- A blob whose bytes positions can count reads back as it was built, provided that the build
overwrote no more than what it had reserved. Wherever a record was stored and not overwritten
later, a null pointer leads to nothing, a pointer to appended elements finds the first of them, and
an array of appended elements yields as many of them as it counts. -/
theorem build_reads_back (hBuild : (build steps).result [] = (.ok events, blob))
    (hLength : blob.length < positionLimit) (hInside : WritesInside events) :
    (∀ past later scalar stride position length answered,
      events = past ++ ⟨.writePointer scalar stride position none, length, .ok answered⟩ :: later →
      Untouched later position (Pointer.size scalar) →
      ∀ size, Blob.follow scalar stride blob position size = .ok none) ∧
    (∀ past later scalar stride position target length answered,
      events = past ++ ⟨.writePointer scalar stride position (some target), length,
        .ok answered⟩ :: later →
      Untouched later position (Pointer.size scalar) →
      ∀ element value values hSizes length,
        ⟨.pushAll element (value :: values) hSizes, length, .ok target⟩ ∈ events →
        Blob.follow scalar stride blob position element.size = .ok (some value)) ∧
    ∀ past later countWidth scalar stride position target count length answered,
      events = past ++ ⟨.writeArray countWidth scalar stride position target count, length,
        .ok answered⟩ :: later →
      Untouched later position (ArrayRecord.size countWidth scalar) →
      ∀ element values hSizes length,
        ⟨.pushAll element values hSizes, length, .ok target⟩ ∈ events → count ≤ values.length →
        ∃ run, Blob.array countWidth scalar stride blob position element.size = .ok run ∧
          run.toList = values.take count := by
  have hBuilds := builds_of_build hBuild
  refine ⟨?_, ?_, ?_⟩
  · rintro past later scalar stride position length answered rfl hUntouched size
    obtain ⟨pointer, hPointer, hRead⟩ := hBuilds.pointer_remains hUntouched
    cases hPointer
    exact Blob.follow_null hRead
  · rintro past later scalar stride position target length answered rfl hUntouched element value
      values hSizes _ hPushed
    obtain ⟨pointer, hPointer, hRead⟩ := hBuilds.pointer_remains hUntouched
    obtain ⟨hSome, hReach⟩ := Pointer.reach_of_between hPointer
    have hSlice : blob.slice? target element.size = some value := by
      have hLeading := slice?_of_pushed hBuild hInside hPushed (Nat.succ_le_succ (Nat.zero_le _))
      rwa [Nat.one_mul, List.take_succ_cons, List.take_zero, List.flatten_singleton] at hLeading
    have hInBlob := (Bytes.slice?_eq_some_iff.mp hSlice).1
    have hTarget := Pointer.target?_eq_some_iff.mpr ⟨hSome, hReach, by omega⟩
    rw [Blob.follow_of_readAt hRead, Pointer.load_eq_ok_some_iff.mpr ⟨target, hTarget, hSlice⟩]
  · rintro past later countWidth scalar stride position target count length answered rfl hUntouched
      element values hSizes _ hPushed hCount
    obtain ⟨record, hRecord, hRead⟩ := hBuilds.record_remains hUntouched
    obtain ⟨hStored, hElements⟩ := ArrayRecord.parts_of_between hRecord
    obtain ⟨hSome, hReach⟩ := Pointer.reach_of_between hElements
    have hSlice := slice?_of_pushed hBuild hInside hPushed hCount
    -- The pointer of an array without elements is not followed.
    have hRun : record.run blob position element.size =
        .ok ⟨(values.take count).flatten, element.size, (values.take count).length⟩ := by
      rw [List.length_take_of_le hCount]
      by_cases hNone : count = 0
      · rw [ArrayRecord.run_of_length_zero (hStored.trans hNone), hNone]
        rfl
      · have hInBlob := (Bytes.slice?_eq_some_iff.mp hSlice).1
        rw [← hStored] at hNone hSlice ⊢
        exact (ArrayRecord.run_eq_ok_iff hNone hLength).mpr
          ⟨target, Pointer.target?_eq_some_iff.mpr ⟨hSome, hReach, by omega⟩, hSlice, rfl⟩
    refine ⟨_, (Blob.array_of_readAt hRead).trans hRun, ElementRun.toList_flatten fun value hValue =>
      hSizes value (List.mem_of_mem_take hValue)⟩

/-- A pointer is stored before the value that it leads to is appended, an array and a null pointer
behind what was appended. All three read back. -/
theorem build_reads_back_both_ways :
    let pushed : Step := .push ⟨1, 0⟩ [9] rfl
    let pushedAll : Step := .pushAll ⟨2, 0⟩ [[1, 2], [3, 4]] (by decide)
    let steps : List Step := [.alloc 1 1, .writePointer (.signed 1) 1 0 (some 1), pushed, pushedAll,
      .alloc 3 1, .writeArray 1 (.signed 1) 1 6 2 2, .writePointer (.signed 1) 1 8 none]
    let events : List Performed := [⟨.alloc 1 1, 0, .ok 0⟩,
      ⟨.writePointer (.signed 1) 1 0 (some 1), 1, .ok 0⟩, ⟨pushed, 1, .ok 1⟩, ⟨pushedAll, 2, .ok 2⟩,
      ⟨.alloc 3 1, 6, .ok 6⟩, ⟨.writeArray 1 (.signed 1) 1 6 2 2, 9, .ok 6⟩,
      ⟨.writePointer (.signed 1) 1 8 none, 9, .ok 8⟩]
    let blob : Bytes := [1, 9, 1, 2, 3, 4, 2, 251, 128]
    (build steps).result [] = (.ok events, blob) ∧ WritesInside events ∧
      Blob.follow (.signed 1) 1 blob 0 1 = .ok (some [9]) ∧
        Blob.follow (.signed 1) 1 blob 8 1 = .ok none ∧
          ∃ run, Blob.array 1 (.signed 1) 1 blob 6 2 = .ok run ∧
            run.toList = [[1, 2], [3, 4]] := by
  intro pushed pushedAll steps events blob
  have hBuild : (build steps).result [] = (.ok events, blob) := rfl
  have hInside : WritesInside events :=
    ((((((writesInside_nil.concat (by decide)).concat (by decide)).concat (by decide)).concat
      (by decide)).concat (by decide)).concat (by decide)).concat (by decide)
  obtain ⟨hNull, hPointer, hArray⟩ := build_reads_back hBuild (by decide) hInside
  refine ⟨hBuild, hInside, ?_, ?_, ?_⟩
  · exact hPointer [_] [_, _, _, _, _] _ _ _ _ _ _ rfl (untouched_of_apart (by decide))
      ⟨1, 0⟩ [9] [] (by decide) 1 (.tail _ (.tail _ (.head _)))
  · exact hNull [_, _, _, _, _, _] [] _ _ _ _ _ rfl (untouched_of_apart (by decide)) 1
  · exact hArray [_, _, _, _, _] [_] _ _ _ _ _ _ _ _ rfl (untouched_of_apart (by decide))
      ⟨2, 0⟩ [[1, 2], [3, 4]] (by decide) 2 (.tail _ (.tail _ (.tail _ (.head _)))) (by decide)

end ReadBack

end Arena

end Bytestream
