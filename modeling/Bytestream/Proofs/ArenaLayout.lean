import Bytestream.Proofs.BlobBuilding
import Bytestream.Proofs.LeastPadding

/-!
Where a build of a blob puts what it appends. Every step that appends leaves a gap of zeros up to the
next multiple of its alignment, and nothing more. What is appended so lies in the order of the steps,
side by side but for the gaps, and stays as it was appended.
-/

namespace Bytestream

/-- The position is the first multiple of `alignment` that is not in front of `length`. -/
structure LeastMultiple (alignment length position : Nat) : Prop where
  dvd : alignment ∣ position
  length_le : length ≤ position
  least : ∀ other, alignment ∣ other → length ≤ other → position ≤ other

namespace Blob

/-- The next multiple of `alignment`, from `length` on. -/
def ceiling (alignment length : Nat) : Nat :=
  length + (alignment - length % alignment) % alignment

theorem le_ceiling (alignment length : Nat) : length ≤ ceiling alignment length :=
  Nat.le_add_right _ _

theorem leastMultiple_ceiling {alignment : Nat} (hPositive : 0 < alignment) (length : Nat) :
    LeastMultiple alignment length (ceiling alignment length) := by
  have hRest := Nat.mod_lt length hPositive
  have hGap := Nat.mod_lt (alignment - length % alignment) hPositive
  have hMultiple : alignment ∣ ceiling alignment length := by
    apply Nat.dvd_of_mod_eq_zero
    rw [ceiling, Nat.add_mod_mod, ← Nat.mod_add_mod, Nat.add_sub_cancel' (Nat.le_of_lt hRest),
      Nat.mod_self]
  refine ⟨hMultiple, le_ceiling alignment length, fun other hOther hBehind => ?_⟩
  -- A multiple in front of it would be at least `alignment` before it, and then before `length`.
  apply Nat.le_of_not_lt
  intro hBefore
  have hStep := Nat.le_of_dvd (Nat.sub_pos_of_lt hBefore) (Nat.dvd_sub hMultiple hOther)
  rw [ceiling] at hStep hBefore
  omega

section Powers

variable {exponent : Nat}

theorem isPowerOfTwo_shiftLeft (exponent : Nat) : isPowerOfTwo (1 <<< exponent) = true := by
  have hSome := Nat.two_pow_pos exponent
  rw [isPowerOfTwo, Nat.one_shiftLeft, Nat.and_two_pow_sub_one_eq_mod, Nat.mod_self]
  simp

/-- The masked negation is the gap up to the next multiple, since both are the least. -/
theorem add_padding {length : Nat} (hExponent : exponent < 64) (hLength : length < offsetLimit) :
    length + (padding (BitVec.ofNat _ length) (BitVec.ofNat _ (1 <<< exponent))).toNat =
      ceiling (1 <<< exponent) length := by
  have hValue : (BitVec.ofNat (8 * 8) length).toNat = length :=
    Nat.mod_eq_of_lt (Nat.lt_trans hLength (by decide : offsetLimit < 2 ^ 64))
  have hAlignment : (BitVec.ofNat (8 * 8) (1 <<< exponent)).toNat = 1 <<< exponent := by
    rw [BitVec.toNat_ofNat, Nat.one_shiftLeft]
    exact Nat.mod_eq_of_lt (Nat.pow_lt_pow_right (by decide) hExponent)
  have hPower : isPowerOfTwo (BitVec.ofNat (8 * 8) (1 <<< exponent)).toNat = true := by
    rw [hAlignment]
    exact isPowerOfTwo_shiftLeft exponent
  have hSome : 0 < 1 <<< exponent := by
    rw [Nat.one_shiftLeft]
    exact Nat.two_pow_pos exponent
  have hCeiling := leastMultiple_ceiling hSome length
  have hGap : 1 <<< exponent ∣ length + (ceiling (1 <<< exponent) length - length) := by
    rw [Nat.add_sub_cancel' hCeiling.length_le]
    exact hCeiling.dvd
  have hDvd := dvd_add_padding hPower (BitVec.ofNat _ length)
  have hLess : (padding (BitVec.ofNat _ length) (BitVec.ofNat _ (1 <<< exponent))).toNat ≤
      ceiling (1 <<< exponent) length - length :=
    padding_le_of_dvd hPower (by rwa [hAlignment, hValue])
  rw [hAlignment, hValue] at hDvd
  have hLeast := hCeiling.least _ hDvd (Nat.le_add_right _ _)
  have hBehind := hCeiling.length_le
  omega

end Powers

end Blob

namespace Arena

open Bytestream.Blob (ceiling le_ceiling leastMultiple_ceiling)

/-- The blob with zeros up to a multiple of `alignment` and the content behind them. -/
def extended (blob : Bytes) (alignment : Nat) (content : Bytes) : Bytes :=
  blob ++ List.replicate (ceiling alignment blob.length - blob.length) 0 ++ content

@[simp] theorem length_extended (blob : Bytes) (alignment : Nat) (content : Bytes) :
    (extended blob alignment content).length = ceiling alignment blob.length + content.length := by
  have hBehind := le_ceiling alignment blob.length
  rw [extended, List.length_append, List.length_append, List.length_replicate,
    Nat.add_sub_cancel' hBehind]

theorem prefix_extended (blob : Bytes) (alignment : Nat) (content : Bytes) :
    blob <+: extended blob alignment content := by
  rw [extended, List.append_assoc]
  exact List.prefix_append _ _

section Steps

variable {blob : Bytes} {exponent : Nat}

theorem result_pad (hExponent : exponent < 64)
    (hFits : ceiling (1 <<< exponent) blob.length < offsetLimit) :
    (pad (1 <<< exponent)).result blob =
      (.ok (ceiling (1 <<< exponent) blob.length), extended blob (1 <<< exponent) []) := by
  have hBehind := le_ceiling (1 <<< exponent) blob.length
  have hPadding := Blob.add_padding hExponent (Nat.lt_of_le_of_lt hBehind hFits)
  rw [pad, Action.result_bind_of_ok (Action.result_state blob), extended, ← hPadding,
    Nat.add_sub_cancel_left, List.append_nil]
  dsimp only
  rw [Action.result_bind, result_appendZeros, if_pos (hPadding ▸ hFits)]
  rfl

theorem result_align (hExponent : exponent < 64)
    (hFits : ceiling (1 <<< exponent) blob.length < offsetLimit) :
    (align (1 <<< exponent)).result blob =
      (.ok (ceiling (1 <<< exponent) blob.length), extended blob (1 <<< exponent) []) := by
  rw [align, if_pos (Blob.isPowerOfTwo_shiftLeft exponent), result_pad hExponent hFits]

theorem result_alloc (hExponent : exponent < 64) {size : Nat}
    (hFits : ceiling (1 <<< exponent) blob.length + size < offsetLimit) :
    (alloc size (1 <<< exponent)).result blob =
      (.ok (ceiling (1 <<< exponent) blob.length),
        extended blob (1 <<< exponent) (List.replicate size 0)) := by
  have hAligned := result_align hExponent (Nat.lt_of_le_of_lt (Nat.le_add_right _ size) hFits)
  have hRoom : (extended blob (1 <<< exponent) []).length + size < offsetLimit := by
    rwa [length_extended]
  rw [alloc, Action.result_bind_of_ok hAligned, Action.result_bind, result_appendZeros,
    if_pos hRoom, extended, List.append_nil]
  rfl

theorem result_pushAll {element : Element} (hExponent : element.alignmentExponent < 64)
    (hFits : ceiling element.alignment blob.length < offsetLimit) (values : List Bytes) :
    (pushAll element values).result blob =
      (.ok (ceiling element.alignment blob.length),
        extended blob element.alignment values.flatten) := by
  have hPadded := result_pad hExponent hFits
  rw [pushAll, Element.alignment, Action.result_bind_of_ok hPadded, extended, List.append_nil]
  rfl

end Steps

namespace Step

/-- What a step appends, and the alignment that it appends it at. A step that overwrites appends
nothing, not even a gap. -/
def appended? : Step → Option (Nat × Bytes)
  | align alignment => some (alignment, [])
  | alloc size alignment => some (alignment, List.replicate size 0)
  | pushAll element values _ => some (element.alignment, values.flatten)
  | patch _ _ _ | writePointer _ _ _ _ | writeArray _ _ _ _ _ _ => none

/-- The step appends at an alignment that is a power of two. -/
def Appends (step : Step) : Prop :=
  ∃ exponent content, exponent < 64 ∧ step.appended? = some (1 <<< exponent, content)

/-- How long a blob of this length is after the step. -/
def finish (step : Step) (length : Nat) : Nat :=
  match step.appended? with
  | some (alignment, content) => ceiling alignment length + content.length
  | none => length

theorem le_finish (step : Step) (length : Nat) : length ≤ step.finish length := by
  rw [finish]
  split
  · exact Nat.le_trans (le_ceiling _ length) (Nat.le_add_right _ _)
  · exact Nat.le_refl length

/-- A step that appends leaves the gap, puts its content behind it, and answers where that is. -/
theorem perform_appends {step : Step} {blob content : Bytes} {exponent : Nat}
    (hAppends : step.appended? = some (1 <<< exponent, content)) (hExponent : exponent < 64)
    (hFits : step.finish blob.length < offsetLimit) :
    step.perform.result blob =
      (.ok (ceiling (1 <<< exponent) blob.length), extended blob (1 <<< exponent) content) := by
  rw [finish, hAppends] at hFits
  dsimp only at hFits
  have hGap := Nat.lt_of_le_of_lt (Nat.le_add_right _ content.length) hFits
  cases step with
  | align alignment =>
      cases hAppends
      exact result_align hExponent hGap
  | alloc size alignment =>
      cases hAppends
      rw [List.length_replicate] at hFits
      exact result_alloc hExponent hFits
  | pushAll element values hSizes =>
      obtain ⟨hAlignment, rfl⟩ : element.alignment = 1 <<< exponent ∧ values.flatten = content := by
        simpa [appended?] using hAppends
      have hSame : element.alignmentExponent = exponent := by
        rw [Element.alignment, Nat.one_shiftLeft, Nat.one_shiftLeft] at hAlignment
        exact (Nat.pow_right_inj (by decide)).mp hAlignment
      subst hSame
      exact result_pushAll hExponent hGap values
  | patch => cases hAppends
  | writePointer => cases hAppends
  | writeArray => cases hAppends

end Step

/-- How long a blob of this length is after the steps. -/
def finish (steps : List Step) (length : Nat) : Nat :=
  steps.foldl (fun reached step => step.finish reached) length

theorem le_finish (steps : List Step) (length : Nat) : length ≤ finish steps length := by
  induction steps generalizing length with
  | nil => exact Nat.le_refl length
  | cons step steps ih => exact Nat.le_trans (step.le_finish length) (ih _)

theorem finish_append (past later : List Step) (length : Nat) :
    finish (past ++ later) length = finish later (finish past length) :=
  List.foldl_append

/-- What was done from one blob to another by steps that each left a gap and appended their
content. -/
inductive Lays : Bytes → List Performed → Bytes → Prop
  | done (blob : Bytes) : Lays blob [] blob
  | step {blob after content : Bytes} {step : Step} {alignment : Nat} {later : List Performed}
      (hAppends : step.appended? = some (alignment, content)) (hPositive : 0 < alignment)
      (hLater : Lays (extended blob alignment content) later after) :
      Lays blob (⟨step, blob.length, .ok (ceiling alignment blob.length)⟩ :: later) after

/-- Steps that append go through as long as the blob does not become too long. -/
theorem build_lays {steps : List Step} {blob : Bytes} (hAppends : ∀ step ∈ steps, step.Appends)
    (hFits : finish steps blob.length < offsetLimit) :
    ∃ events after, (build steps).result blob = (.ok events, after) ∧
      events.map Performed.step = steps ∧ Lays blob events after ∧
      after.length = finish steps blob.length := by
  induction steps generalizing blob with
  | nil => exact ⟨[], blob, rfl, rfl, .done blob, rfl⟩
  | cons step steps ih =>
      obtain ⟨⟨exponent, content, hExponent, hStep⟩, hLater⟩ := List.forall_mem_cons.mp hAppends
      have hReached : step.finish blob.length = (extended blob (1 <<< exponent) content).length := by
        rw [Step.finish, hStep, length_extended]
      have hFinish : finish (step :: steps) blob.length =
          finish steps (extended blob (1 <<< exponent) content).length := by
        rw [← hReached]
        rfl
      rw [hFinish] at hFits ⊢
      have hRoom : step.finish blob.length < offsetLimit := by
        rw [hReached]
        exact Nat.lt_of_le_of_lt (le_finish steps _) hFits
      obtain ⟨events, after, hRun, hSteps, hLays, hLength⟩ := ih hLater hFits
      have hFirst := Action.result_attempt_of_ok (Step.perform_appends hStep hExponent hRoom)
      refine ⟨_ :: events, after, ?_, by rw [List.map_cons, hSteps], .step hStep ?_ hLays, hLength⟩
      · rw [build, Action.result_bind_of_ok (Action.result_state blob),
          Action.result_bind_of_ok hFirst, Action.result_bind_of_ok hRun, Action.result_pure]
      · rw [Nat.one_shiftLeft]
        exact Nat.two_pow_pos exponent

/-- Building is done in parts as at once. -/
theorem build_append {past later : List Step} {blob middle after : Bytes}
    {done rest : List Performed} (hPast : (build past).result blob = (.ok done, middle))
    (hLater : (build later).result middle = (.ok rest, after)) :
    (build (past ++ later)).result blob = (.ok (done ++ rest), after) := by
  induction past generalizing blob done with
  | nil =>
      cases hPast
      exact hLater
  | cons step past ih =>
      rw [build, Action.result_bind_of_ok (Action.result_state blob)] at hPast
      obtain ⟨answer, reached, hAttempt, hRest⟩ := Action.ok_of_bind hPast
      obtain ⟨events, last, hEvents, hDone⟩ := Action.ok_of_bind hRest
      cases hDone
      rw [List.cons_append, build, Action.result_bind_of_ok (Action.result_state blob),
        Action.result_bind_of_ok hAttempt, Action.result_bind_of_ok (ih hEvents), Action.result_pure]
      rfl

namespace Performed

/-- The step appended this content at this position. -/
structure Appended (performed : Performed) (alignment : Nat) (content : Bytes) (position : Nat) :
    Prop where
  step_eq : performed.step.appended? = some (alignment, content)
  answer_eq : performed.answer = .ok position

/-- The step appended its content at the first aligned position behind what there was. In the end the
gap in front of it is zero, and the content is as it was appended. -/
structure LaidOut (performed : Performed) (after : Bytes) (alignment : Nat) (content : Bytes)
    (position : Nat) : Prop extends performed.Appended alignment content position where
  least : LeastMultiple alignment performed.length position
  padded : ∀ index, performed.length ≤ index → index < position → after[index]? = some 0
  stored : after.slice? position content.length = some content

theorem Appended.unique {performed : Performed} {alignment other position place : Nat}
    {content piece : Bytes} (hAppended : performed.Appended alignment content position)
    (hOther : performed.Appended other piece place) : content = piece ∧ position = place := by
  obtain ⟨hStep, hAnswer⟩ := hAppended
  rw [hOther.step_eq] at hStep
  rw [hOther.answer_eq] at hAnswer
  cases hStep
  cases hAnswer
  exact ⟨rfl, rfl⟩

end Performed

namespace Lays

variable {blob after : Bytes} {events : List Performed}

theorem before (hLays : Lays blob events after) : blob <+: after := by
  induction hLays with
  | done => exact List.prefix_rfl
  | step hAppends hPositive hLater ih => exact (prefix_extended _ _ _).trans ih

/-- Nothing is appended in front of where a blob ends. -/
theorem length_le (hLays : Lays blob events after) : ∀ event ∈ events, blob.length ≤ event.length := by
  induction hLays with
  | done => nofun
  | @step blob after content step alignment later hAppends hPositive hLater ih =>
      rw [List.forall_mem_cons]
      refine ⟨Nat.le_refl _, fun event hEvent => ?_⟩
      exact Nat.le_trans (prefix_extended blob alignment content).length_le (ih event hEvent)

/-- The first step has put its content into what there is in the end. -/
theorem laidOut_first {content : Bytes} {step : Step} {alignment : Nat}
    (hAppends : step.appended? = some (alignment, content)) (hPositive : 0 < alignment)
    (hBefore : extended blob alignment content <+: after) :
    Performed.LaidOut ⟨step, blob.length, .ok (ceiling alignment blob.length)⟩ after alignment content
      (ceiling alignment blob.length) := by
  obtain ⟨rest, rfl⟩ := hBefore
  have hBehind := le_ceiling alignment blob.length
  have hFront : (blob ++ List.replicate (ceiling alignment blob.length - blob.length) (0 : UInt8)).length =
      ceiling alignment blob.length := by
    rw [List.length_append, List.length_replicate, Nat.add_sub_cancel' hBehind]
  refine ⟨⟨hAppends, rfl⟩, leastMultiple_ceiling hPositive _,
    fun index (hFirst : blob.length ≤ index) hLast => ?_, ?_⟩
  · rw [extended, List.append_assoc _ content, List.getElem?_append_left (by omega),
      List.getElem?_append_right hFirst, List.getElem?_replicate_of_lt (by omega)]
  · refine Bytes.slice?_eq_some_iff.mpr ⟨?_, ?_⟩
    · rw [List.length_append, length_extended]
      omega
    · rw [extended, List.append_assoc _ content, List.drop_left' hFront, List.take_left]

theorem laidOut (hLays : Lays blob events after) : ∀ event ∈ events,
    ∃ alignment content position, event.LaidOut after alignment content position := by
  induction hLays with
  | done => nofun
  | step hAppends hPositive hLater ih =>
      rw [List.forall_mem_cons]
      exact ⟨⟨_, _, _, laidOut_first hAppends hPositive hLater.before⟩, ih⟩

/-- Later steps begin where the earlier ones ended, or behind. -/
theorem ordered (hLays : Lays blob events after) :
    events.Pairwise fun earlier later => ∀ alignment content position,
      earlier.Appended alignment content position → position + content.length ≤ later.length := by
  induction hLays with
  | done => exact .nil
  | step hAppends hPositive hLater ih =>
      refine .cons (fun later hMember alignment content position hAppended => ?_) ih
      obtain ⟨rfl, rfl⟩ := hAppended.unique ⟨hAppends, rfl⟩
      have hBehind := hLater.length_le later hMember
      rwa [length_extended] at hBehind

/-- A blob ends where its last step did. -/
theorem length_eq (hLays : Lays blob events after) : ∀ event ∈ events.getLast?,
    ∀ alignment content position, event.Appended alignment content position →
      after.length = position + content.length := by
  induction hLays with
  | done => nofun
  | step hAppends hPositive hLater ih =>
      cases hLater with
      | done =>
          rintro event hLast alignment content position hAppended
          cases hLast
          obtain ⟨rfl, rfl⟩ := hAppended.unique ⟨hAppends, rfl⟩
          exact length_extended _ _ _
      | step => exact ih

end Lays

/-- A build that only appends lays its regions out in the order of its steps. `Appended` says which
content a step has put where, and `LaidOut` what surrounds it in the end. -/
structure Layout (blob : Bytes) (events : List Performed) (after : Bytes) : Prop where
  laidOut : ∀ event ∈ events,
    ∃ alignment content position, event.LaidOut after alignment content position
  ordered : events.Pairwise fun earlier later => ∀ alignment content position,
    earlier.Appended alignment content position → position + content.length ≤ later.length
  length_eq : ∀ event ∈ events.getLast?, ∀ alignment content position,
    event.Appended alignment content position → after.length = position + content.length
  before : blob <+: after
  reserved : ∀ size alignment length position,
    ⟨.alloc size alignment, length, .ok position⟩ ∈ events →
      ∀ index, position ≤ index → index < position + size → after[index]? = some 0
  read : ∀ element values hSizes length position,
    ⟨.pushAll element values hSizes, length, .ok position⟩ ∈ events →
      ∀ (index : Nat) (value : Bytes), values[index]? = some value →
        Blob.read after (position + index * element.size) element.size = .ok value

theorem Lays.layout {blob after : Bytes} {events : List Performed}
    (hLays : Lays blob events after) : Layout blob events after where
  laidOut := hLays.laidOut
  ordered := hLays.ordered
  length_eq := hLays.length_eq
  before := hLays.before
  reserved size alignment length position hEvent index hFirst hLast := by
    obtain ⟨_, content, place, hLaidOut⟩ := hLays.laidOut _ hEvent
    obtain ⟨rfl, rfl⟩ : content = List.replicate size 0 ∧ place = position :=
      hLaidOut.toAppended.unique ⟨rfl, rfl⟩
    obtain ⟨_, hZeros⟩ := Bytes.slice?_eq_some_iff.mp hLaidOut.stored
    rw [List.length_replicate] at hZeros
    have hByte : ((after.drop place).take size)[index - place]? = some 0 := by
      rw [hZeros, List.getElem?_replicate_of_lt (by omega)]
    rwa [List.getElem?_take_of_lt (by omega), List.getElem?_drop, Nat.add_sub_cancel' hFirst]
      at hByte
  read element values hSizes length position hEvent index value hValue := by
    obtain ⟨alignment, content, place, hLaidOut⟩ := hLays.laidOut _ hEvent
    obtain ⟨rfl, rfl⟩ : content = values.flatten ∧ place = position :=
      hLaidOut.toAppended.unique ⟨rfl, rfl⟩
    have hSlice := Bytes.slice?_trans hLaidOut.stored (Bytes.slice?_flatten_getElem hSizes hValue)
    rw [Blob.read, hSlice]

/-- Steps that append at powers of two, and whose blob does not become too long, all go through.
They hand out aligned regions one behind the other with zeros between them, and wherever the steps
are cut in two, the second part leaves everything from the first as it was. -/
theorem build_lays_out {steps : List Step} {blob : Bytes} (hAppends : ∀ step ∈ steps, step.Appends)
    (hFits : finish steps blob.length < offsetLimit) :
    ∃ events after, (build steps).result blob = (.ok events, after) ∧
      events.map Performed.step = steps ∧ after.length = finish steps blob.length ∧
      Layout blob events after ∧
      ∀ past later, steps = past ++ later →
        ∃ done rest middle, (build past).result blob = (.ok done, middle) ∧
          (build later).result middle = (.ok rest, after) ∧ events = done ++ rest ∧
          Layout blob done middle ∧ Layout middle rest after := by
  obtain ⟨events, after, hRun, hSteps, hLays, hLength⟩ := build_lays hAppends hFits
  refine ⟨events, after, hRun, hSteps, hLength, hLays.layout, ?_⟩
  rintro past later rfl
  rw [List.forall_mem_append] at hAppends
  rw [finish_append] at hFits
  have hPastFits := Nat.lt_of_le_of_lt (le_finish later _) hFits
  obtain ⟨done, middle, hDone, _, hDoneLays, hMiddle⟩ := build_lays hAppends.1 hPastFits
  rw [← hMiddle] at hFits
  obtain ⟨rest, last, hRest, _, hRestLays, _⟩ := build_lays hAppends.2 hFits
  have hWhole := build_append hDone hRest
  rw [hRun] at hWhole
  cases hWhole
  exact ⟨done, rest, middle, hDone, hRest, rfl, hDoneLays.layout, hRestLays.layout⟩

/-- Steps of all kinds behind three bytes. The last one reserves nothing, but its gap is left. -/
theorem build_lays_out_behind_content :
    let pushed : Step := .push ⟨1, 0⟩ [9] rfl
    let pushedAll : Step := .pushAll ⟨2, 1⟩ [[1, 2], [3, 4]] (by decide)
    let steps : List Step := [.align 2, pushed, .alloc 2 4, pushedAll, .alloc 0 8]
    let events : List Performed := [⟨.align 2, 3, .ok 4⟩, ⟨pushed, 4, .ok 4⟩, ⟨.alloc 2 4, 5, .ok 8⟩,
      ⟨pushedAll, 10, .ok 10⟩, ⟨.alloc 0 8, 14, .ok 16⟩]
    let blob : Bytes := [7, 7, 7, 0, 9, 0, 0, 0, 0, 0, 1, 2, 3, 4, 0, 0]
    (∀ step ∈ steps, step.Appends) ∧ finish steps 3 < offsetLimit ∧
      (build steps).result [7, 7, 7] = (.ok events, blob) ∧ Layout [7, 7, 7] events blob ∧
        Blob.read blob (10 + 1 * 2) 2 = .ok [3, 4] := by
  intro pushed pushedAll steps events blob
  have hAppends : ∀ step ∈ steps, step.Appends := by
    simp only [steps, List.forall_mem_cons]
    exact ⟨⟨1, _, by decide, rfl⟩, ⟨0, _, by decide, rfl⟩, ⟨2, _, by decide, rfl⟩,
      ⟨1, _, by decide, rfl⟩, ⟨3, _, by decide, rfl⟩, nofun⟩
  have hFits : finish steps 3 < offsetLimit := by decide
  have hBuild : (build steps).result [7, 7, 7] = (.ok events, blob) := rfl
  obtain ⟨done, after, hRun, _, _, hLayout, _⟩ := @build_lays_out steps [7, 7, 7] hAppends hFits
  rw [hBuild] at hRun
  cases hRun
  refine ⟨hAppends, hFits, hBuild, hLayout, ?_⟩
  exact hLayout.read ⟨2, 1⟩ [[1, 2], [3, 4]] (by decide) 10 10
    (.tail _ (.tail _ (.tail _ (.head _)))) 1 [3, 4] rfl

end Arena

end Bytestream
