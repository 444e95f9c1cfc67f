import Bytestream.Proofs.PointerFollowing

/-!
The elements of an array record, taken one after the other or at an index. Whatever the record says, both
ways find the same elements, and they find them if and only if all of the run lies inside the blob. Every
step of a run has the bytes of one element to take, since a run keeps as many bytes as it has elements
left. Elements without bytes are no exception: their number alone says when the run ends.
-/

namespace Bytestream

namespace ElementRun

variable {run rest : ElementRun} {value : Bytes} {count more index : Nat}

/-- A run has the bytes of all the elements that it has left, and no others. -/
def Whole (run : ElementRun) : Prop := run.bytes.length = run.remaining * run.size

/-- The element at `index` of those left. -/
def elementAt (run : ElementRun) (index : Nat) : Bytes :=
  (run.bytes.drop (index * run.size)).take run.size

/-- The run without its first `count` elements. -/
def left (run : ElementRun) (count : Nat) : ElementRun :=
  ⟨run.bytes.drop (count * run.size), run.size, run.remaining - count⟩

theorem left_zero : run.left 0 = run := by
  rw [left, Nat.zero_mul, List.drop_zero, Nat.sub_zero]

theorem left_left : (run.left count).left more = run.left (count + more) := by
  simp only [left, List.drop_drop, Nat.add_mul, Nat.sub_sub]

theorem elementAt_left : (run.left count).elementAt index = run.elementAt (count + index) := by
  simp only [left, elementAt, List.drop_drop, Nat.add_mul]

theorem next?_eq_none_iff : run.next? = none ↔ run.remaining = 0 := by
  rw [next?]
  cases run.remaining with
  | zero => exact iff_of_true rfl rfl
  | succ remaining => exact iff_of_false (Option.some_ne_none _) (Nat.succ_ne_zero _)

theorem next?_of_remaining (hSome : run.remaining ≠ 0) :
    run.next? = some (run.elementAt 0, run.left 1) := by
  obtain ⟨bytes, size, remaining⟩ := run
  cases remaining with
  | zero => exact absurd rfl hSome
  | succ remaining =>
      simp only [next?, elementAt, left, Nat.zero_mul, Nat.one_mul, List.drop_zero, Nat.add_sub_cancel]

theorem Whole.left (hWhole : run.Whole) (count : Nat) : (run.left count).Whole := by
  simp only [Whole] at hWhole
  simp only [Whole, ElementRun.left, List.length_drop, hWhole, Nat.sub_mul]

/-- A step takes the bytes of one element off the front, and the run had them. -/
theorem Whole.next (hWhole : run.Whole) (hNext : run.next? = some (value, rest)) :
    run.bytes = value ++ rest.bytes ∧ value.length = run.size ∧
      run.remaining = rest.remaining + 1 ∧ rest.Whole := by
  have hSome : run.remaining ≠ 0 := by
    intro hNone
    rw [next?_eq_none_iff.mpr hNone] at hNext
    cases hNext
  rw [next?_of_remaining hSome] at hNext
  cases hNext
  obtain ⟨remaining, hRemaining⟩ := Nat.exists_eq_succ_of_ne_zero hSome
  have hRoom : run.size ≤ run.bytes.length := by
    rw [hWhole, hRemaining, Nat.succ_mul]
    exact Nat.le_add_left _ _
  refine ⟨?_, ?_, ?_, hWhole.left 1⟩
  · rw [ElementRun.elementAt, ElementRun.left, Nat.zero_mul, Nat.one_mul, List.drop_zero,
      List.take_append_drop]
  · rw [ElementRun.elementAt, Nat.zero_mul, List.drop_zero, List.length_take_of_le hRoom]
  · exact (Nat.sub_add_cancel (Nat.pos_of_ne_zero hSome)).symm

/-- Steps yield the elements in order, as long as there are any. -/
theorem take_eq (run : ElementRun) (count : Nat) :
    run.take count = ((List.range (min count run.remaining)).map run.elementAt,
      run.left (min count run.remaining)) := by
  induction count generalizing run with
  | zero => rw [take, Nat.zero_min, left_zero, List.range_zero, List.map_nil]
  | succ count ih =>
      rw [take]
      by_cases hNone : run.remaining = 0
      · rw [next?_eq_none_iff.mpr hNone, hNone, Nat.min_zero, left_zero, List.range_zero,
          List.map_nil]
      · have hMin : min (count + 1) run.remaining = min count (run.left 1).remaining + 1 := by
          simp only [left]
          omega
        have hElements : (run.left 1).elementAt = run.elementAt ∘ Nat.succ := by
          funext index
          rw [elementAt_left, Nat.add_comm]
          rfl
        rw [next?_of_remaining hNone, hMin, List.range_succ_eq_map, List.map_cons, List.map_map]
        dsimp only
        rw [ih (run.left 1), left_left, Nat.add_comm 1, hElements]

theorem toList_eq (run : ElementRun) :
    run.toList = (List.range run.remaining).map run.elementAt := by
  rw [toList, take_eq, Nat.min_self]

theorem length_toList (run : ElementRun) : run.toList.length = run.remaining := by
  rw [toList_eq, List.length_map, List.length_range]

theorem getElem?_toList (hIndex : index < run.remaining) :
    run.toList[index]? = some (run.elementAt index) := by
  rw [toList_eq, List.getElem?_map, List.getElem?_range hIndex, Option.map_some]

theorem toList_left (run : ElementRun) (count : Nat) :
    (run.left count).toList = run.toList.drop count := by
  refine List.ext_getElem? fun index => ?_
  have hRemaining : (run.left count).remaining = run.remaining - count := rfl
  rw [List.getElem?_drop]
  rcases Nat.lt_or_ge index (run.remaining - count) with hIndex | hPast
  · rw [getElem?_toList hIndex, getElem?_toList (by omega), elementAt_left]
  · rw [List.getElem?_eq_none, List.getElem?_eq_none] <;> rw [length_toList] <;> omega

/-- What becomes of a run whose elements are taken off one by one. -/
structure Iterates (run : ElementRun) : Prop where
  /-- After any number of steps the elements that are missing have been yielded, and the run says how
  many there are still to come. Whoever goes on from there finds the others, and each step has the
  bytes that it takes. -/
  steps : ∀ count, ∃ rest, run.take count = (run.toList.take count, rest) ∧
    rest.remaining = run.remaining - count ∧ rest.toList = run.toList.drop count ∧
      rest.bytes.length = rest.remaining * run.size
  /-- At the end there is no element, however often one is asked for. -/
  ended : ∀ count, run.remaining ≤ count → (run.take count).2.next? = none

theorem Whole.iterates (hWhole : run.Whole) : run.Iterates where
  steps count := by
    refine ⟨run.left (min count run.remaining), ?_, ?_, ?_, hWhole.left _⟩
    · rw [take_eq, toList_eq, ← List.map_take, List.take_range]
    · simp only [ElementRun.left]
      omega
    · rw [toList_left]
      rcases Nat.le_total count run.remaining with hBefore | hAfter
      · rw [Nat.min_eq_left hBefore]
      · rw [Nat.min_eq_right hAfter, List.drop_of_length_le (Nat.le_of_eq (length_toList run)),
          List.drop_of_length_le (by rw [length_toList]; exact hAfter)]
  ended count hEnd := by
    rw [take_eq, Nat.min_eq_right hEnd]
    exact next?_eq_none_iff.mpr (Nat.sub_self _)

end ElementRun

namespace ArrayRecord

variable {countWidth : Nat} {scalar : Scalar} {stride : Nat}
variable {record : ArrayRecord countWidth scalar stride} {blob : Bytes} {position size : Nat}
variable {first index : Nat} {element : Bytes} {run : ElementRun}

/-- The elements of the record start at `first` and end at a position, not past the last one. -/
def StartsAt (record : ArrayRecord countWidth scalar stride) (position size first : Nat) : Prop :=
  record.elements.LeadsTo (pointerPosition countWidth position) first ∧
    first + record.length * size < positionLimit

/-- There are no elements, or they start somewhere and all of them lie inside the blob. -/
def LiesInside (record : ArrayRecord countWidth scalar stride) (blob : Bytes)
    (position size : Nat) : Prop :=
  record.length = 0 ∨
    ∃ first, record.StartsAt position size first ∧ first + record.length * size ≤ blob.length

theorem range?_eq_some_iff_startsAt {last : Nat} (hSome : record.length ≠ 0) :
    record.range? position size = some (first, last) ↔
      record.StartsAt position size first ∧ last = first + record.length * size := by
  rw [range?_eq_some_iff hSome, Pointer.target?_eq_some_iff, StartsAt, Pointer.LeadsTo]
  constructor
  · rintro ⟨hLeads, rfl, hPosition⟩
    exact ⟨⟨hLeads, hPosition⟩, rfl⟩
  · rintro ⟨⟨hLeads, hPosition⟩, rfl⟩
    exact ⟨hLeads, rfl, hPosition⟩

/-- The elements start at one place only. -/
theorem StartsAt.unique {other : Nat} (hFirst : record.StartsAt position size first)
    (hOther : record.StartsAt position size other) : first = other :=
  Int.ofNat_inj.mp (hFirst.1.2.1.symm.trans hOther.1.2.1)

theorem run_eq_ok_iff_startsAt (hSome : record.length ≠ 0) :
    record.run blob position size = .ok run ↔
      ∃ first, record.StartsAt position size first ∧
        blob.slice? first (record.length * size) = some run.bytes ∧
          run = ⟨run.bytes, size, record.length⟩ := by
  simp only [run_eq_ok_iff_of_position hSome, Pointer.target?_eq_some_iff, StartsAt, Pointer.LeadsTo,
    and_assoc]

theorem run_refused (hRefused : ∀ run, record.run blob position size ≠ .ok run) :
    record.run blob position size = .error .outOfBounds := by
  rw [ArrayRecord.run] at hRefused ⊢
  cases hRange : record.range? position size with
  | none => rfl
  | some range =>
      simp only [hRange] at hRefused ⊢
      split at hRefused
      · exact absurd rfl (hRefused _)
      · rfl

/-- The run of a record is given out if and only if it lies inside. -/
theorem exists_run_iff :
    (∃ run, record.run blob position size = .ok run) ↔ record.LiesInside blob position size := by
  by_cases hNone : record.length = 0
  · exact iff_of_true ⟨_, run_of_length_zero hNone⟩ (.inl hNone)
  · simp only [run_eq_ok_iff_startsAt hNone, LiesInside, hNone, false_or]
    constructor
    · rintro ⟨run, first, hFirst, hSlice, -⟩
      exact ⟨first, hFirst, (Bytes.slice?_eq_some_iff.mp hSlice).1⟩
    · rintro ⟨first, hFirst, hInside⟩
      exact ⟨⟨_, size, record.length⟩, first, hFirst,
        Bytes.slice?_eq_some_iff.mpr ⟨hInside, rfl⟩, rfl⟩

/-- An element of the run ends where the next one starts, and no later than the run. -/
theorem end_of_index (size : Nat) (hIndex : index < record.length) :
    index * size + size ≤ record.length * size := by
  rw [← Nat.succ_mul]
  exact Nat.mul_le_mul_right size hIndex

/-- An element is found at an index if it lies inside itself, and all of them end at a position. -/
theorem get_eq_ok_iff :
    record.get blob position size index = .ok element ↔
      index < record.length ∧ ∃ first, record.StartsAt position size first ∧
        blob.slice? (first + index * size) size = some element := by
  rw [get]
  rcases Nat.lt_or_ge index record.length with hIndex | hPast
  · have hSome : record.length ≠ 0 := Nat.ne_of_gt (Nat.zero_lt_of_lt hIndex)
    rw [if_neg (Nat.not_le_of_gt hIndex)]
    constructor
    · intro hGet
      cases hRange : record.range? position size with
      | none =>
          rw [hRange] at hGet
          cases hGet
      | some range =>
          obtain ⟨hFirst, -⟩ := (range?_eq_some_iff_startsAt hSome).mp hRange
          simp only [hRange] at hGet
          split at hGet
          · rename_i hSlice
            cases hGet
            exact ⟨hIndex, range.1, hFirst, hSlice⟩
          · cases hGet
    · rintro ⟨-, first, hFirst, hSlice⟩
      rw [(range?_eq_some_iff_startsAt hSome).mpr ⟨hFirst, rfl⟩]
      simp only [hSlice]
  · rw [if_pos hPast]
    refine iff_of_false ?_ fun hGet => Nat.not_lt_of_ge hPast hGet.1
    intro hGet
    cases hGet

/-- All elements are found if and only if the run lies inside. The last one decides. -/
theorem forall_get_iff :
    (∀ index < record.length, ∃ element, record.get blob position size index = .ok element) ↔
      record.LiesInside blob position size := by
  simp only [get_eq_ok_iff]
  by_cases hNone : record.length = 0
  · refine iff_of_true ?_ (.inl hNone)
    intro index hIndex
    omega
  · constructor
    · intro hAll
      obtain ⟨element, -, first, hFirst, hSlice⟩ := hAll (record.length - 1) (by omega)
      obtain ⟨last, hLast⟩ := Nat.exists_eq_succ_of_ne_zero hNone
      have hInside := (Bytes.slice?_eq_some_iff.mp hSlice).1
      rw [hLast, Nat.succ_sub_one, Nat.add_assoc, ← Nat.succ_mul, ← hLast] at hInside
      exact .inr ⟨first, hFirst, hInside⟩
    · rintro (hNo | ⟨first, hFirst, hInside⟩) index hIndex
      · exact absurd hNo hNone
      · have hBefore := end_of_index size hIndex
        exact ⟨_, hIndex, first, hFirst, Bytes.slice?_eq_some_iff.mpr ⟨by omega, rfl⟩⟩

/-- The elements of a run are those found at their indexes. -/
theorem get_of_run (hRun : record.run blob position size = .ok run) :
    run.Whole ∧ run.size = size ∧ run.remaining = record.length ∧
      ∀ index < record.length, record.get blob position size index = .ok (run.elementAt index) := by
  by_cases hNone : record.length = 0
  · cases hRun.symm.trans (run_of_length_zero hNone)
    refine ⟨(Nat.zero_mul size).symm, rfl, hNone.symm, ?_⟩
    intro index hIndex
    omega
  · obtain ⟨first, hFirst, hSlice, hShape⟩ := (run_eq_ok_iff_startsAt hNone).mp hRun
    have hLength := Bytes.length_of_slice? hSlice
    generalize run.bytes = bytes at hSlice hShape hLength
    cases hShape
    refine ⟨hLength, rfl, rfl, ?_⟩
    intro index hIndex
    have hElement : bytes.slice? (index * size) size =
        some (ElementRun.elementAt ⟨bytes, size, record.length⟩ index) :=
      Bytes.slice?_eq_some_iff.mpr ⟨hLength ▸ end_of_index size hIndex, rfl⟩
    exact get_eq_ok_iff.mpr ⟨hIndex, first, hFirst, Bytes.slice?_trans hSlice hElement⟩

/-- What is found of a record's elements, one after the other and at an index. -/
structure FoundAlike (record : ArrayRecord countWidth scalar stride) (blob : Bytes)
    (position size : Nat) : Prop where
  /-- There is a run if and only if all of it lies inside. -/
  accepted : (∃ run, record.run blob position size = .ok run) ↔
    record.LiesInside blob position size
  refused : ¬ record.LiesInside blob position size →
    record.run blob position size = .error .outOfBounds
  /-- There is a run if and only if there is an element at each index. -/
  indexed : (∃ run, record.run blob position size = .ok run) ↔
    ∀ index < record.length, ∃ element, record.get blob position size index = .ok element
  past : ∀ index, record.length ≤ index →
    record.get blob position size index = .error .outOfBounds
  /-- The run has as many elements as the record says. -/
  counted : ∀ run, record.run blob position size = .ok run →
    run.remaining = record.length ∧ run.toList.length = record.length
  /-- Each of them is the one found at its index. -/
  same : ∀ run, record.run blob position size = .ok run →
    ∀ index (element : Bytes), run.toList[index]? = some element ↔
      record.get blob position size index = .ok element
  /-- It is the bytes that lie as many elements after the first. -/
  placed : ∀ run, record.run blob position size = .ok run →
    ∀ first, record.StartsAt position size first → ∀ index < record.length,
      run.toList[index]? = blob.slice? (first + index * size) size
  iterates : ∀ run, record.run blob position size = .ok run → run.Iterates

/-- Of any record, in any blob and at any position, and for elements of any size: the run and the
indexes find the same elements, and nothing else does. -/
theorem found_alike (record : ArrayRecord countWidth scalar stride) (blob : Bytes)
    (position size : Nat) : record.FoundAlike blob position size where
  accepted := exists_run_iff
  refused hOutside := run_refused fun run hRun => hOutside (exists_run_iff.mp ⟨run, hRun⟩)
  indexed := exists_run_iff.trans forall_get_iff.symm
  past index hPast := by rw [get, if_pos hPast]
  counted run hRun := by
    obtain ⟨-, -, hRemaining, -⟩ := get_of_run hRun
    exact ⟨hRemaining, run.length_toList.trans hRemaining⟩
  same run hRun index element := by
    obtain ⟨-, -, hRemaining, hGet⟩ := get_of_run hRun
    rcases Nat.lt_or_ge index record.length with hIndex | hPast
    · rw [ElementRun.getElem?_toList (hRemaining ▸ hIndex), hGet index hIndex, Option.some.injEq,
        Except.ok.injEq]
    · have hNone : run.toList[index]? = none := by
        rw [List.getElem?_eq_none]
        rw [ElementRun.length_toList, hRemaining]
        exact hPast
      rw [hNone]
      refine iff_of_false (Option.some_ne_none element).symm fun hFound => ?_
      exact Nat.not_lt_of_ge hPast (get_eq_ok_iff.mp hFound).1
  placed run hRun first hFirst index hIndex := by
    obtain ⟨-, -, hRemaining, hGet⟩ := get_of_run hRun
    obtain ⟨-, other, hOther, hSlice⟩ := get_eq_ok_iff.mp (hGet index hIndex)
    rw [ElementRun.getElem?_toList (hRemaining ▸ hIndex), hFirst.unique hOther, hSlice]
  iterates run hRun := (get_of_run hRun).1.iterates

end ArrayRecord

end Bytestream
