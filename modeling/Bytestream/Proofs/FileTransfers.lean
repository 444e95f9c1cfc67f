import Bytestream.Backend.File
import Bytestream.Proofs.Writing

/-!
What a loop of system calls comes to, whatever the system does. It has moved a front of what it was to
move, it is complete just where it has moved all of that, and it ended otherwise only at a call that
moved nothing or failed. Both transfers of a file are such loops. Where every call moves a byte or may
be made again they come to a single copy.
-/

namespace Bytestream

section Loops

variable {σ : Type} {call : Bytes → σ → Except SystemError Bytes × σ} {wanted : Nat}
variable {Kept : Bytes → σ → Prop} {left : σ → Nat}

/-- What every call keeps that a loop makes: `Kept` relates the bytes moved so far to the state, and
`left` bounds the interruptions to come. -/
structure CallsKeep (call : Bytes → σ → Except SystemError Bytes × σ) (wanted : Nat)
    (Kept : Bytes → σ → Prop) (left : σ → Nat) : Prop where
  moves : ∀ {moved piece : Bytes} {state after : σ}, Kept moved state → moved.length < wanted →
    call moved state = (.ok piece, after) →
      Kept (moved ++ piece) after ∧ (moved ++ piece).length ≤ wanted ∧ left after ≤ left state
  fails : ∀ {moved : Bytes} {error : SystemError} {state after : σ}, Kept moved state →
    moved.length < wanted → call moved state = (.error error, after) →
      Kept moved after ∧ (error.kind = .interrupted → left after < left state)

/-- How a loop can end: with everything moved, or short of that at a call that moved nothing or failed
and was not interrupted. -/
inductive LoopEnded (call : Bytes → σ → Except SystemError Bytes × σ) (wanted : Nat)
    (Kept : Bytes → σ → Prop) : LoopResult σ → Prop where
  | complete {moved : Bytes} {state : σ} (hKept : Kept moved state)
      (hWhole : moved.length = wanted) : LoopEnded call wanted Kept ⟨moved, .complete, state⟩
  | empty {moved : Bytes} {before state : σ} (hBefore : Kept moved before)
      (hKept : Kept moved state) (hShort : moved.length < wanted)
      (hCall : call moved before = (.ok [], state)) :
      LoopEnded call wanted Kept ⟨moved, .empty, state⟩
  | failed {moved : Bytes} {error : SystemError} {before state : σ} (hBefore : Kept moved before)
      (hKept : Kept moved state) (hShort : moved.length < wanted)
      (hError : error.kind ≠ .interrupted) (hCall : call moved before = (.error error, state)) :
      LoopEnded call wanted Kept ⟨moved, .failed error, state⟩

/-- As many rounds as there are bytes to move and interruptions to come are enough for the loop to end
by itself. Every round but the last has one of them less to go. -/
theorem loopEnded_of_callsKeep (hCalls : CallsKeep call wanted Kept left) {rounds : Nat}
    {moved : Bytes} {state : σ} (hKept : Kept moved state) (hMost : moved.length ≤ wanted)
    (hRounds : wanted - moved.length + left state ≤ rounds) :
    LoopEnded call wanted Kept (moveAll call wanted rounds moved state) := by
  induction rounds generalizing moved state with
  | zero => exact .complete hKept (by omega)
  | succ rounds ih =>
      rw [moveAll]
      by_cases hShort : moved.length < wanted
      · rw [if_pos hShort]
        match hCall : call moved state with
        | (.ok [], after) =>
            obtain ⟨hAfter, -⟩ := hCalls.moves hKept hShort hCall
            rw [List.append_nil] at hAfter
            exact .empty hKept hAfter hShort hCall
        | (.ok (byte :: piece), after) =>
            obtain ⟨hAfter, hInside, hLeft⟩ := hCalls.moves hKept hShort hCall
            refine ih hAfter hInside ?_
            rw [List.length_append, List.length_cons]
            omega
        | (.error error, after) =>
            obtain ⟨hAfter, hLeft⟩ := hCalls.fails hKept hShort hCall
            dsimp only
            split
            · rename_i hAgain
              have := hLeft hAgain
              exact ih hAfter hMost (by omega)
            · rename_i hError
              exact .failed hKept hAfter hShort hError hCall
      · rw [if_neg hShort]
        exact .complete hKept (by omega)

variable {result : LoopResult σ}

theorem LoopEnded.kept (hEnded : LoopEnded call wanted Kept result) :
    Kept result.moved result.state := by
  cases hEnded <;> assumption

theorem LoopEnded.most (hEnded : LoopEnded call wanted Kept result) :
    result.moved.length ≤ wanted := by
  cases hEnded with
  | complete _ hWhole => exact Nat.le_of_eq hWhole
  | empty _ _ hShort | failed _ _ hShort => exact Nat.le_of_lt hShort

/-- A loop reports a success just where it moved everything, if no failure of a call is one. -/
theorem LoopEnded.code_eq_success_iff (hEnded : LoopEnded call wanted Kept result)
    {codeOf : SystemErrorKind → Code} (hCodes : ∀ kind, codeOf kind ≠ .success) :
    result.ending.code codeOf = .success ↔ result.moved.length = wanted := by
  cases hEnded with
  | complete _ hWhole => exact iff_of_true rfl hWhole
  | empty _ _ hShort => exact iff_of_false Code.noConfusion (Nat.ne_of_lt hShort)
  | failed _ _ hShort => exact iff_of_false (hCodes _) (Nat.ne_of_lt hShort)

end Loops

namespace SystemCall

/-- The call moves a byte if it can, or may be made again. -/
def GetsOn : SystemCall → Prop
  | atMost count => 0 < count
  | failed error => error.kind = .interrupted

/-- No call to come ends a loop before it has moved all that can be moved. -/
def Smooth (calls : List SystemCall) : Prop := ∀ call ∈ calls, call.GetsOn

theorem smooth_nil : Smooth [] := List.forall_mem_nil _

theorem Smooth.of_suffix {calls later : List SystemCall} (hSmooth : Smooth calls)
    (hLater : later <:+ calls) : Smooth later :=
  fun call hCall => hSmooth call (hLater.subset hCall)

variable {calls : List SystemCall} {asked allowed : Nat} {error : SystemError}

theorem allowed_le (hAllowed : allowance calls asked = .ok allowed) : allowed ≤ asked := by
  match calls, hAllowed with
  | [], rfl => exact Nat.le_refl _
  | atMost count :: _, rfl => exact Nat.min_le_right _ _

theorem allowed_pos (hSmooth : Smooth calls) (hAsked : 0 < asked)
    (hAllowed : allowance calls asked = .ok allowed) : 0 < allowed := by
  match calls, hAllowed with
  | [], rfl => exact hAsked
  | atMost count :: _, rfl =>
      exact Nat.lt_min.mpr ⟨hSmooth (atMost count) List.mem_cons_self, hAsked⟩

/-- A call that fails is one of the schedule, so that there is one less to come. -/
theorem length_tail_lt (hFailed : allowance calls asked = .error error) :
    calls.tail.length < calls.length := by
  match calls, hFailed with
  | failed _ :: later, rfl => exact Nat.lt_succ_self _

theorem interrupted_of_smooth (hSmooth : Smooth calls)
    (hFailed : allowance calls asked = .error error) : error.kind = .interrupted := by
  match calls, hFailed with
  | failed error :: _, rfl => exact hSmooth (failed error) List.mem_cons_self

end SystemCall

/-- What the next call takes from behind a front of some bytes makes a longer front. -/
theorem Bytes.front_append {bytes moved : Bytes} (hFront : moved = bytes.take moved.length)
    (allowed : Nat) :
    moved ++ (bytes.drop moved.length).take allowed =
      bytes.take (moved ++ (bytes.drop moved.length).take allowed).length := by
  have hPiece : (bytes.drop moved.length).take allowed =
      (bytes.drop moved.length).take ((bytes.drop moved.length).take allowed).length := by
    rw [List.length_take, List.take_eq_take_iff]
    omega
  rw [List.length_append, List.take_add, ← hFront, ← hPiece]

/-- A front that is all of what was wanted or all that there is was copied at once. -/
theorem Transfer.copy_of_front {rest moved : Bytes} {count : Nat}
    (hFront : moved = rest.take moved.length) (hMost : moved.length ≤ count)
    (hAll : moved.length < count → rest.length ≤ moved.length) :
    Transfer.copy count rest count =
      ⟨.report moved.length (if moved.length < count then .endOfStream else .success), moved⟩ := by
  have hMoved : rest.take (min count count) = moved := by
    rw [hFront, List.take_eq_take_iff]
    omega
  rw [Transfer.copy, hMoved]

namespace File

variable {file : File} {source : Bytes} {count : Nat}

/-- What one call that reads can do. -/
inductive ReadCall (file : File) (count : Nat) : Except SystemError Bytes → File → Prop where
  | refused (hAccess : file.access.canRead = false) : ReadCall file count (.error refusal) file
  | gave {allowed : Nat} (hAllowed : SystemCall.allowance file.reads count = .ok allowed) :
      ReadCall file count (.ok ((file.bytes.drop file.position).take allowed))
        { file with
          position := file.position + ((file.bytes.drop file.position).take allowed).length
          reads := file.reads.tail }
  | failed {error : SystemError}
      (hFailed : SystemCall.allowance file.reads count = .error error) :
      ReadCall file count (.error error) { file with reads := file.reads.tail }

theorem readCall_of_readOnce {answer : Except SystemError Bytes} {after : File}
    (hCall : file.readOnce count = (answer, after)) : ReadCall file count answer after := by
  rw [readOnce] at hCall
  split at hCall
  · dsimp only at hCall
    split at hCall <;> cases hCall
    · exact .gave ‹_›
    · exact .failed ‹_›
  · cases hCall
    exact .refused (Bool.eq_false_iff.mpr ‹_›)

/-- What one call that writes can do. -/
inductive WriteCall (file : File) (source : Bytes) : Except SystemError Bytes → File → Prop where
  | refused (hAccess : file.access.canWrite = false) : WriteCall file source (.error refusal) file
  | full (hFull : sizeLimit ≤ file.position) : WriteCall file source (.error tooLarge) file
  | took {allowed : Nat} (hBelow : file.position < sizeLimit)
      (hAllowed : SystemCall.allowance file.writes source.length = .ok allowed) :
      WriteCall file source (.ok (source.take (min allowed (sizeLimit - file.position))))
        { file with
          bytes := file.bytes.store file.position
            (source.take (min allowed (sizeLimit - file.position)))
          position :=
            file.position + (source.take (min allowed (sizeLimit - file.position))).length
          writes := file.writes.tail }
  | failed {error : SystemError}
      (hFailed : SystemCall.allowance file.writes source.length = .error error) :
      WriteCall file source (.error error) { file with writes := file.writes.tail }

theorem writeCall_of_writeOnce {answer : Except SystemError Bytes} {after : File}
    (hCall : file.writeOnce source = (answer, after)) : WriteCall file source answer after := by
  rw [writeOnce] at hCall
  split at hCall
  · rename_i hAccess
    cases hCall
    exact .refused (by simpa using hAccess)
  split at hCall
  · cases hCall
    exact .full ‹_›
  dsimp only at hCall
  split at hCall <;> cases hCall
  · exact .took (Nat.lt_of_not_le ‹_›) ‹_›
  · exact .failed ‹_›

/-- A file that has given these bytes since it was `file`, and may have made some of the calls to
come. -/
def HasRead (file : File) (moved : Bytes) (after : File) : Prop :=
  moved = (file.bytes.drop file.position).take moved.length ∧
    ∃ later, later <:+ file.reads ∧
      after = { file with position := file.position + moved.length, reads := later }

/-- A file that has taken these bytes from the front of a source since it was `file`, none of them past
the largest size. -/
def HasWritten (file : File) (source moved : Bytes) (after : File) : Prop :=
  moved = source.take moved.length ∧ moved.length ≤ sizeLimit - file.position ∧
    ∃ later, later <:+ file.writes ∧
      after = { file with
        bytes := file.bytes.store file.position moved
        position := file.position + moved.length
        writes := later }

theorem callsKeep_read (file : File) (count : Nat) :
    CallsKeep (fun (moved : Bytes) (state : File) => state.readOnce (count - moved.length)) count
      file.HasRead (fun state => state.reads.length) where
  moves := by
    rintro moved piece state after ⟨hFront, later, hLater, rfl⟩ hShort hCall
    cases readCall_of_readOnce hCall with
    | @gave allowed hAllowed =>
        have hMost := SystemCall.allowed_le hAllowed
        rw [← List.drop_drop]
        refine ⟨⟨Bytes.front_append hFront allowed, _, (List.tail_suffix later).trans hLater, ?_⟩, ?_,
          (List.tail_suffix later).length_le⟩
        · rw [List.length_append, Nat.add_assoc]
        · rw [List.length_append, List.length_take]
          omega
  fails := by
    rintro moved error state after ⟨hFront, later, hLater, rfl⟩ hShort hCall
    cases readCall_of_readOnce hCall with
    | refused => exact ⟨⟨hFront, later, hLater, rfl⟩, nofun⟩
    | failed hFailed =>
        exact ⟨⟨hFront, _, (List.tail_suffix later).trans hLater, rfl⟩,
          fun _ => SystemCall.length_tail_lt hFailed⟩

theorem callsKeep_write (file : File) (source : Bytes) :
    CallsKeep (fun (moved : Bytes) (state : File) => state.writeOnce (source.drop moved.length))
      source.length (file.HasWritten source) (fun state => state.writes.length) where
  moves := by
    rintro moved piece state after ⟨hFront, hInside, later, hLater, rfl⟩ hShort hCall
    cases writeCall_of_writeOnce hCall with
    | took hBelow hAllowed =>
        change file.position + moved.length < sizeLimit at hBelow
        refine ⟨⟨Bytes.front_append hFront _, ?_, _, (List.tail_suffix later).trans hLater, ?_⟩, ?_,
          (List.tail_suffix later).length_le⟩
        · rw [List.length_append, List.length_take]
          dsimp only
          omega
        · rw [Bytes.store_append, List.length_append, Nat.add_assoc]
        · rw [List.length_append, List.length_take, List.length_drop]
          omega
  fails := by
    rintro moved error state after ⟨hFront, hInside, later, hLater, rfl⟩ hShort hCall
    cases writeCall_of_writeOnce hCall with
    | refused => exact ⟨⟨hFront, hInside, later, hLater, rfl⟩, nofun⟩
    | full => exact ⟨⟨hFront, hInside, later, hLater, rfl⟩, nofun⟩
    | failed hFailed =>
        exact ⟨⟨hFront, hInside, _, (List.tail_suffix later).trans hLater, rfl⟩,
          fun _ => SystemCall.length_tail_lt hFailed⟩

theorem loopEnded_read (file : File) (count : Nat) :
    LoopEnded (fun (moved : Bytes) (state : File) => state.readOnce (count - moved.length)) count
      file.HasRead
      (moveAll (fun (moved : Bytes) (state : File) => state.readOnce (count - moved.length)) count
        (count + file.reads.length) [] file) :=
  loopEnded_of_callsKeep (file.callsKeep_read count) ⟨rfl, _, List.suffix_rfl, rfl⟩
    (Nat.zero_le count) (Nat.le_refl _)

theorem loopEnded_write (file : File) (source : Bytes) :
    LoopEnded (fun (moved : Bytes) (state : File) => state.writeOnce (source.drop moved.length))
      source.length (file.HasWritten source)
      (moveAll (fun (moved : Bytes) (state : File) => state.writeOnce (source.drop moved.length))
        source.length (source.length + file.writes.length) [] file) :=
  loopEnded_of_callsKeep (file.callsKeep_write source)
    ⟨rfl, Nat.zero_le _, _, List.suffix_rfl, rfl⟩ (Nat.zero_le source.length) (Nat.le_refl _)

/-- A read takes a front of what lies behind the position, moves behind it and reports its length,
with a success just where it is all that was asked for. -/
theorem read_takes (file : File) (count : Nat) : ∃ taken code after log,
    file.read count = ⟨⟨.report taken.length code, taken⟩, after, log⟩ ∧ file.HasRead taken after ∧
      taken.length ≤ count ∧ (code = .success ↔ taken.length = count) := by
  have hEnded := file.loopEnded_read count
  exact ⟨_, _, _, _, rfl, hEnded.kept, hEnded.most, hEnded.code_eq_success_iff nofun⟩

/-- Two calls give three bytes around an interruption before a third one fails. -/
example (reason : String) :
    let file : File := {
      bytes := [1, 2, 3, 4, 5]
      reads := [.atMost 2, .failed ⟨.interrupted, reason⟩, .atMost 1, .failed ⟨.other, reason⟩] }
    file.read 4 = ⟨⟨.report 3 .readError, [1, 2, 3]⟩, { file with position := 3, reads := [] },
      [.fileReadFailed 3 reason]⟩ := rfl

/-- A write stores a front of its source at the position, moves behind it and reports its length,
with a success just where it is the whole source. -/
theorem write_puts (file : File) (source : Bytes) : ∃ piece code after log,
    file.write source = ⟨.report piece.length code, after, log⟩ ∧ file.HasWritten source piece after ∧
      piece.length ≤ source.length ∧ (code = .success ↔ piece.length = source.length) := by
  have hEnded := file.loopEnded_write source
  refine ⟨_, _, _, _, rfl, hEnded.kept, hEnded.most, hEnded.code_eq_success_iff fun kind => ?_⟩
  cases kind <;> exact Code.noConfusion

/-- A write to a file that is not open for writing fails at its first call. -/
theorem write_refused (hAccess : file.access.canWrite = false) (hSome : source ≠ []) :
    file.write source =
      ⟨.failed .unknownError, file, [.fileWriteFailed 0 FileAccess.refusal]⟩ := by
  obtain ⟨byte, rest, rfl⟩ := List.exists_cons_of_ne_nil hSome
  rw [write, List.length_cons, Nat.add_right_comm, moveAll]
  simp only [writeOnce, hAccess]
  rfl

/-- Where the system gets on with every call, a read is a single copy: the loop ends short only at
the end of the bytes. -/
theorem read_copies (hAccess : file.access.canRead = true) (hSmooth : SystemCall.Smooth file.reads)
    (count : Nat) : ∃ later, later <:+ file.reads ∧
      file.read count = ⟨.copy count (file.bytes.drop file.position) count, { file with
        position := file.position +
          (Transfer.copy count (file.bytes.drop file.position) count).bytes.length
        reads := later }, []⟩ := by
  have hEnded := file.loopEnded_read count
  rw [read]
  generalize moveAll _ count _ [] file = result at hEnded
  cases hEnded with
  | complete hKept hWhole =>
      obtain ⟨hFront, later, hLater, rfl⟩ := hKept
      rw [Transfer.copy_of_front hFront (Nat.le_of_eq hWhole) (by omega), if_neg (by omega)]
      exact ⟨later, hLater, rfl⟩
  | @empty moved before state hBefore hKept hShort hCall =>
      obtain ⟨-, waiting, hWaiting, rfl⟩ := hBefore
      have hEnd : (file.bytes.drop file.position).length ≤ moved.length := by
        generalize hNone : ([] : Bytes) = nothing at hCall
        cases readCall_of_readOnce hCall with
        | gave hAllowed =>
            have hPos := SystemCall.allowed_pos (hSmooth.of_suffix hWaiting) (by omega) hAllowed
            have hLength := congrArg List.length hNone
            simp only [List.length_take, List.length_drop, List.length_nil] at hLength
            rw [List.length_drop]
            omega
      obtain ⟨hFront, later, hLater, rfl⟩ := hKept
      rw [Transfer.copy_of_front hFront (Nat.le_of_lt hShort) fun _ => hEnd, if_pos hShort]
      exact ⟨later, hLater, rfl⟩
  | @failed moved error before state hBefore hKept hShort hError hCall =>
      obtain ⟨-, waiting, hWaiting, rfl⟩ := hBefore
      cases readCall_of_readOnce hCall with
      | refused hLocked => exact nomatch hLocked.symm.trans hAccess
      | failed hFailed =>
          exact absurd (SystemCall.interrupted_of_smooth (hSmooth.of_suffix hWaiting) hFailed) hError

/-- Where the system gets on with every call, a write stores what fits below the largest size: the
loop ends short only where no file can have a byte. -/
theorem write_fills (hAccess : file.access.canWrite = true)
    (hSmooth : SystemCall.Smooth file.writes) (source : Bytes) :
    ∃ piece later, piece = source.take (sizeLimit - file.position) ∧ later <:+ file.writes ∧
      file.write source =
        ⟨.report piece.length (if piece.length < source.length then .unknownError else .success),
          { file with
            bytes := file.bytes.store file.position piece
            position := file.position + piece.length
            writes := later },
          if piece.length < source.length then [.fileWriteFailed piece.length tooLarge.reason]
          else []⟩ := by
  have hEnded := file.loopEnded_write source
  rw [write]
  generalize moveAll _ source.length _ [] file = result at hEnded
  cases hEnded with
  | @complete moved state hKept hWhole =>
      obtain ⟨hFront, hInside, later, hLater, rfl⟩ := hKept
      refine ⟨moved, later, ?_, hLater, by rw [if_neg (by omega), if_neg (by omega)]; rfl⟩
      rw [hFront, List.take_eq_take_iff]
      omega
  | @empty moved before state hBefore hKept hShort hCall =>
      obtain ⟨-, -, waiting, hWaiting, rfl⟩ := hBefore
      generalize hNone : ([] : Bytes) = nothing at hCall
      cases writeCall_of_writeOnce hCall with
      | took hBelow hAllowed =>
          have hLeft : 0 < (source.drop moved.length).length := by
            rw [List.length_drop]
            omega
          have hPos := SystemCall.allowed_pos (hSmooth.of_suffix hWaiting) hLeft hAllowed
          have hLength := congrArg List.length hNone
          rw [List.length_take, List.length_nil] at hLength
          omega
  | @failed moved error before state hBefore hKept hShort hError hCall =>
      obtain ⟨-, -, waiting, hWaiting, rfl⟩ := hBefore
      cases writeCall_of_writeOnce hCall with
      | refused hLocked => exact nomatch hLocked.symm.trans hAccess
      | full hFull =>
          change sizeLimit ≤ file.position + moved.length at hFull
          obtain ⟨hFront, hInside, -⟩ := hKept
          refine ⟨moved, waiting, ?_, hWaiting, by rw [if_pos hShort, if_pos hShort]; rfl⟩
          rw [hFront, List.take_eq_take_iff]
          omega
      | failed hFailed =>
          exact absurd (SystemCall.interrupted_of_smooth (hSmooth.of_suffix hWaiting) hFailed) hError

/-- It stores the whole source where that has room. -/
theorem write_completes (hAccess : file.access.canWrite = true)
    (hSmooth : SystemCall.Smooth file.writes) (hFits : file.position + source.length ≤ sizeLimit) :
    ∃ later, later <:+ file.writes ∧
      file.write source = ⟨.done source.length, { file with
        bytes := file.bytes.store file.position source
        position := file.position + source.length
        writes := later }, []⟩ := by
  obtain ⟨piece, later, hPiece, hLater, hWrite⟩ := write_fills hAccess hSmooth source
  rw [List.take_of_length_le (by omega)] at hPiece
  subst hPiece
  rw [if_neg (Nat.lt_irrefl _), if_neg (Nat.lt_irrefl _)] at hWrite
  exact ⟨later, hLater, hWrite⟩

end File

end Bytestream
