import Bytestream.Backend

/-!
A backend that answers from a script and records the calls that reach it. With it a stream can be
shown any answer, also one that no honest backend would give.
-/

namespace Bytestream

/-- A change to a window record: first new bounds, then a new cursor. -/
structure WindowEdit where
  bounds : Option (Nat × Nat) := none
  cursor : Option Nat := none

/-- The window after the edit. A fault keeps the part of the edit that came before it. -/
def WindowEdit.apply (edit : WindowEdit) (window : Window) : Window × Except Fault Unit :=
  match edit.bounds.elim (.ok window) (fun (start, stop) => Window.between start stop) with
  | .error fault => (window, .error fault)
  | .ok bounded =>
      match edit.cursor.elim (.ok bounded) bounded.setCursor with
      | .error fault => (bounded, .error fault)
      | .ok moved => (moved, .ok ())

/-- One scripted answer. Each operation uses the parts that its result has. -/
structure ScriptEntry where
  value : Nat := 0
  code : Code := .success
  bytes : Bytes := []
  edit : WindowEdit := {}

/-- The outcome that an entry reports. -/
def ScriptEntry.outcome (entry : ScriptEntry) : Outcome := .report entry.value entry.code

/-- The answers to the calls of one operation, in order. The last one is given again and again. -/
abbrev Script := List ScriptEntry

/-- The answer to the next call and the script for the calls after it. -/
def Script.next : Script → Option ScriptEntry × Script
  | [] => (none, [])
  | [entry] => (some entry, [entry])
  | entry :: later => (some entry, later)

/-- A call that reached the backend. -/
inductive BackendCall where
  | size
  | read (count : Nat)
  | write (bytes : Bytes)
  | seek (offset : Int) (origin : Origin)
  | close
  | refill
deriving DecidableEq

/-- A call with its arguments as text. -/
def BackendCall.describe : BackendCall → String
  | size => "size"
  | read count => s!"read {count}"
  | write bytes => "write " ++ bytes.toHex
  | seek offset origin => s!"seek {offset} {origin.number}"
  | close => "close"
  | refill => "refill"

/-- A backend with a script for each operation. -/
structure Scripted where
  advertised : Capabilities
  buffer : Bytes
  initial : WindowEdit := {}
  sizes : Script := []
  reads : Script := []
  writes : Script := []
  seeks : Script := []
  closes : Script := []
  refills : Script := []
  /-- The calls so far, the latest first. -/
  calls : List BackendCall := []

namespace Scripted

/-- Notes a call. -/
def note (backend : Scripted) (call : BackendCall) : Scripted :=
  { backend with calls := call :: backend.calls }

/-- Answers a size query. -/
def size (backend : Scripted) : Reply Scripted Outcome :=
  let (entry, later) := backend.sizes.next
  ⟨entry.elim (.failed .invalidOperation) ScriptEntry.outcome,
    { backend.note .size with sizes := later }, []⟩

/-- Answers a read. The bytes of the entry go to the front of the destination as far as they fit,
whatever count the entry reports. -/
def read (backend : Scripted) (count : Nat) : Reply Scripted Transfer :=
  let (entry, later) := backend.reads.next
  ⟨entry.elim (.none (.failed .invalidOperation)) fun entry =>
      ⟨entry.outcome, entry.bytes.take count⟩,
    { backend.note (.read count) with reads := later }, []⟩

/-- Answers a write. -/
def write (backend : Scripted) (source : Bytes) : Reply Scripted Outcome :=
  let (entry, later) := backend.writes.next
  ⟨entry.elim (.failed .invalidOperation) ScriptEntry.outcome,
    { backend.note (.write source) with writes := later }, []⟩

/-- Answers a seek, and edits the window as the entry says. -/
def seek (backend : Scripted) (window : Window) (offset : Int) (origin : Origin) :
    Reply (Scripted × Window) (Except Fault Outcome) :=
  let (entry, later) := backend.seeks.next
  let after := { backend.note (.seek offset origin) with seeks := later }
  match entry with
  | none => ⟨.ok (.failed .invalidOperation), (after, window), []⟩
  | some entry =>
      let (edited, result) := entry.edit.apply window
      ⟨result.map fun _ => entry.outcome, (after, edited), []⟩

/-- Answers a close. -/
def close (backend : Scripted) : Reply Scripted Code :=
  let (entry, later) := backend.closes.next
  ⟨entry.elim .success ScriptEntry.code, { backend.note .close with closes := later }, []⟩

/-- Answers a refill, and edits the window as the entry says. -/
def refill (backend : Scripted) (window : Window) :
    Reply (Scripted × Window) (Except Fault Code) :=
  let (entry, later) := backend.refills.next
  let after := { backend.note .refill with refills := later }
  match entry with
  | none => ⟨.ok .endOfStream, (after, window), []⟩
  | some entry =>
      let (edited, result) := entry.edit.apply window
      ⟨result.map fun _ => entry.code, (after, edited), []⟩

instance : Backend Scripted where
  kind := "scripted"
  capabilities backend := backend.advertised
  size := size
  read := read
  write := write
  seek := seek
  close := close
  initialWindow backend :=
    let (window, result) := backend.initial.apply Window.empty
    result.map fun _ => window
  buffer backend := backend.buffer
  refill := refill

end Scripted

end Bytestream
