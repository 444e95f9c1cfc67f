import Bytestream.Action
import Bytestream.Capabilities
import Bytestream.Seek
import Bytestream.Transfer
import Bytestream.Window

/-!
The contract between a stream and the byte source or sink below it. A backend offers any subset of
the operations; what it does not offer keeps the default given here.
-/

namespace Bytestream

/-- The reply of a backend that knows no window, which leaves the window alone. -/
def Reply.beside {β α : Type} (reply : Reply β α) (window : Window) :
    Reply (β × Window) (Except Fault α) :=
  ⟨.ok reply.value, (reply.state, window), reply.log⟩

/-- A byte source or sink with state `β`. Seeking and refilling may move the window of the stream,
and are the only operations that can breach the contract of the window. -/
class Backend (β : Type) where
  /-- A short name for logs. -/
  kind : String
  /-- The operations that the backend implements. -/
  capabilities : β → Capabilities
  /-- The length of the data. -/
  size : β → Reply β Outcome := fun backend => ⟨.failed .invalidOperation, backend, []⟩
  /-- Reads up to `count` bytes from the current position on. -/
  read : β → (count : Nat) → Reply β Transfer :=
    fun backend _ => ⟨.none (.failed .invalidOperation), backend, []⟩
  /-- Writes bytes at the current position. -/
  write : β → Bytes → Reply β Outcome := fun backend _ => ⟨.failed .invalidOperation, backend, []⟩
  /-- Moves the current position and reports the new one. -/
  seek : β → Window → (offset : Int) → Origin → Reply (β × Window) (Except Fault Outcome) :=
    fun backend window _ _ => ⟨.ok (.failed .invalidOperation), (backend, window), []⟩
  /-- Releases what the backend holds. -/
  close : β → Reply β Code := fun backend => ⟨.success, backend, []⟩
  /-- The window that a new stream starts with. -/
  initialWindow : β → Except Fault Window := fun _ => .ok Window.empty
  /-- The buffer that window indices refer to. -/
  buffer : β → Bytes := fun _ => []
  /-- Makes more bytes available in an exhausted window. -/
  refill : β → Window → Reply (β × Window) (Except Fault Code) :=
    fun backend window => ⟨.ok .endOfStream, (backend, window), []⟩

end Bytestream
