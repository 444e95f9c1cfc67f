import Bytestream.Backend.BufferedReader
import Bytestream.Backend.File
import Bytestream.Backend.Growable
import Bytestream.Backend.Pieces
import Bytestream.Backend.ReadOnly
import Bytestream.Backend.Region

/-!
What the backends offer. None of them gains or loses an operation while it is used, so that what a
stream found when it was opened stays true.
-/

namespace Bytestream

/-- A backend that always offers the same operations. -/
class Offering (β : Type) [Backend β] where
  offers : Capabilities
  capabilities_eq : ∀ backend : β, Backend.capabilities backend = offers

instance : Offering Region where
  offers := { size := true, read := true, write := true, seek := true }
  capabilities_eq _ := rfl

instance [Memory] : Offering Growable where
  offers := { size := true, read := true, write := true, seek := true }
  capabilities_eq _ := rfl

instance : Offering File where
  offers := { size := true, read := true, write := true, seek := true, close := true }
  capabilities_eq _ := rfl

instance : Offering ReadOnly where
  offers := { size := true, seek := true, bufferedRead := true }
  capabilities_eq _ := rfl

instance : Offering BufferedReader where
  offers := { size := true, seek := true, bufferedRead := true }
  capabilities_eq _ := rfl

instance : Offering Pieces where
  offers := { size := true, seek := true, bufferedRead := true }
  capabilities_eq _ := rfl

end Bytestream
