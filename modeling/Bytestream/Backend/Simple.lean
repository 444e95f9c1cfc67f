import Bytestream.Backend

/-!
Three backends at the edge of the contract: one that refuses everything, one that only collects,
and one that advertises operations without implementing any.
-/

namespace Bytestream

/-- Every operation fails with one code. Only a size query fails with a code of its own, so that a
failure kept from earlier can be told from a new one. -/
structure Failing where
  code : Code

instance : Backend Failing where
  kind := "failing"
  capabilities _ := { size := true, read := true, write := true, seek := true, close := true }
  size backend := ⟨.failed .unknownError, backend, []⟩
  read backend _ := ⟨.none (.failed backend.code), backend, []⟩
  write backend _ := ⟨.failed backend.code, backend, []⟩
  seek backend window _ _ := ⟨.ok (.failed backend.code), (backend, window), []⟩
  close backend := ⟨backend.code, backend, []⟩

/-- Collects everything that is written to it. -/
structure Sink where
  bytes : Bytes := []

instance : Backend Sink where
  kind := "sink"
  capabilities _ := { write := true }
  write sink source := ⟨.done source.length, ⟨sink.bytes ++ source⟩, []⟩

/-- Advertises operations and leaves each of them at its default. -/
structure Bare where
  advertised : Capabilities

instance : Backend Bare where
  kind := "bare"
  capabilities backend := backend.advertised

end Bytestream
