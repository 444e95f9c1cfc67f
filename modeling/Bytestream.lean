import Bytestream.Stream
import Bytestream.Backend.BufferedReader
import Bytestream.Backend.File
import Bytestream.Backend.Growable
import Bytestream.Backend.Pieces
import Bytestream.Backend.ReadOnly
import Bytestream.Backend.Region
import Bytestream.Backend.Scripted
import Bytestream.Backend.Simple
import Bytestream.Crc32
import Bytestream.Enumeration
import Bytestream.Slice
import Bytestream.Chunk.Reader
import Bytestream.Chunk.Writer
import Bytestream.Stream.Handle
import Bytestream.Blob.Arena
import Bytestream.Blob.View
import Bytestream.Proofs.Readable
import Bytestream.Proofs.WindowRead
import Bytestream.Proofs.DirectRead
import Bytestream.Proofs.ReadableBackends
import Bytestream.Proofs.BufferedReading
import Bytestream.Proofs.ChunkFormat
import Bytestream.Proofs.ChunkReading
import Bytestream.Proofs.Seeking
import Bytestream.Proofs.Opening
import Bytestream.Proofs.Writing
import Bytestream.Proofs.Media
import Bytestream.Proofs.ChunkWriting
import Bytestream.Proofs.ChunkFiles
import Bytestream.Proofs.ChunkGrammar
import Bytestream.Proofs.BufferedRefinement
import Bytestream.Proofs.ChecksumDetection
import Bytestream.Proofs.ChunkDamage
import Bytestream.Proofs.Rewriting
import Bytestream.Proofs.ChunkStreaming
import Bytestream.Proofs.BufferedSupply
import Bytestream.Proofs.BufferedDelivery
import Bytestream.Proofs.FailureGuard
import Bytestream.Proofs.PermanentFailure
import Bytestream.Proofs.Usage
import Bytestream.Proofs.Correspondence
import Bytestream.Proofs.Discipline
import Bytestream.Proofs.ErrorState
import Bytestream.Proofs.StickyErrors
import Bytestream.Proofs.RecordedFailures
import Bytestream.Proofs.CopyLoops
import Bytestream.Proofs.BackendCalls
import Bytestream.Proofs.WindowBounds
import Bytestream.Proofs.StorageFrame
import Bytestream.Proofs.Interchange
import Bytestream.Proofs.PayloadCopies
import Bytestream.Proofs.SuppliedReading
import Bytestream.Proofs.Resumption
import Bytestream.Proofs.Places
import Bytestream.Proofs.HandleTransfers
import Bytestream.Proofs.ChunkWalks
import Bytestream.Proofs.ScalarSequences
import Bytestream.Proofs.References
import Bytestream.Proofs.Relocation
import Bytestream.Proofs.ArenaSteps
import Bytestream.Proofs.LeastPadding
import Bytestream.Proofs.BlobBuilding
import Bytestream.Proofs.SizeQuery
import Bytestream.Proofs.PayloadPaths
import Bytestream.Proofs.PointerFollowing
import Bytestream.Proofs.RecordWrites
import Bytestream.Proofs.PointerMaking
import Bytestream.Proofs.ArrayElements
import Bytestream.Proofs.SeekTargets
import Bytestream.Proofs.WindowContent
import Bytestream.Proofs.TransferCounts
import Bytestream.Proofs.ChunkFilling
import Bytestream.Proofs.ChunkSeeds
import Bytestream.Proofs.SourceFailures
import Bytestream.Proofs.Draining
import Bytestream.Proofs.ArenaLayout
import Bytestream.Proofs.SliceAccess
import Bytestream.Proofs.Refilling
