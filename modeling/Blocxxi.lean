import Blocxxi.StepMachineRuns
import Blocxxi.CxxRuntime
import Blocxxi.ByteText
import Blocxxi.Base16Codec
import Blocxxi.CryptoHash
import Blocxxi.CorePrimitives
import Blocxxi.LinkedLog
import Blocxxi.ChainKernel
import Blocxxi.ChainLedger
import Blocxxi.KernelRefinement
import Blocxxi.InMemoryStore
import Blocxxi.FileStore
import Blocxxi.FileStoreRuns
import Blocxxi.KernelInvariants
import Blocxxi.KernelAtomicity
import Blocxxi.FileBlockFormat
import Blocxxi.TornText
import Blocxxi.KeySort
import Blocxxi.NodeFacade
import Blocxxi.BitcoinBytes
import Blocxxi.HeaderSync
import Blocxxi.HeaderSyncAtomicity
import Blocxxi.Bencode
import Blocxxi.BencodeProgress
import Blocxxi.Krpc
import Blocxxi.CursorReader
import Blocxxi.BlockMetadata
import Blocxxi.BlockCursorSafety
import Blocxxi.DelimitedText
import Blocxxi.EventRecord
import Blocxxi.CanonicalText
import Blocxxi.MergeByKey
import Blocxxi.EventStore
import Blocxxi.EventStoreInvariant
import Blocxxi.EventPublications
import Blocxxi.EventSpellings
import Blocxxi.EventDht
import Blocxxi.EventDhtQuery
import Blocxxi.EventSelection
import Blocxxi.EventSigning
import Blocxxi.IdentifierSeeds
import Blocxxi.SignetWire
import Blocxxi.SignetLiveClient
import Blocxxi.BlockFetching
import Blocxxi.ListParts
import Blocxxi.DecimalText
import Blocxxi.BencodeSpelling
import Blocxxi.BencodeRoundTrip
import Blocxxi.BencodeGrammar
import Blocxxi.KrpcRoundTrip
import Blocxxi.EventWire
import Blocxxi.HeaderSyncRuns
import Blocxxi.HeadersImport
import Blocxxi.ConnectionLogs
import Blocxxi.HandshakeSafety
import Blocxxi.JsonGrammar
import Blocxxi.JsonScanner
import Blocxxi.CoreRpcAdapter
import Blocxxi.JsonExtraction
import Blocxxi.JsonCursors
import Blocxxi.JsonStrings
import Blocxxi.ObservationBatches
import Blocxxi.HeadersImportRuns
import Blocxxi.MainlineNode
import Blocxxi.RequestBookkeeping
import Blocxxi.EventDhtDeadlines
import Blocxxi.MerkleTree
import Blocxxi.MerkleRoots
import Blocxxi.CursorSpelling
import Blocxxi.BlockFormat
import Blocxxi.BlockRoundTrip
import Blocxxi.HeadersPayload
import Blocxxi.MerkleRootIds
import Blocxxi.OrderedMap
import Blocxxi.QueryAnswers
import Blocxxi.AnnouncedPeers
import Blocxxi.InfoHashSamples
import Blocxxi.AnswerSizes
import Blocxxi.AnnouncedPorts
import Blocxxi.BootstrapReplies
import Blocxxi.TornWrites
import Blocxxi.KernelRestart
import Blocxxi.AcceptedTransactions
import Blocxxi.BigEndianBytes
import Blocxxi.CompactTargets
import Blocxxi.HeaderValidation
import Blocxxi.NodeServices
import Blocxxi.ServiceScheduling
import Blocxxi.NodeLifecycle
import Blocxxi.CheckpointFiles
import Blocxxi.AddressSelection
import Blocxxi.LocalAddresses
import Blocxxi.ChunkedStream
import Blocxxi.MessageFraming
import Blocxxi.Base64Text
import Blocxxi.CompactSizes
import Blocxxi.Base64Encoding
import Blocxxi.BitDigits
import Blocxxi.HashWords
import Blocxxi.HashViews
import Blocxxi.KademliaNode
import Blocxxi.LogDistances
import Blocxxi.NodeUrls
import Blocxxi.CachedUrls
import Blocxxi.BlockChaining
import Blocxxi.DigestCommitments
import Blocxxi.EventDiscovery
import Blocxxi.HttpPolling
import Blocxxi.AnsweringMachines
import Blocxxi.BitFields
import Blocxxi.LinkedSegments
import Blocxxi.ResourceDefragment
import Blocxxi.ResourceTableRuns
