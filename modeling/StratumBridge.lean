import StratumBridge.Foundation.Fifo
import StratumBridge.Chain.Block
import StratumBridge.Merged.CoinbaseProof
import StratumBridge.Merged.Parent
import StratumBridge.Merged.Pending
import StratumBridge.Merged.PendingRun
import StratumBridge.Merged.PendingWindow
import StratumBridge.Foundation.MerkleTree
import StratumBridge.Foundation.Slots
import StratumBridge.Job.Difficulty
import StratumBridge.Job.Ring
import StratumBridge.Interaction.Program
import StratumBridge.Interaction.System
import StratumBridge.Interaction.Clock
import StratumBridge.Interaction.Observation
import StratumBridge.Bridge.Guards
import StratumBridge.Bridge.Text
import StratumBridge.Bridge.Events
import StratumBridge.Bridge.Components
import StratumBridge.Bridge.Operations
import StratumBridge.Bridge.Parent
import StratumBridge.Bridge.Connection
import StratumBridge.Bridge.Settlement
import StratumBridge.Bridge.Submit
import StratumBridge.Bridge.Publication
import StratumBridge.Bridge.Authorize
import StratumBridge.Bridge.System
import StratumBridge.Bridge.Footprint
import StratumBridge.Bridge.Kinds
import StratumBridge.Bridge.Session
import StratumBridge.Bridge.SubmitFootprint
import StratumBridge.Interaction.Contract
import StratumBridge.Bridge.Frames
import StratumBridge.Bridge.Stores
import StratumBridge.Bridge.Rings
import StratumBridge.Bridge.Provenance
import StratumBridge.Bridge.ParentCache
import StratumBridge.Bridge.PublicationProtocol
import StratumBridge.Bridge.LaneTags
import StratumBridge.Interaction.Recording
import StratumBridge.Interaction.Counter
import StratumBridge.Interaction.Lock
import StratumBridge.Bridge.SettlementProtocol
import StratumBridge.Bridge.GenuineParents
import StratumBridge.Bridge.LaneProtocol
import StratumBridge.Bridge.Residency
import StratumBridge.Bridge.Lanes
import StratumBridge.Bridge.LaneOrder
import StratumBridge.Bridge.BlockPairs
import StratumBridge.Bridge.Accounting
import StratumBridge.Bridge.MergedSettlement
import StratumBridge.Bridge.LaneWindow
import StratumBridge.Bridge.FailedSubmission
import StratumBridge.Bridge.PayoutAttribution
import StratumBridge.Bridge.LaneRecipient
import StratumBridge.Bridge.DoubleCredit
import StratumBridge.AntiAbuse.Buckets
import StratumBridge.AntiAbuse.Frames
import StratumBridge.AntiAbuse.Requests
import StratumBridge.Bridge.Notifications
import StratumBridge.Bridge.SearchSpace
import StratumBridge.Bridge.ExtranonceDelivery
import StratumBridge.Web.StaticFiles
import StratumBridge.Foundation.Utf8
import StratumBridge.Listener.Chunking
import StratumBridge.Socket.Integrity
import StratumBridge.Web.ConfigUpdate
import StratumBridge.Bridge.NonceForms
import StratumBridge.Bridge.PayoutField
import StratumBridge.Bridge.PayableWallets
import StratumBridge.Bridge.GuardExpiry
import StratumBridge.Bridge.RefreshProtocol
import StratumBridge.Bridge.RefreshGate
import StratumBridge.Bridge.RefreshSpacing
import StratumBridge.Bridge.BlockMarks
import StratumBridge.Bridge.DuplicateRecall
import StratumBridge.Bridge.SubmitAnswers
import StratumBridge.Bridge.Walks
import StratumBridge.Bridge.WalkProtocol
import StratumBridge.Bridge.WalkBack
import StratumBridge.Job.DifficultyScale
import StratumBridge.Chain.CompactBits
import StratumBridge.Bridge.NetworkTarget
import StratumBridge.Foundation.Bytes
import StratumBridge.Foundation.PrefixCode
import StratumBridge.Bridge.JobFormats
import StratumBridge.Bridge.HeaderPreimage
import StratumBridge.Foundation.Slices
import StratumBridge.Web.RequestBody
import StratumBridge.Job.Vardiff
import StratumBridge.Foundation.Settling
import StratumBridge.Job.VardiffSettling
import StratumBridge.Web.CommandLine
import StratumBridge.Web.Listeners
import StratumBridge.Foundation.SegmentReader
import StratumBridge.Listener.ProxyHeader
import StratumBridge.Foundation.JsonText
import StratumBridge.Foundation.JsonParser
import StratumBridge.Listener.UnmarshalEvent
import StratumBridge.Bridge.SessionProtocol
import StratumBridge.Bridge.SessionPairs
import StratumBridge.Bridge.RegistryProtocol
import StratumBridge.Bridge.Clients
import StratumBridge.Foundation.Binary64
import StratumBridge.Foundation.Serde
import StratumBridge.Domain.Values
import StratumBridge.Foundation.Headcount
import StratumBridge.Bridge.VardiffProtocol
import StratumBridge.Bridge.VardiffEntries
import StratumBridge.Bridge.VardiffCalls
import StratumBridge.Bridge.Registrations
import StratumBridge.Foundation.Announcement
import StratumBridge.Bridge.DifficultyProtocol
import StratumBridge.Bridge.Drafts
import StratumBridge.Bridge.ToldDifficulty
import StratumBridge.Interaction.Draining
import StratumBridge.Interaction.Supply
import StratumBridge.Bridge.Supplies
import StratumBridge.Foundation.JsonWriter
import StratumBridge.Listener.JsonValues
import StratumBridge.Listener.Outgoing
import StratumBridge.Bridge.Wire
import StratumBridge.Interaction.LockOrder
import StratumBridge.Bridge.Mutexes
import StratumBridge.Listener.Departures
import StratumBridge.Listener.FrameRate
import StratumBridge.Listener.Streams
