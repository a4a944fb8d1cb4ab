import LayeredCache.Assembly
import LayeredCache.Built
import LayeredCache.Bytes
import LayeredCache.Cache.Program
import LayeredCache.Cache.Run
import LayeredCache.Cache.Tasks
import LayeredCache.CallOptions
import LayeredCache.Counters
import LayeredCache.Directory
import LayeredCache.Envelope
import LayeredCache.Eviction.Ranked
import LayeredCache.Eviction.Slab
import LayeredCache.Failure
import LayeredCache.Far.Drill
import LayeredCache.Far.MemoryStore
import LayeredCache.Far.Request
import LayeredCache.Flight.Crowd
import LayeredCache.Flight.Group
import LayeredCache.Frequency.CountMin
import LayeredCache.Frequency.Doorkeeper
import LayeredCache.Frequency.Filter
import LayeredCache.Hub
import LayeredCache.KeyValue.Address
import LayeredCache.KeyValue.Client
import LayeredCache.KeyValue.Command
import LayeredCache.KeyValue.Reply
import LayeredCache.KeyValue.Server
import LayeredCache.Main
import LayeredCache.MessagePack.Reader
import LayeredCache.MessagePack.Token
import LayeredCache.MessagePack.Writer
import LayeredCache.Native
import LayeredCache.NearTier
import LayeredCache.Number.Binary
import LayeredCache.Proofs.Bytes
import LayeredCache.Proofs.Cache.Avoid
import LayeredCache.Proofs.Cache.Courses
import LayeredCache.Proofs.Cache.Deeds
import LayeredCache.Proofs.Cache.FailedSet
import LayeredCache.Proofs.Cache.Lifetimes
import LayeredCache.Proofs.Cache.LoneCaller
import LayeredCache.Proofs.Cache.LookAgain
import LayeredCache.Proofs.Cache.Nil
import LayeredCache.Proofs.Cache.OneKey
import LayeredCache.Proofs.Cache.Peers
import LayeredCache.Proofs.Cache.Phases
import LayeredCache.Proofs.Cache.Presence
import LayeredCache.Proofs.Cache.Prolonged
import LayeredCache.Proofs.Cache.Provenance
import LayeredCache.Proofs.Cache.ReadBack
import LayeredCache.Proofs.Cache.Readable
import LayeredCache.Proofs.Cache.Requests
import LayeredCache.Proofs.Cache.Seeking
import LayeredCache.Proofs.Cache.Storing
import LayeredCache.Proofs.Cache.Taking
import LayeredCache.Proofs.Cache.Tiers
import LayeredCache.Proofs.Cache.Traces
import LayeredCache.Proofs.Cache.Writing
import LayeredCache.Proofs.Crossing.Agreement
import LayeredCache.Proofs.Crossing.Protocol
import LayeredCache.Proofs.Crossing.Steps
import LayeredCache.Proofs.Directory
import LayeredCache.Proofs.Effort.Interleaved
import LayeredCache.Proofs.Effort.Limits
import LayeredCache.Proofs.Effort.Shapes
import LayeredCache.Proofs.Envelope
import LayeredCache.Proofs.Eviction.Bounds
import LayeredCache.Proofs.Eviction.Chain
import LayeredCache.Proofs.Eviction.Checked
import LayeredCache.Proofs.Eviction.FiniteMap
import LayeredCache.Proofs.Eviction.Layout
import LayeredCache.Proofs.Eviction.Operations
import LayeredCache.Proofs.Eviction.Ranking
import LayeredCache.Proofs.Eviction.Representation
import LayeredCache.Proofs.Far.History
import LayeredCache.Proofs.Far.MemoryStore
import LayeredCache.Proofs.Flight.Deserted
import LayeredCache.Proofs.Flight.Moves
import LayeredCache.Proofs.Flight.Order
import LayeredCache.Proofs.Flight.Passing
import LayeredCache.Proofs.Flight.SingleFlight
import LayeredCache.Proofs.Flight.Waiting
import LayeredCache.Proofs.Frequency.Membership
import LayeredCache.Proofs.Frequency.Places
import LayeredCache.Proofs.Frequency.Popularity
import LayeredCache.Proofs.Hub
import LayeredCache.Proofs.KeyValue.Expiry
import LayeredCache.Proofs.KeyValue.SameAnswers
import LayeredCache.Proofs.MessagePack.Nested
import LayeredCache.Proofs.MessagePack.RoundTrip
import LayeredCache.Proofs.MessagePack.Tokens
import LayeredCache.Proofs.Native
import LayeredCache.Proofs.NearTier
import LayeredCache.Proofs.NearTier.Jitter
import LayeredCache.Proofs.NearTier.Latest
import LayeredCache.Proofs.Payload
import LayeredCache.Proofs.Serial.Current
import LayeredCache.Proofs.Serial.FreshReads
import LayeredCache.Proofs.Serial.Lifetimes
import LayeredCache.Proofs.Serial.Operations
import LayeredCache.Proofs.SharedLoad.Invariant
import LayeredCache.Proofs.SharedLoad.OneLoad
import LayeredCache.Proofs.SharedLoad.Scene
import LayeredCache.Proofs.SharedLoad.Turns
import LayeredCache.Proofs.Shell.Storing
import LayeredCache.Proofs.Skipping.FarTier
import LayeredCache.Proofs.Skipping.NearTier
import LayeredCache.Proofs.Traffic.Dues
import LayeredCache.Proofs.Traffic.Exact
import LayeredCache.Proofs.Zstandard.Stored
import LayeredCache.Settings
import LayeredCache.Settings.Numeral
import LayeredCache.Settings.Reader
import LayeredCache.Shell.Arguments
import LayeredCache.Shell.Command
import LayeredCache.Shell.Session
import LayeredCache.Tally
import LayeredCache.Text.Quoted
import LayeredCache.Text.Url
import LayeredCache.Text.Utf8
import LayeredCache.Time
import LayeredCache.Value
import LayeredCache.Zstandard.Bits
import LayeredCache.Zstandard.Checksum
import LayeredCache.Zstandard.CodeTable
import LayeredCache.Zstandard.Compressor
import LayeredCache.Zstandard.Frame
import LayeredCache.Zstandard.Lap
import LayeredCache.Zstandard.Literals
import LayeredCache.Zstandard.Sequences
import LayeredCache.Zstandard.StateTable
