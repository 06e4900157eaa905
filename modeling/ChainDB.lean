import ChainDB.Library.Effects
import ChainDB.Library.Composition
import ChainDB.Library.Projection
import ChainDB.Library.HashChain
import ChainDB.Library.ProtoWire
import ChainDB.Library.Sha256
import ChainDB.Library.WireSize
import ChainDB.Library.Truncation
import ChainDB.Library.Numeral
import ChainDB.World
import ChainDB.Arguments
import ChainDB.Messages
import ChainDB.WireMessages
import ChainDB.Storage
import ChainDB.Crypto
import ChainDB.SamplePlatform
import ChainDB.Hashing
import ChainDB.Chain
import ChainDB.ChainRecords
import ChainDB.Manager
import ChainDB.Ledger
import ChainDB.ManagerRecords
import ChainDB.Integrity
import ChainDB.Verification
import ChainDB.Refinement
import ChainDB.Isolation
import ChainDB.Concurrency
import ChainDB.RecordCodecs
import ChainDB.Reading
import ChainDB.Prompt
import ChainDB.Reporting
import ChainDB.Readers
import ChainDB.Extension
import ChainDB.Counter
import ChainDB.Creation
import ChainDB.StoredRecords
import ChainDB.Handler
import ChainDB.Served
import ChainDB.Authentication
import ChainDB.Application
import ChainDB.CommandLine
import ChainDB.Server
import ChainDB.Replies
import ChainDB.Limits
import ChainDB.Undisturbed
import ChainDB.Answers
import ChainDB.Shape
import ChainDB.Programs
import ChainDB.Requests
import ChainDB.Service
import ChainDB.Statuses
import ChainDB.Client
import ChainDB.Library.Transition
import ChainDB.Network
import ChainDB.Deployment
import ChainDB.Noninterference
import ChainDB.Lifecycle
import ChainDB.Library.NamedMaps
import ChainDB.StorageObjects
import ChainDB.Terminal
import ChainDB.Crowd
import ChainDB.Startup
import ChainDB.Durability
