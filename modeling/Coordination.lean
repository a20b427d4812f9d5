import Coordination.Board.Cluster
import Coordination.Json.Reader
import Coordination.Main
import Coordination.Program
import Coordination.Statistics.Sampler
import Coordination.Remote.Scripted
import Coordination.Proofs.Board.Host
import Coordination.Proofs.Json.Decoder
import Coordination.Proofs.Board.Frame
import Coordination.Board.Turns
import Coordination.Proofs.Board.Turns
import Coordination.Proofs.Fault
import Coordination.Board.Operation
import Coordination.Board.Gathering
import Coordination.Proofs.Board.Handle
import Coordination.Proofs.Board.Gathering
import Coordination.Board.Tally
import Coordination.Proofs.Board.Work
import Coordination.Proofs.Board.Tally
import Coordination.Proofs.Board.Operation
import Coordination.Proofs.Board.Workshop
import Coordination.Board.Transcript
import Coordination.Proofs.Board.Transcript
import Coordination.Proofs.Board.Counters
import Coordination.Proofs.Binary64.Rounding
import Coordination.Proofs.Binary64.Decimal
import Coordination.Proofs.Json.Number
import Coordination.Json.Plain
import Coordination.Proofs.Json.Text
import Coordination.Proofs.Json.Normalized
import Coordination.Proofs.Board.Entries
import Coordination.Proofs.Remote.Frame
import Coordination.Proofs.Remote.Service
import Coordination.Remote.Callers
import Coordination.Proofs.Remote.Callers
import Coordination.Json.Nesting
import Coordination.Remote.Message.Delivered
import Coordination.Proofs.MessagePack.Item
import Coordination.Proofs.Remote.Agreement
import Coordination.Rounds.Campaign
import Coordination.Proofs.Rounds.Halting
import Coordination.Proofs.Statistics.Types
import Coordination.Proofs.Binary64.Extremes
import Coordination.Proofs.Statistics.Account
import Coordination.Proofs.Statistics.Archive
import Coordination.Board.Fleet
import Coordination.Proofs.Board.Cluster
import Coordination.Proofs.Board.Directory
import Coordination.Proofs.Board.Federation
import Coordination.Proofs.Statistics.Bookkeeping
import Coordination.Proofs.Board.Likeness
import Coordination.Proofs.Remote.Recovery
import Coordination.Proofs.Board.Ascent
import Coordination.Proofs.Board.Holding
import Coordination.Proofs.Board.Identity
import Coordination.Proofs.Binary64.Whole
import Coordination.Proofs.Statistics.Metric
import Coordination.Statistics.Ledger
import Coordination.Proofs.Statistics.Instance
import Coordination.Proofs.Statistics.Ledger
import Coordination.Proofs.Statistics.Evaluation
import Coordination.Proofs.Statistics.Copies
import Coordination.Proofs.Statistics.Spans
import Coordination.Statistics.Threads
import Coordination.Proofs.Statistics.Threads
import Coordination.Proofs.Statistics.LastSample
import Coordination.Statistics.Archive.Attempt
import Coordination.Proofs.Files.Path
import Coordination.Proofs.Statistics.Replacement
import Coordination.Proofs.Files.Directories
import Coordination.Proofs.Statistics.Neighbours
import Coordination.Proofs.Rounds.Summaries
import Coordination.Proofs.Remote.Limits
import Coordination.Statistics.Sampling
import Coordination.Proofs.Statistics.Persistence
import Coordination.Proofs.Statistics.Sampling
import Coordination.Proofs.Statistics.LastRound
import Coordination.Proofs.Remote.Dispatcher
import Coordination.Proofs.Board.Schema
import Coordination.Calendar.Moment
import Coordination.Proofs.Calendar.Gregorian
import Coordination.Proofs.Calendar.Moment
import Coordination.Proofs.Json.Reordered
import Coordination.Proofs.Board.Keys
import Coordination.Proofs.Statistics.Naming
