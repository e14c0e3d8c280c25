import Chainwatch.Main
import Chainwatch.Proofs.Bloom.Union
import Chainwatch.Proofs.Dispatcher.Accounts
import Chainwatch.Proofs.Dispatcher.Closing
import Chainwatch.Proofs.Dispatcher.Cover
import Chainwatch.Proofs.Dispatcher.Hearing
import Chainwatch.Proofs.Dispatcher.Isolation
import Chainwatch.Proofs.Dispatcher.Operations
import Chainwatch.Proofs.Dispatcher.Slots
import Chainwatch.Proofs.Json.Records
import Chainwatch.Proofs.Node.Cancelling
import Chainwatch.Proofs.Node.Ranges
import Chainwatch.Proofs.Node.RawLogs
import Chainwatch.Proofs.Queue.Fifo
import Chainwatch.Proofs.Rehearsal.Blocks
import Chainwatch.Proofs.Rehearsal.Feeds
import Chainwatch.Proofs.Store.Consistency
import Chainwatch.Proofs.Store.Equivalence
import Chainwatch.Proofs.Store.Filtering
import Chainwatch.Proofs.Store.Frame
import Chainwatch.Proofs.Store.Progress
import Chainwatch.Proofs.Store.Rollback
import Chainwatch.Proofs.Tracker.Backfill
import Chainwatch.Proofs.Tracker.BloomCheck
import Chainwatch.Proofs.Tracker.Cancellation
import Chainwatch.Proofs.Tracker.Conflicts
import Chainwatch.Proofs.Tracker.Confluence
import Chainwatch.Proofs.Tracker.Escalation
import Chainwatch.Proofs.Tracker.Finality
import Chainwatch.Proofs.Tracker.Heard
import Chainwatch.Proofs.Tracker.LateStops
import Chainwatch.Proofs.Tracker.Notices
import Chainwatch.Proofs.Tracker.Order
import Chainwatch.Proofs.Tracker.Restart
import Chainwatch.Proofs.Tracker.Stopping
import Chainwatch.Query.Json
import Chainwatch.Rehearsal.Clock
import Chainwatch.Rehearsal.FaultyStore
import Chainwatch.Rehearsal.Fill
import Chainwatch.Rehearsal.Folder
import Chainwatch.Rehearsal.PracticeChain
import Chainwatch.Rehearsal.Stage
import Chainwatch.Settings.Json
