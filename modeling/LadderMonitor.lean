import LadderMonitor.Monitor.Command
import LadderMonitor.Monitor.Opening
import LadderMonitor.Proofs.Ladder.Activity
import LadderMonitor.Proofs.Ladder.Display
import LadderMonitor.Proofs.Monitor.Cache
import LadderMonitor.Proofs.Monitor.Completion
import LadderMonitor.Proofs.Monitor.Evaluation
import LadderMonitor.Proofs.Monitor.Failure
import LadderMonitor.Proofs.Monitor.OnePoller
import LadderMonitor.Proofs.Monitor.Refresh
import LadderMonitor.Proofs.Monitor.Removal
import LadderMonitor.Proofs.Monitor.Reset
import LadderMonitor.Proofs.Monitor.Session
import LadderMonitor.Proofs.Monitor.TickDelivery
import LadderMonitor.Proofs.Plant.Resolution
import LadderMonitor.Proofs.Monitor.Demand
import LadderMonitor.Proofs.Monitor.Watched
import LadderMonitor.Proofs.Monitor.Watching
import LadderMonitor.Proofs.Monitor.WatchedValue
import LadderMonitor.Proofs.Monitor.Poised
import LadderMonitor.Proofs.Monitor.Apart
import LadderMonitor.Proofs.Ladder.History
import LadderMonitor.Proofs.Monitor.FailedEvaluation
import LadderMonitor.Proofs.Monitor.HalfAttached
import LadderMonitor.Proofs.Monitor.Handover
import LadderMonitor.Proofs.Polling.Gathering
import LadderMonitor.Proofs.Monitor.Limits
import LadderMonitor.Proofs.Monitor.Reply
import LadderMonitor.Proofs.Plant.Validation
import LadderMonitor.Proofs.Plant.BitAddress
import LadderMonitor.Proofs.Plant.Readable
import LadderMonitor.Proofs.Memory.Writing
import LadderMonitor.Proofs.Plant.Writable
import LadderMonitor.Proofs.Polling.SettingsFile
import LadderMonitor.Proofs.Plant.Completion
import LadderMonitor.Proofs.Ladder.GroupedWiring
import LadderMonitor.Proofs.Ladder.Naming
import LadderMonitor.Proofs.Ladder.Propagation
import LadderMonitor.Proofs.Monitor.SubscriptionSet
