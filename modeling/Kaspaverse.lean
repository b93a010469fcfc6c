import Kaspaverse.Transport.FillPages
import Kaspaverse.Transport.FillOrder
import Kaspaverse.Transport.FillPromise
import Kaspaverse.Library.Paging
import Kaspaverse.Transport.FillMoves
import Kaspaverse.Transport.FillErase
import Kaspaverse.Transport.Intake
import Kaspaverse.Transport.PlanIntent
import Kaspaverse.Transport.Pending
import Kaspaverse.Vault.LockWins
import Kaspaverse.Kvlog.CrashConsistency
import Kaspaverse.Acceptance.NoEarlyFinality
import Kaspaverse.Acceptance.CursorHolds
import Kaspaverse.Acceptance.TrackerTask
import Kaspaverse.Walk.NothingSilent
import Kaspaverse.Walk.Marks
import Kaspaverse.Transport.Converge
import Kaspaverse.Transport.MergeAll
import Kaspaverse.Library.Latest
import Kaspaverse.Library.Interrupted
import Kaspaverse.Acceptance.SelectedChain
import Kaspaverse.Library.Machine
import Kaspaverse.Library.Sweep
import Kaspaverse.Library.KeyedMap
import Kaspaverse.Library.Ledger
import Kaspaverse.Chain.Settles
import Kaspaverse.Chain.DurableFile
import Kaspaverse.Chain.RelaunchRestores
import Kaspaverse.Chain.PaymentRuns
import Kaspaverse.Chain.InFlight
import Kaspaverse.Chain.ReadFloor
import Kaspaverse.Chain.ReadVerdict
import Kaspaverse.Chain.LaneRecords
import Kaspaverse.Chain.LaneInvariant
import Kaspaverse.Kvlog.Frame
import Kaspaverse.Kvlog.Replay
import Kaspaverse.Kvlog.Log
import Kaspaverse.Kvlog.Contents
import Kaspaverse.Kvlog.Recovery
import Kaspaverse.Kvlog.Durability
import Kaspaverse.Vault.Blob
import Kaspaverse.Vault.Session
import Kaspaverse.Vault.Budget
import Kaspaverse.Vault.OneWallet
import Kaspaverse.Transport.Housed
import Kaspaverse.Transport.BlockHolds
import Kaspaverse.Chain.ActivityRuns
import Kaspaverse.Lane.HeldFrames
import Kaspaverse.Lane.Boundary
import Kaspaverse.Lane.Alternation
import Kaspaverse.Lane.Fence
import Kaspaverse.Lane.Delivery
import Kaspaverse.Transport.CommNow
import Kaspaverse.Transport.KeyWindow
import Kaspaverse.Transport.SideFiles
import Kaspaverse.Transport.OneRefund
import Kaspaverse.Kvlog.Repair
import Kaspaverse.Kvlog.Reload
import Kaspaverse.Kvlog.Compaction
import Kaspaverse.Library.Slices
import Kaspaverse.Library.Utf8
import Kaspaverse.Transport.Wire
import Kaspaverse.Core.Frames
import Kaspaverse.Library.Coded
import Kaspaverse.Transport.Records
import Kaspaverse.Transport.WalkPages
import Kaspaverse.Chain.Drain
import Kaspaverse.Library.Bisect
import Kaspaverse.Chain.BatchedMerge
import Kaspaverse.Acceptance.WalkFold
import Kaspaverse.Library.Asked
import Kaspaverse.Chain.Sendable
import Kaspaverse.Vault.Sealed
import Kaspaverse.Library.Json
import Kaspaverse.Core.Stash
import Kaspaverse.Library.Strip
import Kaspaverse.Core.FileName
import Kaspaverse.Library.Greatest
import Kaspaverse.Chain.Discovery
import Kaspaverse.Vault.ScanWindow
import Kaspaverse.Transport.Restored
import Kaspaverse.Chain.Confined
import Kaspaverse.Library.Tabbed
import Kaspaverse.Library.Cooldown
import Kaspaverse.Link.Reason
import Kaspaverse.Link.Health
import Kaspaverse.Link.Strikes
import Kaspaverse.Library.Scrub
import Kaspaverse.Link.Failure
import Kaspaverse.Link.ToldApart
import Kaspaverse.Link.Race
import Kaspaverse.Link.FairRace
import Kaspaverse.Library.Flight
import Kaspaverse.Library.Leases
import Kaspaverse.Chain.Foreground
import Kaspaverse.Library.Emitted
import Kaspaverse.Link.Recovery
import Kaspaverse.Link.Silence
import Kaspaverse.Link.Hunt
import Kaspaverse.Link.Leaving
import Kaspaverse.Link.Swaps
