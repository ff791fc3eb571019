import CoppiceNames.Library.Wire
import CoppiceNames.Library.OrderedMap
import CoppiceNames.Library.InvertedIndex
import CoppiceNames.Library.Journal
import CoppiceNames.Library.ChildTable
import CoppiceNames.Library.InsertionDict
import CoppiceNames.Library.Hex
import CoppiceNames.Library.Traced
import CoppiceNames.Protocol.Values
import CoppiceNames.Protocol.Codec
import CoppiceNames.Protocol.CodecCorrectness
import CoppiceNames.Protocol.Schedule
import CoppiceNames.Reducer.State
import CoppiceNames.Reducer.Apply
import CoppiceNames.Reducer.Indexes
import CoppiceNames.Reducer.Scan
import CoppiceNames.Reducer.Refinement
import CoppiceNames.Reducer.Snapshot
import CoppiceNames.Reducer.Runs
import CoppiceNames.Reducer.Reorg
import CoppiceNames.Reducer.Invariant
import CoppiceNames.Reducer.Reachable
import CoppiceNames.Reducer.Effects
import CoppiceNames.Reducer.Lineage
import CoppiceNames.Reducer.Epochs
import CoppiceNames.Reducer.Locality
import CoppiceNames.Reducer.History
import CoppiceNames.Reducer.RoundTrip
import CoppiceNames.Reducer.SnapshotChecks
import CoppiceNames.Reducer.Pruning
import CoppiceNames.Reducer.Lifecycle
import CoppiceNames.Resolver.Exact
import CoppiceNames.Resolver.Replay
import CoppiceNames.Resolver.Filtered
import CoppiceNames.Store.Tables
import CoppiceNames.Store.Retention
import CoppiceNames.Store.Refinement
import CoppiceNames.Checker.Trace
import CoppiceNames.Checker.Model
import CoppiceNames.Checker.Matching
import CoppiceNames.Checker.Agreement
import CoppiceNames.Transport.Deployment
import CoppiceNames.Transport.Inspection
import CoppiceNames.Library.Checked
import CoppiceNames.Transport.OnDemand
import CoppiceNames.Transport.Publication
import CoppiceNames.Library.PeriodicWindows
import CoppiceNames.Protocol.Windows
import CoppiceNames.Reducer.Trapping
import CoppiceNames.Reducer.Renewal
import CoppiceNames.Store.Wallet
import CoppiceNames.Store.Rewind
import CoppiceNames.Store.Observations
import CoppiceNames.Library.Collisions
import CoppiceNames.Reducer.Statement
import CoppiceNames.Transport.Identity
import CoppiceNames.Library.Slices
import CoppiceNames.Wallet.Recovery
import CoppiceNames.Wallet.Checkpoint
import CoppiceNames.Wallet.Preparation
import CoppiceNames.Wallet.Acceptance
import CoppiceNames.Wallet.Separation
import CoppiceNames.Library.Numbering
import CoppiceNames.Transport.Positions
import CoppiceNames.Library.Loops
import CoppiceNames.Checker.Advance
import CoppiceNames.Library.Assignment
import CoppiceNames.Wallet.Pczt
import CoppiceNames.Wallet.Witnesses
import CoppiceNames.Wallet.Signing
import CoppiceNames.Wallet.Plans
import CoppiceNames.Reducer.Resolution
import CoppiceNames.Reducer.Pending
import CoppiceNames.Library.Spelling
import CoppiceNames.Resolver.Canonical
import CoppiceNames.Library.Savepoints
import CoppiceNames.Store.Transactions
import CoppiceNames.Resolver.Lockstep
import CoppiceNames.Checker.Comparison
import CoppiceNames.Library.Outcomes
import CoppiceNames.Wallet.Bundle
import CoppiceNames.Wallet.RoleChecks
import CoppiceNames.Wallet.Assembled
import CoppiceNames.Store.Sessions
import CoppiceNames.Library.Cursor
import CoppiceNames.Checker.Vectors
