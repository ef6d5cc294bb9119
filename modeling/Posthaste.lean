import Posthaste.Library.BTreeSet
import Posthaste.Library.Table
import Posthaste.Library.Override
import Posthaste.Library.Serde
import Posthaste.Library.Str
import Posthaste.Library.Effects
import Posthaste.Library.Transition
import Posthaste.Library.Batches
import Posthaste.Library.ContentIndex
import Posthaste.Library.Drain
import Posthaste.DomainModel.Commands
import Posthaste.DomainModel.Records
import Posthaste.DomainModel.Outbox
import Posthaste.DomainModel.Imap
import Posthaste.ReplicaCore.Message
import Posthaste.ReplicaCore.Convergence
import Posthaste.ReplicaCore.Retirement
import Posthaste.ReplicaCore.Settlement
import Posthaste.ReplicaCore.Invisible
import Posthaste.ReplicaCore.Bookkeeping
import Posthaste.ReplicaCore.Coalescing
import Posthaste.ReplicaCore.Undo
import Posthaste.Library.JsonPatch
import Posthaste.Engine.KeywordPatch
import Posthaste.Service.Automation
import Posthaste.Store.Outbox
import Posthaste.Store.Database
import Posthaste.Store.Overlay
import Posthaste.Store.Sync
import Posthaste.Store.Conversation
import Posthaste.Store.FullText
import Posthaste.Store.Rows
import Posthaste.Store.Locations
import Posthaste.Store.Floor
import Posthaste.Store.Membership
import Posthaste.Service.MessageQueries
import Posthaste.Service.Replay
import Posthaste.Service.Queue
import Posthaste.Service.Coalesce
import Posthaste.Service.Replayed
import Posthaste.Service.Retire
import Posthaste.Service.Mutation
import Posthaste.Service.Draft
import Posthaste.Service.Send
import Posthaste.Service.Push
import Posthaste.Service.Settle
import Posthaste.Service.Flush
import Posthaste.Service.SyncOps
import Posthaste.Service.Writes
import Posthaste.Service.SyncWrites
import Posthaste.Service.Presence
import Posthaste.Service.Sweep
import Posthaste.Service.Coverage
import Posthaste.Interleaving.Machine
import Posthaste.Interleaving.Steps
import Posthaste.Interleaving.SendOnce
import Posthaste.Interleaving.Lifecycle
import Posthaste.Interleaving.DraftSwap
import Posthaste.Interleaving.HeldSend
import Posthaste.Interleaving.PushLog
import Posthaste.Interleaving.PushOrder
import Posthaste.Convergence.FailedIntent
import Posthaste.Convergence.Isolation
import Posthaste.Convergence.Cycles
import Posthaste.Convergence.Calls
import Posthaste.Convergence.Truncation
import Posthaste.Imap.Projection
import Posthaste.Imap.Batches
import Posthaste.Imap.Projected
import Posthaste.Imap.Deletions
import Posthaste.Imap.MessageIds
import Posthaste.Imap.Keywords
import Posthaste.Imap.Gateway
import Posthaste.Imap.Cycle
import Posthaste.Imap.Survival
import Posthaste.Imap.Membership
import Posthaste.Imap.StreamOrder
import Posthaste.Imap.Server
import Posthaste.Imap.Sessions
import Posthaste.Imap.Watermark
import Posthaste.Provider.Breaker
import Posthaste.Provider.Executor
import Posthaste.Provider.Retry
import Posthaste.Engine.History
import Posthaste.Engine.Delta
import Posthaste.Engine.Listing
import Posthaste.Engine.Snapshot
import Posthaste.Engine.Pruning
import Posthaste.Engine.Anchoring
import Posthaste.Engine.Send
import Posthaste.SmartMailboxes.Conversations
import Posthaste.SmartMailboxes.RuleBoundary
import Posthaste.RevLog.Runs
import Posthaste.OauthRefresh.SingleFlight
import Posthaste.Config.NoLostUpdate
import Posthaste.DomainModel.UnsubscribeTargets
import Posthaste.Store.ProjectionsExact
import Posthaste.Imap.SessionReuse
import Posthaste.Commands.AppliedOnce
import Posthaste.Supervisor.OneRuntime
import Posthaste.Supervisor.TriggersKept
import Posthaste.Supervisor.StatusRuns
import Posthaste.Service.SnoozeRuns
import Posthaste.EventBus.NothingHidden
import Posthaste.Imap.Ghosts
import Posthaste.Store.Backfill
import Posthaste.Supervisor.PushStream
import Posthaste.Store.AddressBook
import Posthaste.Service.HeadOfLine
import Posthaste.Service.Faultless
import Posthaste.Service.Atomicity
import Posthaste.Service.BackfillRuns
import Posthaste.QueryGrammar.SpacedValues
import Posthaste.Imap.Replacement
import Posthaste.Imap.Redelivery
import Posthaste.Imap.Draft
import Posthaste.Client.ConversationTree
import Posthaste.Client.MailList
import Posthaste.Client.Prompts
import Posthaste.Engine.MailboxRole
