import PuffoAgent.Reminders.Custody
import PuffoAgent.Control.Replay
import PuffoAgent.Runtime.ToolResults
import PuffoAgent.Approvals.Protocol
import PuffoAgent.Invitations.Protocol
import PuffoAgent.Bridge.Correlation
import PuffoAgent.Freshness.Renotice
import PuffoAgent.Inbox.Walk
import PuffoAgent.Sending.Teardown
import PuffoAgent.Recovery.Restart
import PuffoAgent.Ingress.Threads
import PuffoAgent.Transport.Catchup
import PuffoAgent.Outbox.Reserve
import PuffoAgent.Reports.Kept
import PuffoAgent.Reminders.Exhaustion
import PuffoAgent.Freshness.Agreement
import PuffoAgent.Crypto.Signing
import PuffoAgent.Outbox.Projection
import PuffoAgent.Sending.Validation
import PuffoAgent.WsLocal.Commands
import PuffoAgent.Credentials.Safety
import PuffoAgent.Import.Obligation
import PuffoAgent.Unarchive.CrashSafety
import PuffoAgent.Bundle.Confinement
import PuffoAgent.Context.Resolution
import PuffoAgent.Runtime.Compaction
import PuffoAgent.Reminders.Recognition
import PuffoAgent.WsLocal.Rollback
import PuffoAgent.History.Paging
import PuffoAgent.History.Notes
import PuffoAgent.Projection.Unforgeable
import PuffoAgent.Wakeups.Coalescer
import PuffoAgent.Reminders.Deadline
import PuffoAgent.Outbox.Duplicates
import PuffoAgent.Outbox.Verdicts
import PuffoAgent.Reminders.Envelope
import PuffoAgent.Memory.Profile
import PuffoAgent.Crypto.CredentialKeys
import PuffoAgent.Runtime.SendCalls
import PuffoAgent.Ingress.Segments
import PuffoAgent.Inbox.Cursors
import PuffoAgent.Projection.Content
import PuffoAgent.Inbox.Targets
import PuffoAgent.Sending.Roots
import PuffoAgent.Contacts.Cache
import PuffoAgent.Credentials.Totality
import PuffoAgent.Credentials.Boot
import PuffoAgent.Schedules.Occurrences
import PuffoAgent.Notes.RoundTrip
import PuffoAgent.WsLocal.Cursor
import PuffoAgent.Crypto.KeyCustody
import PuffoAgent.Ingress.Sealing
import PuffoAgent.WsLocal.Endpoint
