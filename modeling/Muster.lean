import Muster.Lib.Text
import Muster.Lib.Json
import Muster.Lib.Member
import Muster.Lib.PyRepr
import Muster.Lib.Dumps
import Muster.Lib.Loads
import Muster.Lib.Decoded
import Muster.Lib.RoundTrip
import Muster.Lib.Render
import Muster.Lib.LineFeed
import Muster.Lib.Firsts
import Muster.Lib.Keyspace
import Muster.Lib.FixedWindow
import Muster.Lib.Prog
import Muster.Lib.Pool
import Muster.Lib.Machine
import Muster.Identity
import Muster.Config
import Muster.Valkey
import Muster.Store
import Muster.Ops
import Muster.Reaper
import Muster.Stream
import Muster.Service
import Muster.Auth
import Muster.Api
import Muster.Sse
import Muster.Shim
import Muster.Sessions
import Muster.Drain
import Muster.Traffic
import Muster.StoreRuns
import Muster.OpsRuns
import Muster.CursorCoverage
import Muster.FetchRace
import Muster.ReaperRace
import Muster.KeepAlive
import Muster.PresenceOwner
import Muster.ShortPage
import Muster.MailLog
import Muster.NonInterference
import Muster.Principals
import Muster.Isolation
import Muster.Reconnect
import Muster.Refusals
import Muster.GroupAge
import Muster.Forwarding
import Muster.OwnGroups
import Muster.DrainMail
import Muster.DrainTriggers
import Muster.Orphans
import Muster.DirectoryMap
import Muster.RateWindow
import Muster.UnreadCount
import Muster.Failures
import Muster.References
import Muster.Announce
import Muster.Roster
import Muster.ResolverAnswers
import Muster.Cleanup
import Muster.Metadata
import Muster.Lib.Recency
import Muster.Relay
import Muster.Naming
import Muster.Segments
import Muster.Checkout
import Muster.BadFrames
import Muster.SelfRows
import Muster.Lib.Groups
import Muster.Lib.Lines
import Muster.Lib.OneLine
import Muster.OpenCode
import Muster.Listing
import Muster.RequestErrors
import Muster.RetryAfter
import Muster.Lib.Backoff
import Muster.Reconnects
import Muster.Lib.Cut
import Muster.Interrupted
import Muster.Rpc
import Muster.Lib.Raises
import Muster.Tools
import Muster.Wording
import Muster.Delivered
import Muster.Posted
import Muster.Shown
import Muster.Published
import Muster.Nudges
import Muster.Throttled
import Muster.SessionMail
import Muster.Described
import Muster.Outlives
import Muster.Replies
import Muster.Drained
