import Dialer.Clock
import Dialer.Duration.Text
import Dialer.Text.Quoted
import Dialer.Text.Json
import Dialer.Ip.Reader
import Dialer.Ip.Canonical
import Dialer.Target
import Dialer.CallError
import Dialer.Backoff
import Dialer.Breaker
import Dialer.Metrics
import Dialer.Timeout
import Dialer.Retry.Session
import Dialer.Breaker.Desk
import Dialer.Cancellation
import Dialer.Outbox
import Dialer.AddressCache
import Dialer.Resolver.Lookup
import Dialer.Config.Validation
import Dialer.Config.Decode
import Dialer.Agenda
import Dialer.ConnectError
import Dialer.Resolver.Registry
import Dialer.Breaker.Rule
import Dialer.Connector.Activity
import Dialer.Main
import Dialer.Proofs.Breaker.Operations
import Dialer.Proofs.Breaker.Tally
import Dialer.Proofs.Breaker.Traffic
import Dialer.Proofs.Breaker.Ledger
import Dialer.Proofs.Breaker.Balance
import Dialer.Proofs.Breaker.Moves
import Dialer.Proofs.Breaker.Trials
import Dialer.Proofs.Breaker.Progress
import Dialer.Proofs.Breaker.Outcomes
import Dialer.Proofs.Breaker.Notices
import Dialer.Proofs.Breaker.OpenPeriod
import Dialer.Proofs.Breaker.Staleness
import Dialer.Proofs.Breaker.Queries
import Dialer.Proofs.Breaker.Polling
import Dialer.Proofs.Backoff
import Dialer.Proofs.Call.Line
import Dialer.Proofs.Call.Steps
import Dialer.Proofs.Call.Switchboard
import Dialer.Proofs.Call.Log
import Dialer.Proofs.Call.Soundness
import Dialer.Proofs.Call.Protection
import Dialer.Proofs.Call.Invocations
import Dialer.Proofs.Retry.Decisions
import Dialer.Proofs.Retry.Course
import Dialer.Proofs.Resolver.Loop
import Dialer.Proofs.Resolver.Vigil
import Dialer.Proofs.Resolver.Requests
import Dialer.Proofs.Agenda
import Dialer.Proofs.Resolver.Deeds
import Dialer.Proofs.Resolver.Chronicle
import Dialer.Proofs.Resolver.Background
import Dialer.Proofs.Resolver.Silence
import Dialer.Proofs.Resolver.Provenance
import Dialer.Proofs.Config.Validation
import Dialer.Proofs.Connector.Office
import Dialer.Proofs.Connector.Sources
import Dialer.Proofs.Connector.Freshness
import Dialer.Proofs.Resolver.Passage
import Dialer.Proofs.Connector.Timeline
import Dialer.Proofs.Ip.Literals
import Dialer.Proofs.HostPort.Splitting
import Dialer.Proofs.HostPort.Grammar
import Dialer.Proofs.HostPort.Offsets
import Dialer.Proofs.HostPort.Parsing
import Dialer.Proofs.Target
import Dialer.Proofs.Call.Footprint
import Dialer.Proofs.Connector.Bureau
import Dialer.Proofs.Connector.Holdings
import Dialer.Proofs.Connector.Shutdown
import Dialer.Proofs.Connector.Veil
import Dialer.Proofs.Connector.Isolation
import Dialer.Proofs.Connector.Bequests
import Dialer.Proofs.Connector.Endings
import Dialer.Proofs.Connector.Connecting
import Dialer.Proofs.Resolver.Accounts
import Dialer.Proofs.Resolver.Books
import Dialer.Proofs.Connector.Sets
import Dialer.Proofs.Connector.Lobby
import Dialer.Retry.Future
import Dialer.Proofs.Breaker.Window
import Dialer.Proofs.Retry.Waits
import Dialer.Proofs.Retry.Cancellation
import Dialer.Proofs.Call.Renewal
import Dialer.Proofs.Resolver.Attendance
import Dialer.Proofs.Resolver.Cycle
import Dialer.Proofs.Ip.Sockets
import Dialer.Proofs.HostPort.Joining
import Dialer.Proofs.Connector.Literals
import Dialer.Proofs.Backoff.Growth
import Dialer.Proofs.Backoff.Sharing
import Dialer.Proofs.Duration.Words
import Dialer.Proofs.Backoff.Exact
import Dialer.Proofs.CallError
import Dialer.Proofs.Retry.Histories
import Dialer.Proofs.Retry.Bounds
import Dialer.Proofs.Address
