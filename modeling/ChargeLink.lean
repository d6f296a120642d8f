import ChargeLink.Binary64.Basic
import ChargeLink.Binary64.Shortest
import ChargeLink.Binary64.Text
import ChargeLink.Catalog.Basic
import ChargeLink.Catalog.V16
import ChargeLink.Catalog.V201
import ChargeLink.CentralSystem
import ChargeLink.Client
import ChargeLink.CommandLine
import ChargeLink.Connection.Basic
import ChargeLink.Connection.Link
import ChargeLink.Dispatch.Handler
import ChargeLink.Dispatch.Registry
import ChargeLink.Dispatch.Reply
import ChargeLink.Frame.Basic
import ChargeLink.Frame.Codec
import ChargeLink.Json.Printer
import ChargeLink.Json.Reader
import ChargeLink.Json.Value
import ChargeLink.Main
import ChargeLink.Net.Address
import ChargeLink.Protocol.Actions
import ChargeLink.Protocol.ErrorCode
import ChargeLink.Protocol.Role
import ChargeLink.Protocol.Version
import ChargeLink.Schema.Decode
import ChargeLink.Schema.Fault
import ChargeLink.Schema.Shape
import ChargeLink.Schema.Validate
import ChargeLink.Schema.Value
import ChargeLink.Schema.Violation
import ChargeLink.Server.Basic
import ChargeLink.Server.Counters
import ChargeLink.Server.Handshake
import ChargeLink.Server.Hub
import ChargeLink.Server.Negotiation
import ChargeLink.Server.SessionIndex
import ChargeLink.Session.Backoff
import ChargeLink.Session.Basic
import ChargeLink.Session.Config
import ChargeLink.Session.Event
import ChargeLink.Session.EventBus
import ChargeLink.Session.Exchange
import ChargeLink.Session.Failure
import ChargeLink.Session.Inbound
import ChargeLink.Session.Outbound
import ChargeLink.Session.PendingTable
import ChargeLink.Session.Station
import ChargeLink.Session.Supervisor
import ChargeLink.Settings.Basic
import ChargeLink.Settings.Check
import ChargeLink.Settings.Document
import ChargeLink.Settings.File
import ChargeLink.Shutdown
import ChargeLink.Text.Blank
import ChargeLink.Text.Quoted
import ChargeLink.Text.Shown
import ChargeLink.Text.Split
import ChargeLink.Time.Calendar
import ChargeLink.Time.Reader
import ChargeLink.Time.Timestamp
import ChargeLink.Toml.Draft
import ChargeLink.Toml.Printer
import ChargeLink.Toml.Reader
import ChargeLink.Toml.Value
import ChargeLink.Proofs.Session.Chronicle
import ChargeLink.Proofs.Session.Desk
import ChargeLink.Proofs.Session.Steps
import ChargeLink.Proofs.Session.Timers
import ChargeLink.Proofs.Session.Accounts
import ChargeLink.Proofs.Session.Order
import ChargeLink.Proofs.Session.Fleet
import ChargeLink.Proofs.Json.Plain
import ChargeLink.Proofs.Json.Tokens
import ChargeLink.Proofs.Binary64.Nearest
import ChargeLink.Proofs.Binary64.Shortest
import ChargeLink.Proofs.Binary64.Text
import ChargeLink.Proofs.Json.Doubles
import ChargeLink.Proofs.Json.ReadBack
import ChargeLink.Proofs.Json.Sound
import ChargeLink.Proofs.Frame.ReadBack
import ChargeLink.Proofs.Frame.RoundTrip
import ChargeLink.Proofs.Schema.RoundTrip
import ChargeLink.Proofs.Time.ReadBack
import ChargeLink.Proofs.Schema.Spellings
import ChargeLink.Proofs.Schema.Violations
import ChargeLink.Proofs.Schema.Fits
import ChargeLink.Proofs.Dispatch.Pipeline
import ChargeLink.Proofs.Catalog.Vocabulary
import ChargeLink.Proofs.Catalog.Reencoding
import ChargeLink.Proofs.Session.Growth
import ChargeLink.Proofs.Session.Service
import ChargeLink.Proofs.Session.Wire
import ChargeLink.Proofs.Session.Peer
import ChargeLink.Proofs.Session.Pair
import ChargeLink.Proofs.Session.Worker
import ChargeLink.Proofs.Session.Matching
import ChargeLink.Proofs.Session.Replies
import ChargeLink.Proofs.Session.Unmatched
import ChargeLink.Proofs.Session.Dialogue
import ChargeLink.Proofs.Session.Closing
import ChargeLink.Proofs.Session.Stations
import ChargeLink.Proofs.Session.Callers
import ChargeLink.Proofs.Session.Stopped
import ChargeLink.Proofs.Session.Halves
import ChargeLink.Proofs.Session.Interference
import ChargeLink.Proofs.Frame.Salvage
import ChargeLink.Proofs.Frame.Checks
import ChargeLink.Proofs.Schema.Paths
import ChargeLink.Proofs.Schema.Conforms
import ChargeLink.Proofs.Schema.Reasons
import ChargeLink.Proofs.Session.Malformed
import ChargeLink.Proofs.Session.Casebook
import ChargeLink.Proofs.Session.Retries
import ChargeLink.Proofs.Session.Attempts
import ChargeLink.Proofs.Dispatch.Faults
import ChargeLink.Proofs.Session.Discreet
import ChargeLink.Proofs.Server.Index
import ChargeLink.Proofs.Session.Notes
import ChargeLink.Proofs.Session.Forfeits
import ChargeLink.Proofs.Session.Custody
import ChargeLink.Proofs.Server.Connections
import ChargeLink.Proofs.Server.Hubs
import ChargeLink.Proofs.Server.Errands
import ChargeLink.Proofs.Server.Annals
import ChargeLink.Proofs.Server.Indexed
import ChargeLink.Proofs.Session.Unlinked
import ChargeLink.Proofs.Text.Bytes
import ChargeLink.Proofs.Schema.Least
import ChargeLink.Proofs.Schema.Missing
import ChargeLink.Proofs.Connection.Relay
import ChargeLink.Proofs.Connection.Ends
import ChargeLink.Proofs.Dispatch.Registrations
import ChargeLink.Proofs.Server.Negotiation
import ChargeLink.Proofs.Session.Lifelong
import ChargeLink.Proofs.Server.Reception
import ChargeLink.Proofs.Settings.Approval
import ChargeLink.Proofs.Server.Identity
import ChargeLink.Proofs.Toml.Proper
import ChargeLink.Proofs.Toml.Texts
import ChargeLink.Proofs.Toml.Values
import ChargeLink.Proofs.Toml.ReadBack
import ChargeLink.Proofs.Settings.Keys
import ChargeLink.Proofs.Settings.Overrides
