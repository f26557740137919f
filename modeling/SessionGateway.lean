import SessionGateway.Gateway.Basic
import SessionGateway.Identity.Exchange
import SessionGateway.Main
import SessionGateway.Observation
import SessionGateway.Text.Quoted
import SessionGateway.Proofs.Text.Decimal
import SessionGateway.Proofs.Json.Scanning
import SessionGateway.Proofs.Json.Spelling
import SessionGateway.Proofs.Json.RoundTrip
import SessionGateway.Proofs.Entry
import SessionGateway.Proofs.Cache.Keys
import SessionGateway.Proofs.Program.Runs
import SessionGateway.Proofs.Store.Memory
import SessionGateway.Proofs.Cache.Answers
import SessionGateway.Proofs.Cache.Mirror
import SessionGateway.Proofs.Cache.Writing
import SessionGateway.Proofs.Cache.Reading
import SessionGateway.Proofs.Cache.History
import SessionGateway.Proofs.Cluster.Answers
import SessionGateway.Proofs.Lifecycle.Steps
import SessionGateway.Proofs.Lifecycle.Opening
import SessionGateway.Proofs.Lifecycle.Upkeep
import SessionGateway.Proofs.Directory
import SessionGateway.Proofs.Lifecycle.Halves
import SessionGateway.Proofs.Lifecycle.Agreement
import SessionGateway.Proofs.Lifecycle.Locking
import SessionGateway.Proofs.Lifecycle.Interleaving
import SessionGateway.Proofs.Dispatch.Turns
import SessionGateway.Proofs.Cache.Races
import SessionGateway.Proofs.Lifecycle.Events
import SessionGateway.Proofs.Lifecycle.Errands
import SessionGateway.Proofs.Lifecycle.Gauge
import SessionGateway.Proofs.Cache.Instant
import SessionGateway.Proofs.Lifecycle.Pass
import SessionGateway.Proofs.Store.Expiry
import SessionGateway.Proofs.Json.Members
import SessionGateway.Proofs.Json.Merge
import SessionGateway.Proofs.Envelope
import SessionGateway.Proofs.Text.Utf8
import SessionGateway.Proofs.Settings.Environment
import SessionGateway.Proofs.Settings.Layers
import SessionGateway.Proofs.Settings.Corrections
import SessionGateway.Proofs.Gateway.Sessions
import SessionGateway.Proofs.Gateway.Admission
import SessionGateway.Proofs.Lifecycle.Namesakes
import SessionGateway.Proofs.Encoding
import SessionGateway.Proofs.Redis.Server
import SessionGateway.Proofs.Cache.Comparison
import SessionGateway.Proofs.Cache.Sweeping
import SessionGateway.Proofs.Cache.Backends
import SessionGateway.Proofs.Lifecycle.Scope
import SessionGateway.Proofs.Gateway.Draining
import SessionGateway.Proofs.Startup
import SessionGateway.Proofs.Dispatch.Groups
import SessionGateway.Proofs.Delivery
import SessionGateway.Proofs.Lifecycle.Rollback
import SessionGateway.Proofs.Cache.Freshness
import SessionGateway.Proofs.Lifecycle.Leftovers
import SessionGateway.Proofs.Lifecycle.Places
import SessionGateway.Proofs.Lifecycle.Republishing
import SessionGateway.Proofs.Text.Numeral
import SessionGateway.Proofs.Identity
import SessionGateway.Proofs.Dispatch.Registration
import SessionGateway.Proofs.Lifecycle.Closing
import SessionGateway.Proofs.Cluster.Pulses
import SessionGateway.Proofs.Gateway.Idleness
import SessionGateway.Proofs.Text.Trimming
import SessionGateway.Proofs.Handshake
import SessionGateway.Proofs.Json.Paths
import SessionGateway.Proofs.Settings.Telling
