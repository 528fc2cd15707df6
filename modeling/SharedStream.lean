import SharedStream.Text.Blank
import SharedStream.Text.LowerCase
import SharedStream.Text.Lossy
import SharedStream.Text.Quoted
import SharedStream.Json.Printer
import SharedStream.Json.Reader
import SharedStream.Json.Record
import SharedStream.Instant.Reader
import SharedStream.Toml.Document
import SharedStream.Table
import SharedStream.Config.Layers
import SharedStream.Stats
import SharedStream.Cursor
import SharedStream.Store
import SharedStream.Source
import SharedStream.Sink
import SharedStream.Session.Reach
import SharedStream.Proofs.Exclusion
import SharedStream.Proofs.Frames
import SharedStream.Proofs.Stores
import SharedStream.Proofs.Deliveries
import SharedStream.Proofs.Content
import SharedStream.Proofs.Fidelity
import SharedStream.Proofs.Teardown
import SharedStream.Proofs.Freshness
import SharedStream.Proofs.Turns
import SharedStream.Proofs.StoreWaits
import SharedStream.Proofs.Pools.Conservation
import SharedStream.Proofs.Pools.Handling
import SharedStream.Proofs.Pools.Endings
import SharedStream.Proofs.Flights
import SharedStream.Proofs.Consistency
import SharedStream.Proofs.Shutdown
import SharedStream.Proofs.Owners
import SharedStream.Proofs.Unhindered
import SharedStream.Proofs.Lifetime
import SharedStream.Proofs.Failures
import SharedStream.Proofs.Accounts
import SharedStream.Proofs.StoreReads
import SharedStream.Proofs.StoreHistories
import SharedStream.Proofs.StableReads
import SharedStream.Proofs.Cursors
import SharedStream.Proofs.LoadRuns
import SharedStream.Proofs.Cancellations
import SharedStream.Proofs.Unnoticed
import SharedStream.Proofs.Tallies
import SharedStream.Proofs.Leases
import SharedStream.Proofs.Accesses
import SharedStream.Proofs.Streams
import SharedStream.Proofs.CopyLoop
import SharedStream.Proofs.Days
import SharedStream.Proofs.InstantTexts
import SharedStream.Proofs.JsonTexts
import SharedStream.Proofs.Layering
import SharedStream.Proofs.SerialForms
