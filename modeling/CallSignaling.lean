import CallSignaling.Actor.Mailbox
import CallSignaling.Error
import CallSignaling.Json.Basic
import CallSignaling.Json.Document
import CallSignaling.Json.Number
import CallSignaling.Json.Printer
import CallSignaling.Json.Record
import CallSignaling.Json.Token
import CallSignaling.Locus.Replica
import CallSignaling.Locus.Sequence
import CallSignaling.Locus.Snapshot
import CallSignaling.Media.Outbox
import CallSignaling.Media.Request
import CallSignaling.Media.Response
import CallSignaling.Meeting.Basic
import CallSignaling.Metric
import CallSignaling.Outcome
import CallSignaling.Random
import CallSignaling.Roap.Dialog
import CallSignaling.Roap.Exchange
import CallSignaling.Roap.Message
import CallSignaling.Roap.Session
import CallSignaling.Scenario.Actor
import CallSignaling.Scenario.Desk
import CallSignaling.Scenario.Environment
import CallSignaling.Scenario.Gate
import CallSignaling.Scenario.Relay
import CallSignaling.Scenario.Run
import CallSignaling.Scenario.Wire
import CallSignaling.Scenario.World
import CallSignaling.Secret
import CallSignaling.Settings
import CallSignaling.SortedMap
import CallSignaling.Switchboard
import CallSignaling.Text.Printed
import CallSignaling.Text.Quoted
import CallSignaling.Turn.Discovery
import CallSignaling.Turn.Slot
import CallSignaling.Proofs.Counters
import CallSignaling.Proofs.Json.FreeFields
import CallSignaling.Proofs.Json.Keeping
import CallSignaling.Proofs.Json.Members
import CallSignaling.Proofs.Json.Numbers
import CallSignaling.Proofs.Json.Printing
import CallSignaling.Proofs.Json.RoundTrip
import CallSignaling.Proofs.Json.Scanning
import CallSignaling.Proofs.Json.Spelling
import CallSignaling.Proofs.Locus.Accounting
import CallSignaling.Proofs.Locus.Backlog
import CallSignaling.Proofs.Locus.Batches
import CallSignaling.Proofs.Locus.Chain
import CallSignaling.Proofs.Locus.Comparison
import CallSignaling.Proofs.Locus.Course
import CallSignaling.Proofs.Locus.Encoding
import CallSignaling.Proofs.Locus.Fates
import CallSignaling.Proofs.Locus.Position
import CallSignaling.Proofs.Locus.Publication
import CallSignaling.Proofs.Locus.Recovery
import CallSignaling.Proofs.Locus.Reordering
import CallSignaling.Proofs.Locus.Resync
import CallSignaling.Proofs.Locus.StallTimer
import CallSignaling.Proofs.Locus.Survival
import CallSignaling.Proofs.Locus.WellFormed
import CallSignaling.Proofs.Media.Coalescing
import CallSignaling.Proofs.Media.Delivery
import CallSignaling.Proofs.Media.Dispatch
import CallSignaling.Proofs.Media.Embedding
import CallSignaling.Proofs.Media.Freshness
import CallSignaling.Proofs.Media.Ledger
import CallSignaling.Proofs.Media.Renaming
import CallSignaling.Proofs.Media.Traffic
import CallSignaling.Proofs.Meeting.Activity
import CallSignaling.Proofs.Meeting.Answering
import CallSignaling.Proofs.Meeting.Callers
import CallSignaling.Proofs.Meeting.Course
import CallSignaling.Proofs.Meeting.Duties
import CallSignaling.Proofs.Meeting.FailedOffers
import CallSignaling.Proofs.Meeting.Numbering
import CallSignaling.Proofs.Meeting.Offering
import CallSignaling.Proofs.Meeting.Syncing
import CallSignaling.Proofs.Roap.Accounting
import CallSignaling.Proofs.Roap.Answers
import CallSignaling.Proofs.Roap.Coherence
import CallSignaling.Proofs.Roap.Completion
import CallSignaling.Proofs.Roap.Course
import CallSignaling.Proofs.Roap.Exchange
import CallSignaling.Proofs.Roap.Failure
import CallSignaling.Proofs.Roap.Glare
import CallSignaling.Proofs.Roap.Isolation
import CallSignaling.Proofs.Roap.Lookup
import CallSignaling.Proofs.Roap.Offers
import CallSignaling.Proofs.Roap.Progress
import CallSignaling.Proofs.Roap.Reading
import CallSignaling.Proofs.Roap.Restart
import CallSignaling.Proofs.Scenario.Changes
import CallSignaling.Proofs.Scenario.Desks
import CallSignaling.Proofs.Scenario.Engagements
import CallSignaling.Proofs.Scenario.Meetings
import CallSignaling.Proofs.Scenario.Moves
import CallSignaling.Proofs.Scenario.Relays
import CallSignaling.Proofs.Scenario.Wires
import CallSignaling.Proofs.Switchboard.Awareness
import CallSignaling.Proofs.Switchboard.Books
import CallSignaling.Proofs.Switchboard.Service
import CallSignaling.Proofs.Switchboard.Table
import CallSignaling.Proofs.Turn.Calls
import CallSignaling.Proofs.Turn.Exchanges
import CallSignaling.Proofs.Turn.Grounds
import CallSignaling.Proofs.Turn.LateReplies
import CallSignaling.Proofs.Turn.Operations
import CallSignaling.Proofs.Turn.Requests
import CallSignaling.Proofs.Turn.Results
import CallSignaling.Proofs.Turn.Safety
import CallSignaling.Proofs.Turn.Soundness
import CallSignaling.Proofs.Turn.Steps
import CallSignaling.Proofs.WireForms
