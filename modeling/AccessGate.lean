import AccessGate.Access
import AccessGate.Access.Wire
import AccessGate.Audit.Log
import AccessGate.Audit.Outcome
import AccessGate.Audit.Record
import AccessGate.Binary64.Basic
import AccessGate.Binary64.Shortest
import AccessGate.Breaker.Basic
import AccessGate.Breaker.Exchange
import AccessGate.Breaker.State
import AccessGate.Cache.Basic
import AccessGate.Cache.Interleaving
import AccessGate.Cache.Key
import AccessGate.Config.Basic
import AccessGate.Config.Environment
import AccessGate.Config.Load
import AccessGate.Config.Wire
import AccessGate.Digest.Credential
import AccessGate.Digest.Sha256
import AccessGate.Duration
import AccessGate.Error
import AccessGate.Gate.Authorize
import AccessGate.Gate.Basic
import AccessGate.Gate.Callback
import AccessGate.Gate.Interleaving
import AccessGate.Gate.Lifetime
import AccessGate.Gate.Uninterrupted
import AccessGate.Gate.Upkeep
import AccessGate.Handler
import AccessGate.Health
import AccessGate.Json.Basic
import AccessGate.Json.Decode
import AccessGate.Json.Document
import AccessGate.Json.Draft
import AccessGate.Json.Number
import AccessGate.Json.Printer
import AccessGate.Json.Reader
import AccessGate.Json.Token
import AccessGate.Message.Envelope
import AccessGate.Message.Header
import AccessGate.Operation
import AccessGate.Ownership
import AccessGate.Ownership.Change
import AccessGate.Permission.Basic
import AccessGate.Permission.Grammar
import AccessGate.Permission.Implication
import AccessGate.Permission.Wire
import AccessGate.Poller
import AccessGate.Poller.Interleaving
import AccessGate.Poller.Session
import AccessGate.Principal
import AccessGate.Proofs.Access.Administration
import AccessGate.Proofs.Access.Confinement
import AccessGate.Proofs.Access.CrossService
import AccessGate.Proofs.Access.Narrowing
import AccessGate.Proofs.Access.Priority
import AccessGate.Proofs.Audit.Retention
import AccessGate.Proofs.Breaker.Reports
import AccessGate.Proofs.Breaker.Reset
import AccessGate.Proofs.Breaker.Safety
import AccessGate.Proofs.Breaker.Sequential
import AccessGate.Proofs.Breaker.Traffic
import AccessGate.Proofs.Cache.Accounting
import AccessGate.Proofs.Cache.Agreement
import AccessGate.Proofs.Cache.Cleanup
import AccessGate.Proofs.Cache.Entries
import AccessGate.Proofs.Cache.History
import AccessGate.Proofs.Cache.Refinement
import AccessGate.Proofs.Config.Layers
import AccessGate.Proofs.Config.Rewriting
import AccessGate.Proofs.Gate.Answers
import AccessGate.Proofs.Gate.Contact
import AccessGate.Proofs.Gate.Course
import AccessGate.Proofs.Gate.Expiry
import AccessGate.Proofs.Gate.Failure
import AccessGate.Proofs.Gate.Lifetimes
import AccessGate.Proofs.Gate.Ownership
import AccessGate.Proofs.Gate.Replies
import AccessGate.Proofs.Gate.Revocation
import AccessGate.Proofs.Gate.Room
import AccessGate.Proofs.Gate.Steps
import AccessGate.Proofs.Gate.Switch
import AccessGate.Proofs.Gate.Trail
import AccessGate.Proofs.Gate.Unlisted
import AccessGate.Proofs.Gate.Upkeep
import AccessGate.Proofs.Gate.Warrant
import AccessGate.Proofs.Json.Fields
import AccessGate.Proofs.Json.Members
import AccessGate.Proofs.Message.Agreement
import AccessGate.Proofs.Message.Delivery
import AccessGate.Proofs.Message.Discretion
import AccessGate.Proofs.Ownership.Record
import AccessGate.Proofs.Permission.Actions
import AccessGate.Proofs.Permission.Closure
import AccessGate.Proofs.Permission.Embedding
import AccessGate.Proofs.Permission.Order
import AccessGate.Proofs.Permission.Reading
import AccessGate.Proofs.Permission.Satisfaction
import AccessGate.Proofs.Poller.Separation
import AccessGate.Proofs.Remote.Race
import AccessGate.Proofs.Remote.Session
import AccessGate.Proofs.Role.Catalog
import AccessGate.Proofs.Role.Standard
import AccessGate.Proofs.Wire.RoundTrip
import AccessGate.Remote.Call
import AccessGate.Remote.Race
import AccessGate.Remote.Runtime
import AccessGate.Remote.Session
import AccessGate.Reply
import AccessGate.Role
import AccessGate.Role.Wire
import AccessGate.Table
import AccessGate.Text.Blank
import AccessGate.Text.Natural
import AccessGate.Text.Quoted
import AccessGate.Text.Segments
import AccessGate.Text.Sorted
import AccessGate.Text.Unseen
import AccessGate.Timestamp.Basic
import AccessGate.Timestamp.Text
import AccessGate.Timestamp.Wire
import AccessGate.Uuid
import AccessGate.Validation.Reply
import AccessGate.Validator.Basic
import AccessGate.Validator.Queue
import AccessGate.Validator.Tokens
