import Docuverse.Address.Basic
import Docuverse.Address.Scope
import Docuverse.Choices
import Docuverse.Connection
import Docuverse.Enfilade.Basic
import Docuverse.Enfilade.Json
import Docuverse.Enfilade.Reading
import Docuverse.Fault
import Docuverse.Json.Basic
import Docuverse.Json.Literal
import Docuverse.Json.Reading
import Docuverse.Json.Token
import Docuverse.Json.Writing
import Docuverse.Opcode
import Docuverse.Request
import Docuverse.Session
import Docuverse.Settings
import Docuverse.Sharing
import Docuverse.Span.Basic
import Docuverse.Span.Region
import Docuverse.SpecSet.Basic
import Docuverse.SpecSet.Json
import Docuverse.Text.Bytes
import Docuverse.Text.Decimal
import Docuverse.Text.Fields
import Docuverse.Text.Quoted
import Docuverse.Tumbler.Arithmetic
import Docuverse.Tumbler.Basic
import Docuverse.Tumbler.Forms
import Docuverse.Wire.Inbound
import Docuverse.Wire.Reading
import Docuverse.Wire.Value
import Docuverse.Proofs.Address.Nesting
import Docuverse.Proofs.Address.Splitting
import Docuverse.Proofs.Alignment
import Docuverse.Proofs.BoundedReading
import Docuverse.Proofs.Checked
import Docuverse.Proofs.Commands
import Docuverse.Proofs.Coordinates
import Docuverse.Proofs.Distance
import Docuverse.Proofs.Enfilade.Export
import Docuverse.Proofs.Enfilade.Framing
import Docuverse.Proofs.Enfilade.Grammar
import Docuverse.Proofs.Enfilade.Parsing
import Docuverse.Proofs.Enfilade.Parts
import Docuverse.Proofs.Greeting
import Docuverse.Proofs.Json.Blanks
import Docuverse.Proofs.Json.Building
import Docuverse.Proofs.Json.Literal
import Docuverse.Proofs.Json.Records
import Docuverse.Proofs.Json.Restoring
import Docuverse.Proofs.Json.Scanning
import Docuverse.Proofs.Json.Writing
import Docuverse.Proofs.Limits
import Docuverse.Proofs.LinkFollow
import Docuverse.Proofs.Locality
import Docuverse.Proofs.MaximalRuns
import Docuverse.Proofs.OutOfStep
import Docuverse.Proofs.Resending
import Docuverse.Proofs.RoundTrip
import Docuverse.Proofs.Session.Replies
import Docuverse.Proofs.Session.Sending
import Docuverse.Proofs.Session.Talking
import Docuverse.Proofs.Session.Tellings
import Docuverse.Proofs.Sharing
import Docuverse.Proofs.SortedSpans
import Docuverse.Proofs.Span.Containment
import Docuverse.Proofs.Span.Document
import Docuverse.Proofs.Span.Intersection
import Docuverse.Proofs.Span.Overlap
import Docuverse.Proofs.Span.Region
import Docuverse.Proofs.SpecSet.Arrangement
import Docuverse.Proofs.Text.Fields
import Docuverse.Proofs.Tumbler.Arithmetic
import Docuverse.Proofs.Tumbler.ExponentForm
import Docuverse.Proofs.Tumbler.Monotone
import Docuverse.Proofs.Tumbler.Order
import Docuverse.Proofs.UniqueDecoding
import Docuverse.Proofs.Wire.Chunk
import Docuverse.Proofs.Wire.Deciding
import Docuverse.Proofs.Wire.FirstDecision
import Docuverse.Proofs.Wire.Framing
import Docuverse.Proofs.Wire.InRange
import Docuverse.Proofs.Wire.Pieces
import Docuverse.Proofs.Wire.Refusal
import Docuverse.Proofs.Wire.Typed
