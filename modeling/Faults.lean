import Faults.Text.Printable
import Faults.Text.Blank
import Faults.Text.Segments
import Faults.Text.Part
import Faults.Text.Quoted
import Faults.Decimal.Shortest
import Faults.Decimal.Text
import Faults.Json.Basic
import Faults.Json.Writer
import Faults.Json.Mismatch
import Faults.Json.Number
import Faults.Json.Reader
import Faults.CallSite
import Faults.Entry.Basic
import Faults.Entry.Merge
import Faults.Entry.View
import Faults.Entry.Build
import Faults.Kind.Basic
import Faults.Kind.Builtin
import Faults.Kind.Registry
import Faults.Violation
import Faults.Event
import Faults.Kind.Catalog
import Faults.Failure.Basic
import Faults.Failure.Chain
import Faults.Failure.Propagation
import Faults.Failure.Log
import Faults.Wire.Report
import Faults.Wire.Codec
import Faults.Wire.Visibility
import Faults.Dump.Basic
import Faults.Dump.Model
import Faults.Template
import Faults.Future
import Faults.Service
import Faults.Proofs.Members
import Faults.Proofs.Tree
import Faults.Proofs.Views
import Faults.Proofs.Arrival
import Faults.Proofs.Runs
import Faults.Proofs.Secrecy
import Faults.Proofs.Publication
import Faults.Proofs.Gathering
import Faults.Proofs.Reception
import Faults.Proofs.Clashes
import Faults.Proofs.Detection
import Faults.Proofs.Regrouping
import Faults.Proofs.Registration
import Faults.Proofs.Tags
import Faults.Proofs.Restoration
import Faults.Proofs.Decoding
import Faults.Proofs.Lifecycle
import Faults.Proofs.Walk
import Faults.Proofs.Traces
import Faults.Proofs.Layers
import Faults.Proofs.Histories
import Faults.Proofs.Wrapping
import Faults.Proofs.Polls
import Faults.Proofs.Layering
import Faults.Proofs.Sessions
import Faults.Proofs.Lineages
import Faults.Proofs.ChainTexts
import Faults.Proofs.Insertion
import Faults.Proofs.Projection
import Faults.Proofs.Keywise
import Faults.Proofs.Bundles
import Faults.Proofs.Scopes
import Faults.Proofs.Spelling
import Faults.Proofs.Nesting
import Faults.Proofs.Brackets
import Faults.Proofs.Transmission
import Faults.Proofs.Redaction
