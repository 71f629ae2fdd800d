import RecordLog.Bytes.Script
import RecordLog.Coding.Decoder
import RecordLog.Environment.Scratch
import RecordLog.Environment.Seed
import RecordLog.Options.Printing
import RecordLog.Options.Reading
import RecordLog.Session
import RecordLog.Status.Render
import RecordLog.Status.Slots
import RecordLog.Toml.Format
import RecordLog.Volume.Fixture
import RecordLog.Proofs.Bytes.Cut
import RecordLog.Proofs.Text.Utf8
import RecordLog.Proofs.Text.Escape
import RecordLog.Proofs.Text.Separator
import RecordLog.Proofs.Coding.Words
import RecordLog.Proofs.Coding.Boundary
import RecordLog.Proofs.Coding.Grammar
import RecordLog.Proofs.Coding.Canonical
import RecordLog.Proofs.Coding.InPlace
import RecordLog.Proofs.Coding.FixedWidth
import RecordLog.Proofs.Coding.Truncation
import RecordLog.Proofs.Coding.Nested
import RecordLog.Proofs.Coding.Progress
import RecordLog.Proofs.Coding.Access
import RecordLog.Proofs.Coding.Malformed
import RecordLog.Proofs.Status.Block
import RecordLog.Proofs.Status.Soundness
import RecordLog.Proofs.Status.Codec
import RecordLog.Proofs.Status.Diagnostics
import RecordLog.Proofs.Status.Display
import RecordLog.Proofs.Lookup
import RecordLog.Proofs.Volume.Content
import RecordLog.Proofs.Volume.Writing
import RecordLog.Proofs.Volume.Frame
import RecordLog.Proofs.Volume.Path
import RecordLog.Proofs.Volume.Tree
import RecordLog.Proofs.Volume.Leading
import RecordLog.Proofs.Volume.Making
import RecordLog.Proofs.Writer.Stream
import RecordLog.Proofs.Writer.Intake
import RecordLog.Proofs.Writer.Run
import RecordLog.Proofs.Writer.Buffering
import RecordLog.Proofs.Writer.Handover
import RecordLog.Proofs.Writer.Closing
import RecordLog.Proofs.Writer.Refusal
import RecordLog.Proofs.Writer.Lag
import RecordLog.Proofs.Writer.Frame
import RecordLog.Proofs.Writer.Locality
import RecordLog.Proofs.Log.Record
import RecordLog.Proofs.Log.Writing
import RecordLog.Proofs.Session.Handles
import RecordLog.Proofs.Session.Using
import RecordLog.Proofs.Session.Apart
import RecordLog.Proofs.Session.Appending
import RecordLog.Proofs.Session.Interleaving
import RecordLog.Proofs.System.Report
import RecordLog.Proofs.System.Distinct
import RecordLog.Proofs.Session.Reporting
import RecordLog.Proofs.Session.Separation
import RecordLog.Proofs.Session.Growth
import RecordLog.Proofs.Session.Creation
import RecordLog.Proofs.Session.Scratch
import RecordLog.Proofs.Bytes.Order
import RecordLog.Proofs.Bytes.Collection
import RecordLog.Proofs.Bytes.Narrowing
import RecordLog.Proofs.Toml.Literal
import RecordLog.Proofs.Toml.Line
import RecordLog.Proofs.Options.Format
import RecordLog.Proofs.Options.Reading
import RecordLog.Proofs.Toml.Format
import RecordLog.Proofs.Options.Faults
import RecordLog.Proofs.Options.RoundTrip
import RecordLog.Proofs.Decimal.Signed64
import RecordLog.Proofs.Environment.Seed
