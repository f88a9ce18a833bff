import TraceIndex.Codec
import TraceIndex.Ingest.Release
import TraceIndex.Ingest.Summary
import TraceIndex.Proofs.Accounting
import TraceIndex.Proofs.Acknowledged
import TraceIndex.Proofs.Alike
import TraceIndex.Proofs.AnnotationKeys
import TraceIndex.Proofs.ByteOrder
import TraceIndex.Proofs.Calendar
import TraceIndex.Proofs.Completions
import TraceIndex.Proofs.Counters
import TraceIndex.Proofs.Dimensions
import TraceIndex.Proofs.DocumentTokens
import TraceIndex.Proofs.Documents
import TraceIndex.Proofs.Draining
import TraceIndex.Proofs.Draws
import TraceIndex.Proofs.Drift
import TraceIndex.Proofs.DurationRanges
import TraceIndex.Proofs.EagerMarks
import TraceIndex.Proofs.Endings
import TraceIndex.Proofs.EventOrder
import TraceIndex.Proofs.Expiring
import TraceIndex.Proofs.Facts
import TraceIndex.Proofs.Fanout
import TraceIndex.Proofs.Forms
import TraceIndex.Proofs.Guards
import TraceIndex.Proofs.Instants
import TraceIndex.Proofs.JsonReading
import TraceIndex.Proofs.JsonTexts
import TraceIndex.Proofs.JsonTokens
import TraceIndex.Proofs.Layouts
import TraceIndex.Proofs.Ledger
import TraceIndex.Proofs.Literals
import TraceIndex.Proofs.Lookups
import TraceIndex.Proofs.Lowercasing
import TraceIndex.Proofs.Normalizing
import TraceIndex.Proofs.Opening
import TraceIndex.Proofs.Operations
import TraceIndex.Proofs.Origins
import TraceIndex.Proofs.Overlays
import TraceIndex.Proofs.PackedReading
import TraceIndex.Proofs.Partitions
import TraceIndex.Proofs.Passes
import TraceIndex.Proofs.Rejections
import TraceIndex.Proofs.Rendering
import TraceIndex.Proofs.Reorderings
import TraceIndex.Proofs.Repeats
import TraceIndex.Proofs.Replacement
import TraceIndex.Proofs.Retries
import TraceIndex.Proofs.Retryable
import TraceIndex.Proofs.RoundTrips
import TraceIndex.Proofs.Rows
import TraceIndex.Proofs.Scans
import TraceIndex.Proofs.Seconds
import TraceIndex.Proofs.Sequence
import TraceIndex.Proofs.ServiceNames
import TraceIndex.Proofs.Sights
import TraceIndex.Proofs.Skips
import TraceIndex.Proofs.Slots
import TraceIndex.Proofs.Tables
import TraceIndex.Proofs.Texts
import TraceIndex.Proofs.Touches
import TraceIndex.Proofs.Truncation
import TraceIndex.Proofs.Turns
import TraceIndex.Proofs.Uniformity
import TraceIndex.Settings.Document
import TraceIndex.Span.Keys
import TraceIndex.Span.Normal
import TraceIndex.Store.Expiry
import TraceIndex.Time.Sortable
