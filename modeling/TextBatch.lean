import TextBatch.Text.Utf8
import TextBatch.Text.Span
import TextBatch.Text.Unicode.Lowercase
import TextBatch.Text.Unicode.Cased
import TextBatch.Text.Unicode.CaseIgnorable
import TextBatch.Text.Case
import TextBatch.DataType
import TextBatch.Error
import TextBatch.Size
import TextBatch.Config
import TextBatch.Function.Arity
import TextBatch.Function.Builtin
import TextBatch.Storage.NullMap
import TextBatch.Storage.StringColumn
import TextBatch.Storage.Value
import TextBatch.Storage.Column
import TextBatch.Storage.Block
import TextBatch.Function.Argument
import TextBatch.Function.Fill
import TextBatch.Function.Join
import TextBatch.Function.Measure
import TextBatch.Function.Run
import TextBatch.Dispatch
import TextBatch.Registry
import TextBatch.Proofs.Cells
import TextBatch.Proofs.Steps
import TextBatch.Proofs.Dispatch
import TextBatch.Proofs.Rows
import TextBatch.Proofs.Slice
import TextBatch.Proofs.Kernels
import TextBatch.Proofs.Stripping
import TextBatch.Proofs.NullPolicy
import TextBatch.Proofs.RowSemantics
import TextBatch.Proofs.Folding
import TextBatch.Proofs.Veil
import TextBatch.Proofs.Frame
import TextBatch.Proofs.Written
import TextBatch.Proofs.WellFormed
import TextBatch.Proofs.Errors
import TextBatch.Proofs.Overlay
import TextBatch.Proofs.Flags
import TextBatch.Proofs.Packing
import TextBatch.Proofs.Lookup
import TextBatch.Proofs.Consistency
import TextBatch.Proofs.Resolve
import TextBatch.Proofs.Characters
import TextBatch.Proofs.Narrowing
import TextBatch.Proofs.Repetition
import TextBatch.Proofs.Normalization
import TextBatch.Proofs.Splitting
import TextBatch.Proofs.OwnNulls
